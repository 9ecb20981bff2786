import Mathlib.Data.List.Basic
import Mathlib.Data.List.Induction
import Mathlib.Data.List.Nodup

/-!
# Linked hash maps

A linked hash map is the list of its entries in the order it keeps. Where an insertion puts its
entry, and whether a replaced entry moves, differs between implementations; `LawfulInsert` is what
they share. `bindsLast_foldl` is the rule for a map that is filled from a list of pairs with
duplicate keys: each key ends up with the value of its last pair. `insertBack` is the insertion that
puts the entry last.
-/

namespace LinkedHashMap

variable {κ υ : Type}

/-- An insertion binds its key to its value, leaves the other bindings and keeps one entry for each
key. -/
structure LawfulInsert (insert : List (κ × υ) → κ → υ → List (κ × υ)) : Prop where
  mem_insert : ∀ h k v k' v',
    (k', v') ∈ insert h k v ↔ (k' = k ∧ v' = v) ∨ (k' ≠ k ∧ (k', v') ∈ h)
  nodup_insert : ∀ h k v, (h.map Prod.fst).Nodup → ((insert h k v).map Prod.fst).Nodup

/-- In `h` each key of `pairs` has the value of its last occurrence, and no other key is bound. -/
def BindsLast (h pairs : List (κ × υ)) : Prop :=
  (h.map Prod.fst).Nodup ∧
  ∀ k v, (k, v) ∈ h ↔
    ∃ before after, pairs = before ++ (k, v) :: after ∧ ∀ e ∈ after, e.1 ≠ k

theorem bindsLast_nil : BindsLast ([] : List (κ × υ)) [] := by
  refine ⟨List.nodup_nil, fun k v => iff_of_false List.not_mem_nil ?_⟩
  rintro ⟨before, after, hpairs, -⟩
  exact List.append_ne_nil_of_right_ne_nil before (List.cons_ne_nil _ _) hpairs.symm

/-- A pair more at the end decides for its own key and for no other. -/
theorem last_append_singleton_iff {pairs : List (κ × υ)} {e : κ × υ} {k : κ} {v : υ} :
    (∃ before after, pairs ++ [e] = before ++ (k, v) :: after ∧ ∀ e ∈ after, e.1 ≠ k) ↔
      (k = e.1 ∧ v = e.2) ∨
      (k ≠ e.1 ∧ ∃ before after, pairs = before ++ (k, v) :: after ∧ ∀ e ∈ after, e.1 ≠ k) := by
  constructor
  · rintro ⟨before, after, hpairs, hafter⟩
    cases after using List.reverseRecOn with
    | nil =>
      obtain ⟨-, rfl⟩ := List.append_singleton_inj.mp hpairs
      exact .inl ⟨rfl, rfl⟩
    | append_singleton after d =>
      rw [← List.cons_append, ← List.append_assoc] at hpairs
      obtain ⟨rfl, rfl⟩ := List.append_singleton_inj.mp hpairs
      have hne := hafter e (List.mem_append_right _ List.mem_cons_self)
      exact .inr ⟨hne.symm, before, after, rfl, fun d hd => hafter d (List.mem_append_left _ hd)⟩
  · rintro (⟨rfl, rfl⟩ | ⟨hne, before, after, rfl, hafter⟩)
    · exact ⟨pairs, [], rfl, fun d hd => absurd hd List.not_mem_nil⟩
    · refine ⟨before, after ++ [e], by rw [List.append_assoc, List.cons_append], fun d hd => ?_⟩
      obtain hd | hd := List.mem_append.mp hd
      · exact hafter d hd
      · rw [List.mem_singleton.mp hd]
        exact hne.symm

/-- Inserting pairs in order binds each key to the last of its values. -/
theorem bindsLast_foldl {insert : List (κ × υ) → κ → υ → List (κ × υ)}
    (hinsert : LawfulInsert insert) (pairs : List (κ × υ)) :
    BindsLast (pairs.foldl (fun h e => insert h e.1 e.2) []) pairs := by
  induction pairs using List.reverseRecOn with
  | nil => exact bindsLast_nil
  | append_singleton pairs e ih =>
    obtain ⟨hnodup, hmem⟩ := ih
    rw [List.foldl_append, List.foldl_cons, List.foldl_nil]
    refine ⟨hinsert.nodup_insert _ _ _ hnodup, fun k v => ?_⟩
    rw [hinsert.mem_insert, hmem, last_append_singleton_iff]

/-- The entry goes to the back, also where it replaces one. -/
def insertBack [DecidableEq κ] (h : List (κ × υ)) (k : κ) (v : υ) : List (κ × υ) :=
  h.filter (fun e => e.1 ≠ k) ++ [(k, v)]

/-- Inserting at the back, as `LinkedHashMap::insert` does, is lawful. -/
theorem lawfulInsert_insertBack [DecidableEq κ] : LawfulInsert (insertBack (κ := κ) (υ := υ)) where
  mem_insert h k v k' v' := by
    rw [insertBack, List.mem_append, List.mem_filter, List.mem_singleton, Prod.mk.injEq,
      decide_eq_true_eq, or_comm, and_comm (a := (k', v') ∈ h)]
  nodup_insert h k v hnodup := by
    rw [insertBack, List.map_append]
    refine List.Nodup.append (hnodup.sublist (List.filter_sublist.map _))
      (List.nodup_singleton k) ?_
    intro k' hfiltered hk
    obtain ⟨e, he, rfl⟩ := List.mem_map.mp hfiltered
    exact of_decide_eq_true (List.mem_filter.mp he).2 (List.mem_singleton.mp hk)

end LinkedHashMap
