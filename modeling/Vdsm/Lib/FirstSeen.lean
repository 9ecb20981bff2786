import Mathlib.Data.List.Forall2
import Mathlib.Data.List.Nodup

/-!
# Keeping the first element of each key

`keepNew` is the idiom `if !seen.insert(key(a)) { continue; }` over a list. Nothing is dropped exactly
when the keys are distinct, and `forall₂_keepNew_iff` says so for a list that is parsed, filtered and
mapped: each source element has its own result iff all of them parse and their keys are distinct.
-/

namespace FirstSeen

variable {α β γ κ : Type} [DecidableEq κ]

/-- The elements whose key is not in `seen` and was not the key of an earlier element. -/
def keepNew (key : α → κ) : List κ → List α → List α
  | _, [] => []
  | seen, a :: l =>
    if key a ∈ seen then keepNew key seen l else a :: keepNew key (key a :: seen) l

/-- What is kept stands in the order of the list. -/
theorem keepNew_sublist (key : α → κ) (seen : List κ) (l : List α) :
    (keepNew key seen l).Sublist l := by
  induction l generalizing seen with
  | nil => exact .slnil
  | cons a l ih =>
    rw [keepNew]
    split
    · exact (ih seen).cons a
    · exact (ih _).cons_cons a

/-- All of a list is kept exactly if its keys are distinct and none was seen before. -/
theorem keepNew_eq_self_iff_of_seen (key : α → κ) (seen : List κ) (l : List α) :
    keepNew key seen l = l ↔ (l.map key).Nodup ∧ ∀ a ∈ l, key a ∉ seen := by
  induction l generalizing seen with
  | nil => simp [keepNew]
  | cons a l ih =>
    rw [keepNew]
    by_cases hseen : key a ∈ seen
    · -- a dropped element leaves too few
      rw [if_pos hseen]
      refine iff_of_false (fun heq => ?_) fun h => h.2 a (by simp) hseen
      have hlen := (keepNew_sublist key seen l).length_le
      rw [heq, List.length_cons] at hlen
      omega
    · rw [if_neg hseen, List.cons.injEq, ih]
      simp only [true_and, List.mem_cons, not_or, List.map_cons, List.nodup_cons, List.mem_map,
        not_exists, not_and, forall_eq_or_imp, hseen, not_false_eq_true]
      constructor
      · rintro ⟨hnodup, hnew⟩
        exact ⟨⟨fun b hb => (hnew b hb).1, hnodup⟩, fun b hb => (hnew b hb).2⟩
      · rintro ⟨⟨hne, hnodup⟩, hnew⟩
        exact ⟨hnodup, fun b hb => ⟨hne b hb, hnew b hb⟩⟩

/-- Everything is kept iff the keys are distinct. -/
theorem keepNew_eq_self_iff (key : α → κ) (l : List α) :
    keepNew key [] l = l ↔ (l.map key).Nodup := by
  rw [keepNew_eq_self_iff_of_seen]
  simp

/-- No two kept elements have the same key. -/
theorem nodup_keepNew (key : α → κ) (l : List α) : ((keepNew key [] l).map key).Nodup := by
  have h : ∀ seen : List κ, ((keepNew key seen l).map key).Nodup ∧
      ∀ a ∈ keepNew key seen l, key a ∉ seen := by
    induction l with
    | nil => simp [keepNew]
    | cons a l ih =>
      intro seen
      rw [keepNew]
      split
      · exact ih seen
      · rename_i hseen
        obtain ⟨hnodup, hnew⟩ := ih (key a :: seen)
        constructor
        · rw [List.map_cons, List.nodup_cons]
          refine ⟨fun hmem => ?_, hnodup⟩
          obtain ⟨b, hb, heq⟩ := List.mem_map.mp hmem
          exact hnew b hb (by simp [heq])
        · intro b hb
          rcases List.mem_cons.mp hb with rfl | hb
          · exact hseen
          · exact fun hmem => hnew b hb (by simp [hmem])
  exact (h []).1

/-- What is kept depends on `seen` as a set. -/
theorem keepNew_congr (key : α → κ) {seen seen' : List κ} (h : ∀ k, k ∈ seen ↔ k ∈ seen')
    (l : List α) : keepNew key seen l = keepNew key seen' l := by
  induction l generalizing seen seen' with
  | nil => rfl
  | cons a l ih =>
    have hcons : ∀ k, k ∈ key a :: seen ↔ k ∈ key a :: seen' := fun k => by
      rw [List.mem_cons, List.mem_cons, h k]
    rw [keepNew, keepNew, ih h, ih hcons]
    exact if_congr (h _) rfl rfl

/-- Where the keys are distinct, only what was seen before is dropped. -/
theorem keepNew_of_nodup (key : α → κ) (seen : List κ) {l : List α} (h : (l.map key).Nodup) :
    keepNew key seen l = l.filter fun a => key a ∉ seen := by
  induction l generalizing seen with
  | nil => rfl
  | cons a l ih =>
    rw [List.map_cons, List.nodup_cons] at h
    rw [keepNew, ih seen h.2, ih (key a :: seen) h.2]
    have hrest : l.filter (fun b => key b ∉ key a :: seen) = l.filter fun b => key b ∉ seen := by
      refine List.filter_congr fun b hb => ?_
      have hne : key b ≠ key a := fun heq => h.1 (heq ▸ List.mem_map_of_mem hb)
      simp [hne]
    by_cases hseen : key a ∈ seen
    · rw [if_pos hseen, List.filter_cons_of_neg (by simpa using hseen)]
    · rw [if_neg hseen, hrest, List.filter_cons_of_pos (by simpa using hseen)]

/-- `if !acc.contains(&a) { acc.push(a) }` over a list. -/
theorem foldl_push_eq (acc l : List κ) :
    l.foldl (fun acc a => if acc.contains a then acc else acc ++ [a]) acc
      = acc ++ keepNew id acc l := by
  induction l generalizing acc with
  | nil => simp [keepNew]
  | cons a l ih =>
    rw [List.foldl_cons, ih, keepNew]
    by_cases hmem : a ∈ acc
    · rw [if_pos (by simpa using hmem), if_pos (by simpa using hmem)]
    · rw [if_neg (by simpa using hmem), if_neg (by simpa using hmem), List.append_assoc,
        List.singleton_append]
      have hsame : ∀ k, k ∈ acc ++ [a] ↔ k ∈ id a :: acc := fun k => by simp [or_comm]
      rw [keepNew_congr id hsame]

/-- Where nothing is left out, elements and results correspond one by one. -/
theorem forall₂_filterMap_iff {R : α → γ → Prop} {f : α → Option β} {g : β → γ} {l : List α}
    (hall : ∀ a ∈ l, (f a).isSome) :
    List.Forall₂ R l ((l.filterMap f).map g) ↔ ∀ a ∈ l, ∀ b, f a = some b → R a (g b) := by
  induction l with
  | nil => simp
  | cons a l ih =>
    obtain ⟨b, hb⟩ := Option.isSome_iff_exists.mp (hall a (by simp))
    rw [List.filterMap_cons_some hb, List.map_cons, List.forall₂_cons,
      ih fun a ha => hall a (by simp [ha])]
    simp [hb]

omit [DecidableEq κ] in
/-- The keys of the results are the identifiers of the elements. -/
theorem map_filterMap_eq {f : α → Option β} {key : β → κ} {ident : α → Option κ} {l : List α}
    (hident : ∀ a b, f a = some b → ident a = some (key b)) (hall : ∀ a ∈ l, (f a).isSome) :
    (l.filterMap f).map key = l.filterMap ident := by
  rw [List.map_filterMap]
  refine List.filterMap_congr fun a ha => ?_
  obtain ⟨b, hb⟩ := Option.isSome_iff_exists.mp (hall a ha)
  rw [hb, hident a b hb, Option.map_some]

/-- Each element has its own result iff all parse, no key comes twice, and each parsed element gives
a result for it. -/
theorem forall₂_keepNew_iff (R : α → γ → Prop) {f : α → Option β} {key : β → κ} (g : β → γ)
    {ident : α → Option κ} (hident : ∀ a b, f a = some b → ident a = some (key b)) (l : List α) :
    List.Forall₂ R l ((keepNew key [] (l.filterMap f)).map g) ↔
      (∀ a ∈ l, (f a).isSome) ∧ (l.filterMap ident).Nodup ∧
        ∀ a ∈ l, ∀ b, f a = some b → R a (g b) := by
  constructor
  · intro h
    -- three lengths, each at most the next, with equal ends
    have hlen : l.length = (keepNew key [] (l.filterMap f)).length := by simpa using h.length_eq
    have hsub := keepNew_sublist key [] (l.filterMap f)
    have hle : (l.filterMap f).length ≤ l.length := List.length_filterMap_le f l
    have hkept : keepNew key [] (l.filterMap f) = l.filterMap f :=
      hsub.eq_of_length (Nat.le_antisymm hsub.length_le (hlen ▸ hle))
    have hall : ∀ a ∈ l, (f a).isSome := by
      rw [hkept] at hlen
      exact List.filterMap_length_eq_length.mp hlen.symm
    rw [hkept] at h
    refine ⟨hall, ?_, (forall₂_filterMap_iff hall).mp h⟩
    rw [← map_filterMap_eq hident hall]
    exact (keepNew_eq_self_iff key _).mp hkept
  · rintro ⟨hall, hnodup, hR⟩
    rw [← map_filterMap_eq hident hall] at hnodup
    rw [(keepNew_eq_self_iff key _).mpr hnodup]
    exact (forall₂_filterMap_iff hall).mpr hR

end FirstSeen
