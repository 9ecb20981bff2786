import Mathlib.Data.List.AList

/-!
# Hash maps

A `HashMap<K, V>` is Mathlib's association list with distinct keys, the most recent insertion
first. `get`, `insert` and `remove` are `AList.lookup`, `AList.insert` and `AList.erase`; `retain`
and `modify` (assignment through `get_mut`) are defined here with their lookup rules. Iteration
visits each entry once in an order the map chooses, so code that depends on it takes the order as a
parameter.
-/

/-- A `HashMap<K, V>`. -/
abbrev HashMap (κ υ : Type) : Type := AList fun _ : κ => υ

namespace HashMap

variable {κ υ : Type}

/-- The entries as pairs. -/
def toPairs (m : HashMap κ υ) : List (κ × υ) := m.entries.map fun e => (e.1, e.2)

/-- `m.values()`. -/
def values (m : HashMap κ υ) : List υ := m.entries.map Sigma.snd

/-- `m.retain(keep)`. -/
def retain (keep : κ → υ → Bool) (m : HashMap κ υ) : HashMap κ υ :=
  ⟨m.entries.filter fun e => keep e.1 e.2,
    List.NodupKeys.sublist List.filter_sublist m.nodupKeys⟩

variable [DecidableEq κ]

/-- `if let Some(v) = m.get_mut(k) { *v = f(*v) }`. -/
def modify (k : κ) (f : υ → υ) (m : HashMap κ υ) : HashMap κ υ :=
  match m.lookup k with
  | some v => m.insert k (f v)
  | none => m

/-- An entry that is looked up after `retain` is one that was there and is to be kept. -/
theorem lookup_retain (keep : κ → υ → Bool) (m : HashMap κ υ) (k : κ) :
    AList.lookup k (retain keep m) = (AList.lookup k m).filter (keep k) := by
  apply Option.ext
  intro v
  rw [Option.filter_eq_some_iff, ← Option.mem_def, ← Option.mem_def, AList.mem_lookup_iff,
    AList.mem_lookup_iff]
  simp [retain]

/-- `modify` changes the value under one key and adds none. -/
theorem lookup_modify (k k' : κ) (f : υ → υ) (m : HashMap κ υ) :
    AList.lookup k' (modify k f m) =
      if k' = k then (AList.lookup k' m).map f else AList.lookup k' m := by
  unfold modify
  by_cases hk : k' = k
  · subst hk
    cases hl : AList.lookup k' m with
    | none => simp [hl]
    | some v => simp
  · rw [if_neg hk]
    cases hl : AList.lookup k m with
    | none => rfl
    | some v => simp [AList.lookup_insert_ne hk]

/-- The pairs of a map are its keys with the values found there. -/
theorem mem_toPairs_iff {k : κ} {v : υ} {m : HashMap κ υ} :
    (k, v) ∈ toPairs m ↔ AList.lookup k m = some v := by
  rw [← Option.mem_def, AList.mem_lookup_iff]
  constructor
  · intro h
    obtain ⟨⟨k', v'⟩, he, heq⟩ := List.mem_map.mp h
    obtain ⟨rfl, rfl⟩ := Prod.mk.inj heq
    exact he
  · intro h
    exact List.mem_map.mpr ⟨_, h, rfl⟩

/-- What is found is one of the values. -/
theorem mem_values_of_lookup {k : κ} {v : υ} {m : HashMap κ υ} (h : AList.lookup k m = some v) :
    v ∈ values m := by
  have he : (⟨k, v⟩ : Σ _ : κ, υ) ∈ m.entries := AList.mem_lookup_iff.mp h
  exact List.mem_map.mpr ⟨_, he, rfl⟩

/-! ## Properties of all entries -/

/-- Every entry has the property. -/
def Forall (P : κ → υ → Prop) (m : HashMap κ υ) : Prop :=
  ∀ k v, AList.lookup k m = some v → P k v

variable {P : κ → υ → Prop} {m : HashMap κ υ}

/-- Every property holds of the entries of the empty map. -/
theorem Forall.empty : Forall P (∅ : HashMap κ υ) := by
  intro k v h
  simp at h

/-- A property of all entries is kept by inserting one that has it. -/
theorem Forall.insert (h : Forall P m) {k : κ} {v : υ} (hnew : P k v) :
    Forall P (AList.insert k v m) := by
  intro k' v' hv'
  by_cases heq : k' = k
  · subst heq
    rw [AList.lookup_insert] at hv'
    rwa [← Option.some.inj hv']
  · rw [AList.lookup_insert_ne heq] at hv'
    exact h k' v' hv'

/-- It is kept by erasing. -/
theorem Forall.erase (h : Forall P m) (k : κ) : Forall P (AList.erase k m) := by
  intro k' v' hv'
  by_cases heq : k' = k
  · subst heq
    simp at hv'
  · rw [AList.lookup_erase_ne heq] at hv'
    exact h k' v' hv'

/-- It is kept by changing a value in a way that keeps it. -/
theorem Forall.modify (h : Forall P m) (k : κ) {f : υ → υ} (hf : ∀ k v, P k v → P k (f v)) :
    Forall P (modify k f m) := by
  intro k' v' hv'
  rw [lookup_modify] at hv'
  split at hv'
  · obtain ⟨v, hv, rfl⟩ := Option.map_eq_some_iff.mp hv'
    exact hf k' v (h k' v hv)
  · exact h k' v' hv'

end HashMap
