import Mathlib.Data.List.FinRange
import Mathlib.Data.List.Nodup

/-!
# Records with optional fields, and untagged unions of them

A record encodes the fields it has, each under its key, and decodes from any object: it ignores other
keys, and a key that is absent or null gives no value. An untagged union decodes to its first member
that accepts. `decodeUnion_encode_iff` says for which values decoding inverts encoding.
-/

namespace Untagged

/-- How the fields `φ` go over the wire: under which key, and with which encoding in `J`. -/
structure Wire (φ κ J : Type) where
  key : φ → κ
  Val : φ → Type
  encode : (f : φ) → Val f → J
  decode : (f : φ) → J → Option (Val f)
  isNull : J → Bool

variable {φ κ J : Type} (w : Wire φ κ J)

/-! ## Records -/

/-- A value of a record: for each field a value or none. -/
inductive Record : List φ → Type where
  | nil : Record []
  | cons {f : φ} {fs : List φ} (v : Option (w.Val f)) (x : Record fs) : Record (f :: fs)

variable {w}

/-- The fields a record has, with their encodings. -/
def Record.present {fs : List φ} : Record w fs → List (φ × J)
  | .nil => []
  | @Record.cons _ _ _ _ f _ v x => (v.toList.map fun a => (f, w.encode f a)) ++ x.present

/-- The object of a record. -/
def Record.encode {fs : List φ} (x : Record w fs) : List (κ × J) :=
  x.present.map fun p => (w.key p.1, p.2)

/-- Each field the record has decodes from its own encoding, which is not null. -/
def Record.ReadsBack {fs : List φ} : Record w fs → Prop
  | .nil => True
  | @Record.cons _ _ _ _ f _ v x =>
    (∀ a, v = some a → w.isNull (w.encode f a) = false ∧ w.decode f (w.encode f a) = some a) ∧
      x.ReadsBack

/-- A field that is present is one of the record's. -/
theorem Record.mem_of_mem_present {fs : List φ} (x : Record w fs) {p : φ × J} (h : p ∈ x.present) :
    p.1 ∈ fs := by
  induction x with
  | nil => cases h
  | cons v x ih =>
    rcases List.mem_append.mp h with h | h
    · obtain ⟨a, -, rfl⟩ := List.mem_map.mp h
      exact .head _
    · exact .tail _ (ih h)

/-- A record has each key at most once. -/
theorem Record.nodup_encode {fs : List φ} (x : Record w fs) (h : (fs.map w.key).Nodup) :
    (x.encode.map Prod.fst).Nodup := by
  induction x with
  | nil => exact List.nodup_nil
  | @cons f fs v x ih =>
    obtain ⟨hnot, hnodup⟩ := List.nodup_cons.mp h
    cases v with
    | none => exact ih hnodup
    | some a =>
      refine List.nodup_cons.mpr ⟨fun hmem => ?_, ih hnodup⟩
      obtain ⟨e, he, hkey⟩ := List.mem_map.mp hmem
      obtain ⟨p, hp, rfl⟩ := List.mem_map.mp he
      exact hnot (List.mem_map.mpr ⟨p.1, x.mem_of_mem_present hp, hkey⟩)

variable (w)

section

variable [DecidableEq κ]

/-- The value of a key in an object. -/
def lookup (o : List (κ × J)) (k : κ) : Option J := (o.find? fun e => e.1 = k).map Prod.snd

/-- One field: none when its key is absent or null. -/
def decodeField (f : φ) (o : List (κ × J)) : Option (Option (w.Val f)) :=
  match lookup o (w.key f) with
  | none => some none
  | some j => if w.isNull j then some none else (w.decode f j).map some

def decodeRecord : (fs : List φ) → List (κ × J) → Option (Record w fs)
  | [], _ => some .nil
  | f :: fs, o => (decodeField w f o).bind fun v => (decodeRecord fs o).map fun x => .cons v x

/-- A record is decoded field by field. -/
theorem decodeRecord_cons_eq_some {f : φ} {fs : List φ} {o : List (κ × J)} {v : Option (w.Val f)}
    {x : Record w fs} :
    decodeRecord w (f :: fs) o = some (.cons v x) ↔
      decodeField w f o = some v ∧ decodeRecord w fs o = some x := by
  simp only [decodeRecord, Option.bind_eq_some_iff, Option.map_eq_some_iff, Record.cons.injEq]
  constructor
  · rintro ⟨v', hv, x', hx, rfl, rfl⟩
    exact ⟨hv, hx⟩
  · rintro ⟨hv, hx⟩
    exact ⟨v, hv, x, hx, rfl, rfl⟩

/-- A record refuses an object where one of its keys has a value its field refuses. -/
theorem decodeRecord_eq_none {fs : List φ} {o : List (κ × J)} :
    decodeRecord w fs o = none ↔
      ∃ f ∈ fs, ∃ j, lookup o (w.key f) = some j ∧ w.isNull j = false ∧ w.decode f j = none := by
  have hfield : ∀ f, decodeField w f o = none ↔
      ∃ j, lookup o (w.key f) = some j ∧ w.isNull j = false ∧ w.decode f j = none := by
    intro f
    rw [decodeField]
    cases lookup o (w.key f) with
    | none => simp
    | some j => cases hnull : w.isNull j <;> simp [hnull]
  induction fs with
  | nil => simp [decodeRecord]
  | cons f fs ih =>
    rw [decodeRecord]
    cases hv : decodeField w f o with
    | none => simpa using .inl ((hfield f).mp hv)
    | some v =>
      have hf : ¬∃ j, lookup o (w.key f) = some j ∧ w.isNull j = false ∧ w.decode f j = none := by
        rw [← hfield, hv]
        simp
      refine Option.map_eq_none_iff.trans (ih.trans ?_)
      simp [hf]

/-- A key that no entry has is not found. -/
theorem lookup_eq_none {o : List (κ × J)} {k : κ} (h : ∀ e ∈ o, e.1 ≠ k) : lookup o k = none := by
  rw [lookup, List.find?_eq_none.mpr]
  · rfl
  · simpa using h

/-- Among distinct keys each entry is found. -/
theorem lookup_eq_some_iff {o : List (κ × J)} (h : (o.map Prod.fst).Nodup) {k : κ} {j : J} :
    lookup o k = some j ↔ (k, j) ∈ o := by
  induction o with
  | nil => simp [lookup]
  | cons e o ih =>
    obtain ⟨hnot, hnodup⟩ := List.nodup_cons.mp h
    by_cases hk : e.1 = k
    · have hrest : (k, j) ∉ o := fun hm => hnot (hk ▸ List.mem_map_of_mem hm)
      simp [lookup, hk, hrest, Prod.ext_iff, eq_comm]
    · have htail : lookup (e :: o) k = lookup o k := by simp [lookup, hk]
      have hne : (k, j) ≠ e := fun heq => hk (congrArg Prod.fst heq).symm
      rw [htail, ih hnodup, List.mem_cons, or_iff_right hne]

variable {w}

/-- Under the key of the first field its value is found, if the key is its own. -/
theorem Record.lookup_head {f : φ} {fs : List φ} (v : Option (w.Val f)) (x : Record w fs)
    (h : w.key f ∉ fs.map w.key) :
    lookup (Record.cons v x).encode (w.key f) = v.map (w.encode f) := by
  cases v with
  | some a => simp [Record.encode, Record.present, lookup]
  | none =>
    refine lookup_eq_none fun e he hkey => ?_
    obtain ⟨p, hp, rfl⟩ := List.mem_map.mp he
    exact h (List.mem_map.mpr ⟨p.1, x.mem_of_mem_present hp, hkey⟩)

/-- Under another key the rest of the record is searched. -/
theorem Record.lookup_tail {f g : φ} {fs : List φ} (v : Option (w.Val f)) (x : Record w fs)
    (h : w.key f ≠ w.key g) :
    lookup (Record.cons v x).encode (w.key g) = lookup x.encode (w.key g) := by
  cases v with
  | none => rfl
  | some a => simp [Record.encode, Record.present, lookup, h]

/-- A field decodes to its value exactly if the codec of that value does. -/
theorem decodeField_eq_some_of_lookup {f : φ} {o : List (κ × J)} {v : Option (w.Val f)}
    (h : lookup o (w.key f) = v.map (w.encode f)) :
    decodeField w f o = some v ↔
      ∀ a, v = some a → w.isNull (w.encode f a) = false ∧ w.decode f (w.encode f a) = some a := by
  rw [decodeField, h]
  cases v with
  | none => simp
  | some a => cases hnull : w.isNull (w.encode f a) <;> simp [hnull]

/-- A record decodes to itself iff its fields do. -/
theorem Record.decode_encode_iff {fs : List φ} (x : Record w fs) (h : (fs.map w.key).Nodup) :
    decodeRecord w fs x.encode = some x ↔ x.ReadsBack := by
  -- for any object that has the record's own entries under its keys
  suffices hgen : ∀ o, (∀ f ∈ fs, lookup o (w.key f) = lookup x.encode (w.key f)) →
      (decodeRecord w fs o = some x ↔ x.ReadsBack) from hgen _ fun _ _ => rfl
  induction x with
  | nil => exact fun o _ => iff_of_true rfl trivial
  | @cons f fs v x ih =>
    obtain ⟨hnot, hnodup⟩ := List.nodup_cons.mp h
    intro o ho
    have hhead : lookup o (w.key f) = v.map (w.encode f) := by
      rw [ho f (.head _), Record.lookup_head v x hnot]
    have htail : ∀ g ∈ fs, lookup o (w.key g) = lookup x.encode (w.key g) := by
      intro g hg
      have hne : w.key f ≠ w.key g := fun heq => hnot (heq ▸ List.mem_map_of_mem hg)
      rw [ho g (.tail _ hg), Record.lookup_tail v x hne]
    rw [decodeRecord_cons_eq_some, decodeField_eq_some_of_lookup hhead, ih hnodup o htail,
      Record.ReadsBack]

/-- A record refuses another one's object where it has a field of the same key that refuses. -/
theorem decodeRecord_encode_eq_none {fs gs : List φ} (x : Record w fs) (h : (fs.map w.key).Nodup) :
    decodeRecord w gs x.encode = none ↔
      ∃ g ∈ gs, ∃ p ∈ x.present,
        w.key p.1 = w.key g ∧ w.isNull p.2 = false ∧ w.decode g p.2 = none := by
  rw [decodeRecord_eq_none]
  refine exists_congr fun g => and_congr_right fun _ => ?_
  constructor
  · rintro ⟨j, hj, hnull, hnone⟩
    obtain ⟨p, hp, heq⟩ := List.mem_map.mp ((lookup_eq_some_iff (x.nodup_encode h)).mp hj)
    obtain ⟨hkey, rfl⟩ := Prod.ext_iff.mp heq
    exact ⟨p, hp, hkey, hnull, hnone⟩
  · rintro ⟨p, hp, hkey, hnull, hnone⟩
    refine ⟨p.2, (lookup_eq_some_iff (x.nodup_encode h)).mpr ?_, hnull, hnone⟩
    exact List.mem_map.mpr ⟨p, hp, by rw [hkey]⟩

end

/-! ## Unions -/

/-- A value of a union: which member, and a value of it. -/
structure Choice (w : Wire φ κ J) (members : List (List φ)) where
  index : Fin members.length
  value : Record w (members.get index)

variable {w} {members : List (List φ)}

/-- No tag is written. -/
def Choice.encode (v : Choice w members) : List (κ × J) := v.value.encode

/-- What an untagged union reads back: the fields of the member read back, and each earlier member
has a field whose key the value has, with an encoding that the field refuses. -/
structure Choice.ReadsBack (v : Choice w members) : Prop where
  own : v.value.ReadsBack
  earlier : ∀ k < v.index, ∃ g ∈ members.get k, ∃ p ∈ v.value.present,
    w.key p.1 = w.key g ∧ w.isNull p.2 = false ∧ w.decode g p.2 = none

section

variable [DecidableEq κ]

/-- The first member that accepts. -/
def decodeUnion (w : Wire φ κ J) (members : List (List φ)) (o : List (κ × J)) :
    Option (Choice w members) :=
  (List.finRange members.length).findSome? fun i =>
    (decodeRecord w (members.get i) o).map (Choice.mk i)

/-- The first index with a result. -/
theorem findSome?_finRange_eq_some {α : Type} {n : ℕ} {f : Fin n → Option α} {a : α} :
    (List.finRange n).findSome? f = some a ↔ ∃ i, f i = some a ∧ ∀ k < i, f k = none := by
  induction n with
  | zero => simp
  | succ n ih =>
    rw [List.finRange_succ, List.findSome?_cons]
    cases hzero : f 0 with
    | none =>
      rw [List.findSome?_map, ih]
      simp [Fin.exists_fin_succ, Fin.forall_fin_succ, hzero]
    | some b =>
      constructor
      · rintro heq
        exact ⟨0, hzero.trans heq, fun k hk => absurd hk (Fin.not_lt_zero k)⟩
      · rintro ⟨i, hi, hearlier⟩
        by_cases hpos : 0 < i
        · rw [hearlier 0 hpos] at hzero
          cases hzero
        · obtain rfl : i = 0 := Fin.le_zero_iff.mp (Fin.not_lt.mp hpos)
          exact hzero.symm.trans hi

/-- A union decodes to `v` iff the member of `v` does and no earlier one accepts. -/
theorem decodeUnion_eq_some {o : List (κ × J)} {v : Choice w members} :
    decodeUnion w members o = some v ↔
      decodeRecord w (members.get v.index) o = some v.value ∧
        ∀ k < v.index, decodeRecord w (members.get k) o = none := by
  rw [decodeUnion, findSome?_finRange_eq_some]
  simp only [Option.map_eq_none_iff, Option.map_eq_some_iff]
  constructor
  · rintro ⟨i, ⟨x, hx, rfl⟩, hearlier⟩
    exact ⟨hx, hearlier⟩
  · rintro ⟨hx, hearlier⟩
    exact ⟨v.index, ⟨v.value, hx, rfl⟩, hearlier⟩

/-- Which values survive encoding and decoding. -/
theorem decodeUnion_encode_iff (hkeys : ∀ m ∈ members, (m.map w.key).Nodup) (v : Choice w members) :
    decodeUnion w members v.encode = some v ↔ v.ReadsBack := by
  have hnodup : ((members.get v.index).map w.key).Nodup := hkeys _ (List.get_mem _ _)
  rw [decodeUnion_eq_some, Choice.encode, v.value.decode_encode_iff hnodup]
  simp only [decodeRecord_encode_eq_none v.value hnodup]
  exact ⟨fun h => ⟨h.1, h.2⟩, fun h => ⟨h.own, h.earlier⟩⟩

end

end Untagged
