import Mathlib.Algebra.Group.Nat.Defs
import Mathlib.Tactic.Common
import Mathlib.Data.List.Basic

/-!
# Rust functions that may panic, and byte buffers

`Rs ε α` is the outcome of a Rust function of type `Result<α, ε>`: it returns `Ok`, it returns
`Err`, or it panics. Slices and checked arithmetic panic explicitly, so a function built from them
can be proved not to.

`splitAtByte` is the idiom `memchr`, `&b[..i]`, `&b[i + 1..]`. `splitAtByte_cases` says that it
never panics and what it returns; proofs about line-oriented parsers use it and never unfold the
slices.
-/

namespace Rust

/-- `usize::MAX` on a 64-bit host. -/
def usizeMax : ℕ := 2 ^ 64 - 1

/-- `isize::MAX`: no Rust allocation, so no `Vec` and no `String`, holds more bytes. -/
def isizeMax : ℕ := 2 ^ 63 - 1

/-- The outcome of a Rust function of type `Result<α, ε>`. -/
inductive Rs (ε α : Type) where
  | ok (a : α)
  | err (e : ε)
  | panic
deriving DecidableEq, Repr

namespace Rs

variable {ε α β : Type}

/-- Sequencing: an `Err` is passed on by `?`, a panic unwinds. -/
def bind (x : Rs ε α) (f : α → Rs ε β) : Rs ε β :=
  match x with
  | ok a => f a
  | err e => err e
  | panic => panic

instance : Monad (Rs ε) where
  pure := ok
  bind := bind

@[simp] theorem pure_eq (a : α) : (pure a : Rs ε α) = ok a := rfl

@[simp] theorem ok_bind (a : α) (f : α → Rs ε β) : (ok a >>= f) = f a := rfl

@[simp] theorem err_bind (e : ε) (f : α → Rs ε β) : (err e >>= f) = err e := rfl

@[simp] theorem panic_bind (f : α → Rs ε β) : ((panic : Rs ε α) >>= f) = panic := rfl

/-- A value that Rust computes without an error path; `none` is a panic. -/
def ofOption : Option α → Rs ε α
  | some a => ok a
  | none => panic

@[simp] theorem ofOption_some (a : α) : (ofOption (some a) : Rs ε α) = ok a := rfl

@[simp] theorem ofOption_none : (ofOption (none : Option α) : Rs ε α) = panic := rfl

/-- A callee's `Result` whose error is converted by `From`. -/
def ofExcept {δ : Type} (wrap : δ → ε) : Except δ α → Rs ε α
  | .ok a => ok a
  | .error e => err (wrap e)

@[simp] theorem ofExcept_ok {δ : Type} (wrap : δ → ε) (a : α) :
    ofExcept wrap (.ok a) = ok a := rfl

@[simp] theorem ofExcept_error {δ : Type} (wrap : δ → ε) (e : δ) :
    (ofExcept wrap (.error e) : Rs ε α) = err (wrap e) := rfl

end Rs

/-! ## Buffers and slices -/

/-- A `Vec<u8>`: a byte string that fits in one allocation. -/
abbrev Vec8 : Type := { b : List UInt8 // b.length ≤ isizeMax }

/-- The empty vector. -/
def Vec8.empty : Vec8 := ⟨[], Nat.zero_le _⟩

/-- `to_vec`: copies a slice; a request for more than `isize::MAX` bytes is a capacity overflow. -/
def toVec (b : List UInt8) : Option Vec8 :=
  if h : b.length ≤ isizeMax then some ⟨b, h⟩ else none

/-- A buffer that fits into memory can be copied. -/
theorem toVec_val (v : Vec8) : toVec v.1 = some v := by
  rw [toVec, dif_pos v.2]

/-- What fits in memory has room for one more in its length. -/
theorem succ_le_usizeMax {n : ℕ} (h : n ≤ isizeMax) : n + 1 ≤ usizeMax := by
  simp only [isizeMax, usizeMax] at h ⊢
  omega

/-- `&b[..i]`, which panics past the end. -/
def sliceTo (b : List UInt8) (i : ℕ) : Option (List UInt8) :=
  if i ≤ b.length then some (b.take i) else none

/-- `&b[i..]`, which panics past the end. -/
def sliceFrom (b : List UInt8) (i : ℕ) : Option (List UInt8) :=
  if i ≤ b.length then some (b.drop i) else none

/-- `&b[lo..hi]`, which panics when the bounds cross or `hi` is past the end. -/
def slice (b : List UInt8) (lo hi : ℕ) : Option (List UInt8) :=
  if lo ≤ hi ∧ hi ≤ b.length then some ((b.take hi).drop lo) else none

/-- `a + b` on `usize` with overflow checks. -/
def checkedAdd (a b : ℕ) : Option ℕ :=
  if a + b ≤ usizeMax then some (a + b) else none

/-- `a - b` on `usize` with overflow checks. -/
def checkedSub (a b : ℕ) : Option ℕ := if b ≤ a then some (a - b) else none

/-- `a.saturating_add(b)` on `usize`. -/
def saturatingAdd (a b : ℕ) : ℕ := min (a + b) usizeMax

/-- `haystack.iter().position(|&b| b == needle)`. -/
def memchr (needle : UInt8) (haystack : List UInt8) : Option ℕ :=
  haystack.idxOf? needle

/-- `memchr`, then the slices before and after the match. -/
def splitAtByte {ε : Type} (needle : UInt8) (b : List UInt8) :
    Rs ε (Option (List UInt8 × List UInt8)) :=
  match memchr needle b with
  | none => .ok none
  | some i => do
    let before ← Rs.ofOption (sliceTo b i)
    let after ← Rs.ofOption (sliceFrom b (i + 1))
    return some (before, after)

section splitAtByte

variable {ε : Type} {needle : UInt8} {b l r : List UInt8}

/-- `memchr` finds the first occurrence. -/
theorem memchr_append_cons (h : needle ∉ l) : memchr needle (l ++ needle :: r) = some l.length := by
  induction l with
  | nil => simp [memchr, List.idxOf?, List.findIdx?_cons]
  | cons x xs ih =>
    have hx : ¬ x = needle := fun hx => h (by simp [hx])
    have hxs : needle ∉ xs := fun hn => h (by simp [hn])
    have ih' := ih hxs
    simp only [memchr, List.idxOf?] at ih'
    simp [memchr, List.idxOf?, List.findIdx?_cons, hx, ih']

/-- The cut is at the first delimiter. -/
theorem splitAtByte_append_cons (h : needle ∉ l) :
    (splitAtByte needle (l ++ needle :: r) : Rs ε _) = .ok (some (l, r)) := by
  simp [splitAtByte, memchr_append_cons h, sliceTo, sliceFrom]

/-- It finds none where there is none. -/
theorem memchr_of_not_mem (h : needle ∉ b) : memchr needle b = none := by
  simpa [memchr, List.idxOf?_eq_none_iff] using h

/-- And then nothing is cut. -/
theorem splitAtByte_of_not_mem (h : needle ∉ b) :
    (splitAtByte needle b : Rs ε _) = .ok none := by
  rw [splitAtByte, memchr_of_not_mem h]

/-- `splitAtByte` never panics: either the byte does not occur, or its first occurrence splits the
buffer. -/
theorem splitAtByte_cases (ε : Type) (needle : UInt8) (b : List UInt8) :
    (needle ∉ b ∧ (splitAtByte needle b : Rs ε _) = .ok none) ∨
      ∃ l r, b = l ++ needle :: r ∧ needle ∉ l ∧
        (splitAtByte needle b : Rs ε _) = .ok (some (l, r)) := by
  by_cases h : needle ∈ b
  · obtain ⟨l, r, rfl, hl⟩ := List.eq_append_cons_of_mem h
    exact .inr ⟨l, r, rfl, hl, splitAtByte_append_cons hl⟩
  · exact .inl ⟨h, splitAtByte_of_not_mem h⟩

/-- What a successful split says about the buffer. -/
theorem splitAtByte_eq_some (h : (splitAtByte needle b : Rs ε _) = .ok (some (l, r))) :
    b = l ++ needle :: r ∧ needle ∉ l := by
  obtain ⟨-, hn⟩ | ⟨l', r', hb, hl, hs⟩ := splitAtByte_cases ε needle b
  · simp [hn] at h
  · rw [hs] at h
    simp only [Rs.ok.injEq, Option.some.injEq, Prod.mk.injEq] at h
    obtain ⟨rfl, rfl⟩ := h
    exact ⟨hb, hl⟩

/-- The first occurrence of a byte splits in one way only. -/
theorem append_cons_inj {l' r' : List UInt8} (hl : needle ∉ l) (hl' : needle ∉ l')
    (h : l ++ needle :: r = l' ++ needle :: r') : l = l' ∧ r = r' := by
  have hs := splitAtByte_append_cons (ε := Empty) (r := r) hl
  rw [h, splitAtByte_append_cons hl'] at hs
  simpa [eq_comm] using hs

end splitAtByte

end Rust
