import Mathlib.Algebra.Group.Nat.Defs
import Vdsm.Lib.LineText

/-!
# Accounts (`supervdsm/src/main.rs`, `vdsm-tool/src/main.rs`)

supervdsmd looks the account up whose peers it admits, `vdsm-tool` the ids that the files of the daemon
get. Both read `/etc/passwd` themselves, in two ways: the daemon goes on after a line that it cannot
make sense of, the tool stops at the first line of the name. `accounts_agree` says that the difference
shows only where that line is broken, and that neither can be led to another account.
-/

namespace Vdsm.Supervdsm

open Rust

/-- `u32::MAX`. -/
def maxId : ℕ := 2 ^ 32 - 1

/-- A field of a line as an id. -/
def idAt (i : ℕ) (fields : List String) : Option ℕ := fields[i]?.bind (parseUnsigned maxId)

/-- The ids on a line, if it is one of the account. -/
def userOn (name line : String) : Option (ℕ × ℕ) :=
  let fields := splitChar ':' line
  if fields.head? = some name then
    match idAt 2 fields, idAt 3 fields with
    | some uid, some gid => some (uid, gid)
    | _, _ => none
  else none

/-- `lookup_user`, from the file or the error of reading it. -/
def lookupUser (name : String) (passwd : Except String String) : Except String (ℕ × ℕ) :=
  match passwd with
  | .error e => .error e
  | .ok text =>
    match (lines text).findSome? (userOn name) with
    | some ids => .ok ids
    | none => .error s!"user {name} not found in /etc/passwd"

/-- The loop of `read_passwd_uid`; `read_group_gid` has the same for the file of groups. -/
def firstId (name : String) : List String → Option ℕ
  | [] => none
  | line :: rest =>
    let fields := splitChar ':' line
    -- every `?` leaves the function
    if fields.head? = some name then idAt 2 fields else firstId name rest

/-- `read_passwd_uid`. -/
def readPasswdUid (name : String) (passwd : Option String) : Option ℕ :=
  passwd.bind fun text => firstId name (lines text)

/-! ## The first line of a name -/

/-- A line of the account. -/
def isNamed (name line : String) : Bool := (splitChar ':' line).head? == some name

/-- A line with ids is one of the account, and the ids stand in its third and fourth field. -/
theorem userOn_eq_some {name line : String} {uid gid : ℕ} (h : userOn name line = some (uid, gid)) :
    isNamed name line = true ∧ idAt 2 (splitChar ':' line) = some uid ∧
      idAt 3 (splitChar ':' line) = some gid := by
  rw [userOn] at h
  split at h
  · rename_i hname
    split at h
    · rename_i u g hu hg
      obtain ⟨rfl, rfl⟩ := Prod.mk.inj (Option.some.inj h)
      exact ⟨by simp [isNamed, hname], hu, hg⟩
    · cases h
  · cases h

/-- The first line of the name decides. -/
theorem firstId_eq (name : String) (ls : List String) :
    firstId name ls = (ls.find? (isNamed name)).bind fun l => idAt 2 (splitChar ':' l) := by
  induction ls with
  | nil => rfl
  | cons l ls ih =>
    rw [firstId]
    split
    · rename_i hname
      rw [List.find?_cons_of_pos (by simp [isNamed, hname])]
      rfl
    · rename_i hname
      rw [List.find?_cons_of_neg (by simp [isNamed, hname]), ih]

/-- If the first line of the name is complete, both readers take it. -/
theorem findSome_userOn {name l : String} {ls : List String} {ids : ℕ × ℕ}
    (hfind : ls.find? (isNamed name) = some l) (hl : userOn name l = some ids) :
    ls.findSome? (userOn name) = some ids := by
  induction ls with
  | nil => simp at hfind
  | cons m ls ih =>
    cases hm : isNamed name m with
    | true =>
      rw [List.find?_cons_of_pos hm] at hfind
      obtain rfl := Option.some.inj hfind
      rw [List.findSome?_cons_of_isSome (by rw [hl]; rfl), hl]
    | false =>
      rw [List.find?_cons_of_neg (by simp [hm])] at hfind
      have hnone : userOn name m = none := by
        cases hu : userOn name m with
        | none => rfl
        | some found => exact absurd ((userOn_eq_some hu).1.symm.trans hm) (by decide)
      rw [List.findSome?_cons_of_isNone (by rw [hnone]; rfl), ih hfind]

/-- Without a line of the name the loop finds nothing. -/
theorem findSome_userOn_of_none {name : String} {ls : List String}
    (hfind : ls.find? (isNamed name) = none) : ls.findSome? (userOn name) = none := by
  rw [List.findSome?_eq_none_iff]
  intro l hl
  cases hu : userOn name l with
  | none => rfl
  | some found => exact absurd (userOn_eq_some hu).1 (List.find?_eq_none.mp hfind l hl)

/-! ## What the file holds -/

/-- A line of `/etc/passwd`. -/
structure Account where
  name : String
  password : String
  uid : ℕ
  gid : ℕ
  more : List String
  uid_le : uid ≤ maxId
  gid_le : gid ≤ maxId
  fields_ok : ∀ f ∈ name :: password :: more, ∀ c ∈ f.toList, c ≠ ':' ∧ c ≠ '\n' ∧ c ≠ '\r'

namespace Account

def fields (a : Account) : List String :=
  a.name :: a.password :: toString a.uid :: toString a.gid :: a.more

def line (a : Account) : String := ":".intercalate a.fields

/-- No field of an account has a separator in it. -/
theorem mem_fields (a : Account) : ∀ f ∈ a.fields, ∀ c ∈ f.toList, c ≠ ':' ∧ c ≠ '\n' ∧ c ≠ '\r' := by
  have hdigits : ∀ n : ℕ, ∀ c ∈ (toString n).toList, c ≠ ':' ∧ c ≠ '\n' ∧ c ≠ '\r' := by
    intro n c hc
    have hd := isDigit_of_mem_toString hc
    refine ⟨?_, ?_, ?_⟩ <;> rintro rfl <;> exact absurd hd (by decide)
  intro f hf
  simp only [fields, List.mem_cons] at hf
  rcases hf with rfl | rfl | rfl | rfl | hf
  · exact a.fields_ok _ (by simp)
  · exact a.fields_ok _ (by simp)
  · exact hdigits _
  · exact hdigits _
  · exact a.fields_ok _ (by simp [hf])

/-- So its line splits into its fields. -/
theorem splitChar_line (a : Account) : splitChar ':' a.line = a.fields :=
  splitChar_intercalate (by simp [fields]) fun f hf hc => (a.mem_fields f hf _ hc).1 rfl

/-- The line of an account has its ids. -/
theorem userOn_line (a : Account) : userOn a.name a.line = some (a.uid, a.gid) := by
  have huid : idAt 2 a.fields = some a.uid := parseUnsigned_toString a.uid_le
  have hgid : idAt 3 a.fields = some a.gid := parseUnsigned_toString a.gid_le
  have hname : a.fields.head? = some a.name := rfl
  rw [userOn, a.splitChar_line, if_pos hname, huid, hgid]

/-- It is a line of its own name and of no other. -/
theorem isNamed_line (a : Account) (name : String) : isNamed name a.line = (a.name == name) := by
  rw [isNamed, a.splitChar_line]
  rfl

end Account

/-- `/etc/passwd` with these accounts. -/
def passwdFile (as : List Account) : String := unlines (as.map Account.line)

/-- It is one line. -/
theorem Account.isLine_line (a : Account) : isLine a.line = true := by
  refine isLine_of_forall fun c hc => ?_
  rw [line, String.toList_intercalate] at hc
  rcases mem_intercalate hc with hsep | ⟨f, hf, hcf⟩
  · obtain rfl : c = ':' := by simpa using hsep
    decide
  · obtain ⟨s, hs, rfl⟩ := List.mem_map.mp hf
    exact (a.mem_fields s hs c hcf).2

/-- The file has the lines of its accounts. -/
theorem lines_passwdFile (as : List Account) : lines (passwdFile as) = as.map Account.line := by
  apply lines_unlines_self
  intro l hl
  obtain ⟨a, -, rfl⟩ := List.mem_map.mp hl
  exact a.isLine_line

/-- The first line of a name is that of the first account of that name. -/
theorem find_passwdFile (as : List Account) (name : String) :
    (lines (passwdFile as)).find? (isNamed name) = (as.find? (·.name == name)).map Account.line := by
  rw [lines_passwdFile, List.find?_map]
  congr 2
  funext a
  exact a.isNamed_line name

/-! ## Both readers -/

/-- The account readers of the daemon and the tool, for any name. What the daemon finds stands on a line
of the account. The tool finds the same uid, or nothing where the daemon finds nothing, unless the first
line of the account lacks a valid id. On a file of accounts both take the first of the name. -/
theorem accounts_agree (name : String) :
    (∀ text uid gid, lookupUser name (.ok text) = .ok (uid, gid) →
        ∃ l ∈ lines text, isNamed name l = true ∧ idAt 2 (splitChar ':' l) = some uid ∧
          idAt 3 (splitChar ':' l) = some gid) ∧
      (∀ text, readPasswdUid name (some text) ≠ (lookupUser name (.ok text)).toOption.map Prod.fst →
        ∃ l, (lines text).find? (isNamed name) = some l ∧ userOn name l = none) ∧
      ∀ as : List Account,
        (∀ a, as.find? (·.name == name) = some a →
          lookupUser name (.ok (passwdFile as)) = .ok (a.uid, a.gid) ∧
            readPasswdUid name (some (passwdFile as)) = some a.uid) ∧
        (as.find? (·.name == name) = none →
          lookupUser name (.ok (passwdFile as)) = .error s!"user {name} not found in /etc/passwd" ∧
            readPasswdUid name (some (passwdFile as)) = none) := by
  have hfound : ∀ text l ids, (lines text).find? (isNamed name) = some l → userOn name l = some ids →
      lookupUser name (.ok text) = .ok ids ∧ readPasswdUid name (some text) = some ids.1 := by
    rintro text l ⟨uid, gid⟩ hfind hl
    constructor
    · rw [lookupUser, findSome_userOn hfind hl]
    · show firstId name (lines text) = some uid
      rw [firstId_eq, hfind]
      exact (userOn_eq_some hl).2.1
  have hmissing : ∀ text, (lines text).find? (isNamed name) = none →
      lookupUser name (.ok text) = .error s!"user {name} not found in /etc/passwd" ∧
        readPasswdUid name (some text) = none := by
    intro text hfind
    constructor
    · rw [lookupUser, findSome_userOn_of_none hfind]
    · show firstId name (lines text) = none
      rw [firstId_eq, hfind]
      rfl
  refine ⟨?_, ?_, fun as => ⟨?_, ?_⟩⟩
  · intro text uid gid h
    rw [lookupUser] at h
    cases hsome : (lines text).findSome? (userOn name) with
    | none =>
      rw [hsome] at h
      cases h
    | some ids =>
      rw [hsome] at h
      obtain rfl := Except.ok.inj h
      obtain ⟨l, hl, huser⟩ := List.exists_of_findSome?_eq_some hsome
      exact ⟨l, hl, userOn_eq_some huser⟩
  · intro text hne
    cases hfind : (lines text).find? (isNamed name) with
    | none =>
      obtain ⟨hlookup, hread⟩ := hmissing text hfind
      exact absurd (by rw [hlookup, hread]; rfl) hne
    | some l =>
      refine ⟨l, rfl, ?_⟩
      cases huser : userOn name l with
      | none => rfl
      | some ids =>
        obtain ⟨hlookup, hread⟩ := hfound text l ids hfind huser
        exact absurd (by rw [hlookup, hread]; rfl) hne
  · intro a ha
    have hname : a.name = name := by simpa using List.find?_some ha
    refine hfound _ a.line (a.uid, a.gid) ?_ (hname ▸ a.userOn_line)
    rw [find_passwdFile, ha]
    rfl
  · intro hnone
    refine hmissing _ ?_
    rw [find_passwdFile, hnone]
    rfl

end Vdsm.Supervdsm
