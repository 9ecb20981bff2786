import Vdsm.Lib.HashMap
import Vdsm.Lib.Path

/-!
# Key-value texts

A text of lines `key=value`, and the parser that reads it back: it splits each line at the first `=`,
trims both sides and lets the last line of a key win. Nothing is escaped, so a value that holds a line
feed adds lines of its own. `lastValue_keyLine` says what one line of the writer contributes to the
value read for a key, whatever the value holds.
-/

namespace Rust

/-- `s.split_once(c)`. -/
def splitOnce (c : Char) (s : String) : Option (String × String) :=
  if containsChar s c then
    some (String.ofList (s.toList.takeWhile (· ≠ c)),
      String.ofList (s.toList.dropWhile (· ≠ c)).tail)
  else none

/-- Neither starts nor ends with white space. -/
def isTrimmed (s : String) : Bool :=
  !s.toList.head?.any isWhitespace && !s.toList.getLast?.any isWhitespace

/-- Trimming leaves trimmed text alone. -/
theorem trim_eq_self {s : String} (h : isTrimmed s = true) : trim s = s := by
  simp only [isTrimmed, Bool.and_eq_true, Bool.not_eq_true'] at h
  obtain ⟨hhead, hlast⟩ := h
  have hfront : s.toList.dropWhile isWhitespace = s.toList := by
    cases hs : s.toList with
    | nil => rfl
    | cons c l =>
      rw [hs] at hhead
      exact List.dropWhile_cons_of_neg (by simpa using hhead)
  have hback : s.toList.reverse.dropWhile isWhitespace = s.toList.reverse := by
    cases hs : s.toList.reverse with
    | nil => rfl
    | cons c l =>
      rw [List.getLast?_eq_head?_reverse, hs] at hlast
      exact List.dropWhile_cons_of_neg (by simpa using hlast)
  rw [trim, trimChars, hfront, hback, List.reverse_reverse, String.ofList_toList]

/-- A line is split at the end of a key that has no separator in it. -/
theorem splitOnce_append {c : Char} {k v : String} (hk : c ∉ k.toList) :
    splitOnce c (String.ofList (k.toList ++ c :: v.toList)) = some (k, v) := by
  have hall : ∀ d ∈ k.toList, decide (d ≠ c) = true := by
    intro d hd
    simp only [decide_eq_true_eq]
    rintro rfl
    exact hk hd
  rw [splitOnce, containsChar, String.toList_ofList, if_pos (by simp)]
  rw [List.takeWhile_append_of_pos hall, List.dropWhile_append_of_pos hall]
  simp

/-! ## Writing and reading -/

/-- One line of a key-value text. -/
def keyLine (k v : String) : String := k ++ "=" ++ v ++ "\n"

/-- A key-value text. -/
def keyLines (fields : List (String × String)) : String :=
  fields.foldr (fun f text => keyLine f.1 f.2 ++ text) ""

/-- One turn of the parser's loop. -/
def insertLine (m : HashMap String String) (line : String) : HashMap String String :=
  match splitOnce '=' line with
  | some (k, v) => m.insert (trim k) (trim v)
  | none => m

/-- The parser: a map from the keys of a text to their values. -/
def parseKeyValues (text : String) : HashMap String String := (lines text).foldl insertLine ∅

/-- The value a line gives a key. -/
def lineValue (key line : String) : Option String :=
  match splitOnce '=' line with
  | some (k, v) => if trim k = key then some (trim v) else none
  | none => none

/-- The value the last line for a key gives it. -/
def lastValue (key : String) (ls : List String) : Option String :=
  ls.reverse.findSome? (lineValue key)

/-- The value of a key in a text is that of its last part that has one. -/
theorem lastValue_append (key : String) (ls ls' : List String) :
    lastValue key (ls ++ ls') = (lastValue key ls').or (lastValue key ls) := by
  simp [lastValue, List.findSome?_append]

/-- A line sets its own key and no other. -/
theorem lookup_insertLine (m : HashMap String String) (line key : String) :
    (insertLine m line).lookup key = (lineValue key line).or (m.lookup key) := by
  unfold insertLine lineValue
  cases splitOnce '=' line with
  | none => rfl
  | some kv =>
    obtain ⟨k, v⟩ := kv
    by_cases hk : trim k = key
    · subst hk
      simp
    · simp [hk, AList.lookup_insert_ne (Ne.symm hk)]

/-- The last line of a key wins. -/
theorem lookup_parseKeyValues (text key : String) :
    (parseKeyValues text).lookup key = lastValue key (lines text) := by
  have hfold : ∀ (ls : List String) (m : HashMap String String),
      (ls.foldl insertLine m).lookup key = (lastValue key ls).or (m.lookup key) := by
    intro ls
    induction ls with
    | nil => simp [lastValue]
    | cons line ls ih =>
      intro m
      have happ := lastValue_append key [line] ls
      rw [List.singleton_append] at happ
      rw [List.foldl_cons, ih, lookup_insertLine, happ, Option.or_assoc]
      simp [lastValue]
  rw [parseKeyValues, hfold]
  simp

/-! ## Lines of a key-value text -/

/-- Only a carriage return at the very end of a line is dropped. -/
theorem stripLineCr_append {a b : List Char} (c : Char) (hc : c ≠ '\r') :
    stripLineCr (a ++ c :: b) = a ++ c :: stripLineCr b := by
  rcases List.eq_nil_or_concat b with rfl | ⟨b', d, rfl⟩
  · simp [stripLineCr, hc]
  · rw [List.concat_eq_append]
    have hlast : (a ++ c :: (b' ++ [d])).getLast? = some d := by
      rw [← List.cons_append, ← List.append_assoc, List.getLast?_concat]
    simp only [stripLineCr, hlast, List.getLast?_concat, Option.some.injEq]
    split_ifs
    · rw [← List.cons_append, ← List.append_assoc, List.dropLast_concat, List.dropLast_concat]
    · rfl

/-- A piece without separator stays with what follows it. -/
theorem splitOn_append_of_not_mem {α : Type} [BEq α] [LawfulBEq α] {x : α} {a b : List α}
    (ha : x ∉ a) : (a ++ b).splitOn x = (b.splitOn x).modifyHead (a ++ ·) := by
  induction a with
  | nil =>
    obtain ⟨first, rest, hb⟩ := List.exists_cons_of_ne_nil (List.splitOn_ne_nil x b)
    simp [hb]
  | cons c a ih =>
    have hc : (c == x) = false := by
      rw [beq_eq_false_iff_ne]
      rintro rfl
      simp at ha
    obtain ⟨first, rest, hb⟩ := List.exists_cons_of_ne_nil (List.splitOn_ne_nil x b)
    rw [List.cons_append, List.splitOn_cons_eq_if_modifyHead, hc, ih (fun h => ha (by simp [h])), hb]
    simp

/-- The lines of a text that ends its lines: the pieces between line feeds. -/
def endedLines (s : String) : List String :=
  (s.toList.splitOn '\n').map fun l => String.ofList (stripLineCr l)

/-- The lines of a text are those of its parts, if the first ends with a line feed. -/
theorem lines_append (s t : String) : lines (s ++ "\n" ++ t) = endedLines s ++ lines t := by
  have hsplit : (s ++ "\n" ++ t).toList.splitOn '\n'
      = s.toList.splitOn '\n' ++ t.toList.splitOn '\n' := by
    simp [List.splitOn_append_cons_self]
  have hne := List.splitOn_ne_nil '\n' t.toList
  simp only [lines, hsplit, List.dropLast_append_of_ne_nil hne, List.map_append,
    List.getLast?_append_of_ne_nil _ hne, endedLines, List.append_assoc]

/-- What can be a key: it is trimmed and holds neither `=` nor a line feed. -/
def isKey (k : String) : Bool := isTrimmed k && !containsChar k '=' && !containsChar k '\n'

/-- The value on the line of its key. -/
def firstLine (v : String) : String :=
  String.ofList (stripLineCr ((v.toList.splitOn '\n').headD []))

/-- The lines a value adds after that. -/
def moreLines (v : String) : List String :=
  (v.toList.splitOn '\n').tail.map fun l => String.ofList (stripLineCr l)

/-- What one line of the writer contributes to the value of a key: the lines its value adds come
after its own. -/
theorem lastValue_keyLine {k : String} (hk : isKey k = true) (key v t : String) :
    lastValue key (lines (keyLine k v ++ t)) = (lastValue key (lines t)).or
      ((lastValue key (moreLines v)).or (if k = key then some (trim (firstLine v)) else none)) := by
  simp only [isKey, Bool.and_eq_true, Bool.not_eq_true', containsChar, List.contains_eq_mem,
    decide_eq_false_iff_not] at hk
  obtain ⟨⟨htrim, heq⟩, hlf⟩ := hk
  -- the first line is `k=` and the first piece of the value
  have hended : endedLines (k ++ "=" ++ v)
      = String.ofList (k.toList ++ '=' :: (firstLine v).toList) :: moreLines v := by
    have hprefix : '\n' ∉ k.toList ++ ['='] := by simp [hlf]
    have hlist : (k ++ "=" ++ v).toList = (k.toList ++ ['=']) ++ v.toList := by simp
    obtain ⟨first, rest, hv⟩ := List.exists_cons_of_ne_nil (List.splitOn_ne_nil '\n' v.toList)
    rw [endedLines, hlist, splitOn_append_of_not_mem hprefix, hv]
    simp [firstLine, moreLines, hv, stripLineCr_append]
  have hline : lineValue key (String.ofList (k.toList ++ '=' :: (firstLine v).toList))
      = if k = key then some (trim (firstLine v)) else none := by
    simp only [lineValue, splitOnce_append heq, trim_eq_self htrim]
  have hcons : ∀ l ls, lastValue key (l :: ls) = (lastValue key ls).or (lineValue key l) := by
    intro l ls
    rw [← List.singleton_append, lastValue_append]
    simp [lastValue]
  rw [keyLine, lines_append, hended, lastValue_append, hcons, hline]

/-- A value that is read as it stands: one line, without white space around it. -/
def isPlain (v : String) : Bool := !containsChar v '\n' && isTrimmed v

/-- A line with a plain value gives the value to its key, unless a later line does. -/
theorem lastValue_keyLine_plain {k v : String} (hk : isKey k = true) (hv : isPlain v = true)
    (key t : String) :
    lastValue key (lines (keyLine k v ++ t))
      = (lastValue key (lines t)).or (if k = key then some v else none) := by
  simp only [isPlain, Bool.and_eq_true, Bool.not_eq_true'] at hv
  obtain ⟨hlf, htrim⟩ := hv
  have hsplit : v.toList.splitOn '\n' = [v.toList] :=
    List.splitOn_eq_singleton (by simpa [containsChar] using hlf)
  have hmore : moreLines v = [] := by simp [moreLines, hsplit]
  have hfirst : firstLine v = v := by
    have hcr : v.toList.getLast? ≠ some '\r' := by
      intro hcr
      simp only [isTrimmed, hcr, Bool.and_eq_true, Bool.not_eq_true'] at htrim
      exact absurd htrim.2 (by decide)
    simp [firstLine, hsplit, stripLineCr, hcr]
  rw [lastValue_keyLine hk, hmore, hfirst, trim_eq_self htrim]
  simp [lastValue]

/-- The value of a key in a list of fields, the last one if there are several. -/
def fieldValue (key : String) (fields : List (String × String)) : Option String :=
  (fields.reverse.find? fun f => f.1 == key).map Prod.snd

/-- The value of a key in a list of fields is that of the last field of the key. -/
theorem fieldValue_cons (key : String) (f : String × String) (fields : List (String × String)) :
    fieldValue key (f :: fields)
      = (fieldValue key fields).or (if f.1 = key then some f.2 else none) := by
  by_cases hf : f.1 = key
  · cases h : fields.reverse.find? fun f => f.1 == key <;> simp [fieldValue, h, hf]
  · cases h : fields.reverse.find? fun f => f.1 == key <;> simp [fieldValue, h, hf]

/-- Plain fields are read back, unless something after them sets their key again. -/
theorem lastValue_keyLines {fields : List (String × String)}
    (h : ∀ f ∈ fields, isKey f.1 = true ∧ isPlain f.2 = true) (key t : String) :
    lastValue key (lines (keyLines fields ++ t))
      = (lastValue key (lines t)).or (fieldValue key fields) := by
  induction fields with
  | nil => simp [keyLines, fieldValue]
  | cons f fields ih =>
    obtain ⟨hkey, hplain⟩ := h f (by simp)
    have hcons : keyLines (f :: fields) ++ t = keyLine f.1 f.2 ++ (keyLines fields ++ t) := by
      simp [keyLines, String.append_assoc]
    rw [hcons, lastValue_keyLine_plain hkey hplain, ih fun g hg => h g (List.mem_cons_of_mem f hg),
      fieldValue_cons, Option.or_assoc]

/-- Whatever the values hold, every key that is written is read. -/
theorem lastValue_keyLines_isSome {fields : List (String × String)}
    (h : ∀ f ∈ fields, isKey f.1 = true) {key : String} (hkey : ∃ f ∈ fields, f.1 = key)
    (t : String) : (lastValue key (lines (keyLines fields ++ t))).isSome = true := by
  induction fields with
  | nil => simp at hkey
  | cons f fields ih =>
    have hcons : keyLines (f :: fields) ++ t = keyLine f.1 f.2 ++ (keyLines fields ++ t) := by
      simp [keyLines, String.append_assoc]
    rw [hcons, lastValue_keyLine (h f (by simp)), Option.isSome_or, Option.isSome_or]
    obtain ⟨g, hg, rfl⟩ := hkey
    rcases List.mem_cons.mp hg with rfl | hg
    · simp
    · simp [ih (fun g hg => h g (List.mem_cons_of_mem f hg)) ⟨g, hg, rfl⟩]

/-! ## Free text among the fields -/

/-- The value of a key that was written above a free text: what the lines of the text set it to. -/
def setBy (key text default : String) : String := (lastValue key (moreLines text)).getD default

/-- Two free texts leave a key above them with the same value, or it is set again below them. -/
def SettlesAlike (key default below text text' : String) : Prop :=
  (lastValue key (lines below)).isSome = true ∨ setBy key text default = setBy key text' default

section

variable {above : List (String × String)} {k : String}

/-- A key that is set below a free text does not depend on it. -/
theorem lookup_below (habove : ∀ f ∈ above, isKey f.1 = true ∧ isPlain f.2 = true)
    (hk : isKey k = true) {key below : String}
    (hbelow : (lastValue key (lines below)).isSome = true) (text : String) :
    (parseKeyValues (keyLines above ++ (keyLine k text ++ below))).lookup key
      = lastValue key (lines below) := by
  rw [lookup_parseKeyValues, lastValue_keyLines habove, lastValue_keyLine hk]
  obtain ⟨v, hv⟩ := Option.isSome_iff_exists.mp hbelow
  simp [hv]

/-- A key that is written above a free text reads the same with two texts exactly when they settle it
alike. -/
theorem lookup_above_iff (habove : ∀ f ∈ above, isKey f.1 = true ∧ isPlain f.2 = true)
    (hk : isKey k = true) (key default : String) (hkey : k ≠ key)
    (hdefault : fieldValue key above = some default) (below text text' : String) :
    ((parseKeyValues (keyLines above ++ (keyLine k text ++ below))).lookup key).getD ""
        = ((parseKeyValues (keyLines above ++ (keyLine k text' ++ below))).lookup key).getD "" ↔
      SettlesAlike key default below text text' := by
  simp only [lookup_parseKeyValues, lastValue_keyLines habove, lastValue_keyLine hk, if_neg hkey,
    hdefault, SettlesAlike, setBy]
  cases lastValue key (lines below) with
  | some v => simp
  | none =>
    cases lastValue key (moreLines text) <;> cases lastValue key (moreLines text') <;> simp

end

/-! ## Numbers as values -/

/-- Text without blanks is plain. -/
theorem isPlain_of_visible {s : String}
    (h : ∀ c ∈ s.toList, isWhitespace c = false) : isPlain s = true := by
  have hlf : '\n' ∉ s.toList := fun hm => by
    have hbad := h _ hm
    simp [isWhitespace] at hbad
  have hend : ∀ o : Option Char, (∀ c, o = some c → c ∈ s.toList) → o.any isWhitespace = false := by
    intro o ho
    cases o with
    | none => rfl
    | some c => exact h c (ho c rfl)
  simp [isPlain, containsChar, hlf, isTrimmed, hend _ fun c hc => List.mem_of_head? hc,
    hend _ fun c hc => List.mem_of_getLast? hc]

/-- No digit is a blank. -/
theorem isWhitespace_digit {c : Char} (h : c.isDigit = true) : isWhitespace c = false := by
  have hrange := toNat_of_isDigit h
  simp only [isWhitespace]
  generalize c.toNat = n at hrange
  simp only [Bool.or_eq_false_iff, Bool.and_eq_false_iff, decide_eq_false_iff_not, beq_eq_false_iff_ne]
  omega

/-- A printed number has no blank in it. -/
theorem visible_toString_nat (n : ℕ) : ∀ c ∈ (toString n).toList, isWhitespace c = false := by
  intro c hc
  exact isWhitespace_digit (isDigit_of_mem_toString hc)

/-- So it is plain. -/
theorem isPlain_toString_nat (n : ℕ) : isPlain (toString n) = true :=
  isPlain_of_visible (visible_toString_nat n)

theorem isPlain_toString_int (n : ℤ) : isPlain (toString n) = true := by
  cases n with
  | ofNat m => exact isPlain_toString_nat m
  | negSucc m =>
    have hsign : toString (Int.negSucc m) = "-" ++ toString (m + 1) := rfl
    refine isPlain_of_visible fun c hc => ?_
    rw [hsign, String.toList_append, List.mem_append] at hc
    rcases hc with hc | hc
    · obtain rfl : c = '-' := by simpa using hc
      decide
    · exact visible_toString_nat (m + 1) c hc

end Rust
