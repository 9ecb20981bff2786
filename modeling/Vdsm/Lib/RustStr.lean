import Mathlib.Tactic.Common
import Mathlib.Data.List.Infix

/-!
# Rust's `str`

The standard string functions, over Lean's `String`: UTF-8 encoding and checked decoding, parsing
of unsigned integers, and searching, splitting and trimming by `char`.

The central fact about the encoding is `mem_asBytes_ascii`: an ASCII byte occurs in the encoding of
a string exactly where the ASCII character does, so a parser that looks for LF, CR or `:` in bytes
finds the characters.
-/

namespace Rust

/-! ## UTF-8 -/

/-- `s.as_bytes()`. -/
def asBytes (s : String) : List UInt8 := s.toByteArray.data.toList

/-- The bytes of a string are the encodings of its characters. -/
theorem asBytes_ofList (l : List Char) : asBytes (String.ofList l) = l.flatMap String.utf8EncodeChar := by
  simp [asBytes, List.utf8Encode]

/-- The same for a string as it is. -/
theorem asBytes_eq_flatMap (s : String) : asBytes s = s.toList.flatMap String.utf8EncodeChar := by
  rw [← asBytes_ofList, String.ofList_toList]

@[simp] theorem asBytes_empty : asBytes "" = [] := rfl

/-- `std::str::Utf8Error`: the length of the valid start, and that of the offending sequence
(`none` when the input ends inside a character). -/
structure Utf8Error where
  validUpTo : ℕ
  errorLen : Option ℕ
deriving DecidableEq, Repr

/-- `Display for Utf8Error`. -/
def Utf8Error.display (e : Utf8Error) : String :=
  match e.errorLen with
  | some n => s!"invalid utf-8 sequence of {n} bytes from index {e.validUpTo}"
  | none => s!"incomplete utf-8 byte sequence from index {e.validUpTo}"

/-- A continuation byte. -/
def isCont (b : UInt8) : Bool := 0x80 ≤ b && b ≤ 0xBF

/-- May `second` follow the first byte of a three-byte character? -/
def isSecondOf3 (first second : UInt8) : Bool :=
  (first == 0xE0 && 0xA0 ≤ second && second ≤ 0xBF) ||
  (0xE1 ≤ first && first ≤ 0xEC && isCont second) ||
  (first == 0xED && 0x80 ≤ second && second ≤ 0x9F) ||
  (0xEE ≤ first && first ≤ 0xEF && isCont second)

/-- May `second` follow the first byte of a four-byte character? -/
def isSecondOf4 (first second : UInt8) : Bool :=
  (first == 0xF0 && 0x90 ≤ second && second ≤ 0xBF) ||
  (0xF1 ≤ first && first ≤ 0xF3 && isCont second) ||
  (first == 0xF4 && 0x80 ≤ second && second ≤ 0x8F)

/-- The width of the character at the front of a non-empty input, or the `error_len` with which
`run_utf8_validation` gives up on it. -/
def charWidth : List UInt8 → Except (Option ℕ) ℕ
  | [] => .error none
  | first :: tail =>
    if first < 0x80 then .ok 1
    else if 0xC2 ≤ first && first ≤ 0xDF then
      match tail with
      | [] => .error none
      | b :: _ => if isCont b then .ok 2 else .error (some 1)
    else if 0xE0 ≤ first && first ≤ 0xEF then
      match tail with
      | [] => .error none
      | [b] => if isSecondOf3 first b then .error none else .error (some 1)
      | b :: c :: _ =>
        if !isSecondOf3 first b then .error (some 1)
        else if isCont c then .ok 3 else .error (some 2)
    else if 0xF0 ≤ first && first ≤ 0xF4 then
      match tail with
      | [] => .error none
      | [b] => if isSecondOf4 first b then .error none else .error (some 1)
      | [b, c] =>
        if !isSecondOf4 first b then .error (some 1)
        else if isCont c then .error none else .error (some 2)
      | b :: c :: d :: _ =>
        if !isSecondOf4 first b then .error (some 1)
        else if !isCont c then .error (some 2)
        else if isCont d then .ok 4 else .error (some 3)
    else .error (some 1)

/-- The error `from_utf8` reports for an input that is not UTF-8. The fuel is the number of bytes
left, and each character takes at least one. -/
def utf8ErrorFrom : ℕ → ℕ → List UInt8 → Utf8Error
  | 0, off, _ => ⟨off, none⟩
  | fuel + 1, off, b =>
    match charWidth b with
    | .ok w => utf8ErrorFrom fuel (off + w) (b.drop w)
    | .error len => ⟨off, len⟩

/-- `std::str::from_utf8`. -/
def fromUtf8 (b : List UInt8) : Except Utf8Error String :=
  match String.fromUTF8? ⟨b.toArray⟩ with
  | some s => .ok s
  | none => .error (utf8ErrorFrom b.length 0 b)

/-- The characters of `from_utf8_lossy`: one U+FFFD for each offending sequence. The fuel is the
number of bytes left. -/
def lossyChars : ℕ → List UInt8 → List Char
  | 0, _ => []
  | _, [] => []
  | fuel + 1, b =>
    match charWidth b with
    | .ok w =>
      match String.fromUTF8? ⟨(b.take w).toArray⟩ with
      | some s => s.toList ++ lossyChars fuel (b.drop w)
      | none => []
    | .error (some n) => '\uFFFD' :: lossyChars fuel (b.drop n)
    | .error none => ['\uFFFD']

/-- `String::from_utf8_lossy`. -/
def fromUtf8Lossy (b : List UInt8) : String := String.ofList (lossyChars b.length b)

/-- The bytes of a string decode to it. -/
theorem fromUtf8_asBytes (s : String) : fromUtf8 (asBytes s) = .ok s := by
  have hb : (⟨(asBytes s).toArray⟩ : ByteArray) = s.toByteArray := by simp [asBytes]
  have hv : String.fromUTF8? s.toByteArray = some s := by
    simp [String.fromUTF8?, s.isValidUTF8, String.fromUTF8]
  rw [fromUtf8, hb, hv]

/-- Valid UTF-8 is the bytes of a string. -/
theorem fromUtf8_eq_ok {b : List UInt8} {s : String} : fromUtf8 b = .ok s ↔ b = asBytes s := by
  constructor
  · intro h
    rw [fromUtf8] at h
    split at h
    · rename_i t ht
      obtain rfl : t = s := by simpa using h
      rw [String.fromUTF8?] at ht
      split at ht
      · obtain rfl := Option.some.inj ht
        simp [asBytes, String.fromUTF8]
      · cases ht
    · cases h
  · rintro rfl
    exact fromUtf8_asBytes s

/-- The bytes of one character: an ASCII character is its own byte, and every byte of any other
character is above ASCII. -/
theorem mem_utf8EncodeChar_ascii {b : UInt8} {c : Char} (hb : b < 0x80) :
    b ∈ String.utf8EncodeChar c ↔ c.toNat = b.toNat := by
  have hb' : b.toNat < 128 := by simpa [UInt8.lt_iff_toNat_lt] using hb
  have key : ∀ n : ℕ, b = UInt8.ofNat n ↔ b.toNat = n % 256 := by
    intro n
    rw [← UInt8.toNat_inj]
    simp
  have hv : c.toNat = c.val.toNat := rfl
  -- a lead or continuation byte is at least 0x80, so only the one-byte form can match
  unfold String.utf8EncodeChar
  simp only
  split
  · simp only [List.mem_singleton, key]
    omega
  · split
    · simp only [List.mem_cons, List.not_mem_nil, or_false, key]
      omega
    · split
      · simp only [List.mem_cons, List.not_mem_nil, or_false, key]
        omega
      · simp only [List.mem_cons, List.not_mem_nil, or_false, key]
        omega

/-- No character starts with a continuation byte. -/
theorem isCont_head_utf8EncodeChar {c : Char} {b : UInt8} {bs : List UInt8}
    (h : String.utf8EncodeChar c = b :: bs) : isCont b = false := by
  have hcont : isCont b = false ↔ b.toNat < 128 ∨ 192 ≤ b.toNat := by
    rw [isCont, Bool.and_eq_false_iff]
    simp only [decide_eq_false_iff_not, UInt8.le_iff_toNat_le]
    have hlow : (0x80 : UInt8).toNat = 128 := rfl
    have hhigh : (0xBF : UInt8).toNat = 191 := rfl
    omega
  have key : ∀ n : ℕ, (UInt8.ofNat n).toNat = n % 256 := fun n => UInt8.toNat_ofNat'
  rw [hcont]
  unfold String.utf8EncodeChar at h
  simp only at h
  split at h
  · obtain ⟨rfl, -⟩ := List.cons.inj h
    rw [key]
    omega
  · split at h
    · obtain ⟨rfl, -⟩ := List.cons.inj h
      rw [key]
      omega
    · split at h
      · obtain ⟨rfl, -⟩ := List.cons.inj h
        rw [key]
        omega
      · obtain ⟨rfl, -⟩ := List.cons.inj h
        rw [key]
        omega

/-- The byte of an ASCII character. -/
theorem asciiByte_spec {c : Char} (hc : c.toNat < 128) :
    UInt8.ofNat c.toNat < 0x80 ∧ (UInt8.ofNat c.toNat).toNat = c.toNat := by
  have htn : (UInt8.ofNat c.toNat).toNat = c.toNat := by
    simp
    omega
  refine ⟨?_, htn⟩
  rw [UInt8.lt_iff_toNat_lt, htn]
  exact hc

/-- An ASCII character is one byte. -/
theorem utf8EncodeChar_ascii {c : Char} (hc : c.toNat < 128) :
    String.utf8EncodeChar c = [UInt8.ofNat c.toNat] := by
  have hv : c.val.toNat ≤ 0x7f := Nat.le_of_lt_succ hc
  rw [String.utf8EncodeChar, if_pos hv]
  rfl

/-- An ASCII byte occurs in the encoding of a string exactly when the character occurs in it. -/
theorem mem_asBytes_ascii {c : Char} {s : String} (hc : c.toNat < 128) :
    UInt8.ofNat c.toNat ∈ asBytes s ↔ c ∈ s.toList := by
  obtain ⟨hlt, htn⟩ := asciiByte_spec hc
  rw [asBytes_eq_flatMap, List.mem_flatMap]
  constructor
  · rintro ⟨d, hd, hmem⟩
    rw [mem_utf8EncodeChar_ascii hlt, htn] at hmem
    obtain rfl : d = c := Char.toNat_inj.mp hmem
    exact hd
  · intro hmem
    exact ⟨c, hmem, (mem_utf8EncodeChar_ascii hlt).mpr htn.symm⟩

/-- Only the empty string has no bytes. -/
theorem asBytes_eq_nil {s : String} : asBytes s = [] ↔ s = "" := by
  rw [asBytes_eq_flatMap, List.flatMap_eq_nil_iff]
  constructor
  · intro h
    have hnil : s.toList = [] := by
      rw [List.eq_nil_iff_forall_not_mem]
      intro c hc
      exact String.utf8EncodeChar_ne_nil (h c hc)
    simpa using hnil
  · rintro rfl
    simp

/-- The last byte of an encoding is an ASCII byte exactly when the last character is that
character. -/
theorem getLast?_asBytes_ascii {c : Char} {s : String} (hc : c.toNat < 128) :
    (asBytes s).getLast? = some (UInt8.ofNat c.toNat) ↔ s.toList.getLast? = some c := by
  rw [asBytes_eq_flatMap]
  rcases List.eq_nil_or_concat s.toList with hs | ⟨init, d, hs⟩
  · simp [hs]
  · have hlast : ((init.concat d).flatMap String.utf8EncodeChar).getLast?
        = (String.utf8EncodeChar d).getLast? := by
      rw [List.concat_eq_append, List.flatMap_append, List.flatMap_singleton,
        List.getLast?_append]
      exact Option.or_of_isSome (List.getLast?_isSome.mpr String.utf8EncodeChar_ne_nil)
    rw [hs, hlast]
    simp only [List.concat_eq_append, List.getLast?_concat, Option.some.injEq]
    obtain ⟨hlt, htn⟩ := asciiByte_spec hc
    constructor
    · intro h
      have hmem : UInt8.ofNat c.toNat ∈ String.utf8EncodeChar d := List.mem_of_getLast? h
      rw [mem_utf8EncodeChar_ascii hlt, htn] at hmem
      exact Char.toNat_inj.mp hmem
    · rintro rfl
      simp [utf8EncodeChar_ascii hc]

/-! ## Numbers -/

/-- `s.parse()` at an unsigned type with maximum `max`: an optional `+`, then decimal digits. -/
def parseUnsigned (max : ℕ) (s : String) : Option ℕ :=
  let digits := match s.toList with
    | '+' :: rest => rest
    | l => l
  if digits ≠ [] ∧ digits.all Char.isDigit then
    let n := Nat.ofDigitChars 10 digits 0
    if n ≤ max then some n else none
  else none

/-- What is parsed is within range. -/
theorem parseUnsigned_le {max n : ℕ} {s : String} (h : parseUnsigned max s = some n) : n ≤ max := by
  simp only [parseUnsigned, Option.ite_none_right_eq_some, Option.some.injEq] at h
  obtain ⟨-, hle, rfl⟩ := h
  exact hle

/-- The digits stand next to each other in ASCII. -/
theorem toNat_of_isDigit {c : Char} (h : c.isDigit) : 48 ≤ c.toNat ∧ c.toNat ≤ 57 := by
  simp only [Char.isDigit, Bool.and_eq_true, decide_eq_true_eq] at h
  exact ⟨UInt32.le_iff_toNat_le.mp h.1, UInt32.le_iff_toNat_le.mp h.2⟩

/-- A printed number is its decimal digits. -/
theorem toList_toString_nat (n : ℕ) : (toString n).toList = Nat.toDigits 10 n := by simp

/-- There are only digits in it. -/
theorem isDigit_of_mem_toString {n : ℕ} {c : Char} (h : c ∈ (toString n).toList) : c.isDigit := by
  rw [toList_toString_nat] at h
  exact Nat.isDigit_of_mem_toDigits (by decide) (by decide) h

/-- Parsing inverts `to_string`. -/
theorem parseUnsigned_toString {max n : ℕ} (h : n ≤ max) :
    parseUnsigned max (toString n) = some n := by
  have hl := toList_toString_nat n
  have hdig : ∀ c ∈ Nat.toDigits 10 n, c.isDigit := fun c hc => isDigit_of_mem_toString (hl ▸ hc)
  have hne : Nat.toDigits 10 n ≠ [] := Nat.toDigits_ne_nil
  have hplus : (match (toString n).toList with
      | '+' :: rest => rest
      | l => l) = Nat.toDigits 10 n := by
    rw [hl]
    split
    -- no decimal starts with a plus sign
    · rename_i rest heq
      exact absurd (hdig '+' (by simp [heq])) (by decide)
    · rfl
  simp only [parseUnsigned, hplus, Nat.ofDigitChars_ten_toDigits, if_pos h]
  rw [if_pos ⟨hne, List.all_eq_true.mpr hdig⟩]

/-! ## Searching, splitting, trimming -/

/-- `s.starts_with(p)`. -/
def startsWith (s p : String) : Bool := p.toList.isPrefixOf s.toList

/-- `s.contains(p)` for a string pattern. -/
def contains (s p : String) : Bool := s.toList.tails.any p.toList.isPrefixOf

/-- `contains` looks for consecutive characters. -/
theorem contains_iff {s p : String} : contains s p = true ↔ p.toList <:+: s.toList := by
  simp only [contains, List.any_eq_true, List.mem_tails, List.isPrefixOf_iff_prefix,
    List.infix_iff_prefix_suffix]
  exact exists_congr fun t => and_comm

/-- `s.contains(c)` for a character. -/
def containsChar (s : String) (c : Char) : Bool := s.toList.contains c

/-- `s.len()`: the length in bytes. -/
def len (s : String) : ℕ := (asBytes s).length

/-- `s.split(c)`. -/
def splitChar (c : Char) (s : String) : List String :=
  (s.toList.splitOn c).map String.ofList

/-- Parts without the separator are what their joined text splits into. -/
theorem splitChar_intercalate {c : Char} {l : List String} (hl : l ≠ [])
    (h : ∀ s ∈ l, c ∉ s.toList) : splitChar c ((String.singleton c).intercalate l) = l := by
  rw [splitChar, String.toList_intercalate, String.toList_singleton, List.splitOn_intercalate]
  · simp
  · simpa using h
  · simpa using hl

/-- A character of a joined text is of a separator or of a part. -/
theorem mem_intercalate {α : Type} {sep : List α} {ls : List (List α)} {x : α}
    (h : x ∈ sep.intercalate ls) : x ∈ sep ∨ ∃ l ∈ ls, x ∈ l := by
  induction ls with
  | nil => simp at h
  | cons l ls ih =>
    cases ls with
    | nil => exact .inr ⟨l, by simp, by simpa using h⟩
    | cons l' ls =>
      rw [List.intercalate_cons_cons, List.mem_append, List.mem_append] at h
      obtain (hx | hx) | hx := h
      · exact .inr ⟨l, by simp, hx⟩
      · exact .inl hx
      · obtain hsep | ⟨m, hm, hxm⟩ := ih hx
        · exact .inl hsep
        · exact .inr ⟨m, List.mem_cons_of_mem _ hm, hxm⟩

/-- `s.replace(c, d)` for two characters. -/
def replaceChar (c d : Char) (s : String) : String :=
  String.ofList (s.toList.map fun x => if x = c then d else x)

/-- `s.replace(c, t)` for a character and a text. -/
def replaceWith (c : Char) (t s : String) : String :=
  String.ofList (s.toList.flatMap fun x => if x = c then t.toList else [x])

/-- `c.is_ascii_alphanumeric()`. -/
def isAsciiAlphanumeric (c : Char) : Bool :=
  ('0' ≤ c && c ≤ '9') || ('A' ≤ c && c ≤ 'Z') || ('a' ≤ c && c ≤ 'z')

/-- `c.is_whitespace()`: the Unicode property `White_Space`. -/
def isWhitespace (c : Char) : Bool :=
  let n := c.toNat
  (0x9 ≤ n && n ≤ 0xD) || n == 0x20 || n == 0x85 || n == 0xA0 || n == 0x1680 ||
    (0x2000 ≤ n && n ≤ 0x200A) || n == 0x2028 || n == 0x2029 || n == 0x202F || n == 0x205F ||
    n == 0x3000

/-- `trim`, on characters. -/
def trimChars (l : List Char) : List Char :=
  ((l.dropWhile isWhitespace).reverse.dropWhile isWhitespace).reverse

/-- `s.trim()`. -/
def trim (s : String) : String := String.ofList (trimChars s.toList)

/-- There are no blanks to drop from text without any. -/
theorem dropWhile_isWhitespace {l : List Char} (h : ∀ c ∈ l, isWhitespace c = false) :
    l.dropWhile isWhitespace = l := by
  cases l with
  | nil => rfl
  | cons c l => exact List.dropWhile_cons_of_neg (by simp [h c List.mem_cons_self])

/-- `trim` drops the white space after a text that has none. -/
theorem trim_append {s w : String} (hs : ∀ c ∈ s.toList, isWhitespace c = false)
    (hw : ∀ c ∈ w.toList, isWhitespace c = true) : trim (s ++ w) = s := by
  have hback : (w.toList.reverse ++ s.toList.reverse).dropWhile isWhitespace
      = s.toList.reverse := by
    rw [List.dropWhile_append_of_pos (by simpa using hw)]
    exact dropWhile_isWhitespace (by simpa using hs)
  rw [← String.toList_inj, trim, String.toList_ofList, String.toList_append, trimChars]
  cases hl : s.toList with
  | nil =>
    have hnil : (w.toList ++ []).dropWhile isWhitespace = [] := List.dropWhile_append_of_pos hw
    rw [List.append_nil] at hnil
    rw [List.nil_append, hnil]
    rfl
  | cons c l =>
    have hc : isWhitespace c = false := hs c (by simp [hl])
    rw [List.cons_append, List.dropWhile_cons_of_neg (by simp [hc]), ← List.cons_append, ← hl,
      List.reverse_append, hback, List.reverse_reverse]

/-- A line feed is a blank. -/
theorem isWhitespace_newline : ∀ c ∈ "\n".toList, isWhitespace c = true := by
  intro c hc
  obtain rfl : c = '\n' := List.mem_singleton.mp hc
  rfl

/-- `s.split_whitespace()`. -/
def splitWhitespace (s : String) : List String :=
  ((s.toList.splitOnP isWhitespace).filter (· ≠ [])).map String.ofList

/-- `s.strip_prefix(p)`. -/
def stripPrefix (s p : String) : Option String :=
  if startsWith s p then some (String.ofList (s.toList.drop p.toList.length)) else none

/-- A prefix that is there is stripped. -/
theorem stripPrefix_append (p t : String) : stripPrefix (p ++ t) p = some t := by
  rw [stripPrefix, startsWith, String.toList_append, if_pos (by simp), List.drop_left,
    String.ofList_toList]

/-- `s.strip_suffix(p)`. -/
def stripSuffix (s p : String) : Option String :=
  if p.toList.isSuffixOf s.toList then
    some (String.ofList (s.toList.take (s.toList.length - p.toList.length)))
  else none

/-- A suffix is stripped exactly if it is there. -/
theorem stripSuffix_eq_some {s p t : String} : stripSuffix s p = some t ↔ s = t ++ p := by
  rw [stripSuffix]
  constructor
  · intro h
    split_ifs at h with hsuf
    obtain ⟨l, hl⟩ := List.isSuffixOf_iff_suffix.mp hsuf
    obtain rfl := Option.some.inj h
    rw [← String.toList_inj, ← hl]
    simp
  · rintro rfl
    rw [if_pos (List.isSuffixOf_iff_suffix.mpr (by simp))]
    simp

/-- Drops the CR of a line end. -/
def stripLineCr (l : List Char) : List Char := if l.getLast? = some '\r' then l.dropLast else l

/-- `s.lines()`: a line ends in LF or CR LF, the last one possibly in neither. -/
def lines (s : String) : List String :=
  let pieces := s.toList.splitOn '\n'
  let last := pieces.getLast?.getD []
  (pieces.dropLast.map fun l => String.ofList (stripLineCr l)) ++
    if last = [] then [] else [String.ofList last]

/-- `s.eq_ignore_ascii_case(t)`. -/
def eqIgnoreAsciiCase (s t : String) : Bool :=
  s.toList.map Char.toLower == t.toList.map Char.toLower

end Rust
