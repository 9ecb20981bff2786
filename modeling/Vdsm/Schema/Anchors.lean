import Vdsm.Schema.WireNames

/-!
# The anchor pre-pass (`vdsm-schema/build.rs`, `strip_anchors_and_aliases`)

The pre-pass walks the bytes of a document and builds a string of characters: it drops a token
`&name` and puts `name` for `*name`. A byte that is in no token is pushed with `as char`, which is the
character of that code point and not the one the byte is part of, so every character outside ASCII
comes out as two to four others. `stripBytes_flatMap` says so exactly.
-/

namespace Vdsm.Schema

open Rust

/-! ## The pre-pass -/

/-- `b as char`. -/
def byteChar (b : UInt8) : Char := Char.ofNat b.toNat

/-- Anchor and alias names start with a letter or an underscore. -/
def isNameStart (c : Char) : Bool := isLetter c || c == '_'

def isNameChar (c : Char) : Bool := isAsciiAlphanumeric c || c == '_'

/-- `input.is_char_boundary(i)`, from the bytes at `i` and behind. -/
def isCharBoundary : List UInt8 → Bool
  | [] => true
  | b :: _ => !isCont b

/-- The loop of `strip_anchors_and_aliases`, on the bytes from `i` on; `none` is a slice that is not
on character boundaries. -/
def stripBytes : List UInt8 → Option (List Char)
  | [] => some []
  | b :: rest =>
    if (byteChar b = '&' ∨ byteChar b = '*') ∧ rest.head?.any (fun n => isNameStart (byteChar n)) then
      let ident := rest.takeWhile fun c => isNameChar (byteChar c)
      let behind := rest.dropWhile fun c => isNameChar (byteChar c)
      if isCharBoundary rest && isCharBoundary behind then
        (stripBytes behind).map fun out =>
          -- an alias becomes a bare identifier, an anchor goes
          (if byteChar b = '*' then ident.map byteChar else []) ++ out
      else none
    else (stripBytes rest).map (byteChar b :: ·)
termination_by bytes => bytes.length
decreasing_by
  · exact Nat.lt_succ_of_le (List.dropWhile_sublist _).length_le
  · exact Nat.lt_succ_self _

def stripAnchorsAndAliases (input : String) : Option String :=
  (stripBytes (asBytes input)).map String.ofList

/-! ## Tokens -/

/-- The text with each maximal token `&name` removed and each `*name` replaced by its name, from left
to right, and every other character kept. -/
def stripTokens : List Char → List Char
  | [] => []
  | c :: cs =>
    if (c = '&' ∨ c = '*') ∧ cs.head?.any isNameStart then
      (if c = '*' then cs.takeWhile isNameChar else []) ++ stripTokens (cs.dropWhile isNameChar)
    else c :: stripTokens cs
termination_by cs => cs.length
decreasing_by
  · exact Nat.lt_succ_of_le (List.dropWhile_sublist _).length_le
  · exact Nat.lt_succ_self _

/-! ## Bytes of characters -/

/-- What the loop makes of a character: its bytes, each as a character. -/
def mojibake (c : Char) : List Char := (String.utf8EncodeChar c).map byteChar

/-- An ASCII byte is its character. -/
theorem byteChar_ascii {c : Char} (h : c.toNat < 128) : byteChar (UInt8.ofNat c.toNat) = c := by
  rw [byteChar, (asciiByte_spec h).2, Char.ofNat_toNat]

/-- So ASCII text is not changed. -/
theorem mojibake_ascii {c : Char} (h : c.toNat < 128) : mojibake c = [c] := by
  rw [mojibake, utf8EncodeChar_ascii h, List.map_singleton, byteChar_ascii h]

/-- A byte becomes the character of its number. -/
theorem toNat_byteChar (b : UInt8) : (byteChar b).toNat = b.toNat := by
  have htable : ∀ n : Fin 256, (Char.ofNat n.val).toNat = n.val := by decide +kernel
  exact htable ⟨b.toNat, b.toNat_lt⟩

/-- A byte of a character outside ASCII is no ASCII character. -/
theorem byteChar_of_not_ascii {c : Char} {b : UInt8} (h : ¬ c.toNat < 128)
    (hb : b ∈ String.utf8EncodeChar c) : ¬ (byteChar b).toNat < 128 := by
  intro hascii
  rw [toNat_byteChar] at hascii
  have hsmall : b < 0x80 := by
    rw [UInt8.lt_iff_toNat_lt]
    exact hascii
  exact h ((mem_utf8EncodeChar_ascii hsmall).mp hb ▸ hascii)

/-- A name is ASCII. -/
theorem toNat_of_isNameChar {c : Char} (h : isNameChar c) : c.toNat < 128 := by
  rw [isNameChar, Bool.or_eq_true, beq_iff_eq] at h
  obtain h | rfl := h
  · exact toNat_le_of_isAsciiAlphanumeric h
  · decide

/-- What opens an anchor or an alias is ASCII. -/
theorem toNat_of_opener {c : Char} (h : c = '&' ∨ c = '*') : c.toNat < 128 := by
  obtain rfl | rfl := h
  · decide
  · decide

/-- What may begin a name may stand in it. -/
theorem isNameChar_of_isNameStart {c : Char} (h : isNameStart c) : isNameChar c := by
  rw [isNameStart, Bool.or_eq_true] at h
  rw [isNameChar, Bool.or_eq_true]
  refine h.imp_left fun hletter => ?_
  rw [isAsciiAlphanumeric, Bool.or_assoc, Bool.or_eq_true]
  exact .inr hletter

/-- The first byte of a character decides whether it is an ASCII character with a property. -/
theorem exists_utf8EncodeChar (c : Char) : ∃ b bs, String.utf8EncodeChar c = b :: bs ∧
    ∀ p : Char → Bool, (∀ d, p d → d.toNat < 128) → p (byteChar b) = p c := by
  obtain ⟨b, bs, hb⟩ := List.exists_cons_of_ne_nil (String.utf8EncodeChar_ne_nil (c := c))
  refine ⟨b, bs, hb, fun p hp => ?_⟩
  by_cases hc : c.toNat < 128
  · rw [utf8EncodeChar_ascii hc] at hb
    obtain ⟨rfl, -⟩ := List.cons.inj hb
    rw [byteChar_ascii hc]
  · have hbyte := byteChar_of_not_ascii hc (hb ▸ List.mem_cons_self)
    rw [Bool.eq_false_iff.mpr fun h => hc (hp c h), Bool.eq_false_iff.mpr fun h => hbyte (hp _ h)]

/-- The first byte of a character decides as the character does whether a name goes on. -/
theorem isNameChar_byteChar {c : Char} {b : UInt8} {bs : List UInt8}
    (h : String.utf8EncodeChar c = b :: bs) : isNameChar (byteChar b) = isNameChar c := by
  obtain ⟨b', bs', h', hp⟩ := exists_utf8EncodeChar c
  obtain ⟨rfl, -⟩ := List.cons.inj (h.symm.trans h')
  exact hp isNameChar fun d => toNat_of_isNameChar

/-- The bytes of a name at the front of a text. -/
theorem takeWhile_flatMap (cs : List Char) :
    (cs.flatMap String.utf8EncodeChar).takeWhile (fun b => isNameChar (byteChar b)) =
      (cs.takeWhile isNameChar).flatMap String.utf8EncodeChar ∧
    (cs.flatMap String.utf8EncodeChar).dropWhile (fun b => isNameChar (byteChar b)) =
      (cs.dropWhile isNameChar).flatMap String.utf8EncodeChar := by
  induction cs with
  | nil => exact ⟨rfl, rfl⟩
  | cons c cs ih =>
    obtain ⟨b, bs, hb⟩ := List.exists_cons_of_ne_nil (String.utf8EncodeChar_ne_nil (c := c))
    have hname := isNameChar_byteChar hb
    cases hc : isNameChar c with
    | true =>
      have hascii := utf8EncodeChar_ascii (toNat_of_isNameChar hc)
      obtain ⟨rfl, rfl⟩ := List.cons.inj (hb.symm.trans hascii)
      rw [List.flatMap_cons, hb, List.singleton_append]
      rw [hc] at hname
      simp only [List.takeWhile_cons, List.dropWhile_cons, hname, hc, if_true, List.flatMap_cons, hb,
        ih, List.singleton_append, and_self]
    | false =>
      rw [hc] at hname
      have hbyte : ¬ isNameChar (byteChar b) = true := by rw [hname]; exact Bool.false_ne_true
      have hchar : ¬ isNameChar c = true := by rw [hc]; exact Bool.false_ne_true
      rw [List.takeWhile_cons_of_neg hchar, List.dropWhile_cons_of_neg hchar, List.flatMap_cons, hb]
      exact ⟨List.takeWhile_cons_of_neg hbyte, List.dropWhile_cons_of_neg hbyte⟩

/-- Between whole characters there is a boundary. -/
theorem isCharBoundary_flatMap (cs : List Char) :
    isCharBoundary (cs.flatMap String.utf8EncodeChar) = true := by
  cases cs with
  | nil => rfl
  | cons c cs =>
    obtain ⟨b, bs, hb⟩ := List.exists_cons_of_ne_nil (String.utf8EncodeChar_ne_nil (c := c))
    rw [List.flatMap_cons, hb, List.cons_append, isCharBoundary, isCont_head_utf8EncodeChar hb]
    rfl

/-- Whether a name starts here can be read from the first byte. -/
theorem head_any_flatMap (cs : List Char) :
    (cs.flatMap String.utf8EncodeChar).head?.any (fun n => isNameStart (byteChar n)) =
      cs.head?.any isNameStart := by
  cases cs with
  | nil => rfl
  | cons c cs =>
    obtain ⟨b, bs, hb, hp⟩ := exists_utf8EncodeChar c
    rw [List.flatMap_cons, hb]
    exact hp isNameStart fun d hd => toNat_of_isNameChar (isNameChar_of_isNameStart hd)

/-! ## What the pre-pass returns -/

/-- A byte that opens no token is pushed. -/
theorem stripBytes_push {b : UInt8} {rest : List UInt8}
    (h : ¬ ((byteChar b = '&' ∨ byteChar b = '*') ∧
      rest.head?.any (fun n => isNameStart (byteChar n)))) :
    stripBytes (b :: rest) = (stripBytes rest).map (byteChar b :: ·) := by
  rw [stripBytes, if_neg h]

/-- The bytes of a character outside ASCII are pushed one by one. -/
theorem stripBytes_append {bytes : List UInt8} (rest : List UInt8)
    (h : ∀ b ∈ bytes, ¬ (byteChar b).toNat < 128) :
    stripBytes (bytes ++ rest) = (stripBytes rest).map (bytes.map byteChar ++ ·) := by
  induction bytes with
  | nil =>
    rw [List.nil_append]
    exact Option.map_id'.symm
  | cons b bytes ih =>
    obtain ⟨hb, hbytes⟩ := List.forall_mem_cons.mp h
    rw [List.cons_append, stripBytes_push fun h => hb (toNat_of_opener h.1), ih hbytes,
      Option.map_map]
    rfl

/-- On the bytes of a text the loop is `stripTokens`, and it leaves each character it keeps as the
characters of its bytes. Both ends of a name are character boundaries. -/
theorem stripBytes_flatMap (cs : List Char) :
    stripBytes (cs.flatMap String.utf8EncodeChar) = some ((stripTokens cs).flatMap mojibake) := by
  induction cs using stripTokens.induct with
  | case1 =>
    rw [stripTokens, List.flatMap_nil, stripBytes]
    rfl
  | case2 c cs htoken ih =>
    obtain ⟨hopen, hstart⟩ := htoken
    have hascii := toNat_of_opener hopen
    rw [stripTokens, if_pos ⟨hopen, hstart⟩, List.flatMap_cons, utf8EncodeChar_ascii hascii,
      List.singleton_append, stripBytes, byteChar_ascii hascii, head_any_flatMap,
      if_pos ⟨hopen, hstart⟩, (takeWhile_flatMap cs).1, (takeWhile_flatMap cs).2,
      isCharBoundary_flatMap]
    simp only [isCharBoundary_flatMap, Bool.and_self, if_true, ih, Option.map_some,
      List.flatMap_append]
    congr 2
    split
    · exact List.map_flatMap
    · rfl
  | case3 c cs hplain ih =>
    rw [stripTokens, if_neg hplain, List.flatMap_cons, List.flatMap_cons]
    by_cases hascii : c.toNat < 128
    · have hpush : ¬ ((byteChar (UInt8.ofNat c.toNat) = '&' ∨
          byteChar (UInt8.ofNat c.toNat) = '*') ∧
          (cs.flatMap String.utf8EncodeChar).head?.any (fun n => isNameStart (byteChar n))) := by
        rw [byteChar_ascii hascii, head_any_flatMap]
        exact hplain
      rw [utf8EncodeChar_ascii hascii, List.singleton_append, stripBytes_push hpush, ih,
        byteChar_ascii hascii, mojibake_ascii hascii]
      rfl
    · rw [stripBytes_append _ fun b => byteChar_of_not_ascii hascii, ih]
      rfl

/-- Every other character becomes more than one. -/
theorem one_lt_length_mojibake {c : Char} (h : ¬ c.toNat < 128) : 1 < (mojibake c).length := by
  have hsize := c.utf8Size_pos
  have hone : c.utf8Size ≠ 1 := by
    rw [ne_eq, Char.utf8Size_eq_one_iff, UInt32.le_iff_toNat_le]
    intro hle
    exact h (Nat.lt_succ_of_le hle)
  rw [mojibake, List.length_map, String.length_utf8EncodeChar]
  omega

/-- The text never gets shorter. -/
theorem length_le_flatMap_mojibake (cs : List Char) : cs.length ≤ (cs.flatMap mojibake).length := by
  induction cs with
  | nil => exact Nat.le_refl 0
  | cons c cs ih =>
    have hpos : 0 < (mojibake c).length := by
      rw [mojibake, List.length_map, String.length_utf8EncodeChar]
      exact c.utf8Size_pos
    rw [List.flatMap_cons, List.length_append, List.length_cons]
    omega

/-- Only an ASCII text is its bytes read as characters: the others get longer. -/
theorem flatMap_mojibake_eq_iff (cs : List Char) :
    cs.flatMap mojibake = cs ↔ ∀ c ∈ cs, c.toNat < 128 := by
  induction cs with
  | nil => exact iff_of_true rfl fun c hc => absurd hc List.not_mem_nil
  | cons c cs ih =>
    rw [List.forall_mem_cons, List.flatMap_cons, ← ih]
    constructor
    · intro heq
      have hascii : c.toNat < 128 := by
        by_contra hc
        have hlong := one_lt_length_mojibake hc
        have hrest := length_le_flatMap_mojibake cs
        have hlength := congrArg List.length heq
        rw [List.length_append, List.length_cons] at hlength
        omega
      rw [mojibake_ascii hascii] at heq
      exact ⟨hascii, List.tail_eq_of_cons_eq heq⟩
    · rintro ⟨hascii, heq⟩
      rw [mojibake_ascii hascii, heq, List.singleton_append]

/-- A token is ASCII, so the pre-pass removes no other character. -/
theorem ascii_stripTokens_iff (cs : List Char) :
    (∀ c ∈ stripTokens cs, c.toNat < 128) ↔ ∀ c ∈ cs, c.toNat < 128 := by
  induction cs using stripTokens.induct with
  | case1 => rw [stripTokens]
  | case2 c cs htoken ih =>
    have hascii := toNat_of_opener htoken.1
    have hname : ∀ d ∈ cs.takeWhile isNameChar, d.toNat < 128 := fun d hd =>
      toNat_of_isNameChar (List.all_eq_true.mp List.all_takeWhile d hd)
    have hrest : (∀ d ∈ cs, d.toNat < 128) ↔ ∀ d ∈ cs.dropWhile isNameChar, d.toNat < 128 := by
      conv_lhs => rw [← List.takeWhile_append_dropWhile (p := isNameChar) (l := cs)]
      rw [List.forall_mem_append]
      exact and_iff_right hname
    rw [stripTokens, if_pos htoken, List.forall_mem_cons, List.forall_mem_append, ih, hrest,
      and_iff_right hascii]
    refine and_iff_right ?_
    split
    · exact hname
    · exact fun d hd => absurd hd List.not_mem_nil
  | case3 c cs hplain ih =>
    rw [stripTokens, if_neg hplain, List.forall_mem_cons, List.forall_mem_cons, ih]

/-- The pre-pass takes no slice off a character boundary, and what it returns is the text without
its anchors and with its aliases as bare names exactly when the text is ASCII. -/
theorem strip_anchors_keeps_rest_iff (input : String) :
    (∃ out, stripAnchorsAndAliases input = some out) ∧
    (stripAnchorsAndAliases input = some (String.ofList (stripTokens input.toList)) ↔
      ∀ c ∈ input.toList, c.toNat < 128) := by
  have hbytes : stripAnchorsAndAliases input =
      some (String.ofList ((stripTokens input.toList).flatMap mojibake)) := by
    rw [stripAnchorsAndAliases, asBytes_eq_flatMap, stripBytes_flatMap]
    rfl
  refine ⟨⟨_, hbytes⟩, ?_⟩
  rw [hbytes, Option.some.injEq, String.ofList_inj, flatMap_mojibake_eq_iff, ascii_stripTokens_iff]

/-- An accent does not survive. -/
theorem strip_anchors_accent :
    stripAnchorsAndAliases "é" = some "Ã©" ∧
    ¬ stripAnchorsAndAliases "é" = some (String.ofList (stripTokens "é".toList)) := by
  have htokens : stripTokens "é".toList = ['é'] := by
    show stripTokens ['é'] = ['é']
    rw [stripTokens, if_neg (by decide), stripTokens]
  have hout : stripAnchorsAndAliases "é" = some "Ã©" := by
    rw [stripAnchorsAndAliases, asBytes_eq_flatMap, stripBytes_flatMap, htokens]
    rfl
  rw [hout, htokens]
  exact ⟨rfl, by decide⟩

end Vdsm.Schema
