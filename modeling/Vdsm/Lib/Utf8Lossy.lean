import Vdsm.Lib.RustStr

/-!
# Lossy decoding

`String::from_utf8_lossy` gives back the string that UTF-8 bytes encode: `fromUtf8Lossy_asBytes`. The
decoder goes by the width of the character in front, which `charWidth_utf8EncodeChar` says is that of
its encoding.
-/

namespace Rust

theorem toNat_byte (n : ℕ) : (UInt8.ofNat n).toNat = n % 256 := UInt8.toNat_ofNat'

/-- The bounds of the decoder, on the numbers of the bytes. -/
theorem isCont_iff {b : UInt8} : isCont b = true ↔ 128 ≤ b.toNat ∧ b.toNat ≤ 191 := by
  simp only [isCont, Bool.and_eq_true, decide_eq_true_eq, UInt8.le_iff_toNat_le]
  rfl

/-- The second bytes of three-byte sequences, as ranges: no overlong form and no surrogate. -/
theorem isSecondOf3_iff {a b : UInt8} : isSecondOf3 a b = true ↔
    (a.toNat = 224 ∧ 160 ≤ b.toNat ∧ b.toNat ≤ 191) ∨
    (225 ≤ a.toNat ∧ a.toNat ≤ 236 ∧ 128 ≤ b.toNat ∧ b.toNat ≤ 191) ∨
    (a.toNat = 237 ∧ 128 ≤ b.toNat ∧ b.toNat ≤ 159) ∨
    (238 ≤ a.toNat ∧ a.toNat ≤ 239 ∧ 128 ≤ b.toNat ∧ b.toNat ≤ 191) := by
  simp only [isSecondOf3, Bool.or_eq_true, Bool.and_eq_true, decide_eq_true_eq, isCont_iff,
    UInt8.le_iff_toNat_le, beq_iff_eq, ← UInt8.toNat_inj, UInt8.reduceToNat, or_assoc, and_assoc]

/-- The second bytes of four-byte sequences, as ranges: no overlong form and nothing above the last
code point. -/
theorem isSecondOf4_iff {a b : UInt8} : isSecondOf4 a b = true ↔
    (a.toNat = 240 ∧ 144 ≤ b.toNat ∧ b.toNat ≤ 191) ∨
    (241 ≤ a.toNat ∧ a.toNat ≤ 243 ∧ 128 ≤ b.toNat ∧ b.toNat ≤ 191) ∨
    (a.toNat = 244 ∧ 128 ≤ b.toNat ∧ b.toNat ≤ 143) := by
  simp only [isSecondOf4, Bool.or_eq_true, Bool.and_eq_true, decide_eq_true_eq, isCont_iff,
    UInt8.le_iff_toNat_le, beq_iff_eq, ← UInt8.toNat_inj, UInt8.reduceToNat, or_assoc, and_assoc]

/-- The encoding of a character is recognised as a whole, whatever follows it. -/
theorem charWidth_utf8EncodeChar (c : Char) (rest : List UInt8) :
    charWidth (String.utf8EncodeChar c ++ rest) = .ok (String.utf8EncodeChar c).length := by
  have hvalid : c.val.toNat < 0xd800 ∨ 0xdfff < c.val.toNat ∧ c.val.toNat < 0x110000 := c.valid
  have hlt : ∀ n, UInt8.ofNat n < 0x80 ↔ n % 256 < 128 := fun n => by
    rw [UInt8.lt_iff_toNat_lt, toNat_byte]
    rfl
  have hin : ∀ (lo hi : UInt8) (n : ℕ), (lo ≤ UInt8.ofNat n && UInt8.ofNat n ≤ hi) = true ↔
      lo.toNat ≤ n % 256 ∧ n % 256 ≤ hi.toNat := fun lo hi n => by
    rw [Bool.and_eq_true, decide_eq_true_eq, decide_eq_true_eq, UInt8.le_iff_toNat_le,
      UInt8.le_iff_toNat_le, toNat_byte]
  unfold String.utf8EncodeChar
  dsimp only
  generalize c.val.toNat = v at hvalid
  split_ifs with h1 h2 h3
  all_goals
    unfold charWidth
    dsimp only [List.cons_append, List.nil_append, List.length_cons, List.length_nil]
  · rw [if_pos ((hlt _).mpr (by omega))]
  · rw [if_neg (by rw [hlt]; omega), if_pos (by
      rw [hin]
      show 194 ≤ _ ∧ _ ≤ 223
      omega)]
    rw [if_pos (by rw [isCont_iff, toNat_byte]; omega)]
  · have hsecond : isSecondOf3 (UInt8.ofNat (v / 4096 % 16 + 224)) (UInt8.ofNat (v / 64 % 64 + 128))
        = true := by
      rw [isSecondOf3_iff, toNat_byte, toNat_byte]
      omega
    rw [if_neg (by rw [hlt]; omega), if_neg (by
      rw [hin]
      show ¬(194 ≤ _ ∧ _ ≤ 223)
      omega), if_pos (by
      rw [hin]
      show 224 ≤ _ ∧ _ ≤ 239
      omega), hsecond]
    rw [if_neg (by decide), if_pos (by rw [isCont_iff, toNat_byte]; omega)]
  · have hsecond : isSecondOf4 (UInt8.ofNat (v / 262144 % 8 + 240)) (UInt8.ofNat (v / 4096 % 64 + 128))
        = true := by
      rw [isSecondOf4_iff, toNat_byte, toNat_byte]
      omega
    have hthird : isCont (UInt8.ofNat (v / 64 % 64 + 128)) = true := by
      rw [isCont_iff, toNat_byte]
      omega
    rw [if_neg (by rw [hlt]; omega), if_neg (by
      rw [hin]
      show ¬(194 ≤ _ ∧ _ ≤ 223)
      omega), if_neg (by
      rw [hin]
      show ¬(224 ≤ _ ∧ _ ≤ 239)
      omega), if_pos (by
      rw [hin]
      show 240 ≤ _ ∧ _ ≤ 244
      omega), hsecond, hthird]
    rw [if_neg (by decide), if_neg (by decide), if_pos (by rw [isCont_iff, toNat_byte]; omega)]

/-- Every character has at least one byte. -/
theorem length_utf8EncodeChar_pos (c : Char) : 0 < (String.utf8EncodeChar c).length := by
  unfold String.utf8EncodeChar
  dsimp only
  split_ifs <;> simp

/-- A character in front. -/
theorem lossyChars_append (c : Char) (rest : List UInt8) (n : ℕ) :
    lossyChars (n + 1) (String.utf8EncodeChar c ++ rest) = c :: lossyChars n rest := by
  have hone : String.fromUTF8? ⟨(String.utf8EncodeChar c).toArray⟩ = some (String.ofList [c]) := by
    have hbytes : (⟨(String.utf8EncodeChar c).toArray⟩ : ByteArray) = (String.ofList [c]).toByteArray := by
      have h := asBytes_ofList [c]
      rw [List.flatMap_singleton] at h
      simp [← h, asBytes]
    rw [hbytes, String.fromUTF8?, dif_pos (String.ofList [c]).isValidUTF8]
    rfl
  have hwidth := charWidth_utf8EncodeChar c rest
  obtain ⟨b, bs, hb⟩ := List.exists_cons_of_ne_nil
    (List.ne_nil_of_length_pos (length_utf8EncodeChar_pos c))
  rw [hb, List.cons_append] at hwidth
  rw [hb, List.cons_append, lossyChars, hwidth]
  · dsimp only
    rw [← List.cons_append, List.take_left, List.drop_left, ← hb, hone]
    simp
  · exact List.cons_ne_nil _ _

/-- Lossy decoding of valid UTF-8 loses nothing. -/
theorem fromUtf8Lossy_asBytes (s : String) : fromUtf8Lossy (asBytes s) = s := by
  have hchars : ∀ (l : List Char) (fuel : ℕ), (l.flatMap String.utf8EncodeChar).length ≤ fuel →
      lossyChars fuel (l.flatMap String.utf8EncodeChar) = l := by
    intro l
    induction l with
    | nil => intro fuel _; cases fuel <;> rfl
    | cons c l ih =>
      intro fuel hfuel
      rw [List.flatMap_cons, List.length_append] at hfuel
      have hpos := length_utf8EncodeChar_pos c
      obtain ⟨n, rfl⟩ : ∃ n, fuel = n + 1 := ⟨fuel - 1, by omega⟩
      rw [List.flatMap_cons, lossyChars_append, ih n (by omega)]
  rw [fromUtf8Lossy, asBytes_eq_flatMap, hchars _ _ le_rfl, String.ofList_toList]

end Rust
