import Vdsm.Lib.KeyValue

/-!
# Texts of lines and words

The tools and pseudo-files of a host print lines, lines hold words or fields, and white space pads
them. The lemmas here read such a text back: `lines_unlines` its lines, `splitWhitespace_word` and
`splitWhitespace_blank` the words of a line, `trim_padded` a field, `splitStr_append` the pieces of a
text between copies of a separator.
-/

namespace Rust

/-! ## Lines -/

/-- A text that ends each of its lines. -/
def unlines (ls : List String) : String := String.join (ls.map (· ++ "\n"))

/-- A line that is read as it was written: it holds no line feed and does not end in CR. -/
def isLine (l : String) : Bool := !containsChar l '\n' && l.toList.getLast? != some '\r'

@[simp] theorem unlines_nil : unlines [] = "" := rfl

theorem unlines_cons (l : String) (ls : List String) : unlines (l :: ls) = l ++ "\n" ++ unlines ls := by
  simp [unlines, String.join_cons]

/-- Lines that were ended by line feeds are read back, and the text behind them follows. -/
theorem lines_unlines {ls : List String} (h : ∀ l ∈ ls, isLine l = true) (t : String) :
    lines (unlines ls ++ t) = ls ++ lines t := by
  induction ls with
  | nil => simp
  | cons l ls ih =>
    have hl := h l List.mem_cons_self
    simp only [isLine, Bool.and_eq_true, Bool.not_eq_true', containsChar, List.contains_eq_mem,
      decide_eq_false_iff_not, bne_iff_ne] at hl
    have hone : endedLines l = [l] := by
      rw [endedLines, List.splitOn_eq_singleton hl.1]
      simp [stripLineCr, hl.2]
    rw [unlines_cons, String.append_assoc, lines_append, hone,
      ih fun l' hl' => h l' (List.mem_cons_of_mem l hl')]
    rfl

/-- A text made of lines has these lines. -/
theorem lines_unlines_self {ls : List String} (h : ∀ l ∈ ls, isLine l = true) :
    lines (unlines ls) = ls := by
  have hall := lines_unlines h ""
  rw [String.append_empty] at hall
  exact hall.trans (List.append_nil ls)

/-- Text without a line feed is one line. -/
theorem lines_of_not_mem {l : String} (h : '\n' ∉ l.toList) (hne : l ≠ "") : lines l = [l] := by
  rw [lines, List.splitOn_eq_singleton h]
  simp [hne]

/-- A text that does not end its last line. -/
theorem lines_intercalate {ls : List String} (h : ∀ l ∈ ls, isLine l = true ∧ l ≠ "") :
    lines ("\n".intercalate ls) = ls := by
  induction ls with
  | nil => decide
  | cons l ls ih =>
    obtain ⟨hline, hne⟩ := h l List.mem_cons_self
    cases ls with
    | nil =>
      simp only [isLine, Bool.and_eq_true, Bool.not_eq_true', containsChar, List.contains_eq_mem,
        decide_eq_false_iff_not] at hline
      simpa using lines_of_not_mem hline.1 hne
    | cons l' ls =>
      have hcons : "\n".intercalate (l :: l' :: ls) = unlines [l] ++ "\n".intercalate (l' :: ls) := by
        simp [String.intercalate_cons_cons, unlines_cons]
      rw [hcons, lines_unlines (by simpa using hline), ih fun v hv => h v (List.mem_cons_of_mem l hv)]
      rfl

/-! ## Words -/

/-- A word: not empty, and without white space. -/
def isWord (w : String) : Bool := w != "" && !w.toList.any isWhitespace

/-- Nothing but white space. -/
def isBlank (g : String) : Bool := g.toList.all isWhitespace

/-- No character of a word is a blank. -/
theorem isWhitespace_of_isWord {w : String} (h : isWord w = true) :
    ∀ c ∈ w.toList, isWhitespace c = false := by
  simp only [isWord, Bool.and_eq_true, Bool.not_eq_true'] at h
  simpa using h.2

/-- Every character of a gap is one. -/
theorem isWhitespace_of_isBlank {g : String} (h : isBlank g = true) :
    ∀ c ∈ g.toList, isWhitespace c = true := by
  simpa [isBlank] using h

/-- A word is not empty. -/
theorem toList_ne_nil_of_isWord {w : String} (h : isWord w = true) : w.toList ≠ [] := by
  simp only [isWord, Bool.and_eq_true, bne_iff_ne] at h
  simpa using h.1

/-- White space at the front. -/
theorem splitWhitespace_blank {g : String} (h : isBlank g = true) (t : String) :
    splitWhitespace (g ++ t) = splitWhitespace t := by
  have hws := isWhitespace_of_isBlank h
  have hskip : ∀ l : List Char, (∀ c ∈ l, isWhitespace c = true) →
      ((l ++ t.toList).splitOnP isWhitespace).filter (· ≠ [])
        = (t.toList.splitOnP isWhitespace).filter (· ≠ []) := by
    intro l hl
    induction l with
    | nil => rfl
    | cons c l ih =>
      rw [List.cons_append, List.splitOnP_cons_eq_if_modifyHead, if_pos (hl c List.mem_cons_self),
        List.filter_cons_of_neg (by simp), ih fun d hd => hl d (List.mem_cons_of_mem c hd)]
  rw [splitWhitespace, String.toList_append, hskip _ hws, ← splitWhitespace]

/-- A word at the front. -/
theorem splitWhitespace_word_blank {w g : String} (hw : isWord w = true) (hg : isBlank g = true)
    (hne : g ≠ "") (t : String) : splitWhitespace (w ++ g ++ t) = w :: splitWhitespace t := by
  obtain ⟨c, l, hgl⟩ := List.exists_cons_of_ne_nil (show g.toList ≠ [] by simpa using hne)
  have hws := isWhitespace_of_isBlank hg
  have hsplit : (w.toList ++ c :: (l ++ t.toList)).splitOnP isWhitespace
      = w.toList :: (l ++ t.toList).splitOnP isWhitespace :=
    List.splitOnP_append_cons_of_forall_mem (isWhitespace_of_isWord hw) c
      (hws c (hgl ▸ List.mem_cons_self)) _
  have hrest : isBlank (String.ofList l) = true := by
    simp only [isBlank, String.toList_ofList, List.all_eq_true]
    exact fun d hd => hws d (hgl ▸ List.mem_cons_of_mem c hd)
  have htail := splitWhitespace_blank hrest t
  rw [← htail, splitWhitespace, splitWhitespace]
  simp [hgl, hsplit, toList_ne_nil_of_isWord hw]

/-- A word is split into itself. -/
theorem splitWhitespace_of_isWord {w : String} (h : isWord w = true) : splitWhitespace w = [w] := by
  have hone : w.toList.splitOnP isWhitespace = [w.toList] :=
    List.splitOnP_eq_singleton (isWhitespace_of_isWord h)
  simp [splitWhitespace, hone, toList_ne_nil_of_isWord h]

/-- Words with single blanks between them. -/
theorem splitWhitespace_unwords {ws : List String} (h : ∀ w ∈ ws, isWord w = true) :
    splitWhitespace (" ".intercalate ws) = ws := by
  induction ws with
  | nil => decide
  | cons w ws ih =>
    have hw := h w List.mem_cons_self
    cases ws with
    | nil => simpa using splitWhitespace_of_isWord hw
    | cons w' ws =>
      have hcons : " ".intercalate (w :: w' :: ws) = w ++ " " ++ " ".intercalate (w' :: ws) := by
        simp [String.intercalate_cons_cons]
      rw [hcons, splitWhitespace_word_blank hw (by decide) (by decide),
        ih fun v hv => h v (List.mem_cons_of_mem w hv)]

/-- A character of a text of words is the blank between two of them or stands in one. -/
theorem mem_unwords {ws : List String} {c : Char} (h : c ∈ (" ".intercalate ws).toList) :
    c = ' ' ∨ ∃ w ∈ ws, c ∈ w.toList := by
  induction ws with
  | nil => simp at h
  | cons w ws ih =>
    cases ws with
    | nil => exact .inr ⟨w, List.mem_cons_self, by simpa using h⟩
    | cons w' ws =>
      rw [String.intercalate_cons_cons, String.toList_append, String.toList_append,
        List.mem_append, List.mem_append] at h
      rcases h with (hw | hblank) | hrest
      · exact .inr ⟨w, List.mem_cons_self, hw⟩
      · exact .inl (by simpa using hblank)
      · refine (ih hrest).imp_right ?_
        rintro ⟨v, hv, hc⟩
        exact ⟨v, List.mem_cons_of_mem w hv, hc⟩

/-- Text without line feeds and carriage returns is a line. -/
theorem isLine_of_forall {l : String} (h : ∀ c ∈ l.toList, c ≠ '\n' ∧ c ≠ '\r') : isLine l = true := by
  have hlf : '\n' ∉ l.toList := fun hc => (h _ hc).1 rfl
  have hcr : l.toList.getLast? ≠ some '\r' := fun hlast => (h _ (List.mem_of_getLast? hlast)).2 rfl
  rw [isLine, Bool.and_eq_true, bne_iff_ne, containsChar]
  exact ⟨by rw [List.contains_eq_mem, decide_eq_false hlf]; rfl, hcr⟩

/-- Words with single blanks between them are a line. -/
theorem isLine_unwords {ws : List String} (h : ∀ w ∈ ws, isWord w = true) :
    isLine (" ".intercalate ws) = true := by
  refine isLine_of_forall fun c hc => ?_
  rcases mem_unwords hc with rfl | ⟨w, hw, hcw⟩
  · decide
  · have hword := isWhitespace_of_isWord (h w hw) c hcw
    constructor <;> rintro rfl <;> exact absurd hword (by decide)

/-- So many blanks. -/
def spaces (n : ℕ) : String := String.ofList (List.replicate n ' ')

/-- Dropping blanks stops where the first other character stands. -/
theorem dropWhile_blank_append {g l : List Char} (hg : ∀ c ∈ g, isWhitespace c = true)
    (hl : l.head?.any isWhitespace = false) : (g ++ l).dropWhile isWhitespace = l := by
  rw [List.dropWhile_append_of_pos hg]
  cases l with
  | nil => rfl
  | cons c l => exact List.dropWhile_cons_of_neg (by simpa using hl)

/-- A trimmed field with white space around it. -/
theorem trim_padded {g s g' : String} (hg : isBlank g = true) (hs : isTrimmed s = true)
    (hg' : isBlank g' = true) : trim (g ++ s ++ g') = s := by
  simp only [isTrimmed, Bool.and_eq_true, Bool.not_eq_true'] at hs
  obtain ⟨hhead, hlast⟩ := hs
  have hgl := isWhitespace_of_isBlank hg
  have hgr := isWhitespace_of_isBlank hg'
  rw [List.getLast?_eq_head?_reverse] at hlast
  have hback : (g'.toList.reverse ++ s.toList.reverse).dropWhile isWhitespace = s.toList.reverse :=
    dropWhile_blank_append (fun c hc => hgr c (List.mem_reverse.mp hc)) hlast
  rw [trim, trimChars, String.toList_append, String.toList_append, List.append_assoc,
    List.dropWhile_append_of_pos hgl]
  cases hsl : s.toList with
  | nil =>
    have hnone : g'.toList.dropWhile isWhitespace = [] := by
      simpa using dropWhile_blank_append (l := []) hgr rfl
    rw [List.nil_append, hnone, ← hsl]
    simp [← String.toList_inj, hsl]
  | cons c l =>
    rw [hsl] at hhead
    have hfront : (c :: l ++ g'.toList).dropWhile isWhitespace = c :: l ++ g'.toList :=
      List.dropWhile_cons_of_neg (by simpa using hhead)
    rw [hfront, ← hsl, List.reverse_append, hback, List.reverse_reverse, String.ofList_toList]

/-- The pieces of a text between the copies of a separator that are found from the left. While a copy
is passed over, the number counts what is left of it. -/
def splitFrom (sep : List Char) : ℕ → List Char → List (List Char)
  | _, [] => [[]]
  | 0, c :: l =>
    if sep.isPrefixOf (c :: l) then [] :: splitFrom sep (sep.length - 1) l
    else (splitFrom sep 0 l).modifyHead (c :: ·)
  | n + 1, _ :: l => splitFrom sep n l

/-- `s.split(sep)`, for a separator that is not empty. -/
def splitStr (sep s : String) : List String := (splitFrom sep.toList 0 s.toList).map String.ofList

/-- No copy of the separator starts before its own in `a ++ sep`. -/
def Clear (sep a : List Char) : Prop := ∀ i < a.length, ¬ sep <+: (a ++ sep).drop i

/-- The separator begins nowhere in a text exactly if it does not begin at its first character and
nowhere behind it. -/
theorem clear_cons {sep a : List Char} {c : Char} :
    Clear sep (c :: a) ↔ ¬ sep <+: c :: (a ++ sep) ∧ Clear sep a := by
  constructor
  · exact fun h => ⟨h 0 (by simp), fun i hi => h (i + 1) (by simpa using hi)⟩
  · rintro ⟨hfirst, hrest⟩ i hi
    cases i with
    | zero => exact hfirst
    | succ i => exact hrest i (by simpa using hi)

/-- Characters that cannot start a copy. -/
theorem clear_append {sep a b : List Char} (ha : ∀ c ∈ a, sep.head? ≠ some c) (hsep : sep ≠ [])
    (hb : Clear sep b) : Clear sep (a ++ b) := by
  induction a with
  | nil => exact hb
  | cons c a ih =>
    rw [List.cons_append, clear_cons]
    refine ⟨fun hp => ?_, ih fun d hd => ha d (List.mem_cons_of_mem c hd)⟩
    obtain ⟨d, w, rfl⟩ := List.exists_cons_of_ne_nil hsep
    have hd : d = c := (List.cons_prefix_cons.mp hp).1
    exact ha c List.mem_cons_self (by rw [hd]; rfl)

/-- The characters of a separator that was found are skipped. -/
theorem splitFrom_skip (sep w l : List Char) : splitFrom sep w.length (w ++ l) = splitFrom sep 0 l := by
  induction w with
  | nil => rfl
  | cons c w ih => exact ih

/-- A piece at the front. -/
theorem splitFrom_append {sep a : List Char} (hsep : sep ≠ []) (h : Clear sep a) (l : List Char) :
    splitFrom sep 0 (a ++ (sep ++ l)) = a :: splitFrom sep 0 l := by
  induction a with
  | nil =>
    obtain ⟨c, w, rfl⟩ := List.exists_cons_of_ne_nil hsep
    rw [List.nil_append, List.cons_append, splitFrom, if_pos (by simp)]
    exact congrArg _ (splitFrom_skip _ w l)
  | cons c a ih =>
    have hstart : ¬ sep <+: c :: (a ++ (sep ++ l)) := by
      intro hp
      refine h 0 (by simp) ?_
      rw [← List.append_assoc, ← List.cons_append] at hp
      exact List.prefix_of_prefix_length_le hp (List.prefix_append _ _) (by simp; omega)
    have htail : Clear sep a := fun i hi => h (i + 1) (by simpa using hi)
    rw [List.cons_append, splitFrom, if_neg (by simpa using hstart), ih htail]
    rfl

/-- Where the first character of the separator does not come again in it, no copy can run into
another. -/
theorem clear_of_not_infix {c : Char} {w a : List Char} (hc : c ∉ w) (h : ¬ (c :: w) <:+: a) :
    Clear (c :: w) a := by
  intro i hi hp
  rw [List.drop_append_of_le_length (Nat.le_of_lt hi)] at hp
  rcases Nat.lt_or_ge (a.drop i).length (c :: w).length with hshort | hlong
  · -- the copy would hold the first character of the separator after it
    obtain ⟨n, hn⟩ : ∃ n, (a.drop i).length = n + 1 := ⟨(a.drop i).length - 1, by
      rw [List.length_drop]
      omega⟩
    obtain ⟨t, ht⟩ := hp
    have hat : (c :: w)[n + 1]? = some c := by
      rw [← List.getElem?_append_left (hn ▸ hshort), ht, List.getElem?_append_right (by omega), hn,
        Nat.sub_self]
      rfl
    rw [List.getElem?_cons_succ] at hat
    exact hc (List.mem_of_getElem? hat)
  · have hin : (c :: w) <+: a.drop i :=
      List.prefix_of_prefix_length_le hp (List.prefix_append _ _) hlong
    exact h (hin.isInfix.trans (List.drop_suffix i a).isInfix)

/-- A text without copies is one piece. -/
theorem splitFrom_of_clear {sep l : List Char} (h : Clear sep l) : splitFrom sep 0 l = [l] := by
  induction l with
  | nil => rfl
  | cons c l ih =>
    obtain ⟨hfirst, hrest⟩ := clear_cons.mp h
    have hstart : ¬ sep <+: c :: l := fun hp => hfirst (hp.trans (List.prefix_append (c :: l) sep))
    rw [splitFrom, if_neg (by simpa using hstart), ih hrest]
    rfl

/-- The text before the first copy of a pattern, if there is one. -/
def beforeStr (pat s : String) : Option String :=
  if contains s pat then (splitStr pat s).head? else none

/-- What stands before the first separator is the text that is clear of it. -/
theorem beforeStr_append {pat a : String} (hpat : pat ≠ "") (h : Clear pat.toList a.toList)
    (t : String) : beforeStr pat (a ++ (pat ++ t)) = some a := by
  have hin : contains (a ++ (pat ++ t)) pat = true :=
    contains_iff.mpr ⟨a.toList, t.toList, by simp⟩
  rw [beforeStr, if_pos hin, splitStr, String.toList_append, String.toList_append,
    splitFrom_append (by simpa using hpat) h]
  simp

/-- Lines that are not empty hold no empty line between them. -/
theorem clear_blankLine {ls : List String} (h : ∀ l ∈ ls, '\n' ∉ l.toList ∧ l ≠ "") :
    Clear ['\n', '\n'] ("\n".intercalate ls).toList := by
  have hstart : ∀ l ∈ ls, ∀ c ∈ l.toList, ['\n', '\n'].head? ≠ some c := by
    rintro l hl c hc heq
    obtain rfl := Option.some.inj heq
    exact (h l hl).1 hc
  induction ls with
  | nil => exact fun i hi => absurd hi (by simp)
  | cons l ls ih =>
    have hl := hstart l List.mem_cons_self
    have hrest := ih (fun v hv => h v (List.mem_cons_of_mem l hv))
      (fun v hv => hstart v (List.mem_cons_of_mem l hv))
    cases ls with
    | nil =>
      have hnil : Clear ['\n', '\n'] [] := fun i hi => absurd hi (by simp)
      simpa using clear_append hl (by simp) hnil
    | cons l' ls =>
      obtain ⟨hlf, hne⟩ := h l' (by simp)
      obtain ⟨d, w, hd⟩ := List.exists_cons_of_ne_nil (show l'.toList ≠ [] by simpa using hne)
      -- the line end before `l'` is followed by the first character of `l'`
      have hnext : ∃ r, ("\n".intercalate (l' :: ls)).toList = d :: r := by
        cases ls with
        | nil => exact ⟨w, by simpa using hd⟩
        | cons l'' ls =>
          refine ⟨w ++ '\n' :: ("\n".intercalate (l'' :: ls)).toList, ?_⟩
          simp [String.intercalate_cons_cons, hd]
      obtain ⟨r, hr⟩ := hnext
      have hcons : ("\n".intercalate (l :: l' :: ls)).toList
          = l.toList ++ '\n' :: ("\n".intercalate (l' :: ls)).toList := by
        simp [String.intercalate_cons_cons]
      rw [hcons]
      refine clear_append hl (by simp) (clear_cons.mpr ⟨fun hp => ?_, hrest⟩)
      rw [hr] at hp
      have hdn : '\n' = d := (List.cons_prefix_cons.mp (List.cons_prefix_cons.mp hp).2).1
      exact hlf (by rw [hd, hdn]; exact List.mem_cons_self)

end Rust
