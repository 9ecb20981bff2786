import Mathlib.Data.List.Infix

/-!
# Reading XML text

The lexical side of XML 1.0, for text without a document type declaration. `scan` reads a text one
character at a time into its tags, each with its attributes, and the characters of its content:
line ends are normalised, references decoded, comments and processing instructions dropped, CDATA
sections unwrapped. What is not well formed at this level is refused. How elements nest follows from
the tags.
-/

/-! ## Machines with output -/

namespace Machine

variable {σ α β : Type} {step : σ → α → Option (σ × List β)}

/-- The state after an input, and the output on the way; `none` where a step is refused. -/
def run (step : σ → α → Option (σ × List β)) (m : σ) : List α → Option (σ × List β)
  | [] => some (m, [])
  | c :: cs => (step m c).bind fun p => (run step p.1 cs).map fun q => (q.1, p.2 ++ q.2)

/-- One character and then the rest. -/
theorem run_cons_eq_some {m m' : σ} {c : α} {cs : List α} {out : List β} :
    run step m (c :: cs) = some (m', out) ↔
      ∃ m₁ o₁ o₂, step m c = some (m₁, o₁) ∧ run step m₁ cs = some (m', o₂) ∧ out = o₁ ++ o₂ := by
  simp only [run, Option.bind_eq_some_iff, Option.map_eq_some_iff, Prod.mk.injEq, Prod.exists]
  constructor
  · rintro ⟨m₁, o₁, hstep, _, o₂, hrun, rfl, rfl⟩
    exact ⟨m₁, o₁, o₂, hstep, hrun, rfl⟩
  · rintro ⟨m₁, o₁, o₂, hstep, hrun, rfl⟩
    exact ⟨m₁, o₁, hstep, m', o₂, hrun, rfl, rfl⟩

/-- A run over two inputs is a run over the first, then over the second. -/
theorem run_append_eq_some {m m' : σ} {a b : List α} {out : List β} :
    run step m (a ++ b) = some (m', out) ↔
      ∃ m₁ o₁ o₂, run step m a = some (m₁, o₁) ∧ run step m₁ b = some (m', o₂) ∧
        out = o₁ ++ o₂ := by
  induction a generalizing m out with
  | nil => simp [run]
  | cons c cs ih =>
    rw [List.cons_append, run_cons_eq_some]
    constructor
    · rintro ⟨m₁, o₁, _, hstep, hrun, rfl⟩
      obtain ⟨m₂, o₂, o₃, hcs, hb, rfl⟩ := ih.mp hrun
      exact ⟨m₂, o₁ ++ o₂, o₃, run_cons_eq_some.mpr ⟨m₁, o₁, o₂, hstep, hcs, rfl⟩, hb, by simp⟩
    · rintro ⟨m₂, _, o₃, hcons, hb, rfl⟩
      obtain ⟨m₁, o₁, o₂, hstep, hcs, rfl⟩ := run_cons_eq_some.mp hcons
      exact ⟨m₁, o₁, o₂ ++ o₃, hstep, ih.mpr ⟨m₂, o₂, o₃, hcs, hb, rfl⟩, by simp⟩

/-- A bound that every step keeps, with credit held in the state. -/
theorem run_length_le (credit : σ → ℕ)
    (hstep : ∀ m c m' o, step m c = some (m', o) → o.length + credit m' ≤ credit m + 1)
    {m m' : σ} {cs : List α} {out : List β} (h : run step m cs = some (m', out)) :
    out.length + credit m' ≤ credit m + cs.length := by
  induction cs generalizing m out with
  | nil =>
    obtain ⟨rfl, rfl⟩ : m = m' ∧ [] = out := by simpa [run] using h
    simp
  | cons c cs ih =>
    obtain ⟨m₁, o₁, o₂, hc, hcs, rfl⟩ := run_cons_eq_some.mp h
    have hhead := hstep m c m₁ o₁ hc
    have htail := ih hcs
    simp only [List.length_append, List.length_cons]
    omega

end Machine

namespace Xml

open Machine

/-! ## Characters and references -/

/-- `Char`: the characters a text may have. -/
def isChar (c : Char) : Bool :=
  c == '\t' || c == '\n' || c == '\r' || (0x20 ≤ c.toNat && c.toNat != 0xFFFE && c.toNat != 0xFFFF)

/-- `S`: white space. -/
def isSpace (c : Char) : Bool := c == ' ' || c == '\t' || c == '\n' || c == '\r'

def inRanges (ranges : List (ℕ × ℕ)) (c : Char) : Bool :=
  ranges.any fun r => r.1 ≤ c.toNat && c.toNat ≤ r.2

def nameStartRanges : List (ℕ × ℕ) :=
  [(0x3A, 0x3A), (0x41, 0x5A), (0x5F, 0x5F), (0x61, 0x7A), (0xC0, 0xD6), (0xD8, 0xF6),
    (0xF8, 0x2FF), (0x370, 0x37D), (0x37F, 0x1FFF), (0x200C, 0x200D), (0x2070, 0x218F),
    (0x2C00, 0x2FEF), (0x3001, 0xD7FF), (0xF900, 0xFDCF), (0xFDF0, 0xFFFD), (0x10000, 0xEFFFF)]

/-- `NameStartChar`. -/
def isNameStart (c : Char) : Bool := inRanges nameStartRanges c

/-- `NameChar`. -/
def isNameChar (c : Char) : Bool :=
  isNameStart c ||
    inRanges [(0x2D, 0x2E), (0x30, 0x39), (0xB7, 0xB7), (0x300, 0x36F), (0x203F, 0x2040)] c

/-- A digit of a character reference. -/
def digit (base : ℕ) (c : Char) : Option ℕ :=
  let n := if '0' ≤ c ∧ c ≤ '9' then c.toNat - 0x30
    else if 'a' ≤ c ∧ c ≤ 'f' then c.toNat - 0x61 + 10
    else if 'A' ≤ c ∧ c ≤ 'F' then c.toNat - 0x41 + 10
    else base
  if n < base then some n else none

/-- The character with a number, written in a base. -/
def charRef (base : ℕ) (digits : List Char) : Option Char := do
  guard (digits ≠ [])
  let n ← digits.foldlM (fun n c => (digit base c).map (n * base + ·)) 0
  guard (n.isValidChar ∧ isChar (Char.ofNat n))
  return Char.ofNat n

/-- What stands between `&` and `;`: a character reference or a predefined entity. -/
def reference : List Char → Option Char
  | '#' :: 'x' :: digits => charRef 16 digits
  | '#' :: digits => charRef 10 digits
  | ['l', 't'] => some '<'
  | ['g', 't'] => some '>'
  | ['a', 'm', 'p'] => some '&'
  | ['q', 'u', 'o', 't'] => some '"'
  | ['a', 'p', 'o', 's'] => some '\x27'
  | _ => none

/-- Line ends: CR LF and CR are read as LF. -/
def lineEnds : List Char → List Char
  | '\r' :: '\n' :: cs => '\n' :: lineEnds cs
  | '\r' :: cs => '\n' :: lineEnds cs
  | c :: cs => c :: lineEnds cs
  | [] => []

/-! ## The scanner -/

/-- The three forms of a tag: `<a>`, `</a>` and `<a/>`. -/
inductive TagKind where
  | start
  | stop
  | empty
deriving DecidableEq

/-- A tag, with its attributes in order. -/
structure Tag where
  kind : TagKind
  name : List Char
  attrs : List (List Char × List Char)
deriving DecidableEq

/-- What a text consists of. -/
inductive Token where
  | tag (t : Tag)
  | char (c : Char)
deriving DecidableEq

inductive Quote where
  | single
  | double
deriving DecidableEq

def Quote.char : Quote → Char
  | single => '\x27'
  | double => '"'

/-- A tag of which the name and some attributes are read. -/
structure OpenTag where
  name : List Char
  attrs : List (List Char × List Char)
deriving DecidableEq

/-- Where the scanner is. Counters are of the characters just read that may be the start of a
delimiter. -/
inductive Mode where
  | text (brackets : ℕ)
  | ref (name : List Char)
  | markup
  | startTag (name : List Char)
  | inTag (t : OpenTag)
  | afterValue (t : OpenTag)
  | attr (t : OpenTag) (key : List Char)
  | afterKey (t : OpenTag) (key : List Char)
  | beforeValue (t : OpenTag) (key : List Char)
  | value (t : OpenTag) (key : List Char) (quote : Quote) (val : List Char)
  | valueRef (t : OpenTag) (key : List Char) (quote : Quote) (val name : List Char)
  | slash (t : OpenTag)
  | endTag (name : List Char)
  | afterEndTag (name : List Char)
  | bang (read : List Char)
  | comment (dashes : ℕ)
  | cdata (brackets : ℕ)
  | pi (target : List Char)
  | piBody (question : Bool)
deriving DecidableEq

/-- After the name of a start tag or after an attribute. -/
def tagNext (t : OpenTag) (c : Char) : Option (Mode × List Token) :=
  if isSpace c then some (.inTag t, [])
  else if c = '/' then some (.slash t, [])
  else if c = '>' then some (.text 0, [.tag ⟨.start, t.name, t.attrs⟩])
  else none

/-- In a reference. -/
def refNext (name : List Char) (c : Char) (more : List Char → Mode)
    (done : Char → Mode × List Token) : Option (Mode × List Token) :=
  if c = ';' then (reference name).map done
  else if isNameChar c || c == '#' then some (more (name ++ [c]), [])
  else none

/-- The next character, in each mode. -/
def next : Mode → Char → Option (Mode × List Token)
  | .text brackets, c =>
    if c = '<' then some (.markup, [])
    else if c = '&' then some (.ref [], [])
    else if c = ']' then some (.text (min (brackets + 1) 2), [.char c])
    else if c = '>' ∧ brackets = 2 then none
    else some (.text 0, [.char c])
  | .ref name, c => refNext name c .ref fun r => (.text 0, [.char r])
  | .markup, c =>
    if c = '/' then some (.endTag [], [])
    else if c = '!' then some (.bang [], [])
    else if c = '?' then some (.pi [], [])
    else if isNameStart c then some (.startTag [c], [])
    else none
  | .startTag name, c =>
    if isNameChar c then some (.startTag (name ++ [c]), []) else tagNext ⟨name, []⟩ c
  | .inTag t, c => if isNameStart c then some (.attr t [c], []) else tagNext t c
  | .afterValue t, c => tagNext t c
  | .attr t key, c =>
    if isNameChar c then some (.attr t (key ++ [c]), [])
    else if isSpace c then some (.afterKey t key, [])
    else if c = '=' then some (.beforeValue t key, [])
    else none
  | .afterKey t key, c =>
    if isSpace c then some (.afterKey t key, [])
    else if c = '=' then some (.beforeValue t key, [])
    else none
  | .beforeValue t key, c =>
    if isSpace c then some (.beforeValue t key, [])
    else if c = Quote.single.char then some (.value t key .single [], [])
    else if c = Quote.double.char then some (.value t key .double [], [])
    else none
  | .value t key quote val, c =>
    if c = quote.char then
      -- an attribute may not be given twice
      if key ∈ t.attrs.map Prod.fst then none
      else some (.afterValue { t with attrs := t.attrs ++ [(key, val)] }, [])
    else if c = '<' then none
    else if c = '&' then some (.valueRef t key quote val [], [])
    else some (.value t key quote (val ++ [if isSpace c then ' ' else c]), [])
  | .valueRef t key quote val name, c =>
    refNext name c (.valueRef t key quote val) fun r => (.value t key quote (val ++ [r]), [])
  | .slash t, c =>
    if c = '>' then some (.text 0, [.tag ⟨.empty, t.name, t.attrs⟩]) else none
  | .endTag name, c =>
    if isNameStart c || (isNameChar c && name ≠ []) then some (.endTag (name ++ [c]), [])
    else if name = [] then none
    else if isSpace c then some (.afterEndTag name, [])
    else if c = '>' then some (.text 0, [.tag ⟨.stop, name, []⟩])
    else none
  | .afterEndTag name, c =>
    if isSpace c then some (.afterEndTag name, [])
    else if c = '>' then some (.text 0, [.tag ⟨.stop, name, []⟩])
    else none
  | .bang read, c =>
    if read ++ [c] = ['-', '-'] then some (.comment 0, [])
    else if read ++ [c] = ['[', 'C', 'D', 'A', 'T', 'A', '['] then some (.cdata 0, [])
    else if read ++ [c] <+: ['-', '-'] ∨ read ++ [c] <+: ['[', 'C', 'D', 'A', 'T', 'A', '['] then
      some (.bang (read ++ [c]), [])
    else none
  | .comment dashes, c =>
    -- two dashes stand only at the end of a comment
    if dashes = 2 then if c = '>' then some (.text 0, []) else none
    else some (.comment (if c = '-' then dashes + 1 else 0), [])
  | .cdata brackets, c =>
    if c = ']' then
      if brackets = 2 then some (.cdata 2, [.char c]) else some (.cdata (brackets + 1), [])
    else if c = '>' ∧ brackets = 2 then some (.text 0, [])
    else some (.cdata 0, List.replicate brackets (.char ']') ++ [.char c])
  | .pi target, c =>
    if isNameStart c || (isNameChar c && target ≠ []) then some (.pi (target ++ [c]), [])
    else if target = [] ∨ target.map Char.toLower = ['x', 'm', 'l'] then none
    else if isSpace c then some (.piBody false, [])
    else if c = '?' then some (.piBody true, [])
    else none
  | .piBody question, c =>
    if c = '>' ∧ question then some (.text 0, []) else some (.piBody (c == '?'), [])

def step (m : Mode) (c : Char) : Option (Mode × List Token) := if isChar c then next m c else none

/-- The tokens of a text. -/
def scan (s : String) : Option (List Token) :=
  match run step (.text 0) (lineEnds s.toList) with
  | some (.text _, tokens) => some tokens
  | _ => none

def Token.tag? : Token → Option Tag
  | tag t => some t
  | char _ => none

/-- The tags of a text, in order. -/
def tags (s : String) : Option (List Tag) := (scan s).map (List.filterMap Token.tag?)

/-- The characters in front of the first tag. -/
def leading : List Token → List Char
  | .char c :: ts => c :: leading ts
  | _ => []

def Token.startName? : Token → Option (List Char)
  | tag t => if t.kind = .start then some t.name else none
  | char _ => none

/-- The characters behind the first start tag of this name, up to the next tag. -/
def textAfter (name : String) : List Token → Option (List Char)
  | [] => none
  | x :: ts => if x.startName? = some name.toList then some (leading ts) else textAfter name ts

/-- The text of the first element of this name, if it has no children. -/
def text (name : String) (s : String) : Option String :=
  ((scan s).bind (textAfter name)).map String.ofList

/-- A text is scanned from outside of markup back to outside of markup. -/
theorem scan_eq_some {s : String} {ts : List Token} :
    scan s = some ts ↔ ∃ k, run step (.text 0) (lineEnds s.toList) = some (.text k, ts) := by
  rw [scan]
  split
  · rename_i k tokens hrun
    simp [hrun]
  · rename_i hno
    refine iff_of_false (by simp) ?_
    rintro ⟨k, hrun⟩
    exact hno k ts hrun

/-- The text of an element is read from the tokens. -/
theorem text_eq_some {name s t : String} :
    text name s = some t ↔ ∃ ts, scan s = some ts ∧ textAfter name ts = some t.toList := by
  simp only [text, Option.map_eq_some_iff, Option.bind_eq_some_iff]
  constructor
  · rintro ⟨cs, ⟨ts, hscan, htext⟩, rfl⟩
    exact ⟨ts, hscan, by simpa using htext⟩
  · rintro ⟨ts, hscan, htext⟩
    exact ⟨t.toList, ⟨ts, hscan, htext⟩, by simp⟩

/-! ## Line ends -/

/-- After the line ends are normalised there is no carriage return. -/
theorem cr_not_mem_lineEnds (cs : List Char) : '\r' ∉ lineEnds cs := by
  fun_induction lineEnds cs with
  | case1 cs ih => simpa using ih
  | case2 cs hlf ih => simpa using ih
  | case3 c cs hcrlf hcr ih =>
    rw [List.mem_cons, not_or]
    exact ⟨fun hc => hcr hc.symm, ih⟩
  | case4 => simp

/-- Normalising never makes a text longer. -/
theorem length_lineEnds_le (cs : List Char) : (lineEnds cs).length ≤ cs.length := by
  fun_induction lineEnds cs with
  | case1 cs ih =>
    simp only [List.length_cons]
    omega
  | case2 cs hlf ih => simpa using ih
  | case3 c cs hcrlf hcr ih => simpa using ih
  | case4 => simp

/-- Line ends are read on each side, unless a CR LF stands across. -/
theorem lineEnds_append {a b : List Char} (h : b.head? ≠ some '\n') :
    lineEnds (a ++ b) = lineEnds a ++ lineEnds b := by
  fun_induction lineEnds a with
  | case1 cs ih => simp [lineEnds, ih]
  | case2 cs hlf ih =>
    rw [List.cons_append, lineEnds, ih, List.cons_append]
    rintro cs' heq
    cases cs with
    | nil => exact h (by rw [List.nil_append] at heq; simp [heq])
    | cons d ds =>
      obtain ⟨rfl, -⟩ := List.cons.inj heq
      exact hlf ds rfl
  | case3 c cs hcrlf hcr ih =>
    rw [List.cons_append, lineEnds, ih, List.cons_append]
    · rintro cs' rfl
      exact absurd rfl hcr
    · exact hcr
  | case4 => rfl

/-- Text without carriage returns passes through in front of any other. -/
theorem lineEnds_append_of_not_mem {a : List Char} (h : '\r' ∉ a) (b : List Char) :
    lineEnds (a ++ b) = a ++ lineEnds b := by
  induction a with
  | nil => rfl
  | cons c cs ih =>
    rw [List.mem_cons, not_or] at h
    rw [List.cons_append, lineEnds, ih h.2, List.cons_append]
    · rintro cs rfl
      exact absurd rfl h.1
    · rintro rfl
      exact absurd rfl h.1

/-- Text without carriage returns is normal. -/
theorem lineEnds_of_not_mem {cs : List Char} (h : '\r' ∉ cs) : lineEnds cs = cs := by
  simpa [lineEnds] using lineEnds_append_of_not_mem h []

/-! ## Character data -/

/-- What ends a CDATA section, and may not stand in content. -/
def cdataEnd : List Char := [']', ']', '>']

/-- `CharData`, behind brackets: text that stands for itself. -/
structure CharData (brackets : ℕ) (cs : List Char) : Prop where
  chars : ∀ c ∈ cs, isChar c ∧ c ≠ '<' ∧ c ≠ '&'
  cdata_end : ¬cdataEnd <:+: List.replicate brackets ']' ++ cs

/-- The brackets in force after a character. -/
def nextBrackets (brackets : ℕ) (c : Char) : ℕ := if c = ']' then min (brackets + 1) 2 else 0

/-- The end of a CDATA section is found by counting the brackets in front of a character. -/
theorem cdataEnd_infix_cons {k : ℕ} (hk : k ≤ 2) (c : Char) (cs : List Char) :
    cdataEnd <:+: List.replicate k ']' ++ c :: cs ↔
      (c = '>' ∧ k = 2) ∨ cdataEnd <:+: List.replicate (nextBrackets k c) ']' ++ cs := by
  have hthree : ∀ l : List Char,
      cdataEnd <:+: ']' :: ']' :: ']' :: l ↔ cdataEnd <:+: ']' :: ']' :: l := by
    intro l
    rw [List.infix_cons_iff, or_iff_right]
    simp [cdataEnd, List.cons_prefix_cons]
  obtain rfl | rfl | rfl : k = 0 ∨ k = 1 ∨ k = 2 := by omega
  · by_cases hc : c = ']'
    · subst hc
      simp [nextBrackets]
    · simp [nextBrackets, hc, List.infix_cons_iff, cdataEnd, List.cons_prefix_cons, eq_comm]
  · by_cases hc : c = ']'
    · subst hc
      simp [nextBrackets, List.replicate_succ]
    · simp [nextBrackets, hc, List.infix_cons_iff, cdataEnd, List.cons_prefix_cons, eq_comm,
        List.replicate_succ]
  · by_cases hc : c = ']'
    · subst hc
      simp [nextBrackets, List.replicate_succ, hthree]
    · simp [nextBrackets, hc, List.infix_cons_iff, cdataEnd, List.cons_prefix_cons, eq_comm,
        List.replicate_succ]

/-- A character of data is read as itself. -/
theorem step_text_of_data {k : ℕ} {c : Char} (hc : isChar c) (hlt : c ≠ '<') (hamp : c ≠ '&')
    (hend : ¬(c = '>' ∧ k = 2)) :
    step (.text k) c = some (.text (nextBrackets k c), [.char c]) := by
  rw [step, if_pos hc, next, if_neg hlt, if_neg hamp, nextBrackets]
  by_cases hb : c = ']'
  · rw [if_pos hb, if_pos hb]
  · rw [if_neg hb, if_neg hb, if_neg hend]

/-- The count of brackets does not go beyond what matters. -/
theorem nextBrackets_le (k : ℕ) (c : Char) : nextBrackets k c ≤ 2 := by
  rw [nextBrackets]
  split <;> omega

/-- Character data, character by character. -/
theorem charData_cons {k : ℕ} (hk : k ≤ 2) {c : Char} {cs : List Char} :
    CharData k (c :: cs) ↔
      (isChar c ∧ c ≠ '<' ∧ c ≠ '&' ∧ ¬(c = '>' ∧ k = 2)) ∧ CharData (nextBrackets k c) cs := by
  constructor
  · rintro ⟨hchars, hend⟩
    rw [cdataEnd_infix_cons hk, not_or] at hend
    obtain ⟨hc, hlt, hamp⟩ := hchars c List.mem_cons_self
    exact ⟨⟨hc, hlt, hamp, hend.1⟩, fun d hd => hchars d (List.mem_cons_of_mem c hd), hend.2⟩
  · rintro ⟨⟨hc, hlt, hamp, hgt⟩, hchars, hend⟩
    refine ⟨List.forall_mem_cons.mpr ⟨⟨hc, hlt, hamp⟩, hchars⟩, ?_⟩
    rw [cdataEnd_infix_cons hk, not_or]
    exact ⟨hgt, hend⟩

theorem charData_nil {k : ℕ} : CharData k [] := by
  refine ⟨by simp, ?_⟩
  rintro ⟨s, t, hst⟩
  have hmem : '>' ∈ List.replicate k ']' ++ [] := by
    rw [← hst]
    simp [cdataEnd]
  simp at hmem

/-- Text that is read as it stands: characters of XML, with nothing of markup and no CR. -/
structure Literal (cs : List Char) : Prop where
  chars : ∀ c ∈ cs, isChar c ∧ c ≠ '<' ∧ c ≠ '&' ∧ c ≠ '\r'
  cdata_end : ¬cdataEnd <:+: cs

/-- What is read back as it stands is character data without carriage returns. -/
theorem literal_iff {cs : List Char} : Literal cs ↔ CharData 0 cs ∧ '\r' ∉ cs := by
  constructor
  · rintro ⟨hchars, hend⟩
    refine ⟨⟨fun c hc => ?_, by simpa using hend⟩, fun hcr => (hchars _ hcr).2.2.2 rfl⟩
    obtain ⟨hchar, hlt, hamp, -⟩ := hchars c hc
    exact ⟨hchar, hlt, hamp⟩
  · rintro ⟨⟨hchars, hend⟩, hcr⟩
    refine ⟨fun c hc => ?_, by simpa using hend⟩
    obtain ⟨hchar, hlt, hamp⟩ := hchars c hc
    exact ⟨hchar, hlt, hamp, fun h => hcr (h ▸ hc)⟩

/-- Only characters of XML are read. -/
theorem isChar_of_run {m m' : Mode} {cs : List Char} {out : List Token}
    (h : run step m cs = some (m', out)) : ∀ c ∈ cs, isChar c := by
  induction cs generalizing m out with
  | nil => simp
  | cons c cs ih =>
    obtain ⟨m₁, o₁, o₂, hc, hcs, rfl⟩ := run_cons_eq_some.mp h
    have hchar : isChar c := by
      by_contra hno
      simp [step, hno] at hc
    exact List.forall_mem_cons.mpr ⟨hchar, ih hcs⟩

/-- Character data is read as it stands. -/
theorem run_charData {k : ℕ} (hk : k ≤ 2) {cs : List Char} (h : CharData k cs) :
    ∃ k' ≤ 2, run step (.text k) cs = some (.text k', cs.map .char) := by
  induction cs generalizing k with
  | nil => exact ⟨k, hk, rfl⟩
  | cons c cs ih =>
    obtain ⟨⟨hc, hlt, hamp, hgt⟩, hcs⟩ := (charData_cons hk).mp h
    obtain ⟨k', hk', hrun⟩ := ih (nextBrackets_le k c) hcs
    exact ⟨k', hk', run_cons_eq_some.mpr ⟨_, _, _, step_text_of_data hc hlt hamp hgt, hrun, rfl⟩⟩

/-- The characters a mode has read and may still emit. -/
def credit : Mode → ℕ
  | .cdata brackets => brackets
  | _ => 0

/-- A reference gives at most one token, at its end. -/
theorem refNext_credit {name : List Char} {c : Char} {more : List Char → Mode}
    {done : Char → Mode × List Token} {p : Mode × List Token}
    (h : refNext name c more done = some p) (hmore : ∀ n, credit (more n) = 0)
    (hdone : ∀ r, (done r).2.length ≤ 1 ∧ credit (done r).1 = 0) : p.2.length + credit p.1 ≤ 1 := by
  rw [refNext] at h
  split at h
  · obtain ⟨r, -, rfl⟩ := Option.map_eq_some_iff.mp h
    have := hdone r
    omega
  · split at h
    · obtain rfl := Option.some.inj h
      simp [hmore]
    · cases h

/-- So does a tag. -/
theorem tagNext_credit {t : OpenTag} {c : Char} {p : Mode × List Token} (h : tagNext t c = some p) :
    p.2.length + credit p.1 ≤ 1 := by
  rw [tagNext] at h
  split_ifs at h <;> obtain rfl := Option.some.inj h <;> simp [credit]

/-- A step emits at most one character for each it reads. -/
theorem step_credit (m : Mode) (c : Char) (m' : Mode) (o : List Token)
    (h : step m c = some (m', o)) : o.length + credit m' ≤ credit m + 1 := by
  rw [step] at h
  split at h
  · cases m with
    | ref name => exact (refNext_credit h (fun _ => rfl) (fun _ => ⟨le_rfl, rfl⟩)).trans (by omega)
    | valueRef t key quote val name =>
      exact (refNext_credit h (fun _ => rfl) (fun _ => ⟨Nat.zero_le 1, rfl⟩)).trans (by omega)
    | startTag name =>
      rw [next] at h
      split at h
      · obtain ⟨rfl, rfl⟩ := Prod.mk.inj (Option.some.inj h)
        simp [credit]
      · exact (tagNext_credit h).trans (by omega)
    | inTag t =>
      rw [next] at h
      split at h
      · obtain ⟨rfl, rfl⟩ := Prod.mk.inj (Option.some.inj h)
        simp [credit]
      · exact (tagNext_credit h).trans (by omega)
    | afterValue t => exact (tagNext_credit h).trans (by omega)
    | cdata brackets =>
      rw [next] at h
      split_ifs at h with hb htwo hend <;> obtain ⟨rfl, rfl⟩ := Prod.mk.inj (Option.some.inj h)
      · simp [credit, htwo]
      · simp [credit]
      · simp [credit]
      · simp [credit]
    | _ =>
      rw [next] at h
      split_ifs at h <;> obtain ⟨rfl, rfl⟩ := Prod.mk.inj (Option.some.inj h) <;> simp [credit]
  · cases h

/-- A text is character data and read as it stands, or some of what it is read as is shorter. -/
theorem run_text_cases {k : ℕ} (hk : k ≤ 2) {cs : List Char} {m : Mode} {out : List Token}
    (h : run step (.text k) cs = some (m, out)) : CharData k cs ∨ out.length < cs.length := by
  induction cs generalizing k out with
  | nil => exact .inl charData_nil
  | cons c cs ih =>
    obtain ⟨m₁, o₁, o₂, hc, hcs, rfl⟩ := run_cons_eq_some.mp h
    have hlen := run_length_le credit step_credit hcs
    have hchar : isChar c := isChar_of_run h c List.mem_cons_self
    by_cases hmarkup : c = '<' ∨ c = '&'
    -- nothing is emitted for the delimiter
    · obtain ⟨hm, rfl⟩ : credit m₁ = 0 ∧ o₁ = [] := by
        rw [step, if_pos hchar, next] at hc
        rcases hmarkup with rfl | rfl
        · obtain ⟨rfl, rfl⟩ : Mode.markup = m₁ ∧ [] = o₁ := by simpa using hc
          exact ⟨rfl, rfl⟩
        · obtain ⟨rfl, rfl⟩ : Mode.ref [] = m₁ ∧ [] = o₁ := by simpa using hc
          exact ⟨rfl, rfl⟩
      right
      simp only [List.nil_append, List.length_cons]
      omega
    · rw [not_or] at hmarkup
      have hgt : ¬(c = '>' ∧ k = 2) := by
        rintro ⟨rfl, rfl⟩
        simp [step, next] at hc
      rw [step_text_of_data hchar hmarkup.1 hmarkup.2 hgt] at hc
      obtain ⟨rfl, rfl⟩ := Prod.mk.inj (Option.some.inj hc)
      rcases ih (nextBrackets_le k c) hcs with hdata | hshort
      · exact .inl ((charData_cons hk).mpr ⟨⟨hchar, hmarkup.1, hmarkup.2, hgt⟩, hdata⟩)
      · right
        simpa using hshort

/-! ## Text between tags -/

/-- The modes that read over a `<`. -/
def swallowing : List Mode := [.comment 0, .cdata 0, .piBody false]

/-- A `<` is markup, or it is swallowed, or it is refused. -/
theorem step_lt {m m' : Mode} {o : List Token} (h : step m '<' = some (m', o)) :
    (∃ k, m = .text k ∧ m' = .markup ∧ o = []) ∨ m' ∈ swallowing := by
  have hchar : isChar '<' := by decide
  have hname : isNameChar '<' = false := by decide
  have hstart : isNameStart '<' = false := by decide
  have hspace : isSpace '<' = false := by decide
  rw [step, if_pos hchar] at h
  cases m with
  | text k =>
    obtain ⟨rfl, rfl⟩ : Mode.markup = m' ∧ [] = o := by simpa [next] using h
    exact .inl ⟨k, rfl, rfl, rfl⟩
  | comment dashes =>
    right
    rw [next] at h
    split_ifs at h with h2 hgt hdash
    · exact absurd hgt (by decide)
    · exact absurd hdash (by decide)
    · obtain ⟨rfl, -⟩ := Prod.mk.inj (Option.some.inj h)
      simp [swallowing]
  | cdata brackets =>
    right
    simp [next] at h
    simp [← h.1, swallowing]
  | piBody question =>
    right
    simp [next] at h
    simp [← h.1, swallowing]
  | bang read =>
    have hno : ∀ l : List Char, '<' ∉ l → read ++ ['<'] ≠ l ∧ ¬read ++ ['<'] <+: l := by
      intro l hl
      have hprefix : ¬read ++ ['<'] <+: l := fun hp => hl (hp.subset (by simp))
      exact ⟨fun heq => hprefix (heq ▸ List.prefix_rfl), hprefix⟩
    obtain ⟨hdashes, hdashes'⟩ := hno ['-', '-'] (by decide)
    obtain ⟨hcdata, hcdata'⟩ := hno ['[', 'C', 'D', 'A', 'T', 'A', '['] (by decide)
    rw [next, if_neg hdashes, if_neg hcdata, if_neg (not_or.mpr ⟨hdashes', hcdata'⟩)] at h
    cases h
  | value t key quote val => cases quote <;> simp [next, Quote.char] at h
  | _ => simp [next, tagNext, refNext, hname, hstart, hspace, Quote.char] at h

/-- These modes stay over every character that no delimiter begins with. -/
theorem step_swallowing {m : Mode} (hm : m ∈ swallowing) {c : Char} (hc : isChar c) (hdash : c ≠ '-')
    (hbracket : c ≠ ']') (hquestion : c ≠ '?') : ∃ o, step m c = some (m, o) := by
  simp only [swallowing, List.mem_cons, List.not_mem_nil, or_false] at hm
  rcases hm with rfl | rfl | rfl
  · exact ⟨[], by simp [step, hc, next, hdash]⟩
  · exact ⟨[.char c], by simp [step, hc, next, hbracket]⟩
  · exact ⟨[], by simp [step, hc, next, hquestion]⟩

/-- A mode that reads over a text without leaving. -/
def Inert (m : Mode) (cs : List Char) : Prop := ∃ out, run step m cs = some (m, out)

/-- Text that is swallowed may be followed by more of it. -/
theorem Inert.append {m : Mode} {a b : List Char} (ha : Inert m a) (hb : Inert m b) :
    Inert m (a ++ b) := by
  obtain ⟨oa, ha⟩ := ha
  obtain ⟨ob, hb⟩ := hb
  exact ⟨oa ++ ob, run_append_eq_some.mpr ⟨m, oa, ob, ha, hb, rfl⟩⟩

/-- Within markup that swallows everything, text without its end is swallowed. -/
theorem inert_of_forall {m : Mode} (hm : m ∈ swallowing) {cs : List Char}
    (h : ∀ c ∈ cs, isChar c ∧ c ≠ '-' ∧ c ≠ ']' ∧ c ≠ '?') : Inert m cs := by
  induction cs with
  | nil => exact ⟨[], rfl⟩
  | cons c cs ih =>
    obtain ⟨⟨hc, hdash, hbracket, hquestion⟩, hcs⟩ := List.forall_mem_cons.mp h
    obtain ⟨out, hrun⟩ := ih hcs
    obtain ⟨o, hstep⟩ := step_swallowing hm hc hdash hbracket hquestion
    exact ⟨o ++ out, run_cons_eq_some.mpr ⟨m, o, out, hstep, hrun, rfl⟩⟩

/-- The text before a tag is no longer than what stands before it. -/
theorem length_leading_append_tag (o : List Token) (t : Tag) (r : List Token) :
    (leading (o ++ .tag t :: r)).length ≤ o.length := by
  induction o with
  | nil => simp [leading]
  | cons x o ih =>
    cases x with
    | tag t => simp [leading]
    | char c => simpa [leading] using ih

/-- A text in content that is read as these characters. -/
def ReadsAs (raw text : List Char) : Prop :=
  ∃ k, run step (.text 0) raw = some (.text k, text.map .char)

/-- A literal reads as itself. -/
theorem Literal.readsAs {cs : List Char} (h : Literal cs) : ReadsAs (lineEnds cs) cs := by
  obtain ⟨hdata, hcr⟩ := literal_iff.mp h
  obtain ⟨k, -, hrun⟩ := run_charData (Nat.zero_le 2) hdata
  rw [lineEnds_of_not_mem hcr]
  exact ⟨k, hrun⟩

/-- Markup: from content to content, with a tag first. -/
structure Markup (cs : List Char) (ts : List Token) : Prop where
  run_eq : ∀ k, run step (.text k) cs = some (.text 0, ts)
  head_eq : cs.head? = some '<'
  tag_first : ∃ t r, ts = .tag t :: r

/-- Whether a text is markup, and of which tokens. -/
def markup? : List Char → Option (List Token)
  | '<' :: more =>
    match run step .markup more with
    | some (.text 0, .tag t :: r) => some (.tag t :: r)
    | _ => none
  | _ => none

/-- What the check finds to be markup is markup. -/
theorem Markup.of_eq_some {cs : List Char} {ts : List Token} (h : markup? cs = some ts) :
    Markup cs ts := by
  unfold markup? at h
  split at h
  · split at h
    · rename_i more m t r hrun
      obtain rfl := Option.some.inj h
      refine ⟨fun k => ?_, rfl, t, r, rfl⟩
      exact run_cons_eq_some.mpr ⟨.markup, [], _, rfl, hrun, rfl⟩
    · cases h
  · cases h

/-- Markup, then what follows it. -/
theorem Markup.run_append_eq_some {cs rest : List Char} {ts out : List Token} {m : Mode} {k : ℕ}
    (hm : Markup cs ts) : run step (.text k) (cs ++ rest) = some (m, out) ↔
      ∃ o, run step (.text 0) rest = some (m, o) ∧ out = ts ++ o := by
  rw [Machine.run_append_eq_some, hm.run_eq k]
  constructor
  · rintro ⟨m₁, o₁, o₂, hcs, hrest, rfl⟩
    obtain ⟨rfl, rfl⟩ := Prod.mk.inj (Option.some.inj hcs)
    exact ⟨o₂, hrest, rfl⟩
  · rintro ⟨o, hrest, rfl⟩
    exact ⟨.text 0, ts, o, rfl, hrest, rfl⟩

/-- Markup, then text, then what follows it. -/
theorem Markup.run_append_readsAs {cs raw text rest : List Char} {ts out : List Token} {m : Mode}
    (hm : Markup cs ts) (hraw : ReadsAs raw text)
    (hrest : ∀ k, run step (.text k) rest = some (m, out)) (k : ℕ) :
    run step (.text k) (cs ++ (raw ++ rest)) = some (m, ts ++ (text.map .char ++ out)) := by
  obtain ⟨k', hread⟩ := hraw
  exact hm.run_append_eq_some.mpr
    ⟨_, Machine.run_append_eq_some.mpr ⟨.text k', _, out, hread, hrest k', rfl⟩, rfl⟩

/-- Text in front of markup. If what follows does not end a comment, a CDATA section or a processing
instruction, the text is character data, or some of it is lost. -/
theorem run_text_hole {j k : ℕ} (hj : j ≤ 2) {raw cs rest : List Char} {ts out : List Token}
    (hm : Markup cs ts) (hinert : ∀ m ∈ swallowing, Inert m (cs ++ rest))
    (h : run step (.text j) (raw ++ (cs ++ rest)) = some (.text k, out)) :
    CharData j raw ∨ (leading out).length < raw.length := by
  obtain ⟨m, o₁, o₂, hraw, hcs, rfl⟩ := run_append_eq_some.mp h
  rcases run_text_cases hj hraw with hdata | hshort
  · exact .inl hdata
  · right
    obtain ⟨more, rfl⟩ : ∃ more, cs = '<' :: more := by
      simpa [List.head?_eq_some_iff] using hm.head_eq
    obtain ⟨m₁, o₃, o₄, hlt, hmore, rfl⟩ := run_cons_eq_some.mp hcs
    rcases step_lt hlt with ⟨k', rfl, -, -⟩ | hswallow
    · obtain ⟨o₅, -, heq⟩ := hm.run_append_eq_some.mp hcs
      obtain ⟨t, r, rfl⟩ := hm.tag_first
      rw [heq]
      exact (length_leading_append_tag o₁ t _).trans_lt hshort
    -- the `<` and all that follows it is swallowed, so the text does not end in content
    · obtain ⟨out, hstay⟩ := hinert m₁ hswallow
      obtain ⟨m₂, o₅, o₆, hlt', hmore', -⟩ := run_cons_eq_some.mp hstay
      obtain ⟨o₇, hsame⟩ := @step_swallowing m₁ hswallow '<' (by decide) (by decide) (by decide)
        (by decide)
      rw [hsame] at hlt'
      obtain ⟨rfl, -⟩ := Prod.mk.inj (Option.some.inj hlt')
      rw [hmore] at hmore'
      obtain ⟨rfl, -⟩ := Prod.mk.inj (Option.some.inj hmore')
      simp [swallowing] at hswallow

end Xml
