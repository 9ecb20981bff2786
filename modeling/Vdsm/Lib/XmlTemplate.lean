import Vdsm.Lib.Xml

/-!
# XML templates

A template is markup with holes in it for text. Filled, it is read as its own tags with the texts
between them, if every hole reads as its text (`run_fill`). Conversely a text that comes through its
hole unchanged has nothing of markup in it (`literal_of_leading_eq`): an element added to the tags,
a comment, a reference each cost some of the text.
-/

namespace Xml

open Machine

/-! ## The text of an element -/

/-- The characters in front of a tag are the text before it. -/
theorem leading_data_tag (cs : List Char) (t : Tag) (r : List Token) :
    leading (cs.map .char ++ .tag t :: r) = cs := by
  induction cs with
  | nil => rfl
  | cons c cs ih => simp [leading, ih]

/-- Where the element does not start, its text is not found. -/
theorem textAfter_append_of_forall {name : String} {a : List Token} (b : List Token)
    (h : ∀ x ∈ a, x.startName? ≠ some name.toList) :
    textAfter name (a ++ b) = textAfter name b := by
  induction a with
  | nil => rfl
  | cons x a ih =>
    obtain ⟨hx, ha⟩ := List.forall_mem_cons.mp h
    rw [List.cons_append, textAfter, if_neg hx, ih ha]

/-- Characters start no element. -/
theorem textAfter_data (name : String) (cs : List Char) (ts : List Token) :
    textAfter name (cs.map .char ++ ts) = textAfter name ts :=
  textAfter_append_of_forall ts (by simp [Token.startName?])

/-- Tokens that end in the start tag of this name, the only one. -/
structure UpTo (name : String) (ts : List Token) : Prop where
  not_before : ∀ x ∈ ts.dropLast, x.startName? ≠ some name.toList
  last_eq : ts.getLast?.bind Token.startName? = some name.toList

instance (name : String) (ts : List Token) : Decidable (UpTo name ts) :=
  decidable_of_iff ((∀ x ∈ ts.dropLast, x.startName? ≠ some name.toList) ∧
    ts.getLast?.bind Token.startName? = some name.toList)
    ⟨fun h => ⟨h.1, h.2⟩, fun h => ⟨h.not_before, h.last_eq⟩⟩

/-- Behind the start tag of the element its text begins. -/
theorem UpTo.textAfter_append {name : String} {ts : List Token} (h : UpTo name ts)
    (b : List Token) : textAfter name (ts ++ b) = some (leading b) := by
  obtain ⟨x, hlast, hx⟩ := Option.bind_eq_some_iff.mp h.last_eq
  rw [← List.dropLast_append_getLast? x hlast, List.append_assoc,
    textAfter_append_of_forall _ h.not_before, List.singleton_append, textAfter, if_pos hx]

/-! ## Templates -/

/-- A piece of a template: markup without a CR, in which no comment, CDATA section or processing
instruction ends. -/
structure Piece where
  chars : List Char
  tokens : List Token
  markup : Markup chars tokens
  cr_not_mem : '\r' ∉ chars
  inert : ∀ m ∈ swallowing, Inert m chars

/-- Whether a text is a piece of a template, and of which tokens. -/
def piece? (cs : List Char) : Option (List Token) :=
  if '\r' ∉ cs ∧ ∀ m ∈ swallowing, (run step m cs).map Prod.fst = some m then markup? cs else none

/-- What the check accepts is a piece of markup. -/
theorem exists_piece {cs : List Char} {ts : List Token} (h : piece? cs = some ts) :
    ∃ p : Piece, p.chars = cs ∧ p.tokens = ts := by
  rw [piece?] at h
  split at h
  · rename_i hok
    refine ⟨⟨cs, ts, .of_eq_some h, hok.1, fun m hm => ?_⟩, rfl, rfl⟩
    obtain ⟨⟨m', out⟩, hrun, rfl⟩ := Option.map_eq_some_iff.mp (hok.2 m hm)
    exact ⟨out, hrun⟩
  · cases h

/-- A hole of a template: the piece in front of it, what is put in, and the text a reader is to find
there. -/
structure Field where
  before : Piece
  raw : List Char
  text : List Char

/-- The template, filled: the holes with the pieces in front of them, then the last piece. -/
def fill (fields : List Field) (last : Piece) : List Char :=
  fields.foldr (fun f rest => f.before.chars ++ (f.raw ++ rest)) last.chars

/-- The tokens of the pieces, with the texts of the holes between them. -/
def fillTokens (fields : List Field) (last : Piece) : List Token :=
  fields.foldr (fun f rest => f.before.tokens ++ (f.text.map .char ++ rest)) last.tokens

section fill

variable (f : Field) (fields : List Field) (last : Piece)

/-- A filled template begins with markup. -/
theorem head?_fill : (fill fields last).head? = some '<' := by
  cases fields with
  | nil => exact last.markup.head_eq
  | cons f fields => simp [fill, List.head?_append, f.before.markup.head_eq]

/-- So its first token is a tag. -/
theorem fillTokens_tag_first : ∃ t r, fillTokens fields last = .tag t :: r := by
  cases fields with
  | nil => exact last.markup.tag_first
  | cons f fields =>
    obtain ⟨t, r, hf⟩ := f.before.markup.tag_first
    exact ⟨t, _, by rw [fillTokens, List.foldr_cons, hf, List.cons_append]⟩

/-- The last piece of a template is normal. -/
theorem lineEnds_fill_nil : lineEnds (fill [] last) = last.chars :=
  lineEnds_of_not_mem last.cr_not_mem

/-- Normalising the line ends goes hole by hole, because every piece begins and ends with
markup. -/
theorem lineEnds_fill_cons : lineEnds (fill (f :: fields) last) =
    f.before.chars ++ (lineEnds f.raw ++ lineEnds (fill fields last)) := by
  have hhead : (fill fields last).head? ≠ some '\n' := by
    rw [head?_fill]
    decide
  rw [fill, List.foldr_cons, ← fill, lineEnds_append_of_not_mem f.before.cr_not_mem,
    lineEnds_append hhead]

variable {f fields last}

/-- A filled template in which every hole reads as its text. -/
theorem run_fill (hreads : ∀ f ∈ fields, ReadsAs (lineEnds f.raw) f.text) (k : ℕ) :
    run step (.text k) (lineEnds (fill fields last)) = some (.text 0, fillTokens fields last) := by
  induction fields generalizing k with
  | nil =>
    rw [lineEnds_fill_nil]
    exact last.markup.run_eq k
  | cons f fields ih =>
    obtain ⟨hread, hreads⟩ := List.forall_mem_cons.mp hreads
    rw [lineEnds_fill_cons]
    exact f.before.markup.run_append_readsAs hread (ih hreads) k

/-- A filled template is scanned into the tokens of its pieces and the texts of its holes. -/
theorem scan_eq_fillTokens {s : String} (hs : s.toList = fill fields last)
    (hreads : ∀ f ∈ fields, ReadsAs (lineEnds f.raw) f.text) :
    scan s = some (fillTokens fields last) := by
  rw [scan, hs, run_fill hreads 0]

/-- The tags are those of the pieces. -/
theorem filterMap_tag_fillTokens : (fillTokens fields last).filterMap Token.tag? =
    ((fields.map fun f => f.before.tokens).flatten ++ last.tokens).filterMap Token.tag? := by
  induction fields with
  | nil => rfl
  | cons f fields ih =>
    have hdata : (f.text.map Token.char).filterMap Token.tag? = [] := by
      simp [List.filterMap_map, Function.comp_def, Token.tag?]
    rw [fillTokens, List.foldr_cons, ← fillTokens, List.filterMap_append, List.filterMap_append, ih,
      hdata, List.nil_append, ← List.filterMap_append, List.map_cons, List.flatten_cons,
      List.append_assoc]

/-- The text of an element is that of the hole behind its start tag. -/
theorem textAfter_fillTokens {name : String} (before : List Field)
    (hbefore : ∀ g ∈ before, ∀ x ∈ g.before.tokens, x.startName? ≠ some name.toList)
    (hf : UpTo name f.before.tokens) :
    textAfter name (fillTokens (before ++ f :: fields) last) = some f.text := by
  induction before with
  | nil =>
    obtain ⟨t, r, hrest⟩ := fillTokens_tag_first fields last
    rw [List.nil_append, fillTokens, List.foldr_cons, ← fillTokens, hf.textAfter_append, hrest,
      leading_data_tag]
  | cons g before ih =>
    obtain ⟨hg, hbefore⟩ := List.forall_mem_cons.mp hbefore
    rw [List.cons_append, fillTokens, List.foldr_cons, ← fillTokens,
      textAfter_append_of_forall _ hg, textAfter_data, ih hbefore]

/-- What swallows a `<` swallows the whole template, if no hole has a delimiter. -/
theorem inert_fill {m : Mode} (hm : m ∈ swallowing)
    (hraw : ∀ f ∈ fields, Inert m (lineEnds f.raw)) : Inert m (lineEnds (fill fields last)) := by
  induction fields with
  | nil =>
    rw [lineEnds_fill_nil]
    exact last.inert m hm
  | cons f fields ih =>
    obtain ⟨hf, hraw⟩ := List.forall_mem_cons.mp hraw
    rw [lineEnds_fill_cons]
    exact (f.before.inert m hm).append (hf.append (ih hraw))

/-- Text that comes through a hole unchanged is literal, if no later hole has a delimiter. -/
theorem literal_of_leading_eq {g : Field} {k k' : ℕ} {out : List Token}
    (hraw : ∀ m ∈ swallowing, ∀ h ∈ g :: fields, Inert m (lineEnds h.raw))
    (h : run step (.text k) (lineEnds (fill (f :: g :: fields) last)) =
      some (.text k', f.before.tokens ++ out))
    (hout : leading out = f.raw) : Literal f.raw := by
  rw [lineEnds_fill_cons] at h
  obtain ⟨o, hhole, heq⟩ := f.before.markup.run_append_eq_some.mp h
  obtain rfl : out = o := List.append_cancel_left heq
  have hinert : ∀ m ∈ swallowing, Inert m (lineEnds (fill (g :: fields) last)) :=
    fun m hm => inert_fill hm (hraw m hm)
  rw [lineEnds_fill_cons] at hhole hinert
  rcases run_text_hole (Nat.zero_le 2) g.before.markup hinert hhole with hdata | hshort
  · obtain ⟨m, o₁, o₂, hread, hrest, rfl⟩ := run_append_eq_some.mp hhole
    obtain ⟨k₁, -, hrun⟩ := run_charData (Nat.zero_le 2) hdata
    rw [hrun] at hread
    obtain ⟨rfl, rfl⟩ := Prod.mk.inj (Option.some.inj hread)
    obtain ⟨o₃, -, rfl⟩ := g.before.markup.run_append_eq_some.mp hrest
    obtain ⟨t, r, htag⟩ := g.before.markup.tag_first
    rw [htag, List.cons_append, leading_data_tag] at hout
    rw [hout] at hdata
    exact literal_iff.mpr ⟨hdata, hout ▸ cr_not_mem_lineEnds f.raw⟩
  · have hle := length_lineEnds_le f.raw
    rw [hout] at hshort
    omega

end fill

end Xml
