import Vdsm.Lib.RustStr

/-!
# Paths as strings

`Path::join` and the lexical components of a path: what stands between slashes, less the empty and
`.` components. A `FileName` is one component as a directory lists it.
-/

namespace Rust

/-- `base.join(p)`: an absolute `p` replaces the base; an empty one adds a slash. -/
def pathJoin (base p : String) : String :=
  if startsWith p "/" then p
  else if base = "" ∨ base.toList.getLast? = some '/' then base ++ p
  else base ++ "/" ++ p

/-- Is this component dropped by lexical normalisation? -/
def isTrivial (c : String) : Bool := c == "" || c == "."

/-- The trivial parts of a path are the empty one and the dot. -/
theorem isTrivial_iff {c : String} : isTrivial c = true ↔ c.toList = [] ∨ c.toList = ['.'] := by
  have hdot : (['.'] : List Char) = ".".toList := rfl
  rw [isTrivial, Bool.or_eq_true, beq_iff_eq, beq_iff_eq, hdot, String.toList_inj,
    String.toList_eq_nil_iff]

/-- The components of a path, less the empty ones and `.`. -/
def components (p : String) : List String := (splitChar '/' p).filter fun c => !isTrivial c

/-- A name a directory can hold. -/
def isFileName (s : String) : Bool :=
  !isTrivial s && s != ".." && !containsChar s '/' && !containsChar s '\x00'

/-- The name of a directory entry. -/
abbrev FileName : Type := { s : String // isFileName s = true }

/-- The name of an entry has no slash in it. -/
theorem FileName.not_mem_slash (n : FileName) : '/' ∉ n.1.toList := by
  have h := n.2
  simp only [isFileName, Bool.and_eq_true, Bool.not_eq_true', containsChar] at h
  simpa using h.1.2

/-- It is no trivial part of a path. -/
theorem FileName.not_trivial (n : FileName) : isTrivial n.1 = false := by
  have h := n.2
  simp only [isFileName, Bool.and_eq_true, Bool.not_eq_true'] at h
  exact h.1.1.1

/-- It is not empty. -/
theorem FileName.ne_empty (n : FileName) : n.1 ≠ "" := by
  intro h
  have htriv := n.not_trivial
  simp [isTrivial, h] at htriv

/-- Joining a relative path to a base that does not end in a slash. -/
theorem pathJoin_relative {base p : String} (hp : startsWith p "/" = false) (hne : base ≠ "")
    (hlast : base.toList.getLast? ≠ some '/') : pathJoin base p = base ++ "/" ++ p := by
  rw [pathJoin, hp, if_neg (by simp), if_neg (by simp [hne, hlast])]

/-- Text without a slash is a relative path. -/
theorem startsWith_slash_of_not_mem {s : String} (h : '/' ∉ s.toList) :
    startsWith s "/" = false := by
  have hslash : "/".toList = ['/'] := rfl
  rw [Bool.eq_false_iff, startsWith, hslash, ne_eq, List.isPrefixOf_iff_prefix]
  rintro ⟨t, ht⟩
  exact h (by simp [← ht])

/-- A directory and one of its entries. -/
theorem pathJoin_fileName {base : String} (n : FileName) (hne : base ≠ "")
    (hlast : base.toList.getLast? ≠ some '/') : pathJoin base n.1 = base ++ "/" ++ n.1 :=
  pathJoin_relative (startsWith_slash_of_not_mem n.not_mem_slash) hne hlast

/-- A path that ends in a file name does not end in a slash. -/
theorem FileName.getLast?_append (s : String) (n : FileName) :
    (s ++ n.1).toList.getLast? ≠ some '/' := by
  have hne : n.1.toList ≠ [] := fun h => n.ne_empty (by simpa using h)
  rw [String.toList_append, List.getLast?_append_of_ne_nil _ hne]
  intro h
  exact n.not_mem_slash (List.mem_of_getLast? h)

/-! ## Components -/

/-- A text with a separator in it splits into the parts on both sides. -/
theorem splitChar_append_cons {c : Char} {u s t : String}
    (h : u.toList = s.toList ++ c :: t.toList) :
    splitChar c u = splitChar c s ++ splitChar c t := by
  rw [splitChar, h, List.splitOn_append_cons_self, List.map_append]
  rfl

/-- A text without a separator is one part. -/
theorem splitChar_of_not_mem {c : Char} {s : String} (h : c ∉ s.toList) : splitChar c s = [s] := by
  rw [splitChar, List.splitOn_eq_singleton h]
  simp

/-- The pieces of a split list are free of the separator. -/
theorem not_mem_of_mem_splitOn {α : Type} [BEq α] [LawfulBEq α] {x : α} {seg l : List α}
    (h : seg ∈ l.splitOn x) : x ∉ seg := by
  induction l generalizing seg with
  | nil =>
    obtain rfl : seg = [] := by simpa using h
    simp
  | cons c l ih =>
    rw [List.splitOn_cons_eq_if_modifyHead] at h
    obtain ⟨first, rest, hpieces⟩ := List.exists_cons_of_ne_nil (List.splitOn_ne_nil x l)
    rw [hpieces] at h ih
    split at h
    · rcases List.mem_cons.mp h with rfl | h
      · simp
      · exact ih h
    · rename_i hc
      rcases List.mem_cons.mp h with rfl | h
      · have hfirst := ih (List.mem_cons_self ..)
        simp only [List.mem_cons, not_or]
        exact ⟨fun heq => hc (by simp [heq]), hfirst⟩
      · exact ih (List.mem_cons_of_mem _ h)

/-- Splitting gives at least one part. -/
theorem splitChar_ne_nil (c : Char) (s : String) : splitChar c s ≠ [] := by
  simp [splitChar, List.splitOn_ne_nil]

/-- What holds no separator is added to the last piece. -/
theorem splitChar_append_of_not_mem {c : Char} {t : String} (s : String) (h : c ∉ t.toList) :
    splitChar c (s ++ t) = (splitChar c s).dropLast ++ [(splitChar c s).getLastD "" ++ t] := by
  -- from the front: a separator starts a new piece, anything else joins the first
  have hlist : ∀ l : List Char, (l ++ t.toList).splitOn c
      = (l.splitOn c).dropLast ++ [(l.splitOn c).getLastD [] ++ t.toList] := by
    intro l
    induction l with
    | nil => simp [List.splitOn_eq_singleton h]
    | cons d l ih =>
      obtain ⟨first, rest, hl⟩ := List.exists_cons_of_ne_nil (List.splitOn_ne_nil c l)
      rw [List.cons_append, List.splitOn_cons_eq_if_modifyHead, List.splitOn_cons_eq_if_modifyHead,
        ih, hl]
      split
      · simp
      · cases rest with
        | nil => simp
        | cons second rest => simp
  obtain ⟨init, last, hs⟩ : ∃ init last, s.toList.splitOn c = init ++ [last] := by
    rcases List.eq_nil_or_concat (s.toList.splitOn c) with hnil | ⟨init, last, hs⟩
    · exact absurd hnil (List.splitOn_ne_nil c _)
    · exact ⟨init, last, by rw [hs, List.concat_eq_append]⟩
  have happ := hlist s.toList
  rw [splitChar, String.toList_append, happ, splitChar, hs]
  simp

/-- A suffix that does not start with a slash is added to a joined path. -/
theorem pathJoin_append {sfx : String} (base p : String) (h : startsWith sfx "/" = false) :
    pathJoin base (p ++ sfx) = pathJoin base p ++ sfx := by
  have hstart : startsWith (p ++ sfx) "/" = startsWith p "/" := by
    have hslash : "/".toList = ['/'] := rfl
    rw [startsWith, hslash] at h
    rw [startsWith, startsWith, hslash, String.toList_append]
    cases hp : p.toList with
    | nil => simpa using h
    | cons d l => simp [List.isPrefixOf]
  rw [pathJoin, pathJoin, hstart]
  split_ifs <;> simp [String.append_assoc]

/-- A slash separates components. -/
theorem components_append_slash (s t : String) :
    components (s ++ "/" ++ t) = components s ++ components t := by
  have hsplit : splitChar '/' (s ++ "/" ++ t) = splitChar '/' s ++ splitChar '/' t :=
    splitChar_append_cons (by simp)
  rw [components, hsplit, List.filter_append]
  rfl

/-- A string without a slash is one component, or none. -/
theorem components_of_not_mem {s : String} (h : '/' ∉ s.toList) :
    components s = if isTrivial s then [] else [s] := by
  rw [components, splitChar_of_not_mem h]
  cases hs : isTrivial s <;> simp [hs]

/-- Every part stands in the joined text. -/
theorem mem_infix_intercalate {α : Type} {sep s : List α} {ls : List (List α)} (h : s ∈ ls) :
    s <:+: sep.intercalate ls := by
  induction ls with
  | nil => simp at h
  | cons a tl ih =>
    cases tl with
    | nil =>
      obtain rfl : s = a := by simpa using h
      simp
    | cons b tl =>
      rw [List.intercalate_cons_cons]
      rcases List.mem_cons.mp h with rfl | h
      · rw [List.append_assoc]
        exact List.infix_append_left
      · exact List.infix_append_of_infix_right (ih h)

/-- A component is a piece of the path. -/
theorem infix_of_mem_components {c p : String} (h : c ∈ components p) :
    c.toList <:+: p.toList := by
  have hsplit : c ∈ splitChar '/' p := (List.mem_filter.mp h).1
  obtain ⟨seg, hseg, rfl⟩ := List.mem_map.mp hsplit
  have hinfix : seg <:+: ['/'].intercalate (p.toList.splitOn '/') := mem_infix_intercalate hseg
  rw [List.intercalate_splitOn] at hinfix
  simpa using hinfix

/-- A list whose pieces are all empty or a dot has no two dots in a row, and nothing but slashes and
dots. -/
theorem no_dots_of_trivial_pieces {l : List Char}
    (h : ∀ seg ∈ l.splitOn '/', seg = [] ∨ seg = ['.']) :
    ¬ ['.', '.'] <:+: l ∧ ∀ c ∈ l, c = '/' ∨ c = '.' := by
  induction l with
  | nil => simp
  | cons c l ih =>
    rw [List.splitOn_cons_eq_if_modifyHead] at h
    obtain ⟨seg, segs, hsegs⟩ := List.exists_cons_of_ne_nil (List.splitOn_ne_nil '/' l)
    by_cases hc : c = '/'
    · subst hc
      obtain ⟨hdots, hchars⟩ := ih fun s hs => h s (by simp [hs])
      refine ⟨?_, by simpa using hchars⟩
      rw [List.infix_cons_iff]
      rintro (hpre | hin)
      · simp [List.cons_prefix_cons] at hpre
      · exact hdots hin
    · -- the first piece is `c` alone, so `c` is a dot and a slash or nothing follows
      have hfirst : c :: seg = [] ∨ c :: seg = ['.'] := h _ (by simp [hc, hsegs])
      obtain ⟨rfl, rfl⟩ : c = '.' ∧ seg = [] := by simpa using hfirst
      obtain ⟨hdots, hchars⟩ := ih fun s hs => by
        rw [hsegs] at hs
        rcases List.mem_cons.mp hs with rfl | hs
        · exact .inl rfl
        · exact h s (by simp [hsegs, hs])
      refine ⟨?_, by simpa using hchars⟩
      rw [List.infix_cons_iff]
      rintro (hpre | hin)
      · obtain ⟨t, ht⟩ := (List.cons_prefix_cons.mp hpre).2
        rw [← ht, List.singleton_append, List.splitOn_cons_eq_if_modifyHead] at hsegs
        obtain ⟨x, xs, hx⟩ := List.exists_cons_of_ne_nil (List.splitOn_ne_nil '/' t)
        simp [hx] at hsegs
      · exact hdots hin

/-- A path without components is made of slashes and single dots. -/
theorem no_dots_of_components_nil {p : String} (h : components p = []) :
    contains p ".." = false ∧ ∀ c ∈ p.toList, c = '/' ∨ c = '.' := by
  have hpieces : ∀ seg ∈ p.toList.splitOn '/', seg = [] ∨ seg = ['.'] := by
    intro seg hseg
    have hmem : String.ofList seg ∈ splitChar '/' p := List.mem_map_of_mem hseg
    have htriv := List.filter_eq_nil_iff.mp h _ hmem
    have htrue : isTrivial (String.ofList seg) = true := by simpa using htriv
    simpa using isTrivial_iff.mp htrue
  obtain ⟨hdots, hchars⟩ := no_dots_of_trivial_pieces hpieces
  exact ⟨by simpa [Bool.eq_false_iff, contains_iff] using hdots, hchars⟩

/-- The name of an entry is one component. -/
theorem components_fileName (n : FileName) : components n.1 = [n.1] := by
  rw [components_of_not_mem n.not_mem_slash, n.not_trivial]
  rfl

/-! ## Plain paths -/

/-- A path without `..`, to which file names can be joined. -/
structure PlainPath (path : String) : Prop where
  ne_empty : path ≠ ""
  no_slash : path.toList.getLast? ≠ some '/'
  plain : ∀ c ∈ splitChar '/' path, isTrivial c = true ∨ isFileName c = true

/-- Joining a file name adds one component and gives such a path again. -/
theorem PlainPath.join {path : String} (h : PlainPath path) (n : FileName) :
    PlainPath (pathJoin path n.1) ∧ components (pathJoin path n.1) = components path ++ [n.1] := by
  rw [pathJoin_fileName n h.ne_empty h.no_slash]
  refine ⟨⟨by simp, n.getLast?_append _, ?_⟩, ?_⟩
  · have hsplit : splitChar '/' (path ++ "/" ++ n.1) = splitChar '/' path ++ [n.1] := by
      rw [splitChar_append_cons (s := path) (t := n.1) (by simp),
        splitChar_of_not_mem n.not_mem_slash]
    intro c hc
    rw [hsplit, List.mem_append, List.mem_singleton] at hc
    rcases hc with hc | rfl
    · exact h.plain c hc
    · exact .inr n.2
  · rw [components_append_slash, components_fileName]

/-- A trivial part has no slash in it. -/
theorem not_mem_slash_of_trivial {c : String} (h : isTrivial c = true) : '/' ∉ c.toList := by
  rcases isTrivial_iff.mp h with hc | hc <;> simp [hc]

/-- Joining the empty string or a dot adds no component. -/
theorem PlainPath.join_trivial {path c : String} (h : PlainPath path) (hc : isTrivial c = true) :
    (∀ d ∈ splitChar '/' (pathJoin path c), isTrivial d = true ∨ isFileName d = true) ∧
      components (pathJoin path c) = components path := by
  have hslash := not_mem_slash_of_trivial hc
  rw [pathJoin_relative (startsWith_slash_of_not_mem hslash) h.ne_empty h.no_slash]
  constructor
  · intro d hd
    rw [splitChar_append_cons (s := path) (t := c) (by simp), splitChar_of_not_mem hslash,
      List.mem_append, List.mem_singleton] at hd
    rcases hd with hd | rfl
    · exact h.plain d hd
    · exact .inl hc
  · rw [components_append_slash, components_of_not_mem hslash, if_pos hc, List.append_nil]

/-! ## Suffixes -/

/-- More than dots, and no slash: what it is appended to ends in a name. -/
def isNameSuffix (sfx : String) : Bool :=
  !containsChar sfx '/' && sfx.toList.any fun c => c != '.'

/-- Nor has a suffix of a name. -/
theorem not_mem_slash_of_isNameSuffix {sfx : String} (h : isNameSuffix sfx = true) :
    '/' ∉ sfx.toList := by
  simp only [isNameSuffix, Bool.and_eq_true, Bool.not_eq_true', containsChar] at h
  simpa using h.1

/-- A name with such a suffix is neither `.` nor `..`. -/
theorem isNameSuffix_append {sfx : String} (h : isNameSuffix sfx = true) (last : String) :
    isTrivial (last ++ sfx) = false ∧ last ++ sfx ≠ ".." := by
  simp only [isNameSuffix, Bool.and_eq_true, List.any_eq_true, bne_iff_ne] at h
  obtain ⟨-, c, hc, hdot⟩ := h
  have hmem : c ∈ (last ++ sfx).toList := by simp [hc]
  constructor
  · rw [Bool.eq_false_iff, ne_eq, isTrivial_iff]
    rintro (hnil | hone)
    · simp [hnil] at hmem
    · simp [hone, hdot] at hmem
  · intro heq
    rw [heq] at hmem
    simp [hdot] at hmem

end Rust
