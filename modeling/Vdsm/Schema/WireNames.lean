import Vdsm.Schema.Lossless

/-!
# Identifiers and wire names

What the compiler and serde make of the emitted members: the identifiers are different and lexically
sound, and the name on the wire, read from the `rename` attribute if there is one, is the YAML name
unless that name has a carriage return. The generator writes a name into the attribute unescaped, and
the compiler keeps no carriage return of a string literal.
-/

namespace Vdsm.Schema

open Rust FirstSeen

/-! ## Lexical form -/

/-- `c.is_ascii_alphabetic()`. -/
def isLetter (c : Char) : Bool := ('A' ≤ c && c ≤ 'Z') || ('a' ≤ c && c ≤ 'z')

/-- A letter followed by letters, digits or underscores. -/
def IsIdent (s : String) : Prop :=
  ∃ c cs, s.toList = c :: cs ∧ isLetter c ∧ ∀ d ∈ cs, IdentChar d

/-- An identifier of a field: one that may be raw. -/
def IsFieldIdent (s : String) : Prop := IsIdent s ∨ ∃ bare, s = "r#" ++ bare ∧ IsIdent bare

/-- An identifier character that is no digit and no underscore is a letter. -/
theorem isLetter_of_identChar {c : Char} (h : IdentChar c) (hdigit : c.isDigit = false)
    (hunderscore : c ≠ '_') : isLetter c := by
  obtain h | h := h
  · have hno : ('0' ≤ c && c ≤ '9') = false := hdigit
    rw [isAsciiAlphanumeric, hno, Bool.false_or] at h
    exact h
  · exact absurd h hunderscore

/-- Identifier characters behind an identifier leave one. -/
theorem IsIdent.append {s t : String} (hs : IsIdent s) (ht : ∀ d ∈ t.toList, IdentChar d) :
    IsIdent (s ++ t) := by
  obtain ⟨c, cs, hlist, hc, hcs⟩ := hs
  refine ⟨c, cs ++ t.toList, by rw [String.toList_append, hlist, List.cons_append], hc, ?_⟩
  intro d hd
  obtain hd | hd := List.mem_append.mp hd
  · exact hcs d hd
  · exact ht d hd

/-- A name of identifier characters that starts with no digit and no underscore, or gets a letter in
front of its digit. -/
theorem isIdent_of_head {c : Char} {cs : List Char} (h : ∀ d ∈ c :: cs, IdentChar d)
    (hunderscore : c ≠ '_') {front : String} (hfront : IsIdent front) :
    IsIdent (if c.isDigit then front ++ String.ofList (c :: cs) else String.ofList (c :: cs)) := by
  split
  · exact hfront.append (by simpa using h)
  · rename_i hdigit
    refine ⟨c, cs, String.toList_ofList, ?_, fun d hd => h d (List.mem_cons_of_mem _ hd)⟩
    exact isLetter_of_identChar (h c List.mem_cons_self) (by simpa using hdigit) hunderscore

/-- No underscore is left in front. -/
theorem trimUnderscores_head {out : List Char} {c : Char} {cs : List Char}
    (h : trimUnderscores out = c :: cs) : c ≠ '_' := by
  have hhead := List.head?_dropWhile_not (· == '_') (out.reverse.dropWhile (· == '_')).reverse
  rw [trimUnderscores] at h
  rw [h] at hhead
  simpa using hhead

/-- `snake` makes an identifier of any text. -/
theorem snake_isIdent (s : String) : IsIdent (snake s) := by
  have hchars := snake_identChar s
  cases htrim : trimUnderscores (s.toList.foldl snakeStep ([], false)).1 with
  | nil =>
    rw [snake, htrim]
    exact ⟨'f', ['i', 'e', 'l', 'd'], rfl, by decide, by simp [IdentChar, isAsciiAlphanumeric]⟩
  | cons c cs =>
    have hsnake : snake s =
        if c.isDigit then "f_" ++ String.ofList (c :: cs) else String.ofList (c :: cs) := by
      rw [snake, htrim]
    have hall : ∀ d ∈ c :: cs, IdentChar d := by
      intro d hd
      rw [hsnake] at hchars
      refine hchars d ?_
      split
      · rw [String.toList_append, List.mem_append]
        exact .inr (by rwa [String.toList_ofList])
      · rwa [String.toList_ofList]
    rw [hsnake]
    exact isIdent_of_head hall (trimUnderscores_head htrim)
      ⟨'f', ['_'], rfl, by decide, by simp [IdentChar]⟩

/-- Letters and digits are ASCII. -/
theorem toNat_le_of_isAsciiAlphanumeric {c : Char} (h : isAsciiAlphanumeric c) : c.toNat < 128 := by
  simp only [isAsciiAlphanumeric, Bool.or_eq_true, Bool.and_eq_true, decide_eq_true_eq] at h
  have hle : ∀ d : Char, c ≤ d → c.toNat ≤ d.toNat := fun d hd => UInt32.le_iff_toNat_le.mp hd
  obtain (⟨-, h⟩ | ⟨-, h⟩) | ⟨-, h⟩ := h
  · exact Nat.lt_of_le_of_lt (hle _ h) (by decide)
  · exact Nat.lt_of_le_of_lt (hle _ h) (by decide)
  · exact Nat.lt_of_le_of_lt (hle _ h) (by decide)

/-- The upper case of a letter or digit is one. -/
theorem isAsciiAlphanumeric_toUpper {c : Char} (h : isAsciiAlphanumeric c) :
    isAsciiAlphanumeric c.toUpper := by
  have hascii : ∀ n < 128, isAsciiAlphanumeric (Char.ofNat n) →
      isAsciiAlphanumeric (Char.ofNat n).toUpper := by decide +kernel
  have hc := hascii c.toNat (toNat_le_of_isAsciiAlphanumeric h)
  rw [Char.ofNat_toNat] at hc
  exact hc h

/-- The loop of `pascal` keeps letters and digits only. -/
theorem pascalChars_alphanumeric {l : List Char} {up : Bool} :
    ∀ c ∈ pascalChars up l, isAsciiAlphanumeric c := by
  induction l generalizing up with
  | nil => simp [pascalChars]
  | cons a l ih =>
    intro c hc
    rw [pascalChars] at hc
    split at hc
    · rename_i ha
      obtain rfl | hc := List.mem_cons.mp hc
      · cases up with
        | true => exact isAsciiAlphanumeric_toUpper ha
        | false => exact ha
      · exact ih c hc
    · exact ih c hc

/-- `pascal` makes an identifier of any text. -/
theorem pascal_isIdent (s : String) : IsIdent (pascal s) := by
  have hchars : ∀ c ∈ pascalChars true s.toList, isAsciiAlphanumeric c := pascalChars_alphanumeric
  rw [pascal]
  split
  · exact ⟨'U', ['n', 'n', 'a', 'm', 'e', 'd'], rfl, by decide,
      by simp [IdentChar, isAsciiAlphanumeric]⟩
  · rename_i c cs heq
    rw [heq] at hchars
    refine isIdent_of_head (fun d hd => .inl (hchars d hd)) ?_
      ⟨'V', [], rfl, by decide, by simp⟩
    rintro rfl
    exact absurd (hchars '_' List.mem_cons_self) (by decide)

/-- A keyword gets the raw prefix, anything else is an identifier as it is. -/
theorem rustFieldIdent_isFieldIdent (name : String) : IsFieldIdent (rustFieldIdent name).1 := by
  simp only [rustFieldIdent]
  split
  · exact .inr ⟨snake name, rfl, snake_isIdent name⟩
  · exact .inl (snake_isIdent name)

/-- A reserved variant name gets an underscore behind it. -/
theorem rustVariantIdent_isIdent (key : String) : IsIdent (rustVariantIdent key).1 := by
  simp only [rustVariantIdent]
  split
  · exact (pascal_isIdent key).append (by simp [IdentChar])
  · exact pascal_isIdent key

/-! ## The attribute -/

/-- The line of a `rename` attribute. -/
def renameAttribute (name : String) : String := "#[serde(rename = \"" ++ name ++ "\")]"

/-- What the compiler makes of line ends when it loads a source file. -/
def normalizeNewlines : List Char → List Char
  | [] => []
  | [c] => [c]
  | c :: d :: cs =>
    if c = '\r' ∧ d = '\n' then '\n' :: normalizeNewlines cs else c :: normalizeNewlines (d :: cs)

/-- The contents of a string literal, behind its opening quote: up to the closing one, where nothing
is escaped. -/
def literalChars : List Char → Option (List Char)
  | [] => none
  | c :: cs =>
    if c = '"' then some []
    -- no escapes here, and a carriage return of its own is an error
    else if c = '\\' ∨ c = '\r' then none
    else (literalChars cs).map (c :: ·)

/-- The name that serde finds in an attribute line. -/
def readRename (line : String) : Option String :=
  (stripPrefix line "#[serde(rename = \"").bind fun rest =>
    (literalChars (normalizeNewlines rest.toList)).map String.ofList

/-- A name that a string literal may hold as it is, but for line ends. -/
def IsPlainName (name : String) : Prop := '"' ∉ name.toList ∧ '\\' ∉ name.toList

/-- Without a carriage return there is nothing to normalize. -/
theorem normalizeNewlines_of_not_mem {l : List Char} (h : '\r' ∉ l) : normalizeNewlines l = l := by
  induction l using normalizeNewlines.induct with
  | case1 => rfl
  | case2 c => rfl
  | case3 c d cs heq ih =>
    rw [heq.1] at h
    exact absurd List.mem_cons_self h
  | case4 c d cs hne ih =>
    rw [normalizeNewlines, if_neg hne, ih fun hmem => h (List.mem_cons_of_mem _ hmem)]

/-- The contents of a literal are the characters in front of its closing quote. -/
theorem literalChars_append {l : List Char} (hquote : '"' ∉ l) (hbackslash : '\\' ∉ l)
    (hreturn : '\r' ∉ l) (rest : List Char) : literalChars (l ++ '"' :: rest) = some l := by
  induction l with
  | nil => rfl
  | cons c l ih =>
    rw [List.mem_cons, not_or] at hquote hbackslash hreturn
    rw [List.cons_append, literalChars, if_neg (Ne.symm hquote.1),
      if_neg (not_or.mpr ⟨Ne.symm hbackslash.1, Ne.symm hreturn.1⟩),
      ih hquote.2 hbackslash.2 hreturn.2, Option.map_some]

/-- No literal has a carriage return in it. -/
theorem literalChars_no_return {l out : List Char} (h : literalChars l = some out) : '\r' ∉ out := by
  induction l generalizing out with
  | nil => cases h
  | cons c l ih =>
    rw [literalChars] at h
    split at h
    · cases h
      exact List.not_mem_nil
    · split at h
      · cases h
      · rename_i hplain
        obtain ⟨inner, hinner, rfl⟩ := Option.map_eq_some_iff.mp h
        rw [List.mem_cons, not_or]
        exact ⟨fun hc => hplain (.inr hc.symm), ih hinner⟩

/-- The attribute gives a name without carriage return back. -/
theorem readRename_renameAttribute {name : String} (h : IsPlainName name)
    (hreturn : '\r' ∉ name.toList) : readRename (renameAttribute name) = some name := by
  have hline : renameAttribute name = "#[serde(rename = \"" ++ (name ++ "\")]") :=
    String.append_assoc
  have hrest : (name ++ "\")]").toList = name.toList ++ '"' :: [')', ']'] := by
    rw [String.toList_append]
    rfl
  have hnone : '\r' ∉ name.toList ++ '"' :: [')', ']'] := by
    rw [List.mem_append, not_or]
    exact ⟨hreturn, by decide⟩
  rw [readRename, hline, stripPrefix_append, Option.bind_some, hrest,
    normalizeNewlines_of_not_mem hnone, literalChars_append h.1 h.2 hreturn, Option.map_some,
    String.ofList_toList]

/-- No attribute gives a name with a carriage return. -/
theorem readRename_no_return {line name : String} (h : readRename line = some name) :
    '\r' ∉ name.toList := by
  obtain ⟨rest, -, hrest⟩ := Option.bind_eq_some_iff.mp h
  obtain ⟨chars, hchars, rfl⟩ := Option.map_eq_some_iff.mp hrest
  rw [String.toList_ofList]
  exact literalChars_no_return hchars

/-! ## Members -/

/-- The name on the wire: that of the attribute, if there is one, and else the bare identifier. -/
def serdeNameOf (ident : String) (rename : Option String) : Option String :=
  match rename with
  | some name => readRename (renameAttribute name)
  | none => some (bareIdent ident)

def Field.serdeName (f : Field) : Option String := serdeNameOf f.ident f.rename

def Variant.serdeName (v : Variant) : Option String := serdeNameOf v.ident v.rename

/-- An identifier that is not raw is bare. -/
theorem bareIdent_of_isIdent {s : String} (h : IsIdent s) : bareIdent s = s := by
  obtain ⟨c, cs, hlist, hc, hcs⟩ := h
  have hno : ¬ IdentChar '#' := by
    rintro (h | h) <;> revert h <;> decide
  have hhash : '#' ∉ s.toList := by
    rw [hlist, List.mem_cons]
    rintro (rfl | hmem)
    · exact absurd hc (by decide)
    · exact hno (hcs '#' hmem)
  rw [bareIdent, trimRawChars_of_not_mem hhash, String.ofList_toList]

/-- An identifier has no carriage return. -/
theorem IsIdent.no_return {s : String} (h : IsIdent s) : '\r' ∉ s.toList := by
  obtain ⟨c, cs, hlist, hc, hcs⟩ := h
  have hno : ¬ IdentChar '\r' := by
    rintro (h | h) <;> revert h <;> decide
  rw [hlist, List.mem_cons]
  rintro (rfl | hmem)
  · exact absurd hc (by decide)
  · exact hno (hcs '\r' hmem)

/-- A member that is meant to have `name` on the wire, has it there exactly if no carriage return is
in it. -/
theorem serdeNameOf_eq_iff {ident name : String} {rename : Option String}
    (hwire : rename.getD (bareIdent ident) = name) (hident : IsIdent (bareIdent ident))
    (h : IsPlainName name) :
    serdeNameOf ident rename = some name ↔ '\r' ∉ name.toList := by
  cases rename with
  | none =>
    rw [Option.getD_none] at hwire
    rw [serdeNameOf, hwire]
    exact iff_of_true rfl (hwire ▸ hident.no_return)
  | some written =>
    rw [Option.getD_some] at hwire
    rw [serdeNameOf, hwire]
    exact ⟨readRename_no_return, readRename_renameAttribute h⟩

/-- The field of a property has the property's name on the wire, or there is a carriage return in it. -/
theorem serdeName_emitField_iff {p : PropDef} (h : IsPlainName p.yamlName) :
    (emitField p).serdeName = some p.yamlName ↔ '\r' ∉ p.yamlName.toList := by
  refine serdeNameOf_eq_iff (wireName_emitField p) ?_ h
  have hbare : bareIdent (emitField p).ident = snake p.yamlName := bareIdent_rustFieldIdent p.yamlName
  rw [hbare]
  exact snake_isIdent p.yamlName

/-- So does the variant of an enum value. -/
theorem serdeName_emitVariant_iff {v : String × String} (h : IsPlainName v.1) :
    (emitVariant v).serdeName = some v.1 ↔ '\r' ∉ v.1.toList := by
  have hident : IsIdent (emitVariant v).ident := rustVariantIdent_isIdent v.1
  have hbare : bareIdent (emitVariant v).ident = (emitVariant v).ident := bareIdent_of_isIdent hident
  have hwire := wireName_emitVariant v
  rw [Variant.wireName, ← hbare] at hwire
  exact serdeNameOf_eq_iff hwire (by rwa [hbare]) h

/-- The fields have different identifiers of the right form, and each has the name of its property on
the wire. -/
structure FieldsKeepNames (props : List PropDef) (fields : List Field) : Prop where
  distinct : (fields.map Field.ident).Nodup
  form : ∀ f ∈ fields, IsFieldIdent f.ident
  names : ∀ f ∈ fields, ∃ p ∈ props, f = emitField p ∧ f.serdeName = some p.yamlName

structure VariantsKeepNames (values : List (String × String)) (variants : List Variant) : Prop where
  distinct : (variants.map Variant.ident).Nodup
  form : ∀ v ∈ variants, IsIdent v.ident
  names : ∀ v ∈ variants, ∃ e ∈ values, v = emitVariant e ∧ v.serdeName = some e.1

/-- The properties that get a field: the first of each bare identifier. -/
def emittedProps (props : List PropDef) : List PropDef :=
  keepNew (fun p => bareIdent (rustFieldIdent p.yamlName).1) [] props

/-- The values that get a variant: the first of each identifier. -/
def emittedValues (values : List (String × String)) : List (String × String) :=
  keepNew (fun e => (rustVariantIdent e.1).1) [] values

/-- Members that are each made of a source element keep the names of theirs exactly if no kept name
has a carriage return. -/
theorem names_map_iff {α β : Type} {source kept : List α} (emit : α → β) (name : α → String)
    (wire serde : β → Option String) (hsub : ∀ a ∈ kept, a ∈ source)
    (hwire : ∀ a, wire (emit a) = some (name a))
    (hserde : ∀ a ∈ source, serde (emit a) = some (name a) ↔ '\r' ∉ (name a).toList) :
    (∀ b ∈ kept.map emit, ∃ a ∈ source, b = emit a ∧ serde b = some (name a)) ↔
      ∀ a ∈ kept, '\r' ∉ (name a).toList := by
  constructor
  · intro h a ha
    obtain ⟨a', ha', heq, hname⟩ := h (emit a) (List.mem_map_of_mem ha)
    -- one member has one wire name, so the two source elements have the same
    have hsame : some (name a) = some (name a') := by rw [← hwire a, heq, hwire a']
    rw [Option.some.inj hsame]
    rw [heq] at hname
    exact (hserde a' ha').mp hname
  · intro h b hb
    obtain ⟨a, ha, rfl⟩ := List.mem_map.mp hb
    exact ⟨a, hsub a ha, rfl, (hserde a (hsub a ha)).mpr (h a ha)⟩

/-- When the fields of a struct keep their names. -/
theorem fieldsKeepNames_emitFields_iff {props : List PropDef}
    (h : ∀ p ∈ props, IsPlainName p.yamlName) :
    FieldsKeepNames props (emitFields props) ↔
      ∀ p ∈ emittedProps props, '\r' ∉ p.yamlName.toList := by
  have hsub : ∀ p ∈ emittedProps props, p ∈ props := fun p hp =>
    (keepNew_sublist _ _ _).subset hp
  have hnames := names_map_iff emitField PropDef.yamlName (fun f => some f.wireName)
    Field.serdeName hsub (fun p => by rw [wireName_emitField])
    fun p hp => serdeName_emitField_iff (h p hp)
  refine ⟨fun hkeep => hnames.mp hkeep.names,
    fun hfree => ⟨nodup_emitFields props, ?_, hnames.mpr hfree⟩⟩
  intro f hf
  obtain ⟨p, -, rfl⟩ := List.mem_map.mp hf
  exact rustFieldIdent_isFieldIdent p.yamlName

/-- When the variants of an enum keep theirs. -/
theorem variantsKeepNames_emitVariants_iff {values : List (String × String)}
    (h : ∀ e ∈ values, IsPlainName e.1) :
    VariantsKeepNames values (emitVariants values) ↔
      ∀ e ∈ emittedValues values, '\r' ∉ e.1.toList := by
  have hsub : ∀ e ∈ emittedValues values, e ∈ values := fun e he =>
    (keepNew_sublist _ _ _).subset he
  have hnames := names_map_iff emitVariant Prod.fst (fun v => some v.wireName)
    Variant.serdeName hsub (fun e => by rw [wireName_emitVariant])
    fun e he => serdeName_emitVariant_iff (h e he)
  refine ⟨fun hkeep => hnames.mp hkeep.names, fun hfree => ⟨?_, ?_, hnames.mpr hfree⟩⟩
  · rw [emitVariants, List.map_map]
    exact nodup_keepNew _ _
  · intro v hv
    obtain ⟨e, -, rfl⟩ := List.mem_map.mp hv
    exact rustVariantIdent_isIdent e.1

/-- When emitted members keep their wire names. For every list of properties and every list of enum
values, with names without quote and backslash, the struct that `emit_type` makes for an object and
`emit_verb_request_structs` for a request, and the enum that `emit_type` makes for the values, have
members with different identifiers of the right form, each under its YAML name on the wire, if and
only if no name that gets a member has a carriage return. -/
theorem members_keep_wire_names (props : List PropDef) (values : List (String × String))
    (hprops : ∀ p ∈ props, IsPlainName p.yamlName) (hvalues : ∀ e ∈ values, IsPlainName e.1) :
    ∃ fields variants,
      (∀ t : TypeDef, t.kind = .object props → (emitType t).body = .struct fields) ∧
      (∀ v : VerbDef, v.params = props → (emitVerbItems v).request.body = .struct fields) ∧
      (∀ t : TypeDef, t.kind = .enum values → (emitType t).body = .enum variants) ∧
      (FieldsKeepNames props fields ↔ ∀ p ∈ emittedProps props, '\r' ∉ p.yamlName.toList) ∧
      (VariantsKeepNames values variants ↔ ∀ e ∈ emittedValues values, '\r' ∉ e.1.toList) := by
  refine ⟨emitFields props, emitVariants values, ?_, ?_, ?_, fieldsKeepNames_emitFields_iff hprops,
    variantsKeepNames_emitVariants_iff hvalues⟩
  · intro t ht
    rw [emitType, ht]
    rfl
  · rintro v rfl
    rfl
  · intro t ht
    rw [emitType, ht]
    rfl

def keywordProps : List PropDef := [⟨"type", "String", none⟩, ⟨"vmID", "String", none⟩]

def keywordValues : List (String × String) := [("self", ""), ("7.4", "")]

/-- A keyword, a name in camel case, a reserved variant and one with a digit in front. -/
theorem members_keep_wire_names_keywords :
    ∃ fields variants, emitBody (.object keywordProps) = .struct fields ∧
      emitBody (.enum keywordValues) = .enum variants ∧
      FieldsKeepNames keywordProps fields ∧ VariantsKeepNames keywordValues variants := by
  have hprops : ∀ p ∈ keywordProps, IsPlainName p.yamlName := by
    simp [keywordProps, IsPlainName]
  have hvalues : ∀ e ∈ keywordValues, IsPlainName e.1 := by
    simp [keywordValues, IsPlainName]
  have hpropsReturn : ∀ p ∈ keywordProps, '\r' ∉ p.yamlName.toList := by
    simp [keywordProps]
  have hvaluesReturn : ∀ e ∈ keywordValues, '\r' ∉ e.1.toList := by
    simp [keywordValues]
  obtain ⟨fields, variants, hstruct, -, henum, hfields, hvariants⟩ :=
    members_keep_wire_names keywordProps keywordValues hprops hvalues
  exact ⟨fields, variants, hstruct ⟨"", .object keywordProps, none, none⟩ rfl,
    henum ⟨"", .enum keywordValues, none, none⟩ rfl,
    hfields.mpr fun p hp => hpropsReturn p ((keepNew_sublist _ _ _).subset hp),
    hvariants.mpr fun e he => hvaluesReturn e ((keepNew_sublist _ _ _).subset he)⟩

/-- A name with a line end of two characters in it, as a double-quoted YAML key may have. -/
def crlfValue : String × String := ("a\r\nb", "")

/-- The compiler turns it into a line feed, so the variant has another name on the wire. -/
theorem crlf_value_renamed :
    IsPlainName crlfValue.1 ∧
      ∃ v, emitBody (.enum [crlfValue]) = .enum [v] ∧ v.rename = some crlfValue.1 ∧
        v.serdeName = some "a\nb" ∧ ¬ VariantsKeepNames [crlfValue] [v] := by
  have hserde : (emitVariant crlfValue).serdeName = some "a\nb" := by decide
  refine ⟨by simp [IsPlainName, crlfValue], emitVariant crlfValue, rfl, by decide, hserde, ?_⟩
  intro hkeep
  obtain ⟨e, he, -, hname⟩ := hkeep.names _ List.mem_cons_self
  obtain rfl := List.mem_singleton.mp he
  rw [hserde] at hname
  exact absurd hname (by decide)

end Vdsm.Schema
