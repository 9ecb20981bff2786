import Vdsm.Schema.Codegen

/-!
# What the code generator drops

Names pass through `snake` or `pascal`, which map different YAML names to one identifier, and of the
members with one identifier only the first is emitted. `Lossless` says that nothing is dropped;
`codegen_lossless` that this is so exactly for the documents with `NamesDistinct`.
-/

namespace Vdsm.Schema

open Rust FirstSeen

/-! ## Identifiers -/

/-- The characters `snake` writes. -/
def IdentChar (c : Char) : Prop := isAsciiAlphanumeric c ∨ c = '_'

/-- A letter of an identifier stays one in lower case. -/
theorem identChar_toLower {c : Char} (h : c.isUpper) : IdentChar c.toLower := by
  have hval : 'A'.val ≤ c.val ∧ c.val ≤ 'Z'.val := of_decide_eq_true h
  have hlower : c.toLower.val = c.val + 32 := congrArg Char.val (dif_pos hval)
  have hlo : 65 ≤ c.val.toNat := UInt32.le_iff_toNat_le.mp hval.1
  have hhi : c.val.toNat ≤ 90 := UInt32.le_iff_toNat_le.mp hval.2
  have hsum : c.toLower.val.toNat = c.val.toNat + 32 := by
    have h32 : (32 : UInt32).toNat = 32 := rfl
    rw [hlower, UInt32.toNat_add, h32]
    exact Nat.mod_eq_of_lt (by omega)
  have hletter : 'a' ≤ c.toLower ∧ c.toLower ≤ 'z' := by
    constructor
    · exact UInt32.le_iff_toNat_le.mpr (by rw [hsum]; exact Nat.add_le_add_right hlo 32)
    · exact UInt32.le_iff_toNat_le.mpr (by rw [hsum]; exact Nat.add_le_add_right hhi 32)
  left
  simp [isAsciiAlphanumeric, hletter]

theorem identChar_underscore : IdentChar '_' := .inr rfl

/-- One step of the conversion adds only what may stand in an identifier. -/
theorem snakeStep_identChar {st : List Char × Bool} (h : ∀ c ∈ st.1, IdentChar c) (c : Char) :
    ∀ d ∈ (snakeStep st c).1, IdentChar d := by
  have happend : ∀ {l : List Char} {e : Char}, (∀ d ∈ l, IdentChar d) → IdentChar e →
      ∀ d ∈ l ++ [e], IdentChar d := by
    intro l e hl he d hd
    rcases List.mem_append.mp hd with hd | hd
    · exact hl d hd
    · rwa [List.mem_singleton.mp hd]
  have hbreak : ∀ b : Bool, ∀ d ∈ (if b then st.1 ++ ['_'] else st.1), IdentChar d := by
    intro b
    cases b with
    | false => exact h
    | true => exact happend h identChar_underscore
  rw [snakeStep]
  split
  · rename_i hupper
    exact happend (hbreak _) (identChar_toLower hupper)
  · split
    · rename_i halnum
      exact happend h (.inl halnum)
    · exact hbreak _

/-- So the snake-case name has nothing else. -/
theorem snake_identChar (s : String) : ∀ c ∈ (snake s).toList, IdentChar c := by
  have hfold : ∀ (l : List Char) (st : List Char × Bool), (∀ c ∈ st.1, IdentChar c) →
      ∀ c ∈ (l.foldl snakeStep st).1, IdentChar c := by
    intro l
    induction l with
    | nil => exact fun st h => h
    | cons a l ih => exact fun st h => ih _ (snakeStep_identChar h a)
  have htrim : ∀ c ∈ trimUnderscores (s.toList.foldl snakeStep ([], false)).1, IdentChar c := by
    intro c hc
    have hmem := (List.dropWhile_sublist _).subset hc
    have hout := List.mem_reverse.mp ((List.dropWhile_sublist _).subset (List.mem_reverse.mp hmem))
    exact hfold s.toList ([], false) (fun d hd => absurd hd List.not_mem_nil) c hout
  rw [snake]
  split
  · have hfield : ∀ c ∈ "field".toList, isAsciiAlphanumeric c := by simp [isAsciiAlphanumeric]
    exact fun c hc => .inl (hfield c hc)
  · rename_i c cs heq
    rw [heq] at htrim
    split
    · intro d hd
      rw [String.toList_append, List.mem_append] at hd
      rcases hd with hd | hd
      · have hf : d = 'f' ∨ d = '_' := by simpa using hd
        rcases hf with rfl | rfl
        · exact .inl rfl
        · exact identChar_underscore
      · exact htrim d (by simpa using hd)
    · rwa [String.toList_ofList]

/-- It is no raw identifier. -/
theorem hash_not_mem_snake (s : String) : '#' ∉ (snake s).toList := by
  intro h
  rcases snake_identChar s '#' h with h | h <;> revert h <;> decide

/-- Nothing is trimmed from a name that is not raw. -/
theorem trimRawChars_of_not_mem {l : List Char} (h : '#' ∉ l) : trimRawChars l = l := by
  rw [trimRawChars]
  rintro cs rfl
  simp at h

/-- Without its `r#`, a field's identifier is the snake-cased name. -/
theorem bareIdent_rustFieldIdent (name : String) : bareIdent (rustFieldIdent name).1 = snake name := by
  have htrim := trimRawChars_of_not_mem (hash_not_mem_snake name)
  simp only [rustFieldIdent, bareIdent]
  split
  · have hraw : "r#".toList = ['r', '#'] := rfl
    rw [String.toList_append, hraw, List.cons_append, List.cons_append, List.nil_append, trimRawChars,
      htrim, String.ofList_toList]
  · rw [htrim, String.ofList_toList]

/-- The wire name of a field is its name in the schema, renamed or not. -/
theorem wireName_emitField (p : PropDef) : (emitField p).wireName = p.yamlName := by
  rw [Field.wireName]
  by_cases hname : snake p.yamlName = p.yamlName
  · have hrename : (emitField p).rename = none := by simp [emitField, rustFieldIdent, hname]
    have hident : (emitField p).ident = (rustFieldIdent p.yamlName).1 := rfl
    rw [hrename, hident, bareIdent_rustFieldIdent]
    exact hname
  · have hrename : (emitField p).rename = some p.yamlName := by
      simp [emitField, rustFieldIdent, hname]
    rw [hrename, Option.getD_some]

/-- And that of a variant its value. -/
theorem wireName_emitVariant (v : String × String) : (emitVariant v).wireName = v.1 := by
  rw [Variant.wireName]
  by_cases hname : (rustVariantIdent v.1).1 = v.1
  · have hrename : (emitVariant v).rename = none := by
      simp only [rustVariantIdent] at hname
      simp [emitVariant, rustVariantIdent, hname]
    rw [hrename]
    exact hname
  · have hrename : (emitVariant v).rename = some v.1 := by
      simp only [rustVariantIdent] at hname
      simp [emitVariant, rustVariantIdent, hname]
    rw [hrename, Option.getD_some]

/-! ## Members -/

/-- The field for a property, under its name and with its type. -/
def KeepsProperty (node : Yaml) (f : Field) : Prop :=
  yamlStr node "name" = some f.wireName ∧ (yamlGet node "type").map resolveType = some f.rustType

/-- Each property has its own field. -/
def KeepsProperties (props : List Yaml) (fields : List Field) : Prop :=
  List.Forall₂ KeepsProperty props fields ∧ (fields.map Field.ident).Nodup

/-- Each enum value has its own variant, under its name. -/
def KeepsValues (values : List (Yaml × Yaml)) (variants : List Variant) : Prop :=
  List.Forall₂ (fun e v => enumKey e.1 = some v.wireName) values variants ∧
    (variants.map Variant.ident).Nodup

/-- Properties with a name and a type, and with different identifiers. -/
def PropertiesDistinct (props : List Yaml) : Prop :=
  (∀ p ∈ props, (yamlStr p "name").isSome ∧ (yamlGet p "type").isSome) ∧
    (props.filterMap fun p => (yamlStr p "name").map snake).Nodup

/-- Enum values with a text, and with different identifiers. -/
def ValuesDistinct (values : List (Yaml × Yaml)) : Prop :=
  (∀ e ∈ values, (enumKey e.1).isSome) ∧
    (values.filterMap fun e => (enumKey e.1).map fun k => (rustVariantIdent k).1).Nodup

/-- A property needs a name that is text, and a type. -/
theorem parseProperty_eq (node : Yaml) :
    parseProperty node = (yamlStr node "name").bind fun name =>
      (yamlGet node "type").map fun t =>
        ⟨name, resolveType t, (yamlStr node "description").map escDoc⟩ := by
  rw [parseProperty]
  cases yamlStr node "name" <;> cases yamlGet node "type" <;> rfl

/-- No other one is read. -/
theorem parseProperty_isSome (node : Yaml) :
    (parseProperty node).isSome ↔ (yamlStr node "name").isSome ∧ (yamlGet node "type").isSome := by
  rw [parseProperty_eq]
  cases yamlStr node "name" <;> cases yamlGet node "type" <;> simp

/-- What is read of a property is kept by the field emitted for it. -/
theorem keepsProperty_emitField {node : Yaml} {p : PropDef} (h : parseProperty node = some p) :
    KeepsProperty node (emitField p) := by
  rw [parseProperty_eq] at h
  obtain ⟨name, hname, h⟩ := Option.bind_eq_some_iff.mp h
  obtain ⟨t, ht, rfl⟩ := Option.map_eq_some_iff.mp h
  exact ⟨by rw [hname, wireName_emitField], by rw [ht]; rfl⟩

/-- No two emitted fields share an identifier. -/
theorem nodup_emitFields (props : List PropDef) : ((emitFields props).map Field.ident).Nodup := by
  have h := nodup_keepNew (fun p : PropDef => bareIdent (rustFieldIdent p.yamlName).1) props
  rw [← Function.comp_def bareIdent fun p : PropDef => (rustFieldIdent p.yamlName).1,
    ← List.map_map] at h
  rw [emitFields, List.map_map]
  exact List.Nodup.of_map _ h

/-- All properties of an object are kept exactly if no two have the same field identifier. -/
theorem keepsProperties_iff (props : List Yaml) :
    KeepsProperties props (emitFields (props.filterMap parseProperty)) ↔ PropertiesDistinct props := by
  have hident : ∀ node p, parseProperty node = some p →
      (yamlStr node "name").map snake = some (bareIdent (rustFieldIdent p.yamlName).1) := by
    intro node p h
    rw [(keepsProperty_emitField h).1, wireName_emitField, bareIdent_rustFieldIdent]
    rfl
  rw [KeepsProperties, and_iff_left (nodup_emitFields _), emitFields,
    forall₂_keepNew_iff KeepsProperty emitField hident,
    and_iff_left fun node _ p h => keepsProperty_emitField h, PropertiesDistinct]
  simp only [parseProperty_isSome]

/-- All values of an enum are kept exactly if no two have the same variant identifier. -/
theorem keepsValues_iff (values : List (Yaml × Yaml)) :
    KeepsValues values (emitVariants (values.filterMap parseValue)) ↔ ValuesDistinct values := by
  have hkey : ∀ e v, parseValue e = some v → enumKey e.1 = some v.1 := by
    intro e v h
    obtain ⟨key, hk, rfl⟩ := Option.map_eq_some_iff.mp h
    exact hk
  have hident : ∀ e v, parseValue e = some v →
      ((enumKey e.1).map fun k => (rustVariantIdent k).1) = some (rustVariantIdent v.1).1 := by
    intro e v h
    rw [hkey e v h, Option.map_some]
  have hnodup : ((emitVariants (values.filterMap parseValue)).map Variant.ident).Nodup := by
    rw [emitVariants, List.map_map]
    exact nodup_keepNew _ _
  have hsome : ∀ e, (parseValue e).isSome = (enumKey e.1).isSome := fun e => Option.isSome_map
  have hkeeps : ∀ e ∈ values, ∀ v, parseValue e = some v →
      enumKey e.1 = some (emitVariant v).wireName := by
    intro e _ v h
    rw [hkey e v h, wireName_emitVariant]
  rw [KeepsValues, and_iff_left hnodup, emitVariants, forall₂_keepNew_iff _ emitVariant hident,
    and_iff_left hkeeps, ValuesDistinct]
  simp only [hsome]

/-! ## Entries -/

/-- The entries of a mapping whose key is a string. -/
def textEntries (h : List (Yaml × Yaml)) : List (String × Yaml) :=
  h.filterMap fun e => e.1.asStr.map fun key => (key, e.2)

/-- The entries under `types`. -/
def typeEntries (rootHash : List (Yaml × Yaml)) : List (String × Yaml) :=
  (textEntries rootHash).flatMap fun e => if e.1 = "types" then textEntries (e.2.asHash.getD []) else []

/-- The verbs: root entries with a dotted key. -/
def verbEntries (rootHash : List (Yaml × Yaml)) : List (String × Yaml) :=
  (textEntries rootHash).filter fun e => containsChar e.1 '.'

/-- The properties of a type entry that is an object. -/
def objectProperties (node : Yaml) : Option (List Yaml) :=
  match yamlStr node "type" with
  | some "object" => some (nodesOf node "properties")
  | some _ => none
  | none => (yamlGet node "properties").bind Yaml.asVec

/-- The values of a type entry that is an enum. -/
def enumValues (node : Yaml) : Option (List (Yaml × Yaml)) :=
  if yamlStr node "type" = some "enum" then some (valuesOf node) else none

/-- An object with properties is read as one. -/
theorem parseKind_of_objectProperties {node : Yaml} {props : List Yaml}
    (h : objectProperties node = some props) :
    parseKind node = some (.object (props.filterMap parseProperty)) := by
  unfold objectProperties at h
  split at h
  · rename_i htype
    obtain rfl := Option.some.inj h
    simp only [parseKind, htype]
    rfl
  · cases h
  · rename_i htype
    simp [parseKind, htype, h, propertiesOf, nodesOf]

/-- So is an enum with values. -/
theorem parseKind_of_enumValues {node : Yaml} {values : List (Yaml × Yaml)}
    (h : enumValues node = some values) :
    parseKind node = some (.enum (values.filterMap parseValue)) := by
  obtain ⟨htype, rfl⟩ : yamlStr node "type" = some "enum" ∧ valuesOf node = values := by
    simpa [enumValues] using h
  simp only [parseKind, htype]

/-- The members of a type entry are all in its item. -/
def KeepsMembers (node : Yaml) (body : ItemBody) : Prop :=
  (∀ props, objectProperties node = some props →
    ∃ fields, body = .struct fields ∧ KeepsProperties props fields) ∧
  ∀ values, enumValues node = some values →
    ∃ variants, body = .enum variants ∧ KeepsValues values variants

/-- The members of a type are kept exactly if those of its kind are distinct. -/
theorem keepsMembers_iff {node : Yaml} {kind : TypeKind} (h : parseKind node = some kind) :
    KeepsMembers node (emitBody kind) ↔
      (∀ props, objectProperties node = some props → PropertiesDistinct props) ∧
        ∀ values, enumValues node = some values → ValuesDistinct values := by
  refine and_congr (forall₂_congr fun props hprops => ?_) (forall₂_congr fun values hvalues => ?_)
  · obtain rfl : kind = .object (props.filterMap parseProperty) :=
      Option.some.inj (h.symm.trans (parseKind_of_objectProperties hprops))
    simp [emitBody, keepsProperties_iff]
  · obtain rfl : kind = .enum (values.filterMap parseValue) :=
      Option.some.inj (h.symm.trans (parseKind_of_enumValues hvalues))
    simp [emitBody, keepsValues_iff]

/-! ## The document -/

/-- A type entry that parses. -/
def parsingEntries (rootHash : List (Yaml × Yaml)) : List (String × Yaml) :=
  (typeEntries rootHash).filter fun e => (parseTypeEntry e.1 e.2).isSome

/-- Nothing of the schema is dropped. Distinct item names are asked for among the types alone: the
request structs of the verbs and the enum `Verb` stand in the same module, but a type of such a name
drops nothing, the file is emitted with both and does not compile. -/
structure Lossless (rootHash : List (Yaml × Yaml)) (g : Generated) : Prop where
  types : List.Forall₂ (fun e item => item.name = pascal e.1 ∧ KeepsMembers e.2 item.body)
    (parsingEntries rootHash) g.items
  itemNames : (g.items.map Item.name).Nodup
  verbs : List.Forall₂ (fun e v => v = pascal e.1) (verbEntries rootHash) g.verbTable.variants
  variants : g.verbTable.variants.Nodup
  params : List.Forall₂ (fun e v => v.request.name = pascal e.1 ++ "Request" ∧
      ∃ fields, v.request.body = .struct fields ∧ KeepsProperties (nodesOf e.2 "params") fields)
    (verbEntries rootHash) g.verbItems
  verbCount : g.verbCount = g.verbTable.variants.length
  roundTrip : ∀ name ∈ g.verbs, ∃ v ∈ g.verbTable.variants,
    g.verbTable.fromWire name = some v ∧ g.verbTable.asStr v = some name

/-- Names that stay different as identifiers, in each group. -/
structure NamesDistinct (rootHash : List (Yaml × Yaml)) : Prop where
  types : ((parsingEntries rootHash).map fun e => pascal e.1).Nodup
  properties : ∀ e ∈ parsingEntries rootHash, ∀ props, objectProperties e.2 = some props →
    PropertiesDistinct props
  values : ∀ e ∈ parsingEntries rootHash, ∀ values, enumValues e.2 = some values →
    ValuesDistinct values
  verbs : ((verbEntries rootHash).map fun e => pascal e.1).Nodup
  mappings : ∀ e ∈ verbEntries rootHash, e.2.asHash.isSome
  params : ∀ e ∈ verbEntries rootHash, PropertiesDistinct (nodesOf e.2 "params")

/-- One parsed type entry, added. -/
def Collected.push (st : Collected) (td : TypeDef) : Collected :=
  if td.name ∈ st.typeSeen then st
  else { st with types := st.types ++ [td], typeSeen := td.name :: st.typeSeen }

/-- The types that are collected are those of new names. -/
theorem push_types (st : Collected) (tds : List TypeDef) :
    (tds.foldl Collected.push st).types = st.types ++ keepNew TypeDef.name st.typeSeen tds := by
  induction tds generalizing st with
  | nil => simp [keepNew]
  | cons td tds ih =>
    rw [List.foldl_cons, ih, keepNew, Collected.push]
    split
    · rfl
    · simp

/-- Collecting types leaves the verbs alone. -/
theorem push_verbs (st : Collected) (tds : List TypeDef) :
    (tds.foldl Collected.push st).verbs = st.verbs := by
  induction tds generalizing st with
  | nil => rfl
  | cons td tds ih =>
    rw [List.foldl_cons, ih, Collected.push]
    split <;> rfl

theorem push_with_verbs (st : Collected) (vs : List VerbDef) (tds : List TypeDef) :
    tds.foldl Collected.push { st with verbs := vs } =
      { tds.foldl Collected.push st with verbs := vs } := by
  induction tds generalizing st with
  | nil => rfl
  | cons td tds ih =>
    have hpush : Collected.push { st with verbs := vs } td = { st.push td with verbs := vs } := by
      simp only [Collected.push]
      split <;> rfl
    rw [List.foldl_cons, List.foldl_cons, hpush, ih]

/-- The loop over a group of types, by what can be read of it. -/
theorem foldl_addType (st : Collected) (h : List (Yaml × Yaml)) :
    h.foldl Collected.addType st =
      ((textEntries h).filterMap fun e => parseTypeEntry e.1 e.2).foldl Collected.push st := by
  induction h generalizing st with
  | nil => rfl
  | cons e h ih =>
    rw [List.foldl_cons, ih, Collected.addType]
    cases hkey : e.1.asStr with
    | none => simp [textEntries, hkey]
    | some key =>
      cases htd : parseTypeEntry key e.2 with
      | none => simp [textEntries, hkey, htd]
      | some td => simp [textEntries, hkey, htd, Collected.push]

/-- What one root entry adds. -/
theorem addEntry_eq (st : Collected) (e : Yaml × Yaml) :
    st.addEntry e =
      { ((typeEntries [e]).filterMap fun t => parseTypeEntry t.1 t.2).foldl Collected.push st with
        verbs := st.verbs ++ (verbEntries [e]).filterMap fun v => parseVerb v.1 v.2 } := by
  rw [Collected.addEntry]
  cases hkey : e.1.asStr with
  | none => simp [typeEntries, verbEntries, textEntries, hkey]
  | some key =>
    by_cases htypes : key = "types"
    · have hdot : containsChar "types" '.' = false := by decide
      have hentries : typeEntries [e] = textEntries (e.2.asHash.getD []) := by
        simp [typeEntries, textEntries, hkey, htypes]
      have hverbs : verbEntries [e] = [] := by
        simp [verbEntries, textEntries, hkey, htypes, hdot]
      simp only [htypes, if_true, foldl_addType, hentries, hverbs, List.filterMap_nil, List.append_nil]
      rw [← push_verbs st]
    · by_cases hdot : containsChar key '.' = true
      · cases hvd : parseVerb key e.2 with
        | none => simp [typeEntries, verbEntries, textEntries, hkey, htypes, hdot, hvd]
        | some vd => simp [typeEntries, verbEntries, textEntries, hkey, htypes, hdot, hvd]
      · simp [typeEntries, verbEntries, textEntries, hkey, htypes, hdot]

theorem typeEntries_append (a b : List (Yaml × Yaml)) :
    typeEntries (a ++ b) = typeEntries a ++ typeEntries b := by
  simp [typeEntries, textEntries]

theorem verbEntries_append (a b : List (Yaml × Yaml)) :
    verbEntries (a ++ b) = verbEntries a ++ verbEntries b := by
  simp [verbEntries, textEntries]

/-- What the loop over the root collects. -/
theorem collect_eq (st : Collected) (rootHash : List (Yaml × Yaml)) :
    rootHash.foldl Collected.addEntry st =
      { ((typeEntries rootHash).filterMap fun t => parseTypeEntry t.1 t.2).foldl Collected.push st with
        verbs := st.verbs ++ (verbEntries rootHash).filterMap fun v => parseVerb v.1 v.2 } := by
  induction rootHash generalizing st with
  | nil => simp [typeEntries, verbEntries, textEntries]
  | cons e rootHash ih =>
    have htypes : typeEntries (e :: rootHash) = typeEntries [e] ++ typeEntries rootHash :=
      typeEntries_append [e] rootHash
    have hverbs : verbEntries (e :: rootHash) = verbEntries [e] ++ verbEntries rootHash :=
      verbEntries_append [e] rootHash
    rw [List.foldl_cons, ih, addEntry_eq, push_with_verbs, htypes, hverbs, List.filterMap_append,
      List.filterMap_append, List.foldl_append, List.append_assoc]

/-- The collected definitions: the type entries that parse, less later ones of the same name, and all
verbs. -/
theorem generate_eq (rootHash : List (Yaml × Yaml)) :
    ∃ verbs, verbs = ((verbEntries rootHash).filterMap fun v => parseVerb v.1 v.2) ∧
      (generate rootHash).items = (keepNew TypeDef.name []
        ((parsingEntries rootHash).filterMap fun t => parseTypeEntry t.1 t.2)).map emitType ∧
      (generate rootHash).verbCount = verbs.length ∧
      (generate rootHash).verbs = (verbs.map VerbDef.yamlName).mergeSort (· ≤ ·) ∧
      (generate rootHash).verbTable = emitVerbTable verbs ∧
      (generate rootHash).verbItems = emitVerbRequestStructs verbs := by
  have hparse : ((parsingEntries rootHash).filterMap fun t => parseTypeEntry t.1 t.2)
      = (typeEntries rootHash).filterMap fun t => parseTypeEntry t.1 t.2 := by
    rw [parsingEntries, List.filterMap_filter]
    refine List.filterMap_congr fun e _ => ?_
    split
    · rfl
    · rename_i hnone
      exact (Option.not_isSome_iff_eq_none.mp hnone).symm
  refine ⟨_, rfl, ?_⟩
  simp only [generate, collect_eq, push_types, List.nil_append, hparse, and_self]

/-- A match on string or variant arms that has an arm for `k a` takes one of an element like `a`. -/
theorem exists_arm {α : Type} (k v : α → String) {l : List α} {a : α} (ha : a ∈ l) :
    ∃ b ∈ l, k b = k a ∧
      ((l.map fun c => (k c, v c)).find? fun arm => arm.1 == k a).map Prod.snd = some (v b) := by
  have hsome : (l.find? fun c => k c == k a).isSome := by
    rw [List.find?_isSome]
    exact ⟨a, ha, by simp⟩
  obtain ⟨b, hb⟩ := Option.isSome_iff_exists.mp hsome
  refine ⟨b, List.mem_of_find?_eq_some hb, by simpa using List.find?_some hb, ?_⟩
  rw [List.find?_map, Option.map_map]
  exact congrArg (Option.map fun c => v c) hb

/-- The two directions of the verb table fit each other where the variants are distinct. -/
theorem fromWire_asStr {verbs : List VerbDef} (hnodup : (verbs.map VerbDef.rustName).Nodup)
    {name : String} (hname : name ∈ verbs.map VerbDef.yamlName) :
    ∃ v ∈ (emitVerbTable verbs).variants,
      (emitVerbTable verbs).fromWire name = some v ∧ (emitVerbTable verbs).asStr v = some name := by
  have hkept : keepNew VerbDef.rustName [] verbs = verbs := (keepNew_eq_self_iff _ _).mpr hnodup
  obtain ⟨vd, hvd, rfl⟩ := List.mem_map.mp hname
  obtain ⟨b, hb, hyaml, hfrom⟩ := exists_arm VerbDef.yamlName VerbDef.rustName hvd
  obtain ⟨c, hc, hrust, has⟩ := exists_arm VerbDef.rustName VerbDef.yamlName hb
  obtain rfl : c = b := List.inj_on_of_nodup_map hnodup hc hb hrust
  simp only [emitVerbTable, VerbTable.fromWire, VerbTable.asStr, hkept]
  refine ⟨c.rustName, List.mem_map_of_mem hc, hfrom, ?_⟩
  rw [has, hyaml]

/-- Each type entry that parses has its own item, with all its members. -/
theorem types_kept_iff (rootHash : List (Yaml × Yaml)) :
    List.Forall₂ (fun e item => item.name = pascal e.1 ∧ KeepsMembers e.2 item.body)
        (parsingEntries rootHash) (generate rootHash).items ↔
      ((parsingEntries rootHash).map fun e => pascal e.1).Nodup ∧
        ∀ e ∈ parsingEntries rootHash,
          (∀ props, objectProperties e.2 = some props → PropertiesDistinct props) ∧
            ∀ values, enumValues e.2 = some values → ValuesDistinct values := by
  have hparse : ∀ e ∈ parsingEntries rootHash, (parseTypeEntry e.1 e.2).isSome :=
    fun e he => (List.mem_filter.mp he).2
  obtain ⟨-, -, hitems, -⟩ := generate_eq rootHash
  have hname : ∀ (e : String × Yaml) td, parseTypeEntry e.1 e.2 = some td →
      some (pascal e.1) = some td.name := by
    intro e td h
    obtain ⟨kind, -, rfl⟩ := Option.map_eq_some_iff.mp h
    rfl
  rw [hitems, forall₂_keepNew_iff _ emitType hname, and_iff_right hparse, List.filterMap_eq_map']
  refine and_congr_right fun _ => forall₂_congr fun e he => ?_
  obtain ⟨td, htd⟩ := Option.isSome_iff_exists.mp (hparse e he)
  obtain ⟨kind, hkind, rfl⟩ := Option.map_eq_some_iff.mp htd
  rw [← keepsMembers_iff hkind, htd]
  constructor
  · exact fun h => (h _ rfl).2
  · rintro h td' htd'
    obtain rfl := Option.some.inj htd'
    exact ⟨rfl, h⟩

/-- What is read of a verb. -/
theorem parseVerb_eq_some {name : String} {node : Yaml} {vd : VerbDef}
    (h : parseVerb name node = some vd) :
    vd.yamlName = name ∧ vd.rustName = pascal name ∧ vd.params = propertiesOf node "params" := by
  simp only [parseVerb] at h
  split at h
  · cases h
  · obtain rfl := Option.some.inj h
    exact ⟨rfl, rfl, rfl⟩

/-- Any mapping is read as a verb. -/
theorem parseVerb_isSome (name : String) (node : Yaml) :
    (parseVerb name node).isSome = node.asHash.isSome := by
  rw [parseVerb]
  cases node.asHash <;> simp

/-- The variant of a verb depends on its name only. -/
theorem parseVerb_rustName (e : String × Yaml) (vd : VerbDef) (h : parseVerb e.1 e.2 = some vd) :
    some (pascal e.1) = some vd.rustName :=
  congrArg some (parseVerb_eq_some h).2.1.symm

section verbs

variable (entries : List (String × Yaml))

/-- Each verb has its own variant. -/
theorem verbs_kept_iff :
    List.Forall₂ (fun e v => v = pascal e.1) entries
        (emitVerbTable (entries.filterMap fun e => parseVerb e.1 e.2)).variants ↔
      (∀ e ∈ entries, e.2.asHash.isSome) ∧ (entries.map fun e => pascal e.1).Nodup := by
  rw [emitVerbTable, forall₂_keepNew_iff _ VerbDef.rustName parseVerb_rustName,
    and_iff_left fun e _ vd h => (parseVerb_eq_some h).2.1, List.filterMap_eq_map']
  simp only [parseVerb_isSome]

/-- Each verb has its own request struct, with all its parameters. -/
theorem params_kept_iff :
    List.Forall₂ (fun e v => v.request.name = pascal e.1 ++ "Request" ∧
          ∃ fields, v.request.body = .struct fields ∧ KeepsProperties (nodesOf e.2 "params") fields)
        entries (emitVerbRequestStructs (entries.filterMap fun e => parseVerb e.1 e.2)) ↔
      (∀ e ∈ entries, e.2.asHash.isSome) ∧ (entries.map fun e => pascal e.1).Nodup ∧
        ∀ e ∈ entries, PropertiesDistinct (nodesOf e.2 "params") := by
  rw [emitVerbRequestStructs, forall₂_keepNew_iff _ emitVerbItems parseVerb_rustName,
    List.filterMap_eq_map']
  simp only [parseVerb_isSome]
  refine and_congr_right fun hall => and_congr_right fun _ => forall₂_congr fun e he => ?_
  have hsome : (parseVerb e.1 e.2).isSome := by
    rw [parseVerb_isSome]
    exact hall e he
  obtain ⟨vd, hvd⟩ := Option.isSome_iff_exists.mp hsome
  obtain ⟨-, hrust, hparams⟩ := parseVerb_eq_some hvd
  rw [← keepsProperties_iff, hvd]
  constructor
  · intro h
    obtain ⟨-, fields, hbody, hkeeps⟩ := h vd rfl
    obtain rfl : emitFields vd.params = fields := by simpa [emitVerbItems] using hbody
    rwa [hparams] at hkeeps
  · rintro h vd' hvd'
    obtain rfl := Option.some.inj hvd'
    refine ⟨by rw [← hrust]; rfl, emitFields vd.params, rfl, ?_⟩
    rw [hparams]
    exact h

end verbs

/-- Losses of the code generator. It accepts every mapping, and drops nothing exactly when the names
of each group stay different as identifiers, each property has a name and a type, each enum value is
a scalar, and each verb is a mapping. -/
theorem codegen_lossless (rootHash : List (Yaml × Yaml)) :
    ∃ g, build (.hash rootHash) = some g ∧ (Lossless rootHash g ↔ NamesDistinct rootHash) := by
  refine ⟨generate rootHash, rfl, ?_⟩
  obtain ⟨verbs, hverbs, hitems, hcount, hnames, htable, hrequests⟩ := generate_eq rootHash
  constructor
  · intro h
    have htypes := h.types
    have hparams := h.params
    rw [types_kept_iff] at htypes
    rw [hrequests, hverbs, params_kept_iff] at hparams
    obtain ⟨hmappings, hdistinct, hprops⟩ := hparams
    exact ⟨htypes.1, fun e he => (htypes.2 e he).1, fun e he => (htypes.2 e he).2, hdistinct,
      hmappings, hprops⟩
  · intro h
    have hsome : ∀ e ∈ verbEntries rootHash, (parseVerb e.1 e.2).isSome := by
      intro e he
      rw [parseVerb_isSome]
      exact h.mappings e he
    have hrust : (verbs.map VerbDef.rustName).Nodup := by
      rw [hverbs, map_filterMap_eq parseVerb_rustName hsome, List.filterMap_eq_map']
      exact h.verbs
    have hkept : keepNew VerbDef.rustName [] verbs = verbs := (keepNew_eq_self_iff _ _).mpr hrust
    refine ⟨?_, ?_, ?_, ?_, ?_, ?_, ?_⟩
    · rw [types_kept_iff]
      exact ⟨h.types, fun e he => ⟨h.properties e he, h.values e he⟩⟩
    · rw [hitems, List.map_map]
      exact nodup_keepNew TypeDef.name _
    · rw [htable, hverbs, verbs_kept_iff]
      exact ⟨h.mappings, h.verbs⟩
    · rw [htable]
      exact nodup_keepNew VerbDef.rustName _
    · rw [hrequests, hverbs, params_kept_iff]
      exact ⟨h.mappings, h.verbs, h.params⟩
    · rw [hcount, htable, emitVerbTable, hkept, List.length_map]
    · intro name hname
      rw [hnames, List.mem_mergeSort] at hname
      rw [htable]
      exact fromWire_asStr hrust hname

/-- The values of `StorageDomainStatus` in the vendored schema, which keeps both spellings of each. -/
def statusValues : List (Yaml × Yaml) :=
  [(.string "active", .string "The domain is attached to a Storage Pool and is activated"),
    (.string "Active", .string "The domain is attached to a Storage Pool and is activated"),
    (.string "attached", .string "The domain is attached to a Storage Pool but is deactivated"),
    (.string "Attached", .string "The domain is attached to a Storage Pool but is deactivated"),
    (.string "unattached", .string "The domain is not attached to a Storage Pool"),
    (.string "Unattached", .string "The domain is not attached to a Storage Pool"),
    (.string "unknown", .string "The status of the Storage Domain is not known"),
    (.string "Unknown", .string "The status of the Storage Domain is not known")]

/-- The entry `StorageDomainStatus` on its own. -/
def statusSchema : List (Yaml × Yaml) :=
  [(.string "types", .hash [(.string "StorageDomainStatus",
    .hash [(.string "added", .string "3.1"), (.string "name", .string "StorageDomainStatus"),
      (.string "type", .string "enum"), (.string "values", .hash statusValues)])])]

/-- Two values that differ in their capitals have one variant, and one of them is lost. -/
theorem statusSchema_loses :
    (statusValues.filterMap fun e => enumKey e.1).Nodup ∧
      ∃ g, build (.hash statusSchema) = some g ∧ ¬Lossless statusSchema g := by
  refine ⟨by decide, generate statusSchema, rfl, fun h => ?_⟩
  have htypes := (types_kept_iff statusSchema).mp h.types
  have hmem : ("StorageDomainStatus", _) ∈ parsingEntries statusSchema := .head _
  have hdistinct := ((htypes.2 _ hmem).2 statusValues rfl).2
  exact absurd hdistinct (by decide +kernel)

end Vdsm.Schema
