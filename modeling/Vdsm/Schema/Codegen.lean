import Mathlib.Data.String.Basic
import Vdsm.Lib.FirstSeen
import Vdsm.Lib.RustStr

/-!
# The schema code generator (`vdsm-schema/build.rs`)

From the loaded YAML document to the Rust items of `generated.rs`. An item is kept as its parts: its
doc lines, its name, and for each member the doc line, the `rename` attribute, the identifier and the
type. `build` is `main` behind the YAML loader; it has no result where `main` panics.
-/

namespace Vdsm.Schema

open Rust FirstSeen

/-! ## YAML -/

/-- `yaml_rust2::Yaml`. A mapping is its entries in document order. -/
inductive Yaml where
  | real (s : String)
  | integer (i : ℤ)
  | string (s : String)
  | boolean (b : Bool)
  | array (v : List Yaml)
  | hash (h : List (Yaml × Yaml))
  | alias (id : ℕ)
  | null
  | badValue

namespace Yaml

def asStr : Yaml → Option String
  | .string s => some s
  | _ => none

def asVec : Yaml → Option (List Yaml)
  | .array v => some v
  | _ => none

def asHash : Yaml → Option (List (Yaml × Yaml))
  | .hash h => some h
  | _ => none

/-- `h.get(&Yaml::String(key))`. -/
def lookup (h : List (Yaml × Yaml)) (key : String) : Option Yaml :=
  (h.find? fun e => e.1.asStr == some key).map Prod.snd

end Yaml

def yamlGet (node : Yaml) (key : String) : Option Yaml :=
  node.asHash.bind fun h => Yaml.lookup h key

def yamlStr (node : Yaml) (key : String) : Option String := (yamlGet node key).bind Yaml.asStr

/-! ## Names -/

/-- `PRIMITIVES`. -/
def primitives : List (String × String) :=
  [("string", "String"), ("str", "String"), ("int", "i32"), ("uint", "u32"), ("long", "i64"),
    ("ulong", "u64"), ("float", "f64"), ("double", "f64"), ("boolean", "bool"), ("bool", "bool"),
    ("dict", "serde_json::Value"), ("any", "serde_json::Value"), ("object", "serde_json::Value"),
    ("enum", "serde_json::Value"), ("alias", "serde_json::Value"), ("union", "serde_json::Value"),
    ("map", "serde_json::Value")]

/-- `RUST_KEYWORDS`. -/
def rustKeywords : List String :=
  ["as", "break", "const", "continue", "crate", "else", "enum", "extern", "false", "fn", "for", "if",
    "impl", "in", "let", "loop", "match", "mod", "move", "mut", "pub", "ref", "return", "self", "Self",
    "static", "struct", "super", "trait", "true", "type", "unsafe", "use", "where", "while", "async",
    "await", "dyn", "abstract", "become", "box", "do", "final", "macro", "override", "priv", "typeof",
    "unsized", "virtual", "yield", "try", "union"]

def isKeyword (s : String) : Bool := rustKeywords.contains s

def mapPrimitive (s : String) : Option String :=
  (primitives.find? fun e => e.1 == s).map Prod.snd

/-- The loop of `pascal`: an alphanumeric is upper-cased behind anything else. -/
def pascalChars : Bool → List Char → List Char
  | _, [] => []
  | up, c :: cs =>
    if isAsciiAlphanumeric c then (if up then c.toUpper else c) :: pascalChars false cs
    else pascalChars true cs

def pascal (s : String) : String :=
  match pascalChars true s.toList with
  | [] => "Unnamed"
  | c :: cs => if c.isDigit then "V" ++ String.ofList (c :: cs) else String.ofList (c :: cs)

/-- Whether an underscore may be put behind `out`. -/
def breakable (out : List Char) : Bool := out ≠ [] && out.getLast? ≠ some '_'

/-- One turn of the loop of `snake`; the flag says that the character before was a lower-case letter
or a digit. -/
def snakeStep (st : List Char × Bool) (c : Char) : List Char × Bool :=
  let (out, prevLowerOrDigit) := st
  if c.isUpper then
    ((if prevLowerOrDigit && breakable out then out ++ ['_'] else out) ++ [c.toLower], false)
  else if isAsciiAlphanumeric c then (out ++ [c], c.isLower || c.isDigit)
  else (if breakable out then out ++ ['_'] else out, false)

/-- The two loops that remove underscores from the ends. -/
def trimUnderscores (out : List Char) : List Char :=
  ((out.reverse.dropWhile (· == '_')).reverse).dropWhile (· == '_')

def snake (s : String) : String :=
  match trimUnderscores (s.toList.foldl snakeStep ([], false)).1 with
  | [] => "field"
  | c :: cs => if c.isDigit then "f_" ++ String.ofList (c :: cs) else String.ofList (c :: cs)

/-- The identifier of a field, and whether it needs a `rename`. -/
def rustFieldIdent (yamlName : String) : String × Bool :=
  let snk := snake yamlName
  (if isKeyword snk then "r#" ++ snk else snk, snk != yamlName)

/-- The identifier of a variant, and whether it needs a `rename`. -/
def rustVariantIdent (yamlKey : String) : String × Bool :=
  let v := pascal yamlKey
  let v := if isKeyword v then v ++ "_" else v
  (v, v != yamlKey)

/-- The loop of `trim_start_matches("r#")`. -/
def trimRawChars : List Char → List Char
  | 'r' :: '#' :: cs => trimRawChars cs
  | cs => cs

/-- `ident.trim_start_matches("r#")`. -/
def bareIdent (ident : String) : String := String.ofList (trimRawChars ident.toList)

def escDoc (s : String) : String := " ".intercalate (splitWhitespace s)

/-! ## Reading definitions -/

/-- The Rust type of a `type:` node. -/
def resolveType : Yaml → String
  | .string s => (mapPrimitive s).getD (pascal s)
  | .array (first :: _) => "Vec<" ++ resolveType first ++ ">"
  | .array [] => "Vec<serde_json::Value>"
  | .hash h =>
    match (Yaml.lookup h "name").bind Yaml.asStr with
    | some name => pascal name
    | none => "serde_json::Value"
  | _ => "serde_json::Value"

structure PropDef where
  yamlName : String
  rustType : String
  doc : Option String

inductive TypeKind where
  | object (properties : List PropDef)
  | enum (variants : List (String × String))
  | alias (source : String)
  | union (variants : List String)
  | map (key value : String)

structure TypeDef where
  name : String
  kind : TypeKind
  doc : Option String
  added : Option String

structure VerbDef where
  yamlName : String
  rustName : String
  doc : Option String
  added : Option String
  params : List PropDef
  ret : Option String

def parseProperty (node : Yaml) : Option PropDef := do
  let name ← yamlStr node "name"
  let typeNode ← yamlGet node "type"
  return ⟨name, resolveType typeNode, (yamlStr node "description").map escDoc⟩

/-- The list under a key, `unwrap_or_default`. -/
def nodesOf (node : Yaml) (key : String) : List Yaml := ((yamlGet node key).bind Yaml.asVec).getD []

/-- The properties under a key that parse. -/
def propertiesOf (node : Yaml) (key : String) : List PropDef :=
  (nodesOf node key).filterMap parseProperty

/-- An enum key as text. -/
def enumKey : Yaml → Option String
  | .string s => some s
  | .integer i => some (toString i)
  | .real r => some r
  | .boolean b => some (toString b)
  | _ => none

def enumDesc : Yaml → String
  | .string s => escDoc s
  | _ => ""

/-- One entry of an enum's `values`. -/
def parseValue (e : Yaml × Yaml) : Option (String × String) :=
  (enumKey e.1).map fun key => (key, enumDesc e.2)

/-- The entries of an enum's `values`. -/
def valuesOf (node : Yaml) : List (Yaml × Yaml) := ((yamlGet node "values").bind Yaml.asHash).getD []

/-- The kind of a type entry. -/
def parseKind (node : Yaml) : Option TypeKind :=
  match yamlStr node "type" with
  | some "object" => some (.object (propertiesOf node "properties"))
  | some "enum" => some (.enum ((valuesOf node).filterMap parseValue))
  | some "alias" =>
    some (.alias (((yamlGet node "sourcetype").map resolveType).getD "serde_json::Value"))
  | some "union" => some (.union ((nodesOf node "values").map resolveType))
  | some "map" =>
    some (.map (((yamlGet node "key-type").map resolveType).getD "String")
      (((yamlGet node "value-type").map resolveType).getD "serde_json::Value"))
  | some other =>
    if other ≠ "" then some (.alias ((mapPrimitive other).getD (pascal other))) else none
  | none =>
    if ((yamlGet node "properties").bind Yaml.asVec).isSome then
      some (.object (propertiesOf node "properties"))
    else none

def parseTypeEntry (yamlKey : String) (node : Yaml) : Option TypeDef :=
  (parseKind node).map fun kind =>
    ⟨pascal yamlKey, kind, (yamlStr node "description").map escDoc, yamlStr node "added"⟩

def parseVerb (yamlName : String) (node : Yaml) : Option VerbDef :=
  if node.asHash.isNone then none
  else
    some ⟨yamlName, pascal yamlName, (yamlStr node "description").map escDoc, yamlStr node "added",
      propertiesOf node "params",
      ((yamlGet node "return").bind fun r => yamlGet r "type").map resolveType⟩

/-! ## Emitting items -/

/-- One `pub` field, of type `Option<rustType>`. -/
structure Field where
  doc : Option String
  rename : Option String
  ident : String
  rustType : String
deriving DecidableEq

/-- The key serde reads and writes for a field. -/
def Field.wireName (f : Field) : String := f.rename.getD (bareIdent f.ident)

/-- One unit variant. -/
structure Variant where
  doc : Option String
  rename : Option String
  ident : String
deriving DecidableEq

/-- The text serde reads and writes for a variant. -/
def Variant.wireName (v : Variant) : String := v.rename.getD v.ident

inductive ItemBody where
  | struct (fields : List Field)
  | enum (variants : List Variant)
  | alias (target : String)
  /-- `#[serde(untagged)]`, with variants `V0`, `V1`, … of these types. -/
  | untagged (members : List String)
deriving DecidableEq

structure Item where
  doc : List String
  name : String
  body : ItemBody
deriving DecidableEq

/-- The `///` lines of an item. -/
def emitDoc (doc added : Option String) : List String :=
  let lines := match doc with
    | some d => if d ≠ "" then (splitChar '\n' d).map trim else []
    | none => []
  let since := match added with
    | some a => if a ≠ "" then (if lines ≠ [] then [""] else []) ++ [s!"(added in oVirt {a})"] else []
    | none => []
  lines ++ since

/-- A doc line, unless empty. -/
def emitIndentDoc (doc : Option String) : Option String := doc.filter (· ≠ "")

def emitField (p : PropDef) : Field :=
  let (ident, needsRename) := rustFieldIdent p.yamlName
  ⟨emitIndentDoc p.doc, if needsRename then some p.yamlName else none, ident, p.rustType⟩

/-- The fields of a struct: one for each identifier. -/
def emitFields (properties : List PropDef) : List Field :=
  (keepNew (fun p => bareIdent (rustFieldIdent p.yamlName).1) [] properties).map emitField

def emitVariant (v : String × String) : Variant :=
  let (ident, needsRename) := rustVariantIdent v.1
  ⟨emitIndentDoc (some v.2), if needsRename then some v.1 else none, ident⟩

/-- The variants of an enum: one for each identifier. -/
def emitVariants (variants : List (String × String)) : List Variant :=
  (keepNew (fun v => (rustVariantIdent v.1).1) [] variants).map emitVariant

def emitBody : TypeKind → ItemBody
  | .object properties => .struct (emitFields properties)
  | .enum variants => .enum (emitVariants variants)
  | .alias source => .alias source
  | .union variants => .untagged variants
  | .map key value => .alias s!"std::collections::HashMap<{key}, {value}>"

def emitType (t : TypeDef) : Item := ⟨emitDoc t.doc t.added, t.name, emitBody t.kind⟩

/-- `enum Verb` and the arms of its two functions. -/
structure VerbTable where
  variants : List String
  asStrArms : List (String × String)
  fromWireArms : List (String × String)

/-- `Verb::as_str`, of a variant. -/
def VerbTable.asStr (t : VerbTable) (v : String) : Option String :=
  (t.asStrArms.find? fun arm => arm.1 == v).map Prod.snd

/-- `Verb::from_wire`. -/
def VerbTable.fromWire (t : VerbTable) (s : String) : Option String :=
  (t.fromWireArms.find? fun arm => arm.1 == s).map Prod.snd

def emitVerbTable (verbs : List VerbDef) : VerbTable where
  variants := (keepNew VerbDef.rustName [] verbs).map VerbDef.rustName
  asStrArms := (keepNew VerbDef.rustName [] verbs).map fun v => (v.rustName, v.yamlName)
  fromWireArms := (keepNew VerbDef.rustName [] verbs).map fun v => (v.yamlName, v.rustName)

/-- The request struct of a verb, and its response alias. -/
structure VerbItems where
  request : Item
  response : Option Item

def emitVerbItems (v : VerbDef) : VerbItems where
  request := ⟨emitDoc v.doc v.added, v.rustName ++ "Request", .struct (emitFields v.params)⟩
  response := v.ret.map fun ret =>
    ⟨[s!"Response payload for `{v.yamlName}`."], v.rustName ++ "Response", .alias ret⟩

def emitVerbRequestStructs (verbs : List VerbDef) : List VerbItems :=
  (keepNew VerbDef.rustName [] verbs).map emitVerbItems

/-! ## The whole document -/

/-- What the loop over the root collects. -/
structure Collected where
  types : List TypeDef
  verbs : List VerbDef
  typeSeen : List String

def Collected.addType (st : Collected) (e : Yaml × Yaml) : Collected :=
  match e.1.asStr.bind fun yamlKey => parseTypeEntry yamlKey e.2 with
  | none => st
  | some td =>
    if td.name ∈ st.typeSeen then st
    else { st with types := st.types ++ [td], typeSeen := td.name :: st.typeSeen }

def Collected.addEntry (st : Collected) (e : Yaml × Yaml) : Collected :=
  match e.1.asStr with
  | none => st
  | some key =>
    if key = "types" then (e.2.asHash.getD []).foldl Collected.addType st
    else if containsChar key '.' then
      match parseVerb key e.2 with
      | none => st
      | some vd => { st with verbs := st.verbs ++ [vd] }
    else st

/-- The contents of `generated.rs`. -/
structure Generated where
  typeCount : ℕ
  verbCount : ℕ
  types : List String
  verbs : List String
  items : List Item
  verbTable : VerbTable
  verbItems : List VerbItems

/-- `main` behind its checks. -/
def generate (rootHash : List (Yaml × Yaml)) : Generated :=
  let st := rootHash.foldl Collected.addEntry ⟨[], [], []⟩
  { typeCount := st.types.length
    verbCount := st.verbs.length
    types := (st.types.map TypeDef.name).mergeSort (· ≤ ·)
    verbs := (st.verbs.map VerbDef.yamlName).mergeSort (· ≤ ·)
    items := st.types.map emitType
    verbTable := emitVerbTable st.verbs
    verbItems := emitVerbRequestStructs st.verbs }

/-- `main`, on the first document of the schema file: a root that is not a mapping is refused. -/
def build (root : Yaml) : Option Generated := root.asHash.map generate

end Vdsm.Schema
