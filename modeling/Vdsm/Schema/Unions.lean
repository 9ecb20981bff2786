import Mathlib.Algebra.Group.Int.Defs
import Vdsm.Lib.Untagged
import Vdsm.Rpc.Protocol
import Vdsm.Schema.Lossless

/-!
# Unions of generated structs

Every field of a generated struct is an `Option` with a default, and a union is an untagged enum of
its members' types. serde is taken as the rules of `Untagged`: the first variant that decodes wins, a
struct ignores keys it does not know, and an absent or `null` field is `None`. The encodings of the
field types are left open.
-/

namespace Vdsm.Schema

open FirstSeen Untagged

/-- A Rust type as serde sees it. -/
structure Codec where
  Val : Type
  encode : Val → Value
  decode : Value → Option Val

/-- Whether a JSON value is `null`. -/
def isNull : Value → Bool
  | .null => true
  | _ => false

/-- Generated fields over the wire, for given codecs of the Rust types. -/
def serdeWire (codec : String → Codec) : Wire Field String Value where
  key := Field.wireName
  Val f := (codec f.rustType).Val
  encode f := (codec f.rustType).encode
  decode f := (codec f.rustType).decode
  isNull := isNull

/-- The fields of the struct with this name. -/
def structFields (items : List Item) (name : String) : Option (List Field) :=
  match items.find? fun item => item.name = name with
  | some item =>
    match item.body with
    | .struct fields => some fields
    | _ => none
  | none => none

/-- A union of the generated code whose members are all structs. -/
structure StructUnion (g : Generated) where
  item : Item
  mem : item ∈ g.items
  names : List String
  body : item.body = .untagged names
  members : List (List Field)
  resolves : names.map (structFields g.items) = members.map some

/-- No two fields of a generated struct have the same key. -/
theorem nodup_wireName_emitFields (props : List PropDef) :
    ((emitFields props).map Field.wireName).Nodup := by
  have hnodup := nodup_keepNew (fun p : PropDef => bareIdent (rustFieldIdent p.yamlName).1) props
  simp only [bareIdent_rustFieldIdent] at hnodup
  rw [← Function.comp_def snake PropDef.yamlName, ← List.map_map] at hnodup
  have hwire : Field.wireName ∘ emitField = PropDef.yamlName := funext wireName_emitField
  rw [emitFields, List.map_map, hwire]
  simp only [bareIdent_rustFieldIdent]
  exact List.Nodup.of_map _ hnodup

/-- The fields of an emitted struct have distinct wire names. -/
theorem nodup_of_structFields {rootHash : List (Yaml × Yaml)} {name : String} {fields : List Field}
    (h : structFields (generate rootHash).items name = some fields) :
    (fields.map Field.wireName).Nodup := by
  rw [structFields] at h
  split at h
  · rename_i item hitem
    split at h
    · rename_i fields' hbody
      obtain rfl := Option.some.inj h
      obtain ⟨td, -, rfl⟩ := List.mem_map.mp (List.mem_of_find?_eq_some hitem)
      -- only an object becomes a struct
      cases hkind : td.kind with
      | object properties =>
        obtain rfl : emitFields properties = fields' := by
          simpa [emitType, emitBody, hkind] using hbody
        exact nodup_wireName_emitFields properties
      | _ => simp [emitType, emitBody, hkind] at hbody
    · cases h
  · cases h

/-- Round trips of unions. A value of a union of structs is read back, by serde with any codecs of the
field types, exactly when its own fields read back from encodings that are not `null`, and each
earlier member has a field with the key of a field that is set, which refuses its encoding. -/
theorem union_round_trip (rootHash : List (Yaml × Yaml)) (u : StructUnion (generate rootHash))
    (codec : String → Codec) (v : Choice (serdeWire codec) u.members) :
    decodeUnion (serdeWire codec) u.members v.encode = some v ↔ v.ReadsBack := by
  refine decodeUnion_encode_iff (fun m hm => ?_) v
  have hsome : some m ∈ u.names.map (structFields (generate rootHash).items) := by
    rw [u.resolves]
    exact List.mem_map_of_mem hm
  obtain ⟨name, -, hfields⟩ := List.mem_map.mp hsome
  exact nodup_of_structFields hfields

/-! ## The connection parameters of the schema -/

/-- A property entry. -/
def propertyNode (name type : String) : Yaml :=
  .hash [(.string "name", .string name), (.string "type", .string type)]

/-- An object entry. -/
def objectNode (properties : List (String × String)) : Yaml :=
  .hash [(.string "properties", .array (properties.map fun p => propertyNode p.1 p.2)),
    (.string "type", .string "object")]

/-- `ConnectionRefParameters` and its members in the vendored schema, behind the alias pre-pass. -/
def connectionSchema : List (Yaml × Yaml) :=
  [(.string "types", .hash [
    (.string "IscsiConnectionParameters", objectNode [("tpgt", "string"), ("port", "string"),
      ("connection", "string"), ("iqn", "string"), ("user", "string"), ("password", "string"),
      ("id", "UUID")]),
    (.string "LocalFsConnectionParameters", objectNode [("path", "string")]),
    (.string "NfsConnectionParameters", objectNode [("timeout", "int"), ("version", "string"),
      ("export", "string"), ("retrans", "int")]),
    (.string "PosixFsConnectionParameters", objectNode [("spec", "string"), ("vfstype", "string"),
      ("options", "string")]),
    (.string "ConnectionRefParameters", .hash [(.string "type", .string "union"),
      (.string "values", .array [.string "IscsiConnectionParameters",
        .string "PosixFsConnectionParameters", .string "NfsConnectionParameters",
        .string "LocalFsConnectionParameters"])])])]

/-- A field with its name as identifier. -/
def plainField (name rustType : String) : Field := ⟨none, none, name, rustType⟩

/-- The generated `ConnectionRefParameters`. -/
def connectionUnion : StructUnion (generate connectionSchema) where
  item := ⟨[], "ConnectionRefParameters", .untagged ["IscsiConnectionParameters",
    "PosixFsConnectionParameters", "NfsConnectionParameters", "LocalFsConnectionParameters"]⟩
  mem := by decide +kernel
  names := ["IscsiConnectionParameters", "PosixFsConnectionParameters", "NfsConnectionParameters",
    "LocalFsConnectionParameters"]
  body := rfl
  members := [
    [plainField "tpgt" "String", plainField "port" "String", plainField "connection" "String",
      plainField "iqn" "String", plainField "user" "String", plainField "password" "String",
      plainField "id" "UUID"],
    [plainField "spec" "String", plainField "vfstype" "String", plainField "options" "String"],
    [plainField "timeout" "i32", plainField "version" "String", plainField "export" "String",
      plainField "retrans" "i32"],
    [plainField "path" "String"]]
  resolves := by decide +kernel

/-- serde on `String`, and on the alias `UUID` of it. -/
def stringCodec : Codec := ⟨String, .string, Value.asStr⟩

/-- serde on `i32`. -/
def i32Codec : Codec where
  Val := { i : ℤ // -2 ^ 31 ≤ i ∧ i < 2 ^ 31 }
  encode i := .ofInt i.1
  decode v := v.asI64.bind fun i => if h : -2 ^ 31 ≤ i ∧ i < 2 ^ 31 then some ⟨i, h⟩ else none

/-- serde on the field types of `ConnectionRefParameters`. -/
def connectionCodec (rustType : String) : Codec :=
  if rustType = "i32" then i32Codec else stringCodec

/-- A `PosixFsConnectionParameters` with its location and file system type. -/
def posixConnection : Choice (serdeWire connectionCodec) connectionUnion.members where
  index := ⟨1, by decide⟩
  value := .cons (some "server:/vol") (.cons (some "glusterfs") (.cons none .nil))

/-- The members have different keys, and it comes back as the first of them. -/
theorem posixConnection_decodes_as_iscsi :
    (connectionUnion.members.map fun m => m.map Field.wireName).Nodup ∧
      decodeUnion (serdeWire connectionCodec) connectionUnion.members posixConnection.encode
        ≠ some posixConnection := by
  refine ⟨by decide +kernel, fun h => ?_⟩
  have hfirst : (decodeUnion (serdeWire connectionCodec) connectionUnion.members
      posixConnection.encode).map Choice.index = some ⟨0, by decide⟩ := by decide +kernel
  rw [h] at hfirst
  exact absurd hfirst (by decide)

end Vdsm.Schema
