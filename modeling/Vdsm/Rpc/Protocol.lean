import Mathlib.Algebra.Group.Nat.Defs
import Mathlib.Tactic.Common
import Mathlib.Data.Int.Notation

/-!
# JSON values and the JSON-RPC 2.0 envelope (`vdsm-rpc/src/protocol.rs`)

`Value` is `serde_json::Value`. Objects are association lists, of which `get` reads the first entry
with a key. A float is kept as its bit pattern: nothing computes with it.
-/

namespace Vdsm

/-! ## JSON values -/

/-- `serde_json::Number`: a `u64`, a negative `i64` (`negInt m` is `-(m + 1)`), or an `f64`. -/
inductive Number where
  | posInt (n : UInt64)
  | negInt (m : Fin (2 ^ 63))
  | float (bits : UInt64)
deriving DecidableEq, Repr

/-- `serde_json::Value`. -/
inductive Value where
  | null
  | bool (b : Bool)
  | number (n : Number)
  | string (s : String)
  | array (xs : List Value)
  | object (fields : List (String × Value))

namespace Value

/-- `v.get(key)`: `None` on anything but an object. -/
def get (key : String) : Value → Option Value
  | object fields => (fields.find? fun f => f.1 == key).map Prod.snd
  | _ => none

def asStr : Value → Option String
  | string s => some s
  | _ => none

def asArray : Value → Option (List Value)
  | array xs => some xs
  | _ => none

def asObject : Value → Option (List (String × Value))
  | object fields => some fields
  | _ => none

def asU64 : Value → Option UInt64
  | number (.posInt n) => some n
  | _ => none

def asI64 : Value → Option ℤ
  | number (.posInt n) => if n.toNat < 2 ^ 63 then some n.toNat else none
  | number (.negInt m) => some (-(m.val + 1 : ℤ))
  | _ => none

/-- The JSON number of a machine integer. -/
def ofInt (i : ℤ) : Value :=
  if 0 ≤ i then number (.posInt i.toNat.toUInt64)
  else number (.negInt ⟨(-i - 1).toNat % 2 ^ 63, Nat.mod_lt _ (by decide)⟩)

/-- An object field that is skipped when it is `None`. -/
def optionalField (key : String) (v : Option Value) : List (String × Value) :=
  match v with
  | some v => [(key, v)]
  | none => []

end Value

/-! ## The envelope -/

/-- `Request`. A missing or `null` id is a notification. -/
structure Request where
  jsonrpc : String
  method : String
  params : Value
  id : Option Value

/-- `JsonRpcError`. -/
structure JsonRpcError where
  code : ℤ
  message : String
  data : Option Value

namespace JsonRpcError

def parseError (msg : String) : JsonRpcError := ⟨-32700, msg, none⟩

def methodNotFound (method : String) : JsonRpcError :=
  ⟨-32601, s!"Method not found: {method}", none⟩

def invalidParams (msg : String) : JsonRpcError := ⟨-32602, msg, none⟩

def internal (msg : String) : JsonRpcError := ⟨-32603, msg, none⟩

/-- `Serialize for JsonRpcError`. -/
def toJson (e : JsonRpcError) : Value :=
  .object ([("code", .ofInt e.code), ("message", .string e.message)] ++
    Value.optionalField "data" e.data)

end JsonRpcError

/-- `Response`. -/
structure Response where
  jsonrpc : String
  id : Option Value
  result : Option Value
  error : Option JsonRpcError

namespace Response

def ok (id : Option Value) (result : Value) : Response := ⟨"2.0", id, some result, none⟩

def err (id : Option Value) (error : JsonRpcError) : Response := ⟨"2.0", id, none, some error⟩

/-- `Serialize for Response`: fields that are `None` are left out. -/
def toJson (r : Response) : Value :=
  .object ([("jsonrpc", .string r.jsonrpc)] ++
    Value.optionalField "id" r.id ++
    Value.optionalField "result" r.result ++
    Value.optionalField "error" (r.error.map JsonRpcError.toJson))

/-- A JSON object carries an id and exactly one of `result` and `error`. -/
def Carries (v i : Value) : Prop :=
  v.get "id" = some i ∧ ((v.get "result").isSome ↔ v.get "error" = none)

/-- A success has the id of its request and a result. -/
theorem carries_ok (i result : Value) : Carries (ok (some i) result).toJson i := by
  simp [Carries, ok, toJson, Value.optionalField, Value.get]

/-- A failure has the id of its request and an error. -/
theorem carries_err (i : Value) (e : JsonRpcError) : Carries (err (some i) e).toJson i := by
  simp [Carries, err, toJson, Value.optionalField, Value.get]

end Response

end Vdsm
