import Vdsm.Lib.MountTable
import Vdsm.Storage.Domain

/-!
# Storage servers (`vdsm-storage/src/verbs.rs`)

`connectStorageServer` mounts the exports it is given one after the other, each unless something is
mounted at its mount point already, or logs in to iSCSI targets; `disconnectStorageServer` unmounts
them. Both keep the registry of connections. A `Server` is a host seen by them: its files, its mounts
below `mntBase`, the registry.
-/

namespace Vdsm.Storage

open Rust FileSystem Supervdsm MountTable

/-- What the verbs change. -/
structure Server where
  store : Store
  /-- The mounts at or below `mntBase`, oldest first. -/
  mounts : List Mount
  /-- `CONNECTIONS`. -/
  connections : List StorageServerConnection

/-- What the host decides, for one connection. -/
structure ServerEnv extends Env where
  /-- Does a call to supervdsmd come back? -/
  reaches : PrivOp → Bool
  /-- Is the op of a call that does not come back carried out all the same? -/
  unanswered : PrivOp → Bool
  readsMountinfo : Bool
  /-- The tree that is seen after a mount came or went. -/
  shows : Fs → Fs

/-! ## Connection specs -/

/-- A field with `#[serde(default)]`: absent it is empty, and anything but a string is an error. -/
def defaultField (key : String) (v : Value) : Option String :=
  match v.get key with
  | none => some ""
  | some x => x.asStr

/-- `Deserialize` of a spec. Derived code takes the fields by name from an object, or by position from
an array. -/
def StorageServerConnection.ofValue : Value → Option StorageServerConnection
  | .object fields => do
    let v := Value.object fields
    let id ← (v.get "id").bind Value.asStr
    let connection ← (v.get "connection").bind Value.asStr
    let vfsType ← defaultField "vfs_type" v
    let mntOptions ← defaultField "mnt_options" v
    let protocolVersion ← defaultField "protocol_version" v
    some ⟨id, connection, vfsType, mntOptions, protocolVersion⟩
  | .array (.string id :: .string connection :: rest) =>
    if rest.length ≤ 3 then do
      let more ← rest.mapM Value.asStr
      some ⟨id, connection, more.getD 0 "", more.getD 1 "", more.getD 2 ""⟩
    else none
  | _ => none

/-- The specs of a request. One that is not understood loses all. -/
def conList (params : Value) : List StorageServerConnection :=
  (((params.get "connectionParams").or (params.get "conList")).bind fun v =>
    v.asArray.bind fun xs => xs.mapM StorageServerConnection.ofValue).getD []

/-! ## Steps -/

/-- `supervdsm::call`; `none` is a transport error. -/
def Server.call (env : ServerEnv) (op : PrivOp) (w : Server) : Option PrivResult × Server :=
  (if env.reaches op then some (execute env.host op).1 else none,
    { w with store := w.store.note (.priv op) })

/-- `supervdsm::run`. -/
def Server.run (env : ServerEnv) (op : PrivOp) (w : Server) : Option String × Server :=
  let (r, w) := w.call env op
  ((r.filter (·.ok)).map (·.stdout), w)

/-- Does supervdsmd carry an op out, whether its reply gets back or not? -/
def ServerEnv.performs (env : ServerEnv) (op : PrivOp) : Bool :=
  (env.reaches op || env.unanswered op) && (execute env.host op).1.ok

/-- `is_mounted`. -/
def Server.isMounted (env : ServerEnv) (mp : String) (w : Server) : Bool :=
  env.readsMountinfo && MountTable.isMounted (mountinfo w.mounts) mp

/-- The host after a mount, one that neither mounts a tree (`rbind`) nor changes what is mounted
(`move`, `remount`). -/
def Server.mounted (env : ServerEnv) (m : Mount) (w : Server) : Server :=
  { w with
    store := { w.store with fs := env.shows w.store.fs }
    mounts := w.mounts ++ [m] }

/-- The host after the last mount at a path is gone. -/
def Server.unmounted (env : ServerEnv) (mp : String) (w : Server) : Server :=
  { w with
    store := { w.store with fs := env.shows w.store.fs }
    mounts := (w.mounts.reverse.eraseP fun m => m.location == components mp).reverse }

/-- The targets of a discovery: the second word of each line. -/
def discovered (raw : String) : List String :=
  (lines raw).filterMap fun l => (splitWhitespace l)[1]?

/-- `iscsi_login_one`. -/
def iscsiLoginOne (env : ServerEnv) (spec : StorageServerConnection) (w : Server) : ℤ × Server :=
  if spec.connection = "" then (22, w)
  else
    let portal := spec.connection
    match w.run env (.iscsiDiscover portal) with
    | (none, w) => (101, w)
    | (some raw, w) =>
      let iqns := discovered raw
      if iqns = [] then (101, w)
      else
        -- one login is enough
        let (ok, w) := iqns.foldl (fun (ok, w) iqn =>
          let (r, w) := w.run env (.iscsiLogin iqn portal)
          (ok || r.isSome, w)) (false, w)
        (if ok then 0 else 101, w)

/-- The file system of a domain type, where the spec names none. -/
def defaultVfs (domainType : ℤ) : String :=
  if domainType = 5 then "cifs" else if domainType = 7 then "auto" else if domainType = 4 then "none"
  else if domainType = 8 then "glusterfs" else "nfs"

/-- `mount_one`. -/
def mountOne (env : ServerEnv) (domainType : ℤ) (spec : StorageServerConnection) (w : Server) :
    ℤ × Server :=
  if domainType = 2 then (0, w)
  else if domainType = 3 then iscsiLoginOne env spec w
  else
    let mp := spec.mountpoint
    match w.store.createDirAll env.toEnv mp with
    | (.error _, store) => (13, { w with store := store })
    | (.ok _, store) =>
      let w := { w with store := store }
      -- whatever is mounted there
      if w.isMounted env mp then (0, w)
      else
        let vfs := if spec.vfsType ≠ "" then spec.vfsType else defaultVfs domainType
        let op := .mount vfs spec.connection mp spec.mntOptions
        match w.call env op with
        | (some r, w) => if r.ok then (0, w.mounted env ⟨spec.connection, mp⟩) else (100, w)
        -- only the reply may be lost
        | (none, w) => (13, if env.performs op then w.mounted env ⟨spec.connection, mp⟩ else w)

/-- The registry takes a spec with status 0. -/
def Server.register (status : ℤ) (spec : StorageServerConnection) (w : Server) : Server :=
  if status = 0 then { w with connections := w.connections ++ [spec] } else w

/-- The loop of `connect_storage_server`, with the environment of each spec. -/
def connectAll (envs : ℕ → ServerEnv) (domainType : ℤ) :
    ℕ → List StorageServerConnection → Server → List (String × ℤ) × Server
  | _, [], w => ([], w)
  | n, spec :: specs, w =>
    let (status, w) := mountOne (envs n) domainType spec w
    let w := w.register status spec
    let (statuses, w) := connectAll envs domainType (n + 1) specs w
    ((spec.id, status) :: statuses, w)

/-- A bare list of statuses. -/
def statusList (statuses : List (String × ℤ)) : Value :=
  .array (statuses.map fun s => .object [("id", .string s.1), ("status", .ofInt s.2)])

/-- `connect_storage_server`. -/
def connectStorageServer (envs : ℕ → ServerEnv) (params : Value) (w : Server) :
    Except JsonRpcError Value × Server :=
  let domainType := intParamOr "domainType" 1 params
  let (statuses, w) := connectAll envs domainType 0 (conList params) w
  (.ok (statusList statuses), w)

/-- One turn of the loop of `disconnect_storage_server`. -/
def disconnectOne (env : ServerEnv) (spec : StorageServerConnection) (w : Server) : ℤ × Server :=
  let mp := spec.mountpoint
  let (status, w) :=
    if w.isMounted env mp then
      match w.call env (.umount mp) with
      | (some r, w) => if r.ok then (0, w.unmounted env mp) else (16, w)
      | (none, w) => (16, if env.performs (.umount mp) then w.unmounted env mp else w)
    else (0, w)
  (status, { w with connections := w.connections.filter fun c => c.id != spec.id })

/-- The loop. -/
def disconnectAll (envs : ℕ → ServerEnv) :
    ℕ → List StorageServerConnection → Server → List (String × ℤ) × Server
  | _, [], w => ([], w)
  | n, spec :: specs, w =>
    let (status, w) := disconnectOne (envs n) spec w
    let (statuses, w) := disconnectAll envs (n + 1) specs w
    ((spec.id, status) :: statuses, w)

/-- `disconnect_storage_server`. -/
def disconnectStorageServer (envs : ℕ → ServerEnv) (params : Value) (w : Server) :
    Except JsonRpcError Value × Server :=
  let (statuses, w) := disconnectAll envs 0 (conList params) w
  (.ok (statusList statuses), w)

end Vdsm.Storage
