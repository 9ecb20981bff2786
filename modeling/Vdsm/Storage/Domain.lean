import Vdsm.Storage.Volumes

/-!
# Storage domains (`vdsm-storage/src/domain.rs`)

`StorageDomain.create` lays out a domain on the mount of its `typeArgs`, or below the state directory
of a VG, and writes its metadata as a key-value text; `StorageDomain.getInfo` reads the text back.
-/

namespace Vdsm.Storage

open Rust FileSystem Supervdsm

def classToStr (c : ℤ) : String :=
  if c = 2 then "Iso" else if c = 3 then "Backup" else "Data"

def typeToStr (t : ℤ) : String :=
  if t = 1 then "NFS" else if t = 2 then "FCP" else if t = 3 then "ISCSI"
  else if t = 4 then "LOCALFS" else if t = 5 then "CIFS" else if t = 7 then "POSIXFS" else "NFS"

def isBlockType (t : ℤ) : Bool := t == 2 || t == 3

/-- `ONE_MIB`. -/
def oneMib : ℕ := 1024 * 1024

/-- The parameters of `StorageDomain.create`. -/
structure CreateParams where
  sdUuid : String
  typeargs : String
  name : String
  domainClass : ℤ
  domainType : ℤ
  blockSize : ℤ
  version : ℤ

/-- The parameters, with their defaults. -/
def CreateParams.ofValue (params : Value) : CreateParams where
  sdUuid := stringParam "storagedomainID" params
  typeargs := stringParam "typeArgs" params
  name := stringParamOr "name" "nfs" params
  domainClass := intParamOr "domainClass" 1 params
  domainType := intParamOr "domainType" 1 params
  blockSize := intParamOr "blockSize" 512 params
  version := intParamOr "version" 5 params

namespace CreateParams

/-- `remote_path`: the VG of a block domain, the export of a file domain. -/
def remotePath (p : CreateParams) : String :=
  if isBlockType p.domainType then p.sdUuid else p.typeargs

/-- The fields after the name of the domain. -/
def tailFields (p : CreateParams) : List (String × String) := [
  ("IOOPTIMEOUTSEC", "10"),
  ("LEASERETRIES", "3"),
  ("LEASETIMESEC", "60"),
  ("LOCKPOLICY", ""),
  ("LOCKRENEWALINTERVALSEC", "5"),
  ("MASTER_VERSION", "0"),
  ("POOL_UUID", ""),
  ("REMOTE_PATH", p.remotePath),
  ("ROLE", "Regular"),
  ("SDUUID", p.sdUuid),
  ("TYPE", typeToStr p.domainType),
  ("VERSION", toString p.version),
  ("_SHA_CKSUM", "0000000000000000000000000000000000000000000000000000000000000000")]

/-- The metadata text. -/
def metadata (p : CreateParams) : String :=
  keyLines ([
    ("ALIGNMENT", "1048576"),
    ("BLOCK_SIZE", toString p.blockSize),
    ("CLASS", classToStr p.domainClass),
    ("DESCRIPTION", p.name)] ++ p.tailFields)

/-- Where a file domain is mounted. -/
def mountpoint (p : CreateParams) : String :=
  StorageServerConnection.mountpoint ⟨"", p.typeargs, "", "", ""⟩

/-- The directory of the new domain. -/
def sdDir (p : CreateParams) : String :=
  pathJoin (if isBlockType p.domainType then blockSdStateBase else p.mountpoint) p.sdUuid

/-- `dom_md`. -/
def domMd (p : CreateParams) : String := pathJoin p.sdDir "dom_md"

/-- The directories of the layout. -/
def layout (p : CreateParams) : List String :=
  let master := pathJoin p.sdDir "master"
  let images := pathJoin p.sdDir "images"
  if isBlockType p.domainType then [p.sdDir, p.domMd, master, images]
  else [p.sdDir, p.domMd, master, pathJoin master "tasks", pathJoin master "vms", images]

end CreateParams

/-- The loop over the directories of the layout. -/
def createDirs (env : Env) : List String → Store → Except JsonRpcError Unit × Store
  | [], st => (.ok (), st)
  | d :: ds, st =>
    match st.createDirAll env d with
    | (.error e, st) =>
      let text := e.display
      (.error (.internal s!"mkdir {d}: {text}"), st)
    | (.ok _, st) => createDirs env ds st

/-- The sanlock stubs and their sizes. -/
def sanlockStubs : List (String × ℕ) :=
  [("ids", oneMib), ("leases", 2 * oneMib), ("inbox", 8 * oneMib), ("outbox", 8 * oneMib)]

/-- Write the stubs, whatever comes of it. -/
def writeStubs (env : Env) (domMd : String) (stubs : List (String × ℕ)) (st : Store) : Store :=
  stubs.foldl
    (fun st f => (st.write env (pathJoin domMd f.1) (List.replicate f.2 0)).2) st

/-- The layout, the metadata and the stubs. -/
def layOut (env : Env) (p : CreateParams) (st : Store) : Except JsonRpcError Value × Store :=
  match createDirs env p.layout st with
  | (.error e, st) => (.error e, st)
  | (.ok _, st) =>
    match st.write env (pathJoin p.domMd "metadata") (asBytes p.metadata) with
    | (.error e, st) =>
      let text := e.display
      (.error (.internal s!"write metadata: {text}"), st)
    | (.ok _, st) => (.ok (.object []), writeStubs env p.domMd sanlockStubs st)

/-- `create_storage_domain`. -/
def createStorageDomain (env : Env) (params : Value) (st : Store) :
    Except JsonRpcError Value × Store :=
  let p := CreateParams.ofValue params
  let sdUuid := p.sdUuid
  if sdUuid = "" then (.error (.invalidParams "storagedomainID required"), st)
  else if !isBlockType p.domainType ∧ p.typeargs = "" then
    (.error (.invalidParams "typeArgs required for file storage domain types"), st)
  else if isBlockType p.domainType then
    if !vgExists env.host sdUuid then
      (.error (.internal
        s!"VG {sdUuid} not present — engine should call Host.createVG first"), st)
    else layOut env p st
  else
    let mp := p.mountpoint
    let st := st.note (.file .exists mp)
    if !st.fs.pathExists mp then
      (.error (.internal
        s!"mountpoint {mp} not present — was connectStorageServer called first?"), st)
    else layOut env p st

/-- Where `StorageDomain.getInfo` looks for the metadata of a domain. -/
def metadataPath (domain : String) : String := pathJoin (pathJoin domain "dom_md") "metadata"

/-- The answer of `StorageDomain.getInfo`, from the fields of the metadata. -/
def domainInfo (sdUuid : String) (m : HashMap String String) : Value :=
  let g := fun k => Value.string ((m.lookup k).getD "")
  .object [
    ("uuid", .string sdUuid),
    ("type", g "TYPE"),
    ("class", g "CLASS"),
    ("name", g "DESCRIPTION"),
    ("role", g "ROLE"),
    ("pool", .array []),
    ("version", g "VERSION"),
    ("remotePath", g "REMOTE_PATH"),
    ("alignment", g "ALIGNMENT"),
    ("block_size", g "BLOCK_SIZE"),
    ("master_ver", g "MASTER_VERSION"),
    ("lver", .string "-1"),
    ("spm_id", .string "-1"),
    ("state", .string "OK")]

/-- `get_storage_domain_info`. -/
def getStorageDomainInfo (env : Env) (params : Value) (st : Store) :
    Except JsonRpcError Value × Store :=
  let sdUuid := stringParam "storagedomainID" params
  if sdUuid = "" then (.error (.invalidParams "storagedomainID required"), st)
  else
    match sdBackend env.host st.toState sdUuid with
    | none => (.error (sdNotFound sdUuid), st)
    | some backend =>
      let path := metadataPath backend.dir
      let st := st.note (.file .exists path)
      if !st.fs.pathExists path then
        (.error (.internal s!"SD {sdUuid} metadata missing at {path}"), st)
      else
        let st := st.note (.file .read path)
        match readToString st.fs path with
        | .error e => (.error (.internal s!"read metadata: {e}"), st)
        | .ok content => (.ok (domainInfo sdUuid (parseKeyValues content)), st)

/-! ## What a creation leaves -/

/-- The stubs are written beside the metadata. -/
theorem holds_writeStubs {env : Env} {domMd : String} {contents : List UInt8} {st : Store}
    (stubs : List (String × ℕ))
    (hnames : ∀ f ∈ stubs, isNameSuffix f.1 = true ∧ "metadata" ≠ f.1)
    (h : st.fs.Holds (pathJoin domMd "metadata") contents) :
    (writeStubs env domMd stubs st).fs.Holds (pathJoin domMd "metadata") contents := by
  have hjoin : ∀ s : String, startsWith s "/" = false → pathJoin domMd s = pathJoin domMd "" ++ s :=
    fun s hs => by rw [← pathJoin_append domMd "" hs, String.empty_append]
  induction stubs generalizing st with
  | nil => exact h
  | cons f stubs ih =>
    obtain ⟨hsfx, hne⟩ := hnames f (by simp)
    refine ih (fun g hg => hnames g (List.mem_cons_of_mem f hg)) ?_
    rw [hjoin "metadata" (by decide)] at h ⊢
    dsimp only
    rw [hjoin f.1 (startsWith_slash_of_not_mem (not_mem_slash_of_isNameSuffix hsfx))]
    exact h.writeFile (by decide) hsfx hne

/-- A domain that was created has its metadata. -/
theorem createStorageDomain_ok {env : Env} {params v : Value} {st st' : Store}
    (h : createStorageDomain env params st = (.ok v, st')) :
    st'.fs.Holds (pathJoin (CreateParams.ofValue params).domMd "metadata")
      (asBytes (CreateParams.ofValue params).metadata) := by
  have hlayOut : ∀ st₁ : Store, layOut env (CreateParams.ofValue params) st₁ = (.ok v, st') →
      st'.fs.Holds (pathJoin (CreateParams.ofValue params).domMd "metadata")
        (asBytes (CreateParams.ofValue params).metadata) := by
    intro st₁ h
    simp only [layOut] at h
    split at h
    · simp at h
    · split at h
      · simp at h
      · rename_i st₂ hwrite
        obtain ⟨-, rfl⟩ := Prod.mk.inj h
        exact holds_writeStubs _ (by decide) (Fs.holds_writeFile (write_eq_ok hwrite).1)
  simp only [createStorageDomain] at h
  split_ifs at h
  · simp at h
  · simp at h
  · simp at h
  · exact hlayOut _ h
  · simp at h
  · exact hlayOut _ h

end Vdsm.Storage
