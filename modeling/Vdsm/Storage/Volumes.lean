import Vdsm.Lib.KeyValue
import Vdsm.Lib.MakeDirs
import Vdsm.Storage.ImageDelete

/-!
# Volumes (`vdsm-storage/src/volumes.rs`)

A volume of a file domain is a file with a sidecar, one of a block domain an LV with a sidecar below
the state directory. The verbs are functions on a `Store`: the file system and the LVs, and a trace of
what the verb did, file by file and op by op. What the host decides (the outcome of commands, refused
writes, what `qemu-img` leaves at its target) is an `Env`.
-/

namespace Vdsm.Storage

open Rust FileSystem Supervdsm

/-- An operation on files. -/
inductive FileOp where
  | createDirAll
  /-- A directory that was made by a `create_dir_all`. -/
  | createDir
  | createImage
  | write
  | read
  | metadata
  | exists
  | removeFile
  | readDir
  | removeDirAll
deriving DecidableEq, Repr

/-- One thing a verb does: an operation on a file, the use of a device node, a privileged op. -/
inductive Act where
  | file (op : FileOp) (path : String)
  | device (path : String)
  | priv (op : PrivOp)
deriving DecidableEq, Repr

/-- What the verbs change, and what they did. -/
structure Store extends State where
  trace : List Act

/-- What the host decides. -/
structure Env where
  host : Host
  faults : Faults
  /-- The seconds since the epoch. -/
  now : UInt64
  /-- What `qemu-img`, called with these arguments, leaves in the file it is to create. -/
  qemuFile : List String → Option (List UInt8)
  deviceExists : String → Bool
  dirLength : String → ℕ

/-! ## Steps -/

/-- The paths of the directories that `create_dir_all` makes, on the way to its argument too. -/
def madePaths (env : Env) (fs : Fs) (path : String) : List String :=
  ((fs.createDirAll env.faults path).2.newSince fs).map (joinAll "/")

/-- `create_dir_all`, with the directories that it makes. -/
def Store.createDirAll (env : Env) (path : String) (st : Store) : Except IoError Unit × Store :=
  let out := st.fs.createDirAll env.faults path
  let made := (madePaths env st.fs path).map (.file .createDir)
  (out.1, { st with fs := out.2, trace := st.trace ++ .file .createDirAll path :: made })

/-- The acts of a `create_dir_all`, as far as they are of interest. -/
theorem filterMap_createDirAll {α : Type} (f : Act → Option α) (env : Env) (path : String)
    (st : Store) :
    (st.createDirAll env path).2.trace.filterMap f = st.trace.filterMap f ++
      (Act.file .createDirAll path :: (madePaths env st.fs path).map (.file .createDir)).filterMap f :=
  List.filterMap_append

/-- They are the directories that are missing on the way. -/
theorem mem_madePaths {env : Env} {fs : Fs} {path p : String} :
    p ∈ madePaths env fs path ↔ ∃ d ∈ fs.dirsToMake env.faults path, p = joinAll "/" d := by
  simp only [madePaths, List.mem_map, Fs.mem_newSince_createDirAll]
  exact exists_congr fun d => and_congr_right fun _ => eq_comm

/-- `write`. -/
def Store.write (env : Env) (path : String) (contents : List UInt8) (st : Store) :
    Except IoError Unit × Store :=
  let out := st.fs.writeFile env.faults path contents
  (out.1, { st with fs := out.2, trace := st.trace ++ [.file .write path] })

/-- `remove_file`, with its error ignored. -/
def Store.removeFile (path : String) (st : Store) : Store :=
  { st with fs := st.fs.removeFile path, trace := st.trace ++ [.file .removeFile path] }

/-- Note something that changes nothing. -/
def Store.note (a : Act) (st : Store) : Store := { st with trace := st.trace ++ [a] }

/-- The LVs after an op that succeeded. -/
def applyOp (lvs : List (String × String)) : PrivOp → List (String × String)
  | .lvcreate vg lv _ => lvs ++ [(vg, lv)]
  | .lvremove vg lv => lvs.filter (· != (vg, lv))
  | _ => lvs

/-- `run`: a privileged op, its standard output if it succeeded. -/
def Store.run (env : Env) (op : PrivOp) (st : Store) : Option String × Store :=
  let r := (execute env.host op).1
  let st := st.note (.priv op)
  if r.ok then (some r.stdout, { st with lvs := applyOp st.lvs op }) else (none, st)

/-- `qemu-img`, run to create a file. -/
def Store.createImage (env : Env) (args : List String) (path : String) (st : Store) :
    Except String Output × Store :=
  let fs := match env.qemuFile args, st.fs.resolve path with
    | some contents, some p => st.fs.putAt p (.file contents)
    | _, _ => st.fs
  (env.host.output "/usr/bin/qemu-img" args,
    { st with fs := fs, trace := st.trace ++ [.file .createImage path] })

/-! ## Parameters -/

/-- `params.get(key).and_then(Value::as_str).unwrap_or(default)`. -/
def stringParamOr (key default : String) (params : Value) : String :=
  ((params.get key).bind Value.asStr).getD default

/-- `params.get(key).and_then(Value::as_i64).unwrap_or(default)`. -/
def intParamOr (key : String) (default : ℤ) (params : Value) : ℤ :=
  ((params.get key).bind Value.asI64).getD default

/-- `u64::MAX`. -/
def u64Max : ℕ := 2 ^ 64 - 1

/-- The size of a volume in bytes, one GiB unless a decimal string is given. -/
def sizeParam (params : Value) : UInt64 :=
  ((((params.get "size").bind Value.asStr).bind (parseUnsigned u64Max)).getD 1073741824).toUInt64

/-- `ZERO_UUID`. -/
def zeroUuid : String := "00000000-0000-0000-0000-000000000000"

def volFormatStr (v : ℤ) : String := if v = 4 then "COW" else "RAW"

def volAllocStr (v : ℤ) : String := if v = 1 then "PREALLOCATED" else "SPARSE"

/-- `build_meta`. -/
def buildMeta (sizeBytes ctime : UInt64) (desc diskType sdId fmtStr imgId srcVol allocStr : String) :
    String :=
  keyLines [
    ("CAP", toString sizeBytes.toNat),
    ("CTIME", toString ctime.toNat),
    ("DESCRIPTION", desc),
    ("DISKTYPE", diskType),
    ("DOMAIN", sdId),
    ("FORMAT", fmtStr),
    ("GEN", "0"),
    ("IMAGE", imgId),
    ("LEGALITY", "LEGAL"),
    ("PUUID", srcVol),
    ("TYPE", allocStr),
    ("VOLTYPE", "LEAF")] ++ "EOF\n"

/-! ## `Volume.create` -/

/-- The sidecar of a volume: `img_dir.join(format!("{vol_id}.meta"))`. -/
def metaPath (domain imgId volId : String) : String :=
  pathJoin (imgDir domain imgId) (volId ++ ".meta")

/-- A megabyte of zeros. -/
def leaseBytes : List UInt8 := List.replicate (1024 * 1024) 0

/-- The arguments of `qemu-img` for a file. -/
def qemuArgs (qemuFmt allocStr path : String) (sizeBytes : UInt64) : List String :=
  ["create", "-f", qemuFmt] ++
    (if allocStr = "PREALLOCATED" then ["-o", "preallocation=falloc"] else []) ++
    [path, toString sizeBytes.toNat]

/-- `create_file_volume`. -/
def createFileVolume (env : Env) (sdPath imgId volId : String) (sizeBytes : UInt64)
    (qemuFmt allocStr metaBlob : String) (st : Store) : Except JsonRpcError Unit × Store :=
  let dir := imgDir sdPath imgId
  match st.createDirAll env dir with
  | (.error e, st) =>
    let text := e.display
    (.error (.internal s!"mkdir {dir}: {text}"), st)
  | (.ok _, st) =>
    let volPath := pathJoin dir volId
    match st.createImage env (qemuArgs qemuFmt allocStr volPath sizeBytes) volPath with
    | (.error e, st) => (.error (.internal s!"qemu-img spawn: {e}"), st)
    | (.ok out, st) =>
      if !out.success then
        let err := fromUtf8Lossy out.stderr
        (.error (.internal s!"qemu-img create: {err}"), st)
      else
        match st.write env (metaPath sdPath imgId volId) (asBytes metaBlob) with
        | (.error e, st) =>
          let text := e.display
          (.error (.internal s!"write .meta: {text}"), st)
        | (.ok _, st) =>
          (.ok (), (st.write env (pathJoin dir (volId ++ ".lease")) leaseBytes).2)

/-- 128 MiB. -/
def extentBytes : UInt64 := 128 * 1024 * 1024

/-- `size_bytes.div_ceil(extent_bytes) * extent_bytes`. -/
def roundToExtents (sizeBytes : UInt64) : UInt64 :=
  (sizeBytes / extentBytes + if sizeBytes % extentBytes > 0 then 1 else 0) * extentBytes

/-- The sidecar of a block volume, the last step of `create_block_volume`. -/
def writeBlockMeta (env : Env) (stateDir imgId volId metaBlob : String) (st : Store) :
    Except JsonRpcError Unit × Store :=
  let dir := imgDir stateDir imgId
  match st.createDirAll env dir with
  | (.error e, st) =>
    let text := e.display
    (.error (.internal s!"mkdir state {dir}: {text}"), st)
  | (.ok _, st) =>
    match st.write env (metaPath stateDir imgId volId) (asBytes metaBlob) with
    | (.error e, st) =>
      let text := e.display
      (.error (.internal s!"write block .meta: {text}"), st)
    | (.ok _, st) => (.ok (), st)

/-- `create_block_volume`. -/
def createBlockVolume (env : Env) (vg stateDir imgId volId : String) (sizeBytes : UInt64)
    (qemuFmt metaBlob : String) (st : Store) : Except JsonRpcError Unit × Store :=
  let rounded := roundToExtents sizeBytes
  match st.run env (.lvcreate vg volId rounded) with
  | (none, st) => (.error (.internal s!"lvcreate failed for {vg}/{volId}"), st)
  | (some _, st) =>
    if qemuFmt = "qcow2" then
      let dev := s!"/dev/{vg}/{volId}"
      let st := st.note (.device dev)
      match env.host.output "/usr/bin/qemu-img"
          ["create", "-f", "qcow2", dev, toString sizeBytes.toNat] with
      | .error e => (.error (.internal s!"qemu-img spawn: {e}"), st)
      | .ok out =>
        if !out.success then
          let err := fromUtf8Lossy out.stderr
          -- the LV is rolled back here, and only here
          let st := (st.run env (.lvremove vg volId)).2
          (.error (.internal s!"qemu-img create qcow2-on-LV: {err}"), st)
        else writeBlockMeta env stateDir imgId volId metaBlob st
    else writeBlockMeta env stateDir imgId volId metaBlob st

/-- The two sidecar paths of a volume differ in their suffix. -/
theorem metaPath_eq (domain imgId volId : String) :
    metaPath domain imgId volId = pathJoin (imgDir domain imgId) volId ++ ".meta" :=
  pathJoin_append _ _ (by decide)

/-- A write that succeeds changes the file system only. -/
theorem write_eq_ok {env : Env} {path : String} {contents : List UInt8} {st st' : Store} {u : Unit}
    (h : st.write env path contents = (.ok u, st')) :
    st.fs.writeFile env.faults path contents = (.ok (), st'.fs) ∧ st'.lvs = st.lvs := by
  obtain ⟨hok, rfl⟩ := Prod.mk.inj h
  exact ⟨Prod.ext hok rfl, rfl⟩

/-- A file volume that was created has its sidecar. -/
theorem createFileVolume_ok {env : Env} {sdPath imgId volId qemuFmt allocStr metaBlob : String}
    {sizeBytes : UInt64} {st st' : Store}
    (h : createFileVolume env sdPath imgId volId sizeBytes qemuFmt allocStr metaBlob st
      = (.ok (), st')) : st'.fs.Holds (metaPath sdPath imgId volId) (asBytes metaBlob) := by
  simp only [createFileVolume] at h
  split at h
  · simp at h
  · split at h
    · simp at h
    · split at h
      · simp at h
      · split at h
        · simp at h
        · rename_i st₂ _ st₃ hwrite
          obtain ⟨-, rfl⟩ := Prod.mk.inj h
          have hmeta := Fs.holds_writeFile (write_eq_ok hwrite).1
          -- the lease is written elsewhere
          rw [metaPath_eq] at hmeta ⊢
          rw [pathJoin_append _ _ (by decide)]
          exact hmeta.writeFile (by decide) (by decide) (by decide)

/-- After its success the metadata file holds the metadata, and no file is gone. -/
theorem writeBlockMeta_ok {env : Env} {stateDir imgId volId metaBlob : String} {st st' : Store}
    (h : writeBlockMeta env stateDir imgId volId metaBlob st = (.ok (), st')) :
    st'.fs.Holds (metaPath stateDir imgId volId) (asBytes metaBlob) ∧ st'.lvs = st.lvs ∧
      ∀ p, st.fs.isFile p = true → st'.fs.isFile p = true := by
  simp only [writeBlockMeta] at h
  split at h
  · simp at h
  · rename_i st₁ hmkdir
    split at h
    · simp at h
    · rename_i st₂ hwrite
      obtain ⟨-, rfl⟩ := Prod.mk.inj h
      obtain ⟨hwritten, hlvs⟩ := write_eq_ok hwrite
      obtain ⟨-, rfl⟩ := Prod.mk.inj hmkdir
      refine ⟨Fs.holds_writeFile hwritten, hlvs, ?_⟩
      intro p hp
      obtain ⟨contents, hentry⟩ := Fs.isFile_iff.mp hp
      obtain ⟨q, -, -, hlookup⟩ := Fs.lookup_writeFile hwritten
      have hentry' := hlookup p
      split_ifs at hentry'
      · exact Fs.isFile_iff.mpr ⟨_, hentry'⟩
      · exact Fs.isFile_iff.mpr ⟨_, hentry'.trans (Fs.lookup_createDirAll_of_some hentry)⟩

/-- An operation that goes through changes the LVs as it says, and no file. -/
theorem run_eq_some {env : Env} {op : PrivOp} {st st' : Store} {out : String}
    (h : st.run env op = (some out, st')) :
    (execute env.host op).1.ok = true ∧ st'.fs = st.fs ∧ st'.lvs = applyOp st.lvs op := by
  simp only [Store.run] at h
  split_ifs at h with hok
  · obtain ⟨-, rfl⟩ := Prod.mk.inj h
    exact ⟨hok, rfl, rfl⟩
  · simp at h

/-- A block volume that was created has its LV and its sidecar, and took no sidecar away. -/
theorem createBlockVolume_ok {env : Env} {vg stateDir imgId volId qemuFmt metaBlob : String}
    {sizeBytes : UInt64} {st st' : Store}
    (h : createBlockVolume env vg stateDir imgId volId sizeBytes qemuFmt metaBlob st
      = (.ok (), st')) :
    st'.fs.Holds (metaPath stateDir imgId volId) (asBytes metaBlob) ∧
      st'.lvs = st.lvs ++ [(vg, volId)] ∧
      ∀ p, st.fs.isFile p = true → st'.fs.isFile p = true := by
  simp only [createBlockVolume] at h
  split at h
  · simp at h
  · rename_i out st₁ hrun
    obtain ⟨-, hfs, hlvs⟩ := run_eq_some hrun
    have hlast : ∀ st₂ : Store, st₂.fs = st₁.fs → st₂.lvs = st₁.lvs →
        writeBlockMeta env stateDir imgId volId metaBlob st₂ = (.ok (), st') →
        st'.fs.Holds (metaPath stateDir imgId volId) (asBytes metaBlob) ∧
          st'.lvs = st.lvs ++ [(vg, volId)] ∧
          ∀ p, st.fs.isFile p = true → st'.fs.isFile p = true := by
      intro st₂ hfs₂ hlvs₂ hmeta
      obtain ⟨hholds, hkept, hfiles⟩ := writeBlockMeta_ok hmeta
      refine ⟨hholds, by rw [hkept, hlvs₂, hlvs]; rfl, fun p hp => hfiles p ?_⟩
      rwa [hfs₂, hfs]
    split_ifs at h
    · split at h
      · simp at h
      · split_ifs at h
        · simp at h
        · exact hlast (st₁.note _) rfl rfl h
    · exact hlast st₁ rfl rfl h

/-- The error for a domain that is neither mounted nor a VG. -/
def sdNotFound (sdId : String) : JsonRpcError := .internal s!"SD {sdId} not found"

/-- The sidecar text `Volume.create` writes for a request. -/
def volumeMeta (env : Env) (params : Value) : String :=
  buildMeta (sizeParam params) env.now (stringParam "desc" params)
    (stringParamOr "diskType" "DATA" params) (stringParam "storagedomainID" params)
    (volFormatStr (intParamOr "volFormat" 5 params)) (stringParam "imageID" params)
    (stringParamOr "srcVolUUID" zeroUuid params) (volAllocStr (intParamOr "preallocate" 0 params))

/-- `volume_create`. -/
def volumeCreate (env : Env) (params : Value) (st : Store) : Except JsonRpcError Value × Store :=
  let volId := stringParam "volumeID" params
  let sdId := stringParam "storagedomainID" params
  let imgId := stringParam "imageID" params
  let sizeBytes := sizeParam params
  if volId = "" ∨ sdId = "" ∨ imgId = "" then
    (.error (.invalidParams "volumeID/storagedomainID/imageID required"), st)
  else
    let fmtStr := volFormatStr (intParamOr "volFormat" 5 params)
    let allocStr := volAllocStr (intParamOr "preallocate" 0 params)
    let qemuFmt := if fmtStr = "COW" then "qcow2" else "raw"
    let metaBlob := volumeMeta env params
    let out := match sdBackend env.host st.toState sdId with
      | some (.file sdPath) =>
        createFileVolume env sdPath imgId volId sizeBytes qemuFmt allocStr metaBlob st
      | some (.block vgName stateDir) =>
        createBlockVolume env vgName stateDir imgId volId sizeBytes qemuFmt metaBlob st
      | none => (.error (sdNotFound sdId), st)
    match out with
    | (.error e, st) => (.error e, st)
    | (.ok _, st) => (.ok (.object [("uuid", .string volId)]), st)

/-- A volume that was created has its sidecar in the domain that was found; in a block domain its LV
is new and no sidecar is lost. -/
theorem volumeCreate_ok {env : Env} {params v : Value} {st st' : Store}
    (h : volumeCreate env params st = (.ok v, st')) :
    ∃ backend, sdBackend env.host st.toState (stringParam "storagedomainID" params) = some backend ∧
      st'.fs.Holds (metaPath backend.dir (stringParam "imageID" params)
        (stringParam "volumeID" params)) (asBytes (volumeMeta env params)) ∧
      ∀ vg stateDir, backend = .block vg stateDir →
        st'.lvs = st.lvs ++ [(vg, stringParam "volumeID" params)] ∧
          ∀ p, st.fs.isFile p = true → st'.fs.isFile p = true := by
  simp only [volumeCreate] at h
  by_cases hids : stringParam "volumeID" params = "" ∨ stringParam "storagedomainID" params = "" ∨
      stringParam "imageID" params = ""
  · simp [hids] at h
  · rw [if_neg hids] at h
    split at h
    · simp at h
    · rename_i st₁ hout
      obtain ⟨-, rfl⟩ := Prod.mk.inj h
      split at hout
      · rename_i sdPath hback
        exact ⟨_, hback, createFileVolume_ok hout, by simp⟩
      · rename_i vgName stateDir hback
        obtain ⟨hholds, hblock⟩ := createBlockVolume_ok hout
        refine ⟨_, hback, hholds, ?_⟩
        intro vg stateDir' heq
        obtain ⟨rfl, -⟩ := SdBackend.block.inj heq
        exact hblock
      · simp at hout

/-! ## `Volume.getInfo` -/

/-- `lv_size_bytes`. -/
def lvSizeBytes (host : Host) (vg lv : String) : Option ℕ :=
  match host.output "/usr/sbin/lvs"
      ["--noheadings", "--units", "B", "--nosuffix", "-o", "lv_size", s!"{vg}/{lv}"] with
  | .error _ => none
  | .ok out => if !out.success then none else parseUnsigned u64Max (trim (fromUtf8Lossy out.stdout))

/-- `metadata(path).map(|md| md.len()).unwrap_or(0)`; the length of a directory is the host's. -/
def fileLength (env : Env) (fs : Fs) (path : String) : ℕ :=
  match fs.readFile path with
  | .ok contents => contents.length
  | .error .isADirectory => env.dirLength path
  | .error _ => 0

/-- The answer of `Volume.getInfo`, from the fields of the sidecar. -/
def volumeInfo (volId imgId sdId : String) (apparent : ℕ) (m : HashMap String String) : Value :=
  let g := fun k => Value.string ((m.lookup k).getD "")
  .object [
    ("uuid", .string volId),
    ("image", .string imgId),
    ("domain", .string sdId),
    ("voltype", g "VOLTYPE"),
    ("format", g "FORMAT"),
    ("type", g "TYPE"),
    ("disktype", g "DISKTYPE"),
    ("capacity", g "CAP"),
    ("apparentsize", .string (toString apparent)),
    ("truesize", .string (toString apparent)),
    ("parent", g "PUUID"),
    ("description", g "DESCRIPTION"),
    ("legality", g "LEGALITY"),
    ("ctime", g "CTIME"),
    ("mtime", .string "0"),
    ("status", .string "OK"),
    ("children", .array [])]

/-- `read_to_string`. -/
def readToString (fs : Fs) (path : String) : Except String String :=
  match fs.readFile path with
  | .error e => .error e.display
  | .ok bytes =>
    match fromUtf8 bytes with
    | .error _ => .error "stream did not contain valid UTF-8"
    | .ok text => .ok text

/-- `volume_get_info`. -/
def volumeGetInfo (env : Env) (params : Value) (st : Store) : Except JsonRpcError Value × Store :=
  let volId := stringParam "volumeID" params
  let sdId := stringParam "storagedomainID" params
  let imgId := stringParam "imageID" params
  match sdBackend env.host st.toState sdId with
  | none => (.error (sdNotFound sdId), st)
  | some backend =>
    let (apparent, st) := match backend with
      | .file sdPath =>
        let volPath := pathJoin (imgDir sdPath imgId) volId
        (fileLength env st.fs volPath, st.note (.file .metadata volPath))
      | .block vgName _ => ((lvSizeBytes env.host vgName volId).getD 0, st)
    let path := metaPath backend.dir imgId volId
    let st := st.note (.file .read path)
    match readToString st.fs path with
    | .error e => (.error (.internal s!"read meta: {e}"), st)
    | .ok content => (.ok (volumeInfo volId imgId sdId apparent (parseKeyValues content)), st)

/-! ## Deletion and preparation -/

/-- `volume_delete`. -/
def volumeDelete (env : Env) (params : Value) (st : Store) : Except JsonRpcError Value × Store :=
  let volId := stringParam "volumeID" params
  let sdId := stringParam "storagedomainID" params
  let imgId := stringParam "imageID" params
  let st := match sdBackend env.host st.toState sdId with
    | some (.file sdPath) =>
      let dir := imgDir sdPath imgId
      ((st.removeFile (pathJoin dir volId)).removeFile (metaPath sdPath imgId volId)).removeFile
        (pathJoin dir (volId ++ ".lease"))
    | some (.block vgName stateDir) =>
      -- the sidecar goes whatever became of the LV
      (st.run env (.lvremove vgName volId)).2.removeFile (metaPath stateDir imgId volId)
    | none => st
  (.ok (.object []), st)

/-- `image_prepare`. -/
def imagePrepare (env : Env) (params : Value) (st : Store) : Except JsonRpcError Value × Store :=
  let volId := stringParam "volumeID" params
  let sdId := stringParam "storagedomainID" params
  let imgId := stringParam "imageID" params
  match sdBackend env.host st.toState sdId with
  | some (.file sdPath) =>
    let volPath := pathJoin (imgDir sdPath imgId) volId
    let st := st.note (.file .exists volPath)
    if !st.fs.pathExists volPath then (.error (.internal s!"volume {volPath} missing"), st)
    else (.ok (.object [("path", .string volPath)]), st)
  | some (.block vgName _) =>
    match st.run env (.lvchange vgName volId true) with
    | (none, st) => (.error (.internal s!"lvchange -ay {vgName}/{volId}"), st)
    | (some _, st) =>
      let dev := s!"/dev/{vgName}/{volId}"
      let st := st.note (.device dev)
      if !env.deviceExists dev then (.error (.internal s!"device {dev} did not appear"), st)
      else (.ok (.object [("path", .string dev)]), st)
  | none => (.error (sdNotFound sdId), st)

/-- `image_delete`, with its trace. The LVs removed for the listed sidecars are not in it. -/
def imageDeleteTraced (env : Env) (params : Value) (st : Store) :
    Except JsonRpcError Value × Store :=
  let out := imageDelete env.host params st.toState
  let imgId := stringParam "imageID" params
  let acts := match sdBackend env.host st.toState (stringParam "storagedomainID" params) with
    | some (.file sdPath) => [.file .removeDirAll (imgDir sdPath imgId)]
    | some (.block _ stateDir) =>
      [.file .readDir (imgDir stateDir imgId), .file .removeDirAll (imgDir stateDir imgId)]
    | none => []
  (out.1, ⟨out.2, st.trace ++ acts⟩)

/-- `image_delete_volumes`. -/
def imageDeleteVolumes (host : Host) (params : Value) (s : State) :
    Except JsonRpcError Value × State :=
  imageDelete host params s

/-! ## A block domain -/

/-- A host with one VG, on which `lvremove` works or not. -/
def vgHost (removes : Bool) : Host where
  output bin _ :=
    if bin = "/usr/sbin/vgs" then .ok ⟨true, some 0, asBytes "  vg\n", []⟩
    else if bin = "/usr/sbin/lvremove" then .ok ⟨removes, some (if removes then 0 else 5), [], []⟩
    else .ok ⟨true, some 0, [], []⟩
  scsiHosts := .ok []
  writeError _ := none

/-- That host, with an idle file system. -/
def vgEnv (removes : Bool) : Env where
  host := vgHost removes
  faults := .none
  now := 0
  qemuFile _ := some []
  deviceExists _ := true
  dirLength _ := 4096

/-- The VG with one LV, and its sidecar. -/
def oneLv : Store where
  fs := (((((((Fs.empty.put [] "var" .dir).put ["var"] "lib" .dir).put ["var", "lib"] "vdsm" .dir).put
    ["var", "lib", "vdsm"] "sd" .dir).put stateLocation "vg" .dir).put
    (stateLocation ++ ["vg"]) "images" .dir).put (stateLocation ++ ["vg", "images"]) "disk" .dir).put
    (stateLocation ++ ["vg", "images", "disk"]) "vol.meta" (.file [])
  lvs := [("vg", "vol")]
  trace := []

end Vdsm.Storage
