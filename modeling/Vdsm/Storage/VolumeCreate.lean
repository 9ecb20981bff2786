import Vdsm.Lib.FileContents
import Vdsm.Storage.Volumes

/-!
# What `Volume.create` leaves behind

The payload of a volume is a file of a file domain or an LV of a block domain. `Leaks` says when a
creation that fails leaves one, `SparedWhen` when a creation for a volume that exists fails without
touching it. Both are about the outcomes of the steps: the directories, `lvcreate`, `qemu-img`, the
sidecar.
-/

namespace Vdsm.Storage

open Rust FileSystem Supervdsm

/-! ## Payloads -/

/-- Where the file of a volume belongs. -/
def payloadAt (domain imgId volId : String) : Location :=
  cleanPath (pathJoin (imgDir domain imgId) volId)

/-- Where its sidecar belongs. -/
def sidecarAt (domain imgId volId : String) : Location := cleanPath (metaPath domain imgId volId)

/-- No payload is taken for a sidecar. -/
theorem sidecarAt_ne_payloadAt (domain imgId volId : String) :
    sidecarAt domain imgId volId ≠ payloadAt domain imgId volId := by
  rw [sidecarAt, metaPath_eq]
  exact cleanPath_append_ne (by decide)

/-- The payload of a volume is there. -/
def HasPayload (backend : Option SdBackend) (imgId volId : String) (st : Store) : Prop :=
  match backend with
  | some (.file sdPath) => (st.fs.fileAt (payloadAt sdPath imgId volId)).isSome = true
  | some (.block vg _) => (vg, volId) ∈ st.lvs
  | none => False

/-- Neither the payload of a volume nor its sidecar has changed. -/
def VolumeUntouched (backend : Option SdBackend) (imgId volId : String) (st st' : Store) : Prop :=
  match backend with
  | some (.file sdPath) =>
    st'.fs.fileAt (payloadAt sdPath imgId volId) = st.fs.fileAt (payloadAt sdPath imgId volId) ∧
      st'.fs.fileAt (sidecarAt sdPath imgId volId) = st.fs.fileAt (sidecarAt sdPath imgId volId)
  | some (.block _ stateDir) =>
    st'.lvs = st.lvs ∧
      st'.fs.fileAt (sidecarAt stateDir imgId volId) = st.fs.fileAt (sidecarAt stateDir imgId volId)
  | none => True

theorem volumeUntouched_refl (backend : Option SdBackend) (imgId volId : String) (st : Store) :
    VolumeUntouched backend imgId volId st st := by
  match backend with
  | none => trivial
  | some (.file _) => exact ⟨rfl, rfl⟩
  | some (.block _ _) => exact ⟨rfl, rfl⟩

/-- A command was run and succeeded. -/
def succeeds : Except String Output → Bool
  | .ok out => out.success
  | .error _ => false

/-! ## The steps of a file volume -/

section FileVolume

variable (env : Env) (sdPath imgId volId : String) (sizeBytes : UInt64)
  (qemuFmt allocStr metaBlob : String) (st : Store)

/-- The directory of the image. -/
def dirStep : Except IoError Unit × Store := st.createDirAll env (imgDir sdPath imgId)

/-- `qemu-img`, in that directory. -/
def imageStep : Except String Output × Store :=
  let path := pathJoin (imgDir sdPath imgId) volId
  (dirStep env sdPath imgId st).2.createImage env (qemuArgs qemuFmt allocStr path sizeBytes) path

/-- The sidecar, after that. -/
def metaStep : Except IoError Unit × Store :=
  (imageStep env sdPath imgId volId sizeBytes qemuFmt allocStr st).2.write env
    (metaPath sdPath imgId volId) (asBytes metaBlob)

/-- A file volume is created if all three succeed; else what is left is what the first of them to fail
has left. -/
theorem createFileVolume_outcome :
    let r := createFileVolume env sdPath imgId volId sizeBytes qemuFmt allocStr metaBlob st
    let dir := dirStep env sdPath imgId st
    let image := imageStep env sdPath imgId volId sizeBytes qemuFmt allocStr st
    let sidecar := metaStep env sdPath imgId volId sizeBytes qemuFmt allocStr metaBlob st
    r.1.isOk = (dir.1.isOk && succeeds image.1 && sidecar.1.isOk) ∧
      (r.1.isOk = false → r.2 =
        if dir.1.isOk then if succeeds image.1 then sidecar.2 else image.2 else dir.2) := by
  unfold createFileVolume metaStep imageStep dirStep
  dsimp only
  split
  · rename_i e st₁ heq
    rw [heq]
    exact ⟨rfl, fun _ => rfl⟩
  · rename_i st₁ heq
    rw [heq]
    dsimp only
    split
    · rename_i e st₂ heq₂
      rw [heq₂]
      exact ⟨rfl, fun _ => rfl⟩
    · rename_i out st₂ heq₂
      rw [heq₂]
      cases hout : out.success with
      | false => simp [succeeds, hout, Except.isOk, Except.toBool]
      | true =>
        rw [if_neg (by simp)]
        split
        · rename_i e st₃ heq₃
          rw [heq₃]
          simp [succeeds, hout, Except.isOk, Except.toBool]
        · rename_i st₃ heq₃
          rw [heq₃]
          simp [succeeds, hout, Except.isOk, Except.toBool]

/-- Making the directory changes no file. -/
theorem fileAt_dirStep (q : Location) : (dirStep env sdPath imgId st).2.fs.fileAt q = st.fs.fileAt q :=
  Fs.fileAt_createDirAll _ _ _ q

/-- `qemu-img` changes the payload at most. -/
theorem fileAt_imageStep {q : Location} (hq : q ≠ payloadAt sdPath imgId volId) :
    (imageStep env sdPath imgId volId sizeBytes qemuFmt allocStr st).2.fs.fileAt q = st.fs.fileAt q := by
  rw [← fileAt_dirStep env sdPath imgId st q]
  simp only [imageStep, Store.createImage]
  split
  · rename_i contents p _ hp
    exact Fs.fileAt_putAt_ne (Fs.resolve_eq_cleanPath hp ▸ hq)
  · rfl

/-- The sidecar is written elsewhere. -/
theorem payload_metaStep :
    (metaStep env sdPath imgId volId sizeBytes qemuFmt allocStr metaBlob st).2.fs.fileAt
        (payloadAt sdPath imgId volId) =
      (imageStep env sdPath imgId volId sizeBytes qemuFmt allocStr st).2.fs.fileAt
        (payloadAt sdPath imgId volId) :=
  Fs.fileAt_writeFile_ne (sidecarAt_ne_payloadAt sdPath imgId volId).symm

/-- A creation leaks its file when `qemu-img` leaves one and then either it or the sidecar fails. -/
def LeaksFile : Prop :=
  (dirStep env sdPath imgId st).1.isOk = true ∧
  ((imageStep env sdPath imgId volId sizeBytes qemuFmt allocStr st).2.fs.fileAt
    (payloadAt sdPath imgId volId)).isSome = true ∧
  (succeeds (imageStep env sdPath imgId volId sizeBytes qemuFmt allocStr st).1 = false ∨
    (metaStep env sdPath imgId volId sizeBytes qemuFmt allocStr metaBlob st).1.isOk = false)

/-- A file is spared when the directory cannot be made, or `qemu-img` leaves it as it is and then
either it or the sidecar fails, the sidecar too being left as it is. -/
def SparesFile : Prop :=
  (dirStep env sdPath imgId st).1.isOk = false ∨
  ((imageStep env sdPath imgId volId sizeBytes qemuFmt allocStr st).2.fs.fileAt
      (payloadAt sdPath imgId volId) = st.fs.fileAt (payloadAt sdPath imgId volId) ∧
    (succeeds (imageStep env sdPath imgId volId sizeBytes qemuFmt allocStr st).1 = false ∨
      (metaStep env sdPath imgId volId sizeBytes qemuFmt allocStr metaBlob st).1.isOk = false ∧
      (metaStep env sdPath imgId volId sizeBytes qemuFmt allocStr metaBlob st).2.fs.fileAt
        (sidecarAt sdPath imgId volId) = st.fs.fileAt (sidecarAt sdPath imgId volId)))

variable {env sdPath imgId volId sizeBytes qemuFmt allocStr metaBlob st}

/-- On a file domain a failure leaves no payload exactly if what was made is removed again. -/
theorem file_atomic_iff (habsent : ¬HasPayload (some (.file sdPath)) imgId volId st) :
    let r := createFileVolume env sdPath imgId volId sizeBytes qemuFmt allocStr metaBlob st
    (r.1.isOk = false → ¬HasPayload (some (.file sdPath)) imgId volId r.2) ↔
      ¬LeaksFile env sdPath imgId volId sizeBytes qemuFmt allocStr metaBlob st := by
  obtain ⟨hok, hleft⟩ :=
    createFileVolume_outcome env sdPath imgId volId sizeBytes qemuFmt allocStr metaBlob st
  have hsame := payload_metaStep env sdPath imgId volId sizeBytes qemuFmt allocStr metaBlob st
  dsimp only at hok hleft ⊢
  rw [HasPayload] at habsent
  cases hdir : (dirStep env sdPath imgId st).1.isOk with
  | false =>
    refine iff_of_true (fun hfails => ?_) (by simp [LeaksFile, hdir])
    rw [HasPayload, hleft hfails, hdir, if_neg (by simp), fileAt_dirStep]
    exact habsent
  | true =>
    cases himage : succeeds (imageStep env sdPath imgId volId sizeBytes qemuFmt allocStr st).1 with
    | false =>
      have hfails : (createFileVolume env sdPath imgId volId sizeBytes qemuFmt allocStr metaBlob
          st).1.isOk = false := by rw [hok, hdir, himage]; rfl
      rw [imp_iff_right hfails, HasPayload, hleft hfails, LeaksFile, hdir, himage]
      simp
    | true =>
      rw [hok, hdir, himage, Bool.true_and, Bool.true_and, LeaksFile, hdir, himage]
      cases hmeta : (metaStep env sdPath imgId volId sizeBytes qemuFmt allocStr metaBlob st).1.isOk with
      | true => simp
      | false =>
        rw [HasPayload, hleft (by rw [hok, hdir, himage, hmeta]; rfl), hdir, himage]
        simp [hsame]

/-- On a file domain a volume that was there is kept exactly if nothing is written over it. -/
theorem file_spared_iff :
    let r := createFileVolume env sdPath imgId volId sizeBytes qemuFmt allocStr metaBlob st
    (r.1.isOk = false ∧ VolumeUntouched (some (.file sdPath)) imgId volId st r.2) ↔
      SparesFile env sdPath imgId volId sizeBytes qemuFmt allocStr metaBlob st := by
  obtain ⟨hok, hleft⟩ :=
    createFileVolume_outcome env sdPath imgId volId sizeBytes qemuFmt allocStr metaBlob st
  have hsame := payload_metaStep env sdPath imgId volId sizeBytes qemuFmt allocStr metaBlob st
  have hsidecar := fileAt_imageStep env sdPath imgId volId sizeBytes qemuFmt allocStr st
    (sidecarAt_ne_payloadAt sdPath imgId volId)
  dsimp only at hok hleft ⊢
  cases hdir : (dirStep env sdPath imgId st).1.isOk with
  | false =>
    have hfails : (createFileVolume env sdPath imgId volId sizeBytes qemuFmt allocStr metaBlob
        st).1.isOk = false := by rw [hok, hdir]; rfl
    refine iff_of_true ⟨hfails, ?_⟩ (.inl hdir)
    rw [VolumeUntouched, hleft hfails, hdir, if_neg (by simp), fileAt_dirStep, fileAt_dirStep]
    exact ⟨rfl, rfl⟩
  | true =>
    cases himage : succeeds (imageStep env sdPath imgId volId sizeBytes qemuFmt allocStr st).1 with
    | false =>
      have hfails : (createFileVolume env sdPath imgId volId sizeBytes qemuFmt allocStr metaBlob
          st).1.isOk = false := by rw [hok, hdir, himage]; rfl
      rw [and_iff_right hfails, VolumeUntouched, hleft hfails, SparesFile, hdir, himage]
      simp [hsidecar]
    | true =>
      rw [hok, hdir, himage, Bool.true_and, Bool.true_and, SparesFile, hdir, himage]
      cases hmeta : (metaStep env sdPath imgId volId sizeBytes qemuFmt allocStr metaBlob st).1.isOk with
      | true => simp
      | false =>
        rw [VolumeUntouched, hleft (by rw [hok, hdir, himage, hmeta]; rfl), hdir, himage]
        simp [hsame]

end FileVolume

/-! ## The steps of a block volume -/

section BlockVolume

variable (env : Env) (vg stateDir imgId volId : String) (sizeBytes : UInt64)
  (qemuFmt metaBlob : String) (st : Store)

/-- `lvcreate` works. -/
def makesLv : Bool := (execute env.host (.lvcreate vg volId (roundToExtents sizeBytes))).1.ok

/-- `qemu-img`, run on the device of the LV. -/
def formatLv : Except String Output :=
  env.host.output "/usr/bin/qemu-img"
    ["create", "-f", "qcow2", s!"/dev/{vg}/{volId}", toString sizeBytes.toNat]

/-- The LV is rolled back when `qemu-img` was run and failed. -/
def RollsBack : Prop :=
  makesLv env vg volId sizeBytes = true ∧ qemuFmt = "qcow2" ∧
    ∃ out, formatLv env vg volId sizeBytes = .ok out ∧ out.success = false

/-- A creation leaks its LV when `qemu-img` cannot be run or the sidecar fails. -/
def LeaksLv : Prop :=
  makesLv env vg volId sizeBytes = true ∧
  ((qemuFmt = "qcow2" ∧ ∃ e, formatLv env vg volId sizeBytes = .error e) ∨
    (qemuFmt = "qcow2" → succeeds (formatLv env vg volId sizeBytes) = true) ∧
      (writeBlockMeta env stateDir imgId volId metaBlob st).1.isOk = false)

variable {env vg stateDir imgId volId sizeBytes qemuFmt metaBlob st}

/-- An operation that fails changes neither files nor LVs. -/
theorem run_eq_none {op : PrivOp} {st' : Store} (h : st.run env op = (none, st')) :
    (execute env.host op).1.ok = false ∧ st'.fs = st.fs ∧ st'.lvs = st.lvs := by
  simp only [Store.run] at h
  split_ifs at h with hok
  · simp at h
  · obtain ⟨-, rfl⟩ := Prod.mk.inj h
    exact ⟨by simpa using hok, rfl, rfl⟩

/-- The sidecar changes no LV, and whether it can be written is up to the files. -/
theorem writeBlockMeta_outcome :
    (writeBlockMeta env stateDir imgId volId metaBlob st).2.lvs = st.lvs ∧
    (writeBlockMeta env stateDir imgId volId metaBlob st).1.isOk =
      ((st.fs.createDirAll env.faults (imgDir stateDir imgId)).1.isOk &&
        ((st.fs.createDirAll env.faults (imgDir stateDir imgId)).2.writeFile env.faults
          (metaPath stateDir imgId volId) (asBytes metaBlob)).1.isOk) := by
  simp only [writeBlockMeta, Store.createDirAll, Store.write]
  cases hdir : (st.fs.createDirAll env.faults (imgDir stateDir imgId)).1 with
  | error e => exact ⟨rfl, rfl⟩
  | ok u =>
    dsimp only
    cases hwrite : ((st.fs.createDirAll env.faults (imgDir stateDir imgId)).2.writeFile env.faults
        (metaPath stateDir imgId volId) (asBytes metaBlob)).1 with
    | error e => exact ⟨rfl, rfl⟩
    | ok u => exact ⟨rfl, rfl⟩

/-- Whether the metadata can be written depends on the file system only. -/
theorem writeBlockMeta_isOk_congr {st₁ : Store} (h : st₁.fs = st.fs) :
    (writeBlockMeta env stateDir imgId volId metaBlob st₁).1.isOk =
      (writeBlockMeta env stateDir imgId volId metaBlob st).1.isOk := by
  rw [writeBlockMeta_outcome.2, writeBlockMeta_outcome.2, h]

/-- Once the LV is there, it stays if the sidecar fails. -/
theorem sidecar_atomic_iff {st₁ : Store} (hfs : st₁.fs = st.fs) (hmem : (vg, volId) ∈ st₁.lvs) :
    let r := writeBlockMeta env stateDir imgId volId metaBlob st₁
    (r.1.isOk = false → (vg, volId) ∉ r.2.lvs) ↔
      ¬(writeBlockMeta env stateDir imgId volId metaBlob st).1.isOk = false := by
  dsimp only
  rw [writeBlockMeta_isOk_congr hfs, writeBlockMeta_outcome.1]
  simp [hmem]

/-- On a block domain, where the roll-back works, a failure leaves no payload and no sidecar under
the stated condition and only then. -/
theorem block_atomic_iff (habsent : ¬HasPayload (some (.block vg stateDir)) imgId volId st)
    (hrollback : RollsBack env vg volId sizeBytes qemuFmt →
      (execute env.host (.lvremove vg volId)).1.ok = true) :
    let r := createBlockVolume env vg stateDir imgId volId sizeBytes qemuFmt metaBlob st
    (r.1.isOk = false → ¬HasPayload (some (.block vg stateDir)) imgId volId r.2) ↔
      ¬LeaksLv env vg stateDir imgId volId sizeBytes qemuFmt metaBlob st := by
  rw [HasPayload] at habsent
  simp only [createBlockVolume, HasPayload]
  split
  · rename_i st₁ hrun
    obtain ⟨hfails, -, hlvs⟩ := run_eq_none hrun
    refine iff_of_true (fun _ => by rwa [hlvs]) ?_
    simp [LeaksLv, makesLv, hfails]
  · rename_i text st₁ hrun
    obtain ⟨hworks, hfs, hlvs⟩ := run_eq_some hrun
    have hmade : makesLv env vg volId sizeBytes = true := hworks
    have hmem : (vg, volId) ∈ st₁.lvs := by rw [hlvs]; simp [applyOp]
    split
    · rename_i hqcow
      split
      · rename_i e hformat
        refine iff_of_false ?_ (not_not.mpr ⟨hmade, .inl ⟨hqcow, e, hformat⟩⟩)
        intro h
        exact h rfl hmem
      · rename_i out hformat
        have hrun : formatLv env vg volId sizeBytes = .ok out := hformat
        cases hout : out.success with
        | false =>
          have hremoved := hrollback ⟨hmade, hqcow, out, hrun, hout⟩
          refine iff_of_true (fun _ => ?_) ?_
          · simp [Store.run, hremoved, applyOp]
          · simp [LeaksLv, hqcow, hrun, succeeds, hout]
        | true =>
          have hsidecar := @sidecar_atomic_iff env vg stateDir imgId volId metaBlob st
            (st₁.note (.device s!"/dev/{vg}/{volId}")) hfs hmem
          rw [if_neg (by simp)]
          refine hsidecar.trans (not_congr ?_)
          simp [LeaksLv, hmade, hqcow, hrun, succeeds, hout]
    · rename_i hraw
      refine (sidecar_atomic_iff hfs hmem).trans (not_congr ?_)
      simp [LeaksLv, hmade, hraw]

/-- A block volume is not created where `lvcreate` fails. -/
theorem block_spared (hlv : makesLv env vg volId sizeBytes = false) :
    let r := createBlockVolume env vg stateDir imgId volId sizeBytes qemuFmt metaBlob st
    r.1.isOk = false ∧ VolumeUntouched (some (.block vg stateDir)) imgId volId st r.2 := by
  simp only [createBlockVolume, VolumeUntouched]
  split
  · rename_i st₁ hrun
    obtain ⟨-, hfs, hlvs⟩ := run_eq_none hrun
    exact ⟨rfl, hlvs, by rw [hfs]⟩
  · rename_i text st₁ hrun
    have hworks : makesLv env vg volId sizeBytes = true := (run_eq_some hrun).1
    rw [hlv] at hworks
    cases hworks

end BlockVolume

/-! ## The verb -/

variable (env : Env) (params : Value) (st : Store)

/-- The domain a request is for. -/
def backendOf : Option SdBackend :=
  sdBackend env.host st.toState (stringParam "storagedomainID" params)

/-- All three ids are given. -/
def HasIds : Prop :=
  ¬(stringParam "volumeID" params = "" ∨ stringParam "storagedomainID" params = "" ∨
    stringParam "imageID" params = "")

/-- The format `qemu-img` is told. -/
def qemuFormat : String :=
  if volFormatStr (intParamOr "volFormat" 5 params) = "COW" then "qcow2" else "raw"

/-- A creation that fails leaves a payload. -/
def Leaks : Prop :=
  HasIds params ∧
  match backendOf env params st with
  | some (.file sdPath) =>
    LeaksFile env sdPath (stringParam "imageID" params) (stringParam "volumeID" params)
      (sizeParam params) (qemuFormat params) (volAllocStr (intParamOr "preallocate" 0 params))
      (volumeMeta env params) st
  | some (.block vg stateDir) =>
    LeaksLv env vg stateDir (stringParam "imageID" params) (stringParam "volumeID" params)
      (sizeParam params) (qemuFormat params) (volumeMeta env params) st
  | none => False

/-- A creation fails and spares what is there: always on a block domain, on a file domain as the steps
come out. -/
def SparedWhen : Prop :=
  HasIds params → ∀ sdPath, backendOf env params st = some (.file sdPath) →
    SparesFile env sdPath (stringParam "imageID" params) (stringParam "volumeID" params)
      (sizeParam params) (qemuFormat params) (volAllocStr (intParamOr "preallocate" 0 params))
      (volumeMeta env params) st

/-- The rollback works when it is issued. -/
def RollbackWorks : Prop :=
  ∀ vg stateDir, backendOf env params st = some (.block vg stateDir) →
    RollsBack env vg (stringParam "volumeID" params) (sizeParam params) (qemuFormat params) →
      (execute env.host (.lvremove vg (stringParam "volumeID" params))).1.ok = true

/-- The part of `volume_create` that depends on the domain. -/
def createOn : Option SdBackend → Except JsonRpcError Unit × Store
  | some (.file sdPath) =>
    createFileVolume env sdPath (stringParam "imageID" params) (stringParam "volumeID" params)
      (sizeParam params) (qemuFormat params) (volAllocStr (intParamOr "preallocate" 0 params))
      (volumeMeta env params) st
  | some (.block vg stateDir) =>
    createBlockVolume env vg stateDir (stringParam "imageID" params) (stringParam "volumeID" params)
      (sizeParam params) (qemuFormat params) (volumeMeta env params) st
  | none => (.error (sdNotFound (stringParam "storagedomainID" params)), st)

variable {env params st}

/-- A request without ids fails and changes nothing. -/
theorem volumeCreate_of_no_ids (h : ¬HasIds params) :
    (volumeCreate env params st).1.isOk = false ∧ (volumeCreate env params st).2 = st := by
  rw [HasIds, not_not] at h
  rw [volumeCreate, if_pos h]
  exact ⟨rfl, rfl⟩

/-- A request with ids does what its backend does. -/
theorem volumeCreate_of_ids (h : HasIds params) :
    (volumeCreate env params st).1.isOk = (createOn env params st (backendOf env params st)).1.isOk ∧
      (volumeCreate env params st).2 = (createOn env params st (backendOf env params st)).2 := by
  rw [HasIds] at h
  rw [volumeCreate, if_neg h, backendOf]
  cases hback : sdBackend env.host st.toState (stringParam "storagedomainID" params) with
  | none => exact ⟨rfl, rfl⟩
  | some backend =>
    cases backend with
    | file sdPath =>
      dsimp only [createOn, qemuFormat]
      split
      · rename_i e st₁ heq
        rw [heq]
        exact ⟨rfl, rfl⟩
      · rename_i st₁ heq
        rw [heq]
        exact ⟨rfl, rfl⟩
    | block vg stateDir =>
      dsimp only [createOn, qemuFormat]
      split
      · rename_i e st₁ heq
        rw [heq]
        exact ⟨rfl, rfl⟩
      · rename_i st₁ heq
        rw [heq]
        exact ⟨rfl, rfl⟩

/-- A creation of a volume that does not exist leaves no payload when it fails, exactly when it does not
leak. -/
theorem volume_create_atomic (env : Env) (params : Value) (st : Store)
    (habsent : ¬HasPayload (backendOf env params st) (stringParam "imageID" params)
      (stringParam "volumeID" params) st)
    (hrollback : RollbackWorks env params st) :
    ((volumeCreate env params st).1.isOk = false →
      ¬HasPayload (backendOf env params st) (stringParam "imageID" params)
        (stringParam "volumeID" params) (volumeCreate env params st).2) ↔ ¬Leaks env params st := by
  rw [Leaks]
  by_cases hids : HasIds params
  · obtain ⟨hok, hstore⟩ := @volumeCreate_of_ids env params st hids
    rw [hok, hstore, and_iff_right hids]
    cases hback : backendOf env params st with
    | none => exact iff_of_true (fun _ => id) id
    | some backend =>
      rw [hback] at habsent
      cases backend with
      | file sdPath => exact file_atomic_iff habsent
      | block vg stateDir => exact block_atomic_iff habsent (hrollback vg stateDir hback)
  · rw [(volumeCreate_of_no_ids hids).2]
    exact iff_of_true (fun _ => habsent) fun h => hids h.1

/-- A new volume of the VG. -/
def newVolume : Value :=
  .object [("storagedomainID", .string "vg"), ("imageID", .string "disk"), ("volumeID", .string "vol")]

/-- The VG without LVs. -/
def noLvs : Store := ⟨⟨Fs.empty, []⟩, []⟩

/-- A host on which no directory can be made. -/
def readOnlyEnv : Env :=
  { vgEnv true with
    faults := ⟨fun _ => some (.other "Read-only file system (os error 30)"), fun _ => none⟩ }

/-- The host finds the VG and can remove the LV. -/
theorem vgHost_newVolume :
    sdBackend (vgHost true) noLvs.toState (stringParam "storagedomainID" newVolume) =
        some (.block "vg" "/var/lib/vdsm/sd/vg") ∧
      (execute (vgHost true) (.lvremove "vg" (stringParam "volumeID" newVolume))).1.ok = true := by
  decide +kernel

/-- The sample request goes to a block domain. -/
theorem backendOf_newVolume (env : Env) (hhost : env.host = vgHost true) :
    backendOf env newVolume noLvs = some (.block "vg" "/var/lib/vdsm/sd/vg") := by
  rw [backendOf, hhost]
  exact vgHost_newVolume.1

/-- Its roll-back works on the sample host. -/
theorem rollbackWorks_newVolume (env : Env) (hhost : env.host = vgHost true) :
    RollbackWorks env newVolume noLvs := by
  intro vg stateDir hback _
  rw [backendOf_newVolume env hhost] at hback
  obtain ⟨rfl, -⟩ := SdBackend.block.inj (Option.some.inj hback)
  rw [hhost]
  exact vgHost_newVolume.2

/-- A new volume of the VG that `qemu-img` has to format. -/
def cowVolume : Value :=
  .object [("storagedomainID", .string "vg"), ("imageID", .string "disk"), ("volumeID", .string "vol"),
    ("volFormat", .ofInt 4)]

/-- A `qemu-img` that fails. -/
def failingQemu (host : Host) : Host :=
  { host with
    output := fun bin args =>
      if bin = "/usr/bin/qemu-img" then .ok ⟨false, some 1, [], []⟩ else host.output bin args }

/-- The VG on a host where it does. -/
def unformattedEnv : Env := { vgEnv true with host := failingQemu (vgHost true) }

/-- The LV that could not be formatted is rolled back. -/
theorem volume_create_atomic_rolledBack :
    (volumeCreate unformattedEnv cowVolume noLvs).1.isOk = false ∧
      ¬HasPayload (backendOf unformattedEnv cowVolume noLvs) "disk" "vol"
        (volumeCreate unformattedEnv cowVolume noLvs).2 := by
  have hfails : (volumeCreate unformattedEnv cowVolume noLvs).1.isOk = false := by decide +kernel
  have hback : backendOf unformattedEnv cowVolume noLvs = some (.block "vg" "/var/lib/vdsm/sd/vg") := by
    decide +kernel
  refine ⟨hfails, (volume_create_atomic unformattedEnv cowVolume noLvs ?_ ?_).mpr ?_ hfails⟩
  · rw [hback]
    exact List.not_mem_nil
  · intro vg stateDir hvg _
    rw [hback] at hvg
    obtain ⟨rfl, -⟩ := SdBackend.block.inj (Option.some.inj hvg)
    decide +kernel
  · rintro ⟨-, hleaks⟩
    rw [hback] at hleaks
    obtain ⟨-, ⟨-, e, he⟩ | ⟨hworks, -⟩⟩ := hleaks
    · cases he
    · exact absurd (hworks (by decide)) (by decide)

/-- The LV stays when the directory of the sidecar cannot be made. -/
theorem volume_create_leaks : ¬∀ env params st,
    ¬HasPayload (backendOf env params st) (stringParam "imageID" params)
      (stringParam "volumeID" params) st → RollbackWorks env params st →
    (volumeCreate env params st).1.isOk = false →
      ¬HasPayload (backendOf env params st) (stringParam "imageID" params)
        (stringParam "volumeID" params) (volumeCreate env params st).2 := by
  intro h
  have hback := backendOf_newVolume readOnlyEnv rfl
  have hfails : (volumeCreate readOnlyEnv newVolume noLvs).1.isOk = false := by decide +kernel
  have hlvs : (volumeCreate readOnlyEnv newVolume noLvs).2.lvs = [("vg", "vol")] := by decide +kernel
  refine h readOnlyEnv newVolume noLvs ?_ (rollbackWorks_newVolume _ rfl) hfails ?_
  · rw [hback]
    exact List.not_mem_nil
  · rw [hback, HasPayload, hlvs]
    exact List.mem_singleton.mpr rfl

/-- Where `lvcreate` refuses a name that is taken, a creation for a volume that exists fails and leaves
it untouched exactly when `SparedWhen` says. -/
theorem volume_create_spares (env : Env) (params : Value) (st : Store)
    (hexists : HasPayload (backendOf env params st) (stringParam "imageID" params)
      (stringParam "volumeID" params) st)
    (hlvcreate : ∀ vg lv size, (vg, lv) ∈ st.lvs →
      (execute env.host (.lvcreate vg lv size)).1.ok = false) :
    ((volumeCreate env params st).1.isOk = false ∧
      VolumeUntouched (backendOf env params st) (stringParam "imageID" params)
        (stringParam "volumeID" params) st (volumeCreate env params st).2) ↔
      SparedWhen env params st := by
  rw [SparedWhen]
  by_cases hids : HasIds params
  · obtain ⟨hok, hstore⟩ := @volumeCreate_of_ids env params st hids
    rw [hok, hstore, imp_iff_right hids]
    cases hback : backendOf env params st with
    | none =>
      rw [hback] at hexists
      exact hexists.elim
    | some backend =>
      rw [hback] at hexists
      cases backend with
      | file sdPath =>
        simp only [Option.some.injEq, SdBackend.file.injEq, forall_eq']
        exact file_spared_iff
      | block vg stateDir =>
        exact iff_of_true (block_spared (hlvcreate vg _ _ hexists)) (by simp)
  · obtain ⟨hok, hstore⟩ := @volumeCreate_of_no_ids env params st hids
    rw [hok, hstore]
    exact iff_of_true ⟨rfl, volumeUntouched_refl _ _ _ _⟩ fun h => absurd h hids

/-- The volume of `oneImage`, to be created again. -/
def sameVolume : Value :=
  .object [("storagedomainID", .string "sd"), ("imageID", .string "disk"), ("volumeID", .string "vol")]

/-- A host without VGs, where `qemu-img` empties what it is to create. -/
def nfsEnv : Env := { vgEnv true with host := quietHost }

/-- The volume is there, and creating it again succeeds. -/
theorem sameVolume_outcome :
    backendOf nfsEnv sameVolume ⟨oneImage, []⟩ = some (.file "/rhev/data-center/mnt/nfs/sd") ∧
      (oneImage.fs.fileAt (payloadAt "/rhev/data-center/mnt/nfs/sd" "disk" "vol")).isSome = true ∧
      (volumeCreate nfsEnv sameVolume ⟨oneImage, []⟩).1.isOk = true := by
  decide +kernel

/-- The volume of the sample is there already. -/
theorem hasPayload_sameVolume : HasPayload (backendOf nfsEnv sameVolume ⟨oneImage, []⟩) "disk" "vol"
    ⟨oneImage, []⟩ := by
  rw [sameVolume_outcome.1]
  exact sameVolume_outcome.2.1

/-- The host without VGs, where `qemu-img` fails before it writes. -/
def lockedEnv : Env := { nfsEnv with host := failingQemu quietHost, qemuFile := fun _ => none }

/-- Then the volume stays as it is. -/
theorem volume_create_spares_locked :
    (volumeCreate lockedEnv sameVolume ⟨oneImage, []⟩).1.isOk = false ∧
      VolumeUntouched (backendOf lockedEnv sameVolume ⟨oneImage, []⟩) "disk" "vol" ⟨oneImage, []⟩
        (volumeCreate lockedEnv sameVolume ⟨oneImage, []⟩).2 := by
  have hback : backendOf lockedEnv sameVolume ⟨oneImage, []⟩
      = some (.file "/rhev/data-center/mnt/nfs/sd") := by
    decide +kernel
  refine (volume_create_spares lockedEnv sameVolume ⟨oneImage, []⟩ ?_ ?_).mpr ?_
  · rw [hback]
    exact sameVolume_outcome.2.1
  · exact fun _ _ _ h => absurd h List.not_mem_nil
  · intro _ sdPath hfile
    rw [hback] at hfile
    obtain rfl := SdBackend.file.inj (Option.some.inj hfile)
    exact .inr ⟨by decide +kernel, .inl (by decide +kernel)⟩

/-- A volume that exists on a file domain is emptied, and the answer is a success. -/
theorem volume_create_overwrites : ¬∀ env params st,
    HasPayload (backendOf env params st) (stringParam "imageID" params)
      (stringParam "volumeID" params) st →
    (∀ vg lv size, (vg, lv) ∈ st.lvs → (execute env.host (.lvcreate vg lv size)).1.ok = false) →
    (∀ args, succeeds (env.host.output "/usr/bin/qemu-img" args) = true →
      (env.qemuFile args).isSome = true) →
    (volumeCreate env params st).1.isOk = false ∧
      VolumeUntouched (backendOf env params st) (stringParam "imageID" params)
        (stringParam "volumeID" params) st (volumeCreate env params st).2 := by
  intro h
  have hfails := (h nfsEnv sameVolume ⟨oneImage, []⟩ hasPayload_sameVolume
    (fun _ _ _ h => absurd h List.not_mem_nil) (fun _ _ => rfl)).1
  rw [sameVolume_outcome.2.2] at hfails
  cases hfails

end Vdsm.Storage
