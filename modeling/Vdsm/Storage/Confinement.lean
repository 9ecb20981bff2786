import Vdsm.Lib.Normal
import Vdsm.Storage.Volumes

/-!
# The paths of the volume verbs

The paths of a volume are joined from three strings of the caller, none of which is checked. The
images of a domain belong below one directory, `ImagesDir`. `paths_confined_iff` says for each verb
which of its paths it gets to and exactly which strings keep these below: an absolute string starts
over, and `..` climbs. Names that a directory can hold always do (`kept_of_names`). The directories
that `create_dir_all` makes on the way count as well; which are missing depends on the tree.
-/

namespace Vdsm.Storage

open Rust FileSystem Supervdsm

/-! ## What a verb touches -/

/-- The path of an operation on a file. -/
def Act.path? : Act → Option String
  | .file _ path => some path
  | .device _ => none
  | .priv _ => none

/-- The files and directories that were created, read or removed. -/
def Store.files (st : Store) : List String := st.trace.filterMap Act.path?

section

variable (env : Env) (path : String) (st : Store)

@[simp] theorem files_createDirAll :
    (st.createDirAll env path).2.files = st.files ++ path :: madePaths env st.fs path := by
  rw [Store.files, filterMap_createDirAll]
  simp [Store.files, Act.path?, List.filterMap_map, Function.comp_def]

@[simp] theorem files_write (contents : List UInt8) :
    (st.write env path contents).2.files = st.files ++ [path] := by
  simp [Store.write, Store.files, Act.path?]

@[simp] theorem files_createImage (args : List String) :
    (st.createImage env args path).2.files = st.files ++ [path] := by
  simp [Store.createImage, Store.files, Act.path?]

@[simp] theorem files_removeFile : (st.removeFile path).files = st.files ++ [path] := by
  simp [Store.removeFile, Store.files, Act.path?]

@[simp] theorem files_note_file (op : FileOp) :
    (st.note (.file op path)).files = st.files ++ [path] := by
  simp [Store.note, Store.files, Act.path?]

@[simp] theorem files_note_device : (st.note (.device path)).files = st.files := by
  simp [Store.note, Store.files, Act.path?]

@[simp] theorem files_run (op : PrivOp) : (st.run env op).2.files = st.files := by
  rw [Store.run]
  split_ifs <;> simp [Store.note, Store.files, Act.path?]

end

/-- The verbs that work on the files of a volume or an image. -/
inductive VolumeVerb where
  | volumeCreate
  | volumeGetInfo
  | volumeDelete
  | imagePrepare
  | imageDelete
deriving DecidableEq, Repr

/-- A verb, with its trace. -/
def VolumeVerb.run : VolumeVerb → Env → Value → Store → Except JsonRpcError Value × Store
  | volumeCreate => Storage.volumeCreate
  | volumeGetInfo => Storage.volumeGetInfo
  | volumeDelete => Storage.volumeDelete
  | imagePrepare => Storage.imagePrepare
  | imageDelete => imageDeleteTraced

/-- The file paths that a call creates, reads or removes, directories on the way included. -/
def VolumeVerb.paths (verb : VolumeVerb) (env : Env) (params : Value) (s : State) : List String :=
  (verb.run env params ⟨s, []⟩).2.files

/-! ## Where they belong -/

/-- The directory of the images of a domain: on some mount, or below the state of block domains. -/
def ImagesDir (backend : SdBackend) (sdUuid : String) (dir : Location) : Prop :=
  match backend with
  | .file _ => ∃ mount, dir = mntLocation ++ mount :: (components sdUuid ++ ["images"])
  | .block _ _ => dir = stateLocation ++ (components sdUuid ++ ["images"])

/-- Strictly below it, after lexical normalisation. -/
def InImages (backend : SdBackend) (sdUuid path : String) : Prop :=
  ∃ dir, ImagesDir backend sdUuid dir ∧ Below dir (cleanPath path)

/-- Do the caller's strings keep `<domain>/images/…` below? Where one of them is absolute, it and
those after it have to spell such a path. Otherwise the domain must not be named with `..`, and the
directories that the others climb out of have to be named again, perhaps on another mount, and
something below them. -/
def Kept (backend : SdBackend) (sdUuid : String) (xs : List String) : Prop :=
  match restart (sdUuid :: "images" :: xs) with
  | some cs => ∃ dir, ImagesDir backend sdUuid dir ∧ Below dir (net cs).down
  | none =>
    let own := cleanPath backend.dir ++ ["images"]
    let tail := net (xs.flatMap components)
    let stays := own.length - tail.up
    ".." ∉ components sdUuid ∧ ∃ dir, ImagesDir backend sdUuid dir ∧
      dir.take stays = own.take stays ∧ Below (dir.drop stays) tail.down

/-- A domain is joined to a root that is as deep as that of its images. -/
theorem sdBackend_root {host : Host} {s : State} {sdUuid : String} {backend : SdBackend}
    (h : sdBackend host s sdUuid = some backend) :
    ∃ root, backend.dir = pathJoin root sdUuid ∧ ".." ∉ components root ∧
      ∀ dir, ImagesDir backend sdUuid dir →
        dir.length = (components root).length + ((components sdUuid).length + 1) := by
  rw [sdBackend] at h
  split_ifs at h with hempty hvg
  · obtain rfl := Option.some.inj h
    refine ⟨blockSdStateBase, rfl, by decide, ?_⟩
    rintro dir rfl
    have hroot : components blockSdStateBase = stateLocation := by decide
    simp [hroot]
  · obtain ⟨ent, rfl⟩ := fileBackend_eq_some h
    obtain ⟨-, hcs⟩ := plain_mntBase.join ent
    have hmnt : components mntBase = mntLocation := by decide
    rw [hmnt] at hcs
    refine ⟨pathJoin mntBase ent.1, rfl, ?_, ?_⟩
    · have hent : ent.1 ≠ ".." := by
        intro heq
        have hname := ent.2
        simp [isFileName, heq] at hname
      simp [hcs, mntLocation, Ne.symm hent]
    · rintro dir ⟨mount, rfl⟩
      simp only [hcs, mntLocation, List.length_append, List.length_cons, List.length_nil]
      omega

/-- A domain id with `..` in it leaves `..` in the way to its images. -/
theorem parent_mem_imagesDir {backend : SdBackend} {sdUuid : String} {dir : Location}
    (h : ImagesDir backend sdUuid dir) (hparent : ".." ∈ components sdUuid) : ".." ∈ dir := by
  cases backend with
  | file _ =>
    obtain ⟨mount, rfl⟩ := h
    simp [hparent]
  | block _ _ =>
    obtain rfl := h
    simp [hparent]

/-- `Kept` is what keeps a joined path below. -/
theorem inImages_iff_kept {host : Host} {s : State} {sdUuid : String} {backend : SdBackend}
    (h : sdBackend host s sdUuid = some backend) (xs : List String) :
    InImages backend sdUuid (joinAll backend.dir ("images" :: xs)) ↔ Kept backend sdUuid xs := by
  obtain ⟨root, hdir, hroot, hlen⟩ := sdBackend_root h
  have hpath : joinAll backend.dir ("images" :: xs) = joinAll root (sdUuid :: "images" :: xs) := by
    rw [hdir]
    rfl
  have himages : components "images" = ["images"] := by decide
  rw [InImages, hpath, cleanPath, components_joinAll, Kept]
  cases hstart : restart (sdUuid :: "images" :: xs) with
  | some cs => simp only [Option.getD_some, walk_root]
  | none =>
    simp only [Option.getD_none, List.flatMap_cons, himages]
    have hrel : isAbsolute sdUuid = false := by
      by_contra habs
      rw [restart] at hstart
      cases htail : restart ("images" :: xs) <;> simp_all
    have hown : cleanPath backend.dir = walk [] (components root ++ components sdUuid) := by
      rw [hdir, cleanPath, components_pathJoin, hrel]
      rfl
    by_cases hparent : ".." ∈ components sdUuid
    · -- nothing normalised is below a directory with `..`
      simp only [hparent, not_true_eq_false, false_and, iff_false]
      rintro ⟨dir, hdir', c, cs, heq⟩
      have hmem := parent_mem_imagesDir hdir' hparent
      exact no_parent_walk (List.not_mem_nil) _ (heq ▸ List.mem_append_left _ hmem)
    · have hno : ".." ∉ components root ++ (components sdUuid ++ ["images"]) := by
        simp [hroot, hparent]
      have hstart' : walk [] (components root ++ (components sdUuid ++ ["images"]))
          = cleanPath backend.dir ++ ["images"] := by
        rw [walk_of_no_parent hno, hown, walk_of_no_parent (by simp [hroot, hparent])]
        simp
      have hsplit : components root ++ (components sdUuid ++ (["images"] ++ xs.flatMap components))
          = components root ++ (components sdUuid ++ ["images"]) ++ xs.flatMap components := by simp
      rw [hsplit, walk_append, hstart']
      simp only [hparent, not_false_eq_true, true_and]
      refine exists_congr fun dir => and_congr_right fun hdir' => below_walk_iff ?_ _
      rw [hlen dir hdir', hown, walk_of_no_parent (by simp [hroot, hparent])]
      simp

/-! ## The paths of each verb -/

/-- Does `create_dir_all` succeed? -/
def makesDir (env : Env) (fs : Fs) (path : String) : Bool := (fs.createDirAll env.faults path).1.isOk

/-- Is the LV of a new block volume there and formatted, so that its sidecar is written? -/
def lvReady (env : Env) (vg volId : String) (sizeBytes : UInt64) (qemuFmt : String) : Bool :=
  (execute env.host (.lvcreate vg volId (roundToExtents sizeBytes))).1.ok &&
    (qemuFmt != "qcow2" ||
      match env.host.output "/usr/bin/qemu-img"
          ["create", "-f", "qcow2", s!"/dev/{vg}/{volId}", toString sizeBytes.toNat] with
      | .error _ => false
      | .ok out => out.success)

/-- The strings below `images` of the paths a verb gets to, in a domain; sidecars of a path that is
itself touched are left out. -/
def VolumeVerb.reached (env : Env) (params : Value) (fs : Fs) (backend : SdBackend) :
    VolumeVerb → List (List String)
  | volumeCreate =>
    let volId := stringParam "volumeID" params
    let imgId := stringParam "imageID" params
    let qemuFmt := if volFormatStr (intParamOr "volFormat" 5 params) = "COW" then "qcow2" else "raw"
    if volId = "" ∨ stringParam "storagedomainID" params = "" ∨ imgId = "" then []
    else match backend with
      | .file sdPath => [imgId] :: if makesDir env fs (imgDir sdPath imgId) then [[imgId, volId]] else []
      | .block vg stateDir =>
        if lvReady env vg volId (sizeParam params) qemuFmt then
          [imgId] :: if makesDir env fs (imgDir stateDir imgId) then [[imgId, volId ++ ".meta"]] else []
        else []
  | volumeGetInfo | volumeDelete =>
    match backend with
    | .file _ => [[stringParam "imageID" params, stringParam "volumeID" params]]
    | .block _ _ => [[stringParam "imageID" params, stringParam "volumeID" params ++ ".meta"]]
  | imagePrepare =>
    match backend with
    | .file _ => [[stringParam "imageID" params, stringParam "volumeID" params]]
    | .block _ _ => []
  | imageDelete => [[stringParam "imageID" params]]

/-- The image directory that `create_dir_all` is called for, if a creation gets there. -/
def imageDirToMake (env : Env) (params : Value) (backend : SdBackend) : Option String :=
  let volId := stringParam "volumeID" params
  let imgId := stringParam "imageID" params
  let qemuFmt := if volFormatStr (intParamOr "volFormat" 5 params) = "COW" then "qcow2" else "raw"
  if volId = "" ∨ stringParam "storagedomainID" params = "" ∨ imgId = "" then none
  else match backend with
    | .file sdPath => some (imgDir sdPath imgId)
    | .block vg stateDir =>
      if lvReady env vg volId (sizeParam params) qemuFmt then some (imgDir stateDir imgId) else none

/-- The directories that are missing on the way to it, as far as they can be made. -/
def VolumeVerb.missing (env : Env) (params : Value) (fs : Fs) (backend : SdBackend) :
    VolumeVerb → List Location
  | volumeCreate => ((imageDirToMake env params backend).map (fs.dirsToMake env.faults)).getD []
  | _ => []

section

variable {Q : String → Prop}

/-- The directories that are made, by what they are made for. -/
theorem forall_madePaths {env : Env} {fs : Fs} {path : String} :
    (∀ p ∈ madePaths env fs path, Q p) ↔ ∀ d ∈ fs.dirsToMake env.faults path, Q (joinAll "/" d) := by
  constructor
  · intro h d hd
    exact h _ (mem_madePaths.mpr ⟨d, hd, rfl⟩)
  · intro h p hp
    obtain ⟨d, hd, rfl⟩ := mem_madePaths.mp hp
    exact h d hd

/-- What holds of all paths, sorted by why they are there. -/
theorem forall_dir_made_more {dir : String} {made more : List String} :
    (∀ p ∈ dir :: made ++ more, Q p) ↔ (Q dir ∧ ∀ p ∈ more, Q p) ∧ ∀ p ∈ made, Q p := by
  rw [List.forall_mem_append, List.forall_mem_cons]
  tauto

/-- The paths of a file volume: the image directory, what is made for it, and the volume. -/
theorem createFileVolume_files (hsidecar : ∀ p, Q p → Q (p ++ ".meta") ∧ Q (p ++ ".lease"))
    {env : Env} {sdPath imgId volId qemuFmt allocStr metaBlob : String} {sizeBytes : UInt64}
    {st : Store} (hst : st.files = []) :
    (∀ p ∈ (createFileVolume env sdPath imgId volId sizeBytes qemuFmt allocStr metaBlob st).2.files,
        Q p) ↔
      (Q (imgDir sdPath imgId) ∧ (makesDir env st.fs (imgDir sdPath imgId) = true →
        Q (pathJoin (imgDir sdPath imgId) volId))) ∧
        ∀ d ∈ st.fs.dirsToMake env.faults (imgDir sdPath imgId), Q (joinAll "/" d) := by
  rw [← forall_madePaths]
  have hlease : pathJoin (imgDir sdPath imgId) (volId ++ ".lease")
      = pathJoin (imgDir sdPath imgId) volId ++ ".lease" := pathJoin_append _ _ (by decide)
  have hok : makesDir env st.fs (imgDir sdPath imgId)
      = (st.createDirAll env (imgDir sdPath imgId)).1.isOk := rfl
  have hfiles := files_createDirAll env (imgDir sdPath imgId) st
  rw [hok, createFileVolume]
  rcases hmkdir : st.createDirAll env (imgDir sdPath imgId) with ⟨r, st₁⟩
  rw [hmkdir, hst, List.nil_append] at hfiles
  cases r with
  | error e => simp [hfiles, Except.isOk, Except.toBool]
  | ok u =>
    simp only [Except.isOk, Except.toBool, forall_const]
    have hfiles₁ := files_createImage env (pathJoin (imgDir sdPath imgId) volId) st₁
      (qemuArgs qemuFmt allocStr (pathJoin (imgDir sdPath imgId) volId) sizeBytes)
    split
    · rename_i hqemu
      rw [hqemu, hfiles] at hfiles₁
      rw [hfiles₁, forall_dir_made_more, List.forall_mem_singleton]
    · rename_i out st₂ hqemu
      rw [hqemu, hfiles] at hfiles₁
      split_ifs
      · rw [hfiles₁, forall_dir_made_more, List.forall_mem_singleton]
      · have hfiles₂ := files_write env (metaPath sdPath imgId volId) st₂ (asBytes metaBlob)
        split
        · rename_i hwrite
          rw [hwrite, hfiles₁, List.append_assoc] at hfiles₂
          rw [hfiles₂, forall_dir_made_more]
          simpa [metaPath_eq] using fun _ _ h => (hsidecar _ h).1
        · rename_i hwrite
          rw [hwrite, hfiles₁, List.append_assoc] at hfiles₂
          rw [files_write, hfiles₂, List.append_assoc, forall_dir_made_more]
          simpa [metaPath_eq, hlease] using fun _ _ h => hsidecar _ h

/-- Those of the sidecar of a block volume. -/
theorem writeBlockMeta_files {env : Env} {stateDir imgId volId metaBlob : String} {st : Store}
    (hst : st.files = []) :
    (∀ p ∈ (writeBlockMeta env stateDir imgId volId metaBlob st).2.files, Q p) ↔
      (Q (imgDir stateDir imgId) ∧ (makesDir env st.fs (imgDir stateDir imgId) = true →
        Q (metaPath stateDir imgId volId))) ∧
        ∀ d ∈ st.fs.dirsToMake env.faults (imgDir stateDir imgId), Q (joinAll "/" d) := by
  rw [← forall_madePaths]
  have hok : makesDir env st.fs (imgDir stateDir imgId)
      = (st.createDirAll env (imgDir stateDir imgId)).1.isOk := rfl
  have hfiles := files_createDirAll env (imgDir stateDir imgId) st
  rw [hok, writeBlockMeta]
  rcases hmkdir : st.createDirAll env (imgDir stateDir imgId) with ⟨r, st₁⟩
  rw [hmkdir, hst, List.nil_append] at hfiles
  cases r with
  | error e => simp [hfiles, Except.isOk, Except.toBool]
  | ok u =>
    simp only [Except.isOk, Except.toBool, forall_const]
    have hfiles₁ := files_write env (metaPath stateDir imgId volId) st₁ (asBytes metaBlob)
    rcases hwrite : st₁.write env (metaPath stateDir imgId volId) (asBytes metaBlob) with ⟨r, st₂⟩
    rw [hwrite, hfiles] at hfiles₁
    cases r with
    | error e => rw [hfiles₁, forall_dir_made_more, List.forall_mem_singleton]
    | ok u => rw [hfiles₁, forall_dir_made_more, List.forall_mem_singleton]

/-- Those of a block volume, once its LV is ready. -/
theorem createBlockVolume_files {env : Env} {vg stateDir imgId volId qemuFmt metaBlob : String}
    {sizeBytes : UInt64} {st : Store} (hst : st.files = []) :
    (∀ p ∈ (createBlockVolume env vg stateDir imgId volId sizeBytes qemuFmt metaBlob st).2.files,
        Q p) ↔
      (lvReady env vg volId sizeBytes qemuFmt = true →
        (Q (imgDir stateDir imgId) ∧
          (makesDir env st.fs (imgDir stateDir imgId) = true → Q (metaPath stateDir imgId volId))) ∧
          ∀ d ∈ st.fs.dirsToMake env.faults (imgDir stateDir imgId), Q (joinAll "/" d)) := by
  rw [createBlockVolume, lvReady]
  have hfiles := files_run env st (.lvcreate vg volId (roundToExtents sizeBytes))
  have hfs : (st.run env (.lvcreate vg volId (roundToExtents sizeBytes))).2.fs = st.fs := by
    rw [Store.run]
    split_ifs <;> rfl
  have hsome : (st.run env (.lvcreate vg volId (roundToExtents sizeBytes))).1.isSome
      = (execute env.host (.lvcreate vg volId (roundToExtents sizeBytes))).1.ok := by
    rw [Store.run]
    cases (execute env.host (.lvcreate vg volId (roundToExtents sizeBytes))).1.ok <;> rfl
  rcases hrun : st.run env (.lvcreate vg volId (roundToExtents sizeBytes)) with ⟨r, st₁⟩
  rw [hrun] at hfiles hfs hsome
  dsimp only at hfiles hfs hsome
  rw [hst] at hfiles
  rw [← hsome]
  cases r with
  | none => simp [hfiles]
  | some out =>
    -- where the LV is ready only the sidecar is left to write
    have hmeta : ∀ st₂ : Store, st₂.files = [] → st₂.fs = st.fs →
        ((∀ p ∈ (writeBlockMeta env stateDir imgId volId metaBlob st₂).2.files, Q p) ↔
          (Q (imgDir stateDir imgId) ∧ (makesDir env st.fs (imgDir stateDir imgId) = true →
            Q (metaPath stateDir imgId volId))) ∧
            ∀ d ∈ st.fs.dirsToMake env.faults (imgDir stateDir imgId), Q (joinAll "/" d)) := by
      intro st₂ hfiles₂ hfs₂
      rw [writeBlockMeta_files hfiles₂, hfs₂]
    by_cases hfmt : qemuFmt = "qcow2"
    · simp only [hfmt, if_true, Option.isSome_some, bne_self_eq_false, Bool.false_or, Bool.true_and]
      cases hqemu : env.host.output "/usr/bin/qemu-img"
          ["create", "-f", "qcow2", s!"/dev/{vg}/{volId}", toString sizeBytes.toNat] with
      | error e => simp [hfiles]
      | ok out =>
        cases hsuccess : out.success with
        | false => simp [hsuccess, hfiles]
        | true =>
          simpa [hsuccess] using hmeta (st₁.note (.device s!"/dev/{vg}/{volId}")) (by simp [hfiles]) hfs
    · simpa [hfmt] using hmeta st₁ hfiles hfs

variable {env : Env} {params : Value} {s : State} {backend : SdBackend}

/-- What a creation leaves is what the creation in the domain leaves. -/
theorem volumeCreate_snd (st : Store)
    (hids : ¬ (stringParam "volumeID" params = "" ∨ stringParam "storagedomainID" params = "" ∨
      stringParam "imageID" params = ""))
    (hback : sdBackend env.host st.toState (stringParam "storagedomainID" params) = some backend) :
    let imgId := stringParam "imageID" params
    let volId := stringParam "volumeID" params
    let qemuFmt := if volFormatStr (intParamOr "volFormat" 5 params) = "COW" then "qcow2" else "raw"
    let allocStr := volAllocStr (intParamOr "preallocate" 0 params)
    let metaBlob := volumeMeta env params
    (volumeCreate env params st).2 =
      match backend with
      | .file sdPath =>
        (createFileVolume env sdPath imgId volId (sizeParam params) qemuFmt allocStr metaBlob st).2
      | .block vg stateDir =>
        (createBlockVolume env vg stateDir imgId volId (sizeParam params) qemuFmt metaBlob st).2 := by
  intro imgId volId qemuFmt allocStr metaBlob
  simp only [volumeCreate, if_neg hids, hback]
  cases backend with
  | file sdPath =>
    dsimp only
    split <;> simp_all [imgId, volId, qemuFmt, allocStr, metaBlob]
  | block vg stateDir =>
    dsimp only
    split <;> simp_all [imgId, volId, qemuFmt, metaBlob]

/-- The paths of `volume_create` are those it asks for and the directories made on the way. -/
theorem volumeCreate_paths (hsidecar : ∀ p, Q p → Q (p ++ ".meta") ∧ Q (p ++ ".lease"))
    (hback : sdBackend env.host s (stringParam "storagedomainID" params) = some backend) :
    (∀ p ∈ VolumeVerb.volumeCreate.paths env params s, Q p) ↔
      (∀ xs ∈ VolumeVerb.volumeCreate.reached env params s.fs backend,
        Q (joinAll backend.dir ("images" :: xs))) ∧
        ∀ d ∈ VolumeVerb.volumeCreate.missing env params s.fs backend, Q (joinAll "/" d) := by
  have hfiles : Store.files ⟨s, []⟩ = [] := rfl
  simp only [VolumeVerb.paths, VolumeVerb.run, VolumeVerb.reached, VolumeVerb.missing,
    imageDirToMake]
  by_cases hids : stringParam "volumeID" params = "" ∨ stringParam "storagedomainID" params = "" ∨
      stringParam "imageID" params = ""
  · simp [volumeCreate, hids, hfiles]
  · rw [volumeCreate_snd ⟨s, []⟩ hids hback, if_neg hids]
    cases backend with
    | file sdPath =>
      dsimp only
      rw [if_neg hids, createFileVolume_files hsidecar hfiles, List.forall_mem_cons]
      refine and_congr (and_congr_right fun _ => ?_) Iff.rfl
      cases makesDir env s.fs (imgDir sdPath (stringParam "imageID" params)) <;>
        simp [joinAll, imgDir, SdBackend.dir]
    | block vg stateDir =>
      dsimp only
      rw [createBlockVolume_files hfiles]
      cases lvReady env vg (stringParam "volumeID" params) (sizeParam params)
          (if volFormatStr (intParamOr "volFormat" 5 params) = "COW" then "qcow2" else "raw") with
      | false => simp [hids]
      | true =>
        rw [if_neg hids, if_pos rfl, if_pos rfl, List.forall_mem_cons, forall_prop_of_true rfl]
        refine and_congr (and_congr_right fun _ => ?_) Iff.rfl
        cases makesDir env s.fs (imgDir stateDir (stringParam "imageID" params)) <;>
          simp [joinAll, metaPath, imgDir, SdBackend.dir]

/-- The paths of `volume_get_info`. -/
theorem volumeGetInfo_paths (hsidecar : ∀ p, Q p → Q (p ++ ".meta") ∧ Q (p ++ ".lease"))
    (hback : sdBackend env.host s (stringParam "storagedomainID" params) = some backend) :
    (∀ p ∈ VolumeVerb.volumeGetInfo.paths env params s, Q p) ↔
      ∀ xs ∈ VolumeVerb.volumeGetInfo.reached env params s.fs backend,
        Q (joinAll backend.dir ("images" :: xs)) := by
  have hfiles : Store.files ⟨s, []⟩ = [] := rfl
  simp only [VolumeVerb.paths, VolumeVerb.run, VolumeVerb.reached, volumeGetInfo, hback]
  cases backend with
  | file sdPath =>
    dsimp only
    split
    · simpa [hfiles, metaPath_eq, joinAll, imgDir, SdBackend.dir] using fun h => (hsidecar _ h).1
    · simpa [hfiles, metaPath_eq, joinAll, imgDir, SdBackend.dir] using fun h => (hsidecar _ h).1
  | block vg stateDir =>
    dsimp only
    split
    · simp [hfiles, metaPath, joinAll, imgDir, SdBackend.dir]
    · simp [hfiles, metaPath, joinAll, imgDir, SdBackend.dir]

/-- The paths of `volume_delete`. -/
theorem volumeDelete_paths (hsidecar : ∀ p, Q p → Q (p ++ ".meta") ∧ Q (p ++ ".lease"))
    (hback : sdBackend env.host s (stringParam "storagedomainID" params) = some backend) :
    (∀ p ∈ VolumeVerb.volumeDelete.paths env params s, Q p) ↔
      ∀ xs ∈ VolumeVerb.volumeDelete.reached env params s.fs backend,
        Q (joinAll backend.dir ("images" :: xs)) := by
  have hfiles : Store.files ⟨s, []⟩ = [] := rfl
  cases backend with
  | file sdPath =>
    have hlease : pathJoin (imgDir sdPath (stringParam "imageID" params))
        (stringParam "volumeID" params ++ ".lease") = pathJoin (imgDir sdPath
          (stringParam "imageID" params)) (stringParam "volumeID" params) ++ ".lease" :=
      pathJoin_append _ _ (by decide)
    simp only [VolumeVerb.paths, VolumeVerb.run, volumeDelete, VolumeVerb.reached, hback,
      files_removeFile, hfiles, metaPath_eq, hlease]
    simpa [joinAll, imgDir, SdBackend.dir] using hsidecar _
  | block vg stateDir =>
    simp [VolumeVerb.paths, VolumeVerb.run, volumeDelete, VolumeVerb.reached, hback, hfiles, joinAll,
      imgDir, metaPath, SdBackend.dir]

/-- The paths of `image_prepare`. -/
theorem imagePrepare_paths
    (hback : sdBackend env.host s (stringParam "storagedomainID" params) = some backend) :
    (∀ p ∈ VolumeVerb.imagePrepare.paths env params s, Q p) ↔
      ∀ xs ∈ VolumeVerb.imagePrepare.reached env params s.fs backend,
        Q (joinAll backend.dir ("images" :: xs)) := by
  have hfiles : Store.files ⟨s, []⟩ = [] := rfl
  simp only [VolumeVerb.paths, VolumeVerb.run, VolumeVerb.reached, imagePrepare, hback]
  cases backend with
  | file sdPath =>
    dsimp only
    split <;> simp [hfiles, joinAll, imgDir, SdBackend.dir]
  | block vg stateDir =>
    have hrun := files_run env ⟨s, []⟩ (.lvchange vg (stringParam "volumeID" params) true)
    dsimp only
    split
    · rename_i st₁ heq
      have hnone : st₁.files = [] := by simpa [heq, hfiles] using hrun
      simp [hnone]
    · rename_i out st₁ heq
      have hnone : st₁.files = [] := by simpa [heq, hfiles] using hrun
      split <;> simp [hnone]

/-- The paths of `image_delete`. -/
theorem imageDelete_paths
    (hback : sdBackend env.host s (stringParam "storagedomainID" params) = some backend) :
    (∀ p ∈ VolumeVerb.imageDelete.paths env params s, Q p) ↔
      ∀ xs ∈ VolumeVerb.imageDelete.reached env params s.fs backend,
        Q (joinAll backend.dir ("images" :: xs)) := by
  cases backend <;>
    simp [VolumeVerb.paths, VolumeVerb.run, imageDeleteTraced, VolumeVerb.reached, hback, Store.files,
      Act.path?, joinAll, imgDir, SdBackend.dir]

/-- The paths of a call, up to the sidecars of a path that is touched as well. -/
theorem paths_iff_reached (hsidecar : ∀ p, Q p → Q (p ++ ".meta") ∧ Q (p ++ ".lease"))
    (verb : VolumeVerb)
    (hback : sdBackend env.host s (stringParam "storagedomainID" params) = some backend) :
    (∀ p ∈ verb.paths env params s, Q p) ↔
      (∀ xs ∈ verb.reached env params s.fs backend, Q (joinAll backend.dir ("images" :: xs))) ∧
        ∀ d ∈ verb.missing env params s.fs backend, Q (joinAll "/" d) := by
  -- the other verbs make no directory
  have hnone : ∀ d ∈ ([] : List Location), Q (joinAll "/" d) := fun d hd => absurd hd List.not_mem_nil
  cases verb with
  | volumeCreate => exact volumeCreate_paths hsidecar hback
  | volumeGetInfo => exact (volumeGetInfo_paths hsidecar hback).trans (and_iff_left hnone).symm
  | volumeDelete => exact (volumeDelete_paths hsidecar hback).trans (and_iff_left hnone).symm
  | imagePrepare => exact (imagePrepare_paths hback).trans (and_iff_left hnone).symm
  | imageDelete => exact (imageDelete_paths hback).trans (and_iff_left hnone).symm

/-- Without a domain no file is touched. -/
theorem paths_of_none (verb : VolumeVerb)
    (hback : sdBackend env.host s (stringParam "storagedomainID" params) = none) :
    verb.paths env params s = [] := by
  cases verb with
  | volumeCreate =>
    simp only [VolumeVerb.paths, VolumeVerb.run, volumeCreate, hback]
    split_ifs <;> rfl
  | volumeGetInfo => simp [VolumeVerb.paths, VolumeVerb.run, volumeGetInfo, hback, Store.files]
  | volumeDelete => simp [VolumeVerb.paths, VolumeVerb.run, volumeDelete, hback, Store.files]
  | imagePrepare => simp [VolumeVerb.paths, VolumeVerb.run, imagePrepare, hback, Store.files]
  | imageDelete => simp [VolumeVerb.paths, VolumeVerb.run, imageDeleteTraced, hback, Store.files]

end

/-! ## Confinement -/

/-- The directories that a creation makes are places of names. -/
theorem isFileName_of_mem_missing {verb : VolumeVerb} {env : Env} {params : Value} {fs : Fs}
    {backend : SdBackend} {d : Location} (hd : d ∈ verb.missing env params fs backend) :
    ∀ c ∈ d, isFileName c = true := by
  cases verb with
  | volumeCreate =>
    rw [VolumeVerb.missing] at hd
    cases hdir : imageDirToMake env params backend with
    | none =>
      rw [hdir] at hd
      exact absurd hd List.not_mem_nil
    | some path =>
      rw [hdir] at hd
      obtain ⟨hnul, hstop⟩ := Fs.mem_stops_of_mem_dirsToMake hd
      exact Fs.isFileName_of_mem_stops (fun c hc => absurd hc List.not_mem_nil)
        (Fs.isNames_components hnul) hstop
  | volumeGetInfo | volumeDelete | imagePrepare | imageDelete => exact absurd hd List.not_mem_nil

/-- The files and directories a call creates, reads or removes are strictly below the images of its
domain exactly when the caller's strings keep every path it gets to there, and every directory that is
missing on the way to a new image belongs there too. -/
theorem paths_confined_iff (verb : VolumeVerb) (env : Env) (params : Value) (s : State) :
    let sdUuid := stringParam "storagedomainID" params
    (∀ p ∈ verb.paths env params s,
        ∃ backend, sdBackend env.host s sdUuid = some backend ∧ InImages backend sdUuid p) ↔
      ∀ backend, sdBackend env.host s sdUuid = some backend →
        (∀ xs ∈ verb.reached env params s.fs backend, Kept backend sdUuid xs) ∧
        ∀ d ∈ verb.missing env params s.fs backend,
          ∃ dir, ImagesDir backend sdUuid dir ∧ Below dir d := by
  intro sdUuid
  cases hback : sdBackend env.host s sdUuid with
  | none => simp [paths_of_none verb hback]
  | some backend =>
    have hsidecar : ∀ p, InImages backend sdUuid p →
        InImages backend sdUuid (p ++ ".meta") ∧ InImages backend sdUuid (p ++ ".lease") := by
      rintro p ⟨dir, hdir, hbelow⟩
      exact ⟨⟨dir, hdir, below_cleanPath_append (by decide) hbelow⟩,
        dir, hdir, below_cleanPath_append (by decide) hbelow⟩
    have hmissing : (∀ d ∈ verb.missing env params s.fs backend,
          InImages backend sdUuid (joinAll "/" d)) ↔
        ∀ d ∈ verb.missing env params s.fs backend,
          ∃ dir, ImagesDir backend sdUuid dir ∧ Below dir d := by
      refine forall₂_congr fun d hd => ?_
      rw [InImages, Fs.cleanPath_location (isFileName_of_mem_missing hd)]
    have hpaths := paths_iff_reached hsidecar verb hback
    rw [hmissing] at hpaths
    simp only [inImages_iff_kept hback] at hpaths
    simpa using hpaths

/-- The images of a domain with a plain name, on its own mount. -/
theorem imagesDir_own {host : Host} {s : State} {backend : SdBackend} (sd : FileName)
    (hback : sdBackend host s sd.1 = some backend) :
    ImagesDir backend sd.1 (components backend.dir ++ ["images"]) := by
  obtain ⟨-, -, hblock⟩ := sdBackend_plain sd hback
  rw [sdBackend, if_neg sd.ne_empty] at hback
  split_ifs at hback with hvg
  · obtain rfl := Option.some.inj hback
    simp [ImagesDir, hblock _ _ rfl, components_fileName]
  · obtain ⟨ent, rfl⟩ := fileBackend_eq_some hback
    obtain ⟨hmount, hcm⟩ := plain_mntBase.join ent
    have hmnt : components mntBase = mntLocation := by decide
    refine ⟨ent.1, ?_⟩
    rw [SdBackend.dir, (hmount.join sd).2, hcm, hmnt, components_fileName]
    simp

/-- A chain of names, from a path without `..`. -/
theorem cleanPath_joinAll_names (xs : List FileName) {path : String} (hpath : PlainPath path) :
    cleanPath (joinAll path (xs.map Subtype.val)) = components path ++ xs.map Subtype.val := by
  induction xs generalizing path with
  | nil =>
    have hparent : ".." ∉ components path := by
      intro hmem
      rcases hpath.plain _ (List.mem_filter.mp hmem).1 with htriv | hname
      · simp [isTrivial] at htriv
      · simp [isFileName] at hname
    simp [cleanPath, joinAll, walk_of_no_parent hparent]
  | cons x xs ih =>
    obtain ⟨hjoined, hcs⟩ := hpath.join x
    have hfold : joinAll path ((x :: xs).map Subtype.val)
        = joinAll (pathJoin path x.1) (xs.map Subtype.val) := rfl
    rw [hfold, ih hjoined, hcs]
    simp

/-- Names that a directory can hold are kept. -/
theorem kept_of_names {host : Host} {s : State} {backend : SdBackend} (sd : FileName)
    (hback : sdBackend host s sd.1 = some backend) (x : FileName) (xs : List FileName) :
    Kept backend sd.1 ((x :: xs).map Subtype.val) := by
  obtain ⟨hplain, -, -⟩ := sdBackend_plain sd hback
  rw [← inImages_iff_kept hback]
  have hnorm := cleanPath_joinAll_names (⟨"images", by decide⟩ :: x :: xs) hplain
  exact ⟨_, imagesDir_own sd hback, x.1, xs.map Subtype.val, by simpa using hnorm⟩

/-- A host without VGs, on which nothing fails. -/
def quietEnv : Env where
  host := quietHost
  faults := .none
  now := 0
  qemuFile _ := none
  deviceExists _ := true
  dirLength _ := 4096

/-- An absolute volume id is removed wherever it is. -/
theorem delete_outside_images :
    ¬ ∀ p ∈ VolumeVerb.volumeDelete.paths quietEnv
        (.object [("storagedomainID", .string "sd"), ("imageID", .string "disk"),
          ("volumeID", .string "/etc/passwd")]) oneImage,
      ∃ backend, sdBackend quietHost oneImage "sd" = some backend ∧ InImages backend "sd" p := by
  intro h
  obtain ⟨backend, -, dir, hdir, c, cs, heq⟩ := h "/etc/passwd" (by decide +kernel)
  have hnorm : cleanPath "/etc/passwd" = ["etc", "passwd"] := by decide +kernel
  rw [hnorm] at heq
  cases backend with
  | file sdPath =>
    obtain ⟨mount, rfl⟩ := hdir
    simp [mntLocation] at heq
  | block vg stateDir =>
    obtain rfl := hdir
    simp [stateLocation] at heq

end Vdsm.Storage
