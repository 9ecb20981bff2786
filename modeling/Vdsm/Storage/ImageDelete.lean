import Vdsm.Rpc.Protocol
import Vdsm.Storage.SdBackend

/-!
# `Image.delete` (`vdsm-storage/src/volumes.rs`)

The verb removes the directory of the image, and on a block domain the LVs whose sidecars it lists.
The directory is built from whatever strings the caller sent. `image_delete_frame` says exactly when
the other images survive: when none of them has a file below that directory, or an LV it lists.
Plain names are enough for the files. An image id that names no directory entry takes every image of
the domain with it.
-/

namespace Vdsm.Storage

open Rust FileSystem Supervdsm

/-- `params.get(key).and_then(Value::as_str).unwrap_or("")`. -/
def stringParam (key : String) (params : Value) : String :=
  ((params.get key).bind Value.asStr).getD ""

/-- `run(PrivOp::Lvremove { vg, lv })`, with its result ignored. -/
def lvremove (host : Host) (vg lv : String) (s : State) : State :=
  if (execute host (.lvremove vg lv)).1.ok then { s with lvs := s.lvs.filter (· != (vg, lv)) } else s

/-- One entry of the sidecar directory. -/
def removeListed (host : Host) (vg : String) (s : State) (name : String) : State :=
  match stripSuffix name ".meta" with
  | some vol => lvremove host vg vol s
  | none => s

/-- The two arms of `image_delete`: remove the image from a file or a block domain. -/
def deleteIn (host : Host) (imgId : String) (s : State) : SdBackend → State
  | .file sdPath => { s with fs := s.fs.removeDirAll (imgDir sdPath imgId) }
  | .block vgName stateDir =>
    let names := (s.fs.readDir (imgDir stateDir imgId)).getD []
    let s := names.foldl (removeListed host vgName) s
    -- the sidecars go with the directory, also those whose LV is still there
    { s with fs := s.fs.removeDirAll (imgDir stateDir imgId) }

/-- `image_delete`. -/
def imageDelete (host : Host) (params : Value) (s : State) : Except JsonRpcError Value × State :=
  let sdId := stringParam "storagedomainID" params
  let imgId := stringParam "imageID" params
  let s' := match sdBackend host s sdId with
    | some backend => deleteIn host imgId s backend
    | none => s
  (.ok (.object []), s')

/-! ## The other images -/

/-- A payload file or sidecar of an image, in any domain. -/
def ImageFile (s : State) (J : String) (p : Location) : Prop :=
  s.fs.isFile p = true ∧ ∃ root name, DomainRoot root ∧ p = inImage root J name

/-- The sidecar of a volume of a block domain. -/
def sidecar (vg J lv : String) : Location := inImage (stateLocation ++ [vg]) J (lv ++ ".meta")

/-- An LV of an image: one with a sidecar in the image's directory. -/
def ImageLv (s : State) (J vg lv : String) : Prop :=
  (vg, lv) ∈ s.lvs ∧ s.fs.isFile (sidecar vg J lv) = true

/-- Nothing of an image has changed. -/
structure Untouched (J : String) (s s' : State) : Prop where
  files : ∀ p, ImageFile s J p → s'.fs.entries.lookup p = s.fs.entries.lookup p
  lvs : ∀ vg lv, ImageLv s J vg lv → (vg, lv) ∈ s'.lvs

theorem Untouched.refl (J : String) (s : State) : Untouched J s s :=
  ⟨fun _ _ => rfl, fun _ _ hlv => hlv.1⟩

/-- The directory `dir` of a request holds no file of the image `J`, and on a block domain it lists
no LV of `J` that `lvremove` would remove. -/
structure DirSpares (host : Host) (s : State) (backend : SdBackend) (dir : Location) (J : String) :
    Prop where
  files : ∀ p, ImageFile s J p → ¬ dir <+: p
  lvs : ∀ vg stateDir lv, backend = .block vg stateDir → ImageLv s J vg lv →
    (s.fs.entries.lookup (dir ++ [lv ++ ".meta"])).isSome → (execute host (.lvremove vg lv)).1.ok = false

/-- The directory of a request, if there is one, spares every image but the one requested. -/
def Spares (host : Host) (s : State) (sdId imgId : String) : Prop :=
  ∀ backend dir, sdBackend host s sdId = some backend →
    s.fs.resolveDir (imgDir backend.dir imgId) = some dir →
    ∀ J, J ≠ imgId → DirSpares host s backend dir J

/-- No two images of a block domain have a sidecar for the same volume. -/
def SidecarsUnique (s : State) : Prop :=
  ∀ vg lv J J', (s.fs.entries.lookup (sidecar vg J lv)).isSome →
    (s.fs.entries.lookup (sidecar vg J' lv)).isSome → J = J'

/-! ## What the loop removes -/

@[simp] theorem removeListed_fs (host : Host) (vg : String) (s : State) (name : String) :
    (removeListed host vg s name).fs = s.fs := by
  unfold removeListed lvremove
  split
  · split_ifs <;> rfl
  · rfl

/-- Removing the listed LVs changes no file. -/
theorem foldl_removeListed_fs (host : Host) (vg : String) (s : State) (names : List String) :
    (names.foldl (removeListed host vg) s).fs = s.fs := by
  induction names generalizing s with
  | nil => rfl
  | cons name names ih => rw [List.foldl_cons, ih, removeListed_fs]

/-- `lvremove` removes its LV, if it goes through, and no other. -/
theorem mem_lvs_lvremove {host : Host} {vg lv : String} {s : State} {x : String × String} :
    x ∈ (lvremove host vg lv s).lvs ↔
      x ∈ s.lvs ∧ ¬ (x = (vg, lv) ∧ (execute host (.lvremove vg lv)).1.ok = true) := by
  unfold lvremove
  split_ifs with hok
  · simp [hok]
  · simp [hok]

/-- A listed name removes the LV whose sidecar it is. -/
theorem mem_lvs_removeListed {host : Host} {vg : String} {s : State} {name : String}
    {x : String × String} :
    x ∈ (removeListed host vg s name).lvs ↔
      x ∈ s.lvs ∧ ¬ (x.1 = vg ∧ x.2 ++ ".meta" = name ∧
        (execute host (.lvremove vg x.2)).1.ok = true) := by
  obtain ⟨g, l⟩ := x
  unfold removeListed
  cases hv : stripSuffix name ".meta" with
  | some vol =>
    obtain rfl := stripSuffix_eq_some.mp hv
    rw [mem_lvs_lvremove]
    simp only [Prod.mk.injEq, String.append_left_inj]
    constructor
    · rintro ⟨hm, hno⟩
      refine ⟨hm, ?_⟩
      rintro ⟨rfl, rfl, hok⟩
      exact hno ⟨⟨rfl, rfl⟩, hok⟩
    · rintro ⟨hm, hno⟩
      refine ⟨hm, ?_⟩
      rintro ⟨⟨rfl, rfl⟩, hok⟩
      exact hno ⟨rfl, rfl, hok⟩
  | none =>
    have hname : l ++ ".meta" ≠ name := by
      rintro rfl
      simp [stripSuffix_eq_some.mpr rfl] at hv
    simp [hname]

/-- The loop removes the LVs whose sidecars are listed, as far as `lvremove` does. -/
theorem mem_lvs_foldl_removeListed {host : Host} {vg : String} {s : State} {names : List String}
    {x : String × String} :
    x ∈ (names.foldl (removeListed host vg) s).lvs ↔
      x ∈ s.lvs ∧ ¬ (x.1 = vg ∧ x.2 ++ ".meta" ∈ names ∧
        (execute host (.lvremove vg x.2)).1.ok = true) := by
  induction names generalizing s with
  | nil => simp
  | cons name names ih =>
    rw [List.foldl_cons, ih, mem_lvs_removeListed, List.mem_cons]
    tauto

/-! ## The frame of the verb -/

/-- An image directory that exists is removed, with the LVs whose sidecars are in it. -/
theorem deleteIn_of_dir (host : Host) {imgId : String} {s : State} {backend : SdBackend}
    {dir : Location} (hdir : s.fs.resolveDir (imgDir backend.dir imgId) = some dir) :
    (deleteIn host imgId s backend).fs = s.fs.removeDirAll (imgDir backend.dir imgId) ∧
      ∀ x, x ∈ (deleteIn host imgId s backend).lvs ↔ x ∈ s.lvs ∧
        ¬ ((∃ stateDir, backend = .block x.1 stateDir) ∧
          (s.fs.entries.lookup (dir ++ [x.2 ++ ".meta"])).isSome ∧
          (execute host (.lvremove x.1 x.2)).1.ok = true) := by
  cases backend with
  | file sdPath => simp [deleteIn, SdBackend.dir]
  | block vgName stateDir =>
    obtain ⟨names, hread, hnames⟩ := Fs.mem_readDir hdir
    simp only [SdBackend.dir] at hread
    simp only [deleteIn, SdBackend.dir, hread, Option.getD_some, foldl_removeListed_fs, true_and]
    intro x
    rw [mem_lvs_foldl_removeListed, hnames]
    constructor
    · rintro ⟨hm, hno⟩
      refine ⟨hm, ?_⟩
      rintro ⟨⟨d, hd⟩, hlisted, hok⟩
      obtain ⟨rfl, -⟩ := SdBackend.block.inj hd
      exact hno ⟨rfl, hlisted, hok⟩
    · rintro ⟨hm, hno⟩
      refine ⟨hm, ?_⟩
      rintro ⟨rfl, hlisted, hok⟩
      exact hno ⟨⟨stateDir, rfl⟩, hlisted, hok⟩

/-- Where there is no image directory, nothing changes. -/
theorem deleteIn_of_no_dir {host : Host} {imgId : String} {s : State} {backend : SdBackend}
    (hdir : s.fs.resolveDir (imgDir backend.dir imgId) = none) :
    deleteIn host imgId s backend = s := by
  cases backend with
  | file sdPath =>
    simp only [SdBackend.dir] at hdir
    rw [deleteIn, Fs.removeDirAll_of_none hdir]
  | block vgName stateDir =>
    simp only [SdBackend.dir] at hdir
    have hread : s.fs.readDir (imgDir stateDir imgId) = none := by
      rw [Fs.readDir, hdir, Option.map_none]
    simp only [deleteIn, hread, Option.getD_none, List.foldl_nil, Fs.removeDirAll_of_none hdir]

/-- An image survives the removal exactly when the directory spares it. -/
theorem untouched_deleteIn {host : Host} {imgId J : String} {s : State} {backend : SdBackend}
    {dir : Location} (hdir : s.fs.resolveDir (imgDir backend.dir imgId) = some dir) :
    Untouched J s (deleteIn host imgId s backend) ↔ DirSpares host s backend dir J := by
  obtain ⟨hfs, hlvs⟩ := deleteIn_of_dir host hdir
  constructor
  · rintro ⟨hfiles, hkept⟩
    constructor
    · intro p hp
      have hsame := hfiles p hp
      rw [hfs] at hsame
      exact (Fs.removeDirAll_keeps_file hdir hp.1).mp hsame
    · rintro vg stateDir lv rfl hlv hlisted
      have hno := ((hlvs (vg, lv)).mp (hkept vg lv hlv)).2
      rw [Bool.eq_false_iff]
      exact fun hok => hno ⟨⟨stateDir, rfl⟩, hlisted, hok⟩
  · rintro ⟨hfiles, hkept⟩
    constructor
    · intro p hp
      rw [hfs]
      exact (Fs.removeDirAll_keeps_file hdir hp.1).mpr (hfiles p hp)
    · intro vg lv hlv
      refine (hlvs (vg, lv)).mpr ⟨hlv.1, ?_⟩
      rintro ⟨⟨stateDir, hvg⟩, hlisted, hok⟩
      simp [hkept vg stateDir lv hvg hlv hlisted] at hok

/-- With plain names no other image has a file below the directory; with unique sidecars it has no
LV there either. -/
theorem spares_of_plain {host : Host} {s : State} (sd img : FileName) (huniq : SidecarsUnique s) :
    Spares host s sd.1 img.1 := by
  intro backend dir hback hdir J hJ
  obtain ⟨-, hroot, hblock⟩ := sdBackend_plain sd hback
  obtain rfl := imgDir_resolves sd img hback hdir
  constructor
  · rintro p ⟨-, root', name, hroot', rfl⟩
    exact not_prefix_inImage hroot hroot' hJ
  · rintro vg stateDir lv hvg ⟨-, hfile⟩ hlisted
    obtain ⟨contents, hc⟩ := Fs.isFile_iff.mp hfile
    rw [hblock vg stateDir hvg, List.append_assoc] at hlisted
    exact absurd (huniq vg lv J img.1 (by simp [hc]) hlisted) hJ

/-- The image directories of a tree have file names. -/
theorem ImageFile.isFileName {s : State} {J : String} {p : Location} (h : ImageFile s J p) :
    Rust.isFileName J = true := by
  obtain ⟨hfile, root, name, -, rfl⟩ := h
  obtain ⟨contents, hentry⟩ := Fs.isFile_iff.mp hfile
  have hsplit : inImage root J name = root ++ ["images"] ++ [J] ++ [name] := by simp [inImage]
  rw [hsplit] at hentry
  rcases s.fs.closed (root ++ ["images"] ++ [J]) name (by rw [hentry]; rfl) with hnil | hdir
  · simp at hnil
  · exact s.fs.names (root ++ ["images"]) J (by rw [hdir]; rfl)

/-- An image id that is empty or a dot stands for all images: none of the domain is spared. -/
theorem not_spares_of_trivial {host : Host} {s : State} {backend : SdBackend} {imgId J name : String}
    (sd : FileName) (hback : sdBackend host s sd.1 = some backend) (himg : isTrivial imgId = true)
    (hfile : s.fs.isFile (inImage (components backend.dir) J name) = true) :
    ¬ Spares host s sd.1 imgId := by
  intro h
  obtain ⟨-, hroot, -⟩ := sdBackend_plain sd hback
  have hJ : ImageFile s J (inImage (components backend.dir) J name) := ⟨hfile, _, name, hroot, rfl⟩
  -- no image is called "" or "."
  have hne : J ≠ imgId := by
    rintro rfl
    have hname := hJ.isFileName
    simp [Rust.isFileName, himg] at hname
  have hdir := imgDir_trivial sd hback himg hfile
  exact (h backend _ hback hdir J hne).files _ hJ (by simp [inImage])

/-- `Image.delete` leaves every other image alone exactly when the directory it removes spares them;
plain identifiers are enough for that where no two images share a volume, and an empty image id is
enough for the opposite where the domain has an image. -/
theorem image_delete_frame (host : Host) (s : State) (params : Value) :
    ((∀ J, J ≠ stringParam "imageID" params → Untouched J s (imageDelete host params s).2) ↔
        Spares host s (stringParam "storagedomainID" params) (stringParam "imageID" params)) ∧
      (isFileName (stringParam "storagedomainID" params) = true →
        isFileName (stringParam "imageID" params) = true → SidecarsUnique s →
        Spares host s (stringParam "storagedomainID" params) (stringParam "imageID" params)) ∧
      ∀ backend J name, isFileName (stringParam "storagedomainID" params) = true →
        isTrivial (stringParam "imageID" params) = true →
        sdBackend host s (stringParam "storagedomainID" params) = some backend →
        s.fs.isFile (inImage (components backend.dir) J name) = true →
        ¬ Spares host s (stringParam "storagedomainID" params) (stringParam "imageID" params) := by
  refine ⟨⟨?_, ?_⟩, fun hsd himg huniq => spares_of_plain ⟨_, hsd⟩ ⟨_, himg⟩ huniq,
    fun backend J name hsd himg hback hfile => not_spares_of_trivial ⟨_, hsd⟩ hback himg hfile⟩
  · intro h backend dir hback hdir J hJ
    have hJ := h J hJ
    simp only [imageDelete, hback] at hJ
    exact (untouched_deleteIn hdir).mp hJ
  · intro h J hJ
    simp only [imageDelete]
    cases hback : sdBackend host s (stringParam "storagedomainID" params) with
    | none => exact .refl J s
    | some backend =>
      cases hdir : s.fs.resolveDir (imgDir backend.dir (stringParam "imageID" params)) with
      | none =>
        simp only [deleteIn_of_no_dir hdir]
        exact .refl J s
      | some dir => exact (untouched_deleteIn hdir).mpr (h backend dir hback hdir J hJ)

/-- A file domain `sd` with one image `disk`, on the mount `nfs`. -/
def oneImage : State where
  fs := (((((((Fs.empty.put [] "rhev" .dir).put ["rhev"] "data-center" .dir).put
    ["rhev", "data-center"] "mnt" .dir).put mntLocation "nfs" .dir).put
    (mntLocation ++ ["nfs"]) "sd" .dir).put (mntLocation ++ ["nfs", "sd"]) "images" .dir).put
    (mntLocation ++ ["nfs", "sd", "images"]) "disk" .dir).put
    (mntLocation ++ ["nfs", "sd", "images", "disk"]) "vol" (.file [1])
  lvs := []

/-- A request without an image id loses the one image of the domain. -/
theorem image_delete_without_id :
    ¬ ∀ J, J ≠ stringParam "imageID" (.object [("storagedomainID", .string "sd")]) →
      Untouched J oneImage
        (imageDelete quietHost (.object [("storagedomainID", .string "sd")]) oneImage).2 := by
  intro h
  have hfile : ImageFile oneImage "disk" (inImage (mntLocation ++ ["nfs", "sd"]) "disk" "vol") :=
    ⟨by decide, _, "vol", .inl ⟨"nfs", "sd", rfl⟩, rfl⟩
  have hsame := (h "disk" (by decide)).files _ hfile
  revert hsame
  decide

end Vdsm.Storage
