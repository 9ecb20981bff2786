import Vdsm.Storage.Volumes

/-!
# Deletion

What `Image.deleteVolumes`, `Volume.delete` and `Image.delete` leave behind. The first is wired to
`image_delete`, which knows nothing of a volume list: `delete_volumes_iff` says that it spares the
volumes that are not listed exactly when there are none. The other two ignore what became of each
`lvremove`: `deletion_tidy_iff` says that no LV loses its sidecar exactly when every LV whose sidecar
goes is removed too.
-/

namespace Vdsm.Storage

open Rust FileSystem Supervdsm

/-! ## `Image.deleteVolumes` -/

/-- The volumes a request lists. -/
def volumeList (params : Value) : List String :=
  (((params.get "volumeList").bind Value.asArray).getD []).filterMap Value.asStr

/-- A volume with its payload and its sidecar, in the directory of its image. -/
structure VolumeAt (s : State) (backend : SdBackend) (dir : Location) (vol : String) : Prop where
  sidecar : s.fs.isFile (dir ++ [vol ++ ".meta"]) = true
  payload : match backend with
    | .file _ => s.fs.isFile (dir ++ [vol]) = true
    | .block vg _ => (vg, vol) ∈ s.lvs

/-- The directory a request leads to, with the domain it is in. -/
def ImageAt (host : Host) (s : State) (params : Value) (backend : SdBackend) (dir : Location) : Prop :=
  sdBackend host s (stringParam "storagedomainID" params) = some backend ∧
    s.fs.resolveDir (imgDir backend.dir (stringParam "imageID" params)) = some dir

/-- `Image.deleteVolumes` spares the volumes of the image that are not listed exactly when all are
listed: none survives. -/
theorem delete_volumes_iff (host : Host) (s : State) (params : Value) :
    (∀ backend dir vol, ImageAt host s params backend dir → VolumeAt s backend dir vol →
        vol ∉ volumeList params →
        VolumeAt (imageDeleteVolumes host params s).2 backend dir vol) ↔
      ∀ backend dir vol, ImageAt host s params backend dir → VolumeAt s backend dir vol →
        vol ∈ volumeList params := by
  constructor
  · intro h backend dir vol himg hvol
    by_contra hunlisted
    obtain ⟨contents, hafter⟩ := Fs.isFile_iff.mp (h backend dir vol himg hvol hunlisted).sidecar
    obtain ⟨hback, hdir⟩ := himg
    have hfs : (imageDeleteVolumes host params s).2.fs
        = s.fs.removeDirAll (imgDir backend.dir (stringParam "imageID" params)) := by
      simp only [imageDeleteVolumes, imageDelete, hback]
      exact (deleteIn_of_dir host hdir).1
    rw [hfs, Fs.lookup_removeDirAll_below hdir (by simp)] at hafter
    simp at hafter
  · intro h backend dir vol himg hvol hunlisted
    exact absurd (h backend dir vol himg hvol) hunlisted

/-- The domain of `oneImage` with a snapshot: a base volume and one on top of it. -/
def snapshotImage : State where
  fs := ((((oneImage.fs.put (mntLocation ++ ["nfs", "sd", "images", "disk"]) "base" (.file [1])).put
    (mntLocation ++ ["nfs", "sd", "images", "disk"]) "base.meta" (.file [])).put
    (mntLocation ++ ["nfs", "sd", "images", "disk"]) "snap" (.file [2])).put
    (mntLocation ++ ["nfs", "sd", "images", "disk"]) "snap.meta" (.file []))
  lvs := []

/-- Removing the snapshot. -/
def deleteSnapshot : Value :=
  .object [("storagedomainID", .string "sd"), ("imageID", .string "disk"),
    ("volumeList", .array [.string "snap"])]

/-- Deleting a snapshot deletes the base volume with it. -/
theorem delete_volumes_takes_base :
    ¬ ∀ backend dir vol, ImageAt quietHost snapshotImage deleteSnapshot backend dir →
      VolumeAt snapshotImage backend dir vol → vol ∉ volumeList deleteSnapshot →
      VolumeAt (imageDeleteVolumes quietHost deleteSnapshot snapshotImage).2 backend dir vol := by
  intro h
  have hback : sdBackend quietHost snapshotImage "sd" = some (.file "/rhev/data-center/mnt/nfs/sd") := by
    decide
  have hdir : snapshotImage.fs.resolveDir (imgDir "/rhev/data-center/mnt/nfs/sd" "disk")
      = some (mntLocation ++ ["nfs", "sd", "images", "disk"]) := by decide
  have hafter := (h (.file "/rhev/data-center/mnt/nfs/sd") _ "base" ⟨hback, hdir⟩
    ⟨by decide, by decide⟩ (by decide)).payload
  revert hafter
  decide

/-! ## Orphaned LVs -/

/-- Where the sidecars of the LVs that `Volume.create` made were written. -/
abbrev Origins : Type := String × String → Option Location

/-- Every such LV that is still there has its sidecar. -/
def Tidy (origins : Origins) (s : State) : Prop :=
  ∀ x loc, origins x = some loc → x ∈ s.lvs → s.fs.isFile loc = true

/-- A state keeps tidy exactly when each LV whose sidecar goes has gone. -/
theorem tidy_after_iff {origins : Origins} {s s' : State} (h : Tidy origins s)
    (hlvs : ∀ x ∈ s'.lvs, x ∈ s.lvs) :
    Tidy origins s' ↔ ∀ x loc, origins x = some loc → x ∈ s.lvs → s.fs.isFile loc = true →
      s'.fs.isFile loc = false → x ∉ s'.lvs := by
  constructor
  · intro h' x loc ho _ _ hgone hx
    simp [h' x loc ho hx] at hgone
  · intro h' x loc ho hx
    by_contra hgone
    exact h' x loc ho (hlvs x hx) (h x loc ho (hlvs x hx)) (by simpa using hgone) hx

/-- Removing a file removes what its path leads to and nothing else. -/
theorem isFile_removeFile (fs : Fs) (path : String) (p : Location) :
    (fs.removeFile path).isFile p = (fs.isFile p && decide (fs.resolve path ≠ some p)) := by
  rw [Fs.isFile, Fs.lookup_removeFile]
  by_cases hp : fs.resolve path = some p
  · by_cases hfile : fs.isFile p = true
    · simp [hp, hfile]
    · rw [if_neg (by simp [hfile])]
      rw [Fs.isFile] at hfile
      simpa [hp] using hfile
  · rw [if_neg (fun h => hp h.1)]
    simp [hp, Fs.isFile]

/-- `lvremove` as an operation and as a change of state. -/
theorem run_lvremove_toState (env : Env) (vg lv : String) (st : Store) :
    (st.run env (.lvremove vg lv)).2.toState = lvremove env.host vg lv st.toState := by
  by_cases hok : (execute env.host (.lvremove vg lv)).1.ok = true
  · simp only [Store.run, lvremove, if_pos hok]
    rfl
  · simp only [Store.run, lvremove, if_neg hok]
    rfl

/-- `Volume.create` in a block domain: the new LV has its sidecar, and the others keep theirs. -/
theorem tidy_volumeCreate {env : Env} {params v : Value} {st st' : Store} {origins : Origins}
    {vg stateDir : String}
    (hback : sdBackend env.host st.toState (stringParam "storagedomainID" params)
      = some (.block vg stateDir))
    (h : volumeCreate env params st = (.ok v, st')) (htidy : Tidy origins st.toState) :
    ∃ loc, st'.fs.resolve (metaPath stateDir (stringParam "imageID" params)
        (stringParam "volumeID" params)) = some loc ∧
      Tidy (Function.update origins (vg, stringParam "volumeID" params) (some loc)) st'.toState := by
  obtain ⟨backend, hback', ⟨loc, hres, hentry⟩, hblock⟩ := volumeCreate_ok h
  obtain rfl : SdBackend.block vg stateDir = backend := by simpa [hback] using hback'
  obtain ⟨hlvs, hfiles⟩ := hblock vg stateDir rfl
  refine ⟨loc, hres, ?_⟩
  intro x loc' ho hx
  by_cases hnew : x = (vg, stringParam "volumeID" params)
  · subst hnew
    obtain rfl : loc = loc' := by simpa using ho
    exact Fs.isFile_iff.mpr ⟨_, hentry⟩
  · rw [Function.update_of_ne hnew] at ho
    rw [hlvs, List.mem_append, List.mem_singleton] at hx
    rcases hx with hx | hx
    · exact hfiles loc' (htidy x loc' ho hx)
    · exact absurd hx hnew

/-- The LV is the one the request names and `lvremove` removes it. -/
def VolumeReleased (host : Host) (vg vol : String) (x : String × String) : Prop :=
  x = (vg, vol) ∧ (execute host (.lvremove vg vol)).1.ok = true

/-- The LV is one the directory lists and `lvremove` removes it. -/
def ListedReleased (host : Host) (s : State) (vg : String) (dir : Location) (x : String × String) :
    Prop :=
  x.1 = vg ∧ (s.fs.entries.lookup (dir ++ [x.2 ++ ".meta"])).isSome ∧
    (execute host (.lvremove x.1 x.2)).1.ok = true

/-- `Volume.delete` in a block domain: one sidecar, and at most one LV. -/
theorem volumeDelete_block {env : Env} {params : Value} {st : Store} {vg stateDir : String}
    (hback : sdBackend env.host st.toState (stringParam "storagedomainID" params)
      = some (.block vg stateDir)) :
    (volumeDelete env params st).2.fs = st.fs.removeFile
        (metaPath stateDir (stringParam "imageID" params) (stringParam "volumeID" params)) ∧
      ∀ x, x ∈ (volumeDelete env params st).2.lvs ↔
        x ∈ st.lvs ∧ ¬ VolumeReleased env.host vg (stringParam "volumeID" params) x := by
  have hrun := run_lvremove_toState env vg (stringParam "volumeID" params) st
  have hfs : (lvremove env.host vg (stringParam "volumeID" params) st.toState).fs = st.fs := by
    unfold lvremove
    split_ifs <;> rfl
  rw [← hrun] at hfs
  simp only [volumeDelete, hback, Store.removeFile, hfs, true_and]
  intro x
  rw [hrun, mem_lvs_lvremove]
  rfl

/-- Removing a directory removes the files below it and no others. -/
theorem isFile_removeDirAll {fs : Fs} {path : String} {dir p : Location}
    (hdir : fs.resolveDir path = some dir) (hp : fs.isFile p = true) :
    (fs.removeDirAll path).isFile p = false ↔ dir <+: p := by
  constructor
  · intro hgone
    by_contra hpre
    have hkept := (Fs.removeDirAll_keeps_file hdir hp).mpr hpre
    rw [Fs.isFile] at hgone hp
    rw [hkept] at hgone
    simp [hp] at hgone
  · rintro ⟨q, rfl⟩
    have hq : q ≠ [] := by
      rintro rfl
      exact Fs.file_ne_dir (Fs.resolveDir_isDir hdir) hp (by simp)
    rw [Fs.isFile, Fs.lookup_removeDirAll_below hdir hq]

/-- In a block domain, `Volume.delete` keeps a tidy state tidy exactly when every LV whose sidecar is
the one it removes is the LV it removes; `Image.delete`, when every LV with its sidecar in the
directory it removes is listed there and removed. -/
theorem deletion_tidy_iff (env : Env) (params : Value) (st : Store) (origins : Origins)
    (vg stateDir : String)
    (hback : sdBackend env.host st.toState (stringParam "storagedomainID" params)
      = some (.block vg stateDir))
    (htidy : Tidy origins st.toState) :
    (Tidy origins (volumeDelete env params st).2.toState ↔
        ∀ x ∈ st.lvs, ∀ loc, origins x = some loc →
          st.fs.resolve (metaPath stateDir (stringParam "imageID" params)
            (stringParam "volumeID" params)) = some loc →
          VolumeReleased env.host vg (stringParam "volumeID" params) x) ∧
      (Tidy origins (imageDelete env.host params st.toState).2 ↔
        ∀ x ∈ st.lvs, ∀ loc dir, origins x = some loc →
          st.fs.resolveDir (imgDir stateDir (stringParam "imageID" params)) = some dir → dir <+: loc →
          ListedReleased env.host st.toState vg dir x) := by
  constructor
  · obtain ⟨hfs, hlvs⟩ := volumeDelete_block hback
    rw [tidy_after_iff htidy (fun x hx => ((hlvs x).mp hx).1), hfs]
    constructor
    · intro h x hx loc ho hres
      have hgone := h x loc ho hx (htidy x loc ho hx) (by simp [isFile_removeFile, hres])
      by_contra hno
      exact hgone ((hlvs x).mpr ⟨hx, hno⟩)
    · intro h x loc ho hx hfile hgone hkept
      refine ((hlvs x).mp hkept).2 (h x hx loc ho ?_)
      by_contra hres
      simp [isFile_removeFile, hfile, hres] at hgone
  · simp only [imageDelete, hback]
    have hstate : (SdBackend.block vg stateDir).dir = stateDir := rfl
    cases hdir : st.fs.resolveDir (imgDir stateDir (stringParam "imageID" params)) with
    | none =>
      rw [← hstate] at hdir
      rw [deleteIn_of_no_dir hdir]
      simpa using htidy
    | some dir =>
      rw [← hstate] at hdir
      obtain ⟨hfs, hlvs⟩ := deleteIn_of_dir env.host hdir
      rw [tidy_after_iff htidy (fun x hx => ((hlvs x).mp hx).1), hfs]
      constructor
      · intro h x hx loc dir' ho hdir' hpre
        obtain rfl : dir = dir' := by simpa using hdir'
        have hfile := htidy x loc ho hx
        have hgone := h x loc ho hx hfile ((isFile_removeDirAll hdir hfile).mpr hpre)
        rw [hlvs] at hgone
        by_contra hno
        refine hgone ⟨hx, ?_⟩
        rintro ⟨⟨d, hd⟩, hlisted, hok⟩
        obtain ⟨rfl, -⟩ := SdBackend.block.inj hd
        exact hno ⟨rfl, hlisted, hok⟩
      · intro h x loc ho hx hfile hgone hkept
        have hpre := (isFile_removeDirAll hdir hfile).mp hgone
        obtain ⟨rfl, hlisted, hok⟩ := h x hx loc dir ho rfl hpre
        exact ((hlvs x).mp hkept).2 ⟨⟨stateDir, rfl⟩, hlisted, hok⟩

/-- The origin of the LV of `oneLv`. -/
def oneOrigin : Origins := fun x =>
  if x = ("vg", "vol") then some (sidecar "vg" "disk" "vol") else none

/-- The request for it. -/
def oneVolume : Value :=
  .object [("storagedomainID", .string "vg"), ("imageID", .string "disk"), ("volumeID", .string "vol")]

/-- The sample is tidy to start with. -/
theorem tidy_oneLv : Tidy oneOrigin oneLv.toState := by
  intro x loc ho hx
  obtain rfl : x = ("vg", "vol") := by simpa [oneLv] using hx
  obtain rfl : sidecar "vg" "disk" "vol" = loc := by simpa [oneOrigin] using ho
  decide

/-- It stays tidy where `lvremove` works. -/
theorem deletion_tidy_of_working :
    Tidy oneOrigin (volumeDelete (vgEnv true) oneVolume oneLv).2.toState := by
  refine (deletion_tidy_iff (vgEnv true) oneVolume oneLv oneOrigin "vg" "/var/lib/vdsm/sd/vg"
    (by decide) tidy_oneLv).1.mpr ?_
  intro x hx loc _ _
  obtain rfl : x = ("vg", "vol") := by simpa [oneLv] using hx
  exact ⟨rfl, by decide⟩

/-- Where `lvremove` fails, both verbs take the sidecar and leave the LV. -/
theorem deletion_orphans :
    Tidy oneOrigin oneLv.toState ∧
      ¬ Tidy oneOrigin (volumeDelete (vgEnv false) oneVolume oneLv).2.toState ∧
      ¬ Tidy oneOrigin (imageDelete (vgHost false) oneVolume oneLv.toState).2 := by
  refine ⟨tidy_oneLv, ?_, ?_⟩
  · intro h
    have hfile := h ("vg", "vol") (sidecar "vg" "disk" "vol") (by decide) (by decide)
    revert hfile
    decide
  · intro h
    have hfile := h ("vg", "vol") (sidecar "vg" "disk" "vol") (by decide) (by decide)
    revert hfile
    decide

end Vdsm.Storage
