import Vdsm.Lib.FileSystem
import Vdsm.Storage.Connection
import Vdsm.Supervdsm.Exec

/-!
# Storage domains (`vdsm-storage/src/sd_backend.rs`)

A storage domain is a file domain, a directory of a mount below `mntBase`, or a block domain, a
volume group named after the domain whose images have their sidecars below `blockSdStateBase`. The
directory of an image is built from the caller's strings. `imgDir_resolves` says where it is when
these are plain names.
-/

namespace Vdsm.Storage

open Rust FileSystem Supervdsm

/-- What the verbs change: the file system, and the logical volumes as VG and LV name. -/
structure State where
  fs : Fs
  lvs : List (String × String)

/-- `BLOCK_SD_STATE_BASE`. -/
def blockSdStateBase : String := "/var/lib/vdsm/sd"

/-- `SdBackend`. -/
inductive SdBackend where
  | file (sdPath : String)
  | block (vgName stateDir : String)
deriving DecidableEq, Repr

/-- `vg_exists`. -/
def vgExists (host : Host) (name : String) : Bool :=
  let args := ["--noheadings", "-o", "vg_name", "--select", "vg_name=" ++ name]
  match host.output "/usr/sbin/vgs" args with
  | .ok o => o.success && !o.stdout.isEmpty && trim (fromUtf8Lossy o.stdout) == name
  | .error _ => false

/-- A file domain on one of the mounts, the first in the order `mntBase` lists them. -/
def fileBackend (fs : Fs) (sdUuid : String) : Option SdBackend := do
  let entries ← fs.readDir mntBase
  entries.findSome? fun ent =>
    let p := pathJoin (pathJoin mntBase ent) sdUuid
    if (fs.resolveDir p).isSome then some (.file p) else none

/-- `sd_backend`. -/
def sdBackend (host : Host) (s : State) (sdUuid : String) : Option SdBackend :=
  if sdUuid = "" then none
  -- the VG is looked for first, whatever is mounted
  else if vgExists host sdUuid then some (.block sdUuid (pathJoin blockSdStateBase sdUuid))
  else fileBackend s.fs sdUuid

/-- Where a domain keeps its images. -/
def SdBackend.dir : SdBackend → String
  | file sdPath => sdPath
  | block _ stateDir => stateDir

/-- `<domain>.join("images").join(img_id)`. -/
def imgDir (domain imgId : String) : String := pathJoin (pathJoin domain "images") imgId

/-! ## Where domains and images are -/

/-- `mntBase` as a location. -/
def mntLocation : Location := ["rhev", "data-center", "mnt"]

/-- `blockSdStateBase` as a location. -/
def stateLocation : Location := ["var", "lib", "vdsm", "sd"]

/-- The directory of a storage domain: of a file domain on some mount, or the state of a block
domain. -/
def DomainRoot (root : Location) : Prop :=
  (∃ mount sdUuid, root = mntLocation ++ [mount, sdUuid]) ∨ ∃ sdUuid, root = stateLocation ++ [sdUuid]

/-- A location directly in the directory of an image. -/
def inImage (root : Location) (imgId name : String) : Location := root ++ ["images", imgId, name]

/-- Different images of whatever domains have no location in common. -/
theorem not_prefix_inImage {root root' : Location} {I J name : String} (hroot : DomainRoot root)
    (hroot' : DomainRoot root') (hne : J ≠ I) :
    ¬ root ++ ["images", I] <+: inImage root' J name := by
  rcases hroot with ⟨m, S, rfl⟩ | ⟨S, rfl⟩ <;> rcases hroot' with ⟨m', S', rfl⟩ | ⟨S', rfl⟩ <;>
    simp [inImage, mntLocation, stateLocation, List.cons_prefix_cons, Ne.symm hne]

/-! ## Plain identifiers -/

/-- The base of the mounts is a plain path. -/
theorem plain_mntBase : PlainPath mntBase := ⟨by decide, by decide, by decide⟩

/-- So is that of the state of block domains. -/
theorem plain_blockSdStateBase : PlainPath blockSdStateBase := ⟨by decide, by decide, by decide⟩

/-- A file domain is a directory named after it on one of the mounts. -/
theorem fileBackend_eq_some {fs : Fs} {sdUuid : String} {backend : SdBackend}
    (h : fileBackend fs sdUuid = some backend) :
    ∃ ent : FileName, backend = .file (pathJoin (pathJoin mntBase ent.1) sdUuid) := by
  obtain ⟨entries, hread, hfind⟩ := Option.bind_eq_some_iff.mp h
  obtain ⟨ent, hent, hback⟩ := List.exists_of_findSome?_eq_some hfind
  dsimp only at hback
  split_ifs at hback with hdir
  exact ⟨⟨ent, Fs.isFileName_of_mem_readDir hread hent⟩, (Option.some.inj hback).symm⟩

/-- The directory of a domain with a plain name. -/
theorem sdBackend_plain {host : Host} {s : State} {backend : SdBackend} (sd : FileName)
    (h : sdBackend host s sd.1 = some backend) :
    PlainPath backend.dir ∧ DomainRoot (components backend.dir) ∧
      ∀ vg stateDir, backend = .block vg stateDir → components backend.dir = stateLocation ++ [vg] := by
  rw [sdBackend, if_neg sd.ne_empty] at h
  split_ifs at h with hvg
  · obtain rfl := Option.some.inj h
    obtain ⟨hplain, hcs⟩ := plain_blockSdStateBase.join sd
    have hstate : components blockSdStateBase = stateLocation := by decide
    rw [hstate] at hcs
    refine ⟨hplain, .inr ⟨sd.1, hcs⟩, ?_⟩
    intro vg stateDir heq
    obtain ⟨rfl, -⟩ := SdBackend.block.inj heq
    exact hcs
  · obtain ⟨ent, rfl⟩ := fileBackend_eq_some h
    obtain ⟨hmount, hcm⟩ := plain_mntBase.join ent
    obtain ⟨hplain, hcs⟩ := hmount.join sd
    have hmnt : components mntBase = mntLocation := by decide
    refine ⟨hplain, .inl ⟨ent.1, sd.1, ?_⟩, by simp⟩
    rw [SdBackend.dir, hcs, hcm, hmnt, List.append_assoc]
    rfl

/-- With plain names the directory of an image is where it should be: in its domain. -/
theorem imgDir_resolves {host : Host} {s : State} {backend : SdBackend} {dir : Location}
    (sd img : FileName) (hback : sdBackend host s sd.1 = some backend)
    (hdir : s.fs.resolveDir (imgDir backend.dir img.1) = some dir) :
    dir = components backend.dir ++ ["images", img.1] := by
  obtain ⟨hplain, -⟩ := sdBackend_plain sd hback
  obtain ⟨himages, hci⟩ := hplain.join ⟨"images", by decide⟩
  obtain ⟨himg, hc⟩ := himages.join img
  have hres := (Option.filter_eq_some_iff.mp hdir).1
  have hloc : dir = components (imgDir backend.dir img.1) := Fs.resolve_plain himg.plain hres
  rw [hloc, imgDir, hc, hci, List.append_assoc]
  rfl

/-- An image id that is empty or a dot leads to the directory of all images. -/
theorem imgDir_trivial {host : Host} {s : State} {backend : SdBackend} {imgId J name : String}
    (sd : FileName) (hback : sdBackend host s sd.1 = some backend) (himg : isTrivial imgId = true)
    (hfile : s.fs.isFile (inImage (components backend.dir) J name) = true) :
    s.fs.resolveDir (imgDir backend.dir imgId) = some (components backend.dir ++ ["images"]) := by
  obtain ⟨hplain, -⟩ := sdBackend_plain sd hback
  obtain ⟨himages, hci⟩ := hplain.join ⟨"images", by decide⟩
  obtain ⟨htriv, hc⟩ := himages.join_trivial himg
  obtain ⟨contents, hentry⟩ := Fs.isFile_iff.mp hfile
  have hsplit : inImage (components backend.dir) J name
      = components backend.dir ++ ["images"] ++ [J, name] := by simp [inImage]
  rw [hsplit] at hentry
  have hdir : s.fs.isDir (components backend.dir ++ ["images"]) = true :=
    Fs.isDir_of_below (List.cons_ne_nil J [name]) (by rw [hentry]; rfl)
  have hloc : components (imgDir backend.dir imgId) = components backend.dir ++ ["images"] := by
    rw [imgDir, hc, hci]
  rw [← hloc] at hdir ⊢
  exact Fs.resolveDir_plain htriv hdir

end Vdsm.Storage
