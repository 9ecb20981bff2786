import Vdsm.Lib.Normal
import Vdsm.Storage.Volumes

/-!
# The paths of an LV

An LV is named to LVM as `vg/lv` and opened as `/dev/vg/lv`. The characters that `valid_lvm_name`
allows keep each of the two names one component; but the dot is among them, so either may be `.` or
`..`, and then the path names something else.
-/

namespace Vdsm.Storage

open Rust Supervdsm

/-- `/dev/{vg}/{lv}`. -/
def devicePath (vg lv : String) : String := s!"/dev/{vg}/{lv}"

/-- No component of the path is `.` or `..`. -/
def NoDots (p : String) : Prop := ∀ c ∈ splitChar '/' p, c ≠ "." ∧ c ≠ ".."

instance (p : String) : Decidable (NoDots p) :=
  inferInstanceAs (Decidable (∀ c ∈ splitChar '/' p, c ≠ "." ∧ c ≠ ".."))

/-- The ops on an existing LV. -/
def lvOps (vg lv : String) : List PrivOp :=
  [.lvchange vg lv true, .lvchange vg lv false, .lvremove vg lv]

/-- The LV of this name in this VG is all that its ops and its device path can address. -/
structure AddressesOnly (host : Host) (vg lv : String) : Prop where
  args : ∀ op ∈ lvOps vg lv, ∀ bin args, Action.spawn bin args ∈ (execute host op).2 →
    ∀ arg ∈ args, NoDots arg
  device : NoDots (devicePath vg lv) ∧ cleanPath (devicePath vg lv) = ["dev", vg, lv]
  prepared : ∀ env params st v st' stateDir,
    sdBackend env.host st.toState (stringParam "storagedomainID" params)
      = some (.block vg stateDir) → stringParam "volumeID" params = lv →
    imagePrepare env params st = (.ok v, st') →
    ∃ p, v.get "path" = some (.string p) ∧ NoDots p ∧ cleanPath p = ["dev", vg, lv]

/-! ## Components -/

/-- A valid name has no slash in it. -/
theorem slash_not_mem_of_validLvmName {s : String} (h : validLvmName s = true) : '/' ∉ s.toList := by
  simp only [validLvmName, Bool.and_eq_true] at h
  exact not_mem_of_all (by decide) h.2

section Paths

variable {vg lv : String} (hvg : '/' ∉ vg.toList) (hlv : '/' ∉ lv.toList)

include hvg hlv

/-- So `vg/lv` has two parts. -/
theorem splitChar_lvPath : splitChar '/' (vg ++ "/" ++ lv) = [vg, lv] := by
  rw [splitChar_append_cons (s := vg) (t := lv) (by simp), splitChar_of_not_mem hvg,
    splitChar_of_not_mem hlv]
  rfl

theorem splitChar_devicePath : splitChar '/' (devicePath vg lv) = ["", "dev", vg, lv] := by
  have hsplit : splitChar '/' (devicePath vg lv)
      = splitChar '/' "/dev" ++ splitChar '/' (vg ++ "/" ++ lv) :=
    splitChar_append_cons (by simp [devicePath, toString])
  rw [hsplit, splitChar_lvPath hvg hlv]
  rfl

/-- No part of `vg/lv` is a dot entry exactly if neither name is. -/
theorem noDots_lvPath_iff :
    NoDots (vg ++ "/" ++ lv) ↔ (vg ≠ "." ∧ vg ≠ "..") ∧ lv ≠ "." ∧ lv ≠ ".." := by
  rw [NoDots, splitChar_lvPath hvg hlv]
  simp

theorem noDots_devicePath_iff :
    NoDots (devicePath vg lv) ↔ (vg ≠ "." ∧ vg ≠ "..") ∧ lv ≠ "." ∧ lv ≠ ".." := by
  rw [NoDots, splitChar_devicePath hvg hlv]
  simp

/-- Without dot entries the path leads to the device of that name. -/
theorem cleanPath_devicePath (h : NoDots (devicePath vg lv)) (hvg' : vg ≠ "") (hlv' : lv ≠ "") :
    cleanPath (devicePath vg lv) = ["dev", vg, lv] := by
  obtain ⟨⟨hv, hv'⟩, hl, hl'⟩ := (noDots_devicePath_iff hvg hlv).mp h
  have hcomponents : components (devicePath vg lv) = ["dev", vg, lv] := by
    rw [components, splitChar_devicePath hvg hlv]
    simp [isTrivial, hvg', hlv', hv, hl]
  rw [cleanPath, hcomponents, walk_of_no_parent]
  · rfl
  · simp [Ne.symm hv', Ne.symm hl']

end Paths

/-! ## The ops -/

/-- The path that `image_prepare` returns is the one of the device. -/
theorem imagePrepare_path {env : Env} {params v : Value} {st st' : Store} {vg stateDir : String}
    (hback : sdBackend env.host st.toState (stringParam "storagedomainID" params)
      = some (.block vg stateDir)) (h : imagePrepare env params st = (.ok v, st')) :
    v.get "path" = some (.string (devicePath vg (stringParam "volumeID" params))) := by
  simp only [imagePrepare, hback] at h
  split at h
  · simp at h
  · split at h
    · simp at h
    · obtain ⟨hv, -⟩ := Prod.mk.inj h
      rw [← Except.ok.inj hv]
      rfl

/-- Besides fixed words, the commands for an LV are given its path. -/
theorem lvOps_args {host : Host} {vg lv : String} {op : PrivOp} (hop : op ∈ lvOps vg lv)
    {bin : String} {args : List String} (h : Action.spawn bin args ∈ (execute host op).2)
    {arg : String} (harg : arg ∈ args) :
    arg ∈ ["-a", "y", "-K", "n", "-f", "-y"] ∨ arg = vg ++ "/" ++ lv := by
  simp only [lvOps, List.mem_cons, List.not_mem_nil, or_false] at hop
  rcases hop with rfl | rfl | rfl <;>
  · simp only [execute] at h
    split at h
    · simp [invalid] at h
    · split at h
      · simp [invalid] at h
      · obtain ⟨-, rfl⟩ : bin = _ ∧ args = _ := by simpa [run] using h
        rcases (by simpa using harg) with rfl | rfl | rfl | rfl <;> simp

/-- Traversal in LVM names. The ops on an LV whose names are valid, and the path of its device, address
only that LV exactly when neither name is `.` or `..`. -/
theorem lvm_names_address_only_iff (host : Host) (vg lv : String) (hvg : validLvmName vg = true)
    (hlv : validLvmName lv = true) :
    AddressesOnly host vg lv ↔ (vg ≠ "." ∧ vg ≠ "..") ∧ lv ≠ "." ∧ lv ≠ ".." := by
  have hvg' := slash_not_mem_of_validLvmName hvg
  have hlv' := slash_not_mem_of_validLvmName hlv
  constructor
  · intro h
    exact (noDots_devicePath_iff hvg' hlv').mp h.device.1
  · intro h
    have hdots := (noDots_devicePath_iff hvg' hlv').mpr h
    have hclean := cleanPath_devicePath hvg' hlv' hdots (validLvmName_inert hvg).ne_empty
      (validLvmName_inert hlv).ne_empty
    refine ⟨fun op hop bin args hspawn arg harg => ?_, ⟨hdots, hclean⟩, ?_⟩
    · rcases lvOps_args hop hspawn harg with hword | rfl
      · have hwords : ∀ word ∈ ["-a", "y", "-K", "n", "-f", "-y"], NoDots word := by decide
        exact hwords arg hword
      · exact (noDots_lvPath_iff hvg' hlv').mpr h
    · rintro env params st v st' stateDir hback rfl hok
      exact ⟨_, imagePrepare_path hback hok, hdots, hclean⟩

/-- Plain names address their own volume. -/
theorem lvm_names_address_only_vol : AddressesOnly quietHost "vg" "vol" :=
  (lvm_names_address_only_iff quietHost "vg" "vol" (by decide) (by decide)).mpr (by decide)

/-- `lvremove -f -y ../vol` is run, and the device path of such an LV is `/vol`. -/
theorem lvm_names_traverse : ¬∀ host vg lv, validLvmName vg = true → validLvmName lv = true →
    AddressesOnly host vg lv := by
  intro h
  have hdevice := (h quietHost ".." "vol" (by decide) (by decide)).device.1
  exact absurd hdevice (by decide)

end Vdsm.Storage
