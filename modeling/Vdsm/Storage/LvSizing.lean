import Vdsm.Storage.VolumeCreate
import Mathlib.Order.Bounds.Basic

/-!
# The size of an LV

`create_block_volume` rounds the requested size up to whole extents in 64 bits. Near the top of the
range the product wraps to zero, which `supervdsmd` refuses: no LV of a wrong size comes of it. A size
of whole extents is not rounded at all, so a qcow2 image of that size has no room for its metadata.
-/

namespace Vdsm.Storage

open Rust Supervdsm

/-! ## Rounding -/

/-- `m` is the size in whole extents for `n` bytes. -/
def IsExtents (n m : ℕ) : Prop := IsLeast {k | extentBytes.toNat ∣ k ∧ n ≤ k} m

/-- An extent is 128 MiB. -/
theorem toNat_extentBytes : extentBytes.toNat = 134217728 := by decide

/-- The rounded size, as the product wraps. -/
theorem toNat_roundToExtents (size : UInt64) :
    (roundToExtents size).toNat
      = (size.toNat / 134217728 + if 0 < size.toNat % 134217728 then 1 else 0) * 134217728
        % 2 ^ 64 := by
  have hrem : size % extentBytes > 0 ↔ 0 < size.toNat % 134217728 := by
    rw [gt_iff_lt, UInt64.lt_iff_toNat_lt, UInt64.toNat_mod, toNat_extentBytes]
    rfl
  have hdiv : size.toNat / 134217728 + 1 < 2 ^ 64 := by
    have := size.toNat_lt
    omega
  rw [roundToExtents, UInt64.toNat_mul, UInt64.toNat_add, UInt64.toNat_div, toNat_extentBytes]
  congr 2
  by_cases h : 0 < size.toNat % 134217728
  · rw [if_pos (hrem.mpr h), if_pos h, UInt64.toNat_one, Nat.mod_eq_of_lt hdiv]
  · rw [if_neg (fun hpos => h (hrem.mp hpos)), if_neg h, UInt64.toNat_zero]
    exact Nat.mod_eq_of_lt (by omega)

/-- The product wraps to zero above the largest size in whole extents. -/
theorem roundToExtents_eq_zero_iff (size : UInt64) :
    roundToExtents size = 0 ↔ size = 0 ∨ 2 ^ 64 - 2 ^ 27 < size.toNat := by
  have hlt := size.toNat_lt
  rw [← UInt64.toNat_inj, ← UInt64.toNat_inj, toNat_roundToExtents, UInt64.toNat_zero]
  split <;> omega

/-- Below, rounding is exact. -/
theorem isExtents_roundToExtents {size : UInt64} (h : roundToExtents size ≠ 0) :
    IsExtents size.toNat (roundToExtents size).toNat := by
  have hlt := size.toNat_lt
  have hle : ¬ (size = 0 ∨ 2 ^ 64 - 2 ^ 27 < size.toNat) := fun hz =>
    h ((roundToExtents_eq_zero_iff size).mpr hz)
  rw [not_or] at hle
  rw [IsExtents, toNat_roundToExtents, toNat_extentBytes]
  constructor
  · constructor
    · split <;> omega
    · split <;> omega
  · rintro m ⟨⟨k, rfl⟩, hm⟩
    split <;> omega

/-- The rounding leaves room exactly where the size is not one of whole extents. -/
theorem lt_roundToExtents_iff {size : UInt64} (h : roundToExtents size ≠ 0) :
    size < roundToExtents size ↔ ¬ extentBytes.toNat ∣ size.toNat := by
  obtain ⟨⟨hdvd, hle⟩, hleast⟩ := isExtents_roundToExtents h
  rw [UInt64.lt_iff_toNat_lt]
  constructor
  · intro hlt hself
    exact absurd (hleast ⟨hself, le_rfl⟩) (Nat.not_le.mpr hlt)
  · intro hself
    refine Nat.lt_of_le_of_ne hle fun heq => hself ?_
    rwa [heq]

/-! ## The privileged op -/

/-- `supervdsmd` refuses an op: nothing is done for it. -/
def Refuses (host : Host) (op : PrivOp) : Prop :=
  (execute host op).1.ok = false ∧ (execute host op).2 = []

/-- The command line of `lvcreate`. -/
def lvcreateArgs (vg lv : String) (size : ℕ) : List String :=
  ["-W", "y", "-Z", "n", "-n", lv, "-L", toString size ++ "B", vg]

/-- An `Lvcreate` is refused, or `lvcreate` is spawned with its size. -/
theorem execute_lvcreate_cases (host : Host) (vg lv : String) (size : UInt64) :
    (Refuses host (.lvcreate vg lv size) ∧
        ¬ (validLvmName vg = true ∧ validLvmName lv = true ∧ size ≠ 0)) ∨
      ((execute host (.lvcreate vg lv size)).2
          = [.spawn "/usr/sbin/lvcreate" (lvcreateArgs vg lv size.toNat)] ∧
        validLvmName vg = true ∧ validLvmName lv = true ∧ size ≠ 0) := by
  rw [Refuses, execute]
  cases hvg : validLvmName vg with
  | false => exact .inl ⟨⟨rfl, rfl⟩, by simp⟩
  | true =>
    cases hlv : validLvmName lv with
    | false => exact .inl ⟨⟨rfl, rfl⟩, by simp⟩
    | true =>
      by_cases hsize : size = 0
      · exact .inl ⟨by simp [hsize, invalid, PrivResult.failure], by simp [hsize]⟩
      · exact .inr ⟨by simp [hsize, run, lvcreateArgs], rfl, rfl, hsize⟩

/-! ## The sizes asked for -/

/-- The size in an `Lvcreate`. -/
def Act.lvSize : Act → Option UInt64
  | .priv (.lvcreate _ _ size) => some size
  | _ => none

/-- The sizes of all `Lvcreate`s so far. -/
def Store.lvSizes (st : Store) : List UInt64 := st.trace.filterMap Act.lvSize

/-- What is noted of `lvcreate` is the size it asked for. -/
@[simp] theorem lvSizes_note (a : Act) (st : Store) :
    (st.note a).lvSizes = st.lvSizes ++ a.lvSize.toList := by
  rw [Store.lvSizes, Store.note, List.filterMap_append, Store.lvSizes]
  cases h : a.lvSize <;> simp [h]

/-- So is what is run. -/
@[simp] theorem lvSizes_run (env : Env) (op : PrivOp) (st : Store) :
    (st.run env op).2.lvSizes = st.lvSizes ++ (Act.priv op).lvSize.toList := by
  rw [← lvSizes_note, Store.run]
  split <;> rfl

@[simp] theorem lvSizes_createDirAll (env : Env) (path : String) (st : Store) :
    (st.createDirAll env path).2.lvSizes = st.lvSizes := by
  rw [Store.lvSizes, filterMap_createDirAll]
  simp [Store.lvSizes, Act.lvSize]

@[simp] theorem lvSizes_write (env : Env) (path : String) (contents : List UInt8) (st : Store) :
    (st.write env path contents).2.lvSizes = st.lvSizes := by
  simp [Store.write, Store.lvSizes, Act.lvSize]

/-- Writing metadata asks for no LV. -/
theorem lvSizes_writeBlockMeta (env : Env) (stateDir imgId volId metaBlob : String) (st : Store) :
    (writeBlockMeta env stateDir imgId volId metaBlob st).2.lvSizes = st.lvSizes := by
  have hdir := lvSizes_createDirAll env (imgDir stateDir imgId) st
  simp only [writeBlockMeta]
  split
  · rename_i e st₁ heq
    rwa [heq] at hdir
  · rename_i st₁ heq
    rw [heq] at hdir
    have hwrite := lvSizes_write env (metaPath stateDir imgId volId) (asBytes metaBlob) st₁
    split
    · rename_i e st₂ heq₂
      rwa [heq₂, hdir] at hwrite
    · rename_i st₂ heq₂
      rwa [heq₂, hdir] at hwrite

/-- A block volume asks for one LV, of the rounded size. -/
theorem lvSizes_createBlockVolume (env : Env) (vg stateDir imgId volId : String) (size : UInt64)
    (qemuFmt metaBlob : String) (st : Store) :
    (createBlockVolume env vg stateDir imgId volId size qemuFmt metaBlob st).2.lvSizes
      = st.lvSizes ++ [roundToExtents size] := by
  have hrun := lvSizes_run env (.lvcreate vg volId (roundToExtents size)) st
  simp only [createBlockVolume]
  split
  · rename_i st₁ heq
    rwa [heq] at hrun
  · rename_i text st₁ heq
    rw [heq] at hrun
    split
    · split
      · exact (lvSizes_note _ _).trans (by rw [hrun]; simp [Act.lvSize])
      · split
        · simp [hrun, Act.lvSize]
        · rw [lvSizes_writeBlockMeta, lvSizes_note, hrun]
          simp [Act.lvSize]
    · rw [lvSizes_writeBlockMeta, hrun]
      rfl

/-! ## The verb -/

section Verb

variable {env : Env} {params : Value} {st : Store} {vg stateDir : String}

/-- `volume_create` asks for one LV, of the rounded size. -/
theorem lvSizes_volumeCreate (hids : HasIds params)
    (hback : backendOf env params st = some (.block vg stateDir)) :
    (volumeCreate env params st).2.lvSizes
      = st.lvSizes ++ [roundToExtents (sizeParam params)] := by
  rw [(volumeCreate_of_ids hids).2, hback]
  exact lvSizes_createBlockVolume ..

/-- Without its LV a creation fails, and no LV is there that was not. -/
theorem volumeCreate_of_not_makesLv (hids : HasIds params)
    (hback : backendOf env params st = some (.block vg stateDir))
    (hlv : makesLv env vg (stringParam "volumeID" params) (sizeParam params) = false) :
    (volumeCreate env params st).1.isOk = false ∧ (volumeCreate env params st).2.lvs = st.lvs := by
  obtain ⟨hok, hstore⟩ := @volumeCreate_of_ids env params st hids
  rw [hok, hstore, hback]
  obtain ⟨hfails, hlvs, -⟩ := @block_spared env vg stateDir (stringParam "imageID" params)
    (stringParam "volumeID" params) (sizeParam params) (qemuFormat params) (volumeMeta env params) st
    hlv
  exact ⟨hfails, hlvs⟩

/-- A qcow2 volume that was created was formatted. -/
theorem succeeds_formatLv {imgId volId qemuFmt metaBlob : String} {size : UInt64}
    (hfmt : qemuFmt = "qcow2")
    (hok : (createBlockVolume env vg stateDir imgId volId size qemuFmt metaBlob st).1.isOk = true) :
    succeeds (formatLv env vg volId size) = true := by
  simp only [createBlockVolume, if_pos hfmt] at hok
  rw [formatLv]
  split at hok
  · cases hok
  · split at hok
    · cases hok
    · rename_i out heq
      rw [heq, succeeds]
      cases hsuccess : out.success with
      | true => rfl
      | false =>
        rw [if_pos (by simp [hsuccess])] at hok
        cases hok

/-- A creation that succeeds has made its LV. -/
theorem makesLv_of_volumeCreate (hids : HasIds params)
    (hback : backendOf env params st = some (.block vg stateDir))
    (hok : (volumeCreate env params st).1.isOk = true) :
    makesLv env vg (stringParam "volumeID" params) (sizeParam params) = true := by
  by_contra hlv
  rw [(volumeCreate_of_not_makesLv hids hback (by simpa using hlv)).1] at hok
  cases hok

end Verb

/-- An LV has the right size or is not made. On a block domain `Volume.create` asks `supervdsmd` for one
LV. The op is refused, the creation fails and no LV is made, or `lvcreate` is spawned for the least
number of whole extents that hold the requested size. For valid names the op is refused exactly for
size zero and for the sizes above the largest one in whole extents. -/
theorem lv_size_exact (env : Env) (params : Value) (st : Store) (vg stateDir : String)
    (hids : HasIds params) (hback : backendOf env params st = some (.block vg stateDir)) :
    let volId := stringParam "volumeID" params
    let size := sizeParam params
    let op := PrivOp.lvcreate vg volId (roundToExtents size)
    (volumeCreate env params st).2.lvSizes = st.lvSizes ++ [roundToExtents size] ∧
      ((Refuses env.host op ∧ (volumeCreate env params st).1.isOk = false ∧
          (volumeCreate env params st).2.lvs = st.lvs) ∨
        ∃ n, IsExtents size.toNat n ∧
          (execute env.host op).2 = [.spawn "/usr/sbin/lvcreate" (lvcreateArgs vg volId n)]) ∧
      (validLvmName vg = true → validLvmName volId = true →
        (Refuses env.host op ↔ size = 0 ∨ 2 ^ 64 - 2 ^ 27 < size.toNat)) := by
  intro volId size op
  refine ⟨lvSizes_volumeCreate hids hback, ?_, fun hvg hlv => ?_⟩
  · rcases execute_lvcreate_cases env.host vg volId (roundToExtents size) with
      ⟨hrefused, -⟩ | ⟨hspawn, -, -, hne⟩
    · exact .inl ⟨hrefused, volumeCreate_of_not_makesLv hids hback hrefused.1⟩
    · exact .inr ⟨_, isExtents_roundToExtents hne, hspawn⟩
  · rw [← roundToExtents_eq_zero_iff]
    rcases execute_lvcreate_cases env.host vg volId (roundToExtents size) with
      ⟨hrefused, hcause⟩ | ⟨hspawn, -, -, hne⟩
    · exact iff_of_true hrefused (by simpa [hvg, hlv] using hcause)
    · refine iff_of_false (fun hrefused => ?_) hne
      rw [hrefused.2] at hspawn
      cases hspawn

theorem newVolume_hasIds : HasIds newVolume := by
  rw [HasIds]
  decide

/-- A gigabyte is a whole number of extents and passes. -/
theorem lv_size_exact_newVolume :
    (volumeCreate (vgEnv true) newVolume noLvs).2.lvSizes = [1073741824] ∧
      ¬ Refuses (vgHost true) (.lvcreate "vg" "vol" 1073741824) := by
  obtain ⟨hsizes, -, hrefused⟩ := lv_size_exact (vgEnv true) newVolume noLvs "vg"
    "/var/lib/vdsm/sd/vg" newVolume_hasIds (backendOf_newVolume _ rfl)
  exact ⟨hsizes, fun h => absurd ((hrefused (by decide) (by decide)).mp h) (by decide)⟩

/-- The LVs that were made are larger than the virtual size. -/
def HasHeadroom (st st' : Store) (size : UInt64) : Prop :=
  ∀ n ∈ st'.lvSizes.drop st.lvSizes.length, size < n

/-- Room for the metadata of qcow2. A creation of a qcow2 volume that succeeds has formatted an LV with
the requested size as the virtual size, and the LV is larger exactly where that is not a number of whole
extents. -/
theorem cow_headroom_iff (env : Env) (params : Value) (st : Store) (vg stateDir : String)
    (hids : HasIds params) (hback : backendOf env params st = some (.block vg stateDir))
    (hcow : intParamOr "volFormat" 5 params = 4)
    (hok : (volumeCreate env params st).1.isOk = true) :
    succeeds (formatLv env vg (stringParam "volumeID" params) (sizeParam params)) = true ∧
      (HasHeadroom st (volumeCreate env params st).2 (sizeParam params) ↔
        ¬ extentBytes.toNat ∣ (sizeParam params).toNat) := by
  have hlv := makesLv_of_volumeCreate hids hback hok
  have hne : roundToExtents (sizeParam params) ≠ 0 := by
    rcases execute_lvcreate_cases env.host vg (stringParam "volumeID" params)
      (roundToExtents (sizeParam params)) with ⟨hrefused, -⟩ | ⟨-, -, -, hne⟩
    · rw [makesLv, hrefused.1] at hlv
      cases hlv
    · exact hne
  constructor
  · rw [(volumeCreate_of_ids hids).1, hback] at hok
    exact succeeds_formatLv (by simp [qemuFormat, volFormatStr, hcow]) hok
  · rw [HasHeadroom, lvSizes_volumeCreate hids hback, List.drop_left]
    simpa using lt_roundToExtents_iff hne

/-- A new qcow2 volume of the VG. -/
def newCow (size : String) : Value :=
  .object [("storagedomainID", .string "vg"), ("imageID", .string "disk"), ("volumeID", .string "vol"),
    ("volFormat", .number (.posInt 4)), ("size", .string size)]

/-- A COW volume of 1000 bytes has room for its metadata. -/
theorem cow_headroom_iff_1000 :
    HasHeadroom noLvs (volumeCreate (vgEnv true) (newCow "1000") noLvs).2 1000 := by
  have hids : HasIds (newCow "1000") := by
    rw [HasIds]
    decide
  have hok : (volumeCreate (vgEnv true) (newCow "1000") noLvs).1.isOk = true := by decide +kernel
  exact (cow_headroom_iff (vgEnv true) (newCow "1000") noLvs "vg" "/var/lib/vdsm/sd/vg" hids
    (by decide +kernel) (by decide) hok).2.mpr (by decide)

/-- An LV of one extent for a virtual size of one extent. -/
theorem cow_no_headroom : ¬∀ env params st vg stateDir, HasIds params →
    backendOf env params st = some (.block vg stateDir) → intParamOr "volFormat" 5 params = 4 →
    (volumeCreate env params st).1.isOk = true →
    HasHeadroom st (volumeCreate env params st).2 (sizeParam params) := by
  intro h
  have hids : HasIds (newCow "134217728") := by
    rw [HasIds]
    decide
  have hsizes : (volumeCreate (vgEnv true) (newCow "134217728") noLvs).2.lvSizes = [134217728] := by
    decide +kernel
  have hroom := h (vgEnv true) (newCow "134217728") noLvs "vg" "/var/lib/vdsm/sd/vg" hids
    (by decide +kernel) (by decide) (by decide +kernel)
  rw [HasHeadroom, hsizes] at hroom
  exact absurd (hroom 134217728 (by decide)) (by decide)

end Vdsm.Storage
