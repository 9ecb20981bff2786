import Vdsm.Lib.Transition
import Vdsm.Storage.VolumeCreate

/-!
# Active LVs (`vdsm-storage/src/volumes.rs`)

A VM can open the LV of a volume while it is active. `image_prepare` activates it and returns its
device, `image_teardown` deactivates it, and nobody counts: the LV is as the last op on it that was
carried out left it. `Lvm` keeps that beside the state of the verbs, and `prepared_until_released` is
what follows for runs of them: a prepared LV stays active until a call releases it, and the first
teardown does, however many prepares there were.
-/

namespace Vdsm.Storage

open Rust FileSystem Supervdsm Transition

/-- `image_teardown`. -/
def imageTeardown (env : Env) (params : Value) (st : Store) : Except JsonRpcError Value × Store :=
  let volId := stringParam "volumeID" params
  let sdId := stringParam "storagedomainID" params
  let st := match sdBackend env.host st.toState sdId with
    | some (.block vgName _) =>
      if volId ≠ "" then (st.run env (.lvchange vgName volId false)).2 else st
    | _ => st
  (.ok (.object []), st)

/-! ## Ops -/

/-- The op of an act. -/
def Act.op? : Act → Option PrivOp
  | .priv op => some op
  | .file _ _ => none
  | .device _ => none

/-- The privileged ops so far. -/
def Store.ops (st : Store) : List PrivOp := st.trace.filterMap Act.op?

/-- The LV that an op is on, and whether it is active after it. -/
def lvAfter : PrivOp → Option ((String × String) × Bool)
  | .lvcreate vg lv _ => some ((vg, lv), true)
  | .lvchange vg lv active => some ((vg, lv), active)
  | .lvremove vg lv => some ((vg, lv), false)
  | _ => none

/-- An op on this LV. -/
def IsOn (vg lv : String) (op : PrivOp) : Prop := ∃ active, lvAfter op = some ((vg, lv), active)

/-- The second state has more ops, all of which are on this LV. -/
def AddsOpsOn (vg lv : String) (st st' : Store) : Prop :=
  ∃ new, st'.ops = st.ops ++ new ∧ ∀ op ∈ new, IsOn vg lv op

/-- The same ops. -/
def SameOps (st st' : Store) : Prop := st'.ops = st.ops

section

variable {vg lv : String} {st st' st'' : Store}

/-- A step that runs nothing runs nothing on other volumes. -/
theorem SameOps.addsOpsOn (h : SameOps st st') : AddsOpsOn vg lv st st' :=
  ⟨[], by rw [h, List.append_nil], by simp⟩

/-- Two steps on one volume, one after the other. -/
theorem AddsOpsOn.trans (h : AddsOpsOn vg lv st st') (h' : AddsOpsOn vg lv st' st'') :
    AddsOpsOn vg lv st st'' := by
  obtain ⟨new, heq, hon⟩ := h
  obtain ⟨new', heq', hon'⟩ := h'
  refine ⟨new ++ new', by rw [heq', heq, List.append_assoc], ?_⟩
  intro op hop
  exact (List.mem_append.mp hop).elim (hon op) (hon' op)

/-- An operation is noted, whether it goes through or not. -/
theorem ops_run (env : Env) (op : PrivOp) (st : Store) : (st.run env op).2.ops = st.ops ++ [op] := by
  rw [Store.run]
  split_ifs <;> simp [Store.ops, Store.note, Act.op?]

/-- So an operation on a volume adds one on that volume. -/
theorem addsOpsOn_run {env : Env} {op : PrivOp} (h : IsOn vg lv op) :
    AddsOpsOn vg lv st (st.run env op).2 :=
  ⟨[op], ops_run env op st, by simpa using h⟩

/-- Making directories runs no operation. -/
theorem sameOps_createDirAll (env : Env) (path : String) (st : Store) :
    SameOps st (st.createDirAll env path).2 := by
  rw [SameOps, Store.ops, filterMap_createDirAll]
  simp [Store.ops, Act.op?]

theorem sameOps_write (env : Env) (path : String) (contents : List UInt8) (st : Store) :
    SameOps st (st.write env path contents).2 := by
  simp [SameOps, Store.write, Store.ops, Act.op?]

theorem sameOps_createImage (env : Env) (args : List String) (path : String) (st : Store) :
    SameOps st (st.createImage env args path).2 := by
  simp [SameOps, Store.createImage, Store.ops, Act.op?]

theorem sameOps_removeFile (path : String) : SameOps st (st.removeFile path) := by
  simp [SameOps, Store.removeFile, Store.ops, Act.op?]

theorem sameOps_device (path : String) : SameOps st (st.note (.device path)) := by
  simp [SameOps, Store.note, Store.ops, Act.op?]

end

/-! ## The ops of a creation -/

/-- A volume on a file domain is created without `supervdsmd`. -/
theorem sameOps_createFileVolume (env : Env) (sdPath imgId volId : String) (size : UInt64)
    (qemuFmt allocStr metaBlob : String) (st : Store) :
    SameOps st (createFileVolume env sdPath imgId volId size qemuFmt allocStr metaBlob st).2 := by
  have hdir := sameOps_createDirAll env (imgDir sdPath imgId) st
  simp only [createFileVolume]
  split
  · rename_i e st₁ heq
    rwa [heq] at hdir
  · rename_i st₁ heq
    rw [heq] at hdir
    have himage := sameOps_createImage env
      (qemuArgs qemuFmt allocStr (pathJoin (imgDir sdPath imgId) volId) size)
      (pathJoin (imgDir sdPath imgId) volId) st₁
    split
    · rename_i e st₂ heq₂
      rw [heq₂] at himage
      exact himage.trans hdir
    · rename_i out st₂ heq₂
      rw [heq₂] at himage
      have hsofar : SameOps st st₂ := himage.trans hdir
      split
      · exact hsofar
      · have hmeta := sameOps_write env (metaPath sdPath imgId volId) (asBytes metaBlob) st₂
        split
        · rename_i e st₃ heq₃
          rw [heq₃] at hmeta
          exact hmeta.trans hsofar
        · rename_i st₃ heq₃
          rw [heq₃] at hmeta
          exact (sameOps_write env _ _ _).trans (hmeta.trans hsofar)

/-- So is the metadata of one on a block domain. -/
theorem sameOps_writeBlockMeta (env : Env) (stateDir imgId volId metaBlob : String) (st : Store) :
    SameOps st (writeBlockMeta env stateDir imgId volId metaBlob st).2 := by
  have hdir := sameOps_createDirAll env (imgDir stateDir imgId) st
  simp only [writeBlockMeta]
  split
  · rename_i e st₁ heq
    rwa [heq] at hdir
  · rename_i st₁ heq
    rw [heq] at hdir
    have hmeta := sameOps_write env (metaPath stateDir imgId volId) (asBytes metaBlob) st₁
    split
    · rename_i e st₂ heq₂
      rw [heq₂] at hmeta
      exact hmeta.trans hdir
    · rename_i st₂ heq₂
      rw [heq₂] at hmeta
      exact hmeta.trans hdir

/-- What `create_block_volume` runs is on the volume it creates, on every path through it. -/
theorem addsOpsOn_createBlockVolume (env : Env) (vg stateDir imgId volId : String) (size : UInt64)
    (qemuFmt metaBlob : String) (st : Store) :
    AddsOpsOn vg volId st
      (createBlockVolume env vg stateDir imgId volId size qemuFmt metaBlob st).2 := by
  have hcreate : AddsOpsOn vg volId st (st.run env (.lvcreate vg volId (roundToExtents size))).2 :=
    addsOpsOn_run ⟨true, rfl⟩
  simp only [createBlockVolume]
  split
  · rename_i st₁ heq
    rwa [heq] at hcreate
  · rename_i text st₁ heq
    rw [heq] at hcreate
    have hmeta : ∀ st₂, AddsOpsOn vg volId st st₂ →
        AddsOpsOn vg volId st (writeBlockMeta env stateDir imgId volId metaBlob st₂).2 :=
      fun st₂ h => h.trans (sameOps_writeBlockMeta env stateDir imgId volId metaBlob st₂).addsOpsOn
    split
    · have hdevice := hcreate.trans (sameOps_device s!"/dev/{vg}/{volId}").addsOpsOn
      split
      · exact hdevice
      · split
        · exact hdevice.trans (addsOpsOn_run ⟨false, rfl⟩)
        · exact hmeta _ hdevice
    · exact hmeta _ hcreate

/-! ## Calls -/

/-- The verbs that issue ops on the LVs of volumes. -/
inductive LvVerb where
  | volumeCreate
  | volumeDelete
  | imagePrepare
  | imageTeardown
  | imageDelete
deriving DecidableEq, Repr

structure LvCall where
  verb : LvVerb
  env : Env
  params : Value

namespace LvCall

def volumeId (c : LvCall) : String := stringParam "volumeID" c.params

/-- The domain that a call finds. -/
def backend (c : LvCall) (st : Store) : Option SdBackend :=
  sdBackend c.env.host st.toState (stringParam "storagedomainID" c.params)

def handler (c : LvCall) (st : Store) : Except JsonRpcError Value × Store :=
  match c.verb with
  | .volumeCreate => Storage.volumeCreate c.env c.params st
  | .volumeDelete => Storage.volumeDelete c.env c.params st
  | .imagePrepare => Storage.imagePrepare c.env c.params st
  | .imageTeardown => Storage.imageTeardown c.env c.params st
  | .imageDelete => imageDeleteTraced c.env c.params st

/-- The sidecars that `image_delete` lists in a block domain. -/
def sidecars (c : LvCall) (stateDir : String) (st : Store) : List String :=
  (st.fs.readDir (imgDir stateDir (stringParam "imageID" c.params))).getD []

/-- The ops of a call. The trace of `image_delete` leaves its out. -/
def ops (c : LvCall) (st : Store) : List PrivOp :=
  match c.verb with
  | .imageDelete =>
    match c.backend st with
    | some (.block vg stateDir) =>
      (c.sidecars stateDir st).filterMap fun name => (stripSuffix name ".meta").map (.lvremove vg)
    | _ => []
  | _ => (c.handler ⟨st.toState, []⟩).2.ops

/-- A call that may leave an LV inactive: one other than a prepare, in the domain of the VG, that names
the LV as its volume or finds its sidecar in the image it deletes. -/
def Releases (c : LvCall) (st : Store) (vg lv : String) : Prop :=
  ∃ stateDir, c.backend st = some (.block vg stateDir) ∧
    match c.verb with
    | .imagePrepare => False
    | .imageDelete => lv ++ ".meta" ∈ c.sidecars stateDir st
    | _ => c.volumeId = lv

end LvCall

/-- What LVM makes of an op: if it is carried out, the LV is as the op leaves it. -/
def activate (host : Host) (active : String × String → Bool) (op : PrivOp) : String × String → Bool :=
  match lvAfter op with
  | some (x, a) => if (execute host op).1.ok then Function.update active x a else active
  | none => active

/-- The state of the verbs, and the LVs that are active. -/
structure Lvm where
  store : Store
  active : String × String → Bool

def Lvm.after (w : Lvm) (c : LvCall) : Lvm :=
  ⟨(c.handler w.store).2, (c.ops w.store).foldl (activate c.env.host) w.active⟩

/-- A call always happens. -/
def lvmStep (w : Lvm) (c : LvCall) : Option Lvm := some (w.after c)

/-! ## The ops of a call -/

section Ops

variable {c : LvCall} {st : Store} {vg lv stateDir : String}

/-- Preparing an image activates the LV of its volume. -/
theorem ops_imagePrepare (hverb : c.verb = .imagePrepare)
    (hback : c.backend st = some (.block vg stateDir)) :
    c.ops st = [.lvchange vg c.volumeId true] := by
  have hrun := ops_run c.env (.lvchange vg c.volumeId true) ⟨st.toState, []⟩
  rw [LvCall.backend] at hback
  simp only [LvCall.ops, hverb, LvCall.handler, imagePrepare, hback]
  rw [LvCall.volumeId] at hrun ⊢
  split
  · rename_i st₁ heq
    rwa [heq] at hrun
  · rename_i text st₁ heq
    rw [heq] at hrun
    split <;> exact (sameOps_device _).trans hrun

/-- Tearing it down deactivates the LV. -/
theorem ops_imageTeardown (hverb : c.verb = .imageTeardown) (hne : c.volumeId ≠ "")
    (hback : c.backend st = some (.block vg stateDir)) :
    c.ops st = [.lvchange vg c.volumeId false] := by
  rw [LvCall.backend] at hback
  rw [LvCall.volumeId] at hne ⊢
  simp only [LvCall.ops, hverb, LvCall.handler, imageTeardown, hback, if_pos hne]
  exact ops_run c.env _ ⟨st.toState, []⟩

/-- In a block domain a call is about its volume, or the volumes it finds in the image. -/
theorem ops_isOn (hback : c.backend st = some (.block vg stateDir)) {op : PrivOp}
    (hop : op ∈ c.ops st) :
    c.verb ≠ .imageDelete ∧ IsOn vg c.volumeId op ∨
      c.verb = .imageDelete ∧ ∃ lv, lv ++ ".meta" ∈ c.sidecars stateDir st ∧ IsOn vg lv op := by
  have hadds : ∀ st' : Store, AddsOpsOn vg c.volumeId ⟨st.toState, []⟩ st' → op ∈ st'.ops →
      IsOn vg c.volumeId op := by
    rintro st' ⟨new, heq, hon⟩ hmem
    rw [heq] at hmem
    exact hon op (by simpa [Store.ops] using hmem)
  have hfound := hback
  rw [LvCall.backend] at hback
  cases hverb : c.verb with
  | imageDelete =>
    simp only [LvCall.ops, hverb, hfound, List.mem_filterMap, Option.map_eq_some_iff] at hop
    obtain ⟨name, hname, lv, hlv, rfl⟩ := hop
    refine .inr ⟨rfl, lv, ?_, false, rfl⟩
    rwa [← stripSuffix_eq_some.mp hlv]
  | imagePrepare =>
    rw [ops_imagePrepare hverb hfound, List.mem_singleton] at hop
    exact .inl ⟨by decide, hop ▸ ⟨true, rfl⟩⟩
  | imageTeardown =>
    refine .inl ⟨by decide, ?_⟩
    by_cases hne : c.volumeId = ""
    · rw [LvCall.volumeId] at hne
      simp [LvCall.ops, hverb, LvCall.handler, imageTeardown, hback, hne, Store.ops] at hop
    · rw [ops_imageTeardown hverb hne hfound, List.mem_singleton] at hop
      exact hop ▸ ⟨false, rfl⟩
  | volumeDelete =>
    refine .inl ⟨by decide, hadds _ ?_ (by simpa only [LvCall.ops, hverb] using hop)⟩
    simp only [LvCall.handler, hverb, volumeDelete, hback]
    exact (addsOpsOn_run ⟨false, rfl⟩).trans (sameOps_removeFile _).addsOpsOn
  | volumeCreate =>
    refine .inl ⟨by decide, hadds _ ?_ (by simpa only [LvCall.ops, hverb] using hop)⟩
    simp only [LvCall.handler, hverb]
    by_cases hids : HasIds c.params
    · rw [(volumeCreate_of_ids hids).2]
      simp only [backendOf, hback, createOn]
      exact addsOpsOn_createBlockVolume _ _ _ _ _ _ _ _ _
    · rw [(volumeCreate_of_no_ids hids).2]
      exact SameOps.addsOpsOn rfl

/-- Outside block domains a call has no ops. -/
theorem ops_of_not_block (hback : ∀ vg stateDir, c.backend st ≠ some (.block vg stateDir)) :
    c.ops st = [] := by
  have hfound := hback
  simp only [LvCall.backend] at hback
  cases hcase : sdBackend c.env.host st.toState (stringParam "storagedomainID" c.params) with
  | none =>
    cases hverb : c.verb with
    | imageDelete => simp [LvCall.ops, hverb, LvCall.backend, hcase]
    | imagePrepare => simp [LvCall.ops, hverb, LvCall.handler, imagePrepare, hcase, Store.ops]
    | imageTeardown => simp [LvCall.ops, hverb, LvCall.handler, imageTeardown, hcase, Store.ops]
    | volumeDelete => simp [LvCall.ops, hverb, LvCall.handler, volumeDelete, hcase, Store.ops]
    | volumeCreate =>
      simp only [LvCall.ops, hverb, LvCall.handler]
      by_cases hids : HasIds c.params
      · rw [(volumeCreate_of_ids hids).2]
        simp [backendOf, hcase, createOn, Store.ops]
      · rw [(volumeCreate_of_no_ids hids).2]
        rfl
  | some found =>
    cases found with
    | block vg stateDir => exact absurd hcase (hback vg stateDir)
    | file sdPath =>
      cases hverb : c.verb with
      | imageDelete => simp [LvCall.ops, hverb, LvCall.backend, hcase]
      | imagePrepare =>
        simp only [LvCall.ops, hverb, LvCall.handler, imagePrepare, hcase]
        split <;> simp [Store.note, Store.ops, Act.op?]
      | imageTeardown => simp [LvCall.ops, hverb, LvCall.handler, imageTeardown, hcase, Store.ops]
      | volumeDelete =>
        simp [LvCall.ops, hverb, LvCall.handler, volumeDelete, hcase, Store.ops, Store.removeFile,
          Act.op?]
      | volumeCreate =>
        simp only [LvCall.ops, hverb, LvCall.handler]
        by_cases hids : HasIds c.params
        · rw [(volumeCreate_of_ids hids).2]
          simp only [backendOf, hcase, createOn]
          exact (sameOps_createFileVolume _ _ _ _ _ _ _ _ _).trans rfl
        · rw [(volumeCreate_of_no_ids hids).2]
          rfl

end Ops

/-! ## Runs -/

section Runs

variable {vg lv stateDir : String} {host : Host} {active : String × String → Bool}

/-- An operation that goes through leaves its LV as it says. -/
theorem activate_of_ok {op : PrivOp} {x : String × String} {a : Bool}
    (hop : lvAfter op = some (x, a)) (hok : (execute host op).1.ok = true) :
    activate host active op x = a := by
  rw [activate, hop]
  dsimp only
  rw [if_pos hok, Function.update_self]

/-- An op on another LV. -/
theorem activate_of_not_on {op : PrivOp} (h : ¬IsOn vg lv op) :
    activate host active op (vg, lv) = active (vg, lv) := by
  rw [activate]
  cases hop : lvAfter op with
  | none => rfl
  | some r =>
    obtain ⟨x, a⟩ := r
    have hne : (vg, lv) ≠ x := by
      rintro rfl
      exact h ⟨a, hop⟩
    dsimp only
    split_ifs
    · exact Function.update_of_ne hne _ _
    · rfl

/-- Operations on other volumes leave an LV as it is. -/
theorem foldl_activate_of_not_on {ops : List PrivOp} (h : ∀ op ∈ ops, ¬IsOn vg lv op) :
    ops.foldl (activate host) active (vg, lv) = active (vg, lv) := by
  induction ops generalizing active with
  | nil => rfl
  | cons op ops ih =>
    rw [List.foldl_cons, ih fun op' hop' => h op' (List.mem_cons_of_mem op hop'),
      activate_of_not_on (h op List.mem_cons_self)]

/-- An operation is on one volume at most. -/
theorem IsOn.unique {vg' lv' : String} {op : PrivOp} (h : IsOn vg lv op) (h' : IsOn vg' lv' op) :
    vg = vg' ∧ lv = lv' := by
  obtain ⟨a, ha⟩ := h
  obtain ⟨a', ha'⟩ := h'
  rw [ha, Option.some.injEq, Prod.mk.injEq, Prod.mk.injEq] at ha'
  exact ha'.1

/-- What no call releases stays active. -/
theorem active_after {w : Lvm} {c : LvCall} (hactive : w.active (vg, lv) = true)
    (hkept : ¬c.Releases w.store vg lv) : (w.after c).active (vg, lv) = true := by
  show (c.ops w.store).foldl (activate c.env.host) w.active (vg, lv) = true
  by_cases hblock : ∃ vg' stateDir, c.backend w.store = some (.block vg' stateDir)
  · obtain ⟨vg', stateDir, hback⟩ := hblock
    by_cases hverb : c.verb = .imagePrepare
    · -- a prepare can only activate
      rw [ops_imagePrepare hverb hback, List.foldl_cons, List.foldl_nil]
      by_cases hon : IsOn vg lv (.lvchange vg' c.volumeId true)
      · obtain ⟨rfl, rfl⟩ := hon.unique ⟨true, rfl⟩
        cases hok : (execute c.env.host (.lvchange vg c.volumeId true)).1.ok with
        | true => exact activate_of_ok rfl hok
        | false => simp [activate, lvAfter, hok, hactive]
      · rw [activate_of_not_on hon, hactive]
    · rw [foldl_activate_of_not_on, hactive]
      intro op hop hon
      rcases ops_isOn hback hop with ⟨hdelete, hon'⟩ | ⟨hdelete, lv', hside, hon'⟩
      · obtain ⟨rfl, rfl⟩ := hon.unique hon'
        refine hkept ⟨stateDir, hback, ?_⟩
        cases hcase : c.verb with
        | imagePrepare => exact hverb hcase
        | imageDelete => exact absurd hcase hdelete
        | volumeCreate => rfl
        | volumeDelete => rfl
        | imageTeardown => rfl
      · obtain ⟨rfl, rfl⟩ := hon.unique hon'
        refine hkept ⟨stateDir, hback, ?_⟩
        rw [hdelete]
        exact hside
  · rw [ops_of_not_block fun vg' stateDir hback => hblock ⟨vg', stateDir, hback⟩]
    exact hactive

/-- A prepare that succeeds has activated the LV. -/
theorem lvchange_of_prepared {c : LvCall} {st : Store} {v : Value} (hverb : c.verb = .imagePrepare)
    (hback : c.backend st = some (.block vg stateDir)) (hok : (c.handler st).1 = .ok v) :
    (execute c.env.host (.lvchange vg c.volumeId true)).1.ok = true := by
  rw [LvCall.backend] at hback
  simp only [LvCall.handler, hverb, imagePrepare, hback] at hok
  split at hok
  · cases hok
  · rename_i text st₁ heq
    exact (run_eq_some heq).1

/-- The name of an LV that an op was carried out on is not empty. -/
theorem ne_empty_of_lvchange {a : Bool} (h : (execute host (.lvchange vg lv a)).1.ok = true) :
    lv ≠ "" := by
  rintro rfl
  have hinvalid : validLvmName "" = false := by decide
  simp only [execute, hinvalid] at h
  split at h <;> cases h

end Runs

/-- Prepared LVs. From a successful `image_prepare` in a block domain on, over every run of the volume
and image verbs and on whatever hosts, the LV is active as long as no call releases it. Then one
teardown deactivates it, even if it was prepared again in between. -/
theorem prepared_until_released (w w' : Lvm) (prepare : LvCall) (calls : List LvCall)
    (vg stateDir : String) (v : Value) (hverb : prepare.verb = .imagePrepare)
    (hback : prepare.backend w.store = some (.block vg stateDir))
    (hok : (prepare.handler w.store).1 = .ok v)
    (hkept : AllSteps lvmStep (fun w c => ¬c.Releases w.store vg prepare.volumeId)
      (w.after prepare) calls)
    (hrun : run lvmStep (w.after prepare) calls = some w') :
    w'.active (vg, prepare.volumeId) = true ∧
      ∀ (teardown : LvCall) (stateDir' : String), teardown.verb = .imageTeardown →
        teardown.backend w'.store = some (.block vg stateDir') →
        teardown.volumeId = prepare.volumeId →
        (execute teardown.env.host (.lvchange vg prepare.volumeId false)).1.ok = true →
        (w'.after teardown).active (vg, prepare.volumeId) = false := by
  have hchanged := lvchange_of_prepared hverb hback hok
  have hprepared : (w.after prepare).active (vg, prepare.volumeId) = true := by
    show (prepare.ops w.store).foldl (activate prepare.env.host) w.active _ = true
    rw [ops_imagePrepare hverb hback]
    exact activate_of_ok rfl hchanged
  have hstays : ∀ s c s', s.active (vg, prepare.volumeId) = true →
      ¬LvCall.Releases c s.store vg prepare.volumeId → lvmStep s c = some s' →
      s'.active (vg, prepare.volumeId) = true := by
    intro s c s' hs hc hstep
    obtain rfl := Option.some.inj hstep
    exact active_after hs hc
  constructor
  · exact run_invariant hstays hprepared hkept hrun
  · intro teardown stateDir' htear hback' hid hdone
    show (teardown.ops w'.store).foldl (activate teardown.env.host) w'.active _ = false
    rw [ops_imageTeardown htear (hid ▸ ne_empty_of_lvchange hchanged) hback', hid]
    exact activate_of_ok rfl hdone

/-- A call for the LV of `oneLv`. -/
def openVolume (verb : LvVerb) : LvCall := ⟨verb, vgEnv true, newVolume⟩

/-- Two prepares and one teardown. -/
theorem prepared_until_released_twice :
    let w := (⟨oneLv, fun _ => false⟩ : Lvm).after (openVolume .imagePrepare)
    let w' := w.after (openVolume .imagePrepare)
    w'.active ("vg", "vol") = true ∧
      (w'.after (openVolume .imageTeardown)).active ("vg", "vol") = false := by
  intro w w'
  have hkept : ¬(openVolume .imagePrepare).Releases w.store "vg" "vol" := fun h => h.choose_spec.2
  obtain ⟨hactive, htear⟩ := prepared_until_released ⟨oneLv, fun _ => false⟩ w'
    (openVolume .imagePrepare) [openVolume .imagePrepare] "vg" "/var/lib/vdsm/sd/vg"
    (.object [("path", .string "/dev/vg/vol")]) rfl (by decide) (by rfl)
    ⟨hkept, fun _ _ => trivial⟩ rfl
  exact ⟨hactive, htear (openVolume .imageTeardown) "/var/lib/vdsm/sd/vg" rfl (by decide) rfl (by decide)⟩

end Vdsm.Storage
