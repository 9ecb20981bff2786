import Vdsm.Storage.VolumeGroups
import Mathlib.Data.List.Nodup

/-!
# Creating a volume group (`vdsm-storage/src/block.rs`, `create_vg`)

`create_vg` is a script of privileged ops: a `pvcreate` for each device, then the `vgcreate`. It stops
at the first op that is not carried out and undoes nothing, so that a request that fails leaves the
devices before the one that failed initialised: `pvcreate` runs with `-ff`, which wipes them.

`ran` is the script as a script, and `createVg_ran` says that the verb runs it. The rest is about
scripts.
-/

namespace Vdsm.Storage

open Rust Supervdsm

/-! ## The verb -/

/-- The name that `create_vg` is called with. -/
def newVgName (params : Value) : String :=
  (((params.get "vgName").or (params.get "name")).bind Value.asStr).getD ""

/-- The loop of `create_vg`, with the host at each op: the device that failed, and the ops. -/
def pvcreateAll (envs : ℕ → BlockEnv) : ℕ → List String → Option String × List Issued
  | _, [] => (none, [])
  | n, d :: ds =>
    match (envs n).run (.pvcreate d) with
    | none => (some d, [(.pvcreate d, none)])
    | some out =>
      let (failed, issued) := pvcreateAll envs (n + 1) ds
      (failed, (.pvcreate d, some out) :: issued)

/-- The uuid that `create_vg` replies with: that of the group as `get_vg_info` finds it. -/
def createdUuid (env : BlockEnv) (name : String) : String :=
  match getVgInfo env (.object [("vgName", .string name)]) with
  | .ok info => strAt info "vgUUID"
  | .error _ => ""

/-- `create_vg`: the reply, and the ops with what became of them. -/
def createVg (envs : ℕ → BlockEnv) (params : Value) : Except JsonRpcError Value × List Issued :=
  let name := newVgName params
  let devices := devlist params
  if name = "" ∨ devices = [] then (.error (.invalidParams "vgName + devlist required"), [])
  else
    let (failed, issued) := pvcreateAll envs 0 devices
    match failed with
    | some d => (.error (.internal s!"pvcreate {d} failed"), issued)
    | none =>
      let op := PrivOp.vgcreate name devices
      match (envs devices.length).run op with
      | none => (.error (.internal "vgcreate failed"), issued ++ [(op, none)])
      | some out =>
        let uuid := createdUuid (envs (devices.length + 1)) name
        (.ok (.object [("uuid", .string uuid)]), issued ++ [(op, some out)])

/-- What root does for an op. -/
def BlockEnv.does (env : BlockEnv) (op : PrivOp) : List Action :=
  if env.reaches op then (execute env.host op).2 else []

/-- What root does for the ops of a verb. -/
def rootActions (envs : ℕ → BlockEnv) (issued : List Issued) : List Action :=
  issued.zipIdx.flatMap fun e => (envs e.2).does e.1.1

/-! ## Scripts -/

/-- The ops of a script that are issued: up to the first that is not carried out. -/
def ran (envs : ℕ → BlockEnv) : ℕ → List PrivOp → List Issued
  | _, [] => []
  | n, op :: ops =>
    match (envs n).run op with
    | none => [(op, none)]
    | some out => (op, some out) :: ran envs (n + 1) ops

/-- Every op of the script is carried out. -/
def Completes (envs : ℕ → BlockEnv) (n : ℕ) (ops : List PrivOp) : Prop :=
  ∀ i op, ops[i]? = some op → ((envs (n + i)).run op).isSome

/-- The script stops at its `i`-th op: that one is not carried out, all before it are. -/
structure StopsAt (envs : ℕ → BlockEnv) (n : ℕ) (ops : List PrivOp) (i : ℕ) (op : PrivOp) : Prop where
  at_i : ops[i]? = some op
  failed : (envs (n + i)).run op = none
  before : Completes envs n (ops.take i)

/-- A script completes if its first operation does and then the rest. -/
theorem completes_cons {envs : ℕ → BlockEnv} {n : ℕ} {op : PrivOp} {ops : List PrivOp} :
    Completes envs n (op :: ops) ↔ ((envs n).run op).isSome ∧ Completes envs (n + 1) ops := by
  constructor
  · intro h
    refine ⟨h 0 op rfl, fun i op' hi => ?_⟩
    have := h (i + 1) op' hi
    rwa [← Nat.add_assoc, Nat.add_right_comm] at this
  · rintro ⟨h0, h⟩ i op' hi
    cases i with
    | zero =>
      obtain rfl := Option.some.inj hi
      exact h0
    | succ i =>
      have := h i op' hi
      rwa [Nat.add_right_comm] at this

/-- And one operation more. -/
theorem Completes.concat {envs : ℕ → BlockEnv} {n : ℕ} {op : PrivOp} {ops : List PrivOp}
    (h : Completes envs n ops) (hop : ((envs (n + ops.length)).run op).isSome) :
    Completes envs n (ops ++ [op]) := by
  intro i op' hi
  rcases Nat.lt_or_ge i ops.length with hlt | hge
  · rw [List.getElem?_append_left hlt] at hi
    exact h i op' hi
  · rw [List.getElem?_append_right hge] at hi
    obtain ⟨hzero, rfl⟩ := List.getElem?_eq_some_iff.mp hi
    have hi' : i = ops.length := by
      rw [List.length_singleton] at hzero
      omega
    subst hi'
    simpa using hop

/-- A script that completes up to an operation that fails stops there. -/
theorem Completes.stopsAt {envs : ℕ → BlockEnv} {n : ℕ} {op : PrivOp} {ops : List PrivOp}
    (h : Completes envs n ops) (hop : (envs (n + ops.length)).run op = none) :
    StopsAt envs n (ops ++ [op]) ops.length op :=
  ⟨by simp, hop, by rwa [List.take_left]⟩

/-- Nothing is run after an operation that failed. -/
theorem ran_of_none {envs : ℕ → BlockEnv} {n : ℕ} {op : PrivOp} (h : (envs n).run op = none)
    (ops : List PrivOp) : ran envs n (op :: ops) = [(op, none)] := by
  rw [ran, h]

/-- After one that went through the rest is run. -/
theorem ran_of_some {envs : ℕ → BlockEnv} {n : ℕ} {op : PrivOp} {out : String}
    (h : (envs n).run op = some out) (ops : List PrivOp) :
    ran envs n (op :: ops) = (op, some out) :: ran envs (n + 1) ops := by
  rw [ran, h]

/-- A script that completes is issued as a whole. -/
theorem Completes.ran {envs : ℕ → BlockEnv} {n : ℕ} {ops : List PrivOp} (h : Completes envs n ops) :
    (ran envs n ops).map Prod.fst = ops := by
  induction ops generalizing n with
  | nil => rfl
  | cons op ops ih =>
    obtain ⟨hop, hops⟩ := completes_cons.mp h
    obtain ⟨out, hout⟩ := Option.isSome_iff_exists.mp hop
    rw [ran_of_some hout, List.map_cons, ih hops]

/-- A script that stops is issued up to the op that fails. -/
theorem StopsAt.ran {envs : ℕ → BlockEnv} {n i : ℕ} {ops : List PrivOp} {op : PrivOp}
    (h : StopsAt envs n ops i op) : (ran envs n ops).map Prod.fst = ops.take (i + 1) := by
  induction ops generalizing n i with
  | nil => cases h.at_i
  | cons op' ops ih =>
    cases i with
    | zero =>
      obtain rfl : op' = op := Option.some.inj h.at_i
      have hfailed : (envs n).run op' = none := h.failed
      rw [ran_of_none hfailed]
      rfl
    | succ i =>
      obtain ⟨hop, hops⟩ := completes_cons.mp h.before
      obtain ⟨out, hout⟩ := Option.isSome_iff_exists.mp hop
      have hrest : StopsAt envs (n + 1) ops i op := by
        refine ⟨h.at_i, ?_, hops⟩
        rw [Nat.add_right_comm, Nat.add_assoc]
        exact h.failed
      rw [ran_of_some hout, List.map_cons, ih hrest, List.take_succ_cons]

/-- An op that was issued, at its host; every op before it was carried out. -/
theorem ran_getElem {envs : ℕ → BlockEnv} {n i : ℕ} {ops : List PrivOp} {e : Issued}
    (h : (ran envs n ops)[i]? = some e) :
    ops[i]? = some e.1 ∧ e.2 = (envs (n + i)).run e.1 ∧ Completes envs n (ops.take i) := by
  induction ops generalizing n i with
  | nil => simp [ran] at h
  | cons op ops ih =>
    cases hrun : (envs n).run op with
    | none =>
      rw [ran_of_none hrun] at h
      cases i with
      | zero =>
        obtain rfl := Option.some.inj h
        exact ⟨rfl, hrun.symm, by simp [Completes]⟩
      | succ i => simp at h
    | some out =>
      rw [ran_of_some hrun] at h
      cases i with
      | zero =>
        obtain rfl := Option.some.inj h
        exact ⟨rfl, hrun.symm, by simp [Completes]⟩
      | succ i =>
        obtain ⟨hat, hout, hbefore⟩ := ih h
        refine ⟨hat, ?_, completes_cons.mpr ⟨by rw [hrun]; rfl, hbefore⟩⟩
        rw [hout, Nat.add_right_comm, Nat.add_assoc]

/-! ## The verb runs its script -/

/-- The script of `create_vg`. -/
def vgScript (params : Value) : List PrivOp :=
  (devlist params).map .pvcreate ++ [.vgcreate (newVgName params) (devlist params)]

/-- The message for an op of the script that is not carried out. -/
def opFailed : PrivOp → String
  | .pvcreate d => s!"pvcreate {d} failed"
  | _ => "vgcreate failed"

/-- The loop runs the `pvcreate`s, and what follows them only when all are carried out. -/
theorem pvcreateAll_ran (envs : ℕ → BlockEnv) (n : ℕ) (ds : List String) (ops : List PrivOp) :
    match pvcreateAll envs n ds with
    | (none, issued) =>
      Completes envs n (ds.map .pvcreate) ∧
        ran envs n (ds.map .pvcreate ++ ops) = issued ++ ran envs (n + ds.length) ops
    | (some d, issued) =>
      ran envs n (ds.map .pvcreate ++ ops) = issued ∧
        ∃ i, StopsAt envs n (ds.map .pvcreate ++ ops) i (.pvcreate d) := by
  induction ds generalizing n with
  | nil => exact ⟨by simp [Completes], rfl⟩
  | cons d ds ih =>
    rw [List.map_cons, List.cons_append, pvcreateAll]
    cases hrun : (envs n).run (.pvcreate d) with
    | none => exact ⟨ran_of_none hrun _, 0, rfl, hrun, by simp [Completes]⟩
    | some out =>
      rw [ran_of_some hrun]
      have hop : ((envs n).run (.pvcreate d)).isSome := by rw [hrun]; rfl
      have hrest := ih (n + 1)
      generalize pvcreateAll envs (n + 1) ds = made at hrest
      obtain ⟨failed, issued⟩ := made
      cases failed with
      | none =>
        obtain ⟨hall, hran⟩ := hrest
        refine ⟨completes_cons.mpr ⟨hop, hall⟩, ?_⟩
        rw [hran, List.length_cons, Nat.add_right_comm, Nat.add_assoc]
        rfl
      | some bad =>
        obtain ⟨hran, i, hstop⟩ := hrest
        refine ⟨by rw [hran], i + 1, hstop.at_i, ?_, completes_cons.mpr ⟨hop, hstop.before⟩⟩
        rw [← Nat.add_assoc, Nat.add_right_comm]
        exact hstop.failed

/-- The verb runs its script, and replies by how that ends. -/
theorem createVg_ran (envs : ℕ → BlockEnv) (params : Value) (hname : newVgName params ≠ "")
    (hdevs : devlist params ≠ []) :
    (createVg envs params).2 = ran envs 0 (vgScript params) ∧
      (Completes envs 0 (vgScript params) ∧ (createVg envs params).1 =
          .ok (.object [("uuid", .string
            (createdUuid (envs ((devlist params).length + 1)) (newVgName params)))]) ∨
        ∃ i op, StopsAt envs 0 (vgScript params) i op ∧
          (createVg envs params).1 = .error (.internal (opFailed op))) := by
  have hloop := pvcreateAll_ran envs 0 (devlist params)
    [.vgcreate (newVgName params) (devlist params)]
  rw [← vgScript] at hloop
  rw [createVg, if_neg (by simp [hname, hdevs])]
  generalize pvcreateAll envs 0 (devlist params) = made at hloop
  obtain ⟨failed, issued⟩ := made
  cases failed with
  | some d =>
    obtain ⟨hran, i, hstop⟩ := hloop
    exact ⟨hran.symm, .inr ⟨i, _, hstop, rfl⟩⟩
  | none =>
    obtain ⟨hall, hran⟩ := hloop
    rw [Nat.zero_add] at hran
    have hlen : 0 + ((devlist params).map PrivOp.pvcreate).length = (devlist params).length := by simp
    cases hrun : (envs (devlist params).length).run
        (.vgcreate (newVgName params) (devlist params)) with
    | none =>
      have hstop := hall.stopsAt (by rw [hlen]; exact hrun)
      exact ⟨by simp only [hrun, hran, ran_of_none hrun], .inr ⟨_, _, hstop, by simp only [hrun]; rfl⟩⟩
    | some out =>
      refine ⟨by simp only [hrun, hran, ran_of_some hrun]; rfl, .inl ⟨?_, by simp only [hrun]⟩⟩
      exact hall.concat (by rw [hlen, hrun]; rfl)

/-! ## What root does -/

/-- A command that root runs belongs to an op that was issued, at its host. -/
theorem mem_rootActions {envs : ℕ → BlockEnv} {issued : List Issued} {a : Action} :
    a ∈ rootActions envs issued ↔ ∃ i e, issued[i]? = some e ∧ a ∈ (envs i).does e.1 := by
  simp only [rootActions, List.mem_flatMap, List.mem_zipIdx_iff_getElem?]
  constructor
  · rintro ⟨⟨e, i⟩, hi, ha⟩
    exact ⟨i, e, hi, ha⟩
  · rintro ⟨i, e, hi, ha⟩
    exact ⟨(e, i), hi, ha⟩

/-- What an operation does at the host, it does only if `supervdsmd` gets it. -/
theorem mem_does {env : BlockEnv} {op : PrivOp} {a : Action} :
    a ∈ env.does op ↔ env.reaches op = true ∧ a ∈ (execute env.host op).2 := by
  unfold BlockEnv.does
  split <;> simp_all

/-- `pvcreate` is run on the device that was asked for, if that is a valid one. -/
theorem mem_execute_pvcreate {host : Host} {d : String} {a : Action} :
    a ∈ (execute host (.pvcreate d)).2 ↔
      validDevice d = true ∧ a = .spawn "/usr/sbin/pvcreate" ["-ff", "-y", d] := by
  rw [execute]
  split <;> simp_all [invalid, Supervdsm.run]

/-- `vgcreate` is run on the group and the devices that were asked for, all of them valid. -/
theorem mem_execute_vgcreate {host : Host} {vg : String} {ds : List String} {a : Action}
    (h : a ∈ (execute host (.vgcreate vg ds)).2) :
    validLvmName vg = true ∧ (∀ d ∈ ds, validDevice d = true) ∧
      a = .spawn "/usr/sbin/vgcreate" (["-s", "128m", "-y", vg] ++ ds) := by
  rw [execute] at h
  split at h
  · simp [invalid] at h
  · split at h
    · simp [invalid] at h
    · rename_i hvg hds
      refine ⟨by simpa using hvg, ?_, by simpa [Supervdsm.run] using h⟩
      simp only [not_or, Bool.not_eq_true', Bool.not_eq_false, List.all_eq_true] at hds
      exact hds.2

/-- A `pvcreate` that is carried out has its command run. -/
theorem does_pvcreate {env : BlockEnv} {d out : String} (h : env.run (.pvcreate d) = some out) :
    .spawn "/usr/sbin/pvcreate" ["-ff", "-y", d] ∈ env.does (.pvcreate d) := by
  rw [BlockEnv.run] at h
  by_cases hreach : env.reaches (.pvcreate d) = true
  · rw [mem_does, mem_execute_pvcreate]
    refine ⟨hreach, ?_, rfl⟩
    rw [if_pos hreach, execute] at h
    split at h
    · simp [invalid, PrivResult.failure] at h
    · simp_all
  · simp [hreach] at h

/-- What root does for the script of `create_vg`. -/
theorem rootActions_vgScript {envs : ℕ → BlockEnv} {params : Value} {a : Action}
    (h : a ∈ rootActions envs (ran envs 0 (vgScript params))) :
    (∃ d ∈ devlist params, validDevice d = true ∧ a = .spawn "/usr/sbin/pvcreate" ["-ff", "-y", d]) ∨
      Completes envs 0 ((devlist params).map .pvcreate) ∧ validLvmName (newVgName params) = true ∧
        (∀ d ∈ devlist params, validDevice d = true) ∧
        a = .spawn "/usr/sbin/vgcreate" (["-s", "128m", "-y", newVgName params] ++ devlist params) := by
  obtain ⟨i, e, hi, ha⟩ := mem_rootActions.mp h
  obtain ⟨hop, -, hbefore⟩ := ran_getElem hi
  replace ha := (mem_does.mp ha).2
  rw [vgScript] at hop hbefore
  rcases Nat.lt_or_ge i ((devlist params).map PrivOp.pvcreate).length with hlt | hge
  · rw [List.getElem?_append_left hlt, List.getElem?_map] at hop
    obtain ⟨d, hd, hop⟩ := Option.map_eq_some_iff.mp hop
    rw [← hop] at ha
    obtain ⟨hvalid, rfl⟩ := mem_execute_pvcreate.mp ha
    exact .inl ⟨d, List.mem_of_getElem? hd, hvalid, rfl⟩
  · have hlast : e.1 = .vgcreate (newVgName params) (devlist params) := by
      rw [List.getElem?_append_right hge] at hop
      exact (List.mem_singleton.mp (List.mem_of_getElem? hop))
    rw [hlast] at ha
    refine .inr ⟨?_, mem_execute_vgcreate ha⟩
    -- the script got to its last op
    intro j op hj
    refine hbefore j op ?_
    have hjlt : j < ((devlist params).map PrivOp.pvcreate).length := (List.getElem?_eq_some_iff.mp hj).1
    rw [List.getElem?_take_of_lt (by omega), List.getElem?_append_left hjlt]
    exact hj

/-- The host lists the group `g` among groups with distinct names, none of which has the name of `g`
as its uuid. -/
structure Listed (env : BlockEnv) (vgs : List Vg) (g : Vg) : Prop where
  report : env.vgsReport = vgReport vgs
  names : (vgs.map Vg.name).Nodup
  uuids : ∀ h ∈ vgs, h.uuid ≠ g.name
  mem : g ∈ vgs

/-- A report of groups is read as these groups. -/
theorem getLvmVgList_eq {env : BlockEnv} {vgs : List Vg} (h : env.vgsReport = vgReport vgs) :
    getLvmVgList env = vgs.map fun v => vgEntry v.toJson := by
  rw [getLvmVgList, h]
  show (vgs.map Vg.toJson).map vgEntry ++ [] = _
  rw [List.append_nil, List.map_map]
  rfl

/-- The id of a group that is listed is found by its name. -/
theorem Listed.createdUuid {env : BlockEnv} {vgs : List Vg} {g : Vg} (h : Listed env vgs g)
    (hname : g.name ≠ "") : createdUuid env g.name = g.uuid := by
  have hfind : vgs.find? (fun v => v.uuid == g.name || v.name == g.name) = some g := by
    cases hv : vgs.find? fun v => v.uuid == g.name || v.name == g.name with
    | none => simpa using List.find?_eq_none.mp hv g h.mem
    | some v =>
      have hmem := List.mem_of_find?_eq_some hv
      have hid := List.find?_some hv
      have hsame : v.name = g.name := by simpa [h.uuids v hmem] using hid
      rw [List.inj_on_of_nodup_map h.names hmem h.mem hsame]
  have hid : vgId (.object [("vgName", .string g.name)]) = g.name := rfl
  have hinfo : getVgInfo env (.object [("vgName", .string g.name)]) = .ok (vgEntry g.toJson) := by
    rw [getVgInfo, hid, if_neg hname, getLvmVgList_eq h.report, List.find?_map]
    simp only [Function.comp_def, (strAt_entry _).1, (strAt_entry _).2, hfind, Option.map_some]
  rw [Storage.createdUuid, hinfo]
  exact (strAt_entry g).1

/-- `create_vg`, for every request and whatever becomes of its ops. A request without a name or devices
is refused and nothing is done. Else the verb goes through its script: if every op is
carried out it replies with the uuid of the group, and otherwise it stops at the first that is not,
which the error names. Root runs
nothing but a `pvcreate` for devices of the request that pass the check and the `vgcreate` with all of
them, that only once every `pvcreate` was carried out. A device whose `pvcreate` was carried out has
been wiped, also when the request fails. -/
theorem create_vg_script (envs : ℕ → BlockEnv) (params : Value) :
    let script := vgScript params
    let reply := (createVg envs params).1
    let issued := (createVg envs params).2
    ((newVgName params = "" ∨ devlist params = []) ∧
          reply = .error (.invalidParams "vgName + devlist required") ∧ issued = [] ∨
        Completes envs 0 script ∧ issued.map Prod.fst = script ∧
          (∃ uuid, reply = .ok (.object [("uuid", .string uuid)]) ∧
            ∀ vgs g, Listed (envs ((devlist params).length + 1)) vgs g →
              g.name = newVgName params → uuid = g.uuid) ∨
        ∃ i op, StopsAt envs 0 script i op ∧ issued.map Prod.fst = script.take (i + 1) ∧
          reply = .error (.internal (opFailed op))) ∧
      (∀ a ∈ rootActions envs issued,
        (∃ d ∈ devlist params, validDevice d = true ∧
            a = .spawn "/usr/sbin/pvcreate" ["-ff", "-y", d]) ∨
          Completes envs 0 ((devlist params).map .pvcreate) ∧ validLvmName (newVgName params) = true ∧
            (∀ d ∈ devlist params, validDevice d = true) ∧
            a = .spawn "/usr/sbin/vgcreate"
              (["-s", "128m", "-y", newVgName params] ++ devlist params)) ∧
      ∀ d out, (.pvcreate d, some out) ∈ issued →
        .spawn "/usr/sbin/pvcreate" ["-ff", "-y", d] ∈ rootActions envs issued := by
  intro script reply issued
  by_cases hbad : newVgName params = "" ∨ devlist params = []
  · have hrefused : createVg envs params =
        (.error (.invalidParams "vgName + devlist required"), []) := by
      rw [createVg, if_pos hbad]
    have hissued : issued = [] := congrArg Prod.snd hrefused
    refine ⟨.inl ⟨hbad, congrArg Prod.fst hrefused, hissued⟩, ?_, ?_⟩
    · simp [hissued, rootActions]
    · simp [hissued]
  · obtain ⟨hname, hdevs⟩ := not_or.mp hbad
    obtain ⟨hissued, hreply⟩ := createVg_ran envs params hname hdevs
    change issued = ran envs 0 script at hissued
    rw [hissued]
    refine ⟨.inr ?_, fun a ha => rootActions_vgScript ha, fun d out hmem => ?_⟩
    · rcases hreply with ⟨hall, hok⟩ | ⟨i, op, hstop, herr⟩
      · refine .inl ⟨hall, hall.ran, _, hok, fun vgs g hg hgname => ?_⟩
        rw [← hgname] at hname ⊢
        exact hg.createdUuid hname
      · exact .inr ⟨i, op, hstop, hstop.ran, herr⟩
    · obtain ⟨i, hi⟩ := List.getElem?_of_mem hmem
      obtain ⟨-, hout, -⟩ := ran_getElem hi
      rw [Nat.zero_add] at hout
      exact mem_rootActions.mpr ⟨i, _, hi, does_pvcreate hout.symm⟩

end Vdsm.Storage
