import Vdsm.Rpc.Protocol
import Vdsm.Supervdsm.Exec

/-!
# Volume groups (`vdsm-storage/src/block.rs`)

Three verbs take a volume group by the same parameter, `vgUUID` or `vgName`. `get_vg_info` looks for
its value among the uuids and the names of the groups; `extend_vg` and `remove_vg` hand it on as a
name, which is what the LVM commands take, and drop what becomes of their ops. So the verbs agree only
on ids that are names, and a success of `extend_vg` says nothing about the devices.
-/

namespace Vdsm.Storage

open Rust Supervdsm

/-- The host at one op of a verb: how commands end, and whether supervdsmd is reached. -/
structure BlockEnv where
  host : Host
  reaches : PrivOp → Bool
  /-- `serde_json::from_str`. -/
  fromStr : String → Option Value

namespace BlockEnv

/-- `query`. -/
def query (env : BlockEnv) (bin : String) (args : List String) : Option String :=
  match env.host.output bin args with
  | .ok out => if out.success then some (fromUtf8Lossy out.stdout) else none
  | .error _ => none

/-- `sd_backend::run`: the output of an op that was carried out. -/
def run (env : BlockEnv) (op : PrivOp) : Option String :=
  let result := if env.reaches op then some (execute env.host op).1 else none
  (result.filter (·.ok)).map (·.stdout)

/-- The report of `vgs`, or an empty object. -/
def vgsReport (env : BlockEnv) : Value :=
  let raw := (env.query "/usr/sbin/vgs"
    ["--reportformat", "json", "-o", "vg_uuid,vg_name,vg_size,vg_free,vg_tags"]).getD ""
  (env.fromStr raw).getD (.object [])

end BlockEnv

/-! ## The verbs -/

/-- An entry of `get_lvm_vg_list`, from one of the report. -/
def vgEntry (vg : Value) : Value :=
  .object [("vgUUID", (vg.get "vg_uuid").getD (.string "")),
    ("name", (vg.get "vg_name").getD (.string "")),
    ("size", (vg.get "vg_size").getD (.string "0")),
    ("free", (vg.get "vg_free").getD (.string "0")),
    ("attr", .string ""), ("state", .string "OK"), ("pvList", .array [])]

/-- The elements of an array at a key. -/
def elementsAt (v : Value) (key : String) : List Value := ((v.get key).bind Value.asArray).getD []

/-- `get_lvm_vg_list`. -/
def getLvmVgList (env : BlockEnv) : List Value :=
  (elementsAt env.vgsReport "report").flatMap fun r => (elementsAt r "vg").map vgEntry

/-- The id that the verbs are called with. -/
def vgId (params : Value) : String :=
  (((params.get "vgUUID").or (params.get "vgName")).bind Value.asStr).getD ""

/-- The string at a key, or an empty one. -/
def strAt (v : Value) (key : String) : String := ((v.get key).bind Value.asStr).getD ""

/-- `get_vg_info`. -/
def getVgInfo (env : BlockEnv) (params : Value) : Except JsonRpcError Value :=
  let vg := vgId params
  if vg = "" then .error (.invalidParams "vgUUID or vgName required")
  else
    match (getLvmVgList env).find? fun v => strAt v "vgUUID" == vg || strAt v "name" == vg with
    | some v => .ok v
    | none => .error (.internal s!"VG {vg} not found")

/-- The devices of a request: the strings of `devlist`. -/
def devlist (params : Value) : List String := (elementsAt params "devlist").filterMap Value.asStr

/-- An op that a verb issued, with its output if it was carried out. -/
abbrev Issued : Type := PrivOp × Option String

/-- The loop of `extend_vg`, with the host at each op. -/
def extendAll (envs : ℕ → BlockEnv) (vg : String) : ℕ → List String → List Issued
  | _, [] => []
  | n, d :: ds =>
    (.pvcreate d, (envs (2 * n)).run (.pvcreate d)) ::
      (.vgextend vg d, (envs (2 * n + 1)).run (.vgextend vg d)) :: extendAll envs vg (n + 1) ds

/-- `extend_vg`: the reply, and the ops with what became of them. -/
def extendVg (envs : ℕ → BlockEnv) (params : Value) : Except JsonRpcError Value × List Issued :=
  let vg := vgId params
  let devices := devlist params
  if vg = "" ∨ devices = [] then (.error (.invalidParams "vg + devlist required"), [])
  -- the results of the ops are dropped
  else (.ok (.object []), extendAll envs vg 0 devices)

/-- `remove_vg`. -/
def removeVg (env : BlockEnv) (params : Value) : Except JsonRpcError Value × List Issued :=
  let vg := vgId params
  if vg = "" then (.error (.invalidParams "vg required"), [])
  else (.ok (.object []), [(.vgremove vg, env.run (.vgremove vg))])

/-! ## Volume groups -/

/-- A volume group as `vgs` reports it. -/
structure Vg where
  uuid : String
  name : String
  size : String
  free : String
  tags : String
deriving DecidableEq, Repr

def Vg.toJson (g : Vg) : Value :=
  .object [("vg_uuid", .string g.uuid), ("vg_name", .string g.name), ("vg_size", .string g.size),
    ("vg_free", .string g.free), ("vg_tags", .string g.tags)]

/-- The report of `vgs --reportformat json`. -/
def vgReport (vgs : List Vg) : Value :=
  .object [("report", .array [.object [("vg", .array (vgs.map Vg.toJson))]])]

/-- A group is reported with its id and its name. -/
theorem strAt_entry (g : Vg) :
    strAt (vgEntry g.toJson) "vgUUID" = g.uuid ∧ strAt (vgEntry g.toJson) "name" = g.name :=
  ⟨rfl, rfl⟩

/-- The host has these groups, with distinct names and uuids, and `get_vg_info` answers with one of
them. -/
structure VgAnswers (env : BlockEnv) (vgs : List Vg) (params : Value) (g : Vg) : Prop where
  report : env.vgsReport = vgReport vgs
  names : (vgs.map Vg.name).Nodup
  uuids : (vgs.map Vg.uuid).Nodup
  mem : g ∈ vgs
  info : getVgInfo env params = .ok (vgEntry g.toJson)

/-- The group that answers has the id as its uuid or as its name. -/
theorem VgAnswers.id {env : BlockEnv} {vgs : List Vg} {params : Value} {g : Vg}
    (h : VgAnswers env vgs params g) :
    vgId params ≠ "" ∧ (vgId params = g.uuid ∨ vgId params = g.name) := by
  have hinfo := h.info
  rw [getVgInfo] at hinfo
  split at hinfo
  · cases hinfo
  · rename_i hne
    refine ⟨hne, ?_⟩
    split at hinfo
    · rename_i v hv
      obtain rfl := Except.ok.inj hinfo
      have hid := List.find?_some hv
      rw [(strAt_entry g).1, (strAt_entry g).2, Bool.or_eq_true, beq_iff_eq, beq_iff_eq] at hid
      exact hid.imp Eq.symm Eq.symm
    · cases hinfo

/-! ## Agreement -/

/-- The verbs mean the group `g`: their ops are for its name, and a success of `extend_vg` says that
every device was added to it. -/
structure MeanGroup (g : Vg) (devices : List String)
    (extended removed : Except JsonRpcError Value × List Issued) : Prop where
  extends_g : ∀ vg d out, (PrivOp.vgextend vg d, out) ∈ extended.2 → vg = g.name
  removes_g : removed.2.map Prod.fst = [.vgremove g.name]
  added : (∃ v, extended.1 = .ok v) →
    ∀ d ∈ devices, ∃ out, (PrivOp.vgextend g.name d, some out) ∈ extended.2

/-- The `vgextend` ops of the loop: one for each device, at its host. -/
theorem mem_extendAll {envs : ℕ → BlockEnv} {vg vg' d : String} {n : ℕ} {ds : List String}
    {out : Option String} :
    (PrivOp.vgextend vg' d, out) ∈ extendAll envs vg n ds ↔
      vg' = vg ∧ ∃ k, ds[k]? = some d ∧ out = (envs (2 * (n + k) + 1)).run (.vgextend vg d) := by
  induction ds generalizing n with
  | nil => simp [extendAll]
  | cons d₀ ds ih =>
    rw [extendAll, List.mem_cons, List.mem_cons, ih]
    constructor
    · rintro (h | h | ⟨rfl, k, hk, hout⟩)
      · simp at h
      · obtain ⟨⟨rfl, rfl⟩, rfl⟩ : (vg' = vg ∧ d = d₀) ∧ out = _ := by simpa using h
        exact ⟨rfl, 0, rfl, rfl⟩
      · exact ⟨rfl, k + 1, hk, by rw [hout, Nat.add_assoc, Nat.add_comm 1 k]⟩
    · rintro ⟨rfl, k, hk, hout⟩
      cases k with
      | zero =>
        obtain rfl := Option.some.inj hk
        rw [hout]
        exact .inr (.inl rfl)
      | succ k => exact .inr (.inr ⟨rfl, k, hk, by rw [hout, Nat.add_assoc, Nat.add_comm 1 k]⟩)

/-- A request with an id and a device runs the loop. -/
theorem extendVg_eq {envs : ℕ → BlockEnv} {params : Value} {d : String} (hid : vgId params ≠ "")
    (hd : d ∈ devlist params) : extendVg envs params =
      (.ok (.object []), extendAll envs (vgId params) 0 (devlist params)) := by
  rw [extendVg, if_neg]
  rintro (h | h)
  · exact hid h
  · exact List.ne_nil_of_mem hd h

/-- `remove_vg` hands the id it was given to `vgremove` as a name. -/
theorem removeVg_eq {env : BlockEnv} {params : Value} (hid : vgId params ≠ "") :
    removeVg env params =
      (.ok (.object []), [(.vgremove (vgId params), env.run (.vgremove (vgId params)))]) := by
  rw [removeVg, if_neg hid]

/-- The verbs agree. For every set of volume groups and every request that `get_vg_info` answers with
the group `g`, `extend_vg` and `remove_vg` mean `g`, and a success of `extend_vg` says that the
devices were added, exactly if the id is the name of `g` and supervdsmd carries out a `vgextend` for
every device. -/
theorem vg_verbs_agree_iff (env removeEnv : BlockEnv) (envs : ℕ → BlockEnv) (vgs : List Vg)
    (params : Value) (g : Vg) (h : VgAnswers env vgs params g) :
    MeanGroup g (devlist params) (extendVg envs params) (removeVg removeEnv params) ↔
      vgId params = g.name ∧ ∀ d ∈ devlist params, ∃ k, (devlist params)[k]? = some d ∧
        ((envs (2 * k + 1)).run (.vgextend g.name d)).isSome := by
  obtain ⟨hne, -⟩ := h.id
  constructor
  · intro hmean
    have hname : vgId params = g.name := by simpa [removeVg_eq hne] using hmean.removes_g
    refine ⟨hname, fun d hd => ?_⟩
    obtain ⟨out, hout⟩ := hmean.added ⟨_, by rw [extendVg_eq hne hd]⟩ d hd
    rw [extendVg_eq hne hd] at hout
    obtain ⟨-, k, hk, hrun⟩ := mem_extendAll.mp hout
    rw [Nat.zero_add, hname] at hrun
    exact ⟨k, hk, by rw [← hrun]; rfl⟩
  · rintro ⟨hname, hadded⟩
    refine ⟨?_, by simp [removeVg_eq hne, hname], ?_⟩
    · intro vg d out hmem
      rw [extendVg] at hmem
      split at hmem
      · cases hmem
      · rw [(mem_extendAll.mp hmem).1, hname]
    · rintro - d hd
      obtain ⟨k, hk, hrun⟩ := hadded d hd
      obtain ⟨out, hout⟩ := Option.isSome_iff_exists.mp hrun
      refine ⟨out, ?_⟩
      rw [extendVg_eq hne hd]
      refine mem_extendAll.mpr ⟨hname.symm, k, hk, ?_⟩
      rw [Nat.zero_add, hname, hout]

def dataVg : Vg := ⟨"qfYzGd-3kLm", "data", "10.00g", "4.00g", ""⟩

/-- The text of the report of a host with one group. -/
def dataReport : String :=
  "\x7b\"report\":[\x7b\"vg\":[\x7b\"vg_uuid\":\"qfYzGd-3kLm\",\"vg_name\":\"data\"," ++
    "\"vg_size\":\"10.00g\",\"vg_free\":\"4.00g\",\"vg_tags\":\"\"\x7d]\x7d]\x7d"

/-- A host with this group, where every command works. -/
def dataEnv : BlockEnv where
  host :=
    { quietHost with
      output := fun bin _ =>
        .ok ⟨true, some 0, if bin = "/usr/sbin/vgs" then asBytes dataReport else [], []⟩ }
  reaches _ := true
  fromStr _ := some (vgReport [dataVg])

def byName : Value :=
  .object [("vgName", .string "data"), ("devlist", .array [.string "/dev/sdb"])]

def byUuid : Value :=
  .object [("vgUUID", .string "qfYzGd-3kLm"), ("devlist", .array [.string "/dev/sdb"])]

/-- A request by name means one group for all three verbs. -/
theorem vg_verbs_agree_byName :
    MeanGroup dataVg (devlist byName) (extendVg (fun _ => dataEnv) byName)
      (removeVg dataEnv byName) := by
  have hanswers : VgAnswers dataEnv [dataVg] byName dataVg :=
    ⟨rfl, by decide, by decide, by simp, rfl⟩
  refine (vg_verbs_agree_iff dataEnv dataEnv _ [dataVg] byName dataVg hanswers).mpr ⟨rfl, ?_⟩
  have hdevices : devlist byName = ["/dev/sdb"] := rfl
  rw [hdevices]
  intro d hd
  obtain rfl := List.mem_singleton.mp hd
  exact ⟨0, rfl, by decide⟩

/-- With the uuid, `get_vg_info` finds the group, and the other two verbs address one of that name. -/
theorem vg_verbs_disagree_byUuid :
    VgAnswers dataEnv [dataVg] byUuid dataVg ∧
      (removeVg dataEnv byUuid).2.map Prod.fst = [.vgremove "qfYzGd-3kLm"] ∧
      ¬ MeanGroup dataVg (devlist byUuid) (extendVg (fun _ => dataEnv) byUuid)
        (removeVg dataEnv byUuid) := by
  refine ⟨⟨rfl, by decide, by decide, by simp, rfl⟩, rfl, fun h => ?_⟩
  have hname : [PrivOp.vgremove "qfYzGd-3kLm"] = [.vgremove "data"] := h.removes_g
  exact absurd hname (by decide)

end Vdsm.Storage
