import Mathlib.Data.Int.Order.Basic
import Mathlib.Order.MinMax
import Vdsm.Lib.HashMap
import Vdsm.Lib.Transition
import Vdsm.Storage.Volumes

/-!
# The storage pool (`vdsm-storage/src/domain.rs`)

The host keeps one `PoolState`, which the pool verbs fill and `StoragePool.getInfo` reports. No verb
takes anything out of it: `poolRun_masterVer` and `mem_domains_poolRun` say what it holds after any
calls, in a form that does not depend on their order.
-/

namespace Vdsm.Storage

open Rust FileSystem Supervdsm

/-- `PoolState`. -/
structure PoolState where
  poolId : String
  masterSd : String
  masterVer : ℤ
  domains : List String
deriving DecidableEq, Repr

/-- `PoolState::default()`. -/
def PoolState.initial : PoolState := ⟨"", "", 0, []⟩

/-! ## The verbs -/

/-- `if !new.is_empty() { slot = new; }`. -/
def overwrite (new slot : String) : String := if new = "" then slot else new

/-- `for d in domains { if !slot.contains(&d) { slot.push(d); } }`. -/
def pushNew (domains slot : List String) : List String :=
  domains.foldl (fun slot d => if slot.contains d then slot else slot ++ [d]) slot

/-- `params.get(key).or_else(|| params.get(other)).and_then(Value::as_str).unwrap_or("")`. -/
def stringParamElse (key other : String) (params : Value) : String :=
  (((params.get key).or (params.get other)).bind Value.asStr).getD ""

/-- The keys of the map `params[key]`. -/
def mapKeysParam (key : String) (params : Value) : List String :=
  (((params.get key).bind Value.asObject).map fun m => m.map Prod.fst).getD []

/-- The strings of the list `params[key]`. -/
def stringsParam (key : String) (params : Value) : List String :=
  (((params.get key).bind Value.asArray).map fun a => a.filterMap Value.asStr).getD []

/-- `connect_storage_pool`. -/
def connectStoragePool (params : Value) (s : PoolState) :
    Except JsonRpcError Value × PoolState :=
  let poolId := stringParam "storagepoolID" params
  let masterSd := stringParam "masterSdUUID" params
  let masterVer := intParamOr "masterVersion" 1 params
  let domains := mapKeysParam "domainsMap" params
  (.ok (.object []), {
    poolId := overwrite poolId s.poolId
    masterSd := overwrite masterSd s.masterSd
    masterVer := max masterVer s.masterVer
    domains := pushNew domains s.domains })

/-- `create_storage_pool`. -/
def createStoragePool (params : Value) (s : PoolState) :
    Except JsonRpcError Value × PoolState :=
  let poolId := stringParamElse "poolID" "storagepoolID" params
  let masterSd := stringParamElse "masterDom" "masterSdUUID" params
  let domains := stringsParam "domList" params
  (.ok (.object []), {
    poolId := overwrite poolId s.poolId
    masterSd := overwrite masterSd s.masterSd
    masterVer := if s.masterVer = 0 then 1 else s.masterVer
    domains := pushNew domains s.domains })

/-- `spm_start`. -/
def spmStart (params : Value) (s : PoolState) : Except JsonRpcError Value × PoolState :=
  let poolId := stringParam "storagepoolID" params
  (.ok (.object []), { s with poolId := overwrite poolId s.poolId })

/-- The names under which `vdsmd` registers the three handlers. -/
inductive PoolVerb where
  | connectStoragePool
  | connect
  | disconnect
  | refresh
  | create
  | reconstructMaster
  | spmStart
  | spmStop
deriving DecidableEq, Repr

/-- The registrations of `vdsmd`. -/
def PoolVerb.handler : PoolVerb → Value → PoolState → Except JsonRpcError Value × PoolState
  | connectStoragePool | connect | disconnect | refresh => Storage.connectStoragePool
  | create | reconstructMaster => createStoragePool
  | spmStart | spmStop => Storage.spmStart

/-- A call of one of them. -/
structure PoolCall where
  verb : PoolVerb
  params : Value

namespace PoolCall

/-- The state a call leaves. -/
def after (s : PoolState) (call : PoolCall) : PoolState := (call.verb.handler call.params s).2

/-- The domains the handler reads from the parameters. -/
def domains (call : PoolCall) : List String :=
  match call.verb with
  | .connectStoragePool | .connect | .disconnect | .refresh => mapKeysParam "domainsMap" call.params
  | .create | .reconstructMaster => stringsParam "domList" call.params
  | .spmStart | .spmStop => []

/-- The master the handler reads from the parameters. -/
def masterSd (call : PoolCall) : String :=
  match call.verb with
  | .connectStoragePool | .connect | .disconnect | .refresh => stringParam "masterSdUUID" call.params
  | .create | .reconstructMaster => stringParamElse "masterDom" "masterSdUUID" call.params
  | .spmStart | .spmStop => ""

/-- The version the pool has at least after the call. -/
def version (call : PoolCall) : ℤ :=
  match call.verb with
  | .connectStoragePool | .connect | .disconnect | .refresh =>
    intParamOr "masterVersion" 1 call.params
  | .create | .reconstructMaster => 1
  | .spmStart | .spmStop => 0

end PoolCall

/-- The state after some calls. -/
def poolRunFrom (s : PoolState) (calls : List PoolCall) : PoolState := calls.foldl PoolCall.after s

/-- The state after some calls, the first of which found the initial state. -/
def poolRun (calls : List PoolCall) : PoolState := poolRunFrom .initial calls

/-! ## The report -/

/-- The first two numbers among some words. -/
def firstTwo (words : List String) : ℕ × ℕ :=
  let n := words.filterMap (parseUnsigned u64Max)
  (n[0]?.getD 0, n[1]?.getD 0)

/-- `sd_total_free`. -/
def sdTotalFree (host : Host) (st : State) (sdUuid : String) : ℕ × ℕ :=
  match sdBackend host st sdUuid with
  | some (.file sdPath) =>
    match host.output "/usr/bin/df" ["-B1", "--output=size,avail", sdPath] with
    | .error _ => (0, 0)
    | .ok out => firstTwo (((lines (fromUtf8Lossy out.stdout)).getLast?.map splitWhitespace).getD [])
  | some (.block vgName _) =>
    match host.output "/usr/sbin/vgs"
        ["--noheadings", "--units", "B", "--nosuffix", "-o", "vg_size,vg_free", vgName] with
    | .error _ => (0, 0)
    | .ok out => firstTwo (splitWhitespace (fromUtf8Lossy out.stdout))
  | none => (0, 0)

/-- The entry of a domain in `dominfo`. -/
def dominfoEntry (host : Host) (st : State) (sd : String) : Value :=
  .object [
    ("status", .string "Active"),
    ("diskfree", .string (toString (sdTotalFree host st sd).2)),
    ("alerts", .array []),
    ("version", .string "5"),
    ("isoprefix", .string "")]

/-- The loop over the domains. -/
def insertDominfo (host : Host) (st : State) (sds : List String) (m : HashMap String Value) :
    HashMap String Value :=
  sds.foldl (fun m sd => m.insert sd (dominfoEntry host st sd)) m

/-- `dominfo`: the domains, and the master whether it is one of them or not. -/
def PoolState.dominfo (host : Host) (st : State) (s : PoolState) : HashMap String Value :=
  let m := insertDominfo host st s.domains ∅
  if s.masterSd ≠ "" ∧ s.masterSd ∉ m then m.insert s.masterSd (dominfoEntry host st s.masterSd)
  else m

/-- `get_storage_pool_info`. -/
def getStoragePoolInfo (host : Host) (st : State) (s : PoolState) : Except JsonRpcError Value :=
  .ok (.object [
    ("info", .object [
      ("name", .string "Default"),
      ("version", .string "5"),
      ("isoprefix", .string ""),
      ("master_uuid", .string s.masterSd),
      ("master_ver", .ofInt s.masterVer),
      ("lver", .ofInt 0),
      ("spm_id", .ofInt 1),
      ("type", .string "NFS"),
      ("pool_status", .string "connected")]),
    ("dominfo", .object (s.dominfo host st).toPairs)])

/-- The keys of `dominfo` in an answer. -/
def reportedDomains (answer : Except JsonRpcError Value) : List String :=
  match answer with
  | .ok v => mapKeysParam "dominfo" v
  | .error _ => []

/-! ## What a call changes -/

/-- What is recorded after a push is what was there and what is new. -/
theorem mem_pushNew {d : String} {domains slot : List String} :
    d ∈ pushNew domains slot ↔ d ∈ slot ∨ d ∈ domains := by
  induction domains generalizing slot with
  | nil => simp [pushNew]
  | cons e es ih =>
    rw [pushNew, List.foldl_cons, ← pushNew, ih]
    split
    · rename_i he
      have he : e ∈ slot := by simpa using he
      constructor
      · rintro (h | h)
        · exact .inl h
        · exact .inr (List.mem_cons_of_mem e h)
      · rintro (h | h)
        · exact .inl h
        · rcases List.mem_cons.mp h with rfl | h
          · exact .inl he
          · exact .inr h
    · rw [List.mem_append, List.mem_singleton, List.mem_cons, or_assoc]

/-- Nothing is recorded twice. -/
theorem nodup_pushNew {domains slot : List String} (h : slot.Nodup) :
    (pushNew domains slot).Nodup := by
  induction domains generalizing slot with
  | nil => exact h
  | cons e es ih =>
    rw [pushNew, List.foldl_cons, ← pushNew]
    apply ih
    split
    · exact h
    · rename_i he
      exact List.nodup_append_comm.mp (List.nodup_cons.mpr ⟨by simpa using he, h⟩)

/-- Every call pushes its domains. -/
theorem after_domains (s : PoolState) (call : PoolCall) :
    (call.after s).domains = pushNew call.domains s.domains := by
  obtain ⟨verb, params⟩ := call
  cases verb <;> rfl

/-- It overwrites the master, if it names one. -/
theorem after_masterSd (s : PoolState) (call : PoolCall) :
    (call.after s).masterSd = overwrite call.masterSd s.masterSd := by
  obtain ⟨verb, params⟩ := call
  cases verb <;> rfl

/-- Setting a zero version to one is a maximum too, as no version is negative. -/
theorem after_masterVer {s : PoolState} (call : PoolCall) (h : 0 ≤ s.masterVer) :
    (call.after s).masterVer = max s.masterVer call.version := by
  have hcreate : (if s.masterVer = 0 then 1 else s.masterVer) = max s.masterVer 1 := by
    split <;> omega
  obtain ⟨verb, params⟩ := call
  cases verb with
  | connectStoragePool | connect | disconnect | refresh => exact max_comm _ _
  | create | reconstructMaster => exact hcreate
  | spmStart | spmStop => exact (max_eq_left h).symm

/-! ## Runs -/

theorem poolRunFrom_append (s : PoolState) (before after : List PoolCall) :
    poolRunFrom s (before ++ after) = poolRunFrom (poolRunFrom s before) after :=
  List.foldl_append

theorem poolRunFrom_cons (s : PoolState) (call : PoolCall) (calls : List PoolCall) :
    poolRunFrom s (call :: calls) = poolRunFrom (call.after s) calls := rfl

/-- The version after some calls is the largest any of them asked for. -/
theorem poolRunFrom_masterVer {s : PoolState} (calls : List PoolCall) (h : 0 ≤ s.masterVer) :
    (poolRunFrom s calls).masterVer = (calls.map PoolCall.version).foldl max s.masterVer := by
  induction calls generalizing s with
  | nil => rfl
  | cons call calls ih =>
    have hver := after_masterVer call h
    rw [poolRunFrom_cons, ih (hver ▸ h.trans (le_max_left _ _)), hver, List.map_cons, List.foldl_cons]

/-- The version recorded is the largest that was asked for. -/
theorem poolRun_masterVer (calls : List PoolCall) :
    (poolRun calls).masterVer = (calls.map PoolCall.version).foldl max 0 :=
  poolRunFrom_masterVer calls le_rfl

/-- It never falls. -/
theorem le_masterVer_poolRunFrom {s : PoolState} (calls : List PoolCall) (h : 0 ≤ s.masterVer) :
    s.masterVer ≤ (poolRunFrom s calls).masterVer := by
  induction calls generalizing s with
  | nil => exact le_rfl
  | cons call calls ih =>
    have hver : s.masterVer ≤ (call.after s).masterVer :=
      after_masterVer call h ▸ le_max_left _ _
    exact hver.trans (ih (h.trans hver))

theorem poolRun_masterVer_nonneg (calls : List PoolCall) : 0 ≤ (poolRun calls).masterVer :=
  le_masterVer_poolRunFrom calls le_rfl

/-- The domains after some calls are the ones any of them listed. -/
theorem mem_domains_poolRunFrom {d : String} {s : PoolState} (calls : List PoolCall) :
    d ∈ (poolRunFrom s calls).domains ↔ d ∈ s.domains ∨ ∃ call ∈ calls, d ∈ call.domains := by
  induction calls generalizing s with
  | nil => simp [poolRunFrom]
  | cons call calls ih =>
    rw [poolRunFrom_cons, ih, after_domains, mem_pushNew, or_assoc]
    simp

/-- No run records a domain twice. -/
theorem nodup_domains_poolRunFrom {s : PoolState} (calls : List PoolCall) (h : s.domains.Nodup) :
    (poolRunFrom s calls).domains.Nodup := by
  induction calls generalizing s with
  | nil => exact h
  | cons call calls ih =>
    apply ih
    rw [after_domains]
    exact nodup_pushNew h

/-- Both are grown by every call: what a prefix of the calls leaves stays. -/
theorem poolRun_mono {before calls : List PoolCall} (h : before <+: calls) :
    (poolRun before).domains ⊆ (poolRun calls).domains ∧
      (poolRun before).masterVer ≤ (poolRun calls).masterVer := by
  obtain ⟨after, rfl⟩ := h
  rw [poolRun, poolRun, poolRunFrom_append]
  constructor
  · intro d hd
    exact (mem_domains_poolRunFrom after).mpr (.inl hd)
  · exact le_masterVer_poolRunFrom after (poolRun_masterVer_nonneg before)

/-! ## What is reported -/

/-- The loop over the domains reports each of them. -/
theorem mem_insertDominfo {host : Host} {st : State} {sd : String} {sds : List String}
    {m : HashMap String Value} : sd ∈ insertDominfo host st sds m ↔ sd ∈ m ∨ sd ∈ sds := by
  induction sds generalizing m with
  | nil => simp [insertDominfo]
  | cons e es ih =>
    rw [insertDominfo, List.foldl_cons, ← insertDominfo, ih, AList.mem_insert, List.mem_cons,
      or_comm (a := sd = e), or_assoc]

/-- A domain is reported if it is recorded, as a domain or as the master. -/
def PoolState.Reports (s : PoolState) (sd : String) : Prop :=
  sd ∈ s.domains ∨ sd = s.masterSd ∧ s.masterSd ≠ ""

/-- The report has the domains that are recorded, and the master. -/
theorem mem_dominfo {host : Host} {st : State} {s : PoolState} {sd : String} :
    sd ∈ s.dominfo host st ↔ s.Reports sd := by
  have hdomains : ∀ sd, sd ∈ insertDominfo host st s.domains ∅ ↔ sd ∈ s.domains := by
    intro sd
    rw [mem_insertDominfo]
    simp
  simp only [PoolState.dominfo, PoolState.Reports]
  split
  · rename_i hmaster
    rw [AList.mem_insert, hdomains, or_comm]
    simp [hmaster.1]
  · rename_i hmaster
    rw [hdomains]
    constructor
    · exact .inl
    · rintro (h | ⟨rfl, hne⟩)
      · exact h
      · by_contra hmem
        exact hmaster ⟨hne, mt (hdomains _).mp hmem⟩

/-- So has the reply of `getInfo`. -/
theorem mem_reportedDomains {host : Host} {st : State} {s : PoolState} {sd : String} :
    sd ∈ reportedDomains (getStoragePoolInfo host st s) ↔ s.Reports sd := by
  rw [← @mem_dominfo host st]
  have hkeys : reportedDomains (getStoragePoolInfo host st s) =
      (s.dominfo host st).toPairs.map Prod.fst := rfl
  rw [hkeys, AList.mem_keys]
  simp [HashMap.toPairs, AList.keys, List.keys]

/-- The order of the calls decides neither the domains nor the version, and nothing is lost on the
way; `dominfo` has the domains and the master. -/
theorem pool_order_independent (calls : List PoolCall) :
    (∀ before, before <+: calls → (poolRun before).domains.Nodup) ∧
    (∀ before after, before <+: after → after <+: calls →
      (poolRun before).domains ⊆ (poolRun after).domains ∧
        (poolRun before).masterVer ≤ (poolRun after).masterVer) ∧
    (∀ calls', calls.Perm calls' →
      (∀ sd, sd ∈ (poolRun calls).domains ↔ sd ∈ (poolRun calls').domains) ∧
        (poolRun calls).masterVer = (poolRun calls').masterVer) ∧
    ∀ before, before <+: calls → ∀ host st sd,
      sd ∈ reportedDomains (getStoragePoolInfo host st (poolRun before)) ↔
        sd ∈ (poolRun before).domains ∨
          sd = (poolRun before).masterSd ∧ (poolRun before).masterSd ≠ "" := by
  refine ⟨?_, ?_, ?_, ?_⟩
  · intro before _
    exact nodup_domains_poolRunFrom before List.nodup_nil
  · intro before after hprefix _
    exact poolRun_mono hprefix
  · intro calls' hperm
    constructor
    · intro sd
      rw [poolRun, poolRun, mem_domains_poolRunFrom, mem_domains_poolRunFrom]
      simp only [hperm.mem_iff]
    · rw [poolRun_masterVer, poolRun_masterVer]
      exact (hperm.map _).foldl_eq' (fun v _ w _ acc => max_right_comm acc v w) 0
  · intro before _ host st sd
    exact mem_reportedDomains

end Vdsm.Storage
