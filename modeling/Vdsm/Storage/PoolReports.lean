import Mathlib.Algebra.Group.Int.Defs
import Vdsm.Storage.Pool

/-!
# What `StoragePool.getInfo` reports of the calls

`dominfo` should show the domains that were named for the pool the host is connected to. `StaysWithPool` is
what a call must meet for that, given the calls before it: the handlers forget neither on a disconnect
nor on a change of pool. `HonouredWhen` is when the report shows what a request in the schema's terms
asked for: the handlers look for the domains under names the schema does not have.
-/

namespace Vdsm.Storage

open Rust FileSystem Supervdsm

/-! ## The connected pool -/

namespace PoolCall

/-- The pool a call is for. -/
def poolId (call : PoolCall) : String :=
  match call.verb with
  | .create | .reconstructMaster => stringParamElse "poolID" "storagepoolID" call.params
  | _ => stringParam "storagepoolID" call.params

/-- Does the call connect the host to its pool? -/
def connects (call : PoolCall) : Bool :=
  match call.verb with
  | .connectStoragePool | .connect | .create => true
  | _ => false

/-- The call names a domain, under the names of the schema or of the handlers. -/
def Names (call : PoolCall) (sd : String) : Prop :=
  (sd ≠ "" ∧ (sd = stringParam "masterSdUUID" call.params ∨ sd = stringParam "masterDom" call.params)) ∨
  sd ∈ mapKeysParam "domainsMap" call.params ∨ sd ∈ mapKeysParam "domainDict" call.params ∨
  sd ∈ stringsParam "domList" call.params ∨ sd ∈ stringsParam "domainList" call.params

/-- The handler of the call takes a domain from the parameters. -/
def Takes (call : PoolCall) (sd : String) : Prop :=
  sd ∈ call.domains ∨ sd = call.masterSd ∧ call.masterSd ≠ ""

end PoolCall

/-- The calls after the last `StoragePool.disconnect`. -/
def sinceDisconnect (calls : List PoolCall) : List PoolCall :=
  (calls.reverse.takeWhile fun call => call.verb ≠ .disconnect).reverse

/-- The pool the host is connected to: the one of the last connect or create after the last
disconnect. -/
def connectedPool (calls : List PoolCall) : Option String :=
  ((sinceDisconnect calls).reverse.find? PoolCall.connects).map PoolCall.poolId

/-- Some call after the last disconnect named the domain for the pool. -/
def NamedFor (calls : List PoolCall) (pool sd : String) : Prop :=
  ∃ call ∈ sinceDisconnect calls, call.poolId = pool ∧ call.Names sd

/-- Every domain reported after some calls was named for the pool that is connected. Without one,
none is reported. -/
def ReportsConnected (calls : List PoolCall) : Prop :=
  ∀ host st, ∀ sd ∈ reportedDomains (getStoragePoolInfo host st (poolRun calls)),
    ∃ pool, connectedPool calls = some pool ∧ NamedFor calls pool sd

/-- The recorded domains and master that a call leaves in place. -/
def PoolState.Keeps (s : PoolState) (call : PoolCall) (sd : String) : Prop :=
  sd ∈ s.domains ∨ (sd = s.masterSd ∧ s.masterSd ≠ "" ∧ call.masterSd = "")

/-- What a call meets so that the report stays with the connected pool. -/
def StaysWithPool (before : List PoolCall) (call : PoolCall) : Prop :=
  match call.verb with
  -- a disconnect clears nothing, so there must be nothing
  | .disconnect =>
    (poolRun before).domains = [] ∧ (poolRun before).masterSd = "" ∧ ∀ sd, ¬call.Takes sd
  -- a change of pool leaves what was recorded for the other one
  | .connectStoragePool | .connect | .create =>
    connectedPool before = some call.poolId ∨
      ∀ sd, (poolRun before).Keeps call sd → call.Names sd ∨ NamedFor before call.poolId sd
  -- what these record counts for whichever pool is connected
  | .refresh | .reconstructMaster =>
    connectedPool before = some call.poolId ∨
      ∀ sd, call.Takes sd → ∃ pool, connectedPool before = some pool ∧ NamedFor before pool sd
  | .spmStart | .spmStop => True

/-! ### One more call -/

/-- A call without domains and master records nothing. -/
theorem not_takes {call : PoolCall} (hdomains : call.domains = []) (hmaster : call.masterSd = "")
    (sd : String) : ¬call.Takes sd := by
  rintro (h | h)
  · rw [hdomains] at h
    exact List.not_mem_nil h
  · exact h.2 hmaster

/-- What a call records it names. -/
theorem names_of_takes {call : PoolCall} {sd : String} (h : call.Takes sd) : call.Names sd := by
  have hmaster : ∀ params, stringParamElse "masterDom" "masterSdUUID" params =
      stringParam "masterSdUUID" params ∨
      stringParamElse "masterDom" "masterSdUUID" params = stringParam "masterDom" params := by
    intro params
    simp only [stringParamElse, stringParam]
    cases params.get "masterDom" with
    | none => exact .inl rfl
    | some v => exact .inr rfl
  obtain ⟨verb, params⟩ := call
  cases verb with
  | connectStoragePool | connect | disconnect | refresh =>
    rcases h with h | ⟨rfl, hne⟩
    · exact .inr (.inl h)
    · exact .inl ⟨hne, .inl rfl⟩
  | create | reconstructMaster =>
    rcases h with h | ⟨rfl, hne⟩
    · exact .inr (.inr (.inr (.inl h)))
    · exact .inl ⟨hne, hmaster params⟩
  | spmStart | spmStop => exact absurd h (not_takes rfl rfl sd)

/-- What is recorded after a call was kept or taken by it. -/
theorem reports_after {s : PoolState} {call : PoolCall} {sd : String} :
    (call.after s).Reports sd ↔ s.Keeps call sd ∨ call.Takes sd := by
  rw [PoolState.Reports, after_domains, after_masterSd, mem_pushNew, PoolState.Keeps,
    PoolCall.Takes, overwrite]
  by_cases h : call.masterSd = ""
  · simp [h]
    tauto
  · simp [h]
    tauto

/-- What a call keeps was reported before. -/
theorem reports_of_keeps {s : PoolState} {call : PoolCall} {sd : String} (h : s.Keeps call sd) :
    s.Reports sd := by
  rcases h with h | ⟨rfl, hne, -⟩
  · exact .inl h
  · exact .inr ⟨rfl, hne⟩

theorem poolRun_append_one (before : List PoolCall) (call : PoolCall) :
    poolRun (before ++ [call]) = call.after (poolRun before) :=
  poolRunFrom_append _ before [call]

/-- A disconnect starts anew, any other call is added. -/
theorem sinceDisconnect_append_one (before : List PoolCall) (call : PoolCall) :
    sinceDisconnect (before ++ [call]) =
      if call.verb = .disconnect then [] else sinceDisconnect before ++ [call] := by
  unfold sinceDisconnect
  rw [List.reverse_append, List.reverse_singleton, List.singleton_append, List.takeWhile_cons]
  split <;> simp_all

/-- What is connected after one more call. -/
theorem connectedPool_append_one (before : List PoolCall) (call : PoolCall) :
    connectedPool (before ++ [call]) =
      if call.verb = .disconnect then none
      else if call.connects then some call.poolId else connectedPool before := by
  unfold connectedPool
  rw [sinceDisconnect_append_one]
  split
  · rfl
  · rw [List.reverse_append, List.reverse_singleton, List.singleton_append, List.find?_cons]
    cases call.connects <;> rfl

/-- A call that is no disconnect adds what it names to its pool. -/
theorem namedFor_append_one {before : List PoolCall} {call : PoolCall} {pool sd : String}
    (h : call.verb ≠ .disconnect) :
    NamedFor (before ++ [call]) pool sd ↔
      NamedFor before pool sd ∨ call.poolId = pool ∧ call.Names sd := by
  simp only [NamedFor, sinceDisconnect_append_one, h, if_false, List.mem_append,
    List.mem_singleton, or_and_right, exists_or, exists_eq_left]

/-- The report in terms of the state, without a host. -/
theorem reportsConnected_iff {calls : List PoolCall} :
    ReportsConnected calls ↔ ∀ sd, (poolRun calls).Reports sd →
      ∃ pool, connectedPool calls = some pool ∧ NamedFor calls pool sd := by
  simp only [ReportsConnected, mem_reportedDomains]
  exact ⟨fun h => h quietHost oneImage, fun h _ _ => h⟩

/-- What one more call must keep and take for the report to stay right. -/
theorem reportsConnected_append_one_iff {before : List PoolCall} {call : PoolCall} :
    ReportsConnected (before ++ [call]) ↔ ∀ sd, (poolRun before).Keeps call sd ∨ call.Takes sd →
      ∃ pool, connectedPool (before ++ [call]) = some pool ∧
        NamedFor (before ++ [call]) pool sd := by
  rw [reportsConnected_iff, poolRun_append_one]
  simp only [reports_after]

/-- After a disconnect nothing may be recorded. -/
theorem reportsConnected_disconnect {before : List PoolCall} {call : PoolCall}
    (hverb : call.verb = .disconnect) : ReportsConnected (before ++ [call]) ↔
      (poolRun before).domains = [] ∧ (poolRun before).masterSd = "" ∧ ∀ sd, ¬call.Takes sd := by
  have hnone : connectedPool (before ++ [call]) = none := by
    rw [connectedPool_append_one, if_pos hverb]
  rw [reportsConnected_append_one_iff, hnone]
  constructor
  · intro h
    have hnothing : ∀ sd, ¬((poolRun before).Keeps call sd ∨ call.Takes sd) := by
      intro sd hsd
      obtain ⟨pool, hpool, -⟩ := h sd hsd
      cases hpool
    refine ⟨?_, ?_, fun sd hsd => hnothing sd (.inr hsd)⟩
    · exact List.eq_nil_iff_forall_not_mem.mpr fun sd hsd => hnothing sd (.inl (.inl hsd))
    · -- a master is kept or replaced, and reported either way
      by_contra hne
      by_cases hcall : call.masterSd = ""
      · exact hnothing _ (.inl (.inr ⟨rfl, hne, hcall⟩))
      · exact hnothing _ (.inr (.inr ⟨rfl, hcall⟩))
  · rintro ⟨hdomains, hmaster, htakes⟩ sd ((hsd | ⟨-, hne, -⟩) | hsd)
    · rw [hdomains] at hsd
      exact absurd hsd List.not_mem_nil
    · exact absurd hmaster hne
    · exact absurd hsd (htakes sd)

/-- After a call that connects, what was kept must belong to the same pool. -/
theorem reportsConnected_connects {before : List PoolCall} {call : PoolCall}
    (hverb : call.verb ≠ .disconnect) (hconnects : call.connects = true)
    (h : ReportsConnected before) : ReportsConnected (before ++ [call]) ↔
      connectedPool before = some call.poolId ∨
        ∀ sd, (poolRun before).Keeps call sd → call.Names sd ∨ NamedFor before call.poolId sd := by
  have hpool : connectedPool (before ++ [call]) = some call.poolId := by
    rw [connectedPool_append_one, if_neg hverb, if_pos hconnects]
  rw [reportsConnected_append_one_iff, hpool]
  simp only [namedFor_append_one hverb, Option.some.injEq]
  constructor
  · intro h'
    right
    intro sd hsd
    obtain ⟨pool, rfl, hnamed | ⟨-, hnamed⟩⟩ := h' sd (.inl hsd)
    · exact .inr hnamed
    · exact .inl hnamed
  · rintro hkept sd (hsd | hsd)
    · rcases hkept with hsame | hkept
      · obtain ⟨pool, hcurrent, hnamed⟩ := reportsConnected_iff.mp h sd (reports_of_keeps hsd)
        obtain rfl : call.poolId = pool := Option.some.inj (hsame.symm.trans hcurrent)
        exact ⟨_, rfl, .inl hnamed⟩
      · rcases hkept sd hsd with hnamed | hnamed
        · exact ⟨_, rfl, .inr ⟨rfl, hnamed⟩⟩
        · exact ⟨_, rfl, .inl hnamed⟩
    · exact ⟨_, rfl, .inr ⟨rfl, names_of_takes hsd⟩⟩

/-- A call that stays with its pool adds only what is named for that. -/
theorem reportsConnected_stays {before : List PoolCall} {call : PoolCall}
    (hverb : call.verb ≠ .disconnect) (hconnects : call.connects = false)
    (h : ReportsConnected before) : ReportsConnected (before ++ [call]) ↔
      connectedPool before = some call.poolId ∨
        ∀ sd, call.Takes sd → ∃ pool, connectedPool before = some pool ∧ NamedFor before pool sd := by
  have hpool : connectedPool (before ++ [call]) = connectedPool before := by
    rw [connectedPool_append_one, if_neg hverb, hconnects]
    rfl
  rw [reportsConnected_append_one_iff, hpool]
  simp only [namedFor_append_one hverb]
  constructor
  · intro h'
    by_cases hsame : connectedPool before = some call.poolId
    · exact .inl hsame
    · right
      intro sd hsd
      obtain ⟨pool, hcurrent, hnamed | ⟨rfl, -⟩⟩ := h' sd (.inr hsd)
      · exact ⟨pool, hcurrent, hnamed⟩
      · exact absurd hcurrent hsame
  · rintro hkept sd (hsd | hsd)
    · obtain ⟨pool, hcurrent, hnamed⟩ := reportsConnected_iff.mp h sd (reports_of_keeps hsd)
      exact ⟨pool, hcurrent, .inl hnamed⟩
    · rcases hkept with hsame | hkept
      · exact ⟨_, hsame, .inr ⟨rfl, names_of_takes hsd⟩⟩
      · obtain ⟨pool, hcurrent, hnamed⟩ := hkept sd hsd
        exact ⟨pool, hcurrent, .inl hnamed⟩

/-- `StaysWithPool` is exactly what keeps the report with the connected pool. -/
theorem reportsConnected_append_one {before : List PoolCall} (call : PoolCall)
    (h : ReportsConnected before) : ReportsConnected (before ++ [call]) ↔ StaysWithPool before call := by
  obtain ⟨verb, params⟩ := call
  cases verb with
  | disconnect => exact reportsConnected_disconnect rfl
  | connectStoragePool | connect | create => exact reportsConnected_connects (by simp) rfl h
  | refresh | reconstructMaster => exact reportsConnected_stays (by simp) rfl h
  | spmStart | spmStop =>
    refine iff_of_true ((reportsConnected_stays (by simp) rfl h).mpr (.inr ?_)) trivial
    intro sd hsd
    exact absurd hsd (not_takes rfl rfl sd)

/-- Before any call there is nothing to report. -/
theorem reportsConnected_nil : ReportsConnected [] := by
  rw [reportsConnected_iff]
  rintro sd (h | h)
  · exact absurd h List.not_mem_nil
  · exact absurd rfl h.2

/-- The report stays with the connected pool through a run exactly when each of its calls meets
`StaysWithPool`. -/
theorem dominfo_of_connected_pool (calls : List PoolCall) :
    (∀ before, before <+: calls → ReportsConnected before) ↔
      ∀ before call, before ++ [call] <+: calls → StaysWithPool before call := by
  constructor
  · intro h before call hprefix
    have hbefore : before <+: calls := (List.prefix_append before [call]).trans hprefix
    exact (reportsConnected_append_one call (h before hbefore)).mp (h _ hprefix)
  · intro h before hprefix
    induction before using List.reverseRecOn with
    | nil => exact reportsConnected_nil
    | append_singleton before call ih =>
      have hbefore : before <+: calls := (List.prefix_append before [call]).trans hprefix
      exact (reportsConnected_append_one call (ih hbefore)).mpr (h before call hprefix)

/-- A pool with the master `"m"`. -/
def poolWithMaster : Value :=
  .object [("storagepoolID", .string "A"), ("masterSdUUID", .string "m")]

/-- A disconnect leaves the master of the pool it disconnects from. -/
theorem dominfo_after_disconnect :
    ¬∀ calls before, before <+: calls → ReportsConnected before := by
  intro h
  let calls : List PoolCall := [⟨.connect, poolWithMaster⟩, ⟨.disconnect, poolWithMaster⟩]
  have hreports := reportsConnected_iff.mp (h calls calls List.prefix_rfl)
  have hmaster : (poolRun calls).masterSd = "m" := by decide
  obtain ⟨pool, hpool, -⟩ := hreports "m" (.inr ⟨hmaster.symm, by rw [hmaster]; decide⟩)
  have hnone : connectedPool calls = none := rfl
  rw [hnone] at hpool
  cases hpool

/-! ## Requests in the schema's terms -/

/-- The verbs that say which domains a pool has. -/
inductive PoolSetup where
  | create
  | connect
  | reconstructMaster
deriving DecidableEq, Repr

namespace PoolSetup

/-- The verb it is registered as. -/
def verb : PoolSetup → PoolVerb
  | create => .create
  | connect => .connect
  | reconstructMaster => .reconstructMaster

/-- The parameters of the verb in `schema/vdsm-api.yml`. -/
def schemaParams : PoolSetup → List String
  | create => ["storagepoolID", "name", "masterSdUUID", "masterVersion", "domainList",
      "lockRenewalIntervalSec", "leaseTimeSec", "ioOpTimeoutSec", "leaseRetries"]
  | connect => ["storagepoolID", "hostID", "scsiKey", "masterSdUUID", "masterVersion", "domainDict"]
  | reconstructMaster => ["storagepoolID", "hostId", "name", "masterSdUUID", "masterVersion",
      "domainDict", "lockRenewalIntervalSec", "leaseTimeSec", "ioOpTimeoutSec", "leaseRetries"]

/-- The domains of the request: the list of a create, the keys of the map of the others. -/
def listed (v : PoolSetup) (params : Value) : List String :=
  match v with
  | create => stringsParam "domainList" params
  | connect | reconstructMaster => mapKeysParam "domainDict" params

end PoolSetup

/-- A JSON integer, which need not fit an `i64`. -/
def jsonInt : Value → Option ℤ
  | .number (.posInt n) => some n.toNat
  | .number (.negInt m) => some (-(m.val + 1 : ℤ))
  | _ => none

/-- A map to strings. -/
def IsStringMap (v : Value) : Prop := ∃ m, v = .object m ∧ ∀ f ∈ m, ∃ s, f.2 = .string s

/-- The domains as the schema has them: a list of strings, or a map that a connect may leave out. -/
def ListsDomains (v : PoolSetup) (params : Value) : Prop :=
  match v with
  | .create => ∃ xs, params.get "domainList" = some (.array xs) ∧ ∀ x ∈ xs, ∃ s, x = .string s
  | .connect => ∀ d ∈ params.get "domainDict", d = .null ∨ IsStringMap d
  | .reconstructMaster => ∃ d, params.get "domainDict" = some d ∧ IsStringMap d

/-- The parameters of a request that follows the schema. -/
structure FollowsSchema (v : PoolSetup) (params : Value) : Prop where
  names : ∃ fields, params = .object fields ∧ ∀ f ∈ fields, f.1 ∈ v.schemaParams
  pool : ∃ s, params.get "storagepoolID" = some (.string s)
  master : ∃ s, params.get "masterSdUUID" = some (.string s)
  version : ∃ w, params.get "masterVersion" = some w ∧ (jsonInt w).isSome
  domains : ListsDomains v params

/-- The version a request asks for. -/
def askedVersion (params : Value) : ℤ := ((params.get "masterVersion").bind jsonInt).getD 0

/-- A field of the `info` block of an answer. -/
def infoField (key : String) (answer : Except JsonRpcError Value) : Option Value :=
  match answer with
  | .ok v => (v.get "info").bind (Value.get key)
  | .error _ => none

/-- An answer of `StoragePool.getInfo` shows what a request asked for. -/
structure Honours (v : PoolSetup) (params : Value) (answer : Except JsonRpcError Value) : Prop where
  domains : ∀ sd ∈ v.listed params, sd ∈ reportedDomains answer
  master : (infoField "master_uuid" answer).bind Value.asStr = some (stringParam "masterSdUUID" params)
  version : ∃ n, (infoField "master_ver" answer).bind Value.asI64 = some n ∧ askedVersion params ≤ n

/-- Only a connect raises the version to more than one. -/
def VersionFits (s : PoolState) (v : PoolSetup) (params : Value) : Prop :=
  match v with
  | .connect => askedVersion params < 2 ^ 63
  | .create | .reconstructMaster => askedVersion params ≤ max 1 s.masterVer

/-- When the next answer shows what the request asks for. The domains are looked for under other
names, so they must be there already, and an empty master is ignored. -/
structure HonouredWhen (s : PoolState) (v : PoolSetup) (params : Value) : Prop where
  domains : ∀ sd ∈ v.listed params,
    sd ∈ s.domains ∨ sd = stringParam "masterSdUUID" params ∧ sd ≠ ""
  master : stringParam "masterSdUUID" params = "" → s.masterSd = ""
  version : VersionFits s v params

/-! ### Versions are machine integers -/

/-- An integer parameter is in the range of `i64`. -/
theorem asI64_lt {v : Value} {i : ℤ} (h : v.asI64 = some i) : i < 2 ^ 63 := by
  unfold Value.asI64 at h
  split at h
  · split at h
    · cases h
      omega
    · cases h
  · cases h
    omega
  · cases h

/-- And one in that range is read back. -/
theorem asI64_ofInt {i : ℤ} (h0 : 0 ≤ i) (h : i < 2 ^ 63) : (Value.ofInt i).asI64 = some i := by
  have hlt : i.toNat < 2 ^ 63 := by omega
  have hword : i.toNat.toUInt64.toNat = i.toNat := by
    rw [Nat.toUInt64_eq, UInt64.toNat_ofNat']
    omega
  rw [Value.ofInt, if_pos h0, Value.asI64, hword, if_pos hlt, Int.toNat_of_nonneg h0]

/-- The version of a call is in range. -/
theorem version_lt (call : PoolCall) : call.version < 2 ^ 63 := by
  have hparam : intParamOr "masterVersion" 1 call.params < 2 ^ 63 := by
    unfold intParamOr
    cases h : (call.params.get "masterVersion").bind Value.asI64 with
    | none => decide
    | some i =>
      obtain ⟨v, -, hv⟩ := Option.bind_eq_some_iff.mp h
      exact asI64_lt hv
  obtain ⟨verb, params⟩ := call
  cases verb with
  | connectStoragePool | connect | disconnect | refresh => exact hparam
  | create | reconstructMaster => exact (by decide : (1 : ℤ) < 2 ^ 63)
  | spmStart | spmStop => exact (by decide : (0 : ℤ) < 2 ^ 63)

theorem poolRun_masterVer_lt (calls : List PoolCall) : (poolRun calls).masterVer < 2 ^ 63 := by
  induction calls using List.reverseRecOn with
  | nil => decide
  | append_singleton before call ih =>
    rw [poolRun_append_one, after_masterVer call (poolRun_masterVer_nonneg before)]
    exact max_lt ih (version_lt call)

/-! ### What the handlers find -/

variable {v : PoolSetup} {params : Value}

/-- A request that follows the schema has no parameter that is not in it. -/
theorem FollowsSchema.get_eq_none (h : FollowsSchema v params) {key : String}
    (hkey : key ∉ v.schemaParams) : params.get key = none := by
  obtain ⟨fields, rfl, hfields⟩ := h.names
  rw [Value.get, Option.map_eq_none_iff, List.find?_eq_none]
  intro f hf heq
  exact hkey (eq_of_beq heq ▸ hfields f hf)

/-- The handlers find no domains. -/
theorem FollowsSchema.domains_eq (h : FollowsSchema v params) :
    PoolCall.domains ⟨v.verb, params⟩ = [] := by
  cases v with
  | create | reconstructMaster =>
    have hnone : params.get "domList" = none := h.get_eq_none (by decide)
    simp [PoolCall.domains, PoolSetup.verb, stringsParam, hnone]
  | connect =>
    have hnone : params.get "domainsMap" = none := h.get_eq_none (by decide)
    simp [PoolCall.domains, PoolSetup.verb, mapKeysParam, hnone]

/-- So the master is found under the name of the schema. -/
theorem FollowsSchema.masterSd_eq (h : FollowsSchema v params) :
    PoolCall.masterSd ⟨v.verb, params⟩ = stringParam "masterSdUUID" params := by
  cases v with
  | create | reconstructMaster =>
    have hnone : params.get "masterDom" = none := h.get_eq_none (by decide)
    simp [PoolCall.masterSd, PoolSetup.verb, stringParamElse, stringParam, hnone]
  | connect => rfl

/-- The version a connect reads is the one asked for, if it fits. -/
theorem FollowsSchema.version_eq (h : FollowsSchema v params) (hlt : askedVersion params < 2 ^ 63) :
    intParamOr "masterVersion" 1 params = askedVersion params := by
  obtain ⟨w, hw, hint⟩ := h.version
  have hasI64 : ∀ i, jsonInt w = some i → i < 2 ^ 63 → w.asI64 = some i := by
    intro i hi hlt
    unfold jsonInt at hi
    split at hi
    · cases hi
      exact if_pos (by omega)
    · cases hi
      rfl
    · cases hi
  obtain ⟨i, hi⟩ := Option.isSome_iff_exists.mp hint
  have hasked : askedVersion params = i := by
    simp [askedVersion, hw, hi]
  rw [hasked] at hlt ⊢
  simp [intParamOr, hw, hasI64 i hi hlt]

/-! ### What the answer shows -/

variable {host : Host} {st : State} {s : PoolState}

/-- The reply has the recorded master. -/
theorem asStr_master_uuid : (infoField "master_uuid" (getStoragePoolInfo host st s)).bind
    Value.asStr = some s.masterSd := rfl

theorem asI64_master_ver (h0 : 0 ≤ s.masterVer) (h : s.masterVer < 2 ^ 63) :
    (infoField "master_ver" (getStoragePoolInfo host st s)).bind Value.asI64 = some s.masterVer :=
  asI64_ofInt h0 h

/-- An overwrite gives the new value, unless that is empty and the old one is not. -/
theorem overwrite_eq_iff {new slot : String} : overwrite new slot = new ↔ (new = "" → slot = "") := by
  unfold overwrite
  split
  · rename_i h
    simp [h]
  · rename_i h
    simp [h]

/-- Given the master that was asked for, a listed domain is shown if it was recorded or is the
master. -/
theorem FollowsSchema.reports_after_iff (h : FollowsSchema v params) {sd : String}
    (hmaster : stringParam "masterSdUUID" params = "" → s.masterSd = "") :
    (PoolCall.after s ⟨v.verb, params⟩).Reports sd ↔
      sd ∈ s.domains ∨ sd = stringParam "masterSdUUID" params ∧ sd ≠ "" := by
  rw [PoolState.Reports, after_domains, after_masterSd, h.domains_eq, h.masterSd_eq,
    overwrite_eq_iff.mpr hmaster, pushNew, List.foldl_nil]
  constructor
  · rintro (hsd | ⟨rfl, hne⟩)
    · exact .inl hsd
    · exact .inr ⟨rfl, hne⟩
  · rintro (hsd | ⟨rfl, hne⟩)
    · exact .inl hsd
    · exact .inr ⟨rfl, hne⟩

/-- The version asked for is reached exactly if the verb reads it or the recorded one is as
large. -/
theorem FollowsSchema.version_le_iff (h : FollowsSchema v params) (h0 : 0 ≤ s.masterVer)
    (hlt : s.masterVer < 2 ^ 63) :
    askedVersion params ≤ (PoolCall.after s ⟨v.verb, params⟩).masterVer ↔
      VersionFits s v params := by
  rw [after_masterVer _ h0]
  cases v with
  | create | reconstructMaster => exact max_comm s.masterVer 1 ▸ Iff.rfl
  | connect =>
    constructor
    · intro hle
      exact hle.trans_lt (max_lt hlt (version_lt ⟨.connect, params⟩))
    · intro hfits
      have hread : PoolCall.version ⟨PoolSetup.connect.verb, params⟩ = askedVersion params :=
        h.version_eq hfits
      rw [hread]
      exact le_max_right _ _

/-- A request in the schema's terms is shown by the next answer exactly when `HonouredWhen` says. -/
theorem pool_request_honoured (calls : List PoolCall) (v : PoolSetup) (params : Value)
    (h : FollowsSchema v params) (host : Host) (st : State) :
    Honours v params (getStoragePoolInfo host st (poolRun (calls ++ [⟨v.verb, params⟩]))) ↔
      HonouredWhen (poolRun calls) v params := by
  have hver := h.version_le_iff (poolRun_masterVer_nonneg calls) (poolRun_masterVer_lt calls)
  have hshown : (infoField "master_ver" (getStoragePoolInfo host st
      (poolRun (calls ++ [⟨v.verb, params⟩])))).bind Value.asI64 =
        some (poolRun (calls ++ [⟨v.verb, params⟩])).masterVer :=
    asI64_master_ver (poolRun_masterVer_nonneg _) (poolRun_masterVer_lt _)
  rw [poolRun_append_one] at hshown ⊢
  constructor
  · rintro ⟨hdomains, hmaster, n, hn, hle⟩
    have hmaster : stringParam "masterSdUUID" params = "" → (poolRun calls).masterSd = "" := by
      rw [asStr_master_uuid, Option.some.injEq, after_masterSd, h.masterSd_eq] at hmaster
      exact overwrite_eq_iff.mp hmaster
    obtain rfl := Option.some.inj (hshown.symm.trans hn)
    refine ⟨fun sd hsd => ?_, hmaster, hver.mp hle⟩
    exact (h.reports_after_iff hmaster).mp (mem_reportedDomains.mp (hdomains sd hsd))
  · rintro ⟨hdomains, hmaster, hle⟩
    refine ⟨fun sd hsd => ?_, ?_, _, hshown, hver.mpr hle⟩
    · exact mem_reportedDomains.mpr ((h.reports_after_iff hmaster).mpr (hdomains sd hsd))
    · rw [asStr_master_uuid, after_masterSd, h.masterSd_eq, overwrite_eq_iff.mpr hmaster]

/-- A create with the master `"m"` and the domains `"m"` and `"d"`. -/
def createTwo : Value :=
  .object [("storagepoolID", .string "A"), ("masterSdUUID", .string "m"),
    ("masterVersion", .number (.posInt 1)), ("domainList", .array [.string "m", .string "d"])]

/-- The sample request follows the schema. -/
theorem followsSchema_createTwo : FollowsSchema .create createTwo where
  names := ⟨_, rfl, by decide⟩
  pool := ⟨_, rfl⟩
  master := ⟨_, rfl⟩
  version := ⟨_, rfl, rfl⟩
  domains := ⟨_, rfl, by simp⟩

/-- A `create` that names its master and two domains. -/
theorem pool_request_honoured_createTwo : FollowsSchema .create createTwo ∧
    (Honours .create createTwo
        (getStoragePoolInfo quietHost oneImage (poolRun ([] ++ [⟨.create, createTwo⟩]))) ↔
      HonouredWhen (poolRun []) .create createTwo) :=
  ⟨followsSchema_createTwo,
    pool_request_honoured [] .create createTwo followsSchema_createTwo quietHost oneImage⟩

/-- The second domain of the list is not shown. -/
theorem createTwo_not_honoured : ¬∀ (calls : List PoolCall) (v : PoolSetup) (params : Value),
    FollowsSchema v params → ∀ host st,
      Honours v params (getStoragePoolInfo host st (poolRun (calls ++ [⟨v.verb, params⟩]))) := by
  intro h
  have hdomains := (h [] .create createTwo followsSchema_createTwo quietHost oneImage).domains
  have hlisted : "d" ∈ PoolSetup.create.listed createTwo := by decide
  have hreports := mem_reportedDomains.mp (hdomains "d" hlisted)
  revert hreports
  unfold PoolState.Reports
  decide

end Vdsm.Storage
