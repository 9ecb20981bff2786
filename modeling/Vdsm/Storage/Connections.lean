import Vdsm.Storage.Mountpoints

/-!
# The registry of connections

A call of `connectStorageServer` or `disconnectStorageServer` takes one `Turn` for each spec. The
registry is a list that a turn appends to or filters by id, the mount table is changed by path.
`registry_is_map` says when the registry has one entry for an id, `registry_mirrors_mounts` when its
mount points are those that are mounted.
-/

namespace Vdsm.Storage

open Rust FileSystem Supervdsm MountTable Transition

/-! ## What a turn does -/

/-- A privileged op gets through and succeeds. -/
def ServerEnv.grants (env : ServerEnv) (op : PrivOp) : Bool :=
  env.reaches op && (execute env.host op).1.ok

/-- A privileged op is carried out, but its reply is lost. -/
def ServerEnv.loses (env : ServerEnv) (op : PrivOp) : Bool :=
  env.performs op && !env.reaches op

/-- An op is carried out exactly if it is granted or its reply is lost. -/
theorem performs_eq (env : ServerEnv) (op : PrivOp) :
    env.performs op = (env.grants op || env.loses op) := by
  rw [ServerEnv.loses, ServerEnv.performs, ServerEnv.grants]
  cases env.reaches op <;> simp

/-- What is granted is not lost. -/
theorem loses_of_grants {env : ServerEnv} {op : PrivOp} (h : env.grants op = true) :
    env.loses op = false := by
  rw [ServerEnv.loses, (Bool.and_eq_true_iff.mp h).1, Bool.not_true, Bool.and_false]

/-- The mount of a connection. -/
def mountOp (domainType : ℤ) (spec : StorageServerConnection) : PrivOp :=
  .mount (if spec.vfsType ≠ "" then spec.vfsType else defaultVfs domainType) spec.connection
    spec.mountpoint spec.mntOptions

/-- The directory of the mount point can be made. -/
def Server.makesDir (env : ServerEnv) (spec : StorageServerConnection) (w : Server) : Bool :=
  (w.store.createDirAll env.toEnv spec.mountpoint).1.isOk

/-- When a spec gets connected: for FCP at once, for iSCSI after a discovery and one login, else if
something is mounted at its mount point already or can be. -/
def Connects (env : ServerEnv) (domainType : ℤ) (spec : StorageServerConnection) (w : Server) : Prop :=
  if domainType = 2 then True
  else if domainType = 3 then
    spec.connection ≠ "" ∧ env.grants (.iscsiDiscover spec.connection) = true ∧
      ∃ iqn ∈ discovered (execute env.host (.iscsiDiscover spec.connection)).1.stdout,
        env.grants (.iscsiLogin iqn spec.connection) = true
  else w.makesDir env spec = true ∧
    (w.isMounted env spec.mountpoint = true ∨ env.grants (mountOp domainType spec) = true)

/-- A spec of a call, with what the host decides for it. -/
inductive Turn where
  | connect (env : ServerEnv) (domainType : ℤ) (spec : StorageServerConnection)
  | disconnect (env : ServerEnv) (spec : StorageServerConnection)
  | create (env : Env) (params : Value)

/-- The host after a turn. -/
def Turn.after (w : Server) : Turn → Server
  | connect env domainType spec =>
    (mountOne env domainType spec w).2.register (mountOne env domainType spec w).1 spec
  | disconnect env spec => (disconnectOne env spec w).2
  | create env params => { w with store := (createStorageDomain env params w.store).2 }

def turnStep (w : Server) (t : Turn) : Option Server := some (t.after w)

/-- The turns of a call. -/
def ServerCall.turns : ServerCall → List Turn
  | connect envs params =>
    (conList params).mapIdx fun n spec => .connect (envs n) (intParamOr "domainType" 1 params) spec
  | disconnect envs params => (conList params).mapIdx fun n spec => .disconnect (envs n) spec
  | create env params => [.create env params]

/-- The turns of some calls. -/
def turnsOf (calls : List ServerCall) : List Turn := calls.flatMap ServerCall.turns

/-- The loop of `connect_storage_server` is a run of single connections. -/
theorem run_connectAll (envs : ℕ → ServerEnv) (domainType : ℤ) (n : ℕ)
    (specs : List StorageServerConnection) (w : Server) :
    run turnStep w (specs.mapIdx fun i spec => .connect (envs (n + i)) domainType spec) =
      some (connectAll envs domainType n specs w).2 := by
  induction specs generalizing n w with
  | nil => rfl
  | cons spec specs ih =>
    rw [connectAll_cons]
    dsimp only
    rw [← ih (n + 1), List.mapIdx_cons]
    simp only [Transition.run, turnStep, Turn.after, Option.bind_some, Nat.add_zero, Nat.add_assoc,
      Nat.add_comm 1]

/-- The loop of `disconnect_storage_server` is a run of single disconnections. -/
theorem run_disconnectAll (envs : ℕ → ServerEnv) (n : ℕ) (specs : List StorageServerConnection)
    (w : Server) :
    run turnStep w (specs.mapIdx fun i spec => .disconnect (envs (n + i)) spec) =
      some (disconnectAll envs n specs w).2 := by
  induction specs generalizing n w with
  | nil => rfl
  | cons spec specs ih =>
    rw [disconnectAll_cons]
    dsimp only
    rw [← ih (n + 1), List.mapIdx_cons]
    simp only [Transition.run, turnStep, Turn.after, Option.bind_some, Nat.add_zero, Nat.add_assoc,
      Nat.add_comm 1]

/-- A call is its turns, one after the other. -/
theorem run_turns (w : Server) (call : ServerCall) : run turnStep w call.turns = serverStep w call := by
  cases call with
  | connect envs params =>
    rw [ServerCall.turns]
    have hrun := run_connectAll envs (intParamOr "domainType" 1 params) 0 (conList params) w
    simp only [Nat.zero_add] at hrun
    exact hrun
  | disconnect envs params =>
    rw [ServerCall.turns]
    have hrun := run_disconnectAll envs 0 (conList params) w
    simp only [Nat.zero_add] at hrun
    exact hrun
  | create env params => rfl

/-- A run of calls is a run of their single turns. -/
theorem run_turnsOf (w : Server) (calls : List ServerCall) :
    run turnStep w (turnsOf calls) = run serverStep w calls := by
  induction calls generalizing w with
  | nil => rfl
  | cons call calls ih =>
    rw [turnsOf, List.flatMap_cons, run_append, run_turns, Transition.run]
    exact congrArg _ (funext ih)

/-! ### Connecting -/

/-- An op is noted, and answers if it is granted. -/
theorem run_eq (env : ServerEnv) (op : PrivOp) (w : Server) :
    w.run env op = (if env.grants op then some (execute env.host op).1.stdout else none,
      { w with store := w.store.note (.priv op) }) := by
  rw [ServerEnv.grants, Server.run, Server.call]
  cases env.reaches op with
  | false => rfl
  | true => cases h : (execute env.host op).1.ok <;> simp [Option.filter_some, h]

/-- The logins of a discovery: one of them is enough. -/
theorem logins_fst {env : ServerEnv} {portal : String} (iqns : List String) (acc : Bool × Server) :
    (iqns.foldl (fun acc iqn => (acc.1 || (acc.2.run env (.iscsiLogin iqn portal)).1.isSome,
      (acc.2.run env (.iscsiLogin iqn portal)).2)) acc).1 =
        (acc.1 || iqns.any fun iqn => env.grants (.iscsiLogin iqn portal)) := by
  induction iqns generalizing acc with
  | nil => simp
  | cons iqn iqns ih =>
    have hone : (acc.2.run env (.iscsiLogin iqn portal)).1.isSome =
        env.grants (.iscsiLogin iqn portal) := by
      rw [run_eq]
      cases env.grants (.iscsiLogin iqn portal) <;> rfl
    rw [List.foldl_cons, ih, hone, List.any_cons, Bool.or_assoc]

/-- An iSCSI connection succeeds if the discovery does and one of the logins. -/
theorem iscsiLoginOne_status {env : ServerEnv} {spec : StorageServerConnection} {w : Server} :
    (iscsiLoginOne env spec w).1 = 0 ↔ spec.connection ≠ "" ∧
      env.grants (.iscsiDiscover spec.connection) = true ∧
      ∃ iqn ∈ discovered (execute env.host (.iscsiDiscover spec.connection)).1.stdout,
        env.grants (.iscsiLogin iqn spec.connection) = true := by
  rw [iscsiLoginOne]
  by_cases hempty : spec.connection = ""
  · simp [hempty]
  rw [if_neg hempty]
  dsimp only
  rw [run_eq]
  cases hgranted : env.grants (.iscsiDiscover spec.connection) with
  | false => simp
  | true =>
    rw [if_pos rfl]
    dsimp only
    split
    · rename_i hnone
      simp [hnone]
    · rw [logins_fst, Bool.false_or]
      simp [hempty]

/-- What a turn does with a mount-based connection. -/
theorem mountOne_mountBased {env : ServerEnv} {domainType : ℤ} {spec : StorageServerConnection}
    {w : Server} (h2 : domainType ≠ 2) (h3 : domainType ≠ 3) :
    ((mountOne env domainType spec w).1 = 0 ↔ Connects env domainType spec w) ∧
    (mountOne env domainType spec w).2.connections = w.connections ∧
    ((mountOne env domainType spec w).2.mounts =
      if w.makesDir env spec ∧ !w.isMounted env spec.mountpoint ∧
        env.performs (mountOp domainType spec)
      then w.mounts ++ [⟨spec.connection, spec.mountpoint⟩] else w.mounts) := by
  rw [mountOne, if_neg h2, if_neg h3, Connects, if_neg h2, if_neg h3, Server.makesDir]
  dsimp only
  split
  · rename_i e store heq
    simp [heq, Except.isOk, Except.toBool]
  · rename_i store heq
    have hmade : (w.store.createDirAll env.toEnv spec.mountpoint).1.isOk = true := by
      rw [heq]
      rfl
    have hsame : ∀ mp, Server.isMounted env mp { w with store := store } = w.isMounted env mp :=
      fun mp => rfl
    rw [hmade, hsame]
    by_cases hmounted : w.isMounted env spec.mountpoint = true
    · simp [hmounted]
    · rw [if_neg hmounted]
      have hop : PrivOp.mount (if spec.vfsType ≠ "" then spec.vfsType else defaultVfs domainType)
          spec.connection spec.mountpoint spec.mntOptions = mountOp domainType spec := rfl
      rw [hop, Server.call, ServerEnv.grants, ServerEnv.performs]
      cases hreaches : env.reaches (mountOp domainType spec) with
      | false =>
        cases env.unanswered (mountOp domainType spec) with
        | false => simp [hmounted]
        | true =>
          cases hok : (execute env.host (mountOp domainType spec)).1.ok <;>
            simp [hmounted, Server.mounted]
      | true =>
        cases hok : (execute env.host (mountOp domainType spec)).1.ok with
        | false => simp [hmounted, hok]
        | true => simp [hmounted, hok, Server.mounted]

/-- A spec has status 0 exactly when it gets connected. -/
theorem mountOne_status {env : ServerEnv} {domainType : ℤ} {spec : StorageServerConnection}
    {w : Server} : (mountOne env domainType spec w).1 = 0 ↔ Connects env domainType spec w := by
  by_cases h2 : domainType = 2
  · simp [mountOne, Connects, h2]
  by_cases h3 : domainType = 3
  · rw [mountOne, if_neg h2, if_pos h3, Connects, if_neg h2, if_pos h3, iscsiLoginOne_status]
  · exact (mountOne_mountBased h2 h3).1

/-- Mounting registers nothing yet. -/
theorem mountOne_connections (env : ServerEnv) (domainType : ℤ) (spec : StorageServerConnection)
    (w : Server) : (mountOne env domainType spec w).2.connections = w.connections := by
  by_cases h2 : domainType = 2
  · simp [mountOne, h2]
  by_cases h3 : domainType = 3
  · obtain ⟨store, hstore⟩ := iscsiLoginOne_store env spec w
    rw [mountOne, if_neg h2, if_pos h3, hstore]
  · exact (mountOne_mountBased h2 h3).2.1

/-- A spec that gets connected is registered, at the end. -/
theorem connect_connections {env : ServerEnv} {domainType : ℤ} {spec : StorageServerConnection}
    {w : Server} (h : Connects env domainType spec w) :
    ((Turn.connect env domainType spec).after w).connections = w.connections ++ [spec] := by
  rw [Turn.after, Server.register, if_pos (mountOne_status.mpr h), mountOne_connections]

/-- A connection that fails registers nothing. -/
theorem connect_connections_of_not {env : ServerEnv} {domainType : ℤ} {spec : StorageServerConnection}
    {w : Server} (h : ¬Connects env domainType spec w) :
    ((Turn.connect env domainType spec).after w).connections = w.connections := by
  rw [Turn.after, Server.register, if_neg (mt mountOne_status.mp h), mountOne_connections]

/-! ### Disconnecting -/

/-- Where a connection is mounted, as a location. -/
def StorageServerConnection.location (spec : StorageServerConnection) : Location :=
  components spec.mountpoint

/-- The mount point of a spec is found mounted and is unmounted. -/
def Server.unmounts (env : ServerEnv) (spec : StorageServerConnection) (w : Server) : Bool :=
  w.isMounted env spec.mountpoint && env.performs (.umount spec.mountpoint)

/-- What a disconnecting turn does. -/
theorem disconnectOne_spec (env : ServerEnv) (spec : StorageServerConnection) (w : Server) :
    ((disconnectOne env spec w).1 = 16 ↔
      w.isMounted env spec.mountpoint ∧ !env.grants (.umount spec.mountpoint)) ∧
    (disconnectOne env spec w).2.connections = w.connections.filter (fun c => c.id != spec.id) ∧
    (disconnectOne env spec w).2.mounts =
      if w.unmounts env spec then
        (w.mounts.reverse.eraseP fun m => m.location == spec.location).reverse
      else w.mounts := by
  rw [disconnectOne, Server.unmounts]
  dsimp only
  cases hmounted : w.isMounted env spec.mountpoint with
  | false => simp
  | true =>
    rw [if_pos rfl, Server.call, ServerEnv.grants, ServerEnv.performs]
    cases hreaches : env.reaches (.umount spec.mountpoint) with
    | false =>
      cases env.unanswered (.umount spec.mountpoint) with
      | false => simp
      | true =>
        cases hok : (execute env.host (.umount spec.mountpoint)).1.ok <;>
          simp [Server.unmounted, StorageServerConnection.location]
    | true =>
      cases hok : (execute env.host (.umount spec.mountpoint)).1.ok with
      | false => simp [hok]
      | true => simp [hok, Server.unmounted, StorageServerConnection.location]

/-! ## One entry for an id -/

/-- No two entries of the registry have the same id. -/
def Server.IdsDistinct (w : Server) : Prop := (w.connections.map (·.id)).Nodup

/-- A spec that gets connected has an id the registry does not have. -/
def Turn.FreshId (w : Server) : Turn → Prop
  | connect env domainType spec =>
    Connects env domainType spec w → ∀ c ∈ w.connections, c.id ≠ spec.id
  | _ => True

/-- A connection keeps the ids distinct exactly if its own is not in use. -/
theorem idsDistinct_connect {env : ServerEnv} {domainType : ℤ} {spec : StorageServerConnection}
    {w : Server} : ((Turn.connect env domainType spec).after w).IdsDistinct ↔
      w.IdsDistinct ∧ (Turn.connect env domainType spec).FreshId w := by
  by_cases h : Connects env domainType spec w
  · rw [Server.IdsDistinct, connect_connections h, List.map_append, List.map_singleton,
      List.nodup_append_comm, List.singleton_append, List.nodup_cons]
    rw [and_comm, Turn.FreshId, imp_iff_right h, Server.IdsDistinct]
    simp only [List.mem_map, not_exists, not_and, ne_eq]
  · rw [Server.IdsDistinct, connect_connections_of_not h]
    simp [Server.IdsDistinct, Turn.FreshId, h]

/-- A turn that meets the condition keeps the ids distinct. -/
theorem idsDistinct_after {w : Server} {t : Turn} (h : w.IdsDistinct) (hfresh : t.FreshId w) :
    (t.after w).IdsDistinct := by
  cases t with
  | connect env domainType spec => exact idsDistinct_connect.mpr ⟨h, hfresh⟩
  | disconnect env spec =>
    rw [Server.IdsDistinct, Turn.after, (disconnectOne_spec env spec w).2.1]
    exact h.sublist (List.filter_sublist.map _)
  | create env params => exact h

/-- Connecting turns only append: the ids are distinct in the end exactly when they were and every spec
was fresh at its turn. -/
theorem idsDistinct_connects {w w' : Server} {ts : List Turn}
    (hts : ∀ t ∈ ts, ∃ env domainType spec, t = .connect env domainType spec)
    (hrun : Transition.run turnStep w ts = some w') :
    w'.IdsDistinct ↔ w.IdsDistinct ∧ AllSteps turnStep (fun w t => t.FreshId w) w ts := by
  induction ts generalizing w with
  | nil =>
    obtain rfl := Option.some.inj hrun
    simp [AllSteps]
  | cons t ts ih =>
    obtain ⟨env, domainType, spec, rfl⟩ := hts t (List.mem_cons_self ..)
    obtain ⟨w₁, hw₁, hrun⟩ := run_cons hrun
    obtain rfl := Option.some.inj hw₁
    rw [ih (fun t ht => hts t (List.mem_cons_of_mem _ ht)) hrun, idsDistinct_connect, AllSteps,
      and_assoc]
    simp [turnStep]

/-- A call does exactly if each of its turns does. -/
theorem idsDistinct_call {w w' : Server} {call : ServerCall} (h : w.IdsDistinct)
    (hstep : serverStep w call = some w') :
    w'.IdsDistinct ↔ AllSteps turnStep (fun w t => t.FreshId w) w call.turns := by
  have hrun : Transition.run turnStep w call.turns = some w' := (run_turns w call).trans hstep
  cases call with
  | connect envs params =>
    have hturns : ∀ t ∈ (ServerCall.connect envs params).turns,
        ∃ env domainType spec, t = .connect env domainType spec := by
      intro t ht
      obtain ⟨i, hi, rfl⟩ := List.mem_mapIdx.mp ht
      exact ⟨_, _, _, rfl⟩
    rw [idsDistinct_connects hturns hrun, and_iff_right h]
  | disconnect envs params =>
    have hfresh : AllSteps turnStep (fun w t => t.FreshId w) w
        (ServerCall.disconnect envs params).turns := by
      apply allSteps_of_mem
      intro t ht w
      obtain ⟨i, hi, rfl⟩ := List.mem_mapIdx.mp ht
      trivial
    have hpres : ∀ w (t : Turn) w', w.IdsDistinct → t.FreshId w → turnStep w t = some w' →
        w'.IdsDistinct := by
      intro w t w' hw ht hstep
      obtain rfl := Option.some.inj hstep
      exact idsDistinct_after hw ht
    exact iff_of_true (run_invariant hpres h hfresh hrun) hfresh
  | create env params =>
    obtain rfl := Option.some.inj hstep
    exact iff_of_true h ⟨trivial, fun _ _ => trivial⟩

/-- The registry is a map by id after every call of a run exactly when every spec that gets connected
has a fresh id at its turn. Connecting a spec that is connected already leaves the registry as it was
exactly when it does not get connected again. -/
theorem registry_is_map (w₀ : Server) (h₀ : w₀.connections = []) (calls : List ServerCall) :
    (AllSteps serverStep (fun w call => ∀ w' ∈ serverStep w call, w'.IdsDistinct) w₀ calls ↔
      AllSteps turnStep (fun w t => t.FreshId w) w₀ (turnsOf calls)) ∧
    ∀ (w : Server) (spec : StorageServerConnection) (envs : ℕ → ServerEnv) (params : Value),
      spec ∈ w.connections → conList params = [spec] →
        ((connectStorageServer envs params w).2.connections = w.connections ↔
          ¬Connects (envs 0) (intParamOr "domainType" 1 params) spec w) := by
  constructor
  · have hstart : w₀.IdsDistinct := by simp [Server.IdsDistinct, h₀]
    clear h₀
    induction calls generalizing w₀ with
    | nil => exact Iff.rfl
    | cons call calls ih =>
      obtain ⟨w₁, hw₁⟩ : ∃ w₁, serverStep w₀ call = some w₁ := by cases call <;> exact ⟨_, rfl⟩
      rw [turnsOf, List.flatMap_cons, allSteps_append, run_turns, hw₁, AllSteps, hw₁]
      simp only [Option.mem_def, Option.some.injEq, forall_eq']
      rw [idsDistinct_call hstart hw₁]
      refine and_congr_right fun hfresh => ih w₁ ((idsDistinct_call hstart hw₁).mpr hfresh)
  · intro w spec envs params _ hspec
    have hone : (connectStorageServer envs params w).2 =
        (Turn.connect (envs 0) (intParamOr "domainType" 1 params) spec).after w := by
      rw [connectStorageServer, hspec]
      rfl
    rw [hone]
    by_cases h : Connects (envs 0) (intParamOr "domainType" 1 params) spec w
    · rw [connect_connections h]
      simp [h]
    · simp [connect_connections_of_not h, h]

/-- Two exports under two ids. -/
def connectAs (id source : String) : Value :=
  .object [("connectionParams", .array [.object [("id", .string id), ("connection", .string source)]])]

/-- They have two entries. -/
theorem registry_is_map_two :
    AllSteps serverStep (fun w call => ∀ w' ∈ serverStep w call, w'.IdsDistinct) bareServer
      [.connect (fun _ => quietServerEnv) (connectAs "a" "srv:/a"),
        .connect (fun _ => quietServerEnv) (connectAs "b" "srv:/b")] := by
  refine (registry_is_map bareServer rfl _).1.mpr ⟨?_, fun w hw => ⟨?_, fun _ _ => trivial⟩⟩
  · exact fun _ c hc => absurd hc List.not_mem_nil
  · obtain rfl := Option.some.inj hw
    intro _ c hc
    have hids : ((Turn.connect quietServerEnv 1 ⟨"a", "srv:/a", "", "", ""⟩).after
        bareServer).connections.map (·.id) = ["a"] := by decide +kernel
    have hid : c.id ∈ ["a"] := hids ▸ List.mem_map_of_mem hc
    rw [List.mem_singleton.mp hid]
    decide

/-- The same spec connected twice is registered twice. -/
theorem registry_after_reconnect : ¬∀ w₀ : Server, w₀.connections = [] → ∀ calls,
    AllSteps serverStep (fun w call => ∀ w' ∈ serverStep w call, w'.IdsDistinct) w₀ calls := by
  intro h
  let call : ServerCall := .connect (fun _ => quietServerEnv) (connectExport "srv:/a")
  have hdistinct := ((h bareServer rfl [call, call]).2 _ rfl).1 _ rfl
  have hids : ((connectStorageServer (fun _ => quietServerEnv) (connectExport "srv:/a")
      (connectStorageServer (fun _ => quietServerEnv) (connectExport "srv:/a")
        bareServer).2).2.connections.map (·.id)) = ["id", "id"] := by decide +kernel
  rw [Server.IdsDistinct, hids] at hdistinct
  simp at hdistinct

/-! ## The registry and the mount table -/

/-- Some connection with its mount point at the location is registered. -/
def Server.Registered (w : Server) (loc : Location) : Prop := ∃ c ∈ w.connections, c.location = loc

/-- Something is mounted at the location. -/
def Server.MountedAt (w : Server) (loc : Location) : Prop := ∃ m ∈ w.mounts, m.location = loc

/-- The mount points of the registered connections are those that are mounted. -/
def Server.Mirrors (w : Server) : Prop := ∀ loc, w.Registered loc ↔ w.MountedAt loc

/-- The turn takes away the only mount at the mount point of its spec. -/
def Server.Frees (env : ServerEnv) (spec : StorageServerConnection) (w : Server) : Prop :=
  w.unmounts env spec = true ∧ w.mounts.countP (·.location == spec.location) = 1

/-- After the turn the registry mirrors the mount table. A disconnection whose umount fails keeps its
entry, and none unmounts the mount point of another connection. -/
def Turn.MirrorsAfter (w : Server) (t : Turn) : Prop :=
  (t.after w).Mirrors ∧
  match t with
  | disconnect env spec =>
    ((disconnectOne env spec w).1 = 16 →
      ∀ c ∈ w.connections, c.id = spec.id → c ∈ (t.after w).connections) ∧
    ∀ c ∈ w.connections, c.id ≠ spec.id → w.MountedAt c.location → (t.after w).MountedAt c.location
  | _ => True

/-- What a turn must meet for that. -/
def Turn.MirrorsWhen (w : Server) : Turn → Prop
  -- what is taken for mounted is mounted, as is what is mounted unnoticed
  | connect env domainType spec => w.makesDir env spec = true →
      (w.isMounted env spec.mountpoint = true ∨ env.loses (mountOp domainType spec) = true) →
        w.MountedAt spec.location
  | disconnect env spec =>
    -- where the umount fails there is no entry to lose
    (w.isMounted env spec.mountpoint = true → env.grants (.umount spec.mountpoint) = false →
      ∀ c ∈ w.connections, c.id ≠ spec.id) ∧
    -- no other id shares a mount point that goes away
    (w.Frees env spec → ∀ c ∈ w.connections, c.location = spec.location → c.id = spec.id) ∧
    -- what loses its entries goes away, or has others
    ∀ c ∈ w.connections, c.id = spec.id → (w.Frees env spec ∧ c.location = spec.location) ∨
      ∃ c' ∈ w.connections, c'.id ≠ spec.id ∧ c'.location = c.location
  | create _ _ => True

/-- Neither FCP nor iSCSI. -/
def Turn.MountBased : Turn → Prop
  | connect _ domainType _ => domainType ≠ 2 ∧ domainType ≠ 3
  | _ => True

/-! ### Connecting -/

/-- A connection that is made registers its location, and no other one. -/
theorem registered_connect {env : ServerEnv} {domainType : ℤ} {spec : StorageServerConnection}
    {w : Server} {loc : Location} :
    ((Turn.connect env domainType spec).after w).Registered loc ↔
      w.Registered loc ∨ Connects env domainType spec w ∧ spec.location = loc := by
  rw [Server.Registered, Server.Registered]
  by_cases h : Connects env domainType spec w
  · rw [connect_connections h]
    simp only [List.mem_append, List.mem_singleton, or_and_right, exists_or, exists_eq_left, h,
      true_and]
  · rw [connect_connections_of_not h]
    simp only [h, false_and, or_false]

/-- A mount that is carried out, noticed or not, adds its location, and no other one. -/
theorem mountedAt_connect {env : ServerEnv} {domainType : ℤ} {spec : StorageServerConnection}
    {w : Server} {loc : Location} (h2 : domainType ≠ 2) (h3 : domainType ≠ 3) :
    ((Turn.connect env domainType spec).after w).MountedAt loc ↔
      w.MountedAt loc ∨ (w.makesDir env spec ∧ !w.isMounted env spec.mountpoint ∧
        env.performs (mountOp domainType spec)) ∧ spec.location = loc := by
  have hlocation : Mount.location ⟨spec.connection, spec.mountpoint⟩ = spec.location := by
    rw [Mount.location, StorageServerConnection.location]
  rw [Server.MountedAt, Server.MountedAt, Turn.after, register_mounts,
    (mountOne_mountBased h2 h3).2.2]
  split
  · rename_i hmounts
    simp only [List.mem_append, List.mem_singleton, or_and_right, exists_or, exists_eq_left,
      hlocation, hmounts, true_and]
  · rename_i hnot
    simp only [hnot, false_and, or_false]

/-- Two sets that are the same, each with one more element under a condition of its own: they stay
the same if the conditions agree, or the element is there already. -/
theorem additions_agree_iff {α : Type} {R : α → Prop} {P Q : Prop} {a : α} :
    (∀ x, R x ∨ P ∧ a = x ↔ R x ∨ Q ∧ a = x) ↔ (¬R a → (P ↔ Q)) := by
  constructor
  · intro h hnot
    simpa [hnot] using h a
  · intro h x
    by_cases hx : a = x
    · subst hx
      by_cases hR : R a
      · simp [hR]
      · simp [hR, h hR]
    · simp [hx]

/-- A connection keeps the registry in step with the mounts under its condition, and only then. -/
theorem mirrors_connect {env : ServerEnv} {domainType : ℤ} {spec : StorageServerConnection}
    {w : Server} (h2 : domainType ≠ 2) (h3 : domainType ≠ 3) (h : w.Mirrors) :
    ((Turn.connect env domainType spec).after w).Mirrors ↔
      (Turn.connect env domainType spec).MirrorsWhen w := by
  have hagree : ((Turn.connect env domainType spec).after w).Mirrors ↔
      (¬w.MountedAt spec.location → (Connects env domainType spec w ↔
        (w.makesDir env spec ∧ !w.isMounted env spec.mountpoint ∧
          env.performs (mountOp domainType spec)))) := by
    rw [← additions_agree_iff]
    refine forall_congr' fun loc => ?_
    rw [registered_connect, mountedAt_connect h2 h3, h loc]
  rw [hagree, Turn.MirrorsWhen, Connects, if_neg h2, if_neg h3, performs_eq]
  cases w.makesDir env spec with
  | false => simp
  | true =>
    cases w.isMounted env spec.mountpoint with
    | true => simp
    | false =>
      -- the registry counts what is granted, the mount table also what is lost
      cases hgrants : env.grants (mountOp domainType spec) with
      | true => simp [loses_of_grants hgrants]
      | false => cases env.loses (mountOp domainType spec) <;> simp

/-! ### Disconnecting -/

/-- A disconnection takes its id out of the registry, and no other one. -/
theorem registered_disconnect {env : ServerEnv} {spec : StorageServerConnection} {w : Server}
    {loc : Location} : ((Turn.disconnect env spec).after w).Registered loc ↔
      ∃ c ∈ w.connections, c.id ≠ spec.id ∧ c.location = loc := by
  rw [Server.Registered, Turn.after, (disconnectOne_spec env spec w).2.1]
  simp [and_assoc]

/-- A disconnection leaves everything mounted but what it frees. -/
theorem mountedAt_disconnect {env : ServerEnv} {spec : StorageServerConnection} {w : Server}
    {loc : Location} : ((Turn.disconnect env spec).after w).MountedAt loc ↔
      w.MountedAt loc ∧ ¬(w.Frees env spec ∧ loc = spec.location) := by
  rw [Server.MountedAt, Turn.after, (disconnectOne_spec env spec w).2.2, Server.Frees]
  cases hunmounts : w.unmounts env spec with
  | false => simp [Server.MountedAt]
  | true =>
    rw [if_pos rfl, and_iff_right rfl]
    exact exists_location_unmount_iff

/-- It keeps the registry in step under its condition, and only then. -/
theorem mirrors_disconnect {env : ServerEnv} {spec : StorageServerConnection} {w : Server}
    (h : w.Mirrors) :
    (Turn.disconnect env spec).MirrorsAfter w ↔ (Turn.disconnect env spec).MirrorsWhen w := by
  have hstatus := (disconnectOne_spec env spec w).1
  constructor
  · rintro ⟨hmirrors, hkeeps, -⟩
    refine ⟨?_, ?_, ?_⟩
    · intro hmounted hgrants c hc hid
      have hkept := hkeeps (hstatus.mpr ⟨hmounted, by simp [hgrants]⟩) c hc hid
      rw [Turn.after, (disconnectOne_spec env spec w).2.1] at hkept
      simp [hid] at hkept
    · intro hfrees c hc hat
      by_contra hid
      have hshared := (hmirrors _).mp (registered_disconnect.mpr ⟨c, hc, hid, hat⟩)
      exact (mountedAt_disconnect.mp hshared).2 ⟨hfrees, rfl⟩
    · intro c hc _
      by_cases hfrees : w.Frees env spec ∧ c.location = spec.location
      · exact .inl hfrees
      · have hstill := mountedAt_disconnect.mpr ⟨(h _).mp ⟨c, hc, rfl⟩, hfrees⟩
        exact .inr (registered_disconnect.mp ((hmirrors _).mpr hstill))
  · rintro ⟨hfails, hshared, hlost⟩
    have hmirrors : ((Turn.disconnect env spec).after w).Mirrors := by
      intro loc
      rw [registered_disconnect, mountedAt_disconnect]
      constructor
      · rintro ⟨c, hc, hid, rfl⟩
        exact ⟨(h _).mp ⟨c, hc, rfl⟩, fun hfrees => hid (hshared hfrees.1 c hc hfrees.2)⟩
      · rintro ⟨hat, hnot⟩
        obtain ⟨c, hc, rfl⟩ := (h loc).mpr hat
        by_cases hid : c.id = spec.id
        · exact (hlost c hc hid).resolve_left hnot
        · exact ⟨c, hc, hid, rfl⟩
    refine ⟨hmirrors, ?_, ?_⟩
    · intro h16 c hc hid
      obtain ⟨hmounted, hgrants⟩ := hstatus.mp h16
      exact absurd hid (hfails hmounted (by simpa using hgrants) c hc)
    · intro c hc hid _
      exact (hmirrors _).mp (registered_disconnect.mpr ⟨c, hc, hid, rfl⟩)

/-- The same of any turn. -/
theorem mirrorsAfter_iff {w : Server} {t : Turn} (h : w.Mirrors) (ht : t.MountBased) :
    t.MirrorsAfter w ↔ t.MirrorsWhen w := by
  cases t with
  | connect env domainType spec =>
    exact (and_iff_left trivial).trans (mirrors_connect ht.1 ht.2 h)
  | disconnect env spec => exact mirrors_disconnect h
  | create env params => exact iff_of_true ⟨h, trivial⟩ trivial

/-- Neither FCP nor iSCSI. -/
def ServerCall.MountBased : ServerCall → Prop
  | connect _ params =>
    intParamOr "domainType" 1 params ≠ 2 ∧ intParamOr "domainType" 1 params ≠ 3
  | _ => True

/-- Does an option list hold an option with which `mount` mounts a tree, or changes what is mounted? -/
def reshapes (options : String) : Bool :=
  (splitChar ',' options).any fun o => ["rbind", "move", "remount"].contains (optionName o)

/-- Each mount adds one mount point. -/
def ServerCall.PlainMounts : ServerCall → Prop
  | connect _ params => ∀ spec ∈ conList params, reshapes spec.mntOptions = false
  | _ => True

/-- The turns of a mount-based call are mount-based. -/
theorem mountBased_turns {call : ServerCall} (h : call.MountBased) {t : Turn} (ht : t ∈ call.turns) :
    t.MountBased := by
  cases call with
  | connect envs params =>
    obtain ⟨i, hi, rfl⟩ := List.mem_mapIdx.mp ht
    exact h
  | disconnect envs params =>
    obtain ⟨i, hi, rfl⟩ := List.mem_mapIdx.mp ht
    trivial
  | create env params =>
    obtain rfl := List.mem_singleton.mp ht
    trivial

/-- So are those of a run of such calls. -/
theorem mountBased_turnsOf {calls : List ServerCall} (h : ∀ call ∈ calls, call.MountBased) :
    ∀ t ∈ turnsOf calls, t.MountBased := by
  intro t ht
  obtain ⟨call, hcall, ht⟩ := List.mem_flatMap.mp ht
  exact mountBased_turns (h call hcall) ht

/-- A mount-based turn that meets the condition keeps the mirror. -/
theorem mirrors_after {w w' : Server} {t : Turn} (h : w.Mirrors) (ht : t.MountBased)
    (hwhen : t.MirrorsWhen w) (hstep : turnStep w t = some w') : w'.Mirrors := by
  obtain rfl := Option.some.inj hstep
  exact ((mirrorsAfter_iff h ht).mpr hwhen).1

/-- In a run of mount-based calls from a host without connections and mounts, none of which asks to
mount a tree or to change what is mounted, the registry mirrors the mount table after every turn exactly
when every turn meets `MirrorsWhen`, and then it does after every call. -/
theorem registry_mirrors_mounts (w₀ : Server) (hregistry : w₀.connections = [])
    (hmounts : w₀.mounts = []) (calls : List ServerCall)
    (hcalls : ∀ call ∈ calls, call.MountBased ∧ call.PlainMounts) :
    (AllSteps turnStep (fun w t => t.MirrorsAfter w) w₀ (turnsOf calls) ↔
      AllSteps turnStep (fun w t => t.MirrorsWhen w) w₀ (turnsOf calls)) ∧
    (AllSteps turnStep (fun w t => t.MirrorsWhen w) w₀ (turnsOf calls) →
      ∀ before, before <+: calls → ∀ w ∈ Transition.run serverStep w₀ before, w.Mirrors) := by
  have hstart : w₀.Mirrors := by
    intro loc
    simp [Server.Registered, Server.MountedAt, hregistry, hmounts]
  have hturns := mountBased_turnsOf fun call hcall => (hcalls call hcall).1
  have hiff : ∀ t ∈ turnsOf calls, ∀ w, w.Mirrors → (t.MirrorsAfter w ↔ t.MirrorsWhen w) :=
    fun t ht w hw => mirrorsAfter_iff hw (hturns t ht)
  have hpres : ∀ t ∈ turnsOf calls, ∀ w w', w.Mirrors → t.MirrorsWhen w → turnStep w t = some w' →
      w'.Mirrors :=
    fun t ht w w' hw hwhen hstep => mirrors_after hw (hturns t ht) hwhen hstep
  refine ⟨allSteps_congr_of_mem hiff hpres hstart, ?_⟩
  intro hwhen before hbefore w hrun
  have hsplit : ∃ rest, turnsOf calls = turnsOf before ++ rest := by
    obtain ⟨rest, hrest⟩ := hbefore
    exact ⟨turnsOf rest, by rw [← hrest, turnsOf, List.flatMap_append, ← turnsOf, ← turnsOf]⟩
  obtain ⟨rest, hrest⟩ := hsplit
  rw [hrest] at hwhen hpres
  rw [← run_turnsOf] at hrun
  exact run_invariant_of_mem (fun t ht => hpres t (List.mem_append_left _ ht)) hstart
    (allSteps_append.mp hwhen).1 hrun

/-- The calls of the examples are mount-based and have no options. -/
theorem mountBased_connectExport (source : String) (envs : ℕ → ServerEnv) :
    (ServerCall.connect envs (connectExport source)).MountBased ∧
      (ServerCall.connect envs (connectExport source)).PlainMounts := by
  have hdefault : intParamOr "domainType" 1 (connectExport source) = 1 := rfl
  constructor
  · rw [ServerCall.MountBased, hdefault]
    decide
  · intro spec hspec
    rw [conList_connectExport, List.mem_singleton] at hspec
    have hempty : reshapes "" = false := by decide
    rw [hspec]
    exact hempty

/-- A host where nothing can be unmounted. -/
def busyServerEnv : ServerEnv :=
  { quietServerEnv with
    host := { quietHost with
      output := fun bin _ => .ok ⟨bin != "/usr/bin/umount", some 32, [], []⟩ } }

/-- One export connected to a bare host: nothing is mounted there before, so the mirror holds. -/
theorem registry_mirrors_mounts_connect :
    AllSteps turnStep (fun w t => t.MirrorsAfter w) bareServer
      (turnsOf [.connect (fun _ => quietServerEnv) (connectExport "srv:/a")]) := by
  refine (registry_mirrors_mounts bareServer rfl rfl
    [.connect (fun _ => quietServerEnv) (connectExport "srv:/a")] ?_).1.mpr ?_
  · intro call hcall
    obtain rfl := List.mem_singleton.mp hcall
    exact mountBased_connectExport _ _
  · refine ⟨fun _ hseen => ?_, fun _ _ => trivial⟩
    exact absurd hseen (by decide +kernel)

/-- A disconnection whose umount fails loses its entry. -/
theorem registry_after_busy_umount : ¬∀ (w₀ : Server) (calls : List ServerCall),
    w₀.connections = [] → w₀.mounts = [] → (∀ call ∈ calls, call.MountBased) →
      ∀ before, before <+: calls → ∀ w ∈ Transition.run serverStep w₀ before, w.Mirrors := by
  intro h
  let connected :=
    (connectStorageServer (fun _ => quietServerEnv) (connectExport "srv:/a") bareServer).2
  let last := (disconnectStorageServer (fun _ => busyServerEnv) (connectExport "srv:/a") connected).2
  have hmirrors : last.Mirrors := by
    refine h bareServer [.connect (fun _ => quietServerEnv) (connectExport "srv:/a"),
      .disconnect (fun _ => busyServerEnv) (connectExport "srv:/a")] rfl rfl ?_ _ List.prefix_rfl
      last rfl
    intro call hcall
    rcases List.mem_pair.mp hcall with rfl | rfl
    · exact (mountBased_connectExport _ _).1
    · trivial
  have hregistry : last.connections = [] := by decide +kernel
  have hmounts : last.mounts.length = 1 := by decide +kernel
  obtain ⟨m, hm⟩ : ∃ m, m ∈ last.mounts := List.exists_mem_of_length_pos (by omega)
  obtain ⟨c, hc, -⟩ := (hmirrors m.location).mpr ⟨m, hm, rfl⟩
  rw [hregistry] at hc
  exact List.not_mem_nil hc

end Vdsm.Storage
