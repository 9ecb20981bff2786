import Vdsm.Lib.Transition
import Vdsm.Virt.Libvirt
import Vdsm.Virt.Registry

/-!
# The VM verbs as interleaved tasks (`vdsm-virt/src/verbs.rs`, `vdsm-host/src/vm_stats.rs`)

A verb runs on its connection's task and gives way at every `virsh` command and every lock of the
registry; a `Task` is such a point, with the local variables that are still needed. `exec` runs a task
to its next point. The watchdog of `vm_shutdown` and the migration of `vm_migrate` are tasks of their
own, spawned by the verb. A `World` step calls a verb, advances one task, or is something that happens
to libvirt: a guest powers off, an incoming migration completes.

Two histories are kept beside the program's state: the number of starts so far, which numbers the
incarnations, and the log of replies and of the incarnations on which a watchdog issued a destroy.
-/

namespace Vdsm.Virt

open Rust

/-- What an observer sees. -/
inductive Event where
  | reply (result : Except JsonRpcError Value)
  | watchdogDestroy (armed incarnation : ℕ)

/-- libvirt, the registry and the histories. -/
structure Core where
  table : Table
  starts : ℕ
  registry : Registry
  log : List Event

/-- The two verbs that run one command and then set the state. -/
inductive Toggle where
  | pause
  | cont
deriving DecidableEq

/-- A point at which a verb, a watchdog or a migration gives way. -/
inductive Task where
  | createDefine (vmId : String) (spec : DomainSpec)
  | createStart (vmId : String) (spec : DomainSpec)
  | createInsert (vmId : String) (spec : DomainSpec)
  | destroyDestroy (vmId name : String)
  | destroyUndefine (vmId name : String)
  | destroyRemove (vmId : String)
  | shutdownSignal (vmId name : String) (armed : ℕ)
  | shutdownMark (vmId name : String) (armed : ℕ)
  | watchdogCheck (vmId name : String) (armed : ℕ)
  | watchdogDestroy (vmId name : String) (armed : ℕ)
  | watchdogMark (vmId : String)
  | toggleCommand (verb : Toggle) (vmId name : String)
  | toggleMark (verb : Toggle) (vmId : String)
  | migrateRun (name : String)
  | migrationInsert (vmId : String) (spec : DomainSpec)
  | pollList
  | pollReconcile (names : List String)
  | pollReport

/-- What the environment decides in one step: whether a command that libvirt could carry out works,
what it prints when it does not, the time, and the answers during a reconciliation. -/
structure Answer where
  works : Bool
  stderr : String
  now : UInt64
  queries : Queries

/-- `run_virsh` for a command that changes the table. -/
def Answer.command {α : Type} (a : Answer) (result : Option α) : Option α :=
  if a.works then result else none

namespace Core

def reply (c : Core) (result : Except JsonRpcError Value) : Core :=
  { c with log := c.log ++ [.reply result] }

def fail (c : Core) (what stderr : String) : Core :=
  c.reply (.error (.internal s!"{what}: {stderr}"))

/-- `if let Some(rec) = registry().write().await.get_mut(&vm_id) { rec.state = state; }`. -/
def mark (c : Core) (vmId : String) (state : VmState) : Core :=
  { c with registry := c.registry.modify vmId fun r => { r with state := state } }

/-- `registry().write().await.insert(vm_id, record)`. -/
def register (c : Core) (vmId : String) (spec : DomainSpec) (state : VmState) (now : UInt64) :
    Core :=
  { c with registry :=
      c.registry.insert vmId ⟨vmId, spec.name, spec.memMb, spec.vcpus, state, now⟩ }

/-- The name under which the verbs address a VM: the registry's, else the id itself. -/
def nameOf (c : Core) (vmId : String) : String :=
  ((c.registry.lookup vmId).map VmRecord.vmName).getD vmId

end Core

/-- Run a task to its next point: what it does, and the tasks it leaves. -/
def exec (v : Virsh) (a : Answer) (task : Task) (c : Core) : Core × List Task :=
  match task with
  | .createDefine vmId spec =>
    match a.command (c.table.define v spec.name spec.uuid) with
    | some t => ({ c with table := t }, [.createStart vmId spec])
    | none => (c.fail "virsh define" a.stderr, [])
  | .createStart vmId spec =>
    match a.command (c.table.start v spec.name (c.starts + 1)) with
    | some t => ({ c with table := t, starts := c.starts + 1 }, [.createInsert vmId spec])
    | none => (c.fail "virsh start" a.stderr, [])
  | .createInsert vmId spec =>
    let status := Value.object [("vmList", .object [("vmId", .string vmId),
      ("status", .string VmState.up.asEngineStr)])]
    ((c.register vmId spec .up a.now).reply (.ok status), [])
  | .destroyDestroy vmId name =>
    match a.command (c.table.destroy v name) with
    | some (_, t) => ({ c with table := t }, [.destroyUndefine vmId name])
    -- `vm_destroy` goes on whatever its commands say
    | none => (c, [.destroyUndefine vmId name])
  | .destroyUndefine vmId name =>
    match a.command (c.table.undefine v name) with
    | some t => ({ c with table := t }, [.destroyRemove vmId])
    | none => (c, [.destroyRemove vmId])
  | .destroyRemove vmId =>
    ({ c with registry := c.registry.erase vmId }.reply (.ok (.object [])), [])
  | .shutdownSignal vmId name armed =>
    -- an ACPI request: what the guest makes of it is a `powerOff` of its own
    (c, [.shutdownMark vmId name armed])
  | .shutdownMark vmId name armed =>
    ((c.mark vmId .poweringDown).reply (.ok (.object [])), [.watchdogCheck vmId name armed])
  | .watchdogCheck vmId name armed =>
    match a.command (c.table.domstate v name) with
    | some out =>
      if eqIgnoreAsciiCase (trim out) "running" then (c, [.watchdogDestroy vmId name armed])
      else (c, [])
    | none => (c, [])
  | .watchdogDestroy vmId name armed =>
    let target := c.table.destroy v name
    let c := { c with log := c.log ++ (target.map fun p => .watchdogDestroy armed p.1.id).toList }
    match a.command target with
    | some (_, t) => ({ c with table := t }, [.watchdogMark vmId])
    | none => (c, [.watchdogMark vmId])
  | .watchdogMark vmId => (c.mark vmId .down, [])
  | .toggleCommand verb vmId name =>
    let result := match verb with
      | .pause => c.table.suspend v name
      | .cont => c.table.resume v name
    match a.command result with
    | some t => ({ c with table := t }, [.toggleMark verb vmId])
    -- the result of the command is ignored
    | none => (c, [.toggleMark verb vmId])
  | .toggleMark verb vmId =>
    let state := match verb with
      | .pause => VmState.paused
      | .cont => VmState.up
    ((c.mark vmId state).reply (.ok (.object [])), [])
  | .migrateRun name =>
    match a.command (c.table.migrateAway v name) with
    | some t => ({ c with table := t }, [])
    | none => (c, [])
  | .migrationInsert vmId spec =>
    ((c.register vmId spec .waitForLaunch a.now).reply
      (.ok (.object [("migrationPort", .ofInt 49152), ("params", .object [])])), [])
  | .pollList =>
    match a.command (some c.table.listRunning) with
    -- the list is taken before the registry is locked
    | some out => (c, [.pollReconcile (listedNames out)])
    | none => (c, [.pollReport])
  | .pollReconcile names =>
    ({ c with registry := reconcile a.queries names c.registry }, [.pollReport])
  | .pollReport => (c.reply (.ok (.array (allVmStats a.now c.registry))), [])

/-! ## Calls and steps -/

/-- The verbs. -/
inductive Verb where
  | create
  | destroy
  | shutdown
  | pause
  | cont
  | migrate
  | migrationCreate
  | getAllVmStats
deriving DecidableEq

/-- `params.get("dst").or_else(..).or_else(..).and_then(Value::as_str)`. -/
def migrateDst (params : Value) : Option String :=
  (((params.get "dst").or (params.get "hostname")).or (params.get "dstHost")).bind Value.asStr

/-- A verb up to its first point: a missing `vmID` is refused at once. -/
def call (verb : Verb) (params : Value) (c : Core) : Core × List Task :=
  if verb = .getAllVmStats then (c, [.pollList])
  else
    match vmIdFrom params with
    | .error e => (c.reply (.error e), [])
    | .ok vmId =>
      -- the registry is read once; the name is what the rest of the verb uses
      let name := c.nameOf vmId
      match verb with
      | .create => (c, [.createDefine vmId (DomainSpec.fromVmParams vmId params)])
      | .destroy => (c, [.destroyDestroy vmId name])
      | .shutdown => (c, [.shutdownSignal vmId name c.starts])
      | .pause => (c, [.toggleCommand .pause vmId name])
      | .cont => (c, [.toggleCommand .cont vmId name])
      | .migrate =>
        match migrateDst params with
        | none => (c.reply (.error (.invalidParams "dst (destination host) required")), [])
        | some _ =>
          let started := Value.object [("status", .object [("code", .ofInt 0),
            ("message", .string "Migration started")]), ("progress", .ofInt 0)]
          (c.reply (.ok started), [.migrateRun name])
      | .migrationCreate => (c, [.migrationInsert vmId (DomainSpec.fromVmParams vmId params)])
      | .getAllVmStats => (c, [])

/-- libvirt, the registry and the tasks in flight. -/
structure World where
  core : Core
  tasks : List Task

/-- What can happen. -/
inductive Label where
  | call (verb : Verb) (params : Value)
  | advance (i : ℕ) (a : Answer)
  | powerOff (uuid : String)
  | handOver (name uuid : String)

/-- One step. -/
def step (v : Virsh) (w : World) (l : Label) : Option World :=
  match l with
  | .call verb params =>
    let (c, next) := call verb params w.core
    some ⟨c, w.tasks ++ next⟩
  | .advance i a =>
    match w.tasks[i]? with
    | some task =>
      let (c, next) := exec v a task w.core
      some ⟨c, w.tasks.eraseIdx i ++ next⟩
    | none => none
  | .powerOff uuid =>
    (w.core.table.powerOff uuid).map fun t => { w with core := { w.core with table := t } }
  | .handOver name uuid =>
    (w.core.table.handOver name uuid (w.core.starts + 1)).map fun t =>
      { w with core := { w.core with table := t, starts := w.core.starts + 1 } }

/-- How a task advances. -/
theorem step_advance {v : Virsh} {w w' : World} {i : ℕ} {a : Answer}
    (h : step v w (.advance i a) = some w') :
    ∃ task, w.tasks[i]? = some task ∧
      w' = ⟨(exec v a task w.core).1, w.tasks.eraseIdx i ++ (exec v a task w.core).2⟩ := by
  rw [step] at h
  cases htask : w.tasks[i]? with
  | none => simp [htask] at h
  | some task =>
    rw [htask] at h
    exact ⟨task, rfl, (Option.some.inj h).symm⟩

end Vdsm.Virt
