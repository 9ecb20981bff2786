import Mathlib.Data.List.InsertIdx
import Vdsm.Virt.Reconcile

/-!
# Incoming migrations

`VM.migrationCreate` records an incoming VM as `WaitForLaunch`; when libvirt has taken it over, the
domain runs under that name and uuid. Polls list, reconcile and report, and the announcement and the
hand-over fall anywhere between. A reconciliation before the hand-over drops the record, since its name
is not listed yet, and one after it leaves a record that is still there as it is.
`migration_reported_iff` says which reconciliations do neither, so that every poll reports what it
should, and that of polls that nothing interrupts no others do.
-/

namespace Vdsm.Virt

open Rust Transition

/-- `VM.migrationCreate`. -/
def vmMigrationCreate (v : Virsh) (a : Answer) (vmId : String) (params : Value) (c : Core) : Core :=
  (exec v a (.migrationInsert vmId (DomainSpec.fromVmParams vmId params)) c).1

/-! ## Runs -/

/-- How far the migration is, and whether a reconciliation has found the VM since. -/
inductive Stage where
  | awaited
  | arrived
  | seen
deriving DecidableEq, Repr

/-- A poll under way: where it is, and the stage it was called in, none if the VM was not announced. -/
structure PollCall where
  point : Task
  called : Option Stage

/-- The daemon and libvirt, from the announcement on. -/
structure Incoming where
  core : Core
  polls : List PollCall
  stage : Stage

/-- What happens: a poll is called or goes on to its next await, and libvirt takes the VM over. -/
inductive IncomingEvent where
  | poll
  | advance (i : ℕ) (a : Answer)
  | handOver

/-- The list does not have the name of the VM, and another name leads to its uuid. -/
def FindsAnew (vmId name : String) (names : List String) (q : Queries) : Prop :=
  name ∉ names ∧ ∃ n ∈ names, q.Finds n vmId

instance (vmId name : String) (names : List String) (q : Queries) :
    Decidable (FindsAnew vmId name names q) :=
  inferInstanceAs (Decidable (name ∉ names ∧ ∃ n ∈ names, q.Finds n vmId))

/-- The stage after a poll went on. -/
def Stage.after (vmId name : String) (a : Answer) : Task → Stage → Stage
  | .pollReconcile names, .arrived =>
    if FindsAnew vmId name names a.queries then .seen else .arrived
  | _, stage => stage

/-- One event. The hand-over happens once. -/
def incomingStep (v : Virsh) (vmId name : String) (w : Incoming) : IncomingEvent → Option Incoming
  | .poll => some { w with polls := w.polls ++ [⟨.pollList, some w.stage⟩] }
  | .advance i a =>
    w.polls[i]?.map fun p =>
      let (c, next) := exec v a p.point w.core
      ⟨c, w.polls.eraseIdx i ++ next.map (⟨·, p.called⟩), w.stage.after vmId name a p.point⟩
  | .handOver =>
    if w.stage = .awaited then
      (w.core.table.handOver name vmId (w.core.starts + 1)).map fun t =>
        { w with core := { w.core with table := t, starts := w.core.starts + 1 }, stage := .arrived }
    else none

/-- The polls as tasks among others. -/
def Incoming.world (w : Incoming) : World := ⟨w.core, w.polls.map PollCall.point⟩

/-- The event as a step of the verbs. -/
def IncomingEvent.label (vmId name : String) : IncomingEvent → Label
  | .poll => .call .getAllVmStats .null
  | .advance i a => .advance i a
  | .handOver => .handOver name vmId

/-- Every event is a step of the verbs. -/
theorem incomingStep_world {v : Virsh} {vmId name : String} {w w' : Incoming} {e : IncomingEvent}
    (h : incomingStep v vmId name w e = some w') :
    step v w.world (e.label vmId name) = some w'.world := by
  cases e with
  | poll =>
    obtain rfl := Option.some.inj h
    simp [step, call, IncomingEvent.label, Incoming.world]
  | advance i a =>
    obtain ⟨p, hp, rfl⟩ := Option.map_eq_some_iff.mp h
    have hpoint : w.world.tasks[i]? = some p.point := by
      rw [Incoming.world, List.getElem?_map, hp, Option.map_some]
    rw [IncomingEvent.label, step, hpoint]
    simp [Incoming.world, List.eraseIdx_map, List.map_map, Function.comp_def]
  | handOver =>
    rw [incomingStep] at h
    split_ifs at h
    obtain ⟨t, ht, rfl⟩ := Option.map_eq_some_iff.mp h
    have hstep : w.world.core.table.handOver name vmId (w.world.core.starts + 1) = some t := ht
    rw [IncomingEvent.label, step, hstep, Option.map_some]
    rfl

/-- The status that a report has to show: of a poll that was called after the announcement and reports
before the hand-over, and of one that was called after the hand-over. -/
def PollCall.expects (p : PollCall) (stage : Stage) : Option VmState :=
  match p.called with
  | some .awaited => if stage = .awaited then some .waitForLaunch else none
  | some _ => some .up
  | none => none

/-- A poll reports the VM with the status it has to show. -/
def ReportsStage (vmId : String) (w : Incoming) : IncomingEvent → Prop
  | .advance i a => ∀ p ∈ w.polls[i]?, p.point = .pollReport →
    ∀ state ∈ p.expects w.stage, Reported a.now w.core.registry vmId state
  | _ => True

/-- A reconciliation spares a record, or finds the VM. -/
def SparesOrFinds (vmId : String) (reg : Registry) (names : List String) (q : Queries) : Prop :=
  (∃ r ∈ reg.lookup vmId, r.vmName ∈ names) ∨ ∃ n ∈ names, q.Finds n vmId

/-- The list of a poll that reconciles before the hand-over has the name, although no domain has it yet.
Later ones spare the record or find the VM, and one finds it anew before a poll that was called after
the hand-over reports. -/
def PolledAside (vmId name : String) (w : Incoming) : IncomingEvent → Prop
  | .advance i a => ∀ p ∈ w.polls[i]?,
    (∀ names, p.point = .pollReconcile names →
      if w.stage = .awaited then name ∈ names
      else SparesOrFinds vmId w.core.registry names a.queries) ∧
    (p.point = .pollReport → p.expects w.stage = some .up → w.stage = .seen)
  | _ => True

/-! ## The record -/

/-- The record of the VM: as `VM.migrationCreate` left it, until it is found anew. -/
def RecordAt (vmId name : String) (stage : Stage) (reg : Registry) : Prop :=
  match stage with
  | .seen => ∃ r, reg.lookup vmId = some r ∧ r.state = .up
  | _ => ∃ r, reg.lookup vmId = some r ∧ r.state = .waitForLaunch ∧ r.vmName = name

/-- What a reconciliation that does not list the name of the record leaves under the id is found anew,
and `Up`. -/
theorem lookup_reconcile_of_dropped {q : Queries} {names : List String} {reg : Registry}
    {vmId : String} {r : VmRecord} (hr : reg.lookup vmId = some r) (h : r.vmName ∉ names) :
    (vmId ∈ reconcile q names reg ↔ ∃ n ∈ names, q.Finds n vmId) ∧
      ∀ r', (reconcile q names reg).lookup vmId = some r' → r'.state = .up ∧ r'.vmName ∈ names := by
  constructor
  · rw [reconcile, mem_foldl_importDomain]
    refine or_iff_right ?_
    rw [← AList.lookup_isSome, HashMap.lookup_retain, hr]
    simp [Option.filter, h]
  · intro r' hr'
    obtain ⟨hname, hold | ⟨-, himports⟩⟩ := lookup_reconcile_cases hr'
    · obtain rfl : r = r' := by simpa [hr] using hold
      exact absurd hname h
    · exact ⟨himports.up, hname⟩

/-- Found anew, the VM is `Up`. -/
theorem lookup_reconcile_of_found {q : Queries} {names : List String} {reg : Registry}
    {vmId : String} {r : VmRecord} (hr : reg.lookup vmId = some r) (h : r.vmName ∉ names)
    (hfound : ∃ n ∈ names, q.Finds n vmId) :
    ∃ r', (reconcile q names reg).lookup vmId = some r' ∧ r'.state = .up ∧ r'.vmName ∈ names := by
  obtain ⟨hmem, hup⟩ := lookup_reconcile_of_dropped (q := q) hr h
  obtain ⟨r', hr'⟩ := Option.isSome_iff_exists.mp (AList.lookup_isSome.mpr (hmem.mpr hfound))
  exact ⟨r', hr', hup r' hr'⟩

/-- A reconciliation that falls aside leaves the record as the stage has it. -/
theorem recordAt_reconcile {vmId name : String} {stage : Stage} {reg : Registry}
    {names : List String} {a : Answer} (h : RecordAt vmId name stage reg)
    (haside : if stage = .awaited then name ∈ names else SparesOrFinds vmId reg names a.queries) :
    RecordAt vmId name (stage.after vmId name a (.pollReconcile names))
      (reconcile a.queries names reg) := by
  cases stage with
  | awaited =>
    obtain ⟨r, hr, hstate, rfl⟩ := h
    exact ⟨r, lookup_reconcile_of_listed hr haside, hstate, rfl⟩
  | arrived =>
    obtain ⟨r, hr, hstate, rfl⟩ := h
    rw [Stage.after]
    split_ifs with hanew
    · obtain ⟨r', hr', hup, -⟩ := lookup_reconcile_of_found hr hanew.1 hanew.2
      exact ⟨r', hr', hup⟩
    · have hlisted : r.vmName ∈ names := by
        by_contra hnot
        rcases haside with ⟨r', hr', hname⟩ | hfound
        · obtain rfl := Option.some.inj (hr.symm.trans hr')
          exact hnot hname
        · exact hanew ⟨hnot, hfound⟩
      exact ⟨r, lookup_reconcile_of_listed hr hlisted, hstate, rfl⟩
  | seen =>
    obtain ⟨r, hr, hstate⟩ := h
    by_cases hlisted : r.vmName ∈ names
    · exact ⟨r, lookup_reconcile_of_listed hr hlisted, hstate⟩
    · have hfound : ∃ n ∈ names, a.queries.Finds n vmId := by
        rcases haside with ⟨r', hr', hname⟩ | hfound
        · obtain rfl := Option.some.inj (hr.symm.trans hr')
          exact absurd hname hlisted
        · exact hfound
      obtain ⟨r', hr', hup, -⟩ := lookup_reconcile_of_found hr hlisted hfound
      exact ⟨r', hr', hup⟩

/-! ## Every interleaving -/

/-- A point of a poll. -/
def Task.IsPoll : Task → Prop
  | .pollList => True
  | .pollReconcile _ => True
  | .pollReport => True
  | _ => False

/-- The record is as the stage has it, and the tasks are polls. -/
structure Incoming.Sound (vmId name : String) (w : Incoming) : Prop where
  record : RecordAt vmId name w.stage w.core.registry
  polls : ∀ p ∈ w.polls, p.point.IsPoll

/-- A poll leaves polls, and changes the registry by a reconciliation only. -/
theorem exec_isPoll {v : Virsh} {a : Answer} {task : Task} {c : Core} (h : task.IsPoll) :
    (∀ t ∈ (exec v a task c).2, t.IsPoll) ∧
      ((∃ names, task = .pollReconcile names ∧
          (exec v a task c).1.registry = reconcile a.queries names c.registry) ∨
        (∀ names, task ≠ .pollReconcile names) ∧ (exec v a task c).1.registry = c.registry) := by
  cases task with
  | pollList => cases hworks : a.works <;> simp [exec, Answer.command, hworks, Task.IsPoll]
  | pollReconcile names => exact ⟨by simp [exec, Task.IsPoll], .inl ⟨names, rfl, rfl⟩⟩
  | pollReport => simp [exec, Core.reply]
  | _ => exact h.elim

/-- Every event that does not fall within a poll of the moved VM keeps the record right. -/
theorem sound_step {v : Virsh} {vmId name : String} {w w' : Incoming} {e : IncomingEvent}
    (h : w.Sound vmId name) (he : PolledAside vmId name w e)
    (hstep : incomingStep v vmId name w e = some w') : w'.Sound vmId name := by
  cases e with
  | poll =>
    obtain rfl := Option.some.inj hstep
    refine ⟨h.record, fun p hp => ?_⟩
    rcases List.mem_append.mp hp with hp | hp
    · exact h.polls p hp
    · rw [List.mem_singleton.mp hp]
      trivial
  | advance i a =>
    obtain ⟨p, hp, rfl⟩ := Option.map_eq_some_iff.mp hstep
    have hpoll := h.polls p (List.mem_of_getElem? hp)
    obtain ⟨hnext, hregistry⟩ := exec_isPoll (v := v) (a := a) (c := w.core) hpoll
    obtain ⟨hreconcile, -⟩ := he p hp
    constructor
    · dsimp only
      rcases hregistry with ⟨names, hpoint, hregistry⟩ | ⟨hother, hregistry⟩
      · rw [hregistry, hpoint]
        exact recordAt_reconcile h.record (hreconcile names hpoint)
      · have hstage : w.stage.after vmId name a p.point = w.stage := by
          rw [Stage.after]
          intro names hpoint
          exact absurd hpoint (hother names)
        rw [hregistry, hstage]
        exact h.record
    · intro q hq
      rcases List.mem_append.mp hq with hq | hq
      · exact h.polls q (List.mem_of_mem_eraseIdx hq)
      · obtain ⟨t, ht, rfl⟩ := List.mem_map.mp hq
        exact hnext t ht
  | handOver =>
    rw [incomingStep] at hstep
    split_ifs at hstep with hstage
    obtain ⟨t, -, rfl⟩ := Option.map_eq_some_iff.mp hstep
    have hrecord := h.record
    rw [hstage] at hrecord
    exact ⟨hrecord, h.polls⟩

/-- Then a report shows what it has to. -/
theorem reports_of_sound {vmId name : String} {w : Incoming} {e : IncomingEvent}
    (h : w.Sound vmId name) (he : PolledAside vmId name w e) : ReportsStage vmId w e := by
  cases e with
  | poll => trivial
  | handOver => trivial
  | advance i a =>
    intro p hp hpoint state hstate
    rw [reported_iff]
    have hrecord := h.record
    have hseen := (he p hp).2 hpoint
    rw [PollCall.expects] at hstate hseen
    split at hstate
    · split_ifs at hstate with hawaited
      · obtain rfl := Option.some.inj hstate
        rw [hawaited] at hrecord
        obtain ⟨r, hr, hwaits, -⟩ := hrecord
        exact ⟨r, hr, hwaits⟩
      · cases hstate
    · obtain rfl := Option.some.inj hstate
      rename_i hcalled
      rw [hseen (by simp [hcalled])] at hrecord
      exact hrecord
    · cases hstate

/-- Every report of a run whose reconciliations fall aside. -/
theorem allSteps_of_sound {v : Virsh} {vmId name : String} {w : Incoming} {es : List IncomingEvent}
    (h : w.Sound vmId name) :
    AllSteps (incomingStep v vmId name) (PolledAside vmId name) w es →
      AllSteps (incomingStep v vmId name) (ReportsStage vmId) w es := by
  have hreports : ∀ w e, w.Sound vmId name → PolledAside vmId name w e → ReportsStage vmId w e :=
    fun _ _ hs he => reports_of_sound hs he
  have hkept : ∀ w e w', w.Sound vmId name → PolledAside vmId name w e →
      incomingStep v vmId name w e = some w' → w'.Sound vmId name :=
    fun _ _ _ hs he hstep => sound_step hs he hstep
  exact allSteps_of_invariant hreports hkept h

/-! ## Polls that nothing interrupts -/

/-- A poll, with the answers at its points, or the hand-over. -/
inductive WholeEvent where
  | poll (listing reconciling reporting : Answer)
  | handOver

/-- The events it consists of. A poll whose list fails reports at once. -/
def WholeEvent.events : WholeEvent → List IncomingEvent
  | .poll listing reconciling reporting =>
    if listing.works then [.poll, .advance 0 listing, .advance 0 reconciling, .advance 0 reporting]
    else [.poll, .advance 0 listing, .advance 0 reporting]
  | .handOver => [.handOver]

/-- No poll is under way, and once the VM was found anew, its record has a name that is listed. -/
structure Incoming.Between (vmId name : String) (w : Incoming) : Prop where
  polls : w.polls = []
  record : RecordAt vmId name w.stage w.core.registry
  listed : w.stage = .seen → ∃ r, w.core.registry.lookup vmId = some r ∧
    r.vmName ∈ listedNames w.core.table.listRunning

/-- One poll under way, and no other. -/
def Incoming.under (point : Task) (called : Stage) (w : Incoming) : Incoming :=
  { w with polls := [⟨point, some called⟩] }

/-- What is listed now is reconciled now. -/
def Incoming.reconciled (vmId name : String) (a : Answer) (w : Incoming) : Incoming :=
  let names := listedNames w.core.table.listRunning
  { w with
    core := { w.core with registry := reconcile a.queries names w.core.registry }
    stage := w.stage.after vmId name a (.pollReconcile names) }

/-- A poll without a break, as it shows in the stage of the migration. -/
theorem Incoming.reconciled_stage (vmId name : String) (a : Answer) (w : Incoming) :
    (w.reconciled vmId name a).stage = w.stage.after vmId name a
      (.pollReconcile (listedNames w.core.table.listRunning)) := by
  rw [Incoming.reconciled]

/-- And in the registry. -/
theorem Incoming.reconciled_registry (vmId name : String) (a : Answer) (w : Incoming) :
    (w.reconciled vmId name a).core.registry
      = reconcile a.queries (listedNames w.core.table.listRunning) w.core.registry := by
  rw [Incoming.reconciled]

section Whole

variable {w : Incoming} {listing : Answer} (v : Virsh) (vmId name : String)
  (reconciling reporting : Answer)

/-- A poll whose list works, event by event. -/
theorem allSteps_listed {P : Incoming → IncomingEvent → Prop} (hpolls : w.polls = [])
    (hworks : listing.works = true) :
    AllSteps (incomingStep v vmId name) P w (WholeEvent.poll listing reconciling reporting).events ↔
      P w .poll ∧ P (w.under .pollList w.stage) (.advance 0 listing) ∧
        P (w.under (.pollReconcile (listedNames w.core.table.listRunning)) w.stage)
          (.advance 0 reconciling) ∧
        P ((w.reconciled vmId name reconciling).under .pollReport w.stage)
          (.advance 0 reporting) := by
  obtain ⟨core, polls, stage⟩ := w
  obtain rfl : polls = [] := hpolls
  simp [WholeEvent.events, hworks, AllSteps, incomingStep, exec, Answer.command, Stage.after,
    Incoming.under, Incoming.reconciled]

/-- What it leaves. -/
theorem run_listed (hpolls : w.polls = []) (hworks : listing.works = true) :
    ∃ w', run (incomingStep v vmId name) w (WholeEvent.poll listing reconciling reporting).events
        = some w' ∧ w'.polls = [] ∧ w'.core.table = w.core.table ∧
      w'.core.registry = (w.reconciled vmId name reconciling).core.registry ∧
      w'.stage = (w.reconciled vmId name reconciling).stage := by
  obtain ⟨core, polls, stage⟩ := w
  obtain rfl : polls = [] := hpolls
  simp [WholeEvent.events, hworks, run, incomingStep, exec, Answer.command, Stage.after, Core.reply,
    Incoming.reconciled]

/-- A poll whose list fails, event by event. -/
theorem allSteps_unlisted {P : Incoming → IncomingEvent → Prop} (hpolls : w.polls = [])
    (hworks : listing.works = false) :
    AllSteps (incomingStep v vmId name) P w (WholeEvent.poll listing reconciling reporting).events ↔
      P w .poll ∧ P (w.under .pollList w.stage) (.advance 0 listing) ∧
        P (w.under .pollReport w.stage) (.advance 0 reporting) := by
  obtain ⟨core, polls, stage⟩ := w
  obtain rfl : polls = [] := hpolls
  simp [WholeEvent.events, hworks, AllSteps, incomingStep, exec, Answer.command, Stage.after,
    Incoming.under]

/-- It leaves what it found. -/
theorem run_unlisted (hpolls : w.polls = []) (hworks : listing.works = false) :
    ∃ w', run (incomingStep v vmId name) w (WholeEvent.poll listing reconciling reporting).events
        = some w' ∧ w'.polls = [] ∧ w'.core.table = w.core.table ∧
      w'.core.registry = w.core.registry ∧ w'.stage = w.stage := by
  obtain ⟨core, polls, stage⟩ := w
  obtain rfl : polls = [] := hpolls
  simp [WholeEvent.events, hworks, run, incomingStep, exec, Answer.command, Stage.after, Core.reply]

end Whole

section Exact

variable {v : Virsh} {vmId name : String} {w w' : Incoming}
  {listing reconciling reporting : Answer}

/-- Found again: a record whose name is listed stays, and what is found anew has a listed name. -/
theorem listed_reconciled (h : w.Between vmId name)
    (hseen : (w.reconciled vmId name reconciling).stage = .seen) :
    ∃ r, (w.reconciled vmId name reconciling).core.registry.lookup vmId = some r ∧
      r.vmName ∈ listedNames w.core.table.listRunning := by
  rw [w.reconciled_stage] at hseen
  rw [w.reconciled_registry]
  cases hstage : w.stage with
  | awaited =>
    rw [hstage, Stage.after] at hseen
    · cases hseen
    · simp
  | arrived =>
    have hrecord := h.record
    rw [hstage] at hrecord hseen
    obtain ⟨r, hr, -, rfl⟩ := hrecord
    rw [Stage.after] at hseen
    split_ifs at hseen with hanew
    obtain ⟨r', hr', -, hname⟩ := lookup_reconcile_of_found hr hanew.1 hanew.2
    exact ⟨r', hr', hname⟩
  | seen =>
    obtain ⟨r, hr, hname⟩ := h.listed hstage
    exact ⟨r, lookup_reconcile_of_listed hr hname, hname⟩

/-- What the one poll under way has to report. -/
theorem reports_under {point : Task} {called : Stage} {a : Answer} :
    ReportsStage vmId (w.under point called) (.advance 0 a) ↔
      (point = .pollReport → ∀ state ∈ PollCall.expects ⟨point, some called⟩ w.stage,
        Reported a.now w.core.registry vmId state) := by
  simp [ReportsStage, Incoming.under]

/-- When it falls aside. -/
theorem aside_under {point : Task} {called : Stage} {a : Answer} :
    PolledAside vmId name (w.under point called) (.advance 0 a) ↔
      (∀ names, point = .pollReconcile names →
        if w.stage = .awaited then name ∈ names
        else SparesOrFinds vmId w.core.registry names a.queries) ∧
      (point = .pollReport → PollCall.expects ⟨point, some called⟩ w.stage = some .up →
        w.stage = .seen) := by
  constructor
  · exact fun h => h _ rfl
  · intro h p hp
    obtain rfl : PollCall.mk point (some called) = p := Option.some.inj hp
    exact h

/-- A poll that reconciles and reports the VM as it should falls aside. -/
theorem aside_of_reported {stage : Stage} {reg : Registry} {names : List String} {a : Answer}
    {now : UInt64} (h : RecordAt vmId name stage reg)
    (hlisted : stage = .seen → ∃ r, reg.lookup vmId = some r ∧ r.vmName ∈ names)
    (hreport : ∀ state ∈ PollCall.expects ⟨.pollReport, some stage⟩
      (stage.after vmId name a (.pollReconcile names)),
      Reported now (reconcile a.queries names reg) vmId state) :
    (if stage = .awaited then name ∈ names else SparesOrFinds vmId reg names a.queries) ∧
      (stage ≠ .awaited → stage.after vmId name a (.pollReconcile names) = .seen) := by
  cases stage with
  | awaited =>
    obtain ⟨r, hr, -, rfl⟩ := h
    obtain ⟨r', hr', hwaits⟩ := reported_iff.mp (hreport .waitForLaunch rfl)
    refine ⟨?_, fun hne => absurd rfl hne⟩
    rw [if_pos rfl]
    by_contra hnot
    obtain ⟨hup, -⟩ := (lookup_reconcile_of_dropped hr hnot).2 r' hr'
    simp [hwaits] at hup
  | arrived =>
    obtain ⟨r, hr, hwaits, rfl⟩ := h
    obtain ⟨r', hr', hup⟩ := reported_iff.mp (hreport .up rfl)
    have hdropped : r.vmName ∉ names := by
      -- listed, it would stay as it is
      intro hmem
      have hsame := lookup_reconcile_of_listed (q := a.queries) hr hmem
      rw [Option.some.inj (hr'.symm.trans hsame), hwaits] at hup
      cases hup
    have hmem : vmId ∈ reconcile a.queries names reg := AList.lookup_isSome.mp (by simp [hr'])
    have hfound := (lookup_reconcile_of_dropped hr hdropped).1.mp hmem
    exact ⟨.inr hfound, fun _ => if_pos ⟨hdropped, hfound⟩⟩
  | seen => exact ⟨.inl (hlisted rfl), fun _ => rfl⟩

/-- A poll whose list works reports the VM as it should only if its reconciliation falls aside. -/
theorem aside_of_reports_listed (h : w.Between vmId name) (hworks : listing.works = true)
    (hreports : AllSteps (incomingStep v vmId name) (ReportsStage vmId) w
      (WholeEvent.poll listing reconciling reporting).events) :
    AllSteps (incomingStep v vmId name) (PolledAside vmId name) w
      (WholeEvent.poll listing reconciling reporting).events := by
  rw [allSteps_listed _ _ _ _ _ h.polls hworks] at hreports ⊢
  obtain ⟨-, -, -, hreport⟩ := hreports
  rw [reports_under, w.reconciled_stage, w.reconciled_registry] at hreport
  obtain ⟨haside, hseen⟩ := aside_of_reported h.record h.listed (hreport rfl)
  refine ⟨trivial, ?_, ?_, ?_⟩
  · rw [aside_under]
    exact ⟨nofun, nofun⟩
  · rw [aside_under]
    refine ⟨fun names hnames => ?_, nofun⟩
    obtain rfl := Task.pollReconcile.inj hnames
    exact haside
  · rw [aside_under, w.reconciled_stage]
    refine ⟨nofun, fun _ hexpects => hseen fun hstage => ?_⟩
    rw [hstage] at hexpects
    simp [PollCall.expects, Stage.after] at hexpects

/-- A poll whose list fails reports the record as it is. -/
theorem aside_of_reports_unlisted (h : w.Between vmId name) (hworks : listing.works = false)
    (hreports : AllSteps (incomingStep v vmId name) (ReportsStage vmId) w
      (WholeEvent.poll listing reconciling reporting).events) :
    AllSteps (incomingStep v vmId name) (PolledAside vmId name) w
      (WholeEvent.poll listing reconciling reporting).events := by
  rw [allSteps_unlisted _ _ _ _ _ h.polls hworks] at hreports ⊢
  have hreport := reports_under.mp hreports.2.2 rfl
  have hrecord := h.record
  refine ⟨trivial, aside_under.mpr ⟨nofun, nofun⟩, aside_under.mpr ⟨nofun, fun _ hexpects => ?_⟩⟩
  obtain ⟨r', hr', hup⟩ := reported_iff.mp (hreport .up hexpects)
  cases hstage : w.stage with
  | awaited =>
    rw [hstage] at hexpects
    simp [PollCall.expects] at hexpects
  | arrived =>
    rw [hstage] at hrecord
    obtain ⟨r, hr, hwaits, -⟩ := hrecord
    rw [Option.some.inj (hr'.symm.trans hr), hwaits] at hup
    cases hup
  | seen => rfl

/-- A whole poll that falls aside, or the hand-over, leaves a record that the next one finds. -/
theorem between_events {e : WholeEvent} (h : w.Between vmId name)
    (haside : AllSteps (incomingStep v vmId name) (PolledAside vmId name) w e.events)
    (hrun : run (incomingStep v vmId name) w e.events = some w') : w'.Between vmId name := by
  cases e with
  | handOver =>
    obtain ⟨w₁, hstep, hrest⟩ := run_cons hrun
    obtain rfl := Option.some.inj hrest
    rw [incomingStep] at hstep
    split_ifs at hstep with hstage
    obtain ⟨t, -, rfl⟩ := Option.map_eq_some_iff.mp hstep
    have hrecord := h.record
    rw [hstage] at hrecord
    exact ⟨h.polls, hrecord, nofun⟩
  | poll listing reconciling reporting =>
    cases hworks : listing.works with
    | false =>
      obtain ⟨w₁, hw₁, hpolls, htable, hregistry, hstage⟩ :=
        run_unlisted v vmId name reconciling reporting h.polls hworks
      obtain rfl := Option.some.inj (hw₁.symm.trans hrun)
      exact ⟨hpolls, by rw [hregistry, hstage]; exact h.record,
        by rw [hregistry, hstage, htable]; exact h.listed⟩
    | true =>
      obtain ⟨w₁, hw₁, hpolls, htable, hregistry, hstage⟩ :=
        run_listed v vmId name reconciling reporting h.polls hworks
      obtain rfl := Option.some.inj (hw₁.symm.trans hrun)
      rw [allSteps_listed _ _ _ _ _ h.polls hworks] at haside
      have hreconcile := (aside_under.mp haside.2.2.1).1 _ rfl
      refine ⟨hpolls, ?_, ?_⟩
      · rw [hregistry, hstage, w.reconciled_stage, w.reconciled_registry]
        exact recordAt_reconcile h.record hreconcile
      · rw [hregistry, hstage, htable]
        exact listed_reconciled h

/-- Whole polls report the VM as they should exactly when they fall aside. -/
theorem reports_events_iff {e : WholeEvent} (h : w.Between vmId name) :
    AllSteps (incomingStep v vmId name) (ReportsStage vmId) w e.events ↔
      AllSteps (incomingStep v vmId name) (PolledAside vmId name) w e.events := by
  constructor
  · intro hreports
    cases e with
    | handOver => exact ⟨trivial, fun _ _ => trivial⟩
    | poll listing reconciling reporting =>
      cases hworks : listing.works with
      | true => exact aside_of_reports_listed h hworks hreports
      | false => exact aside_of_reports_unlisted h hworks hreports
  · have hsound : w.Sound vmId name := ⟨h.record, by simp [h.polls]⟩
    exact allSteps_of_sound hsound

end Exact

/-! ## The announcement -/

/-- The announcement records the VM, whatever was recorded before. -/
theorem recordAt_migrationCreate (v : Virsh) (a : Answer) (vmId : String) (params : Value) (c : Core) :
    RecordAt vmId (DomainSpec.fromVmParams vmId params).name .awaited
      (vmMigrationCreate v a vmId params c).registry := by
  generalize hspec : DomainSpec.fromVmParams vmId params = spec
  have hentry : (vmMigrationCreate v a vmId params c).registry.lookup vmId
      = some ⟨vmId, spec.name, spec.memMb, spec.vcpus, .waitForLaunch, a.now⟩ := by
    rw [vmMigrationCreate, hspec]
    exact AList.lookup_insert _
  exact ⟨_, hentry, rfl, rfl⟩

/-- The polls that are under way when the VM is announced. -/
def earlier (points : List Task) : List PollCall := points.map (⟨·, none⟩)

/-- Incoming migrations. After `VM.migrationCreate`, whatever was recorded before, with any polls under
way and in every interleaving of them, of later polls and of the hand-over: every poll after the
announcement that reports before the hand-over reports the VM as `WaitForLaunch`, and every poll after
the hand-over as `Up`, if the reconciliations fall aside. Of polls that nothing interrupts, no others
report so. -/
theorem migration_reported_iff (v : Virsh) (a : Answer) (vmId : String) (params : Value) (c : Core) :
    let name := (DomainSpec.fromVmParams vmId params).name
    let announced := vmMigrationCreate v a vmId params c
    (∀ points es, (∀ t ∈ points, t.IsPoll) →
        AllSteps (incomingStep v vmId name) (PolledAside vmId name)
          ⟨announced, earlier points, .awaited⟩ es →
        AllSteps (incomingStep v vmId name) (ReportsStage vmId)
          ⟨announced, earlier points, .awaited⟩ es) ∧
      ∀ es : List WholeEvent,
        AllSteps (incomingStep v vmId name) (ReportsStage vmId) ⟨announced, [], .awaited⟩
            (es.flatMap WholeEvent.events) ↔
          AllSteps (incomingStep v vmId name) (PolledAside vmId name) ⟨announced, [], .awaited⟩
            (es.flatMap WholeEvent.events) := by
  have hrecord := recordAt_migrationCreate v a vmId params c
  refine ⟨fun points es hpoints => allSteps_of_sound ⟨hrecord, fun p hp => ?_⟩, fun es => ?_⟩
  · obtain ⟨t, ht, rfl⟩ := List.mem_map.mp hp
    exact hpoints t ht
  · generalize (DomainSpec.fromVmParams vmId params).name = name at hrecord ⊢
    have hbetween : Incoming.Between vmId name ⟨vmMigrationCreate v a vmId params c, [], .awaited⟩ :=
      ⟨rfl, hrecord, nofun⟩
    have hiff : ∀ w (e : WholeEvent), Incoming.Between vmId name w →
        (AllSteps (incomingStep v vmId name) (ReportsStage vmId) w e.events ↔
          AllSteps (incomingStep v vmId name) (PolledAside vmId name) w e.events) :=
      fun _ _ hs => reports_events_iff hs
    have hkept : ∀ w (e : WholeEvent) w', Incoming.Between vmId name w →
        AllSteps (incomingStep v vmId name) (PolledAside vmId name) w e.events →
        run (incomingStep v vmId name) w e.events = some w' → w'.Between vmId name :=
      fun _ _ _ hs he hrun => between_events hs he hrun
    exact allSteps_flatMap_congr hiff hkept hbetween es

/-- A command that fails without effect. -/
def fails : Answer := { works with works := false, stderr := "error: Timed out" }

/-- The VM is announced on an idle host. -/
def announced : Core := vmMigrationCreate sampleVirsh works sampleId sampleParams idleWorld.core

/-- A poll that listed the name before the announcement reconciles after it, between the listing and
the report of a later one. -/
theorem migration_reported_overlapping :
    let es : List IncomingEvent :=
      [.poll, .advance 1 fails, .advance 0 works, .advance 0 works, .handOver]
    let w : Incoming := ⟨announced, earlier [.pollReconcile ["vm"]], .awaited⟩
    (run (incomingStep sampleVirsh sampleId "vm") w es).isSome = true ∧
      AllSteps (incomingStep sampleVirsh sampleId "vm") (ReportsStage sampleId) w es := by
  refine ⟨by decide, ?_⟩
  refine (migration_reported_iff sampleVirsh works sampleId sampleParams idleWorld.core).1
    [.pollReconcile ["vm"]] _ (by simp [Task.IsPoll]) ⟨trivial, fun w hw => ?_⟩
  obtain rfl := Option.some.inj hw
  -- the list of the later poll fails
  refine ⟨fun p hp => ?_, fun w hw => ?_⟩
  · obtain rfl := Option.some.inj hp
    exact ⟨nofun, nofun⟩
  obtain rfl := Option.some.inj hw
  -- the earlier one reconciles with a list that has the name
  refine ⟨fun p hp => ?_, fun w hw => ?_⟩
  · obtain rfl := Option.some.inj hp
    refine ⟨fun names hnames => ?_, nofun⟩
    obtain rfl := Task.pollReconcile.inj hnames
    exact List.mem_singleton.mpr rfl
  obtain rfl := Option.some.inj hw
  refine ⟨fun p hp => ?_, fun w hw => ?_⟩
  · obtain rfl := Option.some.inj hp
    exact ⟨nofun, nofun⟩
  exact ⟨trivial, fun _ _ => trivial⟩

/-- `virsh` answers that every domain has the one id. -/
def worksFor (uuid : String) : Answer :=
  { works with queries := ⟨fun _ => some (uuid ++ "\n\n"), fun _ => none, fun _ => 0⟩ }

/-- A poll from its call to its reconciliation. -/
def uninterrupted : List IncomingEvent :=
  [.poll, .advance 0 (worksFor sampleId), .advance 0 (worksFor sampleId)]

/-- It is polled before the hand-over. -/
def polledEarly : Incoming :=
  (run (incomingStep sampleVirsh sampleId "vm") ⟨announced, [], .awaited⟩ uninterrupted).getD
    ⟨announced, [], .awaited⟩

/-- It is polled only after the hand-over. -/
def polledLate : Incoming :=
  (run (incomingStep sampleVirsh sampleId "vm") ⟨announced, [], .awaited⟩
    (.handOver :: uninterrupted)).getD ⟨announced, [], .awaited⟩

/-- Polled before the hand-over the VM is gone; polled only after it, it still waits for launch. -/
theorem migration_misreported :
    (DomainSpec.fromVmParams sampleId sampleParams).name = "vm" ∧
      ¬ AllSteps (incomingStep sampleVirsh sampleId "vm") (ReportsStage sampleId)
        ⟨announced, [], .awaited⟩ (uninterrupted ++ [.advance 0 works]) ∧
      ¬ AllSteps (incomingStep sampleVirsh sampleId "vm") (ReportsStage sampleId)
        ⟨announced, [], .awaited⟩ ((.handOver :: uninterrupted) ++ [.advance 0 works]) := by
  refine ⟨by decide, fun hreports => ?_, fun hreports => ?_⟩
  · have hrun : run (incomingStep sampleVirsh sampleId "vm") ⟨announced, [], .awaited⟩ uninterrupted
        = some polledEarly := rfl
    have hreport := ((allSteps_append.mp hreports).2 _ hrun).1 ⟨.pollReport, some .awaited⟩ rfl rfl
    obtain ⟨r, hr, -⟩ := reported_iff.mp (hreport .waitForLaunch rfl)
    have hgone : polledEarly.core.registry.lookup sampleId = none := by decide
    simp [hgone] at hr
  · have hrun : run (incomingStep sampleVirsh sampleId "vm") ⟨announced, [], .awaited⟩
        (.handOver :: uninterrupted) = some polledLate := rfl
    have hreport := ((allSteps_append.mp hreports).2 _ hrun).1 ⟨.pollReport, some .arrived⟩ rfl rfl
    obtain ⟨r, hr, hup⟩ := reported_iff.mp (hreport .up rfl)
    have hwaits : (polledLate.core.registry.lookup sampleId).map VmRecord.state
        = some .waitForLaunch := by decide
    simp [hr, hup] at hwaits

end Vdsm.Virt
