import Vdsm.Virt.Migration

/-!
# One record for each VM

`reconcile` keeps records by name and adds records by uuid. After a poll without interference every
running domain has a record under its uuid, but a record whose name went over to another domain stays
beside it. `reconciled_exact` says exactly which registries a poll leaves exact, and that a host on
which every name belongs to one id has only such registries.
-/

namespace Vdsm.Virt

open Rust Transition

/-- The ids are the uuids of the running domains, and no name occurs twice. -/
structure Exact (t : Table) (reg : Registry) : Prop where
  ids : ∀ key, key ∈ reg ↔ ∃ d ∈ t, d.status = .running ∧ d.uuid = key
  names : ∀ key key' r r', reg.lookup key = some r → reg.lookup key' = some r' →
    r.vmName = r'.vmName → key = key'

/-- `domuuid` answers for every running domain. -/
def Queries.Answers (q : Queries) (t : Table) : Prop :=
  ∀ d ∈ t, d.status = .running → q.Finds d.name d.uuid

/-- A record whose name is running. -/
def KeptAt (t : Table) (reg : Registry) (key : String) (r : VmRecord) : Prop :=
  reg.lookup key = some r ∧ t.Runs r.vmName

/-- The records whose names are running have ids of running domains, one record for each name, and the
running domains of these names are among them. -/
structure NoStale (t : Table) (reg : Registry) : Prop where
  id_runs : ∀ key r, KeptAt t reg key r → ∃ d ∈ t, d.status = .running ∧ d.uuid = key
  name_once : ∀ key key' r r', KeptAt t reg key r → KeptAt t reg key' r' →
    r.vmName = r'.vmName → key = key'
  name_known : ∀ key r, KeptAt t reg key r → ∀ d ∈ t, d.status = .running → d.name = r.vmName →
    ∃ r', KeptAt t reg d.uuid r'

/-- The queries find one id for a name. -/
theorem Queries.Finds.unique {q : Queries} {name u u' : String} (h : q.Finds name u)
    (h' : q.Finds name u') : u = u' := by
  obtain ⟨out, hout, rfl, -⟩ := h
  obtain ⟨out', hout', rfl, -⟩ := h'
  rw [hout] at hout'
  rw [Option.some.inj hout']

/-! ## The registry after a poll -/

section Poll

variable {t : Table} {q : Queries} {out : String} {reg : Registry}

/-- A name runs if a running domain has it. -/
theorem runs_iff {n : String} : t.Runs n ↔ ∃ d ∈ t, d.status = .running ∧ d.name = n := by
  constructor
  · rintro ⟨d, hd, hname, hrun⟩
    exact ⟨d, hd, hrun, hname⟩
  · rintro ⟨d, hd, hrun, hname⟩
    exact ⟨d, hd, hname, hrun⟩

/-- A name that is running leads to its domain only. -/
theorem finds_iff (hq : q.Answers t) {n key : String} :
    t.Runs n ∧ q.Finds n key ↔ ∃ d ∈ t, d.status = .running ∧ d.name = n ∧ d.uuid = key := by
  constructor
  · rintro ⟨hruns, hfinds⟩
    obtain ⟨d, hd, hrun, rfl⟩ := runs_iff.mp hruns
    exact ⟨d, hd, hrun, rfl, (hq d hd hrun).unique hfinds⟩
  · rintro ⟨d, hd, hrun, rfl, rfl⟩
    exact ⟨runs_iff.mpr ⟨d, hd, hrun, rfl⟩, hq d hd hrun⟩

/-- What the poll retains are the records of names that are listed. -/
theorem lookup_retain_listed (hout : Lists t out) {key : String} {r : VmRecord} :
    (reg.retain fun _ r => (listedNames out).contains r.vmName).lookup key = some r ↔
      KeptAt t reg key r := by
  rw [HashMap.lookup_retain, Option.filter_eq_some_iff, KeptAt, ← hout]
  simp

/-- So the ids that are retained are those of such records. -/
theorem mem_retain_listed (hout : Lists t out) {key : String} :
    (key ∈ reg.retain fun _ r => (listedNames out).contains r.vmName) ↔ ∃ r, KeptAt t reg key r := by
  rw [← AList.lookup_isSome, Option.isSome_iff_exists]
  exact exists_congr fun r => lookup_retain_listed hout

/-- After a poll an id is registered if its record was kept or a running domain has it. -/
theorem mem_poll (hout : Lists t out) (hq : q.Answers t) {key : String} :
    key ∈ reconcileFromLibvirt q (some out) reg ↔
      (∃ r, KeptAt t reg key r) ∨ ∃ d ∈ t, d.status = .running ∧ d.uuid = key := by
  rw [reconcileFromLibvirt, reconcile, mem_foldl_importDomain, mem_retain_listed hout]
  refine or_congr_right ?_
  constructor
  · rintro ⟨n, hn, hfinds⟩
    obtain ⟨d, hd, hrun, -, hkey⟩ := (finds_iff hq).mp ⟨(hout n).mp hn, hfinds⟩
    exact ⟨d, hd, hrun, hkey⟩
  · rintro ⟨d, hd, hrun, hkey⟩
    obtain ⟨hruns, hfinds⟩ := (finds_iff hq).mpr ⟨d, hd, hrun, rfl, hkey⟩
    exact ⟨d.name, (hout _).mpr hruns, hfinds⟩

/-- A record after a poll is a kept one, or the one of a running domain whose uuid none had. -/
theorem lookup_poll_cases (hout : Lists t out) (hq : q.Answers t) {key : String} {r : VmRecord}
    (h : (reconcileFromLibvirt q (some out) reg).lookup key = some r) :
    KeptAt t reg key r ∨ ((¬ ∃ r', KeptAt t reg key r') ∧
      ∃ d ∈ t, d.status = .running ∧ d.name = r.vmName ∧ d.uuid = key) := by
  rcases lookup_foldl_importDomain_cases h with hold | ⟨hnew, hname, himports⟩
  · exact .inl ((lookup_retain_listed hout).mp hold)
  · refine .inr ⟨fun hkept => hnew ((mem_retain_listed hout).mpr hkept), ?_⟩
    exact (finds_iff hq).mp ⟨(hout _).mp hname, himports.found⟩

/-- A record that is kept is not changed. -/
theorem lookup_poll_of_keptAt (hout : Lists t out) {key : String} {r : VmRecord}
    (h : KeptAt t reg key r) : (reconcileFromLibvirt q (some out) reg).lookup key = some r :=
  lookup_reconcile_of_listed h.1 ((hout _).mpr h.2)

/-- A poll without interference leaves the registry exact, exactly when no record is stale. -/
theorem exact_poll_iff (hout : Lists t out) (hq : q.Answers t) :
    Exact t (reconcileFromLibvirt q (some out) reg) ↔ NoStale t reg := by
  constructor
  · intro h
    refine ⟨fun key r hkept => ?_, fun key key' r r' hkept hkept' hname => ?_,
      fun key r hkept d hd hrun hname => ?_⟩
    · exact (h.ids key).mp ((mem_poll hout hq).mpr (.inl ⟨r, hkept⟩))
    · exact h.names key key' r r' (lookup_poll_of_keptAt hout hkept)
        (lookup_poll_of_keptAt hout hkept') hname
    · have hmem := (h.ids d.uuid).mpr ⟨d, hd, hrun, rfl⟩
      obtain ⟨r', hr'⟩ := Option.isSome_iff_exists.mp (AList.lookup_isSome.mpr hmem)
      rcases lookup_poll_cases hout hq hr' with hkept' | ⟨-, e, he, -, hname', huuid⟩
      · exact ⟨r', hkept'⟩
      · -- a new record has the name of the kept one, so it is not new
        obtain rfl := Table.eq_of_uuid he hd huuid
        have hkey := h.names _ _ r r' (lookup_poll_of_keptAt hout hkept) hr' (hname ▸ hname')
        exact ⟨r, hkey ▸ hkept⟩
  · intro h
    refine ⟨fun key => ?_, fun key key' r r' hr hr' hname => ?_⟩
    · rw [mem_poll hout hq]
      refine or_iff_right_of_imp ?_
      rintro ⟨r, hkept⟩
      exact h.id_runs key r hkept
    · rcases lookup_poll_cases hout hq hr with hkept | ⟨hnone, d, hd, hrun, hd_name, rfl⟩ <;>
        rcases lookup_poll_cases hout hq hr' with hkept' | ⟨hnone', e, he, hrun', he_name, rfl⟩
      · exact h.name_once key key' r r' hkept hkept' hname
      · exact absurd (h.name_known key r hkept e he hrun' (he_name.trans hname.symm)) hnone'
      · exact absurd (h.name_known key' r' hkept' d hd hrun (hd_name.trans hname)) hnone
      · rw [Table.eq_of_name hd he (by rw [hd_name, he_name, hname])]

end Poll

/-! ## Histories -/

/-- What a task is about to record. -/
def Task.records : Task → Option (String × DomainSpec)
  | createInsert vmId spec => some (vmId, spec)
  | migrationInsert vmId spec => some (vmId, spec)
  | _ => none

/-- What holds of all records, whatever their state, holds of them after a task if it holds of the one
it records and of those that a reconciliation imports. -/
theorem exec_forall {P : String → VmRecord → Prop} {v : Virsh} {a : Answer} {task : Task} {c : Core}
    (h : HashMap.Forall P c.registry) (hstate : ∀ key r s, P key r → P key { r with state := s })
    (hrecords : ∀ vmId spec, task.records = some (vmId, spec) →
      ∀ s, P vmId ⟨vmId, spec.name, spec.memMb, spec.vcpus, s, a.now⟩)
    (himports : ∀ key r, a.queries.Imports key r → P key r) :
    HashMap.Forall P (exec v a task c).1.registry := by
  cases task with
  | createInsert vmId spec => exact h.insert (hrecords vmId spec rfl _)
  | migrationInsert vmId spec => exact h.insert (hrecords vmId spec rfl _)
  | destroyRemove vmId => exact h.erase vmId
  | shutdownMark vmId name armed => exact h.modify vmId fun key r => hstate key r _
  | watchdogMark vmId => exact h.modify vmId fun key r => hstate key r _
  | toggleMark verb vmId => exact h.modify vmId fun key r => hstate key r _
  | pollReconcile names =>
    intro key r hr
    rcases (lookup_reconcile_cases hr).2 with hold | ⟨-, himp⟩
    · exact h key r hold
    · exact himports key r himp
  | _ =>
    -- the rest leaves the registry
    simp only [exec]
    repeat' split
    all_goals exact h

/-- Every record has the id that its name belongs to. -/
def Owned (owner : String → String) (reg : Registry) : Prop :=
  ∀ key r, reg.lookup key = some r → key = owner r.vmName

/-- What a task is going to record has that id, too. -/
def Task.Owned (owner : String → String) : Task → Prop
  | createDefine vmId spec => vmId = owner spec.name
  | createStart vmId spec => vmId = owner spec.name
  | createInsert vmId spec => vmId = owner spec.name
  | migrationInsert vmId spec => vmId = owner spec.name
  | _ => True

/-- VMs are created and announced under a name that belongs to their id, and `domuuid` finds that id
under the name. -/
def Label.Owned (owner : String → String) : Label → Prop
  | call verb params => verb = .create ∨ verb = .migrationCreate → ∀ vmId, vmIdFrom params = .ok vmId →
      vmId = owner (DomainSpec.fromVmParams vmId params).name
  | advance _ a => ∀ n u, a.queries.Finds n u → u = owner n
  | _ => True

section Histories

variable {owner : String → String}

/-- A task that is going to register a name does it for its owner. -/
theorem Task.Owned.of_records {task : Task} (h : task.Owned owner) {vmId : String}
    {spec : DomainSpec} (hrecords : task.records = some (vmId, spec)) : vmId = owner spec.name := by
  cases task with
  | createInsert _ _ | migrationInsert _ _ =>
    obtain ⟨rfl, rfl⟩ := Prod.mk.inj (Option.some.inj hrecords)
    exact h
  | _ => simp [Task.records] at hrecords

/-- A create keeps its id and its spec from one point to the next. -/
theorem exec_tasks_owned {v : Virsh} {a : Answer} {task : Task} {c : Core}
    (htask : task.Owned owner) : ∀ t ∈ (exec v a task c).2, t.Owned owner := by
  cases task with
  | createDefine vmId spec | createStart vmId spec =>
    simp only [exec]
    split
    · simpa [Task.Owned] using htask
    · simp
  | _ =>
    simp only [exec]
    repeat' split
    all_goals simp [Task.Owned]

/-- A turn of a task registers nothing for anyone but the owner. -/
theorem exec_owned {v : Virsh} {a : Answer} {task : Task} {c : Core} (h : Owned owner c.registry)
    (htask : task.Owned owner) (ha : ∀ n u, a.queries.Finds n u → u = owner n) :
    Owned owner (exec v a task c).1.registry ∧ ∀ t ∈ (exec v a task c).2, t.Owned owner := by
  refine ⟨exec_forall (P := fun key r => key = owner r.vmName) h (fun _ _ _ hr => hr)
    (fun _ _ hrecords _ => htask.of_records hrecords) (fun key r himp => ha _ _ himp.found), ?_⟩
  exact exec_tasks_owned htask

/-- Every record, and every one to come, has the id that its name belongs to. -/
def AllOwned (owner : String → String) (w : World) : Prop :=
  Owned owner w.core.registry ∧ ∀ task ∈ w.tasks, task.Owned owner

/-- Nor does a call. -/
theorem call_owned {verb : Verb} {params : Value} {c : Core} (h : Owned owner c.registry)
    (hl : (Label.call verb params).Owned owner) :
    Owned owner (call verb params c).1.registry ∧ ∀ t ∈ (call verb params c).2, t.Owned owner := by
  rw [call]
  split
  · exact ⟨h, by simp [Task.Owned]⟩
  · split
    · exact ⟨h, by simp⟩
    · rename_i vmId hid
      have hname := fun hverb => hl hverb vmId hid
      cases verb with
      | create => exact ⟨h, by simpa [Task.Owned] using hname (.inl rfl)⟩
      | migrationCreate => exact ⟨h, by simpa [Task.Owned] using hname (.inr rfl)⟩
      | migrate =>
        dsimp only
        split
        · exact ⟨h, by simp⟩
        · exact ⟨h, by simp [Task.Owned]⟩
      | _ => exact ⟨h, by simp [Task.Owned]⟩

/-- So every step keeps names with their owners. -/
theorem allOwned_step {v : Virsh} {w w' : World} {l : Label} (h : AllOwned owner w)
    (hl : l.Owned owner) (hstep : step v w l = some w') : AllOwned owner w' := by
  cases l with
  | call verb params =>
    obtain rfl := Option.some.inj hstep
    obtain ⟨hreg, hnew⟩ := call_owned h.1 hl
    exact ⟨hreg, fun t ht => (List.mem_append.mp ht).elim (h.2 t) (hnew t)⟩
  | advance i a =>
    obtain ⟨task, htask, rfl⟩ := step_advance hstep
    obtain ⟨hreg, hnew⟩ := exec_owned (v := v) h.1 (h.2 task (List.mem_of_getElem? htask)) hl
    refine ⟨hreg, fun t ht => ?_⟩
    exact (List.mem_append.mp ht).elim (fun hold => h.2 t (List.mem_of_mem_eraseIdx hold)) (hnew t)
  | powerOff uuid =>
    obtain ⟨t, -, rfl⟩ := Option.map_eq_some_iff.mp hstep
    exact h
  | handOver name uuid =>
    obtain ⟨t, -, rfl⟩ := Option.map_eq_some_iff.mp hstep
    exact h

/-- Where every name belongs to one id, no record is stale. -/
theorem Owned.noStale {reg : Registry} (h : Owned owner reg) {t : Table}
    (ht : ∀ d ∈ t, d.status = .running → d.uuid = owner d.name) : NoStale t reg := by
  refine ⟨fun key r hkept => ?_, fun key key' r r' hkept hkept' hname => ?_,
    fun key r hkept d hd hrun hname => ?_⟩
  · obtain ⟨d, hd, hrun, hname⟩ := runs_iff.mp hkept.2
    exact ⟨d, hd, hrun, by rw [ht d hd hrun, hname, h key r hkept.1]⟩
  · rw [h key r hkept.1, h key' r' hkept'.1, hname]
  · have hkey : d.uuid = key := by rw [ht d hd hrun, hname, h key r hkept.1]
    exact ⟨r, hkey ▸ hkept⟩

end Histories

/-- A host on which `vdsmd` has just been started. -/
structure World.Fresh (w : World) : Prop where
  no_tasks : w.tasks = []
  no_records : w.core.registry = ∅

/-- One record for each VM, under its own id. In every state that a run of the verbs reaches, and for
every set of running domains: a poll during which all queries succeed and no domain changes leaves
exactly the running domains, each name once, exactly when no record is stale. A run in which every name
belongs to one id has no stale records. -/
theorem reconciled_exact (v : Virsh) (w w' : World) (labels : List Label) (h0 : w.Fresh)
    (hrun : run (step v) w labels = some w') :
    (∀ t q out, Lists t out → q.Answers t →
        (Exact t (reconcileFromLibvirt q (some out) w'.core.registry) ↔
          NoStale t w'.core.registry)) ∧
      ∀ owner, (∀ l ∈ labels, l.Owned owner) →
        ∀ t q out, Lists t out → q.Answers t →
          (∀ d ∈ t, d.status = .running → d.uuid = owner d.name) →
          Exact t (reconcileFromLibvirt q (some out) w'.core.registry) := by
  refine ⟨fun t q out hout hq => exact_poll_iff hout hq, fun owner hlabels t q out hout hq ht => ?_⟩
  have hinit : AllOwned owner w := by
    simp [AllOwned, Owned, h0.no_tasks, h0.no_records]
  have hsteps : AllSteps (step v) (fun _ l => l.Owned owner) w labels := allSteps_of_forall hlabels
  have howned : AllOwned owner w' :=
    run_invariant (fun _ _ _ hs hl hstep => allOwned_step hs hl hstep) hinit hsteps hrun
  exact (exact_poll_iff hout hq).mpr (howned.1.noStale ht)

/-- Nothing is registered and nothing under way at the start. -/
theorem idleWorld_fresh : idleWorld.Fresh := ⟨rfl, rfl⟩

/-- A create, from its call to its reply. -/
def createLabels (params : Value) : List Label :=
  [.call .create params, .advance 0 works, .advance 0 works, .advance 0 works]

def createdWorld : World :=
  (run (step sampleVirsh) idleWorld (createLabels sampleParams)).getD idleWorld

/-- `domuuid` answers for a host whose only domain is `vm`. -/
theorem worksFor_answers {t : Table} {uuid : String} {n : ℕ}
    (ht : t.domains = [⟨"vm", uuid, .running, n, true⟩]) (htrim : trim (uuid ++ "\n\n") = uuid)
    (hne : uuid ≠ "") : (worksFor uuid).queries.Answers t := by
  intro d hd hrun
  obtain rfl : d = ⟨"vm", uuid, .running, n, true⟩ := by
    simpa [ht] using (show d ∈ t.domains from hd)
  exact ⟨_, rfl, htrim, hne⟩

/-- After one VM was created the registry is exact. -/
theorem reconciled_exact_created :
    run (step sampleVirsh) idleWorld (createLabels sampleParams) = some createdWorld ∧
      Exact vmTable (reconcileFromLibvirt (worksFor sampleId).queries (some "vm\n\n")
        createdWorld.core.registry) := by
  have hrun := run_eq_getD idleWorld (createLabels sampleParams) (by decide)
  have hnone : ∀ i, (Label.advance i works).Owned fun _ => sampleId := by
    rintro i n u ⟨out, hout, -, -⟩
    simp [works] at hout
  refine ⟨hrun, (reconciled_exact sampleVirsh idleWorld createdWorld _ idleWorld_fresh hrun).2
    (fun _ => sampleId) ?_ vmTable _ _ vmTable_lists (worksFor_answers rfl (by decide) (by decide)) ?_⟩
  · intro l hl
    rcases (by simpa [createLabels] using hl) with rfl | rfl
    · intro _ vmId hid
      have hsample : vmIdFrom sampleParams = .ok sampleId := rfl
      rw [hsample] at hid
      exact (Except.ok.inj hid).symm
    · exact hnone 0
  · intro d hd _
    obtain rfl : d = ⟨"vm", sampleId, .running, 1, true⟩ := List.mem_singleton.mp hd
    rfl

def otherId : String := "0c3f7a8e-1d2b-4e5f-8a9b-7c6d5e4f3a2b"

/-- Create a VM, migrate it away and create another one under its name. -/
def reusedRun : List Label :=
  createLabels sampleParams ++
    [.call .migrate (.object [("vmID", .string sampleId), ("dst", .string "host2")]),
      .advance 0 works] ++
    createLabels (.object [("vmID", .string otherId), ("vmParams", .object [("vmName", .string "vm")])])

def reusedWorld : World := (run (step sampleVirsh) idleWorld reusedRun).getD idleWorld

/-- The poll then keeps the VM that has left, beside the one that runs. -/
theorem migrated_vm_kept :
    run (step sampleVirsh) idleWorld reusedRun = some reusedWorld ∧
      Lists reusedWorld.core.table "vm\n\n" ∧
      (worksFor otherId).queries.Answers reusedWorld.core.table ∧
      ¬ Exact reusedWorld.core.table (reconcileFromLibvirt (worksFor otherId).queries
        (some "vm\n\n") reusedWorld.core.registry) := by
  have hdomains : reusedWorld.core.table.domains = [⟨"vm", otherId, .running, 2, true⟩] := by decide
  refine ⟨run_eq_getD idleWorld _ (by decide), lists_vm hdomains,
    worksFor_answers hdomains (by decide) (by decide), fun hexact => ?_⟩
  have hkept : sampleId ∈ reconcileFromLibvirt (worksFor otherId).queries (some "vm\n\n")
      reusedWorld.core.registry := by decide
  obtain ⟨d, hd, -, huuid⟩ := (hexact.ids sampleId).mp hkept
  obtain rfl : d = ⟨"vm", otherId, .running, 2, true⟩ := by
    simpa [hdomains] using (show d ∈ reusedWorld.core.table.domains from hd)
  exact absurd huuid (by decide)

end Vdsm.Virt
