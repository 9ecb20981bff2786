import Vdsm.Virt.Watchdog

/-!
# Registry and libvirt

Two views of the same VMs: what the verbs recorded and what libvirt runs. `reconcile` drops every
record whose name was not listed, and what was listed are the domains running at the time of the list.

A poll that listed before a domain was started and reconciles after its record was inserted drops the
record; `registration_kept` says that this is the only way. A paused domain is not listed, so the
first poll after a pause drops the record; `reconcile_drops` says exactly which records go.
-/

namespace Vdsm.Virt

open Rust Transition

/-! ## Listings -/

/-- A name that survives the listing: one line of it, which `trim` leaves alone. -/
structure Listable (n : String) : Prop where
  ne_empty : n ≠ ""
  one_line : '\n' ∉ n.toList
  trimmed : trim n = n

/-- Trimmed text does not end in a blank. -/
theorem getLast?_trimChars {l : List Char} {c : Char} (h : (trimChars l).getLast? = some c) :
    isWhitespace c = false := by
  rw [trimChars, List.getLast?_reverse] at h
  have hnot := List.head?_dropWhile_not isWhitespace (l.dropWhile isWhitespace).reverse
  rw [h] at hnot
  exact hnot

/-- A listable name does not end in CR, so its line is the name itself. -/
theorem Listable.stripLineCr {n : String} (h : Listable n) : stripLineCr n.toList = n.toList := by
  have htrim : trimChars n.toList = n.toList := by
    simpa [trim] using congrArg String.toList h.trimmed
  rw [Rust.stripLineCr, if_neg]
  intro hlast
  have hws := getLast?_trimChars (htrim.symm ▸ hlast)
  exact absurd hws (by decide)

/-- Complete lines in front of a text are pieces of their own. -/
theorem splitOn_lines (names : List String) (x : List Char) :
    ∃ pieces, ((names.flatMap fun n => n.toList ++ ['\n']) ++ x).splitOn '\n'
      = pieces ++ x.splitOn '\n' := by
  induction names with
  | nil => exact ⟨[], rfl⟩
  | cons n ns ih =>
    obtain ⟨pieces, hp⟩ := ih
    refine ⟨n.toList.splitOn '\n' ++ pieces, ?_⟩
    rw [List.flatMap_cons, List.append_assoc, List.append_assoc, List.singleton_append,
      List.splitOn_append_cons_self, hp, List.append_assoc]

/-- A listable name that is listed is read back. -/
theorem mem_listedNames {t : Table} {n : String} (hn : Listable n) (h : n ∈ t.runningNames) :
    n ∈ listedNames t.listRunning := by
  obtain ⟨pre, post, hsplit⟩ := List.append_of_mem h
  obtain ⟨pieces, hpieces⟩ := splitOn_lines pre
    (n.toList ++ '\n' :: ((post.flatMap fun n => n.toList ++ ['\n']) ++ ['\n']))
  have htext : t.listRunning.toList.splitOn '\n' = pieces ++ n.toList ::
      ((post.flatMap fun n => n.toList ++ ['\n']) ++ ['\n']).splitOn '\n' := by
    rw [← List.splitOn_append_cons_self_of_not_mem hn.one_line, ← hpieces, Table.listRunning,
      hsplit]
    simp
  have hline : n ∈ lines t.listRunning := by
    have hmem : n.toList ∈ (t.listRunning.toList.splitOn '\n').dropLast := by
      obtain ⟨y, ys, hy⟩ := List.exists_cons_of_ne_nil (List.splitOn_ne_nil '\n'
        ((post.flatMap fun n => n.toList ++ ['\n']) ++ ['\n']))
      rw [htext, hy, List.dropLast_append_cons]
      simp
    rw [lines]
    refine List.mem_append_left _ (List.mem_map.mpr ⟨n.toList, hmem, ?_⟩)
    rw [hn.stripLineCr, String.ofList_toList]
  rw [listedNames, List.mem_filter, List.mem_map]
  exact ⟨⟨n, hline, hn.trimmed⟩, by simpa using hn.ne_empty⟩

/-! ## Creates and polls -/

/-- A call of `VM.create` or `getAllVmStats`, a step of a task, or a guest that powers off. -/
def Label.Quiet : Label → Prop
  | call verb _ => verb = .create ∨ verb = .getAllVmStats
  | handOver _ _ => False
  | _ => True

instance : ∀ l : Label, Decidable l.Quiet
  | .call verb _ => inferInstanceAs (Decidable (verb = .create ∨ verb = .getAllVmStats))
  | .advance _ _ => isTrue trivial
  | .powerOff _ => isTrue trivial
  | .handOver _ _ => isFalse id

/-- Is a domain of this name running? -/
def Table.Runs (t : Table) (name : String) : Prop :=
  ∃ d ∈ t.domains, d.name = name ∧ d.status = .running

instance (t : Table) (name : String) : Decidable (t.Runs name) :=
  inferInstanceAs (Decidable (∃ d ∈ t.domains, d.name = name ∧ d.status = .running))

/-- The VM is defined in libvirt, to stay. -/
def Defined (v : Virsh) (t : Table) (vmId name : String) : Prop :=
  ∃ d ∈ t, d.name = name ∧ v.xmlUuid vmId = some d.uuid ∧ d.persistent = true

/-- What a task of a create or a poll has achieved; the other tasks do not occur. -/
def Task.Sound (v : Virsh) (t : Table) : Task → Prop
  | createDefine vmId spec => spec.uuid = vmId
  | createStart vmId spec => spec.uuid = vmId ∧ Defined v t vmId spec.name
  | createInsert vmId spec => spec.uuid = vmId ∧ Defined v t vmId spec.name
  | pollList => True
  | pollReconcile _ => True
  | pollReport => True
  | _ => False

/-- Persistent domains stay, under their name and uuid. -/
def Table.Keeps (t t' : Table) : Prop :=
  ∀ d ∈ t, d.persistent = true →
    ∃ d' ∈ t', d'.name = d.name ∧ d'.uuid = d.uuid ∧ d'.persistent = true

theorem Table.Keeps.refl (t : Table) : t.Keeps t := fun d hd hp => ⟨d, hd, rfl, rfl, hp⟩

/-- A change keeps them, if it leaves the domain persistent. -/
theorem Table.keeps_update {t : Table} {d : Domain} {c : Table.Change} (hd : d ∈ t)
    (hp : d.persistent = true → c.persistent = true) : t.Keeps (t.update d.uuid c) := by
  intro e he hpe
  by_cases hu : e.uuid = d.uuid
  · obtain rfl := Table.eq_of_uuid he hd hu
    exact ⟨c.apply e, (Table.mem_update hd).mpr (.inr rfl), rfl, rfl, hp hpe⟩
  · exact ⟨e, (Table.mem_update hd).mpr (.inl ⟨he, hu⟩), rfl, rfl, hpe⟩

/-- `define` keeps them. -/
theorem Table.keeps_define {v : Virsh} {t t' : Table} {name uuid : String}
    (h : t.define v name uuid = some t') : t.Keeps t' := by
  obtain ⟨u, -, ⟨d, hd, -, -, rfl⟩ | ⟨hu, hn, rfl⟩⟩ := Table.define_cases h
  · exact Table.keeps_update hd fun _ => rfl
  · exact fun d hd hp => ⟨d, List.mem_append_left _ hd, rfl, rfl, hp⟩

/-- What it defines is defined. -/
theorem Table.defined_define {v : Virsh} {t t' : Table} {name uuid : String}
    (h : t.define v name uuid = some t') : Defined v t' uuid name := by
  obtain ⟨u, hu, ⟨d, hd, rfl, hn, rfl⟩ | ⟨_, _, rfl⟩⟩ := Table.define_cases h
  · exact ⟨_, (Table.mem_update hd).mpr (.inr rfl), hn, hu, rfl⟩
  · exact ⟨_, List.mem_append_right _ (List.mem_singleton.mpr rfl), rfl, hu, rfl⟩

/-- `start` keeps them. -/
theorem Table.keeps_start {v : Virsh} {t t' : Table} {key : String} {n : ℕ}
    (h : t.start v key n = some t') : t.Keeps t' := by
  obtain ⟨new, hnew, rfl⟩ := Option.map_eq_some_iff.mp h
  obtain ⟨d, hd, -, rfl⟩ := Table.startable_cases hnew
  exact Table.keeps_update (d := d) hd fun hp => hp

/-- So does a guest that powers off. -/
theorem Table.keeps_powerOff {t t' : Table} {uuid : String} (h : t.powerOff uuid = some t') :
    t.Keeps t' := by
  obtain ⟨d, hd, -, -, rfl⟩ := Table.powerOff_cases h
  rw [Table.stop]
  split
  · exact Table.keeps_update hd fun _ => rfl
  · rename_i hp
    intro e he hpe
    have hu : e.uuid ≠ d.uuid := by
      intro hu
      obtain rfl := Table.eq_of_uuid he hd hu
      exact hp hpe
    exact ⟨e, Table.mem_remove.mpr ⟨he, hu⟩, rfl, rfl, hpe⟩

/-- What is defined stays so as long as the domains are kept. -/
theorem Defined.mono {v : Virsh} {t t' : Table} {vmId name : String} (h : Defined v t vmId name)
    (hk : t.Keeps t') : Defined v t' vmId name := by
  obtain ⟨d, hd, hn, hu, hp⟩ := h
  obtain ⟨d', hd', hn', hu', hp'⟩ := hk d hd hp
  exact ⟨d', hd', hn'.trans hn, by rw [hu, hu'], hp'⟩

/-- A VM id is defined under one name. -/
theorem Defined.name_eq {v : Virsh} {t : Table} {vmId n n' : String} (h : Defined v t vmId n)
    (h' : Defined v t vmId n') : n = n' := by
  obtain ⟨d, hd, rfl, hu, -⟩ := h
  obtain ⟨d', hd', rfl, hu', -⟩ := h'
  rw [hu] at hu'
  rw [Table.eq_of_uuid hd hd' (Option.some.inj hu')]

/-- So do the assumptions of a task. -/
theorem Task.Sound.mono {v : Virsh} {t t' : Table} {task : Task} (h : task.Sound v t)
    (hk : t.Keeps t') : task.Sound v t' := by
  cases task with
  | createStart vmId spec => exact ⟨h.1, h.2.mono hk⟩
  | createInsert vmId spec => exact ⟨h.1, h.2.mono hk⟩
  | _ => exact h

/-- What one step of a create or a poll does to the registry. -/
inductive RegistryEffect (a : Answer) (task : Task) (reg reg' : Registry) : Prop where
  | none (h : reg' = reg)
  | insert (vmId : String) (spec : DomainSpec) (r : VmRecord) (htask : task = .createInsert vmId spec)
      (hname : r.vmName = spec.name) (h : reg' = reg.insert vmId r)
  | reconcile (names : List String) (htask : task = .pollReconcile names)
      (h : reg' = Virt.reconcile a.queries names reg)

/-- Everything a step of a create or a poll can do. -/
structure QuietEffect (v : Virsh) (a : Answer) (task : Task) (c : Core) (r : Core × List Task) :
    Prop where
  keeps : c.table.Keeps r.1.table
  sound : ∀ t ∈ r.2, t.Sound v r.1.table
  registry : RegistryEffect a task c.registry r.1.registry
  listing : ∀ names, Task.pollReconcile names ∈ r.2 → names = listedNames c.table.listRunning

/-- A task drops no registration and no persistent domain. -/
theorem exec_quiet {v : Virsh} {a : Answer} {task : Task} {c : Core} (h : task.Sound v c.table) :
    QuietEffect v a task c (exec v a task c) := by
  cases task with
  | createDefine vmId spec =>
    simp only [exec]
    split
    · rename_i t ht
      have ht := Answer.command_eq_some ht
      have hdef : Defined v t vmId spec.name := h ▸ Table.defined_define ht
      exact ⟨Table.keeps_define ht, by simpa [Task.Sound] using ⟨h, hdef⟩, .none rfl, by simp⟩
    · exact ⟨.refl _, by simp, .none rfl, by simp⟩
  | createStart vmId spec =>
    simp only [exec]
    split
    · rename_i t ht
      have hk := Table.keeps_start (Answer.command_eq_some ht)
      exact ⟨hk, by simpa [Task.Sound] using ⟨h.1, h.2.mono hk⟩, .none rfl, by simp⟩
    · exact ⟨.refl _, by simp, .none rfl, by simp⟩
  | createInsert vmId spec =>
    exact ⟨.refl _, by simp [exec], .insert vmId spec _ rfl rfl rfl, by simp [exec]⟩
  | pollList =>
    simp only [exec]
    split
    · rename_i out hout
      obtain rfl := Option.some.inj (Answer.command_eq_some hout)
      exact ⟨.refl _, by simp [Task.Sound], .none rfl, by simp⟩
    · exact ⟨.refl _, by simp [Task.Sound], .none rfl, by simp⟩
  | pollReconcile names =>
    exact ⟨.refl _, by simp [exec, Task.Sound], .reconcile names rfl rfl, by simp [exec]⟩
  | pollReport => exact ⟨.refl _, by simp [exec], .none rfl, by simp [exec]⟩
  | _ => exact h.elim

/-- Every task in flight belongs to a create or a poll. -/
def AllSound (v : Virsh) (w : World) : Prop := ∀ task ∈ w.tasks, task.Sound v w.core.table

/-- A quiet call adds a create that has done nothing yet, or a poll. -/
theorem call_quiet (v : Virsh) {verb : Verb} (params : Value) (c : Core)
    (hq : verb = .create ∨ verb = .getAllVmStats) :
    (call verb params c).1.table = c.table ∧ (call verb params c).1.registry = c.registry ∧
      (∀ t ∈ (call verb params c).2, t.Sound v c.table) ∧
      ∀ names, Task.pollReconcile names ∉ (call verb params c).2 := by
  rcases hq with rfl | rfl
  · rw [call, if_neg (by decide)]
    split
    · exact ⟨rfl, rfl, by simp, by simp⟩
    · exact ⟨rfl, rfl, by simp [Task.Sound, DomainSpec.fromVmParams], by simp⟩
  · exact ⟨rfl, rfl, by simp [call, Task.Sound], by simp [call]⟩

/-- Everything a quiet step can do. -/
structure QuietStep (v : Virsh) (w w' : World) : Prop where
  sound : AllSound v w'
  keeps : w.core.table.Keeps w'.core.table
  registry : w'.core.registry = w.core.registry ∨
    ∃ a, ∃ task ∈ w.tasks, RegistryEffect a task w.core.registry w'.core.registry
  listing : ∀ names, Task.pollReconcile names ∈ w'.tasks →
    Task.pollReconcile names ∈ w.tasks ∨ names = listedNames w.core.table.listRunning

/-- So no quiet step does. -/
theorem quiet_step {v : Virsh} {w w' : World} {l : Label} (h : AllSound v w) (hq : l.Quiet)
    (hstep : step v w l = some w') : QuietStep v w w' := by
  cases l with
  | call verb params =>
    obtain ⟨ht, hr, hsound, hnames⟩ := call_quiet v params w.core hq
    obtain rfl := Option.some.inj hstep
    refine ⟨fun task htask => ?_, ht ▸ .refl _, .inl hr, fun names hmem => ?_⟩
    · rcases List.mem_append.mp htask with hold | hnew
      · exact ht ▸ h task hold
      · exact ht ▸ hsound task hnew
    · rcases List.mem_append.mp hmem with hold | hnew
      · exact .inl hold
      · exact absurd hnew (hnames names)
  | advance i a =>
    obtain ⟨task, htask, rfl⟩ := step_advance hstep
    have hmem : task ∈ w.tasks := List.mem_of_getElem? htask
    have heff := exec_quiet (a := a) (h task hmem)
    refine ⟨fun t ht => ?_, heff.keeps, .inr ⟨a, task, hmem, heff.registry⟩, fun names hn => ?_⟩
    · rcases List.mem_append.mp ht with hold | hnew
      · exact (h t (List.mem_of_mem_eraseIdx hold)).mono heff.keeps
      · exact heff.sound t hnew
    · rcases List.mem_append.mp hn with hold | hnew
      · exact .inl (List.mem_of_mem_eraseIdx hold)
      · exact .inr (heff.listing names hnew)
  | powerOff uuid =>
    obtain ⟨t, ht, rfl⟩ := Option.map_eq_some_iff.mp hstep
    have hk := Table.keeps_powerOff ht
    exact ⟨fun task htask => (h task htask).mono hk, hk, .inl rfl, fun names hn => .inl hn⟩
  | handOver name uuid => exact hq.elim

/-! ## No lost registration -/

/-- The VM is registered under its name, libvirt has it under that name, and no poll in flight missed
it. -/
structure Registered (v : Virsh) (vmId name : String) (w : World) : Prop where
  sound : AllSound v w
  entry : ∃ r, w.core.registry.lookup vmId = some r ∧ r.vmName = name
  defined : Defined v w.core.table vmId name
  listed : ∀ names, Task.pollReconcile names ∈ w.tasks → name ∈ names

/-- A registered VM stays so while its domain runs. -/
theorem registered_step {v : Virsh} {w w' : World} {l : Label} {vmId name : String}
    (h : Registered v vmId name w) (hlist : Listable name) (hq : l.Quiet)
    (hruns : w.core.table.Runs name) (hstep : step v w l = some w') :
    Registered v vmId name w' := by
  have heff := quiet_step h.sound hq hstep
  obtain ⟨r, hr, hname⟩ := h.entry
  refine ⟨heff.sound, ?_, h.defined.mono heff.keeps, fun names hn => ?_⟩
  · rcases heff.registry with hreg | ⟨a, task, htask, heffect⟩
    · exact ⟨r, hreg ▸ hr, hname⟩
    · cases heffect with
      | none hreg => exact ⟨r, hreg ▸ hr, hname⟩
      | insert vmId' spec r' htask' hname' hreg =>
        rw [hreg]
        by_cases hid : vmId = vmId'
        · -- another create of the same VM: libvirt has it under one name
          subst hid
          have hdef : Defined v w.core.table vmId spec.name := by
            have hsound := h.sound task htask
            rw [htask'] at hsound
            exact hsound.2
          exact ⟨r', AList.lookup_insert _, hname'.trans (hdef.name_eq h.defined)⟩
        · exact ⟨r, by rw [AList.lookup_insert_ne hid, hr], hname⟩
      | reconcile names htask' hreg =>
        have hmem : r.vmName ∈ names := hname ▸ h.listed names (htask' ▸ htask)
        exact ⟨r, hreg ▸ lookup_reconcile_of_listed hr hmem, hname⟩
  · rcases heff.listing names hn with hold | hfresh
    · exact h.listed names hold
    · -- a new listing: it was made while the domain runs
      obtain ⟨d, hd, rfl, hrun⟩ := hruns
      rw [hfresh]
      refine mem_listedNames hlist ?_
      exact List.mem_map.mpr ⟨d, List.mem_filter.mpr ⟨hd, by simp [hrun]⟩, rfl⟩

/-- The insertion registers the VM, when no poll in flight missed it. -/
theorem registered_insert {v : Virsh} {w w' : World} {i : ℕ} {a : Answer} {vmId : String}
    {spec : DomainSpec} (h : AllSound v w) (htask : w.tasks[i]? = some (.createInsert vmId spec))
    (hlisted : ∀ names, Task.pollReconcile names ∈ w.tasks → spec.name ∈ names)
    (hstep : step v w (.advance i a) = some w') : Registered v vmId spec.name w' := by
  have hq : (Label.advance i a).Quiet := trivial
  have hsound := (quiet_step h hq hstep).sound
  rw [step, htask] at hstep
  obtain rfl := Option.some.inj hstep
  refine ⟨hsound, ⟨_, AList.lookup_insert _, rfl⟩, ?_, fun names hn => ?_⟩
  · exact (h _ (List.mem_of_getElem? htask)).2
  · rcases List.mem_append.mp hn with hold | hnew
    · exact hlisted names (List.mem_of_mem_eraseIdx hold)
    · simp at hnew

/-- No lost registration between `VM.create` and a poll. From any host without verbs in progress, in
every interleaving of creates, polls and guests that power off: if a create inserts its record while
no poll in flight has a listing without the name, and the name is one that a listing can carry, the
registry has an entry for the VM after every further step, as long as its domain keeps running. -/
theorem registration_kept (v : Virsh) (w₀ w₁ w₂ w₃ : World) (before after : List Label) (i : ℕ)
    (a : Answer) (vmId : String) (spec : DomainSpec) (h0 : w₀.tasks = [])
    (hbefore : AllSteps (step v) (fun _ l => l.Quiet) w₀ before)
    (hrun₁ : run (step v) w₀ before = some w₁)
    (htask : w₁.tasks[i]? = some (.createInsert vmId spec))
    (hinsert : step v w₁ (.advance i a) = some w₂) (hlist : Listable spec.name)
    (hpolls : ∀ names, Task.pollReconcile names ∈ w₁.tasks → spec.name ∈ names)
    (hafter : AllSteps (step v) (fun w l => l.Quiet ∧ w.core.table.Runs spec.name) w₂ after)
    (hrun₂ : run (step v) w₂ after = some w₃) : vmId ∈ w₃.core.registry := by
  have hsound : AllSound v w₁ := by
    refine run_invariant (fun _ _ _ hs hq hstep => (quiet_step hs hq hstep).sound) ?_ hbefore hrun₁
    simp [AllSound, h0]
  have hreg : Registered v vmId spec.name w₃ :=
    run_invariant (fun _ _ _ hs hP hstep => registered_step hs hlist hP.1 hP.2 hstep)
      (registered_insert hsound htask hpolls hinsert) hafter hrun₂
  obtain ⟨r, hr, -⟩ := hreg.entry
  exact AList.lookup_isSome.mp (by simp [hr])

/-- A run that does not get stuck, with its end. -/
theorem run_eq_getD (w : World) (labels : List Label)
    (h : (run (step sampleVirsh) w labels).isSome = true) :
    run (step sampleVirsh) w labels = some ((run (step sampleVirsh) w labels).getD idleWorld) := by
  obtain ⟨w', hw'⟩ := Option.isSome_iff_exists.mp h
  simp [hw']

/-- A VM that is started and not registered yet. -/
def startedWorld : World :=
  (run (step sampleVirsh) idleWorld
    [.call .create sampleParams, .advance 0 works, .advance 0 works]).getD idleWorld

/-- The same VM, registered. -/
def registeredWorld : World := (run (step sampleVirsh) startedWorld [.advance 0 works]).getD idleWorld

/-- A poll, from its call to its report. -/
def pollLabels : List Label :=
  [.call .getAllVmStats sampleParams, .advance 0 works, .advance 0 works, .advance 0 works]

/-- A VM that is created while a poll is under way stays registered. -/
theorem registration_kept_polled :
    run (step sampleVirsh) idleWorld
        [.call .create sampleParams, .advance 0 works, .advance 0 works] = some startedWorld ∧
      step sampleVirsh startedWorld (.advance 0 works) = some registeredWorld ∧
      ∃ w, run (step sampleVirsh) registeredWorld pollLabels = some w ∧
        sampleId ∈ w.core.registry := by
  have hstarted := run_eq_getD idleWorld
    [.call .create sampleParams, .advance 0 works, .advance 0 works] (by decide)
  have htasks : startedWorld.tasks
      = [.createInsert sampleId (DomainSpec.fromVmParams sampleId sampleParams)] := rfl
  have hinsert : step sampleVirsh startedWorld (.advance 0 works) = some registeredWorld := rfl
  have hpolled := run_eq_getD registeredWorld pollLabels (by decide)
  have hname : Listable "vm" := ⟨by decide, by decide, by decide⟩
  refine ⟨hstarted, hinsert, _, hpolled, ?_⟩
  exact registration_kept sampleVirsh idleWorld startedWorld registeredWorld _ _ pollLabels 0 works
    sampleId (DomainSpec.fromVmParams sampleId sampleParams) rfl (by decide) hstarted rfl hinsert
    hname (fun names hn => absurd hn (by simp [htasks])) (by decide) hpolled

/-- A poll lists, then a create defines, starts and inserts. -/
def overtakenWorld : World :=
  (run (step sampleVirsh) idleWorld
    [.call .getAllVmStats sampleParams, .advance 0 works, .call .create sampleParams,
      .advance 1 works, .advance 1 works, .advance 1 works]).getD idleWorld

/-- The poll then reconciles with its old listing and drops the record of the running VM. -/
theorem registration_lost :
    run (step sampleVirsh) idleWorld
        [.call .getAllVmStats sampleParams, .advance 0 works, .call .create sampleParams,
          .advance 1 works, .advance 1 works, .advance 1 works] = some overtakenWorld ∧
      sampleId ∈ overtakenWorld.core.registry ∧ overtakenWorld.core.table.Runs "vm" ∧
      ∃ w, step sampleVirsh overtakenWorld (.advance 0 works) = some w ∧
        w.core.table.Runs "vm" ∧ sampleId ∉ w.core.registry := by
  refine ⟨run_eq_getD idleWorld _ (by decide), by decide, by decide, _, rfl, by decide, by decide⟩

/-! ## Paused domains -/

/-- What a poll without interference does: the answers, and the output of the list if it worked. -/
abbrev Poll : Type := Queries × Option String

/-- Polls one after another. -/
def polls (ps : List Poll) (reg : Registry) : Registry :=
  ps.foldl (fun reg p => reconcileFromLibvirt p.1 p.2 reg) reg

/-- The output lists exactly the running domains. -/
def Lists (t : Table) (out : String) : Prop := ∀ n, n ∈ listedNames out ↔ t.Runs n

/-- A VM is reported with this status. -/
def Reported (now : UInt64) (reg : Registry) (vmId : String) (state : VmState) : Prop :=
  ∃ r, reg.lookup vmId = some r ∧ recordToStats now r ∈ allVmStats now reg ∧
    (recordToStats now r).get "status" = some (.string state.asEngineStr)

/-- `VM.pause` without interference. -/
def vmPause (v : Virsh) (a : Answer) (vmId : String) (c : Core) : Core :=
  let c := (exec v a (.toggleCommand .pause vmId (c.nameOf vmId)) c).1
  (exec v a (.toggleMark .pause vmId) c).1

/-- A record goes exactly when its name is not listed. -/
theorem removed_iff {q : Queries} {names : List String} {reg : Registry} {key : String}
    {r : VmRecord} (h : reg.lookup key = some r) :
    (reconcile q names reg).lookup key ≠ some r ↔ r.vmName ∉ names := by
  constructor
  · exact fun hne hmem => hne (lookup_reconcile_of_listed h hmem)
  · exact fun hnot heq => hnot (lookup_reconcile_cases heq).1

/-- A paused domain is the only one of its name, so the name is not listed. -/
theorem not_runs_of_paused {t : Table} {d : Domain} (hd : d ∈ t) (hp : d.status ≠ .running) :
    ¬ t.Runs d.name := by
  rintro ⟨e, he, hname, hrun⟩
  rw [Table.eq_of_name he hd hname] at hrun
  exact hp hrun

/-- A successful `VM.pause` pauses the domain and marks the record. -/
theorem vmPause_spec {v : Virsh} {a : Answer} {vmId : String} {c : Core} {r : VmRecord} {t : Table}
    (hr : c.registry.lookup vmId = some r) (ht : c.table.suspend v r.vmName = some t)
    (ha : a.works = true) :
    (vmPause v a vmId c).table = t ∧
      (vmPause v a vmId c).registry.lookup vmId = some { r with state := .paused } := by
  have hname : c.nameOf vmId = r.vmName := by simp [Core.nameOf, hr]
  have hregistry : (vmPause v a vmId c).registry = (c.mark vmId .paused).registry := by
    simp [vmPause, exec, hname, ht, Answer.command, ha, Core.mark, Core.reply]
  constructor
  · simp [vmPause, exec, hname, ht, Answer.command, ha, Core.mark, Core.reply]
  · rw [hregistry, Core.mark, HashMap.lookup_modify, if_pos rfl, hr]
    rfl

/-- What was paused under its own name does not run. -/
theorem suspend_not_runs {v : Virsh} {t t' : Table} {d : Domain} {key : String}
    (ht : t.suspend v key = some t') (hd : t.lookupActive v key = some d) (hname : d.name = key) :
    ¬ t'.Runs key := by
  obtain ⟨e, he, hlookup, -, rfl⟩ := Table.suspend_cases ht
  obtain rfl : d = e := by simpa [hd] using hlookup
  have hmem : Table.Change.apply ⟨.paused, d.id, d.persistent⟩ d ∈
      t.update d.uuid ⟨.paused, d.id, d.persistent⟩ := (Table.mem_update he).mpr (.inr rfl)
  have hpaused := not_runs_of_paused hmem (by simp [Table.Change.apply])
  rwa [← hname]

/-- The states are told apart by what is reported of them. -/
theorem asEngineStr_injective {s s' : VmState} (h : s.asEngineStr = s'.asEngineStr) : s = s' := by
  cases s <;> cases s' <;> simp [VmState.asEngineStr] at h ⊢

/-- What is reported of a VM is the state of its record. -/
theorem reported_iff {now : UInt64} {reg : Registry} {vmId : String} {state : VmState} :
    Reported now reg vmId state ↔ ∃ r, reg.lookup vmId = some r ∧ r.state = state := by
  have hstatus : ∀ r : VmRecord,
      (recordToStats now r).get "status" = some (.string r.state.asEngineStr) := fun _ => rfl
  constructor
  · rintro ⟨r, hr, -, hs⟩
    rw [hstatus, Option.some.injEq, Value.string.injEq] at hs
    exact ⟨r, hr, asEngineStr_injective hs⟩
  · rintro ⟨r, hr, rfl⟩
    exact ⟨r, hr, List.mem_map_of_mem (HashMap.mem_values_of_lookup hr), hstatus r⟩

/-- Polls whose list fails change nothing. -/
theorem polls_of_failed {ps : List Poll} (reg : Registry) (h : ∀ p ∈ ps, p.2 = none) :
    polls ps reg = reg := by
  induction ps generalizing reg with
  | nil => rfl
  | cons p ps ih =>
    have hp : reconcileFromLibvirt p.1 p.2 reg = reg := by
      rw [h p (by simp)]
      rfl
    rw [polls, List.foldl_cons, hp]
    exact ih reg fun p' hp' => h p' (by simp [hp'])

/-- Once a VM's record is not paused, no poll makes it so. -/
theorem polls_not_paused {ps : List Poll} {reg : Registry} {vmId : String}
    (h : ∀ r, reg.lookup vmId = some r → r.state ≠ .paused) :
    ∀ r, (polls ps reg).lookup vmId = some r → r.state ≠ .paused := by
  induction ps generalizing reg with
  | nil => exact h
  | cons p ps ih =>
    rw [polls, List.foldl_cons]
    refine ih fun r hr => ?_
    cases hout : p.2 with
    | none =>
      rw [hout] at hr
      exact h r hr
    | some out =>
      rw [hout] at hr
      rcases (lookup_reconcile_cases hr).2 with hold | ⟨-, himports⟩
      · exact h r hold
      · simp [himports.up]

/-- The first poll that lists drops the record of a VM whose name is not running. -/
theorem polls_not_paused_of_listed {ps : List Poll} {reg : Registry} {vmId : String} {t : Table}
    {n : String} (hname : ∀ r, reg.lookup vmId = some r → r.vmName = n) (hn : ¬ t.Runs n)
    (hlists : ∀ p ∈ ps, ∀ out ∈ p.2, Lists t out) (h : ∃ p ∈ ps, p.2 ≠ none) :
    ∀ r, (polls ps reg).lookup vmId = some r → r.state ≠ .paused := by
  induction ps generalizing reg with
  | nil => simp at h
  | cons p ps ih =>
    rw [polls, List.foldl_cons]
    cases hout : p.2 with
    | none =>
      refine ih hname (fun p' hp' => hlists p' (by simp [hp'])) ?_
      obtain ⟨p', hp', hsome⟩ := h
      rcases List.mem_cons.mp hp' with rfl | hp'
      · exact absurd hout hsome
      · exact ⟨p', hp', hsome⟩
    | some out =>
      refine polls_not_paused fun r hr => ?_
      obtain ⟨hmem, hold | ⟨-, himports⟩⟩ := lookup_reconcile_cases hr
      · have hruns := (hlists p (by simp) out (by simp [hout]) r.vmName).mp hmem
        exact absurd (hname r hold ▸ hruns) hn
      · simp [himports.up]

/-- A reconciliation with a list of exactly the running domains keeps the records of the paused ones
exactly when there are none. -/
theorem drops_only_vanished_iff {t : Table} {reg : Registry} {q : Queries} {out : String}
    (hout : Lists t out) :
    (∀ key r, reg.lookup key = some r →
        (reconcileFromLibvirt q (some out) reg).lookup key ≠ some r →
        ∀ d ∈ t, d.name = r.vmName → d.active = false) ↔
      ∀ key r, reg.lookup key = some r → ∀ d ∈ t, d.name = r.vmName → d.status ≠ .paused := by
  constructor
  · intro h key r hr d hd hname hpaused
    have hnot : r.vmName ∉ listedNames out := by
      rw [hout, ← hname]
      exact not_runs_of_paused hd (by simp [hpaused])
    have hact := h key r hr ((removed_iff hr).mpr hnot) d hd hname
    simp [Domain.active, hpaused] at hact
  · intro h key r hr hgone d hd hname
    have hnot : ¬ t.Runs r.vmName := (hout r.vmName).not.mp ((removed_iff hr).mp hgone)
    have hpaused := h key r hr d hd hname
    cases hs : d.status with
    | running => exact absurd ⟨d, hd, hname, hs⟩ hnot
    | paused => exact absurd hs hpaused
    | shutOff => simp [Domain.active, hs]

/-- A poll that lists keeps the record of a VM whose name is running. -/
theorem polls_keep_running {ps : List Poll} {reg : Registry} {vmId : String} {t : Table}
    {r : VmRecord} (hr : reg.lookup vmId = some r) (hruns : t.Runs r.vmName)
    (hlists : ∀ p ∈ ps, ∀ out ∈ p.2, Lists t out) : (polls ps reg).lookup vmId = some r := by
  induction ps generalizing reg with
  | nil => exact hr
  | cons p ps ih =>
    rw [polls, List.foldl_cons]
    refine ih ?_ fun p' hp' => hlists p' (by simp [hp'])
    cases hout : p.2 with
    | none => exact hr
    | some out =>
      have hlisted := (hlists p (by simp) out (by simp [hout]) r.vmName).mpr hruns
      exact lookup_reconcile_of_listed hr hlisted

/-- A paused VM is reported as such until the first poll that lists, unless its name is running
all the same. -/
theorem paused_reported_iff {v : Virsh} {a : Answer} {c : Core} {vmId : String} {r : VmRecord}
    {t : Table} (hr : c.registry.lookup vmId = some r) (ht : c.table.suspend v r.vmName = some t)
    (ha : a.works = true) {ps : List Poll} {now : UInt64}
    (hlists : ∀ p ∈ ps, ∀ out ∈ p.2, Lists t out) :
    Reported now (polls ps (vmPause v a vmId c).registry) vmId .paused ↔
      (∀ p ∈ ps, p.2 = none) ∨ t.Runs r.vmName := by
  obtain ⟨-, hentry⟩ := vmPause_spec hr ht ha
  rw [reported_iff]
  constructor
  · rintro ⟨r', hr', hpaused⟩
    by_contra hnot
    obtain ⟨hlisted, hstopped⟩ : (∃ p ∈ ps, p.2 ≠ none) ∧ ¬ t.Runs r.vmName := by
      simpa using hnot
    refine polls_not_paused_of_listed ?_ hstopped hlists hlisted r' hr' hpaused
    intro r'' hr''
    obtain rfl := Option.some.inj (hentry.symm.trans hr'')
    rfl
  · rintro (hfailed | hruns)
    · rw [polls_of_failed _ hfailed]
      exact ⟨_, hentry, rfl⟩
    · exact ⟨_, polls_keep_running hentry hruns hlists, rfl⟩

/-- Reconciliation and paused domains. A reconciliation with a list of exactly the running domains
removes records of vanished domains only, exactly when no record names a paused domain; and after a
successful `VM.pause` the VM is reported as paused exactly as long as no poll's list has worked. The
exception is a name that `virsh` takes for another domain's: then that one was paused. -/
theorem reconcile_drops (t : Table) (reg : Registry) (q : Queries) (out : String)
    (hout : Lists t out) :
    ((∀ key r, reg.lookup key = some r →
          (reconcileFromLibvirt q (some out) reg).lookup key ≠ some r →
          ∀ d ∈ t, d.name = r.vmName → d.active = false) ↔
        ∀ key r, reg.lookup key = some r → ∀ d ∈ t, d.name = r.vmName → d.status ≠ .paused) ∧
      ∀ (v : Virsh) (a : Answer) (c : Core) (vmId : String) (r : VmRecord) (t' : Table),
        c.registry.lookup vmId = some r → c.table.suspend v r.vmName = some t' → a.works = true →
        (vmPause v a vmId c).table = t' ∧
          (∀ (ps : List Poll) (now : UInt64), (∀ p ∈ ps, ∀ out ∈ p.2, Lists t' out) →
            (Reported now (polls ps (vmPause v a vmId c).registry) vmId .paused ↔
              (∀ p ∈ ps, p.2 = none) ∨ t'.Runs r.vmName)) ∧
          ∀ d, c.table.lookupActive v r.vmName = some d → d.name = r.vmName → ¬ t'.Runs r.vmName :=
  ⟨drops_only_vanished_iff hout, fun _ _ _ _ _ _ hr ht ha =>
    ⟨(vmPause_spec hr ht ha).1, fun _ _ hlists => paused_reported_iff hr ht ha hlists,
      fun _ hd hname => suspend_not_runs ht hd hname⟩⟩

/-- One running domain. -/
def vmTable : Table where
  domains := [⟨"vm", sampleId, .running, 1, true⟩]
  uuids_nodup := by decide
  names_nodup := by decide

def vmRegistry : Registry :=
  AList.insert sampleId ⟨sampleId, "vm", 1024, 1, .up, 0⟩ (∅ : Registry)

/-- The list of a table with the one running domain. -/
theorem lists_vm {t : Table} {uuid : String} {n : ℕ}
    (ht : t.domains = [⟨"vm", uuid, .running, n, true⟩]) : Lists t "vm\n\n" := by
  intro name
  have hnames : listedNames "vm\n\n" = ["vm"] := by decide
  simp [hnames, Table.Runs, ht, eq_comm]

theorem vmTable_lists : Lists vmTable "vm\n\n" := lists_vm rfl

/-- The domain and its record. -/
def vmCore : Core := ⟨vmTable, 1, vmRegistry, []⟩

/-- A poll over a running VM and a pause. -/
theorem reconcile_drops_vm :
    Lists vmTable "vm\n\n" ∧
      (∀ key r, vmRegistry.lookup key = some r →
        (reconcileFromLibvirt works.queries (some "vm\n\n") vmRegistry).lookup key ≠ some r →
        ∀ d ∈ vmTable, d.name = r.vmName → d.active = false) ∧
      Reported 0 (polls [(works.queries, none)] (vmPause sampleVirsh works sampleId vmCore).registry)
        sampleId .paused := by
  obtain ⟨hdrops, hpause⟩ :=
    reconcile_drops vmTable vmRegistry works.queries _ vmTable_lists
  obtain ⟨-, hreported, -⟩ :=
    hpause sampleVirsh works vmCore sampleId ⟨sampleId, "vm", 1024, 1, .up, 0⟩ _ rfl rfl rfl
  refine ⟨vmTable_lists, hdrops.mpr ?_, (hreported [(works.queries, none)] 0 ?_).mpr (.inl ?_)⟩
  · intro key r hr d hd hname
    obtain rfl : d = ⟨"vm", sampleId, .running, 1, true⟩ := List.mem_singleton.mp hd
    simp
  · simp
  · simp

/-- Create, pause and poll: the domain is paused, and the VM is gone. -/
theorem paused_vm_dropped :
    ∃ w, run (step sampleVirsh) idleWorld
        ([.call .create sampleParams, .advance 0 works, .advance 0 works, .advance 0 works,
          .call .pause sampleParams, .advance 0 works, .advance 0 works] ++ pollLabels) = some w ∧
      (∃ d ∈ w.core.table.domains, d.name = "vm" ∧ d.status = .paused) ∧
      sampleId ∉ w.core.registry :=
  ⟨_, run_eq_getD idleWorld _ (by decide), by decide, by decide⟩

end Vdsm.Virt
