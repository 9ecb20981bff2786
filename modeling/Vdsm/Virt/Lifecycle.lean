import Vdsm.Virt.Identity

/-!
# What the lifecycle verbs report

`vm_destroy`, `vm_pause` and `vm_cont` ignore whether their commands work and reply with success.
`lifecycle_reports` says when that is true all the same: what a destroy leaves of the VM, what a
failing pause or cont should have left, and in which interleavings the states these verbs recorded
agree with libvirt.
-/

namespace Vdsm.Virt

open Rust Transition

/-! ## Statuses -/

namespace Table

/-- The status of the domain with this uuid. -/
def statusOf (t : Table) (uuid : String) : Option Status :=
  (t.domains.find? fun d => d.uuid == uuid).map Domain.status

/-- The status of a uuid is that of its domain. -/
theorem statusOf_eq_some {t : Table} {uuid : String} {s : Status} :
    t.statusOf uuid = some s ↔ ∃ d ∈ t, d.uuid = uuid ∧ d.status = s := by
  rw [statusOf, Option.map_eq_some_iff]
  constructor
  · rintro ⟨d, hd, hs⟩
    exact ⟨d, List.mem_of_find?_eq_some hd, by simpa using List.find?_some hd, hs⟩
  · rintro ⟨d, hd, rfl, hs⟩
    obtain ⟨e, he⟩ : ∃ e, t.domains.find? (fun e => e.uuid == d.uuid) = some e := by
      rw [← Option.isSome_iff_exists, List.find?_isSome]
      exact ⟨d, hd, by simp⟩
    have huuid : e.uuid = d.uuid := by simpa using List.find?_some he
    obtain rfl := eq_of_uuid (List.mem_of_find?_eq_some he) hd huuid
    exact ⟨e, he, hs⟩

/-- A change of one domain leaves the status of the others. -/
theorem statusOf_update {t : Table} {d : Domain} {c : Change} (hd : d ∈ t) (uuid : String) :
    (t.update d.uuid c).statusOf uuid = if uuid = d.uuid then some c.status else t.statusOf uuid := by
  apply Option.ext
  intro s
  rw [statusOf_eq_some]
  simp only [mem_update hd]
  split
  · rename_i heq
    subst heq
    constructor
    · rintro ⟨e, ⟨-, hne⟩ | rfl, huuid, rfl⟩
      · exact absurd huuid hne
      · rfl
    · intro hs
      exact ⟨c.apply d, .inr rfl, rfl, Option.some.inj hs⟩
  · rename_i hne
    rw [statusOf_eq_some]
    constructor
    · rintro ⟨e, ⟨he, -⟩ | rfl, rfl, hs⟩
      · exact ⟨e, he, rfl, hs⟩
      · exact absurd rfl hne
    · rintro ⟨e, he, rfl, hs⟩
      exact ⟨e, .inl ⟨he, hne⟩, rfl, hs⟩

/-- A domain that is removed has no status. -/
theorem statusOf_remove (t : Table) (gone uuid : String) :
    (t.remove gone).statusOf uuid = if uuid = gone then none else t.statusOf uuid := by
  apply Option.ext
  intro s
  rw [statusOf_eq_some]
  simp only [mem_remove]
  split
  · rename_i heq
    subst heq
    simp only [reduceCtorEq, iff_false]
    rintro ⟨d, ⟨-, hne⟩, rfl, -⟩
    exact hne rfl
  · rename_i hne
    rw [statusOf_eq_some]
    constructor
    · rintro ⟨d, ⟨hd, -⟩, huuid, hs⟩
      exact ⟨d, hd, huuid, hs⟩
    · rintro ⟨d, hd, rfl, hs⟩
      exact ⟨d, ⟨hd, hne⟩, rfl, hs⟩

/-- A new domain takes none of the others' place. -/
theorem statusOf_add {t : Table} {d : Domain} {hu hn} {uuid : String} (hne : uuid ≠ d.uuid) :
    (t.add d hu hn).statusOf uuid = t.statusOf uuid := by
  have hskip : ([d].find? fun d => d.uuid == uuid) = none := by simpa using hne.symm
  rw [statusOf, statusOf, add, List.find?_append, hskip, Option.or_none]

/-- A domain that stops is the only one to change, and is not active any more. -/
theorem statusOf_stop {t : Table} {d : Domain} (hd : d ∈ t) (uuid : String) :
    (t.stop d).statusOf uuid =
      if uuid = d.uuid then (if d.persistent then some .shutOff else none) else t.statusOf uuid := by
  rw [stop]
  split
  · rw [statusOf_update hd]
  · rw [statusOf_remove]

/-- A domain of the table has its own status. -/
theorem statusOf_self {t : Table} {d : Domain} (hd : d ∈ t) : t.statusOf d.uuid = some d.status :=
  statusOf_eq_some.mpr ⟨d, hd, rfl, rfl⟩

section Commands

variable {v : Virsh} {t t' : Table} {key uuid : String} {s : Status}

/-- A change of another domain, or of one that is not active, leaves the active ones. -/
theorem statusOf_update_of_inactive {d : Domain} {c : Change} (hd : d ∈ t) (hoff : d.active = false)
    (hs : t.statusOf uuid = some s) (hlive : s ≠ .shutOff) :
    (t.update d.uuid c).statusOf uuid = some s := by
  rw [statusOf_update hd]
  split
  · rename_i heq
    rw [heq, statusOf_self hd, Option.some.injEq] at hs
    simp [Domain.active, hs, hlive] at hoff
  · exact hs

/-- `define` changes no status of a domain there is. -/
theorem statusOf_define {name id : String} (h : t.define v name id = some t')
    (hs : t.statusOf uuid = some s) : t'.statusOf uuid = some s := by
  obtain ⟨u, -, ⟨d, hd, -, -, rfl⟩ | ⟨hu, hn, rfl⟩⟩ := define_cases h
  · rw [statusOf_update hd]
    split
    · rename_i heq
      rw [← hs, heq, statusOf_self hd]
    · exact hs
  · obtain ⟨d, hd, rfl, -⟩ := statusOf_eq_some.mp hs
    rwa [statusOf_add (hu d hd)]

/-- `start` changes no active domain. -/
theorem statusOf_start {n : ℕ} (h : t.start v key n = some t') (hs : t.statusOf uuid = some s)
    (hlive : s ≠ .shutOff) : t'.statusOf uuid = some s := by
  obtain ⟨new, hnew, rfl⟩ := Option.map_eq_some_iff.mp h
  obtain ⟨d, hd, hoff, rfl⟩ := startable_cases hnew
  exact statusOf_update_of_inactive (d := d) hd hoff hs hlive

/-- `destroy` changes its target only. -/
theorem statusOf_destroy {d : Domain} (h : t.destroy v key = some (d, t')) (hne : uuid ≠ d.uuid) :
    t'.statusOf uuid = t.statusOf uuid := by
  obtain ⟨hd, -, rfl⟩ := destroy_cases h
  rw [statusOf_stop (lookupActive_spec hd).1, if_neg hne]

/-- `undefine` changes the status of no active domain, and wakes up none. -/
theorem statusOf_undefine (h : t.undefine v key = some t') (hlive : s ≠ .shutOff) :
    t'.statusOf uuid = some s ↔ t.statusOf uuid = some s := by
  obtain ⟨d, hd, ⟨-, rfl⟩ | ⟨hoff, rfl⟩⟩ := undefine_cases h
  · rw [statusOf_update hd]
    split
    · rename_i heq
      rw [heq, statusOf_self hd]
    · rfl
  · rw [statusOf_remove]
    split
    · rename_i heq
      have hstatus : d.status = .shutOff := by simpa [Domain.active] using hoff
      simp [heq, statusOf_self hd, hstatus, hlive.symm]
    · rfl

/-- The end of an incoming migration changes no active domain. -/
theorem statusOf_handOver {name id : String} {n : ℕ} (h : t.handOver name id n = some t')
    (hs : t.statusOf uuid = some s) (hlive : s ≠ .shutOff) : t'.statusOf uuid = some s := by
  rcases handOver_cases h with ⟨d, hd, -, -, hoff, rfl⟩ | ⟨hu, hn, rfl⟩
  · exact statusOf_update_of_inactive hd hoff hs hlive
  · obtain ⟨d, hd, rfl, -⟩ := statusOf_eq_some.mp hs
    rwa [statusOf_add (hu d hd)]

end Commands

end Table

/-- The status of a VM's domain. -/
def vmStatus (v : Virsh) (t : Table) (vmId : String) : Option Status :=
  (v.xmlUuid vmId).bind t.statusOf

/-- The status of a VM is that of the domain its id leads to. -/
theorem vmStatus_eq_some {v : Virsh} {t : Table} {vmId : String} {s : Status} :
    vmStatus v t vmId = some s ↔ ∃ uuid, v.xmlUuid vmId = some uuid ∧ t.statusOf uuid = some s :=
  Option.bind_eq_some_iff

/-! ## Commands and their targets -/

/-- The state that `vm_pause` and `vm_cont` record. -/
def Toggle.state : Toggle → VmState
  | pause => .paused
  | cont => .up

/-- The status that their commands lead to. -/
def Toggle.status : Toggle → Status
  | pause => .paused
  | cont => .running

/-- Their commands. -/
def Toggle.command (v : Virsh) (t : Table) (key : String) : Toggle → Option Table
  | pause => t.suspend v key
  | cont => t.resume v key

/-- The command of `pause` and `cont` changes one active domain. -/
theorem Toggle.command_cases {v : Virsh} {t t' : Table} {key : String} {verb : Toggle}
    (h : verb.command v t key = some t') :
    ∃ d ∈ t, t.lookupActive v key = some d ∧
      t' = t.update d.uuid ⟨verb.status, d.id, d.persistent⟩ := by
  cases verb with
  | pause =>
    obtain ⟨d, hd, hlookup, -, rfl⟩ := Table.suspend_cases h
    exact ⟨d, hd, hlookup, rfl⟩
  | cont =>
    obtain ⟨d, hd, hlookup, -, rfl⟩ := Table.resume_cases h
    exact ⟨d, hd, hlookup, rfl⟩

/-- The key of the domain that a task's command stops, pauses, resumes or sends away. -/
def Task.target : Task → Option String
  | destroyDestroy _ name => some name
  | watchdogDestroy _ name _ => some name
  | toggleCommand _ _ name => some name
  | migrateRun name => some name
  | _ => none

/-- A command with a result worked. -/
theorem Answer.works_of_command {α : Type} {a : Answer} {result : Option α} {x : α}
    (h : a.command result = some x) : a.works = true := by
  rw [Answer.command] at h
  split_ifs at h with hworks
  exact hworks

/-- A task changes the status of no active domain but its target, and of that only if its command
works. -/
theorem statusOf_exec {v : Virsh} {a : Answer} {task : Task} {c : Core} {uuid : String} {s : Status}
    (hs : c.table.statusOf uuid = some s) (hlive : s ≠ .shutOff)
    (hspared : a.works = true → ∀ key ∈ task.target, ∀ d, c.table.lookupActive v key = some d →
      uuid ≠ d.uuid) :
    (exec v a task c).1.table.statusOf uuid = some s := by
  cases task with
  | createDefine vmId spec =>
    simp only [exec]
    split
    · rename_i t ht
      exact Table.statusOf_define (Answer.command_eq_some ht) hs
    · exact hs
  | createStart vmId spec =>
    simp only [exec]
    split
    · rename_i t ht
      exact Table.statusOf_start (Answer.command_eq_some ht) hs hlive
    · exact hs
  | destroyDestroy vmId name =>
    simp only [exec]
    split
    · rename_i d t ht
      have hdestroy := Answer.command_eq_some ht
      have hne := hspared (Answer.works_of_command ht) name rfl d (Table.destroy_cases hdestroy).1
      rwa [Table.statusOf_destroy hdestroy hne]
    · exact hs
  | destroyUndefine vmId name =>
    simp only [exec]
    split
    · rename_i t ht
      exact (Table.statusOf_undefine (Answer.command_eq_some ht) hlive).mpr hs
    · exact hs
  | watchdogDestroy vmId name armed =>
    simp only [exec]
    split
    · rename_i d t ht
      have hdestroy := Answer.command_eq_some ht
      have hne := hspared (Answer.works_of_command ht) name rfl d (Table.destroy_cases hdestroy).1
      rwa [Table.statusOf_destroy hdestroy hne]
    · exact hs
  | toggleCommand verb vmId name =>
    simp only [exec]
    split
    · rename_i t ht
      have hcommand : verb.command v c.table name = some t := by
        cases verb <;> exact Answer.command_eq_some ht
      obtain ⟨d, hd, hlookup, rfl⟩ := Toggle.command_cases hcommand
      rwa [Table.statusOf_update hd, if_neg (hspared (Answer.works_of_command ht) name rfl d hlookup)]
    · exact hs
  | migrateRun name =>
    simp only [exec]
    split
    · rename_i t ht
      obtain ⟨d, hd, rfl⟩ := Table.migrateAway_cases (Answer.command_eq_some ht)
      rwa [Table.statusOf_remove, if_neg (hspared (Answer.works_of_command ht) name rfl d hd)]
    · exact hs
  | _ =>
    simp only [exec]
    repeat' split
    all_goals exact hs

/-! ## The verbs without interference -/

/-- `VM.destroy`, with the answers to its two commands. -/
def vmDestroy (v : Virsh) (a₁ a₂ : Answer) (vmId : String) (c : Core) : Core :=
  let name := c.nameOf vmId
  let c := (exec v a₁ (.destroyDestroy vmId name) c).1
  let c := (exec v a₂ (.destroyUndefine vmId name) c).1
  (exec v a₂ (.destroyRemove vmId) c).1

/-- `VM.pause` and `VM.cont`. -/
def vmToggle (v : Virsh) (a : Answer) (verb : Toggle) (vmId : String) (c : Core) : Core :=
  let c := (exec v a (.toggleCommand verb vmId (c.nameOf vmId)) c).1
  (exec v a (.toggleMark verb vmId) c).1

/-- `vmDestroy` is what the points of a destroy do if nothing comes between them. -/
theorem run_vmDestroy (v : Virsh) (a₁ a₂ : Answer) (vmId : String) (c : Core) :
    run (step v) ⟨c, [.destroyDestroy vmId (c.nameOf vmId)]⟩
        [.advance 0 a₁, .advance 0 a₂, .advance 0 a₂]
      = some ⟨vmDestroy v a₁ a₂ vmId c, []⟩ := by
  have hdestroy : ∀ name c, (exec v a₁ (.destroyDestroy vmId name) c).2
      = [.destroyUndefine vmId name] := by
    intro name c
    simp only [exec]
    split <;> rfl
  have hundefine : ∀ name c, (exec v a₂ (.destroyUndefine vmId name) c).2
      = [.destroyRemove vmId] := by
    intro name c
    simp only [exec]
    split <;> rfl
  have hremove : ∀ c, (exec v a₂ (.destroyRemove vmId) c).2 = [] := fun _ => rfl
  simp [run, step, vmDestroy, hdestroy, hundefine, hremove]

/-- `vmToggle` is what the points of a pause or cont do if nothing comes between them. -/
theorem run_vmToggle (v : Virsh) (a : Answer) (verb : Toggle) (vmId : String) (c : Core) :
    run (step v) ⟨c, [.toggleCommand verb vmId (c.nameOf vmId)]⟩ [.advance 0 a, .advance 0 a]
      = some ⟨vmToggle v a verb vmId c, []⟩ := by
  have hcommand : ∀ name c, (exec v a (.toggleCommand verb vmId name) c).2
      = [.toggleMark verb vmId] := by
    intro name c
    simp only [exec]
    split <;> rfl
  have hmark : ∀ c, (exec v a (.toggleMark verb vmId) c).2 = [] := fun _ => rfl
  simp [run, step, vmToggle, hcommand, hmark]

/-- The verb returned success. -/
def Succeeds (c c' : Core) : Prop := ∃ result, c'.log = c.log ++ [.reply (.ok result)]

/-- The command works, and the name under which the VM is addressed leads to this domain. -/
def Reaches (v : Virsh) (a : Answer) (c : Core) (vmId uuid : String) : Prop :=
  a.works = true ∧ (c.table.lookupActive v (c.nameOf vmId)).map Domain.uuid = some uuid

/-- The command behind the verb fails. -/
def ToggleFails (v : Virsh) (a : Answer) (verb : Toggle) (vmId : String) (c : Core) : Prop :=
  a.command (verb.command v c.table (c.nameOf vmId)) = none

instance (v : Virsh) (a : Answer) (verb : Toggle) (vmId : String) (c : Core) :
    Decidable (ToggleFails v a verb vmId c) :=
  inferInstanceAs (Decidable (_ = none))

/-- A destroy reports success, whatever the commands did. -/
theorem vmDestroy_succeeds (v : Virsh) (a₁ a₂ : Answer) (vmId : String) (c : Core) :
    Succeeds c (vmDestroy v a₁ a₂ vmId c) := by
  refine ⟨.object [], ?_⟩
  simp only [vmDestroy, exec, Core.reply]
  split <;> split <;> rfl

/-- What `pause` and `cont` do to the registry, the table and the reply. -/
theorem vmToggle_eq (v : Virsh) (a : Answer) (verb : Toggle) (vmId : String) (c : Core) :
    (vmToggle v a verb vmId c).registry = (c.mark vmId verb.state).registry ∧
      (vmToggle v a verb vmId c).table
        = (a.command (verb.command v c.table (c.nameOf vmId))).getD c.table ∧
      Succeeds c (vmToggle v a verb vmId c) := by
  cases verb with
  | pause =>
    cases hcommand : a.command (c.table.suspend v (c.nameOf vmId)) <;>
      simp [vmToggle, exec, hcommand, Core.mark, Core.reply, Succeeds, Toggle.state, Toggle.command]
  | cont =>
    cases hcommand : a.command (c.table.resume v (c.nameOf vmId)) <;>
      simp [vmToggle, exec, hcommand, Core.mark, Core.reply, Succeeds, Toggle.state, Toggle.command]

/-- The destroy command stops the domain it reaches. -/
theorem statusOf_destroyDestroy {v : Virsh} {a : Answer} {vmId uuid : String} {c : Core} {s : Status}
    (hlive : s ≠ .shutOff) :
    (exec v a (.destroyDestroy vmId (c.nameOf vmId)) c).1.table.statusOf uuid = some s ↔
      c.table.statusOf uuid = some s ∧ ¬ Reaches v a c vmId uuid := by
  constructor
  · intro h
    simp only [exec] at h
    split at h
    · rename_i d t ht
      obtain ⟨hd, -, rfl⟩ := Table.destroy_cases (Answer.command_eq_some ht)
      rw [Table.statusOf_stop (Table.lookupActive_spec hd).1] at h
      split_ifs at h with heq hpersistent
      · exact absurd (Option.some.inj h).symm hlive
      · refine ⟨h, fun hreaches => heq ?_⟩
        simpa [Reaches, hd, eq_comm] using hreaches.2
    · rename_i hfailed
      refine ⟨h, fun hreaches => ?_⟩
      obtain ⟨hworks, huuid⟩ := hreaches
      obtain ⟨d, hd, rfl⟩ := Option.map_eq_some_iff.mp huuid
      rw [Table.statusOf_self (Table.lookupActive_spec hd).1, Option.some.injEq] at h
      simp [Answer.command, hworks, Table.destroy, hd, Domain.active, h, hlive] at hfailed
  · rintro ⟨hs, hmissed⟩
    refine statusOf_exec hs hlive fun hworks key hkey d hd heq => hmissed ⟨hworks, ?_⟩
    obtain rfl : c.nameOf vmId = key := by simpa [Task.target] using hkey
    rw [hd, Option.map_some, heq]

/-- A destroy ends the domain that its command reaches and no other. -/
theorem statusOf_vmDestroy {v : Virsh} {a₁ a₂ : Answer} {vmId uuid : String} {c : Core} {s : Status}
    (hlive : s ≠ .shutOff) :
    (vmDestroy v a₁ a₂ vmId c).table.statusOf uuid = some s ↔
      c.table.statusOf uuid = some s ∧ ¬ Reaches v a₁ c vmId uuid := by
  rw [← statusOf_destroyDestroy hlive, vmDestroy]
  generalize (exec v a₁ (.destroyDestroy vmId (c.nameOf vmId)) c).1 = c₁
  simp only [exec, Core.reply]
  split
  · rename_i t ht
    exact Table.statusOf_undefine (Answer.command_eq_some ht) hlive
  · exact Iff.rfl

/-- A destroy leaves no domain of the VM running (or paused), exactly when there was none or its
command reached it. -/
theorem destroy_reports_iff {v : Virsh} {a₁ a₂ : Answer} {vmId : String} {c : Core} {s : Status}
    (hlive : s ≠ .shutOff) :
    (Succeeds c (vmDestroy v a₁ a₂ vmId c) →
        vmStatus v (vmDestroy v a₁ a₂ vmId c).table vmId ≠ some s) ↔
      ∀ uuid, v.xmlUuid vmId = some uuid → c.table.statusOf uuid = some s →
        Reaches v a₁ c vmId uuid := by
  constructor
  · intro h uuid huuid hs
    by_contra hmissed
    refine h (vmDestroy_succeeds v a₁ a₂ vmId c) (vmStatus_eq_some.mpr ⟨uuid, huuid, ?_⟩)
    exact (statusOf_vmDestroy hlive).mpr ⟨hs, hmissed⟩
  · intro h _ hafter
    obtain ⟨uuid, huuid, hs⟩ := vmStatus_eq_some.mp hafter
    obtain ⟨hbefore, hmissed⟩ := (statusOf_vmDestroy hlive).mp hs
    exact hmissed (h uuid huuid hbefore)

/-- A pause or cont whose command fails is to leave the recorded state and to return an error; it does
so exactly when the command does not fail. -/
theorem toggle_reports_iff {v : Virsh} {a : Answer} {verb : Toggle} {vmId : String} {c : Core} :
    (ToggleFails v a verb vmId c →
        ((vmToggle v a verb vmId c).registry.lookup vmId).map VmRecord.state
            = (c.registry.lookup vmId).map VmRecord.state ∧
          ¬ Succeeds c (vmToggle v a verb vmId c)) ↔ ¬ ToggleFails v a verb vmId c := by
  constructor
  · intro h hfails
    exact (h hfails).2 (vmToggle_eq v a verb vmId c).2.2
  · intro h hfails
    exact absurd hfails h

/-! ## Runs -/

/-- Beside the world: which records were last set by a pause or a cont. -/
structure Marked where
  world : World
  marks : String → Option Toggle

/-- The VM whose record the verb sets or removes after this command. -/
def Task.self : Task → Option String
  | destroyDestroy vmId _ => some vmId
  | toggleCommand _ vmId _ => some vmId
  | _ => none

/-- A pause or cont marks the record of its VM. From its command to that, and from the command of a
destroy on, the VM has no mark, nor has a record that something else changes or drops. -/
def Task.marksAfter (c c' : Core) (marks : String → Option Toggle) (id : String) :
    Task → Option Toggle
  | toggleMark verb vmId => if id = vmId ∧ id ∈ c.registry then some verb else marks id
  | task =>
    if some id ≠ task.self ∧ c'.registry.lookup id = c.registry.lookup id then marks id else none

/-- A step of the verbs. Calls and what happens to libvirt leave the records. -/
def lifecycleStep (v : Virsh) (w : Marked) (l : Label) : Option Marked :=
  (step v w.world l).map fun world =>
    match l with
    | .advance i _ => ⟨world, fun id => w.world.tasks[i]?.bind
        (Task.marksAfter w.world.core world.core w.marks id)⟩
    | _ => ⟨world, w.marks⟩

/-- A pause or cont of the VM has run its command and not marked the record yet. -/
def Marked.Busy (w : Marked) (id : String) : Prop := ∃ verb, Task.toggleMark verb id ∈ w.world.tasks

/-- The domain with this uuid is that of no VM that is about to be marked, and of no marked one but
`self`. -/
def Spares (v : Virsh) (w : Marked) (self : Option String) (uuid : String) : Prop :=
  ∀ id, w.Busy id ∨ some id ≠ self ∧ w.marks id ≠ none → v.xmlUuid id ≠ some uuid

/-- The command of a pause or cont succeeds on the VM's own domain. -/
def Task.HitsOwn (v : Virsh) (a : Answer) (c : Core) : Task → Prop
  | toggleCommand verb vmId name => a.command (verb.command v c.table name) ≠ none ∧
      ∃ uuid, v.xmlUuid vmId = some uuid ∧
        (c.table.lookupActive v name).map Domain.uuid = some uuid
  | _ => True

/-- It does, and no command that works stops, pauses, resumes or sends away the domain of another VM
that is marked or about to be. Nor does such a domain power off. -/
def Effective (v : Virsh) (w : Marked) : Label → Prop
  | .advance i a => ∀ task ∈ w.world.tasks[i]?, task.HitsOwn v a w.world.core ∧
      (a.works = true → ∀ key ∈ task.target, ∀ d, w.world.core.table.lookupActive v key = some d →
        Spares v w task.self d.uuid)
  | .powerOff uuid => Spares v w none uuid
  | _ => True

/-- The marked records have the state they were marked with, and so have their domains. -/
def Agrees (v : Virsh) (w : Marked) : Prop :=
  ∀ id verb, w.marks id = some verb →
    (∃ r, w.world.core.registry.lookup id = some r ∧ r.state = verb.state) ∧
      vmStatus v w.world.core.table id = some verb.status

/-- The domains of VMs that are about to be marked are ready for it. -/
structure Consistent (v : Virsh) (w : Marked) : Prop where
  agrees : Agrees v w
  ready : ∀ id verb, Task.toggleMark verb id ∈ w.world.tasks →
    vmStatus v w.world.core.table id = some verb.status

/-- Neither command leaves a domain shut off. -/
theorem Toggle.status_ne_shutOff (verb : Toggle) : verb.status ≠ .shutOff := by
  cases verb <;> simp [Toggle.status]

/-- A call changes neither libvirt nor the registry, and marks nothing at once. -/
theorem call_leaves (verb : Verb) (params : Value) (c : Core) :
    (call verb params c).1.table = c.table ∧ (call verb params c).1.registry = c.registry ∧
      ∀ toggle id, Task.toggleMark toggle id ∉ (call verb params c).2 := by
  rw [call]
  split_ifs
  · simp
  · split
    · simp [Core.reply]
    · cases verb <;> simp
      cases migrateDst params <;> simp [Core.reply]

/-- A mark follows its command. -/
theorem toggleMark_mem_exec {v : Virsh} {a : Answer} {task : Task} {c : Core} {verb : Toggle}
    {id : String} (h : Task.toggleMark verb id ∈ (exec v a task c).2) :
    ∃ name, task = .toggleCommand verb id name := by
  cases task with
  | toggleCommand verb' vmId name =>
    simp only [exec] at h
    split at h <;> simp_all
  | _ =>
    simp only [exec] at h
    repeat' split at h
    all_goals simp at h

/-- The command of a pause or cont that hits the VM's own domain gives it its status. -/
theorem vmStatus_toggleCommand {v : Virsh} {a : Answer} {verb : Toggle} {vmId name : String}
    {c : Core} (h : (Task.toggleCommand verb vmId name).HitsOwn v a c) :
    vmStatus v (exec v a (.toggleCommand verb vmId name) c).1.table vmId = some verb.status := by
  obtain ⟨hworks, uuid, huuid, hown⟩ := h
  obtain ⟨t, ht⟩ := Option.ne_none_iff_exists'.mp hworks
  obtain ⟨d, hd, hlookup, rfl⟩ := Toggle.command_cases (Answer.command_eq_some ht)
  obtain rfl : d.uuid = uuid := by simpa [hlookup] using hown
  refine vmStatus_eq_some.mpr ⟨d.uuid, huuid, ?_⟩
  have htable : (exec v a (.toggleCommand verb vmId name) c).1.table
      = c.table.update d.uuid ⟨verb.status, d.id, d.persistent⟩ := by
    cases verb
    · have hsuspend : a.command (c.table.suspend v name) = _ := ht
      simp only [exec, hsuspend]
    · have hresume : a.command (c.table.resume v name) = _ := ht
      simp only [exec, hresume]
  rw [htable, Table.statusOf_update hd, if_pos rfl]

section Step

variable {v : Virsh} {w w' : Marked} {id : String} {s : Status}

/-- A domain that is spared keeps its status. -/
theorem vmStatus_exec {i : ℕ} {a : Answer} {task : Task} (htask : w.world.tasks[i]? = some task)
    (he : Effective v w (.advance i a)) (hlive : s ≠ .shutOff)
    (hs : vmStatus v w.world.core.table id = some s)
    (hid : w.Busy id ∨ some id ≠ task.self ∧ w.marks id ≠ none) :
    vmStatus v (exec v a task w.world.core).1.table id = some s := by
  obtain ⟨uuid, huuid, hs⟩ := vmStatus_eq_some.mp hs
  refine vmStatus_eq_some.mpr ⟨uuid, huuid, statusOf_exec hs hlive ?_⟩
  rintro hworks key hkey d hd rfl
  exact (he task htask).2 hworks key hkey d hd id hid huuid

/-- What a point of a verb leaves of the marks agrees. -/
theorem agrees_advance {i : ℕ} {a : Answer} {task : Task} (h : Consistent v w)
    (he : Effective v w (.advance i a)) (htask : w.world.tasks[i]? = some task)
    {tasks : List Task} :
    Agrees v ⟨⟨(exec v a task w.world.core).1, tasks⟩,
      fun id => task.marksAfter w.world.core (exec v a task w.world.core).1 w.marks id⟩ := by
  intro id verb hmark
  dsimp only at hmark ⊢
  cases htoggle : task with
  | toggleMark verb' vmId =>
    subst htoggle
    have hregistry : (exec v a (.toggleMark verb' vmId) w.world.core).1.registry.lookup id
        = if id = vmId then (w.world.core.registry.lookup id).map
            (fun r => { r with state := verb'.state }) else w.world.core.registry.lookup id := by
      rw [← HashMap.lookup_modify]
      cases verb' <;> rfl
    have htable : (exec v a (.toggleMark verb' vmId) w.world.core).1.table
        = w.world.core.table := rfl
    rw [Task.marksAfter] at hmark
    rw [hregistry, htable]
    split_ifs at hmark with hnew
    · obtain ⟨rfl, hmem⟩ := hnew
      obtain rfl := Option.some.inj hmark
      obtain ⟨r, hr⟩ := Option.isSome_iff_exists.mp (AList.lookup_isSome.mpr hmem)
      rw [if_pos rfl, hr]
      exact ⟨⟨_, rfl, rfl⟩, h.ready id verb' (List.mem_of_getElem? htask)⟩
    · obtain ⟨⟨r, hr, hstate⟩, hstatus⟩ := h.agrees id verb hmark
      have hother : id ≠ vmId := by
        rintro rfl
        exact hnew ⟨rfl, AList.lookup_isSome.mp (by simp [hr])⟩
      rw [if_neg hother]
      exact ⟨⟨r, hr, hstate⟩, hstatus⟩
  | _ =>
    have hkept : some id ≠ task.self ∧ (exec v a task w.world.core).1.registry.lookup id
        = w.world.core.registry.lookup id ∧ w.marks id = some verb := by
      rw [htoggle, Task.marksAfter] at hmark
      · split_ifs at hmark with hsame
        rw [htoggle]
        exact ⟨hsame.1, hsame.2, hmark⟩
      · nofun
    obtain ⟨hself, hsame, hmarked⟩ := hkept
    obtain ⟨⟨r, hr, hstate⟩, hstatus⟩ := h.agrees id verb hmarked
    rw [← htoggle]
    refine ⟨⟨r, hsame.trans hr, hstate⟩, ?_⟩
    exact vmStatus_exec htask he verb.status_ne_shutOff hstatus (.inr ⟨hself, by simp [hmarked]⟩)

/-- Effective steps keep the marks consistent. -/
theorem consistent_step {l : Label} (h : Consistent v w) (he : Effective v w l)
    (hstep : lifecycleStep v w l = some w') : Consistent v w' := by
  obtain ⟨world, hworld, rfl⟩ := Option.map_eq_some_iff.mp hstep
  cases l with
  | call verb params =>
    obtain rfl : ⟨(call verb params w.world.core).1, w.world.tasks ++ (call verb params w.world.core).2⟩
      = world := Option.some.inj hworld
    obtain ⟨htable, hregistry, hnone⟩ := call_leaves verb params w.world.core
    constructor
    · intro id verb' hmark
      dsimp only
      rw [hregistry, htable]
      exact h.agrees id verb' hmark
    · intro id verb' hmem
      rcases List.mem_append.mp hmem with hmem | hmem
      · rw [← h.ready id verb' hmem]
        exact congrArg (vmStatus v · id) htable
      · exact absurd hmem (hnone verb' id)
  | advance i a =>
    obtain ⟨task, htask, rfl⟩ := step_advance hworld
    constructor
    · simp only [htask, Option.bind_some]
      exact agrees_advance h he htask
    · intro id verb hmem
      rcases List.mem_append.mp hmem with hmem | hmem
      · have hmem := List.mem_of_mem_eraseIdx hmem
        exact vmStatus_exec htask he verb.status_ne_shutOff (h.ready id verb hmem) (.inl ⟨verb, hmem⟩)
      · obtain ⟨name, rfl⟩ := toggleMark_mem_exec hmem
        exact vmStatus_toggleCommand (he _ htask).1
  | powerOff gone =>
    obtain ⟨t, ht, rfl⟩ := Option.map_eq_some_iff.mp hworld
    obtain ⟨d, hd, rfl, -, rfl⟩ := Table.powerOff_cases ht
    have hkept : ∀ id s, w.Busy id ∨ w.marks id ≠ none →
        vmStatus v w.world.core.table id = some s →
        vmStatus v (w.world.core.table.stop d) id = some s := by
      intro id s hid hs
      obtain ⟨uuid, huuid, hs⟩ := vmStatus_eq_some.mp hs
      have hne : uuid ≠ d.uuid := by
        rintro rfl
        exact he id (hid.imp_right fun hmarked => ⟨by simp, hmarked⟩) huuid
      exact vmStatus_eq_some.mpr ⟨uuid, huuid, by simpa [Table.statusOf_stop hd, hne] using hs⟩
    constructor
    · intro id verb hmark
      obtain ⟨hrecord, hstatus⟩ := h.agrees id verb hmark
      exact ⟨hrecord, hkept id _ (.inr (by simp [show w.marks id = some verb from hmark])) hstatus⟩
    · intro id verb hmem
      exact hkept id _ (.inl ⟨verb, hmem⟩) (h.ready id verb hmem)
  | handOver name new =>
    obtain ⟨t, ht, rfl⟩ := Option.map_eq_some_iff.mp hworld
    have hkept : ∀ id (verb : Toggle), vmStatus v w.world.core.table id = some verb.status →
        vmStatus v t id = some verb.status := by
      intro id verb hs
      obtain ⟨uuid, huuid, hs⟩ := vmStatus_eq_some.mp hs
      exact vmStatus_eq_some.mpr
        ⟨uuid, huuid, Table.statusOf_handOver ht hs verb.status_ne_shutOff⟩
    constructor
    · intro id verb hmark
      obtain ⟨hrecord, hstatus⟩ := h.agrees id verb hmark
      exact ⟨hrecord, hkept id verb hstatus⟩
    · intro id verb hmem
      exact hkept id verb (h.ready id verb hmem)

end Step

/-- Lifecycle verbs and libvirt. For every state of libvirt and the registry and all outcomes of the
commands: a destroy that returns success leaves no domain of the VM running (or paused), exactly when
there was none or its command reached it; a failing pause or cont leaves the state and returns an
error, exactly when there is no such pause or cont. In every interleaving in which the commands of pause
and cont succeed on the VM's own domain, and nothing else changes the domain of a VM they marked or are
about to, the records they marked agree with libvirt. -/
theorem lifecycle_reports (v : Virsh) :
    (∀ c vmId a₁ a₂ s, s ≠ .shutOff →
        ((Succeeds c (vmDestroy v a₁ a₂ vmId c) →
            vmStatus v (vmDestroy v a₁ a₂ vmId c).table vmId ≠ some s) ↔
          ∀ uuid, v.xmlUuid vmId = some uuid → c.table.statusOf uuid = some s →
            Reaches v a₁ c vmId uuid)) ∧
      (∀ c verb vmId a,
        (ToggleFails v a verb vmId c →
            ((vmToggle v a verb vmId c).registry.lookup vmId).map VmRecord.state
                = (c.registry.lookup vmId).map VmRecord.state ∧
              ¬ Succeeds c (vmToggle v a verb vmId c)) ↔ ¬ ToggleFails v a verb vmId c) ∧
      ∀ w w' labels, (∀ id, w.marks id = none ∧ ¬ w.Busy id) →
        AllSteps (lifecycleStep v) (Effective v) w labels →
        run (lifecycleStep v) w labels = some w' → Agrees v w' := by
  refine ⟨fun c vmId a₁ a₂ s hlive => destroy_reports_iff hlive,
    fun c verb vmId a => toggle_reports_iff, fun w w' labels h0 hlabels hrun => ?_⟩
  have hinit : Consistent v w := by
    constructor
    · intro id verb hmark
      simp [(h0 id).1] at hmark
    · intro id verb hmem
      exact absurd ⟨verb, hmem⟩ (h0 id).2
  exact (run_invariant (fun _ _ _ hs he hstep => consistent_step hs he hstep) hinit hlabels hrun).agrees

/-- The VM is created, and nothing is marked yet. -/
def unmarked : Marked := ⟨createdWorld, fun _ => none⟩

/-- A poll and a pause are called. -/
def calls : List Label := [.call .getAllVmStats .null, .call .pause sampleParams]

/-- The pause runs its command, the poll takes its list, and the pause marks the record. -/
def pauseLabels (a : Answer) : List Label := calls ++ [.advance 1 a, .advance 0 a, .advance 0 a]

/-- The command is to come. -/
def pausing : Marked := (run (lifecycleStep sampleVirsh) unmarked calls).getD unmarked

/-- The VM is paused, and the poll has not reconciled yet. -/
def suspended : Marked :=
  (run (lifecycleStep sampleVirsh) unmarked (pauseLabels works)).getD unmarked

/-- A VM that was paused and then destroyed. -/
theorem lifecycle_reports_paused :
    run (lifecycleStep sampleVirsh) unmarked (pauseLabels works) = some suspended ∧
      suspended.marks sampleId = some .pause ∧ Agrees sampleVirsh suspended ∧
      vmStatus sampleVirsh
          (vmDestroy sampleVirsh works works sampleId suspended.world.core).table sampleId
        ≠ some .paused := by
  obtain ⟨hdestroy, -, hruns⟩ := lifecycle_reports sampleVirsh
  have hid : sampleVirsh.xmlUuid sampleId = some sampleId := by decide
  have hrun : run (lifecycleStep sampleVirsh) unmarked (pauseLabels works) = some suspended := rfl
  have hidle : ∀ id, unmarked.marks id = none ∧ ¬ unmarked.Busy id := by
    refine fun id => ⟨rfl, ?_⟩
    rintro ⟨verb, hmem⟩
    exact absurd hmem List.not_mem_nil
  have htasks : pausing.world.tasks = [.pollList, .toggleCommand .pause sampleId "vm"] := rfl
  have hsteps : AllSteps (lifecycleStep sampleVirsh) (Effective sampleVirsh) unmarked
      (pauseLabels works) := by
    refine allSteps_append.mpr ⟨⟨trivial, fun _ _ => ⟨trivial, fun _ _ => trivial⟩⟩, fun w hw => ?_⟩
    obtain rfl : pausing = w := Option.some.inj hw
    refine ⟨fun task htask => ?_, fun w hw => ?_⟩
    · obtain rfl : .toggleCommand .pause sampleId "vm" = task := Option.some.inj htask
      refine ⟨⟨by decide, sampleId, hid, by decide⟩, fun _ _ _ _ _ id hmarked => ?_⟩
      rcases hmarked with ⟨verb, hmem⟩ | ⟨-, hmarked⟩
      · rw [htasks] at hmem
        simp at hmem
      · exact absurd rfl hmarked
    · -- the other two points have no target
      obtain rfl := Option.some.inj hw
      refine ⟨fun task htask => ?_, fun w hw => ?_⟩
      · obtain rfl : Task.pollList = task := Option.some.inj htask
        exact ⟨trivial, nofun⟩
      obtain rfl := Option.some.inj hw
      refine ⟨fun task htask => ?_, fun _ _ => trivial⟩
      obtain rfl : Task.toggleMark .pause sampleId = task := Option.some.inj htask
      exact ⟨trivial, nofun⟩
  refine ⟨hrun, by decide, hruns unmarked suspended _ hidle hsteps hrun, ?_⟩
  refine (hdestroy _ _ _ _ _ (by decide)).mpr (fun uuid huuid _ => ?_) (vmDestroy_succeeds _ _ _ _ _)
  obtain rfl := Option.some.inj (hid.symm.trans huuid)
  exact ⟨by decide, by decide⟩

/-- A pause and a cont of the VM, and the pause marks it last. -/
def overlappingLabels : List Label :=
  [.call .pause sampleParams, .call .cont sampleParams, .advance 0 works, .advance 0 works,
    .advance 1 works, .advance 0 works]

/-- With commands that fail, a destroyed VM still runs, and so does a paused one. So does one whose
pause is overtaken by a cont. -/
theorem failed_commands_succeed :
    run (step sampleVirsh) idleWorld (createLabels sampleParams) = some createdWorld ∧
      (Succeeds createdWorld.core (vmDestroy sampleVirsh fails fails sampleId createdWorld.core) ∧
        vmStatus sampleVirsh (vmDestroy sampleVirsh fails fails sampleId createdWorld.core).table sampleId
          = some .running) ∧
      ToggleFails sampleVirsh fails .pause sampleId createdWorld.core ∧
      Succeeds createdWorld.core (vmToggle sampleVirsh fails .pause sampleId createdWorld.core) ∧
      ∀ labels ∈ [pauseLabels fails, overlappingLabels],
        ∃ w, run (lifecycleStep sampleVirsh) unmarked labels = some w ∧
          (w.world.core.registry.lookup sampleId).map VmRecord.state = some .paused ∧
          ¬ Agrees sampleVirsh w := by
  refine ⟨run_eq_getD idleWorld _ (by decide), ⟨vmDestroy_succeeds _ _ _ _ _, by decide⟩, rfl,
    (vmToggle_eq _ _ _ _ _).2.2, ?_⟩
  have hpaused : ∀ w : Marked, w.marks sampleId = some .pause →
      vmStatus sampleVirsh w.world.core.table sampleId = some .running → ¬ Agrees sampleVirsh w := by
    intro w hmark hstatus hagrees
    obtain ⟨-, hpaused⟩ := hagrees sampleId .pause hmark
    simp [hstatus, Toggle.status] at hpaused
  simp only [List.forall_mem_cons]
  refine ⟨⟨_, rfl, by decide, hpaused _ (by decide) (by decide)⟩,
    ⟨_, rfl, by decide, hpaused _ (by decide) (by decide)⟩, nofun⟩

end Vdsm.Virt
