import Vdsm.Virt.Verbs

/-!
# The shutdown watchdog

A watchdog holds a key, the name under which `vm_shutdown` addressed the VM, and destroys whatever
runs under that key when it fires. `Spared` says when that can only be an incarnation from before the
shutdown call: every active domain that answers to the key of a pending watchdog is at most as new as
the call. It is kept by every step except one that starts a domain under such a key.
-/

namespace Vdsm.Virt

open Rust Transition

/-- The key of a shutdown in progress or of its watchdog, and the number of starts at the call. -/
def Task.watch : Task → Option (String × ℕ)
  | shutdownSignal _ name armed => some (name, armed)
  | shutdownMark _ name armed => some (name, armed)
  | watchdogCheck _ name armed => some (name, armed)
  | watchdogDestroy _ name armed => some (name, armed)
  | _ => none

/-- The keys a list of tasks watches. -/
def watches (tasks : List Task) : List (String × ℕ) := tasks.flatMap fun t => t.watch.toList

/-- The incarnation a step brings up, if it does. -/
def newcomer (v : Virsh) (w : World) : Label → Option Domain
  | .advance i _ =>
    match w.tasks[i]? with
    | some (.createStart _ spec) => w.core.table.startable v spec.name (w.core.starts + 1)
    | _ => none
  | .handOver name uuid => some ⟨name, uuid, .running, w.core.starts + 1, true⟩
  | _ => none

/-- No domain is started under the key of a pending watchdog. -/
def Unwatched (v : Virsh) (w : World) (l : Label) : Prop :=
  ∀ new ∈ newcomer v w l, ∀ p ∈ watches w.tasks, ¬ new.AnswersTo v p.1

instance (v : Virsh) (w : World) (l : Label) : Decidable (Unwatched v w l) :=
  inferInstanceAs (Decidable (∀ new ∈ newcomer v w l, ∀ p ∈ watches w.tasks, ¬ new.AnswersTo v p.1))

/-- No watchdog issued a destroy on an incarnation started after the shutdown call that armed it. -/
def NoLateKill (w : World) : Prop :=
  ∀ armed n, Event.watchdogDestroy armed n ∈ w.core.log → n ≤ armed

/-- A world in which no verb is in progress. -/
structure World.Initial (w : World) : Prop where
  no_tasks : w.tasks = []
  no_log : w.core.log = []
  ids_le : ∀ d ∈ w.core.table, d.active = true → d.id ≤ w.core.starts

/-! ## What a step can do -/

/-- What a step does to the incarnations. -/
def TableEffect (new : Option Domain) (c c' : Core) : Prop :=
  (Table.NoNewIncarnation c.table c'.table ∧ c'.starts = c.starts) ∨
    ∃ d, new = some d ∧ d.id = c'.starts ∧ Table.OnlyNew d c.table c'.table ∧
      c'.starts = c.starts + 1

/-- What a step adds to the log of the watchdogs. -/
def LogEffect (v : Virsh) (watches : List (String × ℕ)) (c c' : Core) : Prop :=
  ∀ armed n, Event.watchdogDestroy armed n ∈ c'.log →
    Event.watchdogDestroy armed n ∈ c.log ∨
      ∃ key, (key, armed) ∈ watches ∧
        ∃ d ∈ c.table, d.active = true ∧ d.AnswersTo v key ∧ d.id = n

/-- A turn that logs nothing has no effect to answer for. -/
theorem logEffect_of_eq {v : Virsh} {watches : List (String × ℕ)} {c c' : Core}
    (h : c'.log = c.log) : LogEffect v watches c c' :=
  fun _ _ hmem => .inl (h ▸ hmem)

/-- Nor has one that only replies. -/
theorem logEffect_reply {v : Virsh} {watches : List (String × ℕ)} {c c' : Core}
    {result : Except JsonRpcError Value} (h : c'.log = c.log ++ [.reply result]) :
    LogEffect v watches c c' := by
  intro armed n hmem
  rw [h] at hmem
  exact .inl (by simpa using hmem)

theorem tableEffect_refl {new : Option Domain} {c c' : Core} (ht : c'.table = c.table)
    (hs : c'.starts = c.starts) : TableEffect new c c' :=
  .inl ⟨ht ▸ .refl _, hs⟩

/-- A command that gives a result had one to give. -/
theorem Answer.command_eq_some {α : Type} {a : Answer} {result : Option α} {x : α}
    (h : a.command result = some x) : result = some x := by
  rw [command] at h
  split at h
  · exact h
  · simp at h

/-- A task passes its key on to the next point, and to no other task. -/
theorem exec_watches (v : Virsh) (a : Answer) (task : Task) (c : Core) :
    watches (exec v a task c).2 ⊆ watches [task] := by
  cases task <;> simp only [exec] <;> repeat' split
  all_goals simp [watches, Task.watch]

/-- What one task does to libvirt and to the log. -/
theorem exec_effect (v : Virsh) (a : Answer) (task : Task) (c : Core) :
    TableEffect
        (match task with
          | .createStart _ spec => c.table.startable v spec.name (c.starts + 1)
          | _ => none)
        c (exec v a task c).1 ∧
      LogEffect v (watches [task]) c (exec v a task c).1 := by
  cases task with
  | createDefine vmId spec =>
    simp only [exec]
    split
    · rename_i t ht
      exact ⟨.inl ⟨Table.define_noNew (Answer.command_eq_some ht), rfl⟩, logEffect_of_eq rfl⟩
    · exact ⟨tableEffect_refl rfl rfl, logEffect_reply rfl⟩
  | createStart vmId spec =>
    simp only [exec]
    split
    · rename_i t ht
      obtain ⟨new, hnew, honly⟩ := Table.start_onlyNew (Answer.command_eq_some ht)
      obtain ⟨d, -, -, hd⟩ := Table.startable_cases hnew
      exact ⟨.inr ⟨new, hnew, by rw [hd], honly, rfl⟩, logEffect_of_eq rfl⟩
    · exact ⟨tableEffect_refl rfl rfl, logEffect_reply rfl⟩
  | destroyDestroy vmId name =>
    simp only [exec]
    split
    · rename_i d t ht
      obtain ⟨hd, -, -, rfl⟩ := Table.destroy_spec (Answer.command_eq_some ht)
      exact ⟨.inl ⟨Table.noNewIncarnation_stop hd, rfl⟩, logEffect_of_eq rfl⟩
    · exact ⟨tableEffect_refl rfl rfl, logEffect_of_eq rfl⟩
  | destroyUndefine vmId name =>
    simp only [exec]
    split
    · rename_i t ht
      exact ⟨.inl ⟨Table.undefine_noNew (Answer.command_eq_some ht), rfl⟩, logEffect_of_eq rfl⟩
    · exact ⟨tableEffect_refl rfl rfl, logEffect_of_eq rfl⟩
  | watchdogCheck vmId name armed =>
    simp only [exec]
    repeat' split
    all_goals exact ⟨tableEffect_refl rfl rfl, logEffect_of_eq rfl⟩
  | watchdogDestroy vmId name armed =>
    -- the log is the same whether the command works or not
    have hlog : LogEffect v (watches [.watchdogDestroy vmId name armed]) c
        (exec v a (.watchdogDestroy vmId name armed) c).1 := by
      intro armed' n hmem
      have hmem' : Event.watchdogDestroy armed' n ∈ c.log ++
          ((c.table.destroy v name).map fun p => Event.watchdogDestroy armed p.1.id).toList := by
        simp only [exec] at hmem
        split at hmem <;> exact hmem
      rcases List.mem_append.mp hmem' with hold | hnew
      · exact .inl hold
      · obtain ⟨⟨d, t⟩, hdestroy, heq⟩ := Option.map_eq_some_iff.mp (Option.mem_toList.mp hnew)
        obtain ⟨rfl, rfl⟩ := Event.watchdogDestroy.inj heq
        obtain ⟨hd, hact, hans, -⟩ := Table.destroy_spec hdestroy
        exact .inr ⟨name, by simp [watches, Task.watch], d, hd, hact, hans, rfl⟩
    refine ⟨?_, hlog⟩
    simp only [exec]
    split
    · rename_i d t ht
      obtain ⟨hd, -, -, rfl⟩ := Table.destroy_spec (Answer.command_eq_some ht)
      exact .inl ⟨Table.noNewIncarnation_stop hd, rfl⟩
    · exact tableEffect_refl rfl rfl
  | toggleCommand verb vmId name =>
    cases verb with
    | pause =>
      simp only [exec]
      split
      · rename_i t ht
        exact ⟨.inl ⟨Table.suspend_noNew (Answer.command_eq_some ht), rfl⟩, logEffect_of_eq rfl⟩
      · exact ⟨tableEffect_refl rfl rfl, logEffect_of_eq rfl⟩
    | cont =>
      simp only [exec]
      split
      · rename_i t ht
        exact ⟨.inl ⟨Table.resume_noNew (Answer.command_eq_some ht), rfl⟩, logEffect_of_eq rfl⟩
      · exact ⟨tableEffect_refl rfl rfl, logEffect_of_eq rfl⟩
  | migrateRun name =>
    simp only [exec]
    split
    · rename_i t ht
      exact ⟨.inl ⟨Table.migrateAway_noNew (Answer.command_eq_some ht), rfl⟩, logEffect_of_eq rfl⟩
    · exact ⟨tableEffect_refl rfl rfl, logEffect_of_eq rfl⟩
  -- the points that change neither
  | pollList =>
    simp only [exec]
    split
    all_goals exact ⟨tableEffect_refl rfl rfl, logEffect_of_eq rfl⟩
  | shutdownSignal vmId name armed => exact ⟨tableEffect_refl rfl rfl, logEffect_of_eq rfl⟩
  | watchdogMark vmId => exact ⟨tableEffect_refl rfl rfl, logEffect_of_eq rfl⟩
  | pollReconcile names => exact ⟨tableEffect_refl rfl rfl, logEffect_of_eq rfl⟩
  -- the points that reply
  | _ => exact ⟨tableEffect_refl rfl rfl, logEffect_reply rfl⟩

/-- A call touches nothing but the log, and arms a watchdog for the starts so far. -/
theorem call_effect (verb : Verb) (params : Value) (c : Core) :
    (call verb params c).1.table = c.table ∧ (call verb params c).1.starts = c.starts ∧
      (∀ v ws, LogEffect v ws c (call verb params c).1) ∧
      ∀ p ∈ watches (call verb params c).2, p.2 = c.starts := by
  unfold call
  split
  · exact ⟨rfl, rfl, fun _ _ => logEffect_of_eq rfl, by simp [watches, Task.watch]⟩
  · split
    · exact ⟨rfl, rfl, fun _ _ => logEffect_reply rfl, by simp [watches]⟩
    · cases verb with
      | migrate =>
        simp only
        split
        · exact ⟨rfl, rfl, fun _ _ => logEffect_reply rfl, by simp [watches]⟩
        · exact ⟨rfl, rfl, fun _ _ => logEffect_reply rfl, by simp [watches, Task.watch]⟩
      | _ => exact ⟨rfl, rfl, fun _ _ => logEffect_of_eq rfl, by simp [watches, Task.watch]⟩

/-- More watches allow more. -/
theorem LogEffect.mono {v : Virsh} {ws ws' : List (String × ℕ)} {c c' : Core}
    (h : LogEffect v ws c c') (hsub : ws ⊆ ws') : LogEffect v ws' c c' := by
  intro armed n hmem
  rcases h armed n hmem with hold | ⟨key, hkey, hd⟩
  · exact .inl hold
  · exact .inr ⟨key, hsub hkey, hd⟩

/-- Everything a step can do, as far as watchdogs go. -/
theorem step_effect {v : Virsh} {w w' : World} {l : Label} (h : step v w l = some w') :
    TableEffect (newcomer v w l) w.core w'.core ∧
      LogEffect v (watches w.tasks) w.core w'.core ∧
      ∀ p ∈ watches w'.tasks,
        p ∈ watches w.tasks ∨ (newcomer v w l = none ∧ p.2 = w.core.starts) := by
  cases l with
  | call verb params =>
    obtain ⟨ht, hs, hlog, hwatch⟩ := call_effect verb params w.core
    obtain rfl := Option.some.inj h
    refine ⟨tableEffect_refl ht hs, hlog v _, fun p hp => ?_⟩
    rw [watches, List.flatMap_append, List.mem_append] at hp
    rcases hp with hp | hp
    · exact .inl hp
    · exact .inr ⟨rfl, hwatch p hp⟩
  | advance i a =>
    obtain ⟨task, htask, rfl⟩ := step_advance h
    have hmem : task ∈ w.tasks := List.mem_of_getElem? htask
    have hsub : watches [task] ⊆ watches w.tasks := by
      intro p hp
      have hp' : p ∈ task.watch.toList := by simpa [watches] using hp
      exact List.mem_flatMap.mpr ⟨task, hmem, hp'⟩
    obtain ⟨htable, hlog⟩ := exec_effect v a task w.core
    refine ⟨?_, hlog.mono hsub, fun p hp => .inl ?_⟩
    · rw [newcomer, htask]
      cases task <;> exact htable
    · rw [watches, List.flatMap_append, List.mem_append] at hp
      rcases hp with hp | hp
      · obtain ⟨t, ht, hpt⟩ := List.mem_flatMap.mp hp
        exact List.mem_flatMap.mpr ⟨t, List.mem_of_mem_eraseIdx ht, hpt⟩
      · exact hsub (exec_watches v a task w.core hp)
  | powerOff uuid =>
    obtain ⟨t, ht, rfl⟩ := Option.map_eq_some_iff.mp h
    exact ⟨.inl ⟨Table.powerOff_noNew ht, rfl⟩, logEffect_of_eq rfl, fun p hp => .inl hp⟩
  | handOver name uuid =>
    obtain ⟨t, ht, rfl⟩ := Option.map_eq_some_iff.mp h
    exact ⟨.inr ⟨_, rfl, rfl, Table.handOver_onlyNew ht, rfl⟩, logEffect_of_eq rfl,
      fun p hp => .inl hp⟩

/-! ## The invariant -/

/-- Whatever a pending watchdog could destroy is at most as new as its shutdown call. -/
structure Spared (v : Virsh) (w : World) : Prop where
  ids_le : ∀ d ∈ w.core.table, d.active = true → d.id ≤ w.core.starts
  watched : ∀ p ∈ watches w.tasks, ∀ d ∈ w.core.table, d.active = true → d.AnswersTo v p.1 →
    d.id ≤ p.2
  killed : NoLateKill w

/-- The invariant holds at the start. -/
theorem spared_initial {v : Virsh} {w : World} (h : w.Initial) : Spared v w where
  ids_le := h.ids_le
  watched := by simp [h.no_tasks, watches]
  killed := by simp [NoLateKill, h.no_log]

/-- An incarnation that ran before under the same name, uuid and id. -/
theorem answersTo_congr {v : Virsh} {d d' : Domain} {key : String} (hn : d.name = d'.name)
    (hu : d.uuid = d'.uuid) (hi : d.id = d'.id) (h : d'.AnswersTo v key) : d.AnswersTo v key := by
  rwa [Domain.AnswersTo, hn, hu, hi]

/-- Every step that meets the condition keeps it. -/
theorem spared_step {v : Virsh} {w w' : World} {l : Label} (h : Spared v w)
    (hl : Unwatched v w l) (hstep : step v w l = some w') : Spared v w' := by
  obtain ⟨htable, hlog, hwatch⟩ := step_effect hstep
  -- what is active afterwards was active before, or is the one newcomer
  have hactive : ∀ d' ∈ w'.core.table, d'.active = true →
      (∃ d ∈ w.core.table, d.active = true ∧ d.name = d'.name ∧ d.uuid = d'.uuid ∧ d.id = d'.id) ∨
        (newcomer v w l = some d' ∧ d'.id = w'.core.starts) := by
    intro d' hd' hact
    rcases htable with ⟨hno, -⟩ | ⟨new, hnew, hid, honly, -⟩
    · exact .inl (hno d' hd' hact)
    · rcases honly d' hd' hact with rfl | hold
      · exact .inr ⟨hnew, hid⟩
      · exact .inl hold
  have hstarts : w.core.starts ≤ w'.core.starts := by
    rcases htable with ⟨-, hs⟩ | ⟨-, -, -, -, hs⟩ <;> omega
  refine ⟨?_, ?_, ?_⟩
  · intro d' hd' hact
    rcases hactive d' hd' hact with ⟨d, hd, hda, -, -, hid⟩ | ⟨-, hid⟩
    · have := h.ids_le d hd hda
      omega
    · omega
  · intro p hp d' hd' hact hans
    rcases hactive d' hd' hact with ⟨d, hd, hda, hn, hu, hid⟩ | ⟨hnew, -⟩
    · rw [← hid]
      rcases hwatch p hp with hold | ⟨-, hfresh⟩
      · exact h.watched p hold d hd hda (answersTo_congr hn hu hid hans)
      · exact hfresh ▸ h.ids_le d hd hda
    -- a newcomer: no pending key may name it, and this step arms no watchdog
    · rcases hwatch p hp with hold | ⟨hnone, -⟩
      · exact absurd hans (hl d' hnew p hold)
      · simp [hnone] at hnew
  · intro armed n hmem
    rcases hlog armed n hmem with hold | ⟨key, hkey, d, hd, hact, hans, rfl⟩
    · exact h.killed armed n hold
    · exact h.watched _ hkey d hd hact hans

/-- The shutdown watchdog never kills a later incarnation, in every run in which no domain is started
under the key of a pending watchdog. -/
theorem watchdog_spares_later (v : Virsh) (w w' : World) (labels : List Label) (h0 : w.Initial)
    (hlabels : AllSteps (step v) (Unwatched v) w labels) (h : run (step v) w labels = some w') :
    NoLateKill w' :=
  (run_invariant (fun _ _ _ hs hl hstep => spared_step hs hl hstep) (spared_initial h0) hlabels
    h).killed

/-- `virsh` on domain ids, names, and uuids as it prints them. -/
def sampleVirsh : Virsh where
  argId := parseUnsigned (2 ^ 31 - 1)
  argUuid s := if s.toList.length = 36 then some s else none
  xmlUuid s := if s.toList.length = 36 then some s else none

/-- An idle host without domains. -/
def idleWorld : World := ⟨⟨Table.empty, 0, ∅, []⟩, []⟩

theorem idleWorld_initial : idleWorld.Initial :=
  ⟨rfl, rfl, fun _ hd => absurd hd List.not_mem_nil⟩

/-- A command that works. -/
def works : Answer := ⟨true, "", 0, ⟨fun _ => none, fun _ => none, fun _ => 0⟩⟩

def sampleId : String := "6b1d3c52-6a0e-4c0b-9a35-0e2a1f4f7f10"

def sampleParams : Value :=
  .object [("vmID", .string sampleId), ("vmParams", .object [("vmName", .string "vm")])]

/-- Create, then shut down a guest that does not react, with a second VM created before the watchdog
fires. -/
def hungRun : List Label :=
  let other := .object [("vmID", .string "0c3f7a8e-1d2b-4e5f-8a9b-7c6d5e4f3a2b")]
  [.call .create sampleParams, .advance 0 works, .advance 0 works, .advance 0 works,
    .call .shutdown sampleParams, .advance 0 works, .advance 0 works,
    .call .create other, .advance 1 works, .advance 1 works, .advance 0 works, .advance 1 works]

/-- A shut-down that hangs, with no second VM of the name: the condition is met. -/
theorem watchdog_spares_later_hung :
    AllSteps (step sampleVirsh) (Unwatched sampleVirsh) idleWorld hungRun ∧
      ∃ w, run (step sampleVirsh) idleWorld hungRun = some w ∧ NoLateKill w := by
  have hsteps : AllSteps (step sampleVirsh) (Unwatched sampleVirsh) idleWorld hungRun := by decide
  obtain ⟨w, hw⟩ := Option.isSome_iff_exists.mp
    (show (run (step sampleVirsh) idleWorld hungRun).isSome = true by decide)
  exact ⟨hsteps, w, hw, watchdog_spares_later _ _ w _ idleWorld_initial hsteps hw⟩

/-- Create, shut down; the guest powers off at once; create again; the watchdog fires. -/
def restartRun : List Label :=
  [.call .create sampleParams, .advance 0 works, .advance 0 works, .advance 0 works,
    .call .shutdown sampleParams, .advance 0 works, .advance 0 works, .powerOff sampleId,
    .call .create sampleParams, .advance 1 works, .advance 1 works, .advance 1 works,
    .advance 0 works, .advance 0 works]

/-- Is this the destruction of a later incarnation? -/
def Event.isLateKill : Event → Bool
  | watchdogDestroy armed n => armed < n
  | reply _ => false

/-- A late kill in the log is one. -/
theorem not_noLateKill {w : World} (h : w.core.log.any Event.isLateKill = true) :
    ¬ NoLateKill w := by
  intro hno
  obtain ⟨e, he, hlate⟩ := List.any_eq_true.mp h
  cases e with
  | reply r => simp [Event.isLateKill] at hlate
  | watchdogDestroy armed n =>
    have hlt : armed < n := by simpa [Event.isLateKill] using hlate
    exact absurd (hno armed n he) (by omega)

/-- The watchdog of the first incarnation destroys the second. -/
theorem watchdog_kills_later :
    idleWorld.Initial ∧
      ∃ w, run (step sampleVirsh) idleWorld restartRun = some w ∧ ¬ NoLateKill w := by
  have hrun : (run (step sampleVirsh) idleWorld restartRun).any
      (fun w => w.core.log.any Event.isLateKill) = true := by decide
  obtain ⟨w, hw, hlate⟩ := (Option.any_eq_true _ _).mp hrun
  exact ⟨idleWorld_initial, w, hw, not_noLateKill hlate⟩

end Vdsm.Virt
