import Vdsm.Virt.Identity

/-!
# The registry after a reconciliation

Every record stands under its own id, in every state that the verbs reach. A reconciliation keeps the
records whose names are listed, adds one for each listed name that leads to a new uuid, and leaves no
others; with the same answers, a second one finds nothing to do.
-/

namespace Vdsm.Virt

open Rust Transition

/-- Every record stands under its own id. -/
def Keyed (reg : Registry) : Prop := ∀ key r, reg.lookup key = some r → r.vmId = key

/-- How the registry after a reconciliation comes from the one before, by the names that were listed
and the answers of `domuuid`. -/
structure Reconciled (q : Queries) (names : List String) (reg reg' : Registry) : Prop where
  listed : ∀ key r, reg'.lookup key = some r → r.vmName ∈ names
  found : ∀ n ∈ names, ∀ uuid, q.Finds n uuid → uuid ∈ reg'
  kept : ∀ key r, reg.lookup key = some r → r.vmName ∈ names → reg'.lookup key = some r
  /-- Any other record is new: there was none that could have been kept. -/
  added : ∀ key r, reg'.lookup key = some r → ¬ (reg.lookup key = some r ∧ r.vmName ∈ names) →
    (∀ r₀, reg.lookup key = some r₀ → r₀.vmName ∉ names) ∧ r.vmId = key ∧ r.state = .up

/-- After a poll every record is of a listed name, and every listed name that can be identified has
one. -/
theorem reconcile_reconciled (q : Queries) (names : List String) (reg : Registry) :
    Reconciled q names reg (reconcile q names reg) where
  listed _ _ h := (lookup_reconcile_cases h).1
  found n hn _ hfinds := mem_foldl_importDomain.mpr (.inr ⟨n, hn, hfinds⟩)
  kept _ _ h hmem := lookup_reconcile_of_listed h hmem
  added key r h hother := by
    obtain ⟨hmem, hold | ⟨hnew, himports⟩⟩ := lookup_reconcile_cases h
    · exact absurd ⟨hold, hmem⟩ hother
    · exact ⟨hnew, himports.id, himports.up⟩

/-! ## Once more -/

/-- Where all is kept nothing is lost. -/
theorem retain_eq_self {reg : Registry} {keep : String → VmRecord → Bool}
    (h : ∀ key r, reg.lookup key = some r → keep key r = true) : reg.retain keep = reg := by
  refine AList.ext (List.filter_eq_self.mpr fun e he => ?_)
  exact h e.1 e.2 (AList.mem_lookup_iff.mpr he)

/-- An import of what is known does nothing. -/
theorem importDomain_eq_self {q : Queries} {reg : Registry} {name : String}
    (h : ∀ uuid, q.Finds name uuid → uuid ∈ reg) : importDomain q reg name = reg := by
  rcases importDomain_cases q reg name with heq | ⟨new, hnew, -, -, heq⟩
  · exact heq
  · -- an insertion would be of a uuid that was found
    have hin : new.vmId ∈ importDomain q reg name := by
      rw [heq]
      exact (AList.mem_insert _).mpr (.inl rfl)
    exact absurd (h _ ((mem_importDomain.mp hin).resolve_left hnew)) hnew

/-- Where all is registered nothing is imported. -/
theorem foldl_importDomain_eq_self {q : Queries} {reg : Registry} {names : List String}
    (h : ∀ n ∈ names, ∀ uuid, q.Finds n uuid → uuid ∈ reg) :
    names.foldl (importDomain q) reg = reg := by
  induction names with
  | nil => rfl
  | cons n ns ih =>
    rw [List.foldl_cons, importDomain_eq_self (h n (by simp))]
    exact ih fun n' hn' => h n' (by simp [hn'])

/-- A reconciled registry is left alone, whatever `dominfo` and the clock say now. -/
theorem Reconciled.fixed {q q' : Queries} {names : List String} {reg reg' : Registry}
    (h : Reconciled q names reg reg') (hq : q'.domuuid = q.domuuid) :
    reconcile q' names reg' = reg' := by
  have hfinds : ∀ n uuid, q'.Finds n uuid → q.Finds n uuid := by
    rintro n uuid ⟨out, hout, hrest⟩
    exact ⟨out, hq ▸ hout, hrest⟩
  rw [reconcile, retain_eq_self]
  · exact foldl_importDomain_eq_self fun n hn uuid hf => h.found n hn uuid (hfinds n uuid hf)
  · intro key r hr
    simpa using h.listed key r hr

/-! ## Reachable states -/

/-- Every task registers a record under its own id. -/
theorem exec_keyed {v : Virsh} {a : Answer} {task : Task} {c : Core} (h : Keyed c.registry) :
    Keyed (exec v a task c).1.registry :=
  exec_forall (P := fun key r => r.vmId = key) h (fun _ _ _ hr => hr) (fun _ _ _ _ => rfl)
    (fun _ _ himports => himports.id)

/-- A call replies at most. -/
theorem call_registry (verb : Verb) (params : Value) (c : Core) :
    (call verb params c).1.registry = c.registry := by
  rw [call]
  split
  · rfl
  · split
    · rfl
    · cases verb with
      | migrate =>
        dsimp only
        split <;> rfl
      | _ => rfl

/-- So every step keeps the ids of the records with their keys. -/
theorem step_keyed {v : Virsh} {w w' : World} {l : Label} (h : Keyed w.core.registry)
    (hstep : step v w l = some w') : Keyed w'.core.registry := by
  cases l with
  | call verb params =>
    obtain rfl := Option.some.inj hstep
    exact (call_registry verb params w.core).symm ▸ h
  | advance i a =>
    obtain ⟨task, -, rfl⟩ := step_advance hstep
    exact exec_keyed h
  | powerOff uuid =>
    obtain ⟨t, -, rfl⟩ := Option.map_eq_some_iff.mp hstep
    exact h
  | handOver name uuid =>
    obtain ⟨t, -, rfl⟩ := Option.map_eq_some_iff.mp hstep
    exact h

/-- The post-state of a reconciliation. In every state that a run of the verbs reaches, each record
stands under its own id; from there, and for all answers, `reconcile_from_libvirt` keeps the records
whose names are listed as they are, has a record under each uuid that a listed name leads to, and adds
no record that is not new and `Up`. A list that fails changes nothing, and nothing is left to do for a
second reconciliation with the same list and the same uuids. -/
theorem reconcile_post_state (v : Virsh) (w w' : World) (labels : List Label) (h0 : w.Fresh)
    (hrun : run (step v) w labels = some w') :
    Keyed w'.core.registry ∧ ∀ q : Queries,
      (∀ out, Reconciled q (listedNames out) w'.core.registry
          (reconcileFromLibvirt q (some out) w'.core.registry)) ∧
        reconcileFromLibvirt q none w'.core.registry = w'.core.registry ∧
        ∀ q' out, q'.domuuid = q.domuuid →
          reconcileFromLibvirt q' out (reconcileFromLibvirt q out w'.core.registry)
            = reconcileFromLibvirt q out w'.core.registry := by
  have hkeyed : Keyed w'.core.registry := by
    have hinit : Keyed w.core.registry := h0.no_records ▸ HashMap.Forall.empty
    have hpres : ∀ s l s', Keyed s.core.registry → True → step v s l = some s' →
        Keyed s'.core.registry := fun _ _ _ hs _ hstep => step_keyed hs hstep
    exact run_invariant hpres hinit (allSteps_of_forall fun _ _ => trivial) hrun
  refine ⟨hkeyed, fun q => ⟨fun out => reconcile_reconciled q _ _, rfl, fun q' out hq => ?_⟩⟩
  cases out with
  | none => rfl
  | some out => exact (reconcile_reconciled q (listedNames out) _).fixed hq

/-- A poll after one VM was created, where `virsh` gives another id for its name. -/
theorem reconcile_post_state_created :
    run (step sampleVirsh) idleWorld (createLabels sampleParams) = some createdWorld ∧
      Keyed createdWorld.core.registry ∧
      Reconciled (worksFor otherId).queries ["vm"] createdWorld.core.registry
        (reconcileFromLibvirt (worksFor otherId).queries (some "vm\n\n")
          createdWorld.core.registry) := by
  have hrun := run_eq_getD idleWorld (createLabels sampleParams) (by decide)
  obtain ⟨hkeyed, hpost⟩ :=
    reconcile_post_state sampleVirsh idleWorld createdWorld _ idleWorld_fresh hrun
  exact ⟨hrun, hkeyed, (hpost _).1 "vm\n\n"⟩

end Vdsm.Virt
