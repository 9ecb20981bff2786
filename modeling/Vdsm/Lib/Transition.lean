import Mathlib.Tactic.Common

/-!
# Runs of a labelled transition system

`step s a` is the state after label `a`, if `a` can happen in `s`. `run` follows a list of labels, and
`AllSteps P` says that `P` holds at each step of it. `run_invariant` is the rule for properties of
every state of every run whose steps meet a condition, `allSteps_congr_of_mem` the one for comparing two
conditions.
-/

namespace Transition

variable {σ α : Type} {step : σ → α → Option σ}

/-- The state after a list of labels. -/
def run (step : σ → α → Option σ) : σ → List α → Option σ
  | s, [] => some s
  | s, a :: as => (step s a).bind fun s' => run step s' as

/-- Each step of the run meets `P`. -/
def AllSteps (step : σ → α → Option σ) (P : σ → α → Prop) : σ → List α → Prop
  | _, [] => True
  | s, a :: as => P s a ∧ ∀ s' ∈ step s a, AllSteps step P s' as

instance decidableAllSteps {P : σ → α → Prop} [∀ s a, Decidable (P s a)] :
    ∀ s as, Decidable (AllSteps step P s as)
  | _, [] => isTrue trivial
  | s, a :: as =>
    have : DecidablePred fun s' => AllSteps step P s' as := fun s' => decidableAllSteps s' as
    inferInstanceAs (Decidable (P s a ∧ ∀ s' ∈ step s a, AllSteps step P s' as))

/-- A run takes its first step and goes on from there. -/
theorem run_cons {s t : σ} {a : α} {as : List α} (h : run step s (a :: as) = some t) :
    ∃ s', step s a = some s' ∧ run step s' as = some t := by
  simpa [run, Option.bind_eq_some_iff] using h

/-- A condition that every action meets in any state is met along a run. -/
theorem allSteps_of_mem {P : σ → α → Prop} {s : σ} {as : List α} (h : ∀ a ∈ as, ∀ s, P s a) :
    AllSteps step P s as := by
  induction as generalizing s with
  | nil => trivial
  | cons a as ih =>
    exact ⟨h a (List.mem_cons_self ..) s, fun s' _ => ih fun b hb => h b (List.mem_cons_of_mem a hb)⟩

/-- The same for a condition on actions alone. -/
theorem allSteps_of_forall {P : α → Prop} {s : σ} {as : List α} (h : ∀ a ∈ as, P a) :
    AllSteps step (fun _ a => P a) s as :=
  allSteps_of_mem fun a ha _ => h a ha

/-- What every step of a run keeps, if it meets `P`, holds at the end of the run. -/
theorem run_invariant_of_mem {P : σ → α → Prop} {Inv : σ → Prop} {as : List α}
    (hpres : ∀ a ∈ as, ∀ s s', Inv s → P s a → step s a = some s' → Inv s') {s t : σ}
    (h0 : Inv s) (hP : AllSteps step P s as) (h : run step s as = some t) : Inv t := by
  induction as generalizing s with
  | nil =>
    obtain rfl : s = t := by simpa [run] using h
    exact h0
  | cons a as ih =>
    obtain ⟨s', hstep, hrun⟩ := run_cons h
    exact ih (fun b hb => hpres b (List.mem_cons_of_mem a hb))
      (hpres a (List.mem_cons_self ..) s s' h0 hP.1 hstep) (hP.2 s' hstep) hrun

/-- What every step that meets `P` preserves holds at the end of every such run. -/
theorem run_invariant {P : σ → α → Prop} {Inv : σ → Prop}
    (hpres : ∀ s a s', Inv s → P s a → step s a = some s' → Inv s') {s t : σ} {as : List α}
    (h0 : Inv s) (hP : AllSteps step P s as) (h : run step s as = some t) : Inv t :=
  run_invariant_of_mem (fun a _ s s' => hpres s a s') h0 hP h

/-- Two runs one after the other. -/
theorem run_append (s : σ) (as bs : List α) :
    run step s (as ++ bs) = (run step s as).bind fun t => run step t bs := by
  induction as generalizing s with
  | nil => rfl
  | cons a as ih =>
    rw [List.cons_append, run, run, Option.bind_assoc]
    simp only [ih]

/-- A condition along both is met in the first and, from where that ends, in the second. -/
theorem allSteps_append {P : σ → α → Prop} {s : σ} {as bs : List α} :
    AllSteps step P s (as ++ bs) ↔
      AllSteps step P s as ∧ ∀ t ∈ run step s as, AllSteps step P t bs := by
  induction as generalizing s with
  | nil => simp [AllSteps, run]
  | cons a as ih =>
    simp only [List.cons_append, AllSteps, ih, run, Option.mem_def, Option.bind_eq_some_iff]
    constructor
    · rintro ⟨hP, hrest⟩
      refine ⟨⟨hP, fun s' hs' => (hrest s' hs').1⟩, ?_⟩
      rintro t ⟨s', hs', ht⟩
      exact (hrest s' hs').2 t ht
    · rintro ⟨⟨hP, hrest⟩, hlast⟩
      exact ⟨hP, fun s' hs' => ⟨hrest s' hs', fun t ht => hlast t ⟨s', hs', ht⟩⟩⟩

/-- Two conditions that agree on the labels of a run wherever an invariant holds, if steps that meet
one of them keep it, are met by the run alike. -/
theorem allSteps_congr_of_mem {P Q : σ → α → Prop} {Inv : σ → Prop} {as : List α}
    (hiff : ∀ a ∈ as, ∀ s, Inv s → (P s a ↔ Q s a))
    (hpres : ∀ a ∈ as, ∀ s s', Inv s → Q s a → step s a = some s' → Inv s') {s : σ} (h0 : Inv s) :
    AllSteps step P s as ↔ AllSteps step Q s as := by
  induction as generalizing s with
  | nil => exact Iff.rfl
  | cons a as ih =>
    rw [AllSteps, AllSteps, hiff a (List.mem_cons_self ..) s h0]
    refine and_congr_right fun hQ => forall₂_congr fun s' hs' => ?_
    exact ih (fun b hb => hiff b (List.mem_cons_of_mem a hb))
      (fun b hb => hpres b (List.mem_cons_of_mem a hb))
      (hpres a (List.mem_cons_self ..) s s' h0 hQ hs')

/-- Where an invariant holds, and steps that meet a condition keep it, the condition may be all that
another needs. -/
theorem allSteps_of_invariant {P Q : σ → α → Prop} {Inv : σ → Prop}
    (himp : ∀ s a, Inv s → Q s a → P s a)
    (hpres : ∀ s a s', Inv s → Q s a → step s a = some s' → Inv s') {s : σ} (h0 : Inv s)
    {as : List α} (h : AllSteps step Q s as) : AllSteps step P s as := by
  induction as generalizing s with
  | nil => trivial
  | cons a as ih =>
    exact ⟨himp s a h0 h.1, fun s' hs' => ih (hpres s a s' h0 h.1 hs') (h.2 s' hs')⟩

/-- The same where the steps come in blocks, and the invariant holds between them. -/
theorem allSteps_flatMap_congr {β : Type} {P Q : σ → α → Prop} {Inv : σ → Prop} {f : β → List α}
    (hiff : ∀ s b, Inv s → (AllSteps step P s (f b) ↔ AllSteps step Q s (f b)))
    (hpres : ∀ s b s', Inv s → AllSteps step Q s (f b) → run step s (f b) = some s' → Inv s')
    {s : σ} (h0 : Inv s) (bs : List β) :
    AllSteps step P s (bs.flatMap f) ↔ AllSteps step Q s (bs.flatMap f) := by
  induction bs generalizing s with
  | nil => exact Iff.rfl
  | cons b bs ih =>
    rw [List.flatMap_cons, allSteps_append, allSteps_append, hiff s b h0]
    exact and_congr_right fun hQ => forall₂_congr fun s' hs' => ih (hpres s b s' h0 hQ hs')

end Transition
