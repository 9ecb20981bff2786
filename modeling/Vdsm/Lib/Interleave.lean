import Mathlib.Tactic.Common
import Mathlib.Logic.Function.Basic
import Mathlib.Data.List.Induction

/-!
# Interleaved parties

A server with one task per connection: parties with a private state each, and one history of what all
of them have done. A schedule says whose turn it is and what happens to that party; what it does then
may depend on the whole history, so on the others.

`run_invariant` is the rule for what holds of every party under every schedule: a relation between
the party's state, what happened to it and the history, kept by its own turns and not disturbed by
the turns of the others.
-/

namespace Interleave

variable {κ ι σ ε α : Type} [DecidableEq κ]

/-- A turn of a party: from the history, who it is, its state and what happens to it, its next state
and what it does. -/
abbrev Turn (κ ι σ ε : Type) : Type := List (κ × ε) → κ → σ → ι → σ × List ε

/-- The state of each party, and what all of them have done so far. -/
structure State (κ σ ε : Type) where
  states : κ → σ
  history : List (κ × ε)

/-- Before the first turn. -/
def State.start (init : σ) : State κ σ ε := ⟨fun _ => init, []⟩

/-- One turn. -/
def step (turn : Turn κ ι σ ε) (s : State κ σ ε) (e : κ × ι) : State κ σ ε :=
  let out := turn s.history e.1 (s.states e.1) e.2
  ⟨Function.update s.states e.1 out.1, s.history ++ out.2.map fun a => (e.1, a)⟩

/-- The turns of a schedule. -/
def run (turn : Turn κ ι σ ε) (s : State κ σ ε) (schedule : List (κ × ι)) : State κ σ ε :=
  schedule.foldl (step turn) s

/-- The part of a tagged list that is one party's. -/
def own (k : κ) (l : List (κ × α)) : List α :=
  l.filterMap fun e => if e.1 = k then some e.2 else none

@[simp] theorem own_nil (k : κ) : own k ([] : List (κ × α)) = [] := rfl

@[simp] theorem own_append (k : κ) (l r : List (κ × α)) : own k (l ++ r) = own k l ++ own k r := by
  simp [own]

/-- What a party does is its own. -/
@[simp] theorem own_tagged (k : κ) (l : List α) : own k (l.map fun a => (k, a)) = l := by
  rw [own, List.filterMap_map]
  have hself : ((fun e : κ × α => if e.1 = k then some e.2 else none) ∘ fun a => (k, a)) = some :=
    funext fun _ => if_pos rfl
  rw [hself, List.filterMap_some]

/-- What another party does is not. -/
theorem own_tagged_ne {j k : κ} (h : j ≠ k) (l : List α) : own k (l.map fun a => (j, a)) = [] := by
  simp [own, h]

/-- An event is one party's exactly if it stands in the history under its name. -/
theorem mem_own {k : κ} {a : α} {l : List (κ × α)} : a ∈ own k l ↔ (k, a) ∈ l := by
  simp only [own, List.mem_filterMap, Option.ite_none_right_eq_some, Option.some.injEq]
  constructor
  · rintro ⟨⟨j, b⟩, hmem, rfl, rfl⟩
    exact hmem
  · intro hmem
    exact ⟨(k, a), hmem, rfl, rfl⟩

/-- A run ends with its last turn. -/
theorem run_append_singleton (turn : Turn κ ι σ ε) (s : State κ σ ε) (schedule : List (κ × ι))
    (e : κ × ι) : run turn s (schedule ++ [e]) = step turn (run turn s schedule) e := by
  simp [run]

/-- What holds of a party at the start, is kept by its own turns and is not disturbed by those of the
others holds of it after every schedule. -/
theorem run_invariant {turn : Turn κ ι σ ε} {init : σ}
    {I : κ → σ → List ι → List (κ × ε) → Prop} (h0 : ∀ k, I k init [] [])
    (hown : ∀ k s is h i, I k s is h →
      I k (turn h k s i).1 (is ++ [i]) (h ++ (turn h k s i).2.map fun a => (k, a)))
    (hother : ∀ k s is h j es, j ≠ k → I k s is h →
      I k s is (h ++ List.map (fun a => (j, a)) es))
    (schedule : List (κ × ι)) (k : κ) :
    let s := run turn (State.start init) schedule
    I k (s.states k) (own k schedule) s.history := by
  induction schedule using List.reverseRecOn with
  | nil => exact h0 k
  | append_singleton schedule e ih =>
    obtain ⟨j, i⟩ := e
    simp only [run_append_singleton, step, own_append]
    by_cases hj : j = k
    · subst hj
      simpa [own] using hown j _ _ _ i ih
    · have hnone : own k [(j, i)] = [] := own_tagged_ne hj [i]
      rw [Function.update_of_ne (Ne.symm hj), hnone, List.append_nil]
      exact hother k _ _ _ j _ hj ih

end Interleave
