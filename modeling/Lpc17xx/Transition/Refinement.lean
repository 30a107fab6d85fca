import Lpc17xx.Transition.Labelled
import Mathlib.Data.List.Forall2

/-!
# Refinement of runs

One system refines another if each of its steps is matched by a run of the other
one that ends in a related state; a step that the other system does not see is
matched by the empty run.  Then whole runs are matched, event by event.  The last rule is
about progress: where all steps that count lower a measure, a run has no more of these
than the measure allows.
-/

namespace Lpc17xx.Transition

universe u v

variable {σ ε : Type u} {τ δ : Type v} {concrete : Step σ ε} {abstract : Step τ δ}

/-- Every guarded step of `concrete` between related states is matched by a run of
`abstract`.  `matching` says which runs may match an event. -/
structure Simulation (concrete : Step σ ε) (abstract : Step τ δ) (guard : σ → ε → Prop)
    (related : σ → τ → Prop) (matching : ε → List δ → Prop) : Prop where
  matched : ∀ state event target image, related state image → guard state event →
    concrete state event = some target →
    ∃ events imageTarget, matching event events ∧ run abstract image events = some imageTarget ∧
      related target imageTarget

namespace Simulation

variable {guard : σ → ε → Prop} {related : σ → τ → Prop} {matching : ε → List δ → Prop}

/-- Runs are matched by runs, a part for each event. -/
theorem exists_run (simulation : Simulation concrete abstract guard related matching)
    {source target : σ} {image : τ} {events : List ε} (initial : related source image)
    (guarded : Guarded concrete guard source events)
    (executed : run concrete source events = some target) :
    ∃ parts imageTarget, List.Forall₂ matching events parts ∧
      run abstract image parts.flatten = some imageTarget ∧ related target imageTarget := by
  induction events generalizing source image with
  | nil =>
      cases executed
      exact ⟨[], image, .nil, rfl, initial⟩
  | cons event events ih =>
      obtain ⟨middle, step, rest⟩ := Option.bind_eq_some_iff.mp executed
      obtain ⟨admitted, later⟩ := guarded middle step
      rcases simulation.matched _ _ _ _ initial admitted step with
        ⟨first, imageMiddle, part, ran, here⟩
      rcases ih here later rest with ⟨parts, imageTarget, matched, ranOn, there⟩
      exact ⟨first :: parts, imageTarget, .cons part matched, run_append ran ranOn, there⟩

end Simulation

section Progress

variable {next : Step σ ε} {inv : σ → Prop} {measure : σ → Nat}

/-- The termination rule with idle steps: when no guarded step raises the measure, and
the ones that count lower it by what they count for, a guarded run counts for no more
than its measure. -/
theorem tally_le_of_guarded {guard : σ → ε → Prop} {count : σ → ε → Nat}
    (lowers : ∀ state event target, inv state → guard state event →
      next state event = some target →
      inv target ∧ count state event + measure target ≤ measure state)
    {source target : σ} {events : List ε} (initial : inv source)
    (guarded : Guarded next guard source events)
    (executed : run next source events = some target) :
    tally next count source events + measure target ≤ measure source := by
  induction events generalizing source with
  | nil =>
      cases executed
      exact Nat.le_of_eq (Nat.zero_add _)
  | cons event events ih =>
      obtain ⟨middle, step, rest⟩ := Option.bind_eq_some_iff.mp executed
      obtain ⟨admitted, later⟩ := guarded middle step
      rcases lowers _ _ _ initial admitted step with ⟨kept, lower⟩
      have bound := ih kept later rest
      rw [tally_cons step]
      omega

end Progress

end Lpc17xx.Transition
