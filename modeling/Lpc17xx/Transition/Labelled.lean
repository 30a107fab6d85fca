import Mathlib.Data.Option.Basic

/-!
# Runs of labelled partial transitions

A `Step` consumes one event and either produces the next state or is disabled.
Runs are finite lists of events.  The module supplies the two rules by which
every statement about whole runs is obtained from a statement about one step:
an invariant kept by the guarded steps holds after every guarded run, and a
step property that is equivalent to a guard under the invariant holds along a
run exactly when the guard does.
-/

namespace Lpc17xx.Transition

universe u v

/-- A partial transition function driven by events. -/
abbrev Step (σ : Type u) (ε : Type v) :=
  σ → ε → Option σ

variable {σ : Type u} {ε : Type v}

/-- Execute a list of events, failing at the first disabled one. -/
def run (next : Step σ ε) : σ → List ε → Option σ
  | state, [] => some state
  | state, event :: events =>
      (next state event).bind fun target => run next target events

@[simp]
theorem run_nil (next : Step σ ε) (state : σ) : run next state [] = some state :=
  rfl

@[simp]
theorem run_cons (next : Step σ ε) (state : σ) (event : ε) (events : List ε) :
    run next state (event :: events) =
      (next state event).bind fun target => run next target events :=
  rfl

/-- Runs compose. -/
theorem run_append {next : Step σ ε} {source middle target : σ} {first second : List ε}
    (executed : run next source first = some middle)
    (continued : run next middle second = some target) :
    run next source (first ++ second) = some target := by
  induction first generalizing source with
  | nil =>
      cases executed
      exact continued
  | cons event events ih =>
      obtain ⟨state, step, rest⟩ := Option.bind_eq_some_iff.mp executed
      rw [List.cons_append, run_cons, step]
      exact ih rest

/-- `target` is reached from `source` by some finite run. -/
def Reachable (next : Step σ ε) (source target : σ) : Prop :=
  ∃ events, run next source events = some target

/-- Every step taken along the run satisfies `P`, read on the state before the
step, the event and the state after it.  A disabled event ends the run. -/
def Along (next : Step σ ε) (P : σ → ε → σ → Prop) : σ → List ε → Prop
  | _, [] => True
  | state, event :: events =>
      ∀ target, next state event = some target →
        P state event target ∧ Along next P target events

@[simp]
theorem along_nil (next : Step σ ε) (P : σ → ε → σ → Prop) (state : σ) :
    Along next P state [] :=
  trivial

/-- What can be decided of every step can be decided along a run. -/
instance decidableAlong {next : Step σ ε} {P : σ → ε → σ → Prop}
    [∀ state event target, Decidable (P state event target)] :
    ∀ state events, Decidable (Along next P state events)
  | _, [] => isTrue trivial
  | state, event :: events =>
      match taken : next state event with
      | none =>
          isTrue fun target step =>
            absurd (taken.symm.trans step) (Option.some_ne_none target).symm
      | some middle =>
          have : Decidable (Along next P middle events) := decidableAlong middle events
          decidable_of_iff (P state event middle ∧ Along next P middle events)
            ⟨fun holds _ step => Option.some.inj (taken.symm.trans step) ▸ holds,
              fun along => along middle taken⟩

/-- What holds along a run holds from the state after its first `n` events on. -/
theorem Along.drop {next : Step σ ε} {P : σ → ε → σ → Prop} {source middle : σ}
    {events : List ε} (along : Along next P source events) (n : Nat)
    (executed : run next source (events.take n) = some middle) :
    Along next P middle (events.drop n) := by
  induction n generalizing source events with
  | zero =>
      cases executed
      exact along
  | succ n ih =>
      cases events with
      | nil => exact trivial
      | cons event events =>
          obtain ⟨state, step, rest⟩ := Option.bind_eq_some_iff.mp executed
          exact ih (along state step).2 rest

/-- What holds of every step holds of the last. -/
theorem Along.last {next : Step σ ε} {P : σ → ε → σ → Prop} {source target : σ}
    {events : List ε} {event : ε} (along : Along next P source (events ++ [event]))
    (executed : run next source (events ++ [event]) = some target) :
    ∃ middle, P middle event target := by
  induction events generalizing source with
  | nil =>
      obtain ⟨middle, step, rest⟩ := Option.bind_eq_some_iff.mp executed
      cases rest
      exact ⟨source, (along target step).1⟩
  | cons first events ih =>
      obtain ⟨middle, step, rest⟩ := Option.bind_eq_some_iff.mp executed
      exact ih (along middle step).2 rest

/-- Every step of the run is taken from a state in which `guard` admits its
event. -/
def Guarded (next : Step σ ε) (guard : σ → ε → Prop) : σ → List ε → Prop :=
  Along next fun state event _ => guard state event

instance {next : Step σ ε} {guard : σ → ε → Prop} [∀ state event, Decidable (guard state event)]
    (state : σ) (events : List ε) : Decidable (Guarded next guard state events) :=
  decidableAlong state events

theorem guarded_of_forall {next : Step σ ε} {guard : σ → ε → Prop}
    (admitted : ∀ state event, guard state event) (state : σ) (events : List ε) :
    Guarded next guard state events := by
  induction events generalizing state with
  | nil => trivial
  | cons event events ih =>
      intro target _
      exact ⟨admitted state event, ih target⟩

/-- A guarded run stays guarded when it goes on with events that the guard always
admits. -/
theorem Guarded.append {next : Step σ ε} {guard : σ → ε → Prop} {state : σ}
    {first second : List ε} (guarded : Guarded next guard state first)
    (admitted : ∀ event ∈ second, ∀ state, guard state event) :
    Guarded next guard state (first ++ second) := by
  induction first generalizing state with
  | nil =>
      clear guarded
      induction second generalizing state with
      | nil => trivial
      | cons event events ih =>
          intro target _
          exact ⟨admitted event List.mem_cons_self state,
            ih fun later member => admitted later (List.mem_cons_of_mem event member)⟩
  | cons event events ih =>
      intro target step
      obtain ⟨here, rest⟩ := guarded target step
      exact ⟨here, ih rest⟩

/-- The sum of `count` over the steps of the run. -/
def tally (next : Step σ ε) (count : σ → ε → Nat) : σ → List ε → Nat
  | _, [] => 0
  | state, event :: events =>
      match next state event with
      | none => 0
      | some target => count state event + tally next count target events

theorem tally_cons {next : Step σ ε} {count : σ → ε → Nat} {state target : σ} {event : ε}
    (step : next state event = some target) (events : List ε) :
    tally next count state (event :: events) =
      count state event + tally next count target events := by
  rw [tally, step]

section Countdown

variable {next : Step σ ε} {event : ε} {left : Nat → σ → Prop}

/-- The countdown rule: an event that is always possible and leaves one less comes as
often as there is something left. -/
theorem run_replicate
    (counts : ∀ n state, left (n + 1) state →
      ∃ target, next state event = some target ∧ left n target)
    {n : Nat} {state : σ} (initial : left n state) :
    ∃ target, run next state (List.replicate n event) = some target ∧ left 0 target := by
  induction n generalizing state with
  | zero => exact ⟨state, rfl, initial⟩
  | succ n ih =>
      obtain ⟨middle, step, fewer⟩ := counts n state initial
      obtain ⟨target, executed, none⟩ := ih fewer
      refine ⟨target, ?_, none⟩
      rw [List.replicate_succ, run_cons, step]
      exact executed

/-- What the event does not satisfy when nothing is left, it does not satisfy all
along. -/
theorem not_along_replicate {P : σ → ε → σ → Prop}
    (counts : ∀ n state, left (n + 1) state →
      ∃ target, next state event = some target ∧ left n target)
    (expires : ∀ state, left 0 state → ∃ target, next state event = some target ∧
      ¬P state event target)
    {n : Nat} {state : σ} (initial : left n state) :
    ¬Along next P state (List.replicate (n + 1) event) := by
  induction n generalizing state with
  | zero =>
      intro along
      obtain ⟨target, step, fails⟩ := expires state initial
      exact fails (along target step).1
  | succ n ih =>
      intro along
      obtain ⟨target, step, fewer⟩ := counts n state initial
      exact ih fewer (along target step).2

end Countdown

section Invariant

variable {next : Step σ ε} {inv : σ → Prop} {guard : σ → ε → Prop}

/-- The invariant rule: what every guarded step keeps holds at the end of
every guarded run. -/
theorem invariant_of_guarded
    (preserved : ∀ state event target, inv state → guard state event →
      next state event = some target → inv target)
    {source target : σ} {events : List ε} (initial : inv source)
    (guarded : Guarded next guard source events)
    (executed : run next source events = some target) : inv target := by
  induction events generalizing source with
  | nil =>
      cases executed
      exact initial
  | cons event events ih =>
      obtain ⟨middle, step, rest⟩ := Option.bind_eq_some_iff.mp executed
      obtain ⟨admitted, guardedRest⟩ := guarded middle step
      exact ih (preserved _ _ _ initial admitted step) guardedRest rest

/-- The unguarded form of the invariant rule. -/
theorem invariant_of_reachable
    (preserved : ∀ state event target, inv state →
      next state event = some target → inv target)
    {source target : σ} (initial : inv source) (reached : Reachable next source target) :
    inv target := by
  obtain ⟨events, executed⟩ := reached
  have unguarded : Guarded next (fun _ _ => True) source events :=
    guarded_of_forall (fun _ _ => trivial) source events
  exact invariant_of_guarded (fun state event target kept _ => preserved state event target kept)
    initial unguarded executed

/-- A step property that follows from the invariant and the guard holds along
every guarded run. -/
theorem along_of_guarded {P : σ → ε → σ → Prop}
    (preserved : ∀ state event target, inv state → guard state event →
      next state event = some target → inv target)
    (sound : ∀ state event target, inv state → guard state event →
      next state event = some target → P state event target)
    {source : σ} {events : List ε} (initial : inv source)
    (guarded : Guarded next guard source events) : Along next P source events := by
  induction events generalizing source with
  | nil => trivial
  | cons event events ih =>
      intro middle step
      obtain ⟨admitted, rest⟩ := guarded middle step
      exact ⟨sound _ _ _ initial admitted step,
        ih (preserved _ _ _ initial admitted step) rest⟩

/-- The unguarded form of the rule for step properties. -/
theorem along_of_invariant {P : σ → ε → σ → Prop}
    (preserved : ∀ state event target, inv state →
      next state event = some target → inv target)
    (sound : ∀ state event target, inv state → next state event = some target →
      P state event target)
    {source : σ} (initial : inv source) (events : List ε) : Along next P source events :=
  along_of_guarded (fun state event target kept _ => preserved state event target kept)
    (fun state event target kept _ => sound state event target kept) initial
    (guarded_of_forall (fun _ _ => trivial) source events)

/-- The exactness rule among the runs that stay within bounds: when, under the invariant and
within the bounds, a step satisfies `P` exactly if the guard admits it, then a run satisfies
`P` throughout exactly if it is guarded throughout. -/
theorem along_iff_guarded_within {P : σ → ε → σ → Prop} {bounds : σ → ε → Prop}
    (preserved : ∀ state event target, inv state → bounds state event → guard state event →
      next state event = some target → inv target)
    (exact_guard : ∀ state event target, inv state → bounds state event →
      next state event = some target → (P state event target ↔ guard state event))
    {source : σ} {events : List ε} (initial : inv source)
    (within : Guarded next bounds source events) :
    Along next P source events ↔ Guarded next guard source events := by
  induction events generalizing source with
  | nil => exact Iff.rfl
  | cons event events ih =>
      constructor
      · intro along middle step
        obtain ⟨inside, later⟩ := within middle step
        obtain ⟨here, rest⟩ := along middle step
        have admitted := (exact_guard _ _ _ initial inside step).mp here
        exact ⟨admitted, (ih (preserved _ _ _ initial inside admitted step) later).mp rest⟩
      · intro guarded middle step
        obtain ⟨inside, later⟩ := within middle step
        obtain ⟨admitted, rest⟩ := guarded middle step
        exact ⟨(exact_guard _ _ _ initial inside step).mpr admitted,
          (ih (preserved _ _ _ initial inside admitted step) later).mpr rest⟩

/-- The exactness rule for all runs. -/
theorem along_iff_guarded {P : σ → ε → σ → Prop}
    (preserved : ∀ state event target, inv state → guard state event →
      next state event = some target → inv target)
    (exact_guard : ∀ state event target, inv state →
      next state event = some target → (P state event target ↔ guard state event))
    {source : σ} {events : List ε} (initial : inv source) :
    Along next P source events ↔ Guarded next guard source events :=
  along_iff_guarded_within (fun state event target kept _ => preserved state event target kept)
    (fun state event target kept _ => exact_guard state event target kept) initial
    (guarded_of_forall (fun _ _ => trivial) source events)

/-- A spoiled run that satisfies `P` throughout stays spoiled. -/
theorem spoiled_of_along {P : σ → ε → σ → Prop} {spoiled : σ → Prop}
    (stays : ∀ state event target, spoiled state → next state event = some target →
      P state event target → spoiled target)
    {source target : σ} {events : List ε} (initial : spoiled source)
    (along : Along next P source events) (executed : run next source events = some target) :
    spoiled target := by
  induction events generalizing source with
  | nil =>
      cases executed
      exact initial
  | cons event events ih =>
      obtain ⟨middle, step, rest⟩ := Option.bind_eq_some_iff.mp executed
      obtain ⟨here, later⟩ := along middle step
      exact ih (stays _ _ _ initial step here) later rest

/-- The exactness rule for runs that end: when a step that the guard does not admit
spoils the run, and nothing that satisfies `P` repairs it, then a run to an unspoiled
state satisfies `P` throughout exactly if it is guarded throughout. -/
theorem along_iff_guarded_of_unspoiled {P : σ → ε → σ → Prop} {spoiled : σ → Prop}
    (preserved : ∀ state event target, inv state → guard state event →
      next state event = some target → inv target)
    (sound : ∀ state event target, inv state → guard state event →
      next state event = some target → P state event target)
    (spoils : ∀ state event target, inv state → ¬guard state event →
      next state event = some target → spoiled target)
    (stays : ∀ state event target, spoiled state → next state event = some target →
      P state event target → spoiled target)
    {source target : σ} {events : List ε} (initial : inv source)
    (executed : run next source events = some target) (unspoiled : ¬spoiled target) :
    Along next P source events ↔ Guarded next guard source events := by
  constructor
  · intro along
    induction events generalizing source with
    | nil => trivial
    | cons event events ih =>
        intro middle step
        rw [run_cons, step] at executed
        obtain ⟨_, later⟩ := along middle step
        have admitted : guard source event := by
          by_contra refused
          have spoiled := spoils _ _ _ initial refused step
          exact unspoiled (spoiled_of_along stays spoiled later executed)
        exact ⟨admitted, ih (preserved _ _ _ initial admitted step) executed later⟩
  · exact along_of_guarded preserved sound initial

/-- The origin rule: what each step adds to a state has its origin in that step, so
whatever is found at the end of a run is there from the start or has its origin in one
of the steps. -/
theorem exists_origin {ι : Type*} {holds : σ → ι → Prop} {origin : σ → ε → ι → Prop}
    (preserved : ∀ state event target, inv state → next state event = some target → inv target)
    (adds : ∀ state event target item, inv state → next state event = some target →
      holds target item → holds state item ∨ origin state event item)
    {source target : σ} {events : List ε} (initial : inv source)
    (executed : run next source events = some target) {item : ι} (found : holds target item) :
    holds source item ∨ ∃ before event later middle, events = before ++ event :: later ∧
      run next source before = some middle ∧ inv middle ∧ origin middle event item := by
  induction events generalizing source with
  | nil =>
      cases executed
      exact .inl found
  | cons first events ih =>
      obtain ⟨state, step, rest⟩ := Option.bind_eq_some_iff.mp executed
      rcases ih (preserved _ _ _ initial step) rest with
        held | ⟨before, event, later, middle, parts, ran, kept, here⟩
      · rcases adds _ _ _ _ initial step held with already | here
        · exact .inl already
        · exact .inr ⟨[], first, events, source, rfl, rfl, initial, here⟩
      · refine .inr ⟨first :: before, event, later, middle, ?_, ?_, kept, here⟩
        · rw [parts, List.cons_append]
        · rw [run_cons, step]
          exact ran

/-- The termination rule: when every step from a state with the invariant lowers
a measure, no run from such a state is longer than its measure. -/
theorem length_le_of_decreasing {measure : σ → Nat}
    (decreases : ∀ state event target, inv state → next state event = some target →
      inv target ∧ measure target < measure state)
    {source target : σ} {events : List ε} (initial : inv source)
    (executed : run next source events = some target) : events.length ≤ measure source := by
  induction events generalizing source with
  | nil => exact Nat.zero_le _
  | cons event events ih =>
      obtain ⟨middle, step, rest⟩ := Option.bind_eq_some_iff.mp executed
      obtain ⟨kept, lower⟩ := decreases _ _ _ initial step
      exact Nat.lt_of_le_of_lt (ih kept rest) lower

end Invariant

end Lpc17xx.Transition
