import Mathlib.Data.List.Basic
import Mathlib.Tactic.Common

/-!
Deterministic machines driven by a schedule of actions. A step may emit events;
the events of a run form its trace. Environment assumptions are a predicate on the
trace so far, the state and the next action, so one machine serves many run classes.
-/

structure EventMachine (State Action Event : Type) where
  start : State
  step : State → Action → Option (State × List Event)

def Stamped {Event : Type} (Good : List Event → Event → Prop) (trace : List Event) : Prop :=
  ∀ before event after, trace = before ++ event :: after → Good before event

theorem Stamped.nil {Event : Type} {Good : List Event → Event → Prop} : Stamped Good [] := by
  intro before event after split
  simp at split

theorem Stamped.concat {Event : Type} {Good : List Event → Event → Prop} {trace : List Event}
    (stamped : Stamped Good trace) {event : Event} (good : Good trace event) :
    Stamped Good (trace ++ [event]) := by
  intro before other after split
  rcases List.eq_nil_or_concat after with rfl | ⟨rest, last, rfl⟩
  · obtain ⟨rfl, rfl⟩ : trace = before ∧ event = other := by simpa using split
    exact good
  · apply stamped before other rest
    have longer : trace ++ [event] = (before ++ other :: rest) ++ [last] := by simpa using split
    exact (List.append_inj' longer rfl).1

theorem Stamped.append {Event : Type} {Good : List Event → Event → Prop}
    {trace more : List Event} (stamped : Stamped Good trace)
    (good : ∀ event ∈ more, ∀ before, Good before event) : Stamped Good (trace ++ more) := by
  induction more generalizing trace with
  | nil => simpa using stamped
  | cons event more ih =>
      have longer : Stamped Good (trace ++ [event] ++ more) := by
        apply ih
        · exact stamped.concat (good event (by simp) trace)
        · exact fun other inside => good other (by simp [inside])
      simpa using longer

theorem any_silent {Event : Type} {trace events : List Event} {holds : Event → Bool}
    (silent : events.any holds = false) : (trace ++ events).any holds = trace.any holds := by
  simp [silent]

/-! Tables of which a step sets one entry, such as the local states of the threads. -/

section Tables

variable {Index Entry Value : Type} [DecidableEq Index] {table : Index → Entry}
variable {index other : Index} {value : Entry}

theorem reads_update (read : Entry → Value) (table : Index → Entry) (index : Index)
    (value : Entry) : (fun other => read (Function.update table index value other)) =
      Function.update (fun other => read (table other)) index (read value) :=
  Function.comp_update read table index value

theorem reads_same (read : Entry → Value) (same : read value = read (table index))
    (other : Index) : read (Function.update table index value other) = read (table other) := by
  by_cases here : other = index
  · rw [here, Function.update_self, same]
  · rw [Function.update_of_ne here]

/-- What holds of an entry once one is set holds of what was set or held before. -/
theorem of_update (holds : Entry → Prop)
    (after : holds (Function.update table index value other)) :
    other = index ∧ holds value ∨ holds (table other) := by
  by_cases same : other = index
  · rw [same, Function.update_self] at after
    exact .inl ⟨same, after⟩
  · rw [Function.update_of_ne same] at after
    exact .inr after

theorem before_update (holds : Entry → Prop) (new : ¬holds value)
    (after : holds (Function.update table index value other)) : holds (table other) :=
  (of_update holds after).resolve_left fun set => new set.2

theorem after_update (holds : Entry → Prop) (new : holds value)
    (others : other ≠ index → holds (table other)) :
    holds (Function.update table index value other) := by
  by_cases same : other = index
  · rwa [same, Function.update_self]
  · rw [Function.update_of_ne same]
    exact others same

theorem update_agree {left right : Index → Entry} (agree : left other = right other) :
    Function.update left index value other = Function.update right index value other := by
  by_cases same : other = index
  · rw [same, Function.update_self, Function.update_self]
  · rw [Function.update_of_ne same, Function.update_of_ne same, agree]

end Tables

namespace EventMachine

variable {State Action Event : Type}

/-- `Path allowed before first segment last`: a run from `first`, reached with the trace
`before`, that emits `segment` and ends in `last`, every action of it being allowed. -/
inductive Path (machine : EventMachine State Action Event)
    (allowed : List Event → State → Action → Prop) (before : List Event) (first : State) :
    List Event → State → Prop
  | nil : Path machine allowed before first [] first
  | snoc {segment state action next events} : Path machine allowed before first segment state →
      allowed (before ++ segment) state action →
      machine.step state action = some (next, events) →
      Path machine allowed before first (segment ++ events) next

def Reaches (machine : EventMachine State Action Event)
    (allowed : List Event → State → Action → Prop) (trace : List Event) (state : State) : Prop :=
  machine.Path allowed [] machine.start trace state

def anyAction (_ : List Event) (_ : State) (_ : Action) : Prop := True

instance (trace : List Event) (state : State) (action : Action) :
    Decidable (anyAction trace state action) := .isTrue trivial

section Runs

variable {machine : EventMachine State Action Event}
variable {allowed weaker : List Event → State → Action → Prop}
variable {before segment trace : List Event} {first state last : State}

/-- What one allowed step preserves, a whole run preserves. -/
theorem Path.invariant (path : machine.Path allowed before first segment last)
    (Inv : List Event → State → Prop)
    (initial : Inv before first)
    (preserved : ∀ trace state action next events, Inv trace state →
      allowed trace state action → machine.step state action = some (next, events) →
      Inv (trace ++ events) next) :
    Inv (before ++ segment) last := by
  induction path with
  | nil => simpa using initial
  | snoc _ permitted stepped ih =>
      have next := preserved _ _ _ _ _ ih permitted stepped
      simpa [List.append_assoc] using next

theorem Reaches.invariant (reached : machine.Reaches allowed trace state)
    (Inv : List Event → State → Prop)
    (initial : Inv [] machine.start)
    (preserved : ∀ trace state action next events, Inv trace state →
      allowed trace state action → machine.step state action = some (next, events) →
      Inv (trace ++ events) next) :
    Inv trace state := by
  have result := Path.invariant reached Inv initial preserved
  simpa using result

theorem Path.mono (path : machine.Path allowed before first segment last)
    (relax : ∀ trace state action, allowed trace state action → weaker trace state action) :
    machine.Path weaker before first segment last := by
  induction path with
  | nil => exact .nil
  | snoc _ permitted stepped ih => exact .snoc ih (relax _ _ _ permitted) stepped

theorem Path.rebase {other : List Event} (path : machine.Path allowed before first segment last)
    (ignored : ∀ trace other state action, allowed trace state action →
      allowed other state action) :
    machine.Path allowed other first segment last := by
  induction path with
  | nil => exact .nil
  | snoc _ permitted stepped ih => exact .snoc ih (ignored _ _ _ _ permitted) stepped

theorem Path.append {middle : State} {later : List Event}
    (path : machine.Path allowed before first segment middle)
    (rest : machine.Path allowed (before ++ segment) middle later last) :
    machine.Path allowed before first (segment ++ later) last := by
  induction rest with
  | nil => simpa using path
  | snoc _ permitted stepped ih =>
      have extended := Path.snoc ih (by simpa [List.append_assoc] using permitted) stepped
      simpa [List.append_assoc] using extended

/-- One action that emits one event, taken again and again. -/
theorem Path.repeated (action : Action) {event : Event} (states : Nat → State) (count : Nat)
    (permitted : ∀ trace index, index < count → allowed trace (states index) action)
    (stepped : ∀ index, index < count →
      machine.step (states index) action = some (states (index + 1), [event])) :
    machine.Path allowed before (states 0) (List.replicate count event) (states count) := by
  induction count with
  | zero => exact .nil
  | succ count ih =>
      have sofar := ih (fun trace index below => permitted trace index (by omega))
        fun index below => stepped index (by omega)
      rw [List.replicate_succ']
      exact .snoc sofar (permitted _ count (by omega)) (stepped count (by omega))

theorem Reaches.extend (reached : machine.Reaches allowed before first)
    (path : machine.Path allowed before first segment last) :
    machine.Reaches allowed (before ++ segment) last := by
  have rest : machine.Path allowed ([] ++ before) first segment last := by simpa using path
  simpa [Reaches] using Path.append reached rest

end Runs

section Recorded

/-- The machine whose trace is its steps, each with the events it emits. -/
def recorded (machine : EventMachine State Action Event) :
    EventMachine State Action (Action × List Event) where
  start := machine.start
  step := fun state action =>
    (machine.step state action).map fun result => (result.1, [(action, result.2)])

variable {machine : EventMachine State Action Event} {state next : State} {action : Action}
variable {entries before after : List (Action × List Event)}
variable {allowed : List (Action × List Event) → State → Action → Prop}

theorem recorded_step (stepped : machine.recorded.step state action = some (next, entries)) :
    ∃ events, machine.step state action = some (next, events) ∧ entries = [(action, events)] := by
  obtain ⟨⟨after, events⟩, inner, same⟩ := Option.map_eq_some_iff.mp stepped
  cases same
  exact ⟨events, inner, rfl⟩

/-- A recorded run can be cut between any two of its steps. -/
theorem Reaches.cut (reached : machine.recorded.Reaches allowed (before ++ after) state) :
    ∃ middle, machine.recorded.Reaches allowed before middle ∧
      machine.recorded.Path allowed before middle after state := by
  generalize split : before ++ after = trace at reached
  unfold Reaches at reached
  induction reached generalizing after with
  | nil =>
      obtain ⟨rfl, rfl⟩ := List.append_eq_nil_iff.mp split
      exact ⟨_, .nil, .nil⟩
  | snoc path permitted stepped ih =>
      obtain ⟨events, _, rfl⟩ := recorded_step stepped
      rcases List.eq_nil_or_concat after with rfl | ⟨rest, last, rfl⟩
      · rw [List.append_nil] at split
        exact ⟨_, split ▸ Path.snoc path permitted stepped, .nil⟩
      · rw [List.concat_eq_append, ← List.append_assoc] at split
        obtain ⟨rfl, same⟩ := List.append_inj' split rfl
        obtain ⟨middle, first, second⟩ := ih rfl
        rw [List.concat_eq_append, same]
        exact ⟨middle, first, .snoc second permitted stepped⟩

/-- The run without the record. -/
theorem Reaches.unrecorded {trace : List (Action × List Event)}
    (reached : machine.recorded.Reaches allowed trace state) :
    machine.Reaches anyAction (trace.flatMap Prod.snd) state := by
  refine reached.invariant (fun trace state =>
    machine.Reaches anyAction (trace.flatMap Prod.snd) state) .nil ?_
  intro trace state action next entries run _ stepped
  obtain ⟨events, inner, rfl⟩ := recorded_step stepped
  have longer := Path.snoc run trivial inner
  simpa [Reaches] using longer

/-- The same for a stretch of a run, and a run class that looks at the events. -/
theorem Path.unrecorded {use : List Event → State → Action → Prop} {first last : State}
    {earlier segment : List (Action × List Event)}
    (path : machine.recorded.Path (fun entries => use (entries.flatMap Prod.snd)) earlier first
      segment last) :
    machine.Path use (earlier.flatMap Prod.snd) first (segment.flatMap Prod.snd) last := by
  induction path with
  | nil => exact .nil
  | snoc _ permitted stepped ih =>
      obtain ⟨events, inner, rfl⟩ := recorded_step stepped
      rw [List.flatMap_append] at permitted
      have longer := Path.snoc ih permitted inner
      simpa using longer

end Recorded

section Schedules

variable (machine : EventMachine State Action Event)
variable (allowed : List Event → State → Action → Prop)
variable [∀ trace state action, Decidable (allowed trace state action)]

/-- Runs a schedule; `none` when one of its actions is not enabled or not allowed. -/
def exec : List Event → State → List Action → Option (List Event × State)
  | trace, state, [] => some (trace, state)
  | trace, state, action :: rest =>
      if allowed trace state action then
        match machine.step state action with
        | none => none
        | some (next, events) => exec (trace ++ events) next rest
      else none

variable {machine allowed}

theorem path_of_exec (schedule : List Action) {before segment : List Event} {first last : State}
    (ran : machine.exec allowed before first schedule = some (before ++ segment, last)) :
    machine.Path allowed before first segment last := by
  suffices general : ∀ rest done state,
      machine.Path allowed before first done state →
      machine.exec allowed (before ++ done) state rest = some (before ++ segment, last) →
      machine.Path allowed before first segment last by
    exact general schedule [] first .nil (by simpa using ran)
  intro schedule
  induction schedule with
  | nil =>
      intro done state path finished
      simp only [exec, Option.some.injEq, Prod.mk.injEq, List.append_cancel_left_eq] at finished
      obtain ⟨rfl, rfl⟩ := finished
      exact path
  | cons action rest ih =>
      intro done state path continued
      simp only [exec] at continued
      split at continued
      · rename_i permitted
        cases stepped : machine.step state action with
        | none => simp [stepped] at continued
        | some result =>
            obtain ⟨next, events⟩ := result
            simp only [stepped, List.append_assoc] at continued
            exact ih _ _ (.snoc path permitted stepped) continued
      · simp at continued

theorem reaches_of_exec (schedule : List Action) {trace : List Event} {state : State}
    (ran : machine.exec allowed [] machine.start schedule = some (trace, state)) :
    machine.Reaches allowed trace state :=
  path_of_exec schedule (by simpa using ran)

theorem path_of_isSome {schedule : List Action} {first : State}
    (runs : (machine.exec allowed [] first schedule).isSome = true) :
    machine.Path allowed [] first ((machine.exec allowed [] first schedule).get runs).1
      ((machine.exec allowed [] first schedule).get runs).2 :=
  path_of_exec schedule (Option.some_get runs).symm

theorem reaches_of_isSome {schedule : List Action}
    (runs : (machine.exec allowed [] machine.start schedule).isSome = true) :
    machine.Reaches allowed ((machine.exec allowed [] machine.start schedule).get runs).1
      ((machine.exec allowed [] machine.start schedule).get runs).2 :=
  path_of_isSome runs

end Schedules

section Simulation

variable {StateB ActionB : Type}

/-- A stuttering simulation: every concrete step is either silent and leaves the
abstract state as it is, or is matched by one abstract step with the same events. -/
theorem Reaches.simulated {concrete : EventMachine State Action Event}
    {abstract : EventMachine StateB ActionB Event}
    {allowed : List Event → State → Action → Prop}
    {allowedB : List Event → StateB → ActionB → Prop}
    (Related : State → StateB → Prop)
    (initial : Related concrete.start abstract.start)
    (matched : ∀ trace state stateB action next events,
      abstract.Reaches allowedB trace stateB → Related state stateB →
      allowed trace state action → concrete.step state action = some (next, events) →
      (events = [] ∧ Related next stateB) ∨
        ∃ actionB nextB, allowedB trace stateB actionB ∧
          abstract.step stateB actionB = some (nextB, events) ∧ Related next nextB)
    {trace : List Event} {state : State}
    (reached : concrete.Reaches allowed trace state) :
    ∃ stateB, abstract.Reaches allowedB trace stateB ∧ Related state stateB := by
  refine reached.invariant (fun trace state => ∃ stateB, abstract.Reaches allowedB trace stateB ∧
    Related state stateB) ⟨_, .nil, initial⟩ ?_
  rintro trace state action next events ⟨stateB, reachedB, related⟩ permitted stepped
  rcases matched _ _ _ _ _ _ reachedB related permitted stepped with
    ⟨rfl, relatedNext⟩ | ⟨actionB, nextB, permittedB, steppedB, relatedNext⟩
  · exact ⟨stateB, by simpa using reachedB, relatedNext⟩
  · exact ⟨nextB, .snoc reachedB (by simpa using permittedB) steppedB, relatedNext⟩

end Simulation

end EventMachine
