import MyServer.EventMachine
import Mathlib

/-!
Runs that cannot go on forever. A rank that every selected step lowers and no other step
raises bounds the number of selected steps; a step that may raise it is granted a credit.
-/

namespace EventMachine

variable {State Action Event : Type}

/-! Paths with what they visit: the states from which a step is taken, each with its action. -/

inductive Walk (machine : EventMachine State Action Event)
    (allowed : List Event → State → Action → Prop) (before : List Event) (first : State) :
    List (State × Action) → List Event → State → Prop
  | nil : Walk machine allowed before first [] [] first
  | snoc {steps segment state action next events} :
      Walk machine allowed before first steps segment state →
      allowed (before ++ segment) state action →
      machine.step state action = some (next, events) →
      Walk machine allowed before first (steps ++ [(state, action)]) (segment ++ events) next

variable {machine : EventMachine State Action Event}
variable {allowed : List Event → State → Action → Prop} {selected : Action → Bool}
variable {before segment : List Event} {first last : State} {count : Nat}
variable {steps : List (State × Action)}

theorem Walk.path (walk : machine.Walk allowed before first steps segment last) :
    machine.Path allowed before first segment last := by
  induction walk with
  | nil => exact .nil
  | snoc _ permitted stepped ih => exact .snoc ih permitted stepped

section Paid

variable (Inv : List Event → State → Prop) (rank : List Event → State → Nat)

/-- What holds of every state with its next step holds of all that was visited. -/
theorem Walk.visited {Good : State × Action → Prop}
    (walk : machine.Walk allowed before first steps segment last) (initial : Inv before first)
    (kept : ∀ trace state action next events, Inv trace state → allowed trace state action →
      machine.step state action = some (next, events) → Inv (trace ++ events) next)
    (good : ∀ trace state action, Inv trace state → allowed trace state action →
      (machine.step state action).isSome = true → Good (state, action)) :
    ∀ visit ∈ steps, Good visit := by
  induction walk with
  | nil => nofun
  | @snoc steps segment state action next events earlier permitted stepped ih =>
      intro visit inside
      rcases List.mem_append.mp inside with before | now
      · exact ih visit before
      · obtain rfl := List.mem_singleton.mp now
        have here := earlier.path.invariant Inv initial kept
        exact good _ _ _ here permitted (by simp [stepped])

/-- Steps whose cost is paid from the rank or from a credit that comes with them. -/
theorem Walk.paid (cost credit : State × Action → Nat)
    (walk : machine.Walk allowed before first steps segment last) (initial : Inv before first)
    (kept : ∀ trace state action next events, Inv trace state → allowed trace state action →
      machine.step state action = some (next, events) → Inv (trace ++ events) next)
    (paid : ∀ trace state action next events, Inv trace state → allowed trace state action →
      machine.step state action = some (next, events) →
      rank (trace ++ events) next + cost (state, action) ≤
        rank trace state + credit (state, action)) :
    (steps.map cost).sum + rank (before ++ segment) last ≤
      rank before first + (steps.map credit).sum := by
  induction walk with
  | nil => simp
  | @snoc steps segment state action next events earlier permitted stepped ih =>
      have here := earlier.path.invariant Inv initial kept
      have step := paid _ _ _ _ _ here permitted stepped
      rw [List.append_assoc] at step
      simp only [List.map_append, List.map_cons, List.map_nil, List.sum_append, List.sum_cons,
        List.sum_nil, Nat.add_zero]
      omega

theorem sum_credit (selected : State × Action → Bool) (amount : Nat)
    (steps : List (State × Action)) :
    (steps.map fun visit => if selected visit then amount else 0).sum =
      amount * steps.countP selected := by
  induction steps with
  | nil => simp
  | cons visit rest ih =>
      rw [List.map_cons, List.sum_cons, List.countP_cons, ih]
      split <;> rw [Nat.mul_add] <;> omega

/-- The selected steps of a walk, when `amount` is granted with every excused one. -/
theorem Walk.count_le (selected excused : State × Action → Bool) (amount : Nat)
    (walk : machine.Walk allowed before first steps segment last) (initial : Inv before first)
    (kept : ∀ trace state action next events, Inv trace state → allowed trace state action →
      machine.step state action = some (next, events) → Inv (trace ++ events) next)
    (paid : ∀ trace state action next events, Inv trace state → allowed trace state action →
      machine.step state action = some (next, events) →
      rank (trace ++ events) next + (if selected (state, action) then 1 else 0) ≤
        rank trace state + if excused (state, action) then amount else 0) :
    steps.countP selected ≤ rank before first + amount * steps.countP excused := by
  have total := walk.paid Inv rank (fun visit => if selected visit then 1 else 0)
    (fun visit => if excused visit then amount else 0) initial kept paid
  rw [sum_credit, sum_credit] at total
  omega

end Paid

def visits (machine : EventMachine State Action Event) (state : State) :
    List Action → List (State × Action)
  | [] => []
  | action :: rest =>
      match machine.step state action with
      | some (next, _) => (state, action) :: machine.visits next rest
      | none => []

section Schedules

variable [∀ trace state action, Decidable (allowed trace state action)]
variable {schedule rest : List Action} {action : Action} {trace : List Event}
variable {result : List Event × State}

theorem exec_cons (ran : machine.exec allowed trace first (action :: rest) = some result) :
    ∃ next events, allowed trace first action ∧ machine.step first action = some (next, events) ∧
      machine.exec allowed (trace ++ events) next rest = some result := by
  simp only [exec] at ran
  split at ran
  · rename_i permitted
    cases stepped : machine.step first action with
    | none => simp [stepped] at ran
    | some middle =>
        simp only [stepped] at ran
        exact ⟨middle.1, middle.2, permitted, rfl, ran⟩
  · simp at ran

theorem exec_extends (ran : machine.exec allowed trace first schedule = some result) :
    ∃ segment, result.1 = trace ++ segment := by
  induction schedule generalizing trace first with
  | nil =>
      simp only [exec, Option.some.injEq] at ran
      subst ran
      exact ⟨[], (List.append_nil trace).symm⟩
  | cons action rest ih =>
      obtain ⟨next, events, _, _, later⟩ := exec_cons ran
      obtain ⟨segment, split⟩ := ih later
      exact ⟨events ++ segment, by rw [split, List.append_assoc]⟩

theorem visits_actions (ran : machine.exec allowed trace first schedule = some result) :
    (machine.visits first schedule).map Prod.snd = schedule := by
  induction schedule generalizing trace first with
  | nil => rfl
  | cons action rest ih =>
      obtain ⟨next, events, _, stepped, later⟩ := exec_cons ran
      simp [visits, stepped, ih later]

theorem walk_of_exec (schedule : List Action)
    (ran : machine.exec allowed before first schedule = some (before ++ segment, last)) :
    machine.Walk allowed before first (machine.visits first schedule) segment last := by
  suffices general : ∀ rest steps done state,
      machine.Walk allowed before first steps done state →
      machine.exec allowed (before ++ done) state rest = some (before ++ segment, last) →
      machine.Walk allowed before first (steps ++ machine.visits state rest) segment last by
    simpa using general schedule [] [] first .nil (by simpa using ran)
  intro schedule
  induction schedule with
  | nil =>
      intro steps done state walk finished
      simp only [exec, Option.some.injEq, Prod.mk.injEq, List.append_cancel_left_eq] at finished
      obtain ⟨rfl, rfl⟩ := finished
      simpa [visits] using walk
  | cons action rest ih =>
      intro steps done state walk continued
      obtain ⟨next, events, permitted, stepped, later⟩ := exec_cons continued
      rw [List.append_assoc] at later
      simpa [visits, stepped] using ih _ _ _ (.snoc walk permitted stepped) later

theorem walk_of_isSome
    (runs : (machine.exec allowed before first schedule).isSome = true) :
    ∃ segment, machine.Walk allowed before first (machine.visits first schedule) segment
      ((machine.exec allowed before first schedule).get runs).2 := by
  have ran : machine.exec allowed before first schedule =
      some ((machine.exec allowed before first schedule).get runs) := (Option.some_get runs).symm
  obtain ⟨segment, split⟩ := exec_extends ran
  refine ⟨segment, walk_of_exec schedule (ran.trans ?_)⟩
  rw [← split]

end Schedules

inductive Counted (machine : EventMachine State Action Event)
    (allowed : List Event → State → Action → Prop) (selected : Action → Bool)
    (before : List Event) (first : State) : Nat → List Event → State → Prop
  | nil : Counted machine allowed selected before first 0 [] first
  | snoc {count segment state action next events} :
      Counted machine allowed selected before first count segment state →
      allowed (before ++ segment) state action →
      machine.step state action = some (next, events) →
      Counted machine allowed selected before first (count + if selected action then 1 else 0)
        (segment ++ events) next

structure Ranked (machine : EventMachine State Action Event)
    (allowed : List Event → State → Action → Prop) (selected : Action → Bool)
    (Inv : List Event → State → Prop) (rank : List Event → State → Nat) : Prop where
  kept : ∀ trace state action next events, Inv trace state → allowed trace state action →
    machine.step state action = some (next, events) → Inv (trace ++ events) next
  lowered : ∀ trace state action next events, Inv trace state → allowed trace state action →
    machine.step state action = some (next, events) →
    rank (trace ++ events) next + (if selected action then 1 else 0) ≤ rank trace state

theorem Counted.path (run : machine.Counted allowed selected before first count segment last) :
    machine.Path allowed before first segment last := by
  induction run with
  | nil => exact .nil
  | snoc _ permitted stepped ih => exact .snoc ih permitted stepped

theorem Walk.counted (selected : Action → Bool)
    (walk : machine.Walk allowed before first steps segment last) :
    machine.Counted allowed selected before first
      ((steps.map Prod.snd).countP selected) segment last := by
  induction walk with
  | nil => exact .nil
  | snoc _ permitted stepped ih =>
      rw [List.map_append, List.countP_append, List.map_singleton, List.countP_singleton]
      exact .snoc ih permitted stepped

/-- A schedule that runs is a path with as many selected actions as the schedule has. -/
theorem counted_of_exec [∀ trace state action, Decidable (allowed trace state action)]
    (schedule : List Action)
    (ran : machine.exec allowed before first schedule = some (before ++ segment, last)) :
    machine.Counted allowed selected before first (schedule.countP selected) segment last := by
  have counted := (walk_of_exec schedule ran).counted selected
  rwa [visits_actions ran] at counted

theorem counted_of_isSome [∀ trace state action, Decidable (allowed trace state action)]
    {schedule : List Action} (runs : (machine.exec allowed [] first schedule).isSome = true) :
    machine.Counted allowed selected [] first (schedule.countP selected)
      ((machine.exec allowed [] first schedule).get runs).1
      ((machine.exec allowed [] first schedule).get runs).2 :=
  counted_of_exec schedule (Option.some_get runs).symm

variable {Inv : List Event → State → Prop} {rank : List Event → State → Nat}

/-- The selected steps of a run are paid from the rank. -/
theorem Ranked.paid (ranked : machine.Ranked allowed selected Inv rank)
    (run : machine.Counted allowed selected before first count segment last)
    (initial : Inv before first) :
    Inv (before ++ segment) last ∧ count + rank (before ++ segment) last ≤ rank before first := by
  induction run with
  | nil => simpa using initial
  | @snoc count segment state action next events _ permitted stepped ih =>
      have kept := ranked.kept _ _ _ _ _ ih.1 permitted stepped
      have lowered := ranked.lowered _ _ _ _ _ ih.1 permitted stepped
      rw [List.append_assoc] at kept lowered
      refine ⟨kept, ?_⟩
      omega

theorem Ranked.count_le (ranked : machine.Ranked allowed selected Inv rank)
    (run : machine.Counted allowed selected before first count segment last)
    (initial : Inv before first) : count ≤ rank before first := by
  have paid := (ranked.paid run initial).2
  omega

/-- Costs that each step pays from a potential, which it may raise by its budget at most. -/
theorem Path.amortized {allowedEntry : List (Action × List Event) → State → Action → Prop}
    {earlier entries : List (Action × List Event)}
    (cost budget : Action × List Event → Nat) (potential : State → Nat)
    (paid : ∀ state action next events, machine.step state action = some (next, events) →
      cost (action, events) + potential next ≤ potential state + budget (action, events))
    (path : machine.recorded.Path allowedEntry earlier first entries last) :
    (entries.map cost).sum + potential last ≤ potential first + (entries.map budget).sum := by
  induction path with
  | nil => simp
  | snoc _ _ stepped ih =>
      obtain ⟨events, ran, rfl⟩ := recorded_step stepped
      have step := paid _ _ _ _ ran
      simp only [List.map_append, List.map_cons, List.map_nil, List.sum_append, List.sum_cons,
        List.sum_nil, Nat.add_zero]
      omega

end EventMachine
