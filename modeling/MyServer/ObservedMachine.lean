import MyServer.EventMachine

/-!
Readers beside a machine. A reader loads several parts of the state, one step each, while the
machine goes on; what it returns need not have been true of any one state, but every part was
true of some state between the call and the return.
-/

namespace EventMachine

variable {State Action Event Reader Value : Type}

structure Observed (State Reader Value : Type) where
  state : State
  reads : Reader → Option (List Value)

inductive ObservedAction (Action Reader : Type)
  | inner (action : Action)
  | call (reader : Reader)
  /-- The next load of a call, or its return after the last one. -/
  | load (reader : Reader)

inductive ObservedEvent (Event Reader Value : Type)
  | inner (event : Event)
  | called (reader : Reader)
  | returned (reader : Reader) (values : List Value)
  deriving DecidableEq

def ObservedEvent.inner? : ObservedEvent Event Reader Value → Option Event
  | .inner event => some event
  | _ => none

def innerEvents (trace : List (ObservedEvent Event Reader Value)) : List Event :=
  trace.filterMap ObservedEvent.inner?

variable [DecidableEq Reader]

def observed (machine : EventMachine State Action Event) (loads : List (State → Value)) :
    EventMachine (Observed State Reader Value) (ObservedAction Action Reader)
      (ObservedEvent Event Reader Value) where
  start := ⟨machine.start, fun _ => none⟩
  step := fun world action =>
    match action with
    | .inner action => (machine.step world.state action).map fun result =>
        ({ world with state := result.1 }, result.2.map .inner)
    | .call reader =>
        match world.reads reader with
        | none => some ({ world with reads := Function.update world.reads reader (some []) },
            [.called reader])
        | some _ => none
    | .load reader =>
        match world.reads reader with
        | none => none
        | some values =>
            match loads[values.length]? with
            | none => some ({ world with reads := Function.update world.reads reader none },
                [.returned reader values])
            | some load => some ({ world with
                reads := Function.update world.reads reader (some (values ++ [load world.state])) },
                [])

def besides (allowed : List Event → State → Action → Prop)
    (trace : List (ObservedEvent Event Reader Value)) (world : Observed State Reader Value) :
    ObservedAction Action Reader → Prop
  | .inner action => allowed (innerEvents trace) world.state action
  | _ => True

instance (allowed : List Event → State → Action → Prop)
    [∀ trace state action, Decidable (allowed trace state action)]
    (trace : List (ObservedEvent Event Reader Value)) (world : Observed State Reader Value) :
    (action : ObservedAction Action Reader) → Decidable (besides allowed trace world action)
  | .inner _ => inferInstanceAs (Decidable (allowed _ _ _))
  | .call _ | .load _ => .isTrue trivial

variable {machine : EventMachine State Action Event} {loads : List (State → Value)}
variable {allowed : List Event → State → Action → Prop}
variable {trace : List (ObservedEvent Event Reader Value)} {world : Observed State Reader Value}

omit [DecidableEq Reader] in
@[simp]
theorem innerEvents_append (trace more : List (ObservedEvent Event Reader Value)) :
    innerEvents (trace ++ more) = innerEvents trace ++ innerEvents more := by
  simp [innerEvents]

omit [DecidableEq Reader] in
@[simp]
theorem innerEvents_map (events : List Event) :
    innerEvents (events.map (.inner : Event → ObservedEvent Event Reader Value)) = events := by
  induction events with
  | nil => rfl
  | cons event events ih => simpa [innerEvents, ObservedEvent.inner?] using ih

omit [DecidableEq Reader] in
@[simp]
theorem innerEvents_called (reader : Reader) :
    innerEvents [(.called reader : ObservedEvent Event Reader Value)] = [] := rfl

omit [DecidableEq Reader] in
@[simp]
theorem innerEvents_returned (reader : Reader) (values : List Value) :
    innerEvents [(.returned reader values : ObservedEvent Event Reader Value)] = [] := rfl

def Loaded (machine : EventMachine State Action Event)
    (allowed : List Event → State → Action → Prop) (loads : List (State → Value))
    (lower upper : List Event) (values : List Value) : Prop :=
  ∀ (index : Nat) (value : Value), values[index]? = some value →
    ∃ (load : State → Value) (moment : List Event) (state : State),
      loads[index]? = some load ∧ load state = value ∧ machine.Reaches allowed moment state ∧
      lower <+: moment ∧ moment <+: upper

theorem Loaded.later {lower upper : List Event} {values : List Value}
    (loaded : Loaded machine allowed loads lower upper values) (more : List Event) :
    Loaded machine allowed loads lower (upper ++ more) values := by
  intro index value here
  obtain ⟨load, moment, state, which, read, reached, low, high⟩ := loaded index value here
  exact ⟨load, moment, state, which, read, reached, low, high.trans (List.prefix_append _ _)⟩

theorem Loaded.append {lower upper : List Event} {values : List Value} {state : State}
    {load : State → Value} (loaded : Loaded machine allowed loads lower upper values)
    (next : loads[values.length]? = some load) (reached : machine.Reaches allowed upper state)
    (low : lower <+: upper) :
    Loaded machine allowed loads lower upper (values ++ [load state]) := by
  intro index value here
  by_cases earlier : index < values.length
  · rw [List.getElem?_append_left earlier] at here
    exact loaded index value here
  · have last : index = values.length := by
      have bound := (List.getElem?_eq_some_iff.mp here).1
      simp only [List.length_append, List.length_singleton] at bound
      omega
    subst last
    obtain rfl : load state = value := by simpa using here
    exact ⟨load, upper, state, next, rfl, reached, low, List.prefix_rfl⟩

theorem Loaded.length_le {lower upper : List Event} {values : List Value}
    (loaded : Loaded machine allowed loads lower upper values) :
    values.length ≤ loads.length := by
  by_contra longer
  obtain ⟨load, _, _, which, _⟩ := loaded loads.length _
    (List.getElem?_eq_getElem (Nat.lt_of_not_le longer))
  have bound := (List.getElem?_eq_some_iff.mp which).1
  exact Nat.lt_irrefl _ bound

def Began (machine : EventMachine State Action Event)
    (allowed : List Event → State → Action → Prop) (loads : List (State → Value))
    (trace : List (ObservedEvent Event Reader Value)) (reader : Reader) (values : List Value) :
    Prop :=
  ∃ before during, trace = before ++ .called reader :: during ∧ .called reader ∉ during ∧
    Loaded machine allowed loads (innerEvents before) (innerEvents trace) values

structure ObservedOk (machine : EventMachine State Action Event)
    (allowed : List Event → State → Action → Prop) (loads : List (State → Value))
    (trace : List (ObservedEvent Event Reader Value)) (world : Observed State Reader Value) :
    Prop where
  inner : machine.Reaches allowed (innerEvents trace) world.state
  reading : ∀ reader values, world.reads reader = some values →
    Began machine allowed loads trace reader values
  returned : Stamped (fun before event => ∀ reader values, event = .returned reader values →
    values.length = loads.length ∧ Began machine allowed loads before reader values) trace

omit [DecidableEq Reader] in
theorem Began.later {reader : Reader} {values : List Value}
    {more : List (ObservedEvent Event Reader Value)}
    (began : Began machine allowed loads trace reader values)
    (others : .called reader ∉ more) : Began machine allowed loads (trace ++ more) reader values := by
  obtain ⟨before, during, split, once, loaded⟩ := began
  refine ⟨before, during ++ more, by simp [split], ?_, ?_⟩
  · simp [once, others]
  · rw [innerEvents_append]
    exact loaded.later _

omit [DecidableEq Reader] in
theorem ObservedOk.inner_step {action : Action} {state : State} {events : List Event}
    (ok : ObservedOk machine allowed loads trace world)
    (permitted : allowed (innerEvents trace) world.state action)
    (stepped : machine.step world.state action = some (state, events)) :
    ObservedOk machine allowed loads
      (trace ++ events.map (.inner : Event → ObservedEvent Event Reader Value))
      { world with state } := by
  constructor
  case inner =>
    rw [innerEvents_append, innerEvents_map]
    exact .snoc ok.inner permitted stepped
  case reading =>
    intro reader values reading
    exact (ok.reading reader values reading).later (by simp)
  case returned =>
    exact ok.returned.append (by simp)

theorem ObservedOk.call_step {reader : Reader} (ok : ObservedOk machine allowed loads trace world) :
    ObservedOk machine allowed loads (trace ++ [.called reader])
      { world with reads := Function.update world.reads reader (some []) } := by
  constructor
  case inner =>
    rw [innerEvents_append, innerEvents_called, List.append_nil]
    exact ok.inner
  case reading =>
    intro other values reading
    by_cases same : other = reader
    · subst same
      obtain rfl : [] = values := by simpa using reading
      exact ⟨trace, [], rfl, by simp, nofun⟩
    · simp only [Function.update_of_ne same] at reading
      exact (ok.reading other values reading).later (by simpa using same)
  case returned => exact ok.returned.append (by simp)

theorem ObservedOk.load_step {reader : Reader} {values : List Value} {load : State → Value}
    (ok : ObservedOk machine allowed loads trace world)
    (reading : world.reads reader = some values) (next : loads[values.length]? = some load) :
    ObservedOk machine allowed loads trace { world with
      reads := Function.update world.reads reader (some (values ++ [load world.state])) } := by
  refine ⟨ok.inner, ?_, ok.returned⟩
  intro other loaded here
  by_cases same : other = reader
  · subst same
    obtain rfl : values ++ [load world.state] = loaded := by simpa using here
    obtain ⟨before, during, split, once, earlier⟩ := ok.reading other values reading
    refine ⟨before, during, split, once, earlier.append next ok.inner ?_⟩
    rw [split, innerEvents_append]
    exact List.prefix_append _ _
  · simp only [Function.update_of_ne same] at here
    exact ok.reading other loaded here

theorem ObservedOk.return_step {reader : Reader} {values : List Value}
    (ok : ObservedOk machine allowed loads trace world)
    (reading : world.reads reader = some values) (done : loads[values.length]? = none) :
    ObservedOk machine allowed loads (trace ++ [.returned reader values])
      { world with reads := Function.update world.reads reader none } := by
  have began := ok.reading reader values reading
  constructor
  case inner =>
    rw [innerEvents_append, innerEvents_returned, List.append_nil]
    exact ok.inner
  case reading =>
    intro other loaded here
    by_cases same : other = reader
    · simp [same] at here
    · simp only [Function.update_of_ne same] at here
      exact (ok.reading other loaded here).later (by simp)
  case returned =>
    apply ok.returned.concat
    intro other loaded same
    obtain ⟨rfl, rfl⟩ : reader = other ∧ values = loaded := by simpa using same
    obtain ⟨_, _, _, _, all⟩ := began
    have enough : loads.length ≤ values.length := List.getElem?_eq_none_iff.mp done
    exact ⟨Nat.le_antisymm all.length_le enough, ok.reading _ _ reading⟩

theorem observed_ok
    (reached : (observed machine loads).Reaches (besides allowed) trace world) :
    ObservedOk machine allowed loads trace world := by
  refine reached.invariant (ObservedOk machine allowed loads)
    ⟨Path.nil, nofun, .nil⟩ ?_
  intro trace world action next events ok permitted stepped
  cases action with
  | inner action =>
      obtain ⟨⟨state, inner⟩, ran, same⟩ := Option.map_eq_some_iff.mp stepped
      obtain ⟨rfl, rfl⟩ := Prod.mk.inj same
      exact ok.inner_step permitted ran
  | call reader =>
      simp only [observed] at stepped
      split at stepped
      · obtain ⟨rfl, rfl⟩ := Prod.mk.inj (Option.some.inj stepped)
        exact ok.call_step
      · cases stepped
  | load reader =>
      simp only [observed] at stepped
      split at stepped
      · cases stepped
      · rename_i values reading
        split at stepped
        · rename_i done
          obtain ⟨rfl, rfl⟩ := Prod.mk.inj (Option.some.inj stepped)
          exact ok.return_step reading done
        · rename_i load next
          obtain ⟨rfl, rfl⟩ := Prod.mk.inj (Option.some.inj stepped)
          rw [List.append_nil]
          exact ok.load_step reading next

/-- What a call returns was loaded, part by part, between its begin and its return. -/
theorem observed_returned {before after : List (ObservedEvent Event Reader Value)}
    {reader : Reader} {values : List Value}
    (reached : (observed machine loads).Reaches (besides allowed)
      (before ++ .returned reader values :: after) world) :
    values.length = loads.length ∧ Began machine allowed loads before reader values :=
  (observed_ok reached).returned before (.returned reader values) after rfl reader values rfl

end EventMachine
