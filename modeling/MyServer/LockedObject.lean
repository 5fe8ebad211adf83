import MyServer.EventMachine

/-!
Objects whose operations run under one mutex. The code of an operation reads and writes the
memory one access at a time; if every operation by itself does what a function on abstract
values says, then so does every call of any interleaving, at one point between the call and
the return.
-/

namespace MyServer

structure ObjectCode (Memory Operation Place Value : Type) where
  enter : Operation → Place
  access : Place → Memory → Memory × (Place ⊕ Value)

inductive ObjectCode.Finishes {Memory Operation Place Value : Type}
    (code : ObjectCode Memory Operation Place Value) : Place → Memory → Memory → Value → Prop
  | returns {place memory last value} (accessed : code.access place memory = (last, .inr value)) :
      Finishes code place memory last value
  | continues {place memory next later last value}
      (accessed : code.access place memory = (later, .inl next))
      (rest : Finishes code next later last value) : Finishes code place memory last value

inductive CallEvent (Thread Operation Value : Type)
  | called (thread : Thread) (operation : Operation)
  /-- The operation took effect. -/
  | effected (thread : Thread) (operation : Operation) (value : Value)
  | returned (thread : Thread) (value : Value)
  deriving DecidableEq

inductive CallAction (Thread Operation : Type)
  | call (thread : Thread) (operation : Operation)
  | go (thread : Thread)

/-! The object under its mutex. -/

inductive LockedPc (Operation Place Value : Type)
  | idle
  | lock (operation : Operation)
  | inside (operation : Operation) (place : Place)
  | unlock (operation : Operation) (value : Value)

structure Locked (Thread Memory Operation Place Value : Type) where
  memory : Memory
  holder : Option Thread
  threads : Thread → LockedPc Operation Place Value

variable {Thread Memory Operation Place Value Abstract : Type} [DecidableEq Thread]

def Locked.step (code : ObjectCode Memory Operation Place Value)
    (state : Locked Thread Memory Operation Place Value) :
    CallAction Thread Operation →
      Option (Locked Thread Memory Operation Place Value × List (CallEvent Thread Operation Value))
  | .call thread operation =>
      match state.threads thread with
      | .idle =>
          some ({ state with threads := Function.update state.threads thread (.lock operation) },
            [.called thread operation])
      | _ => none
  | .go thread =>
      match state.threads thread with
      | .idle => none
      | .lock operation =>
          match state.holder with
          | none =>
              some ({ state with
                holder := some thread
                threads := Function.update state.threads thread
                  (.inside operation (code.enter operation)) }, [])
          | some _ => none
      | .inside operation place =>
          match code.access place state.memory with
          | (memory, .inl next) =>
              some ({ state with
                memory
                threads := Function.update state.threads thread (.inside operation next) }, [])
          | (memory, .inr value) =>
              some ({ state with
                memory
                threads := Function.update state.threads thread (.unlock operation value) },
                [.effected thread operation value])
      | .unlock _ value =>
          some ({ state with holder := none, threads := Function.update state.threads thread .idle },
            [.returned thread value])

def lockedMachine (code : ObjectCode Memory Operation Place Value) (memory : Memory)
    (Thread : Type) [DecidableEq Thread] :
    EventMachine (Locked Thread Memory Operation Place Value) (CallAction Thread Operation)
      (CallEvent Thread Operation Value) where
  start := ⟨memory, none, fun _ => .idle⟩
  step := Locked.step code

/-! The same calls on an abstract value, each in one step. -/

inductive AtomicPc (Operation Value : Type)
  | idle
  | pending (operation : Operation)
  | done (operation : Operation) (value : Value)

structure Atomic (Thread Abstract Operation Value : Type) where
  value : Abstract
  threads : Thread → AtomicPc Operation Value

def Atomic.step (spec : Operation → Abstract → Abstract × Value)
    (state : Atomic Thread Abstract Operation Value) :
    CallAction Thread Operation →
      Option (Atomic Thread Abstract Operation Value × List (CallEvent Thread Operation Value))
  | .call thread operation =>
      match state.threads thread with
      | .idle =>
          some ({ state with threads := Function.update state.threads thread (.pending operation) },
            [.called thread operation])
      | _ => none
  | .go thread =>
      match state.threads thread with
      | .idle => none
      | .pending operation =>
          let (value, answer) := spec operation state.value
          some ({ value, threads := Function.update state.threads thread (.done operation answer) },
            [.effected thread operation answer])
      | .done _ value =>
          some ({ state with threads := Function.update state.threads thread .idle },
            [.returned thread value])

def atomicMachine (spec : Operation → Abstract → Abstract × Value) (value : Abstract)
    (Thread : Type) [DecidableEq Thread] :
    EventMachine (Atomic Thread Abstract Operation Value) (CallAction Thread Operation)
      (CallEvent Thread Operation Value) where
  start := ⟨value, fun _ => .idle⟩
  step := Atomic.step spec

/-! Refinement. -/

def ObjectCode.Implements (code : ObjectCode Memory Operation Place Value)
    (spec : Operation → Abstract → Abstract × Value) (Holds : Memory → Abstract → Prop) : Prop :=
  ∀ operation memory value, Holds memory value → ∃ last,
    code.Finishes (code.enter operation) memory last (spec operation value).2 ∧
      Holds last (spec operation value).1

def LockedPc.atomic : LockedPc Operation Place Value → AtomicPc Operation Value
  | .idle => .idle
  | .lock operation | .inside operation _ => .pending operation
  | .unlock operation value => .done operation value

def LockedPc.holds : LockedPc Operation Place Value → Bool
  | .inside _ _ | .unlock _ _ => true
  | _ => false

def LockedPc.entered : LockedPc Operation Place Value → Option (Operation × Place)
  | .inside operation place => some (operation, place)
  | _ => none

structure LockedObject.Related (code : ObjectCode Memory Operation Place Value)
    (spec : Operation → Abstract → Abstract × Value) (Holds : Memory → Abstract → Prop)
    (locked : Locked Thread Memory Operation Place Value)
    (atomic : Atomic Thread Abstract Operation Value) : Prop where
  places : atomic.threads = fun thread => (locked.threads thread).atomic
  holder : ∀ thread, (locked.threads thread).holds = true ↔ locked.holder = some thread
  /-- With nobody inside, the memory holds the value. -/
  quiet : (∀ thread, (locked.threads thread).entered = none) → Holds locked.memory atomic.value
  /-- Whoever is inside will do to the memory what its operation does to the value. -/
  busy : ∀ thread operation place, (locked.threads thread).entered = some (operation, place) →
    ∃ last, code.Finishes place locked.memory last (spec operation atomic.value).2 ∧
      Holds last (spec operation atomic.value).1

namespace LockedObject

variable {code : ObjectCode Memory Operation Place Value}
variable {spec : Operation → Abstract → Abstract × Value} {Holds : Memory → Abstract → Prop}
variable {locked next : Locked Thread Memory Operation Place Value}
variable {atomic : Atomic Thread Abstract Operation Value}
variable {memory : Memory} {value : Abstract}
variable {trace events : List (CallEvent Thread Operation Value)} {thread : Thread}

omit [DecidableEq Thread] in
theorem Related.initial (holds : Holds memory value) :
    Related code spec Holds (⟨memory, none, fun _ : Thread => .idle⟩) ⟨value, fun _ => .idle⟩ where
  places := rfl
  holder := by simp [LockedPc.holds]
  quiet := fun _ => holds
  busy := by simp [LockedPc.entered]

omit [DecidableEq Thread] in
/-- Only the holder of the mutex is inside. -/
theorem Related.outside (related : Related code spec Holds locked atomic)
    (free : locked.holder ≠ some thread) : (locked.threads thread).entered = none := by
  have out : ¬(locked.threads thread).holds = true := fun holds =>
    free ((related.holder thread).mp holds)
  cases here : locked.threads thread with
  | inside => exact absurd (by rw [here]; rfl) out
  | _ => rfl

/-- A thread that holds the mutex as before keeps the others out as before. -/
theorem holder_update {pc : LockedPc Operation Place Value}
    (related : Related code spec Holds locked atomic)
    (same : pc.holds = (locked.threads thread).holds) (other : Thread) :
    (Function.update locked.threads thread pc other).holds = true ↔
      locked.holder = some other := by
  rw [reads_same LockedPc.holds same]
  exact related.holder other

/-- A step that leaves the memory and whoever is inside as they are. -/
theorem Related.frame (related : Related code spec Holds locked atomic)
    {pc : LockedPc Operation Place Value} {holder : Option Thread}
    (entered : pc.entered = (locked.threads thread).entered)
    (holds : ∀ other, (Function.update locked.threads thread pc other).holds = true ↔
      holder = some other) :
    Related code spec Holds
      ⟨locked.memory, holder, Function.update locked.threads thread pc⟩
      ⟨atomic.value, Function.update atomic.threads thread pc.atomic⟩ := by
  have kept : ∀ other, (Function.update locked.threads thread pc other).entered =
      (locked.threads other).entered := reads_same LockedPc.entered entered
  constructor
  case places => exact related.places ▸ (reads_update LockedPc.atomic _ _ _).symm
  case holder => exact holds
  case quiet => exact fun nobody => related.quiet fun other => (kept other).symm.trans (nobody other)
  case busy =>
    exact fun other op place inside => related.busy other op place ((kept other).symm.trans inside)

/-- A step by which a thread comes to a place inside, alone. -/
theorem Related.enters (related : Related code spec Holds locked atomic)
    {operation : Operation} {place : Place} {memory last : Memory}
    (pending : (locked.threads thread).atomic = .pending operation)
    (others : ∀ other, other ≠ thread → (locked.threads other).holds = false)
    (finishes : code.Finishes place memory last (spec operation atomic.value).2)
    (holds : Holds last (spec operation atomic.value).1) :
    Related code spec Holds
      ⟨memory, some thread, Function.update locked.threads thread (.inside operation place)⟩
      atomic := by
  constructor
  case places =>
    have same : ∀ other, (Function.update locked.threads thread (.inside operation place)
        other).atomic = (locked.threads other).atomic := reads_same LockedPc.atomic pending.symm
    exact related.places.trans (funext same).symm
  case holder =>
    intro other
    by_cases same : other = thread
    · subst same
      simp [LockedPc.holds]
    · simp [Function.update_of_ne same, others other same, Ne.symm same]
  case quiet =>
    intro nobody
    have inside := nobody thread
    simp [LockedPc.entered] at inside
  case busy =>
    intro other op place' inside
    by_cases same : other = thread
    · subst same
      simp only [Function.update_self, LockedPc.entered, Option.some.injEq, Prod.mk.injEq] at inside
      obtain ⟨rfl, rfl⟩ := inside
      exact ⟨last, finishes, holds⟩
    · have out := others other same
      cases here : locked.threads other <;>
        simp_all [LockedPc.holds, LockedPc.entered]

omit [DecidableEq Thread] in
theorem Related.alone (related : Related code spec Holds locked atomic)
    (holds : (locked.threads thread).holds = true) (other : Thread) (different : other ≠ thread) :
    (locked.threads other).holds = false := by
  by_contra also
  have mine := (related.holder thread).mp holds
  have yours := (related.holder other).mp (by simpa using also)
  exact different (Option.some.inj (yours.symm.trans mine))

/-- A step by which the thread inside ends its operation. -/
theorem Related.effects (related : Related code spec Holds locked atomic)
    {operation : Operation} {place : Place} {memory : Memory} {answer : Value}
    (here : locked.threads thread = .inside operation place)
    (accessed : code.access place locked.memory = (memory, .inr answer)) :
    answer = (spec operation atomic.value).2 ∧
      Related code spec Holds
        ⟨memory, locked.holder, Function.update locked.threads thread (.unlock operation answer)⟩
        ⟨(spec operation atomic.value).1,
          Function.update atomic.threads thread (.done operation answer)⟩ := by
  obtain ⟨last, finishes, holds⟩ := related.busy thread operation place (by rw [here]; rfl)
  have ended : memory = last ∧ answer = (spec operation atomic.value).2 := by
    cases finishes with
    | returns ended =>
        rw [accessed] at ended
        cases ended
        exact ⟨rfl, rfl⟩
    | continues goes rest =>
        rw [accessed] at goes
        cases goes
  obtain ⟨rfl, same⟩ := ended
  refine ⟨same, ?_⟩
  constructor
  case places =>
    change Function.update atomic.threads thread _ =
      fun other => (Function.update locked.threads thread _ other).atomic
    rw [related.places, reads_update]
    rfl
  case holder => exact holder_update related (by rw [here]; rfl)
  case quiet => exact fun _ => holds
  case busy =>
    intro other op place' inside
    by_cases mine : other = thread
    · subst mine
      simp [LockedPc.entered] at inside
    · have out := related.alone (by rw [here]; rfl) other mine
      cases there : locked.threads other <;>
        simp_all [LockedPc.holds, LockedPc.entered]

/-- Every step of the locked object is one of the atomic object, or none. -/
theorem Related.step (related : Related code spec Holds locked atomic)
    (implements : code.Implements spec Holds) {action : CallAction Thread Operation}
    (stepped : locked.step code action = some (next, events)) :
    (events = [] ∧ Related code spec Holds next atomic) ∨
      ∃ after, atomic.step spec action = some (after, events) ∧
        Related code spec Holds next after := by
  have places : ∀ thread, atomic.threads thread = (locked.threads thread).atomic :=
    fun thread => congrFun related.places thread
  unfold Locked.step at stepped
  cases action with
  | call thread operation =>
      cases here : locked.threads thread with
      | idle =>
          simp only [here, Option.some.injEq, Prod.mk.injEq] at stepped
          obtain ⟨rfl, rfl⟩ := stepped
          refine .inr ⟨_, ?_, related.frame (by rw [here]; rfl)
            (holder_update related (by rw [here]; rfl))⟩
          simp only [Atomic.step, places, here]
          rfl
      | _ => simp [here] at stepped
  | go thread =>
      cases here : locked.threads thread with
      | idle => simp [here] at stepped
      | lock operation =>
          cases free : locked.holder with
          | some => simp [here, free] at stepped
          | none =>
              simp only [here, free, Option.some.injEq, Prod.mk.injEq] at stepped
              obtain ⟨rfl, rfl⟩ := stepped
              have out : ∀ other, (locked.threads other).holds = false := by
                intro other
                by_contra holds
                have held := (related.holder other).mp (by simpa using holds)
                rw [free] at held
                cases held
              have value : Holds locked.memory atomic.value :=
                related.quiet fun other => related.outside (by simp [free])
              obtain ⟨last, finishes, holds⟩ := implements operation _ _ value
              exact .inl ⟨rfl, related.enters (by rw [here]; rfl) (fun other _ => out other)
                finishes holds⟩
      | inside operation place =>
          rcases accessed : code.access place locked.memory with ⟨memory, later | answer⟩
          · simp only [here, accessed, Option.some.injEq, Prod.mk.injEq] at stepped
            obtain ⟨rfl, rfl⟩ := stepped
            obtain ⟨last, finishes, holds⟩ := related.busy thread operation place (by rw [here]; rfl)
            have held : locked.holder = some thread := (related.holder thread).mp (by rw [here]; rfl)
            have rest : code.Finishes later memory last (spec operation atomic.value).2 := by
              cases finishes with
              | returns ended =>
                  rw [accessed] at ended
                  cases ended
              | continues goes rest =>
                  rw [accessed] at goes
                  cases goes
                  exact rest
            rw [held]
            exact .inl ⟨rfl, related.enters (by rw [here]; rfl)
              (related.alone (by rw [here]; rfl)) rest holds⟩
          · simp only [here, accessed, Option.some.injEq, Prod.mk.injEq] at stepped
            obtain ⟨rfl, rfl⟩ := stepped
            obtain ⟨same, effected⟩ := related.effects here accessed
            refine .inr ⟨_, ?_, effected⟩
            simp only [Atomic.step, places, here, LockedPc.atomic, same]
      | unlock operation answer =>
          simp only [here, Option.some.injEq, Prod.mk.injEq] at stepped
          obtain ⟨rfl, rfl⟩ := stepped
          have alone := related.alone (by rw [here]; rfl)
          refine .inr ⟨_, ?_, related.frame (by rw [here]; rfl) fun other => ?_⟩
          · simp only [Atomic.step, places, here, LockedPc.atomic]
          · by_cases same : other = thread
            · subst same
              simp [LockedPc.holds]
            · simp [Function.update_of_ne same, alone other same]

/-- The calls of every run are those of a run of the atomic object, with the operations taking
effect in the same order. -/
theorem locked_refines (implements : code.Implements spec Holds) (holds : Holds memory value)
    (reached : (lockedMachine code memory Thread).Reaches EventMachine.anyAction trace locked) :
    ∃ atomic, (atomicMachine spec value Thread).Reaches EventMachine.anyAction trace atomic ∧
      Related code spec Holds locked atomic := by
  refine EventMachine.Reaches.simulated (Related code spec Holds) (.initial holds) ?_ reached
  intro trace state stateB action next events _ related _ stepped
  rcases related.step implements stepped with silent | ⟨after, ran, relatedNext⟩
  · exact .inl silent
  · exact .inr ⟨action, after, trivial, ran, relatedNext⟩

/-- Somebody can go on as long as a call has not returned. -/
theorem locked_live (related : Related code spec Holds locked atomic)
    (calling : (locked.threads thread).atomic ≠ .idle) :
    ∃ other, (locked.step code (.go other)).isSome = true := by
  have holding : ∀ other, (locked.threads other).holds = true →
      (locked.step code (.go other)).isSome = true := by
    intro other holds
    cases here : locked.threads other with
    | inside operation place =>
        simp only [Locked.step, here]
        rcases code.access place locked.memory with ⟨memory, later | answer⟩ <;> rfl
    | unlock operation answer =>
        simp only [Locked.step, here]
        rfl
    | _ => simp [here, LockedPc.holds] at holds
  cases here : locked.threads thread with
  | idle => exact absurd (by rw [here]; rfl) calling
  | lock operation =>
      cases held : locked.holder with
      | none => exact ⟨thread, by simp [Locked.step, here, held]⟩
      | some other => exact ⟨other, holding other ((related.holder other).mpr held)⟩
  | inside | unlock => exact ⟨thread, holding thread (by rw [here]; rfl)⟩

end LockedObject

/-! What the run of an atomic object tells: each call takes effect once, between its call and
its return, and the answers are those of the operations in the order of their effects. -/

inductive Replays (spec : Operation → Abstract → Abstract × Value) (first : Abstract) :
    List (Operation × Value) → Abstract → Prop
  | nil : Replays spec first [] first
  | snoc {done value} (operation : Operation) (before : Replays spec first done value) :
      Replays spec first (done ++ [(operation, (spec operation value).2)]) (spec operation value).1

namespace CallEvent

def effect? : CallEvent Thread Operation Value → Option (Operation × Value)
  | .effected _ operation value => some (operation, value)
  | .called _ _ | .returned _ _ => none

def thread : CallEvent Thread Operation Value → Thread
  | .called thread _ | .effected thread _ _ | .returned thread _ => thread

end CallEvent

def effects (trace : List (CallEvent Thread Operation Value)) : List (Operation × Value) :=
  trace.filterMap CallEvent.effect?

def wholeCall (thread : Thread) (call : Operation × Value) :
    List (CallEvent Thread Operation Value) :=
  [.called thread call.1, .effected thread call.1 call.2, .returned thread call.2]

def AtomicPc.events (thread : Thread) :
    AtomicPc Operation Value → List (CallEvent Thread Operation Value)
  | .idle => []
  | .pending operation => [.called thread operation]
  | .done operation value => [.called thread operation, .effected thread operation value]

structure Linearized (spec : Operation → Abstract → Abstract × Value) (value : Abstract)
    (trace : List (CallEvent Thread Operation Value))
    (atomic : Atomic Thread Abstract Operation Value) : Prop where
  replays : Replays spec value (effects trace) atomic.value
  calls : ∀ thread, ∃ calls : List (Operation × Value), (trace.filter fun event => event.thread = thread) =
    calls.flatMap (wholeCall thread) ++ (atomic.threads thread).events thread

section Atomic

variable {spec : Operation → Abstract → Abstract × Value} {value : Abstract}
variable {trace : List (CallEvent Thread Operation Value)} {thread : Thread}
variable {atomic next : Atomic Thread Abstract Operation Value}

omit [DecidableEq Thread] in
theorem effects_silent {event : CallEvent Thread Operation Value} (silent : event.effect? = none) :
    effects (trace ++ [event]) = effects trace := by
  simp [effects, silent]

/-- A thread's events after one event of its call. -/
theorem calls_step {event : CallEvent Thread Operation Value} {pc : AtomicPc Operation Value}
    (own : event.thread = thread)
    (calls : ∀ other, ∃ calls : List (Operation × Value), (trace.filter fun event => event.thread = other) =
      calls.flatMap (wholeCall other) ++ (atomic.threads other).events other)
    (mine : ∀ done : List (Operation × Value), ∃ calls : List (Operation × Value),
      done.flatMap (wholeCall thread) ++ (atomic.threads thread).events thread ++ [event] =
        calls.flatMap (wholeCall thread) ++ pc.events thread) (other : Thread) :
    ∃ calls : List (Operation × Value), ((trace ++ [event]).filter fun event => event.thread = other) =
      calls.flatMap (wholeCall other) ++
        (Function.update atomic.threads thread pc other).events other := by
  obtain ⟨done, before⟩ := calls other
  rw [List.filter_append, before]
  by_cases same : other = thread
  · subst same
    obtain ⟨calls, after⟩ := mine done
    refine ⟨calls, ?_⟩
    rw [Function.update_self, ← after]
    simp [own]
  · refine ⟨done, ?_⟩
    rw [Function.update_of_ne same]
    simp [own, Ne.symm same]

theorem Linearized.step (linearized : Linearized spec value trace atomic)
    {action : CallAction Thread Operation} {events : List (CallEvent Thread Operation Value)}
    (stepped : atomic.step spec action = some (next, events)) :
    Linearized spec value (trace ++ events) next := by
  unfold Atomic.step at stepped
  cases action with
  | call thread operation =>
      cases here : atomic.threads thread with
      | idle =>
          simp only [here, Option.some.injEq, Prod.mk.injEq] at stepped
          obtain ⟨rfl, rfl⟩ := stepped
          constructor
          case replays =>
            rw [effects_silent rfl]
            exact linearized.replays
          case calls =>
            refine calls_step rfl linearized.calls fun done => ⟨done, ?_⟩
            simp [here, AtomicPc.events]
      | _ => simp [here] at stepped
  | go thread =>
      cases here : atomic.threads thread with
      | idle => simp [here] at stepped
      | pending operation =>
          simp only [here, Option.some.injEq, Prod.mk.injEq] at stepped
          obtain ⟨rfl, rfl⟩ := stepped
          constructor
          case replays =>
            have longer := Replays.snoc operation linearized.replays
            simpa [effects, CallEvent.effect?] using longer
          case calls =>
            refine calls_step rfl linearized.calls fun done => ⟨done, ?_⟩
            simp [here, AtomicPc.events]
      | done operation answer =>
          simp only [here, Option.some.injEq, Prod.mk.injEq] at stepped
          obtain ⟨rfl, rfl⟩ := stepped
          constructor
          case replays =>
            rw [effects_silent rfl]
            exact linearized.replays
          case calls =>
            refine calls_step rfl linearized.calls fun done => ⟨done ++ [(operation, answer)], ?_⟩
            simp [here, AtomicPc.events, wholeCall]

theorem linearized
    (reached : (atomicMachine spec value Thread).Reaches EventMachine.anyAction trace atomic) :
    Linearized spec value trace atomic := by
  refine reached.invariant (Linearized spec value) ⟨.nil, fun _ => ⟨[], rfl⟩⟩ ?_
  exact fun _ _ _ _ _ ok _ stepped => ok.step stepped

end Atomic

end MyServer
