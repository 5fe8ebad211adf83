import MyServer.LockedObject

/-!
`SimpleMutexQueue`: a vector under a mutex, popped by moving its front out and every other
element one place forward. Its calls are those of a first-in-first-out queue whose operations
take effect at once, which is what `Server` takes its `QueueT` to be.
-/

namespace MyServer

namespace SimpleMutexQueue

variable {T Thread : Type}

inductive Operation (T : Type)
  | tryPush (value : T)
  | tryPop
  deriving DecidableEq

inductive Answer (T : Type)
  | pushed (ok : Bool)
  | popped (out : Option T)
  deriving DecidableEq

inductive Place (T : Type)
  | pushBack (value : T)
  | testEmpty
  | moveFront
  /-- The loop of `queue_.erase(queue_.begin())` over the elements after the first. -/
  | shift (index : Nat) (out : T)
  /-- Its end, which destroys the last element. -/
  | popBack (out : T)

def code (moved : T → T) : ObjectCode (List T) (Operation T) (Place T) (Answer T) where
  enter
    | .tryPush value => .pushBack value
    | .tryPop => .testEmpty
  access
    | .pushBack value, queue => (queue ++ [value], .inr (.pushed true))
    | .testEmpty, queue =>
        if queue.isEmpty then (queue, .inr (.popped none)) else (queue, .inl .moveFront)
    | .moveFront, queue =>
        match queue with
        | [] => (queue, .inr (.popped none))
        | value :: rest => (moved value :: rest, .inl (.shift 1 value))
    | .shift index out, queue =>
        match queue[index]? with
        | some value =>
            ((queue.set (index - 1) value).set index (moved value), .inl (.shift (index + 1) out))
        | none => (queue, .inl (.popBack out))
    | .popBack out, queue => (queue.dropLast, .inr (.popped (some out)))

def fifo : Operation T → List T → List T × Answer T
  | .tryPush value, queue => (queue ++ [value], .pushed true)
  | .tryPop, [] => ([], .popped none)
  | .tryPop, value :: queue => (queue, .popped (some value))

variable {moved : T → T}

/-- The loop of `erase` closes the gap, wherever it is. -/
theorem shift_finishes (done todo : List T) (hole out : T) :
    (code moved).Finishes (.shift (done.length + 1) out) (done ++ hole :: todo) (done ++ todo)
      (.popped (some out)) := by
  induction todo generalizing done hole with
  | nil =>
      have ended : (code moved).access (.shift (done.length + 1) out) (done ++ [hole]) =
          (done ++ [hole], .inl (.popBack out)) := by
        simp [code]
      apply ObjectCode.Finishes.continues ended
      apply ObjectCode.Finishes.returns
      simp [code]
  | cons value todo ih =>
      have shifted : (code moved).access (.shift (done.length + 1) out)
          (done ++ hole :: value :: todo) =
            (done ++ [value] ++ moved value :: todo, .inl (.shift (done.length + 1 + 1) out)) := by
        simp [code]
      apply ObjectCode.Finishes.continues shifted
      have rest := ih (done ++ [value]) (moved value)
      simpa using rest

theorem implements : (code moved).Implements fifo (fun queue value => queue = value) := by
  rintro (value | _) memory queue rfl
  · exact ⟨_, .returns rfl, rfl⟩
  · cases memory with
    | nil => exact ⟨[], .returns rfl, rfl⟩
    | cons value rest =>
        refine ⟨rest, .continues rfl (.continues rfl ?_), rfl⟩
        exact shift_finishes [] rest (moved value) value

def pushed? : Operation T × Answer T → Option T
  | (.tryPush value, _) => some value
  | (.tryPop, _) => none

def popped? : Operation T × Answer T → Option T
  | (_, .popped out) => out
  | (_, .pushed _) => none

def pushedValues (calls : List (Operation T × Answer T)) : List T := calls.filterMap pushed?

def poppedValues (calls : List (Operation T × Answer T)) : List T := calls.filterMap popped?

structure Fifo (calls : List (Operation T × Answer T)) (queue : List T) : Prop where
  order : pushedValues calls = poppedValues calls ++ queue
  accepts : ∀ value answer, (.tryPush value, answer) ∈ calls → answer = .pushed true
  /-- A `tryPop` fails only when everything pushed before it is popped. -/
  empty : ∀ before after, calls = before ++ (.tryPop, .popped none) :: after →
    pushedValues before = poppedValues before

theorem Fifo.concat {calls : List (Operation T × Answer T)} {queue : List T}
    (ok : Fifo calls queue) (operation : Operation T) :
    Fifo (calls ++ [(operation, (fifo operation queue).2)]) (fifo operation queue).1 := by
  constructor
  case order =>
    have order := ok.order
    unfold pushedValues poppedValues at *
    rw [List.filterMap_append, List.filterMap_append, order]
    cases operation with
    | tryPush value => simp [pushed?, popped?, fifo]
    | tryPop => cases queue <;> simp [pushed?, popped?, fifo, List.filterMap_cons]
  case accepts =>
    intro value answer inside
    rcases List.mem_append.mp inside with earlier | last
    · exact ok.accepts value answer earlier
    · cases List.mem_singleton.mp last
      rfl
  case empty =>
    intro before after split
    rcases List.eq_nil_or_concat after with rfl | ⟨rest, last, rfl⟩
    · obtain ⟨rfl, same⟩ := List.append_inj' split rfl
      cases operation with
      | tryPush value => simp at same
      | tryPop =>
          cases queue with
          | nil => simpa using ok.order
          | cons value queue => simp [fifo] at same
    · rw [List.concat_eq_append, ← List.cons_append, ← List.append_assoc] at split
      exact ok.empty before rest (List.append_inj' split rfl).1

theorem fifo_of_replays {calls : List (Operation T × Answer T)} {queue : List T}
    (replays : Replays fifo [] calls queue) : Fifo calls queue := by
  induction replays with
  | nil => exact ⟨rfl, by simp, by simp⟩
  | snoc operation before ih => exact ih.concat operation

variable [DecidableEq Thread] {trace : List (CallEvent Thread (Operation T) (Answer T))}
variable {state : Locked Thread (List T) (Operation T) (Place T) (Answer T)}

structure Linearizable (moved : T → T) (trace : List (CallEvent Thread (Operation T) (Answer T)))
    (state : Locked Thread (List T) (Operation T) (Place T) (Answer T)) : Prop where
  /-- The same calls are those of a queue whose operations take effect at once. -/
  refines : ∃ queue, (atomicMachine fifo [] Thread).Reaches EventMachine.anyAction trace queue ∧
    Fifo (effects trace) queue.value ∧ (state.holder = none → state.memory = queue.value)
  /-- Every returned call took effect once, between its call and its return. -/
  calls : ∀ thread, ∃ calls : List (Operation T × Answer T),
    (trace.filter fun event => event.thread = thread) =
      calls.flatMap (wholeCall thread) ++ (state.threads thread).atomic.events thread
  /-- A call that has not returned leaves somebody who can go on. -/
  live : ∀ thread, (state.threads thread).atomic ≠ .idle →
    ∃ other, (state.step (code moved) (.go other)).isSome = true

theorem simple_mutex_queue_linearizable
    (reached : (lockedMachine (code moved) [] Thread).Reaches EventMachine.anyAction trace state) :
    Linearizable moved trace state := by
  obtain ⟨queue, run, related⟩ := LockedObject.locked_refines implements rfl reached
  have history := linearized run
  constructor
  case refines =>
    refine ⟨queue, run, fifo_of_replays history.replays, fun free => ?_⟩
    exact related.quiet fun thread => related.outside (by simp [free])
  case calls =>
    intro thread
    rw [← congrFun related.places thread]
    exact history.calls thread
  case live => exact fun thread calling => LockedObject.locked_live related calling

def queueSchedule : List (CallAction Bool (Operation Nat)) :=
  [.call true (.tryPush 5)] ++ List.replicate 3 (.go true) ++
    [.call true (.tryPush 6)] ++ List.replicate 3 (.go true) ++
    [.call true .tryPop, .call false .tryPop] ++ List.replicate 7 (.go true) ++
    List.replicate 6 (.go false)

theorem queueSchedule_runs :
    ((lockedMachine (code fun _ => 0) [] Bool).exec EventMachine.anyAction []
      (lockedMachine (code fun _ => 0) [] Bool).start queueSchedule).isSome = true := by
  decide +kernel

theorem simple_mutex_queue_linearizable_sample :
    Linearizable (fun _ => 0) (Option.get _ queueSchedule_runs).1
        (Option.get _ queueSchedule_runs).2 ∧
      poppedValues (effects (Option.get _ queueSchedule_runs).1) = [5, 6] :=
  ⟨simple_mutex_queue_linearizable (EventMachine.reaches_of_isSome queueSchedule_runs),
    by decide +kernel⟩

end SimpleMutexQueue

end MyServer
