import MyServer.LogEngineTreiber

/-!
What a stale pop of the free list does. Without one, no record is misplaced, both lists are
free of cycles and every accepted envelope is submitted once; with a single one, two
records can be in two places at the same time.
-/

namespace MyServer

variable {Thread : Type}

namespace LogEngine

def ResetNull (state : AtomicEngine Thread) : Prop :=
  (state.workers 0).consumer.resetting = true → state.queue.next state.queue.head = none

def QueueAcyclic (trace : List (EngineEvent Thread)) (queue : MpscQueue LogRecord) : Prop :=
  (queue.chain (waitingRecords trace)).Nodup ∧ ∀ node ∈ queue.chain (waitingRecords trace),
    ∀ next, queue.next node = some next →
      (queue.chain (waitingRecords trace)).Adjacent node next

variable {trace events : List (EngineEvent Thread)} {state next : AtomicEngine Thread}
variable {poolSize : Nat} {thread : Thread}

theorem MemoryOk.acyclic (memory : MemoryOk poolSize trace state) (resetNull : ResetNull state) :
    QueueAcyclic trace state.queue := by
  obtain ⟨place, placed⟩ := memory.placed
  cases resetting : (state.workers 0).consumer.resetting with
  | false =>
      have chain : state.queue.Chain (waitingRecords trace)
          (fun thread => (state.clients thread).pusher) := placed.chain resetting
      exact ⟨chain.nodup, fun node inside next stored => chain.next_adjacent inside stored⟩
  | true =>
      have null := resetNull resetting
      have empty : waitingRecords trace = [] := by
        have phase : QueueWorld.Phase ⟨state.queue, fun thread => (state.clients thread).pusher,
          (state.workers 0).consumer⟩ (waitingRecords trace) := placed.queue.phase
        cases consumer : (state.workers 0).consumer with
        | reset pc =>
            rw [consumer] at phase
            exact phase.1
        | idle | pop pc | empty pc => simp [consumer, ConsumerPc.resetting] at resetting
      rw [QueueAcyclic, empty]
      refine ⟨by simp [MpscQueue.chain], fun node inside next stored => ?_⟩
      have same : node = state.queue.head := by simpa [MpscQueue.chain] using inside
      simp [same, null] at stored

theorem MemoryOk.no_push (memory : MemoryOk poolSize trace state) {push : PushPc LogRecord}
    (here : state.clients thread = .push push) :
    (state.workers 0).consumer.resetting = false := by
  obtain ⟨place, placed⟩ := memory.placed
  have busy : (state.view (waitingRecords trace)).queueWorld.producers thread = some push := by
    simp [MemoryView.queueWorld, view, here, ClientPc.pusher]
  exact Phase.no_reset placed.queue.phase busy

theorem ResetNull.worker (ok : ResetNull state) (memory : MemoryOk poolSize trace state)
    (moved : WorkerMove state 0 next events) : ResetNull next := by
  obtain ⟨place, placed⟩ := memory.placed
  cases moved with
  | @drained pending pc queue here ran =>
      intro _
      have noReset : (state.workers 0).consumer.resetting = false := by rw [here]; rfl
      have chain : state.queue.Chain (waitingRecords trace)
          (fun thread => (state.clients thread).pusher) := placed.chain noReset
      have same : queue = state.queue := by
        have phase : QueueWorld.Phase ⟨state.queue, fun thread => (state.clients thread).pusher,
          (state.workers 0).consumer⟩ (waitingRecords trace) := placed.queue.phase
        rw [here] at phase
        have result := phase.1.popStep phase.2
        rw [ran] at result
        cases result with
        | null _ => rfl
      rw [memory.drained here ran] at chain
      have tail : state.queue.tail = state.queue.head := by
        simpa [MpscQueue.chain, eq_comm] using chain.tailLast
      subst same
      exact tail ▸ chain.tailNull
  | @resets pending pc queue later here ran =>
      intro _
      have null := ok (by rw [here]; rfl)
      cases pc with
      | clearStub =>
          cases ran
          by_cases stub : state.queue.head = .stub
          · simp [workerGoto, stub]
          · simpa [workerGoto, stub] using null
      | setHead =>
          cases ran
          have phase : QueueWorld.Phase ⟨state.queue, fun thread => (state.clients thread).pusher,
            (state.workers 0).consumer⟩ (waitingRecords trace) := placed.queue.phase
          rw [here] at phase
          exact phase.2.2
      | setTail => simp [MpscQueue.resetStep] at ran
  | @takes drain pending _ _ _ here ran =>
      intro resetting
      cases pending <;>
        simp [workerGoto, deliver, WorkerPc.consumer, ConsumerPc.resetting] at resetting
  | @written drain _ here =>
      intro resetting
      cases drain <;> simp [workerGoto, WorkerPc.consumer, ConsumerPc.resetting] at resetting
  | @wasReset pending _ _ here ran =>
      intro resetting
      cases pending <;>
        simp [workerGoto, afterReset, WorkerPc.consumer, ConsumerPc.resetting] at resetting
  | _ =>
      intro resetting
      simp [workerGoto, WorkerPc.consumer, ConsumerPc.resetting] at resetting

variable [DecidableEq Thread]

theorem ResetNull.client (ok : ResetNull state) (memory : MemoryOk poolSize trace state)
    (moved : ClientMove poolSize state thread next events) : ResetNull next := by
  cases moved with
  | clears here | exchanges here | links here =>
      intro resetting
      have none := memory.no_push here
      exact absurd (none.symm.trans resetting) (by simp)
  | spawns here =>
      intro resetting
      by_cases first : state.spawned = 0
      · simp [goto, first, WorkerPc.consumer, ConsumerPc.resetting] at resetting
      · exact ok (by simpa [goto, Function.update_of_ne (Ne.symm first)] using resetting)
  | _ => exact ok

structure KeptOk [Fintype Thread] (poolSize : Nat) (trace : List (EngineEvent Thread))
    (state : AtomicEngine Thread) : Prop where
  late : LateOk poolSize trace state
  delivery : DeliveryOk trace state
  calls : CallsOk trace state
  resetNull : ResetNull state

theorem kept_ok [Fintype Thread]
    (reached : (engineMachine (atomicFreeList LogRecord) Thread poolSize).Reaches shutdownLast
      trace state) : KeptOk poolSize trace state := by
  refine reached.invariant (KeptOk poolSize)
    ⟨late_ok .nil, .initial, .initial, fun resetting => ?_⟩ ?_
  · simp [engineMachine, LogEngine.initial, WorkerPc.consumer, ConsumerPc.resetting] at resetting
  · intro trace state action next events ok permitted stepped
    have moved := (step_move stepped).2
    refine ⟨ok.late.step permitted moved, ok.delivery.step ok.late.memory moved,
      ok.calls.step moved, ?_⟩
    cases moved with
    | enqueue here | shutdown here => exact ok.resetNull
    | client moved => exact ok.resetNull.client ok.late.memory moved
    | @worker id _ _ _ moved =>
        have present : state.workers id ≠ .absent := by
          cases moved <;> simp_all
        obtain rfl := ok.late.memory.worker_zero present
        exact ok.resetNull.worker ok.late.memory moved

/-- Nothing is misplaced, no list has a cycle, and the accepted envelopes are those submitted,
each once, and those still stored in the records of the queue. -/
structure Undamaged (poolSize : Nat) (trace : List (EngineEvent Thread))
    (state : TreiberEngine Thread) (stack : List LogRecord) : Prop where
  holds : FreeList.Holds state.freelist stack
  freeAcyclic : stack.Nodup
  placed : (state.atomically stack).Initialised → PoolOwned poolSize trace (state.atomically stack)
  queueAcyclic : QueueAcyclic trace state.queue
  once : (queuedEnvelopes trace).Nodup
  kept : (queuedEnvelopes trace).map some = (submittedEnvelopes trace).map some ++
    (DeliveryStage.undelivered (state.workers 0).atomic.stage ++ waitingRecords trace).map state.stored

/-- In every run in which no `try_pop` installs an old successor, nothing is damaged. -/
theorem undamaged_without_stale_pop [Fintype Thread] {state : TreiberEngine Thread}
    (reached : (engineMachine (treiberFreeList LogRecord) Thread poolSize).Reaches
      (fun trace state action => shutdownLast trace state action ∧ freshPops trace state action)
      trace state) : ∃ stack, Undamaged poolSize trace state stack := by
  obtain ⟨stack, listed, run⟩ := treiber_simulates shutdownLast
    (fun trace state stack action => (shutdownLast_atomic trace state stack action).mpr)
    (fun _ _ run => (late_ok run).memory) reached
  have ok := kept_ok run
  refine ⟨stack, listed.holds, ?_, ok.late.memory.pool_owned, ?_, ?_, ok.delivery.order⟩
  · obtain ⟨place, placed⟩ := ok.late.memory.placed
    exact placed.placed.freeNodup
  · exact ok.late.memory.acyclic ok.resetNull
  · exact Envelope.nodup ok.calls.calls.order

def Misplaced (state : AtomicEngine Thread) (trace : List (EngineEvent Thread))
    (record : LogRecord) : Prop :=
  ∃ left right, left ≠ right ∧ state.Owns trace left record ∧ state.Owns trace right record

def staleSchedule : List (EngineAction Bool) :=
  [EngineAction.enqueue true] ++ List.replicate 16 (EngineAction.client true false) ++
    [EngineAction.enqueue false] ++ List.replicate 3 (EngineAction.client false false) ++
    List.replicate 8 (EngineAction.client true false) ++
    [EngineAction.enqueue true] ++ List.replicate 9 (EngineAction.client true false) ++
    [EngineAction.enqueue true] ++ List.replicate 9 (EngineAction.client true false) ++
    List.replicate 12 (EngineAction.worker 0 false)

theorem staleSchedule_runs :
    ((engineMachine (treiberFreeList LogRecord) Bool 4).exec
      (fun trace state action => shutdownLast trace state action ∧ freshPops trace state action) []
      (engineMachine (treiberFreeList LogRecord) Bool 4).start staleSchedule).isSome = true := by
  decide +kernel

theorem undamaged_without_stale_pop_sample :
    let trace := (Option.get _ staleSchedule_runs).1
    let state := (Option.get _ staleSchedule_runs).2
    queuedEnvelopes trace = [⟨true, 0⟩, ⟨true, 1⟩, ⟨true, 2⟩] ∧
      submittedEnvelopes trace = [⟨true, 0⟩] ∧ ∃ stack, Undamaged 4 trace state stack :=
  ⟨by decide +kernel, by decide +kernel,
    undamaged_without_stale_pop (EventMachine.reaches_of_isSome staleSchedule_runs)⟩

theorem staleStep_runs :
    ((Option.get _ staleSchedule_runs).2.step 4 (.client false false)).isSome = true := by
  decide +kernel

/-- One stale compare-exchange puts two records in two places each: the worker's current
record and the record in the queue are on the free list again. -/
theorem stale_pop_misplaces_two :
    let trace := (Option.get _ staleSchedule_runs).1
    let state := (Option.get _ staleSchedule_runs).2
    let next := (Option.get _ staleStep_runs).1
    (engineMachine (treiberFreeList LogRecord) Bool 4).Reaches
        (fun trace state action => shutdownLast trace state action ∧ freshPops trace state action)
        trace state ∧
      state.stalePop false false = true ∧ (Option.get _ staleStep_runs).2 = [] ∧
      ∃ stack, FreeList.Holds next.freelist stack ∧
        Misplaced (next.atomically stack) trace ⟨1, 2⟩ ∧
        Misplaced (next.atomically stack) trace ⟨1, 1⟩ := by
  refine ⟨EventMachine.reaches_of_isSome staleSchedule_runs, by decide +kernel, by decide +kernel,
    [⟨1, 2⟩, ⟨1, 1⟩, ⟨1, 0⟩], ?_, ?_, ?_⟩
  · refine ⟨by decide +kernel, by decide +kernel, by decide +kernel, ?_⟩
    exact show FreeList.freeNext _ _ = none by decide +kernel
  · exact ⟨.freeList, .worker, by simp, by simp [Owns, atomically, stack], .inl (by decide +kernel)⟩
  · refine ⟨.freeList, .queue, by simp, by simp [Owns, atomically, stack], ?_⟩
    exact show _ ∈ waitingRecords _ by decide +kernel

end LogEngine

end MyServer
