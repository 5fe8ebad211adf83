import MyServer.LogEngine

/-!
Runs in which no `enqueue` overlaps a `shutdown` and the engine is started only while it
has no pool. In such a run the records stay in their places.
-/

namespace MyServer

variable {Thread : Type} {list : FreeListSteps LogRecord}

def ClientPc.stops : ClientPc list → Bool
  | .stop | .join => true
  | _ => false

def ClientPc.ensuring : ClientPc list → Bool
  | .ensureRunning => true
  | _ => false

theorem ClientPc.pusher_none {pc : AtomicClient} (ended : pc.call = none) : pc.pusher = none := by
  cases pc with
  | push push => cases push <;> simp [ClientPc.call] at ended
  | _ => rfl

theorem Role.update_ne [DecidableEq Thread] {roles : Thread → Role} {thread : Thread}
    {role kind : Role} (becomes : role ≠ kind)
    (before : ∀ other, other ≠ thread → roles other ≠ kind) (other : Thread) :
    Function.update roles thread role other ≠ kind :=
  after_update (· ≠ kind) becomes (before other)

namespace LogEngine

def apart (_ : List (EngineEvent Thread)) (state : LogEngine list Thread) :
    EngineAction Thread → Prop
  | .enqueue _ => ∀ thread, (state.clients thread).stops = false
  | .shutdown _ => ∀ thread, (state.clients thread).call = none
  | _ => True

/-- The compare-exchange of `ensure_running` succeeds only while no pool is allocated. -/
def startsFresh (_ : List (EngineEvent Thread)) (state : LogEngine list Thread) :
    EngineAction Thread → Prop
  | .client thread _ => (state.clients thread).ensuring = true → state.run = false →
      state.generation = 0
  | _ => True

structure RestOk (state : AtomicEngine Thread) : Prop where
  apart : ∀ stopper, (state.clients stopper).stops = true →
    ∀ thread, (state.clients thread).call = none
  down : state.run = false → ∀ thread, (state.clients thread).call = none ∨
    state.clients thread = .ensureRunning
  stopSeen : (state.workers 0).stopSeen = true → state.run = false

variable {trace events : List (EngineEvent Thread)} {state next : AtomicEngine Thread}
variable {poolSize id : Nat} {thread : Thread}

theorem RestOk.initial : RestOk (LogEngine.initial : AtomicEngine Thread) where
  apart _ stops := by simp [LogEngine.initial, ClientPc.stops] at stops
  down _ _ := .inl rfl
  stopSeen seen := by simp [LogEngine.initial, WorkerPc.stopSeen] at seen

/-- A worker that has seen the stop was told so now or before. -/
theorem WorkerMove.stopSeen_before (moved : WorkerMove state id next events)
    (seen : (next.workers id).stopSeen = true) :
    (state.workers id).stopSeen = true ∨ state.run = false := by
  cases moved with
  | seesStop here down => exact .inr down
  | keepsRunning | sleeps => simp [workerGoto, WorkerPc.stopSeen] at seen
  | @takes drain pending _ _ _ here ran =>
      rw [here]
      have drains : drain = true := by
        cases pending <;> simpa [workerGoto, deliver, WorkerPc.stopSeen] using seen
      exact .inl drains
  | @written drain _ here =>
      rw [here]
      cases drain
      · simp [workerGoto, WorkerPc.stopSeen] at seen
      · exact .inl rfl
  | @wasReset pending _ _ here ran =>
      rw [here]
      exact .inl rfl
  | submits here | destroys here | pops here | recycles here | recycled here =>
      rw [here]
      exact .inl (by simpa [workerGoto, WorkerPc.stopSeen] using seen)
  | checks here | checked here | drained here | resets here | recyclesLast here | finishes here =>
      rw [here]
      exact .inl rfl

theorem RestOk.worker (ok : RestOk state) (moved : WorkerMove state id next events) :
    RestOk next := by
  constructor
  · rw [moved.clients_same]
    exact ok.apart
  · rw [moved.clients_same, moved.run_same]
    exact ok.down
  · intro seen
    rw [moved.run_same]
    by_cases mine : id = 0
    · subst mine
      exact (moved.stopSeen_before seen).elim ok.stopSeen fun down => down
    · rw [moved.others_same 0 (Ne.symm mine)] at seen
      exact ok.stopSeen seen

variable [DecidableEq Thread]

theorem RestOk.goes (ok : RestOk state) {pc : AtomicClient}
    (clients : next.clients = Function.update state.clients thread pc)
    (run : next.run = state.run)
    (stopSeen : (next.workers 0).stopSeen = true → (state.workers 0).stopSeen = true)
    (stops : pc.stops = true → (state.clients thread).stops = true)
    (calls : pc.call = none ∨ (state.clients thread).call ≠ none ∧
      (state.clients thread = .ensureRunning → state.run = true)) : RestOk next := by
  constructor
  · intro stopper stopping other
    rw [clients] at stopping ⊢
    have before : (state.clients stopper).stops = true := by
      rcases of_update (ClientPc.stops · = true) stopping with ⟨rfl, now⟩ | before
      · exact stops now
      · exact before
    have ended : pc.call = none :=
      calls.resolve_right fun ⟨busy, _⟩ => busy (ok.apart stopper before thread)
    exact after_update (ClientPc.call · = none) ended fun _ => ok.apart stopper before other
  · intro down other
    rw [run] at down
    rw [clients]
    by_cases same : other = thread
    · subst same
      rcases calls with ended | ⟨busy, up⟩
      · exact .inl (by simpa using ended)
      · rcases ok.down down other with idle | waiting
        · exact absurd idle busy
        · exact absurd (up waiting) (by simp [down])
    · simpa [same] using ok.down down other
  · intro seen
    rw [run]
    exact ok.stopSeen (stopSeen seen)

theorem RestOk.client (ok : RestOk state) (memory : MemoryOk poolSize trace state)
    (first : state.clients thread = .ensureRunning → state.run = false → state.generation = 0)
    (moved : ClientMove poolSize state thread next events) : RestOk next := by
  cases moved with
  | starts here down =>
      have absent := memory.absent (first here down)
      constructor
      · intro stopper stopping
        have different : stopper ≠ thread := by
          rintro rfl
          simp [goto, ClientPc.stops] at stopping
        have busy := ok.apart stopper (by simpa [goto, different] using stopping) thread
        simp [here, ClientPc.call] at busy
      · intro off
        simp [goto] at off
      · intro seen
        simp [goto, absent, WorkerPc.stopSeen] at seen
  | stops here up =>
      have quiet := ok.apart thread (by rw [here]; rfl)
      have calls : ∀ other, (Function.update state.clients thread .join other).call = none := by
        exact fun other => after_update (ClientPc.call · = none) rfl fun _ => quiet other
      exact ⟨fun _ _ => calls, fun _ other => .inl (calls other), fun _ => rfl⟩
  | alreadyRunning here up =>
      exact ok.goes rfl rfl (fun seen => seen) (by simp [ClientPc.stops])
        (.inr ⟨by simp [here, ClientPc.call], fun _ => up⟩)
  | fills here | acquires here | misses here | obtains here | constructs here | clears here
  | exchanges here | links here | assigns here =>
      exact ok.goes rfl rfl (fun seen => seen) (by simp [ClientPc.stops])
        (.inr ⟨by simp [here, ClientPc.call], by simp [here]⟩)
  | allocates here | filled here =>
      refine ok.goes rfl rfl (fun seen => seen) ?_
        (.inr ⟨by simp [here, ClientPc.call], by simp [here]⟩)
      unfold fillFrom
      split <;> simp [ClientPc.stops]
  | spawns here =>
      refine ok.goes rfl rfl ?_ (by simp [ClientPc.stops])
        (.inr ⟨by simp [here, ClientPc.call], by simp [here]⟩)
      intro seen
      by_cases mine : state.spawned = 0
      · simp [goto, mine, WorkerPc.stopSeen] at seen
      · simpa [goto, Function.update_of_ne (Ne.symm mine)] using seen
  | terminates here => exact ⟨ok.apart, ok.down, ok.stopSeen⟩
  | drops here | counts here | stoppedBefore here | notJoinable here | joins here =>
      exact ok.goes rfl rfl (fun seen => seen) (by simp [ClientPc.stops]) (.inl rfl)

/-- Enqueues and shutdowns that do not overlap, and starts without a pool. -/
theorem RestOk.step (ok : RestOk state) (memory : MemoryOk poolSize trace state)
    {action : EngineAction Thread} (separate : LogEngine.apart trace state action)
    (fresh : startsFresh trace state action) (moved : Move poolSize state action next events) :
    RestOk next := by
  cases moved with
  | @enqueue thread here =>
      constructor
      · intro stopper stopping
        by_cases same : stopper = thread
        · simp [goto, same, ClientPc.stops] at stopping
        · have quiet := separate stopper
          simp [goto, same, quiet] at stopping
      · intro down other
        by_cases same : other = thread
        · exact .inr (by simp [goto, same])
        · simpa [goto, same] using ok.down down other
      · exact ok.stopSeen
  | @shutdown thread here =>
      have calls : ∀ other, (Function.update state.clients thread .stop other).call = none := by
        exact fun other => after_update (ClientPc.call · = none) rfl fun _ => separate other
      exact ⟨fun _ _ => calls, fun _ other => .inl (calls other), ok.stopSeen⟩
  | @client thread _ _ _ moved =>
      exact ok.client memory (fun here => fresh (by rw [here]; rfl)) moved
  | worker moved => exact ok.worker moved

omit [DecidableEq Thread] in
theorem RestOk.calm (ok : RestOk state) (memory : MemoryOk poolSize trace state)
    {action : EngineAction Thread} (fresh : startsFresh trace state action) :
    calm trace state action := by
  cases action with
  | enqueue thread | shutdown thread => trivial
  | client thread spurious =>
      rw [LogEngine.calm]
      split
      · rename_i here
        intro down
        refine ⟨fresh (by rw [here]; rfl) down, fun other allocating => ?_⟩
        have busy := ok.down down other
        simp [allocating, ClientPc.call] at busy
      · rename_i record here
        by_contra resetting
        have seen : (state.workers 0).stopSeen = true := by
          cases worker : state.workers 0 <;> simp_all [WorkerPc.consumer, ConsumerPc.resetting,
            WorkerPc.stopSeen]
        have busy := ok.down (ok.stopSeen seen) thread
        simp [here, ClientPc.call] at busy
      · trivial
  | worker id spurious =>
      rw [LogEngine.calm]
      split
      · rename_i pending pc here
        obtain rfl := memory.worker_zero (show state.workers id ≠ .absent by simp [here])
        intro _ thread
        rcases ok.down (ok.stopSeen (by rw [here]; rfl)) thread with ended | waiting
        · exact ClientPc.pusher_none ended
        · rw [waiting]
          rfl
      · trivial

def singleStart (trace : List (EngineEvent Thread)) (state : LogEngine list Thread)
    (action : EngineAction Thread) : Prop :=
  LogEngine.apart trace state action ∧ startsFresh trace state action

theorem rest_ok
    (reached : (engineMachine (atomicFreeList LogRecord) Thread poolSize).Reaches singleStart
      trace state) : MemoryOk poolSize trace state ∧ RestOk state := by
  refine reached.invariant (fun trace state => MemoryOk poolSize trace state ∧ RestOk state)
    ⟨.initial, .initial⟩ ?_
  rintro trace state action next events ⟨memory, rest⟩ ⟨separate, fresh⟩ stepped
  have moved := (step_move stepped).2
  exact ⟨memory.step (rest.calm memory fresh) moved, rest.step memory separate fresh moved⟩

section Decidable

variable (trace : List (EngineEvent Thread)) (state : LogEngine list Thread)
variable (action : EngineAction Thread)

instance [Fintype Thread] : Decidable (LogEngine.apart trace state action) :=
  match action with
  | .enqueue _ => inferInstanceAs (Decidable (∀ thread, (state.clients thread).stops = false))
  | .shutdown _ => inferInstanceAs (Decidable (∀ thread, (state.clients thread).call = none))
  | .client _ _ | .worker _ _ => .isTrue trivial

instance : Decidable (startsFresh trace state action) :=
  match action with
  | .client thread _ => inferInstanceAs (Decidable ((state.clients thread).ensuring = true →
      state.run = false → state.generation = 0))
  | .enqueue _ | .shutdown _ | .worker _ _ => .isTrue trivial

instance [Fintype Thread] : Decidable (singleStart trace state action) :=
  inferInstanceAs (Decidable (_ ∧ _))

end Decidable

end LogEngine

end MyServer
