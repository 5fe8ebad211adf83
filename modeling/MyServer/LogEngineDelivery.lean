import MyServer.LogEngineRecords

/-!
What happens to the envelopes: those whose records enter the queue are submitted and
destroyed in the order of the queue, one after the other, each from its own record.
-/

namespace MyServer

variable {Thread : Type}

def ClientPc.constructed : AtomicClient → Option LogRecord
  | .push (.clearNext record) | .push (.exchangeTail record) => some record
  | _ => none

inductive DeliveryStage
  | submitting (record : LogRecord)
  | destroying (record : LogRecord)
  | counting (record : LogRecord)

def WorkerPc.stage : AtomicWorker → Option DeliveryStage
  | .recycle _ record _ _ | .submit _ record => some (.submitting record)
  | .destroy _ record => some (.destroying record)
  | .countWritten _ record => some (.counting record)
  | _ => none

namespace EngineEvent

def queuedEnvelope? : EngineEvent Thread → Option (Envelope Thread)
  | .queued envelope _ => some envelope
  | _ => none

def submitted? : EngineEvent Thread → Option (Envelope Thread)
  | .submitted envelope => some envelope
  | _ => none

def delivery? : EngineEvent Thread → Option (EngineEvent Thread)
  | .submitted envelope => some (.submitted envelope)
  | .destroyed envelope => some (.destroyed envelope)
  | _ => none

def written? : EngineEvent Thread → Option Unit
  | .written => some ()
  | _ => none

end EngineEvent

def queuedEnvelopes (trace : List (EngineEvent Thread)) : List (Envelope Thread) :=
  trace.filterMap EngineEvent.queuedEnvelope?

def submittedEnvelopes (trace : List (EngineEvent Thread)) : List (Envelope Thread) :=
  trace.filterMap EngineEvent.submitted?

theorem mem_submittedEnvelopes {trace : List (EngineEvent Thread)} {envelope : Envelope Thread} :
    envelope ∈ submittedEnvelopes trace ↔ .submitted envelope ∈ trace := by
  simp only [submittedEnvelopes, List.mem_filterMap]
  constructor
  · rintro ⟨event, inside, found⟩
    cases event <;> simp_all [EngineEvent.submitted?]
  · exact fun inside => ⟨_, inside, rfl⟩

def deliveries (trace : List (EngineEvent Thread)) : List (EngineEvent Thread) :=
  trace.filterMap EngineEvent.delivery?

def writtenCount (trace : List (EngineEvent Thread)) : Nat :=
  (trace.filterMap EngineEvent.written?).length

def deliveryOf (envelope : Envelope Thread) : List (EngineEvent Thread) :=
  [.submitted envelope, .destroyed envelope]

section Traces

variable {trace events : List (EngineEvent Thread)}

@[simp]
theorem queuedEnvelopes_append :
    queuedEnvelopes (trace ++ events) = queuedEnvelopes trace ++ queuedEnvelopes events := by
  simp [queuedEnvelopes]

@[simp]
theorem submittedEnvelopes_append :
    submittedEnvelopes (trace ++ events) =
      submittedEnvelopes trace ++ submittedEnvelopes events := by
  simp [submittedEnvelopes]

@[simp]
theorem deliveries_append :
    deliveries (trace ++ events) = deliveries trace ++ deliveries events := by
  simp [deliveries]

@[simp]
theorem writtenCount_append :
    writtenCount (trace ++ events) = writtenCount trace + writtenCount events := by
  simp [writtenCount]

end Traces

namespace DeliveryStage

def undelivered : Option DeliveryStage → List LogRecord
  | some (.submitting record) => [record]
  | _ => []

def owed (stored : LogRecord → Option (Envelope Thread)) :
    Option DeliveryStage → List (EngineEvent Thread)
  | some (.destroying record) => (stored record).toList.map .destroyed
  | _ => []

def uncounted : Option DeliveryStage → Nat
  | some (.destroying _) | some (.counting _) => 1
  | _ => 0

theorem mem_undelivered {stage : Option DeliveryStage} {record : LogRecord} :
    record ∈ undelivered stage ↔ stage = some (.submitting record) := by
  cases stage with
  | none => simp [undelivered]
  | some stage => cases stage <;> simp [undelivered, eq_comm]

end DeliveryStage

namespace LogEngine

structure DeliveryOk (trace : List (EngineEvent Thread)) (state : AtomicEngine Thread) :
    Prop where
  order : (queuedEnvelopes trace).map some = (submittedEnvelopes trace).map some ++
    (DeliveryStage.undelivered (state.workers 0).stage ++ waitingRecords trace).map state.stored
  paired : deliveries trace ++ DeliveryStage.owed state.stored (state.workers 0).stage =
    (submittedEnvelopes trace).flatMap deliveryOf
  living : ∀ record, (state.workers 0).stage = some (.destroying record) →
    (state.stored record).isSome = true
  counted : (submittedEnvelopes trace).length =
    writtenCount trace + DeliveryStage.uncounted (state.workers 0).stage
  constructed : ∀ thread record, (state.clients thread).constructed = some record →
    state.stored record = some (state.envelope thread)

variable {trace events : List (EngineEvent Thread)} {state next : AtomicEngine Thread}
variable {poolSize : Nat} {thread : Thread}

theorem DeliveryOk.frame (ok : DeliveryOk trace state) (queued : queuedEnvelopes events = [])
    (submitted : submittedEnvelopes events = []) (delivered : deliveries events = [])
    (written : writtenCount events = 0)
    (waiting : waitingRecords (trace ++ events) = waitingRecords trace)
    (stage : (next.workers 0).stage = (state.workers 0).stage)
    (stored : next.stored = state.stored)
    (constructed : ∀ thread record, (next.clients thread).constructed = some record →
      state.stored record = some (next.envelope thread)) :
    DeliveryOk (trace ++ events) next where
  order := by
    simpa [queued, submitted, waiting, stage, stored] using ok.order
  paired := by
    simpa [submitted, delivered, stage, stored] using ok.paired
  living := by
    rw [stage, stored]
    exact ok.living
  counted := by
    simpa [submitted, written, stage] using ok.counted
  constructed := by
    rw [stored]
    exact constructed

variable [DecidableEq Thread]

theorem DeliveryOk.constructed_goto (ok : DeliveryOk trace state) {pc : AtomicClient}
    (clients : next.clients = Function.update state.clients thread pc)
    (own : ∀ record, pc.constructed = some record →
      state.stored record = some (next.envelope thread))
    (returned : ∀ other, other ≠ thread → next.returned other = state.returned other)
    (other : Thread) (record : LogRecord)
    (built : (next.clients other).constructed = some record) :
    state.stored record = some (next.envelope other) := by
  rw [clients] at built
  by_cases same : other = thread
  · subst same
    exact own record (by simpa using built)
  · have before := ok.constructed other record (by simpa [same] using built)
    rw [before, envelope, envelope, returned other same]

theorem DeliveryOk.client_frame (ok : DeliveryOk trace state) {pc : AtomicClient}
    (clients : next.clients = Function.update state.clients thread pc)
    (none : pc.constructed = none)
    (returned : ∀ other, other ≠ thread → next.returned other = state.returned other)
    (stage : (next.workers 0).stage = (state.workers 0).stage)
    (stored : next.stored = state.stored)
    (queued : queuedEnvelopes events = []) (submitted : submittedEnvelopes events = [])
    (delivered : deliveries events = []) (written : writtenCount events = 0)
    (waiting : waitingRecords (trace ++ events) = waitingRecords trace) :
    DeliveryOk (trace ++ events) next :=
  ok.frame queued submitted delivered written waiting stage stored
    (ok.constructed_goto clients (by simp [none]) returned)

omit [DecidableEq Thread] in
theorem waiting_silent (queued : queuedRecords events = []) (taken : takenRecords events = []) :
    waitingRecords (trace ++ events) = waitingRecords trace := by
  simp only [waitingRecords, queuedRecords, takenRecords, List.filterMap_append] at queued taken ⊢
  simp [queued, taken]

omit [DecidableEq Thread] in
theorem constructed_fillFrom (state : AtomicEngine Thread) (index : Nat) :
    (state.fillFrom poolSize index).constructed = none := by
  unfold fillFrom
  split <;> rfl

omit [DecidableEq Thread] in
/-- Overwriting other storages does not change what a list of records stores. -/
theorem map_stored_update {records : List LogRecord} {record : LogRecord}
    (stored : LogRecord → Option (Envelope Thread)) (value : Option (Envelope Thread))
    (outside : record ∉ records) :
    records.map (Function.update stored record value) = records.map stored := by
  apply List.map_congr_left
  intro other inside
  apply Function.update_of_ne
  rintro rfl
  exact outside inside

omit [DecidableEq Thread] in
theorem owed_update {stage : Option DeliveryStage} {record : LogRecord}
    (stored : LogRecord → Option (Envelope Thread)) (value : Option (Envelope Thread))
    (different : stage ≠ some (.destroying record)) :
    DeliveryStage.owed (Function.update stored record value) stage =
      DeliveryStage.owed stored stage := by
  cases stage with
  | none => rfl
  | some stage =>
      cases stage with
      | submitting other | counting other => rfl
      | destroying other =>
          have apart : other ≠ record := by
            rintro rfl
            exact different rfl
          simp [DeliveryStage.owed, apart]

theorem staged_current {worker : AtomicWorker} {record : LogRecord}
    (staged : worker.stage = some (.submitting record) ∨
      worker.stage = some (.destroying record)) : worker.current = some record := by
  cases worker <;> simp_all [WorkerPc.stage, WorkerPc.current]

omit [DecidableEq Thread] in
theorem constructed_held {pc : AtomicClient} {record : LogRecord}
    (building : pc.constructed = some record) : pc.held = some record := by
  cases pc with
  | push push => cases push <;> simp_all [ClientPc.constructed, ClientPc.held, PushPc.held]
  | _ => simp [ClientPc.constructed] at building

/-- The envelope is built in a record nobody else uses. -/
theorem DeliveryOk.constructs (ok : DeliveryOk trace state) (memory : MemoryOk poolSize trace state)
    {record : LogRecord} (here : state.clients thread = .construct record) :
    DeliveryOk trace
      ({ state with
          stored := Function.update state.stored record (some (state.envelope thread)) }.goto
        thread (.push (.clearNext record))) := by
  obtain ⟨place, placed⟩ := memory.placed
  have mine : (state.view (waitingRecords trace)).At poolSize (.client thread) record := by
    simp [MemoryView.At, view, here, ClientPc.held]
  have notWaiting : record ∉ waitingRecords trace := fun inside =>
    absurd (placed.placed.unique _ .queued mine inside) (by simp)
  have notStaged : ¬((state.workers 0).stage = some (.submitting record) ∨
      (state.workers 0).stage = some (.destroying record)) := fun staged =>
    absurd (placed.placed.unique _ .current mine (staged_current staged)) (by simp)
  have notUndelivered : record ∉
      DeliveryStage.undelivered (state.workers 0).stage ++ waitingRecords trace := by
    rw [List.mem_append, not_or, DeliveryStage.mem_undelivered]
    exact ⟨fun submitting => notStaged (Or.inl submitting), notWaiting⟩
  constructor
  case order =>
    have kept := map_stored_update state.stored (some (state.envelope thread)) notUndelivered
    exact ok.order.trans (congrArg (_ ++ ·) kept.symm)
  case paired =>
    have kept := owed_update state.stored (some (state.envelope thread))
      fun destroying => notStaged (Or.inr destroying)
    exact (congrArg (_ ++ ·) kept).trans ok.paired
  case living =>
    intro other destroying
    have different : other ≠ record := by
      rintro rfl
      exact notStaged (Or.inr destroying)
    change (Function.update state.stored record _ other).isSome = true
    simpa [different] using ok.living other destroying
  case counted => exact ok.counted
  case constructed =>
    intro other built building
    change Function.update state.stored record _ built = some (state.envelope other)
    by_cases same : other = thread
    · subst same
      obtain rfl : record = built := by simpa [goto, ClientPc.constructed] using building
      simp
    · have before : (state.clients other).constructed = some built := by
        simpa [goto, same] using building
      have different : built ≠ record := by
        rintro rfl
        have sameThread := placed.placed.unique _ (.client other) mine (constructed_held before)
        exact same (by simpa [eq_comm] using sameThread)
      simpa [different] using ok.constructed other built before

theorem DeliveryOk.exchanges (ok : DeliveryOk trace state)
    (memory : MemoryOk poolSize trace state) {record : LogRecord}
    (here : state.clients thread = .push (.exchangeTail record)) :
    DeliveryOk (trace ++ [.queued (state.envelope thread) record])
      ({ state with queue := (state.queue.pushStep (.exchangeTail record)).1 }.goto thread
        (.push (.linkPrev record state.queue.tail))) := by
  have built := ok.constructed thread record (by simp [here, ClientPc.constructed])
  constructor
  case order =>
    rw [waiting_queued memory.taken, ← List.append_assoc, List.map_append, ← List.append_assoc,
      queuedEnvelopes_append, List.map_append, submittedEnvelopes_append]
    have before := ok.order
    simp only [goto, queuedEnvelopes, submittedEnvelopes, EngineEvent.queuedEnvelope?,
      EngineEvent.submitted?, List.filterMap_cons, List.filterMap_nil, List.append_nil,
      List.map_cons, List.map_nil, built] at before ⊢
    rw [before]
  case paired =>
    have before := ok.paired
    simpa [goto, deliveries, submittedEnvelopes, EngineEvent.delivery?, EngineEvent.submitted?,
      List.filterMap_cons] using before
  case living => exact ok.living
  case counted =>
    have before := ok.counted
    simpa [goto, writtenCount, submittedEnvelopes, EngineEvent.written?, EngineEvent.submitted?,
      List.filterMap_cons] using before
  case constructed =>
    exact ok.constructed_goto rfl (by simp [ClientPc.constructed]) fun _ _ => rfl

/-- A client can start the worker but not move it. -/
theorem client_stage (memory : MemoryOk poolSize trace state)
    (moved : ClientMove poolSize state thread next events) :
    (next.workers 0).stage = (state.workers 0).stage := by
  cases moved with
  | spawns here =>
      by_cases first : state.spawned = 0
      · obtain ⟨place, placed⟩ := memory.placed
        have absent : state.workers 0 = .absent :=
          placed.started.absent 0 (show state.spawned ≤ 0 by omega)
        rw [absent]
        simp [goto, first, WorkerPc.stage]
      · simp [goto, Ne.symm first]
  | _ => rfl

theorem DeliveryOk.client (ok : DeliveryOk trace state) (memory : MemoryOk poolSize trace state)
    (moved : ClientMove poolSize state thread next events) :
    DeliveryOk (trace ++ events) next := by
  have stage := client_stage memory moved
  cases moved with
  | constructs here =>
      rw [List.append_nil]
      exact ok.constructs memory here
  | clears here =>
      refine ok.frame rfl rfl rfl rfl (waiting_silent rfl rfl) rfl rfl
        (ok.constructed_goto rfl ?_ fun _ _ => rfl)
      intro record building
      exact ok.constructed thread record (by rw [here]; exact building)
  | exchanges here => exact ok.exchanges memory here
  | terminates here taken =>
      exact ok.frame rfl rfl rfl rfl (waiting_silent rfl rfl) rfl rfl ok.constructed
  | fills here ran => exact absurd (atomic_push ran).2 (by simp)
  | allocates here | filled here ran =>
      exact ok.client_frame rfl (constructed_fillFrom ..) (fun _ _ => rfl) stage rfl rfl rfl rfl
        rfl (waiting_silent rfl rfl)
  | drops here | counts here =>
      exact ok.client_frame rfl rfl (fun other different => Function.update_of_ne different ..)
        stage rfl rfl rfl rfl rfl (waiting_silent rfl rfl)
  | _ =>
      exact ok.client_frame rfl rfl (fun _ _ => rfl) stage rfl rfl rfl rfl rfl
        (waiting_silent rfl rfl)

omit [DecidableEq Thread] in
theorem DeliveryOk.worker_frame (ok : DeliveryOk trace state) {worker : AtomicWorker}
    (workers : next.workers = Function.update state.workers 0 worker)
    (stage : worker.stage = (state.workers 0).stage) (stored : next.stored = state.stored)
    (clients : next.clients = state.clients) (returned : next.returned = state.returned)
    (silent : events = []) : DeliveryOk (trace ++ events) next := by
  subst silent
  refine ok.frame rfl rfl rfl rfl (waiting_silent rfl rfl) (by simp [workers, stage]) stored ?_
  rw [clients]
  simpa [envelope, returned] using ok.constructed

omit [DecidableEq Thread] in
theorem DeliveryOk.takes (ok : DeliveryOk trace state) (memory : MemoryOk poolSize trace state)
    {drain : Bool} {pending : Option LogRecord} {pc : PopPc LogRecord}
    {queue : MpscQueue LogRecord} {record : LogRecord}
    (here : state.workers 0 = .pop drain pending pc)
    (ran : state.queue.popStep pc = (queue, .inr (some (.record record)))) :
    DeliveryOk (trace ++ [.taken record])
      ({ state with queue }.workerGoto 0 (deliver drain pending record)) := by
  have front := memory.front here ran
  have before : (state.workers 0).stage = none := by rw [here]; rfl
  have after : (deliver drain pending record : AtomicWorker).stage =
      some (.submitting record) := by
    cases pending <;> rfl
  constructor
  case order =>
    have order := ok.order
    rw [front, before] at order
    simpa [workerGoto, after, DeliveryStage.undelivered, waiting_taken, queuedEnvelopes,
      submittedEnvelopes, EngineEvent.queuedEnvelope?, EngineEvent.submitted?,
      List.filterMap_cons] using order
  case paired =>
    have paired := ok.paired
    rw [before] at paired
    simpa [workerGoto, after, DeliveryStage.owed, deliveries, submittedEnvelopes,
      EngineEvent.delivery?, EngineEvent.submitted?, List.filterMap_cons] using paired
  case living => simp [workerGoto, after]
  case counted =>
    have counted := ok.counted
    rw [before] at counted
    simpa [workerGoto, after, DeliveryStage.uncounted, writtenCount, submittedEnvelopes,
      EngineEvent.written?, EngineEvent.submitted?, List.filterMap_cons] using counted
  case constructed => exact ok.constructed

omit [DecidableEq Thread] in
theorem DeliveryOk.submits (ok : DeliveryOk trace state) {drain : Bool} {record : LogRecord}
    {envelope : Envelope Thread} (here : state.workers 0 = .submit drain record)
    (read : state.stored record = some envelope) :
    DeliveryOk (trace ++ [.submitted envelope])
      (state.workerGoto 0 (.destroy drain record)) := by
  have before : (state.workers 0).stage = some (.submitting record) := by rw [here]; rfl
  have waiting : waitingRecords (trace ++ [.submitted envelope]) = waitingRecords trace :=
    waiting_silent rfl rfl
  constructor
  case order =>
    have order := ok.order
    rw [before] at order
    simpa [workerGoto, WorkerPc.stage, DeliveryStage.undelivered, waiting, queuedEnvelopes,
      submittedEnvelopes, EngineEvent.queuedEnvelope?, EngineEvent.submitted?,
      List.filterMap_cons, read] using order
  case paired =>
    have paired := ok.paired
    rw [before] at paired
    simpa [workerGoto, WorkerPc.stage, DeliveryStage.owed, deliveries, submittedEnvelopes,
      EngineEvent.delivery?, EngineEvent.submitted?, read, deliveryOf] using paired
  case living =>
    intro other destroying
    obtain rfl : record = other := by simpa [workerGoto, WorkerPc.stage] using destroying
    simp [workerGoto, read]
  case counted =>
    have counted := ok.counted
    rw [before] at counted
    simpa [workerGoto, WorkerPc.stage, DeliveryStage.uncounted, writtenCount, submittedEnvelopes,
      EngineEvent.written?, EngineEvent.submitted?, List.filterMap_cons] using counted
  case constructed => exact ok.constructed

omit [DecidableEq Thread] in
theorem DeliveryOk.destroys (ok : DeliveryOk trace state) (memory : MemoryOk poolSize trace state)
    {drain : Bool} {record : LogRecord} {envelope : Envelope Thread}
    (here : state.workers 0 = .destroy drain record)
    (read : state.stored record = some envelope) :
    DeliveryOk (trace ++ [.destroyed envelope])
      ({ state with stored := Function.update state.stored record none }.workerGoto 0
        (.countWritten drain record)) := by
  obtain ⟨place, placed⟩ := memory.placed
  have before : (state.workers 0).stage = some (.destroying record) := by rw [here]; rfl
  have mine : (state.view (waitingRecords trace)).At poolSize .current record :=
    staged_current (Or.inr before)
  have notWaiting : record ∉ waitingRecords trace := fun inside =>
    absurd (placed.placed.unique _ .queued mine inside) (by simp)
  have waiting : waitingRecords (trace ++ [.destroyed envelope]) = waitingRecords trace :=
    waiting_silent rfl rfl
  constructor
  case order =>
    have order := ok.order
    rw [before] at order
    have kept := map_stored_update state.stored none notWaiting
    simpa [workerGoto, WorkerPc.stage, DeliveryStage.undelivered, waiting, queuedEnvelopes,
      submittedEnvelopes, EngineEvent.queuedEnvelope?, EngineEvent.submitted?,
      List.filterMap_cons, kept] using order
  case paired =>
    have paired := ok.paired
    rw [before] at paired
    simpa [workerGoto, WorkerPc.stage, DeliveryStage.owed, deliveries, submittedEnvelopes,
      EngineEvent.delivery?, EngineEvent.submitted?, List.filterMap_cons, read] using paired
  case living => simp [workerGoto, WorkerPc.stage]
  case counted =>
    have counted := ok.counted
    rw [before] at counted
    simpa [workerGoto, WorkerPc.stage, DeliveryStage.uncounted, writtenCount, submittedEnvelopes,
      EngineEvent.written?, EngineEvent.submitted?, List.filterMap_cons] using counted
  case constructed =>
    intro thread other building
    have built := ok.constructed thread other building
    have different : other ≠ record := by
      rintro rfl
      exact absurd (placed.placed.unique _ (.client thread) mine (constructed_held building))
        (by simp)
    exact (Function.update_of_ne different _ _).trans built

omit [DecidableEq Thread] in
theorem DeliveryOk.counts (ok : DeliveryOk trace state) {drain : Bool} {record : LogRecord}
    (here : state.workers 0 = .countWritten drain record) :
    DeliveryOk (trace ++ [.written])
      ({ state with written := state.written + 1 }.workerGoto 0
        (if drain then .pop true (some record) .loadNext else .loadRun (some record))) := by
  have before : (state.workers 0).stage = some (.counting record) := by rw [here]; rfl
  have after : (if drain then .pop true (some record) .loadNext
      else .loadRun (some record) : AtomicWorker).stage = none := by
    cases drain <;> rfl
  have waiting : waitingRecords (trace ++ [EngineEvent.written]) = waitingRecords trace :=
    waiting_silent rfl rfl
  constructor
  case order =>
    have order := ok.order
    rw [before] at order
    simpa [workerGoto, after, DeliveryStage.undelivered, waiting, queuedEnvelopes,
      submittedEnvelopes, EngineEvent.queuedEnvelope?, EngineEvent.submitted?,
      List.filterMap_cons] using order
  case paired =>
    have paired := ok.paired
    rw [before] at paired
    simpa [workerGoto, after, DeliveryStage.owed, deliveries, submittedEnvelopes,
      EngineEvent.delivery?, EngineEvent.submitted?, List.filterMap_cons] using paired
  case living => simp [workerGoto, after]
  case counted =>
    have counted := ok.counted
    rw [before] at counted
    simpa [workerGoto, after, DeliveryStage.uncounted, writtenCount, submittedEnvelopes,
      EngineEvent.written?, EngineEvent.submitted?, List.filterMap_cons] using counted
  case constructed => exact ok.constructed

omit [DecidableEq Thread] in
theorem DeliveryOk.worker (ok : DeliveryOk trace state) (memory : MemoryOk poolSize trace state)
    {id : Nat} (moved : WorkerMove state id next events) : DeliveryOk (trace ++ events) next := by
  have alive : state.workers id ≠ .absent := by
    cases moved <;> simp_all
  obtain rfl := memory.worker_zero alive
  cases moved with
  | recycles here ran | recyclesLast here ran => exact absurd (atomic_push ran).2 (by simp)
  | takes here ran => exact ok.takes memory here ran
  | submits here read => exact ok.submits here read
  | destroys here read => exact ok.destroys memory here read
  | written here => exact ok.counts here
  | @wasReset pending _ _ here ran =>
      exact ok.worker_frame rfl (by rw [here]; cases pending <;> rfl) rfl rfl rfl rfl
  | _ =>
      rename_i here ran
      exact ok.worker_frame rfl (by rw [here]; rfl) rfl rfl rfl rfl

theorem DeliveryOk.step (ok : DeliveryOk trace state) (memory : MemoryOk poolSize trace state)
    {action : EngineAction Thread} (moved : Move poolSize state action next events) :
    DeliveryOk (trace ++ events) next := by
  cases moved with
  | enqueue here | shutdown here =>
      exact ok.client_frame rfl rfl (fun _ _ => rfl) rfl rfl rfl rfl rfl rfl
        (waiting_silent rfl rfl)
  | client moved => exact ok.client memory moved
  | worker moved => exact ok.worker memory moved

omit [DecidableEq Thread] in
theorem DeliveryOk.initial : DeliveryOk [] (LogEngine.initial : AtomicEngine Thread) := by
  constructor
  case order => rfl
  case paired => rfl
  case living => simp [LogEngine.initial, WorkerPc.stage]
  case counted => rfl
  case constructed => simp [LogEngine.initial, ClientPc.constructed]

end LogEngine

end MyServer
