import MyServer.ServerProcessing
import MyServer.ServerWorkers

/-!
The metrics against the events they count. Every return of `trySubmit` has paid one of its
counters, and every event accepted is in the queue or popped.
-/

namespace MyServer

variable {Thread : Type}

def CallerPc.accepting : CallerPc → Bool
  | .countQueued | .countAccepted => true
  | _ => false

def LoopPc.inFlight : LoopPc Thread → Bool
  | .decode _ _ | .parse _ | .execute _ | .distribute _ | .countError _ | .inflightDec => true
  | _ => false

def MetricsMixin.counter (metrics : MetricsMixin) : SubmitStatus → UInt64
  | .accepted => metrics.accepted
  | .rejectedFull => metrics.rejectedFull
  | .rejectedStopped => metrics.rejectedStopped
  | .invalid => metrics.invalid
  | .error => metrics.error

namespace ServerEvent

def isResult (status : SubmitStatus) : ServerEvent Thread → Bool
  | .submitResult _ answer => answer = status
  | _ => false

def result? [DecidableEq Thread] (event : Submission Thread) :
    ServerEvent Thread → Option SubmitStatus
  | .submitResult reported status => if reported = event then some status else none
  | _ => none

def isReturn : ServerEvent Thread → Bool
  | .submitReturned _ _ => true
  | _ => false

def distributed? : ServerEvent Thread → Option (Submission Thread)
  | .distributed event => some event
  | _ => none

end ServerEvent

/-- The increments of the counter of a status, each reported to `on_submit_result`. -/
def resultCount (status : SubmitStatus) (trace : List (ServerEvent Thread)) : Nat :=
  trace.countP (ServerEvent.isResult status)

def resultsOf [DecidableEq Thread] (event : Submission Thread)
    (trace : List (ServerEvent Thread)) : List SubmitStatus :=
  trace.filterMap (ServerEvent.result? event)

def distributedEvents (trace : List (ServerEvent Thread)) : List (Submission Thread) :=
  trace.filterMap ServerEvent.distributed?

namespace Server

variable {trace events : List (ServerEvent Thread)} {server next : Server Thread}
variable {config : ServerConfig} {thread : Thread} {id : Nat}

theorem resultCount_append (status : SubmitStatus) (trace events : List (ServerEvent Thread)) :
    resultCount status (trace ++ events) =
      resultCount status trace + resultCount status events := List.countP_append ..

theorem distributedEvents_append (trace events : List (ServerEvent Thread)) :
    distributedEvents (trace ++ events) = distributedEvents trace ++ distributedEvents events := by
  simp [distributedEvents]

/-! The calls in flight. -/

def InflightOk (server : Server Thread) : Prop :=
  server.metrics.inflight =
    UInt64.ofNat (countIn (Finset.range server.spawned) LoopPc.inFlight server.loops)

theorem InflightOk.loop (ok : server.InflightOk) (spawned : id < server.spawned)
    {pc : LoopPc Thread} (loops : next.loops = Function.update server.loops id pc)
    (same : next.spawned = server.spawned)
    (inflight : next.metrics.inflight + (if (server.loops id).inFlight then 1 else 0) =
      server.metrics.inflight + if pc.inFlight then 1 else 0) : next.InflightOk := by
  have update : countIn (Finset.range server.spawned) LoopPc.inFlight
        (Function.update server.loops id pc) + (if (server.loops id).inFlight then 1 else 0) =
      countIn (Finset.range server.spawned) LoopPc.inFlight server.loops +
        if pc.inFlight then 1 else 0 := countIn_update (Finset.mem_range.mpr spawned) pc
  have cast : ∀ flag : Bool, UInt64.ofNat (if flag then 1 else 0) = if flag then 1 else 0 := by
    intro flag
    cases flag <;> rfl
  have counted := congrArg UInt64.ofNat update
  rw [UInt64.ofNat_add, UInt64.ofNat_add, cast, cast, ← (show _ = _ from ok), ← inflight] at counted
  rw [InflightOk, same, loops]
  exact ((UInt64.add_left_inj _).mp counted).symm

theorem InflightOk.worker (ok : server.InflightOk) (spawned : id < server.spawned)
    (moved : LoopMove config server id next events) : next.InflightOk := by
  have began : ∀ event adapter, (decodeFrom config event adapter : LoopPc Thread).inFlight = true := by
    intro event adapter
    unfold decodeFrom
    split <;> rfl
  cases moved with
  | begins here =>
      refine ok.loop spawned rfl rfl ?_
      rw [began, here]
      exact UInt64.add_zero _
  | decodesNot here => exact ok.loop spawned rfl rfl (by rw [began, here]; rfl)
  | ends here =>
      refine ok.loop spawned rfl rfl ?_
      rw [here]
      exact (UInt64.sub_add_cancel _ _).trans (UInt64.add_zero _).symm
  | locks here free =>
      refine ok.loop spawned rfl rfl ?_
      rcases here with here | here <;> rw [here] <;> rfl
  | discounts here | decodes here | parses here | parsesNot here | executes here
  | executesNot here | distributes here | countsError here | blocks here | unlocks here =>
      exact ok.loop spawned rfl rfl (by rw [here]; rfl)
  | _ =>
      rename_i here _
      exact ok.loop spawned rfl rfl (by rw [here]; rfl)

theorem InflightOk.frame (ok : server.InflightOk)
    (inflight : next.metrics.inflight = server.metrics.inflight)
    (spawned : next.spawned = server.spawned)
    (same : ∀ id, (next.loops id).inFlight = (server.loops id).inFlight) : next.InflightOk := by
  have count : countIn (Finset.range server.spawned) LoopPc.inFlight next.loops =
      countIn (Finset.range server.spawned) LoopPc.inFlight server.loops := by
    unfold countIn
    simp only [same]
  rw [InflightOk, inflight, spawned, count]
  exact ok

theorem InflightOk.spawns (ok : server.InflightOk)
    (inflight : next.metrics.inflight = server.metrics.inflight)
    (spawned : next.spawned = server.spawned + 1)
    (loops : next.loops = Function.update server.loops server.spawned .tryPop) :
    next.InflightOk := by
  have count : countIn (Finset.range (server.spawned + 1)) LoopPc.inFlight
        (Function.update server.loops server.spawned .tryPop) =
      countIn (Finset.range server.spawned) LoopPc.inFlight server.loops := by
    unfold countIn
    rw [Finset.range_add_one, Finset.filter_insert, if_neg (by simp [LoopPc.inFlight])]
    refine congrArg Finset.card (Finset.filter_congr fun other member => ?_)
    have different : other ≠ server.spawned := by
      have bound := Finset.mem_range.mp member
      omega
    rw [Function.update_of_ne different]
  rw [InflightOk, inflight, spawned, loops, count]
  exact ok

theorem rejected_inflight (status : SubmitStatus) (metrics : MetricsMixin) :
    (rejected status metrics).inflight = metrics.inflight ∧
      (rejected status metrics).error = metrics.error := by
  cases status <;> exact ⟨rfl, rfl⟩

variable [DecidableEq Thread]

theorem InflightOk.step (ok : server.InflightOk) (eventsOk : EventsOk trace server)
    {action : ServerAction Thread} (moved : Move config server action next events) :
    next.InflightOk := by
  cases moved with
  | call here entry => exact ok.frame rfl rfl fun _ => rfl
  | caller moved =>
      cases moved with
      | spawns here more => exact ok.spawns rfl rfl rfl
      | spawnsLast here last => exact ok.spawns rfl rfl rfl
      | notifiesAll here =>
          refine ok.frame rfl rfl fun id => ?_
          simp only [Server.goto, wakeAll]
          split
          · rename_i blocked
            rw [blocked]
            rfl
          · rfl
      | @notifiesOne wakes here picked =>
          exact ok.loop (eventsOk.alive (by simp [picked])) rfl rfl (by rw [picked]; rfl)
      | rejects here => exact ok.frame (rejected_inflight _ _).1 rfl fun _ => rfl
      | _ => exact ok.frame rfl rfl fun _ => rfl
  | @worker id _ _ _ moved =>
      exact ok.worker (eventsOk.alive moved.present.1) moved
  | @wake id here => exact ok.loop (eventsOk.alive (by simp [here])) rfl rfl (by rw [here]; rfl)

omit [DecidableEq Thread] in
theorem InflightOk.initial : (Server.initial : Server Thread).InflightOk := rfl

/-! The four counters of `trySubmit` and `error_`. -/

structure CountersOk (trace : List (ServerEvent Thread)) (server : Server Thread) : Prop where
  paid : ∀ status, status ≠ .error →
    server.metrics.counter status = UInt64.ofNat (resultCount status trace)
  rejecting : ∀ thread status, server.callers thread = .reject status →
    status ≠ .error ∧ status ≠ .accepted
  errors : UInt64.ofNat (returnedEvents trace).length =
    server.metrics.error + UInt64.ofNat (distributedEvents trace).length

omit [DecidableEq Thread] in
theorem CountersOk.frame (ok : CountersOk trace server)
    (paid : ∀ status, status ≠ .error →
      next.metrics.counter status = server.metrics.counter status)
    (silent : ∀ status, resultCount status events = 0)
    (rejecting : ∀ thread status, next.callers thread = .reject status →
      server.callers thread = .reject status ∨ status ≠ .error ∧ status ≠ .accepted)
    (errors : UInt64.ofNat (returnedEvents events).length + server.metrics.error =
      next.metrics.error + UInt64.ofNat (distributedEvents events).length) :
    CountersOk (trace ++ events) next where
  paid := by
    intro status real
    rw [resultCount_append, silent, paid status real]
    exact ok.paid status real
  rejecting := fun thread status here =>
    (rejecting thread status here).elim (ok.rejecting thread status) id
  errors := by
    rw [returnedEvents_append, distributedEvents_append, List.length_append, List.length_append,
      UInt64.ofNat_add, UInt64.ofNat_add, ok.errors, UInt64.add_comm (UInt64.ofNat
        (distributedEvents trace).length), ← UInt64.add_assoc, ← errors]
    ac_rfl

theorem CountersOk.goto (ok : CountersOk trace server) {pc : CallerPc}
    (callers : next.callers = Function.update server.callers thread pc)
    (metrics : next.metrics = server.metrics)
    (rejecting : ∀ status, pc = .reject status → status ≠ .error ∧ status ≠ .accepted)
    (silent : ∀ status, resultCount status events = 0)
    (returned : returnedEvents events = []) (distributed : distributedEvents events = []) :
    CountersOk (trace ++ events) next := by
  refine ok.frame (fun _ _ => by rw [metrics]) silent ?_ (by
    rw [returned, distributed, metrics]
    exact UInt64.add_comm _ _)
  intro other status here
  rw [callers] at here
  rcases of_update (· = CallerPc.reject status) here with ⟨-, now⟩ | before
  · exact .inr (rejecting status now)
  · exact .inl before

/-- `trySubmit` increments the counter of the status it reports. -/
theorem CountersOk.pays (ok : CountersOk trace server) {pc : CallerPc}
    (callers : next.callers = Function.update server.callers thread pc)
    (notReject : ∀ status, pc ≠ .reject status)
    (counted : ∀ status, status ≠ .error → next.metrics.counter status =
      server.metrics.counter status + UInt64.ofNat (resultCount status events))
    (error : next.metrics.error = server.metrics.error)
    (returned : returnedEvents events = []) (distributed : distributedEvents events = []) :
    CountersOk (trace ++ events) next where
  paid := by
    intro status real
    rw [resultCount_append, counted status real, ok.paid status real, UInt64.ofNat_add]
  rejecting := by
    intro other status here
    rw [callers] at here
    exact ok.rejecting other status
      (before_update (· = CallerPc.reject status) (notReject status) here)
  errors := by
    rw [returnedEvents_append, distributedEvents_append, returned, distributed, List.append_nil,
      List.append_nil, error]
    exact ok.errors

omit [DecidableEq Thread] in
theorem afterState_reject (server : Server Thread) (config : ServerConfig)
    (event : Submission Thread) (status : SubmitStatus)
    (rejects : server.afterState config event = .reject status) :
    status ≠ .error ∧ status ≠ .accepted := by
  unfold afterState at rejects
  split at rejects
  · cases rejects
    exact ⟨nofun, nofun⟩
  · split at rejects
    · cases rejects
      exact ⟨nofun, nofun⟩
    · split at rejects <;> cases rejects

theorem CountersOk.caller (ok : CountersOk trace server)
    (moved : CallerMove config server thread next events) : CountersOk (trace ++ events) next := by
  cases moved with
  | checksState here =>
      exact ok.goto rfl rfl (afterState_reject server config _) (fun _ => rfl) rfl rfl
  | seesFull here | pushFails here =>
      refine ok.goto rfl rfl (fun status same => ?_) (fun _ => rfl) rfl rfl
      cases same
      exact ⟨nofun, nofun⟩
  | accepts here =>
      refine ok.pays rfl nofun (fun status real => ?_) rfl rfl rfl
      cases status <;> first | exact absurd rfl real | exact (UInt64.add_zero _).symm | rfl
  | @rejects status here =>
      obtain ⟨real, notAccepted⟩ := ok.rejecting thread status here
      refine ok.pays rfl nofun (fun other otherReal => ?_) (rejected_inflight _ _).2 rfl rfl
      cases status <;> cases other <;>
        first | contradiction | exact (UInt64.add_zero _).symm | rfl
  | terminates here unjoined =>
      exact ok.frame (fun _ _ => rfl) (fun _ => rfl) (fun _ _ => .inl) (UInt64.add_comm _ _)
  | _ => exact ok.goto rfl rfl nofun (fun _ => rfl) rfl rfl

omit [DecidableEq Thread] in
theorem CountersOk.worker (ok : CountersOk trace server)
    (moved : LoopMove config server id next events) : CountersOk (trace ++ events) next := by
  cases moved with
  | distributes here =>
      exact ok.frame (fun _ _ => rfl) (fun _ => rfl) (fun _ _ => .inl) (UInt64.add_comm _ _)
  | countsError here =>
      refine ok.frame (fun status real => ?_) (fun _ => rfl) (fun _ _ => .inl) ?_
      · cases status <;> first | exact absurd rfl real | rfl
      · exact (UInt64.add_comm _ _).trans (UInt64.add_zero _).symm
  | begins here | ends here =>
      refine ok.frame (fun status _ => ?_) (fun _ => rfl) (fun _ _ => .inl) (UInt64.add_comm _ _)
      cases status <;> rfl
  | _ => exact ok.frame (fun _ _ => rfl) (fun _ => rfl) (fun _ _ => .inl) (UInt64.add_comm _ _)

theorem CountersOk.step (ok : CountersOk trace server) {action : ServerAction Thread}
    (moved : Move config server action next events) : CountersOk (trace ++ events) next := by
  cases moved with
  | call here entry => cases entry <;> exact ok.goto rfl rfl nofun (fun _ => rfl) rfl rfl
  | caller moved => exact ok.caller moved
  | worker moved => exact ok.worker moved
  | wake here =>
      exact ok.frame (fun _ _ => rfl) (fun _ => rfl) (fun _ _ => .inl) (UInt64.add_comm _ _)

omit [DecidableEq Thread] in
theorem CountersOk.initial : CountersOk [] (Server.initial : Server Thread) where
  paid := by
    intro status real
    cases status <;> rfl
  rejecting := nofun
  errors := rfl

/-! The result of each call. -/

theorem resultsOf_append (event : Submission Thread) (trace events : List (ServerEvent Thread)) :
    resultsOf event (trace ++ events) = resultsOf event trace ++ resultsOf event events := by
  simp [resultsOf]

structure ResultsOk (trace : List (ServerEvent Thread)) (server : Server Thread) : Prop where
  fresh : ∀ event, server.submits event.thread ≤ event.call →
    ¬(event.call = server.submits event.thread ∧ server.callers event.thread = .notifyOne) →
    resultsOf event trace = []
  reported : ∀ thread, server.callers thread = .notifyOne →
    resultsOf (server.submission thread) trace = [.accepted]
  returned : ∀ event status, .submitReturned event status ∈ trace →
    event.call < server.submits event.thread ∧ resultsOf event trace = [status] ∧ status ≠ .error

theorem ResultsOk.frame (ok : ResultsOk trace server)
    (notify : ∀ thread, next.callers thread = .notifyOne ↔ server.callers thread = .notifyOne)
    (submits : next.submits = server.submits)
    (silent : ∀ event, resultsOf event events = [])
    (notReturned : events.any ServerEvent.isReturn = false) : ResultsOk (trace ++ events) next where
  fresh := by
    intro event later notReported
    rw [submits] at later notReported
    rw [notify] at notReported
    rw [resultsOf_append, silent, List.append_nil]
    exact ok.fresh event later notReported
  reported := by
    intro thread here
    rw [notify] at here
    rw [submission, submits, resultsOf_append, silent, List.append_nil]
    exact ok.reported thread here
  returned := by
    intro event status inside
    rw [submits, resultsOf_append, silent, List.append_nil]
    rcases List.mem_append.mp inside with before | now
    · exact ok.returned event status before
    · have quiet := List.any_eq_false.mp notReturned _ now
      exact absurd rfl quiet

theorem ResultsOk.goto (ok : ResultsOk trace server) {pc : CallerPc}
    (callers : next.callers = Function.update server.callers thread pc)
    (before : server.callers thread ≠ .notifyOne) (after : pc ≠ .notifyOne)
    (submits : next.submits = server.submits) (silent : ∀ event, resultsOf event events = [])
    (notReturned : events.any ServerEvent.isReturn = false) :
    ResultsOk (trace ++ events) next := by
  refine ok.frame (fun other => ?_) submits silent notReturned
  rw [callers]
  by_cases same : other = thread
  · subst same
    simp [before, after]
  · rw [Function.update_of_ne same]

theorem ResultsOk.accepts (ok : ResultsOk trace server)
    (here : server.callers thread = .countAccepted)
    (callers : next.callers = Function.update server.callers thread .notifyOne)
    (submits : next.submits = server.submits) :
    ResultsOk (trace ++ [.submitResult (server.submission thread) .accepted]) next := by
  have others : ∀ event, event ≠ server.submission thread →
      resultsOf event [.submitResult (server.submission thread) .accepted] = [] := by
    intro event different
    simp [resultsOf, ServerEvent.result?, different.symm]
  constructor
  case fresh =>
    rintro ⟨owner, call⟩ later notReported
    rw [submits] at later notReported
    have different : (⟨owner, call⟩ : Submission Thread) ≠ server.submission thread := by
      intro same
      cases same
      exact notReported ⟨rfl, by rw [callers, Function.update_self]⟩
    rw [resultsOf_append, others _ different, List.append_nil]
    refine ok.fresh _ later fun ⟨now, notifies⟩ => notReported ⟨now, ?_⟩
    rw [callers, Function.update_of_ne]
    · exact notifies
    · rintro rfl
      simp [here] at notifies
  case reported =>
    intro other notifies
    rw [submission, submits, ← submission, resultsOf_append]
    by_cases same : other = thread
    · subst same
      have none : resultsOf (server.submission other) trace = [] :=
        ok.fresh _ (Nat.le_refl _) fun ⟨_, notifying⟩ => by
          simp [submission, here] at notifying
      rw [none]
      simp [resultsOf, ServerEvent.result?]
    · rw [callers, Function.update_of_ne same] at notifies
      rw [others _ (by simp [submission, same]), List.append_nil]
      exact ok.reported other notifies
  case returned =>
    intro event status inside
    have before : .submitReturned event status ∈ trace := by simpa using inside
    obtain ⟨earlier, result, real⟩ := ok.returned event status before
    have different : event ≠ server.submission thread := by
      rintro rfl
      exact Nat.lt_irrefl _ earlier
    rw [submits, resultsOf_append, others _ different, List.append_nil]
    exact ⟨earlier, result, real⟩

/-- A call returns the status it has reported. -/
theorem ResultsOk.returns (ok : ResultsOk trace server) {status : SubmitStatus}
    (callers : next.callers = Function.update server.callers thread .idle)
    (submits : next.submits = Function.update server.submits thread (server.submits thread + 1))
    (others : ∀ event, event ≠ server.submission thread → resultsOf event events = [])
    (reported : resultsOf (server.submission thread) (trace ++ events) = [status])
    (real : status ≠ .error)
    (returned : ∀ event answer, .submitReturned event answer ∈ events →
      event = server.submission thread ∧ answer = status) :
    ResultsOk (trace ++ events) next := by
  have calls : ∀ other, next.submits other =
      if other = thread then server.submits thread + 1 else server.submits other := by
    intro other
    rw [submits]
    by_cases same : other = thread <;> simp [same]
  constructor
  case fresh =>
    rintro ⟨owner, call⟩ later notReported
    simp only [calls] at later notReported
    by_cases same : owner = thread
    · subst same
      rw [if_pos rfl] at later notReported
      rw [resultsOf_append, others _ (by simp [submission]; omega), List.append_nil]
      exact ok.fresh _ (show server.submits owner ≤ call by omega)
        fun ⟨now, _⟩ => absurd now (show call ≠ server.submits owner by omega)
    · rw [if_neg same] at later notReported
      rw [resultsOf_append, others _ (by simp [submission, same]), List.append_nil]
      refine ok.fresh _ later ?_
      rwa [callers, Function.update_of_ne same] at notReported
  case reported =>
    intro other notifies
    have same : other ≠ thread := by
      rintro rfl
      simp [callers] at notifies
    rw [callers, Function.update_of_ne same] at notifies
    rw [submission, calls, if_neg same, ← submission, resultsOf_append,
      others _ (by simp [submission, same]), List.append_nil]
    exact ok.reported other notifies
  case returned =>
    intro event answer inside
    rw [calls]
    rcases List.mem_append.mp inside with before | now
    · obtain ⟨earlier, result, notError⟩ := ok.returned event answer before
      have different : event ≠ server.submission thread := by
        rintro rfl
        exact Nat.lt_irrefl _ earlier
      rw [resultsOf_append, others _ different, List.append_nil]
      refine ⟨?_, result, notError⟩
      split
      · rename_i same
        rw [same] at earlier
        omega
      · exact earlier
    · obtain ⟨rfl, rfl⟩ := returned event answer now
      refine ⟨?_, reported, real⟩
      simp [submission]

theorem ResultsOk.rejects (ok : ResultsOk trace server) {status : SubmitStatus}
    (here : server.callers thread = .reject status) (real : status ≠ .error)
    (callers : next.callers = Function.update server.callers thread .idle)
    (submits : next.submits = Function.update server.submits thread (server.submits thread + 1)) :
    ResultsOk (trace ++ [.submitResult (server.submission thread) status,
      .submitReturned (server.submission thread) status]) next := by
  refine ok.returns callers submits (fun event different => ?_) ?_ real (by simp)
  · simp [resultsOf, ServerEvent.result?, different.symm]
  · have none : resultsOf (server.submission thread) trace = [] :=
      ok.fresh _ (Nat.le_refl _) fun ⟨_, notifying⟩ => by simp [submission, here] at notifying
    rw [resultsOf_append, none]
    simp [resultsOf, ServerEvent.result?]

theorem ResultsOk.notifies (ok : ResultsOk trace server)
    (here : server.callers thread = .notifyOne)
    (callers : next.callers = Function.update server.callers thread .idle)
    (submits : next.submits = Function.update server.submits thread (server.submits thread + 1)) :
    ResultsOk (trace ++ [.submitReturned (server.submission thread) .accepted]) next := by
  have real : SubmitStatus.accepted ≠ .error := nofun
  refine ok.returns callers submits (fun _ _ => rfl) ?_ real (by simp)
  rw [resultsOf_append, ok.reported thread here]
  rfl

theorem ResultsOk.step (ok : ResultsOk trace server) (counters : CountersOk trace server)
    {action : ServerAction Thread} (moved : Move config server action next events) :
    ResultsOk (trace ++ events) next := by
  cases moved with
  | call here entry =>
      cases entry <;> exact ok.goto rfl (by simp [here]) nofun rfl (fun _ => rfl) rfl
  | @caller thread _ _ _ moved =>
      cases moved with
      | accepts here => exact ok.accepts here rfl rfl
      | @rejects status here => exact ok.rejects here (counters.rejecting _ _ here).1 rfl rfl
      | notifiesOne here picked => exact ok.notifies here rfl rfl
      | notifiesNobody here => exact ok.notifies here rfl rfl
      | checksState here =>
          refine ok.goto rfl (by simp [here]) ?_ rfl (fun _ => rfl) rfl
          intro notifies
          have stage : (server.afterState config (server.submission thread)).stage = .before :=
            afterState_stage config _
          rw [notifies] at stage
          cases stage
      | terminates here unjoined => exact ok.frame (fun _ => .rfl) rfl (fun _ => rfl) rfl
      | _ => exact ok.goto rfl (by simp [*]) nofun rfl (fun _ => rfl) rfl
  | worker moved => cases moved <;> exact ok.frame (fun _ => .rfl) rfl (fun _ => rfl) rfl
  | wake here => exact ok.frame (fun _ => .rfl) rfl (fun _ => rfl) rfl

theorem ResultsOk.initial : ResultsOk [] (Server.initial : Server Thread) where
  fresh := fun _ _ _ => rfl
  reported := nofun
  returned := nofun

/-! The events accepted. -/

/-- The pushes not yet counted in `accepted_` are those of the threads in between. -/
def AcceptedOk (trace : List (ServerEvent Thread)) (server : Server Thread) : Prop :=
  ∃ between : Finset Thread,
    (∀ thread, thread ∈ between ↔ (server.callers thread).accepting = true) ∧
    resultCount .accepted trace + between.card = (pushedEvents trace).length

omit [DecidableEq Thread] in
theorem AcceptedOk.frame (ok : AcceptedOk trace server)
    (accepting : ∀ thread, (next.callers thread).accepting = (server.callers thread).accepting)
    (silent : resultCount .accepted events = 0) (pushed : pushedEvents events = []) :
    AcceptedOk (trace ++ events) next := by
  obtain ⟨between, among, balance⟩ := ok
  refine ⟨between, fun thread => by rw [accepting, among], ?_⟩
  rw [resultCount_append, silent, pushedEvents_append, pushed, List.append_nil]
  exact balance

theorem AcceptedOk.goto (ok : AcceptedOk trace server) {pc : CallerPc}
    (callers : next.callers = Function.update server.callers thread pc)
    (accepting : pc.accepting = (server.callers thread).accepting)
    (silent : resultCount .accepted events = 0) (pushed : pushedEvents events = []) :
    AcceptedOk (trace ++ events) next := by
  refine ok.frame (fun other => ?_) silent pushed
  rw [callers]
  rw [reads_same CallerPc.accepting accepting]

theorem AcceptedOk.pushes (ok : AcceptedOk trace server) (here : server.callers thread = .tryPush)
    (callers : next.callers = Function.update server.callers thread .countQueued)
    (event : Submission Thread) : AcceptedOk (trace ++ [.pushed event]) next := by
  obtain ⟨between, among, balance⟩ := ok
  have outside : thread ∉ between := by
    rw [among, here]
    exact Bool.false_ne_true
  refine ⟨insert thread between, fun other => ?_, ?_⟩
  · rw [Finset.mem_insert, among, callers]
    by_cases same : other = thread <;> simp [same, CallerPc.accepting]
  · rw [Finset.card_insert_of_notMem outside, resultCount_append, pushedEvents_append,
      List.length_append, ← balance]
    exact Nat.add_assoc _ _ 1

theorem AcceptedOk.accepts (ok : AcceptedOk trace server)
    (here : server.callers thread = .countAccepted)
    (callers : next.callers = Function.update server.callers thread .notifyOne)
    (event : Submission Thread) :
    AcceptedOk (trace ++ [.submitResult event .accepted]) next := by
  obtain ⟨between, among, balance⟩ := ok
  have inside : thread ∈ between := by
    rw [among, here]
    rfl
  refine ⟨between.erase thread, fun other => ?_, ?_⟩
  · rw [Finset.mem_erase, among, callers]
    by_cases same : other = thread <;> simp [same, CallerPc.accepting]
  · have one : resultCount .accepted [ServerEvent.submitResult event .accepted] = 1 := rfl
    have none : pushedEvents [ServerEvent.submitResult event .accepted] = [] := rfl
    have some := Finset.card_pos.mpr ⟨thread, inside⟩
    rw [Finset.card_erase_of_mem inside, resultCount_append, one, pushedEvents_append, none,
      List.append_nil, ← balance]
    omega

omit [DecidableEq Thread] in
theorem afterState_accepting (server : Server Thread) (config : ServerConfig)
    (event : Submission Thread) : (server.afterState config event).accepting = false := by
  unfold afterState
  split
  · rfl
  · split
    · rfl
    · split <;> rfl

theorem AcceptedOk.step (ok : AcceptedOk trace server) (counters : CountersOk trace server)
    {action : ServerAction Thread} (moved : Move config server action next events) :
    AcceptedOk (trace ++ events) next := by
  cases moved with
  | call here entry => cases entry <;> exact ok.goto rfl (by rw [here]; rfl) rfl rfl
  | caller moved =>
      cases moved with
      | pushes here room => exact ok.pushes here rfl _
      | accepts here => exact ok.accepts here rfl _
      | @rejects status here =>
          have notAccepted := (counters.rejecting _ _ here).2
          refine ok.goto rfl (by rw [here]; rfl) ?_ rfl
          cases status <;> first | exact absurd rfl notAccepted | rfl
      | checksState here =>
          exact ok.goto rfl (by rw [afterState_accepting, here]; rfl) rfl rfl
      | terminates here unjoined => exact ok.frame (fun _ => rfl) rfl rfl
      | clearsStop here | clearsQueued here | storesMode here | storesStopping here
      | requestsStop here | notifiesAll here | storesStopped here | counts here =>
          exact ok.goto rfl (by rw [here]; rfl) rfl rfl
      | joins here found done => exact ok.goto rfl (by rw [here]; rfl) rfl rfl
      | _ =>
          rename_i here _
          exact ok.goto rfl (by rw [here]; rfl) rfl rfl
  | worker moved => cases moved <;> exact ok.frame (fun _ => rfl) rfl rfl
  | wake here => exact ok.frame (fun _ => rfl) rfl rfl

omit [DecidableEq Thread] in
theorem AcceptedOk.initial : AcceptedOk [] (Server.initial : Server Thread) :=
  ⟨∅, fun _ => ⟨nofun, nofun⟩, rfl⟩

structure MetricsConserved (trace : List (ServerEvent Thread)) (server : Server Thread) : Prop where
  /-- A call has incremented one counter, that of the status it reported and returned. -/
  paid : ∀ event status, .submitReturned event status ∈ trace →
    resultsOf event trace = [status] ∧ status ≠ .error
  counters : ∀ status, status ≠ .error →
    server.metrics.counter status = UInt64.ofNat (resultCount status trace)
  accepted : ∃ between : Finset Thread,
    (∀ thread, thread ∈ between ↔ (server.callers thread).accepting = true) ∧
    resultCount .accepted trace + between.card =
      server.queue.length + (poppedEvents trace).length ∧
    server.metrics.accepted + UInt64.ofNat between.card =
      UInt64.ofNat (server.queue.length + (poppedEvents trace).length)
  order : pushedEvents trace = poppedEvents trace ++ server.queue
  once : (beganEvents trace).Nodup ∧ ∀ event ∈ beganEvents trace, event ∈ poppedEvents trace
  finished : UInt64.ofNat (returnedEvents trace).length =
    server.metrics.error + UInt64.ofNat (distributedEvents trace).length

/-- `inflight_` is the number of workers in flight, at most that of the workers alive. -/
structure InflightBounded (config : ServerConfig) (server : Server Thread) : Prop where
  counted : server.metrics.inflight.toNat =
    countIn (Finset.range server.spawned) LoopPc.inFlight server.loops
  alive : server.metrics.inflight.toNat ≤
    countIn (Finset.range server.spawned) LoopPc.alive server.loops
  few : countIn (Finset.range server.spawned) LoopPc.alive server.loops ≤ config.workerTotal

omit [DecidableEq Thread] in
theorem inFlight_le_alive (server : Server Thread) :
    countIn (Finset.range server.spawned) LoopPc.inFlight server.loops ≤
      countIn (Finset.range server.spawned) LoopPc.alive server.loops := by
  refine Finset.card_le_card fun id member => ?_
  obtain ⟨bound, flying⟩ := Finset.mem_filter.mp member
  refine Finset.mem_filter.mpr ⟨bound, ?_⟩
  cases pc : server.loops id <;> simp_all [LoopPc.inFlight, LoopPc.alive]

structure MetricsOk (trace : List (ServerEvent Thread)) (server : Server Thread) : Prop where
  events : EventsOk trace server
  processing : ProcessingOk trace server
  inflight : server.InflightOk
  counters : CountersOk trace server
  results : ResultsOk trace server
  accepted : AcceptedOk trace server

theorem MetricsOk.step (ok : MetricsOk trace server) {action : ServerAction Thread}
    (moved : Move config server action next events) : MetricsOk (trace ++ events) next where
  events := ok.events.step moved
  processing := ok.processing.step ok.events moved
  inflight := ok.inflight.step ok.events moved
  counters := ok.counters.step moved
  results := ok.results.step ok.counters moved
  accepted := ok.accepted.step ok.counters moved

theorem metrics_ok (reached : (serverMachine config Thread).Reaches EventMachine.anyAction trace
    server) : MetricsOk trace server := by
  refine reached.invariant MetricsOk
    ⟨.initial, .initial, .initial, .initial, .initial, .initial⟩ ?_
  exact fun _ _ _ _ _ ok _ stepped => ok.step (step_move stepped).2

theorem MetricsOk.conserved (ok : MetricsOk trace server) : MetricsConserved trace server := by
  have order : pushedEvents trace = poppedEvents trace ++ server.queue := ok.events.events.order
  constructor
  case paid => exact fun event status inside => (ok.results.returned event status inside).2
  case counters => exact ok.counters.paid
  case accepted =>
    obtain ⟨between, among, balance⟩ := ok.accepted
    have total : resultCount .accepted trace + between.card =
        server.queue.length + (poppedEvents trace).length := by
      rw [balance, order, List.length_append, Nat.add_comm]
    have counted : server.metrics.accepted = UInt64.ofNat (resultCount .accepted trace) :=
      ok.counters.paid .accepted nofun
    exact ⟨between, among, total, by rw [counted, ← UInt64.ofNat_add, total]⟩
  case order => exact order
  case once =>
    exact ⟨ok.processing.fetched.nodup,
      fun event inside => ((ok.processing.fetched.finished event).mp inside).1⟩
  case finished => exact ok.counters.errors

/-- A count of workers that are alive is far from 2 ^ 64. -/
theorem inflight_bounded
    (reached : (serverMachine config Thread).Reaches waitsApart trace server) :
    server.InflightBounded config := by
  have ok : EventsOk trace server ∧ WorkersOk config server ∧ server.InflightOk := by
    refine reached.invariant
      (fun trace server => EventsOk trace server ∧ WorkersOk config server ∧ server.InflightOk)
      ⟨.initial, .initial, .initial⟩ ?_
    rintro _ _ _ _ _ ⟨events, workers, inflight⟩ permitted stepped
    have moved := (step_move stepped).2
    exact ⟨events.step moved, workers.step events permitted moved, inflight.step events moved⟩
  have few := ok.2.1.alive_le
  have flying := inFlight_le_alive server
  have total := config.workerTotal_lt
  have counted : server.metrics.inflight = UInt64.ofNat
    (countIn (Finset.range server.spawned) LoopPc.inFlight server.loops) := ok.2.2
  have value : server.metrics.inflight.toNat =
      countIn (Finset.range server.spawned) LoopPc.inFlight server.loops := by
    rw [counted, UInt64.toNat_ofNat', Nat.mod_eq_of_lt (by omega)]
  exact ⟨value, by omega, few⟩

/-- No event and no increment is lost, whatever calls overlap; over start, shutdown and wait
cycles the workers in flight never exceed those that are alive. -/
theorem metrics_conserved
    (reached : (serverMachine config Thread).Reaches EventMachine.anyAction trace server) :
    MetricsConserved trace server ∧
      ((serverMachine config Thread).Reaches waitsApart trace server →
        server.InflightBounded config) :=
  ⟨(metrics_ok reached).conserved, inflight_bounded⟩

instance [Fintype Thread] (trace : List (ServerEvent Thread)) (server : Server Thread)
    (action : ServerAction Thread) : Decidable (waitsApart trace server action) :=
  match action with
  | .start _ | .wait _ => inferInstanceAs (Decidable (∀ _, _))
  | .trySubmit _ | .shutdown _ _ | .caller _ _ | .worker _ _ | .wake _ => .isTrue trivial

def metricsSchedule : List (ServerAction Bool) :=
  [ServerAction.start false] ++ List.replicate 4 (ServerAction.caller false 0) ++
    [ServerAction.trySubmit true] ++ List.replicate 6 (ServerAction.caller true 0) ++
    [ServerAction.trySubmit true] ++ List.replicate 6 (ServerAction.caller true 0) ++
    List.replicate 4 (ServerAction.worker 0 true) ++ [ServerAction.worker 0 false] ++
    List.replicate 9 (ServerAction.worker 0 true) ++ [ServerAction.shutdown false .graceful] ++
    List.replicate 5 (ServerAction.caller false 0) ++ [ServerAction.trySubmit true] ++
    List.replicate 2 (ServerAction.caller true 0)

theorem metricsSchedule_runs :
    ((serverMachine sampleConfig Bool).exec waitsApart []
      (serverMachine sampleConfig Bool).start metricsSchedule).isSome = true := by
  decide +kernel

theorem metrics_conserved_sample :
    MetricsConserved (Option.get _ metricsSchedule_runs).1
        (Option.get _ metricsSchedule_runs).2 ∧
      (Option.get _ metricsSchedule_runs).2.InflightBounded sampleConfig ∧
      (Option.get _ metricsSchedule_runs).2.metrics.accepted = 2 ∧
      (Option.get _ metricsSchedule_runs).2.metrics.rejectedStopped = 1 ∧
      (Option.get _ metricsSchedule_runs).2.metrics.error = 1 := by
  have reached := EventMachine.reaches_of_isSome metricsSchedule_runs
  obtain ⟨conserved, bounded⟩ := metrics_conserved (reached.mono fun _ _ _ _ => trivial)
  exact ⟨conserved, bounded reached, by decide +kernel, by decide +kernel, by decide +kernel⟩

end Server

end MyServer
