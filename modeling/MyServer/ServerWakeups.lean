import MyServer.ServerLifecycle

/-!
`wakeCv_`. The predicate of a worker reads two atomics that `trySubmit` and `shutdown` write
without `wakeMutex_`, so a notification can come after the worker has found both false and
before it blocks.
-/

namespace MyServer

variable {Thread : Type}

def CallerPc.delivering : CallerPc → Bool
  | .countQueued | .countAccepted | .notifyOne => true
  | _ => false

namespace LoopPc

def sleeping : LoopPc Thread → Bool
  | .block | .blocked => true
  | _ => false

/-- The worker looks at the queue again without a notification; past its test of
`queuedApprox_` only if it is to stop. -/
def watches (stop : Bool) : LoopPc Thread → Bool
  | .block | .blocked => false
  | .predStop => stop
  | _ => true

theorem watches_blocked {pc : LoopPc Thread} {stop : Bool} (watches : pc.watches stop = true) :
    pc ≠ .blocked := by
  rintro rfl
  cases watches

end LoopPc

def ServerEvent.ofStop : ServerEvent Thread → Bool
  | .stopCleared | .stopRequested _ | .shutdownReturned _ => true
  | _ => false

def sinceCleared (trace : List (ServerEvent Thread)) : List (ServerEvent Thread) :=
  (trace.reverse.takeWhile fun event => !event.isStopCleared).reverse

namespace Server

def StopSettled (trace : List (ServerEvent Thread)) : Prop :=
  ∃ thread before after, sinceCleared trace = before ++ .stopRequested thread :: after ∧
    .shutdownReturned thread ∈ after

structure WakeupsKept (trace : List (ServerEvent Thread)) (server : Server Thread) : Prop where
  stop : server.stopRequested = true →
    StopSettled trace ∨ (∀ thread, server.callers thread ≠ .notifyAll) →
    ∀ id, server.loops id ≠ .blocked
  queue : server.queue ≠ [] → (∀ thread, (server.callers thread).task ≠ .submit) →
    server.workers ≠ [] → ∃ handle ∈ server.workers, server.loops handle.id ≠ .blocked

/-- Events for the workers of `workers_` find one that will look at the queue, or a `trySubmit`
of one of the threads that has yet to notify. -/
def Watched (server : Server Thread) (stop : Bool) (threads : Thread → Prop) : Prop :=
  server.queue ≠ [] → server.workers ≠ [] →
    (∃ thread, threads thread ∧ (server.callers thread).delivering = true) ∨
      ∃ handle ∈ server.workers, (server.loops handle.id).watches stop = true

/-- `notify_all` of a requested stop comes when no worker is about to block; `notify_one` that
finds no worker blocked, and a start that clears `stopRequested_`, leave the queued events
watched. The counter is reset and bounded as for its agreement with the queue. -/
def wakesHeard [DecidableEq Thread] (trace : List (ServerEvent Thread)) (server : Server Thread)
    (action : ServerAction Thread) : Prop :=
  balanced trace server action ∧
    match action with
    | .caller thread _ =>
        (server.callers thread = .notifyAll → server.stopRequested = true →
          ∀ id, id < server.spawned → server.loops id ≠ .block) ∧
        (server.callers thread = .notifyOne → server.anyBlocked = false →
          server.Watched server.stopRequested (· ≠ thread)) ∧
        (server.callers thread = .clearStop → server.Watched false fun _ => True)
    | _ => True

variable {trace events : List (ServerEvent Thread)} {server next : Server Thread}
variable {config : ServerConfig} {thread : Thread} {id : Nat}

theorem sinceCleared_append (silent : events.any ServerEvent.isStopCleared = false) :
    sinceCleared (trace ++ events) = sinceCleared trace ++ events := by
  have kept : ∀ event ∈ events.reverse, (!ServerEvent.isStopCleared event) = true := by
    intro event inside
    have quiet := List.any_eq_false.mp silent event (List.mem_reverse.mp inside)
    simpa using quiet
  rw [sinceCleared, List.reverse_append, List.takeWhile_append_of_pos kept, List.reverse_append,
    List.reverse_reverse, sinceCleared]

theorem sinceCleared_cleared : sinceCleared (trace ++ [.stopCleared]) = [] := by
  rw [sinceCleared, List.reverse_append]
  rfl

theorem StopSettled.append (settled : StopSettled trace)
    (silent : events.any ServerEvent.isStopCleared = false) : StopSettled (trace ++ events) := by
  obtain ⟨thread, before, after, split, returned⟩ := settled
  refine ⟨thread, before, after ++ events, ?_, List.mem_append_left _ returned⟩
  rw [sinceCleared_append silent, split, List.append_assoc, List.cons_append]

/-- The `shutdown` that requested the stop returns. -/
theorem StopSettled.returns (requested : .stopRequested thread ∈ sinceCleared trace) :
    StopSettled (trace ++ [.shutdownReturned thread]) := by
  obtain ⟨before, after, split⟩ := List.append_of_mem requested
  refine ⟨thread, before, after ++ [.shutdownReturned thread], ?_, by simp⟩
  rw [sinceCleared_append rfl, split, List.append_assoc, List.cons_append]

/-- A stop is settled by the return of a call that requested it. -/
theorem StopSettled.before (settled : StopSettled (trace ++ events))
    (silent : events.any ServerEvent.isStopCleared = false) :
    StopSettled trace ∨ ∃ thread, .shutdownReturned thread ∈ events ∧
      .stopRequested thread ∈ sinceCleared trace ++ events := by
  obtain ⟨thread, before, after, split, returned⟩ := settled
  rw [sinceCleared_append silent] at split
  have requested : .stopRequested thread ∈ sinceCleared trace ++ events := by
    rw [split]
    exact List.mem_append_right _ List.mem_cons_self
  rcases List.append_eq_append_iff.mp split with ⟨middle, _, later⟩ | ⟨middle, earlier, later⟩
  · refine .inr ⟨thread, ?_, requested⟩
    rw [later]
    exact List.mem_append_right _ (List.mem_cons_of_mem _ returned)
  · cases middle with
    | nil =>
        refine .inr ⟨thread, ?_, requested⟩
        rw [List.nil_append] at later
        rw [← later]
        exact List.mem_cons_of_mem _ returned
    | cons event rest =>
        obtain ⟨rfl, rfl⟩ := List.cons_eq_cons.mp later
        rcases List.mem_append.mp returned with inside | now
        · exact .inl ⟨thread, before, rest, earlier, inside⟩
        · exact .inr ⟨thread, now, requested⟩

/-! Part one: nobody sleeps through a stop. -/

theorem cleared_silent (silent : events.any ServerEvent.ofStop = false) :
    events.any ServerEvent.isStopCleared = false := by
  rw [List.any_eq_false] at silent ⊢
  intro event inside
  have quiet := silent event inside
  cases event <;> first | exact quiet | exact Bool.false_ne_true

structure StopOk (trace : List (ServerEvent Thread)) (server : Server Thread) : Prop where
  awake : StopSettled trace → ∀ id, (server.loops id).sleeping = false
  pending : ∀ thread, .stopRequested thread ∈ sinceCleared trace →
    server.callers thread = .notifyAll ∨ StopSettled trace
  requested : server.stopRequested = true ↔ ∃ thread, .stopRequested thread ∈ sinceCleared trace

theorem StopOk.initial : StopOk [] (Server.initial : Server Thread) where
  awake := fun _ _ => rfl
  pending := nofun
  requested := ⟨nofun, fun ⟨_, inside⟩ => nomatch inside⟩

theorem StopOk.stop (ok : StopOk trace server) (settled : StopSettled trace) :
    server.stopRequested = true := by
  obtain ⟨thread, before, after, split, _⟩ := settled
  refine ok.requested.mpr ⟨thread, ?_⟩
  rw [split]
  exact List.mem_append_right _ List.mem_cons_self

theorem StopOk.frame (ok : StopOk trace server)
    (stop : next.stopRequested = server.stopRequested)
    (callers : ∀ other, .stopRequested other ∈ sinceCleared trace →
      server.callers other = .notifyAll → next.callers other = .notifyAll ∨
        StopSettled (trace ++ events))
    (awake : StopSettled (trace ++ events) → ∀ id, (next.loops id).sleeping = false)
    (silent : events.any ServerEvent.isStopCleared = false)
    (noRequest : ∀ other, .stopRequested other ∉ events) : StopOk (trace ++ events) next := by
  have same : ∀ other, .stopRequested other ∈ sinceCleared (trace ++ events) ↔
      .stopRequested other ∈ sinceCleared trace := by
    intro other
    rw [sinceCleared_append silent, List.mem_append]
    exact or_iff_left (noRequest other)
  constructor
  case awake => exact awake
  case pending =>
    intro other requested
    rw [same] at requested
    rcases ok.pending other requested with notifies | settled
    · exact callers other requested notifies
    · exact .inr (settled.append silent)
  case requested => simp only [stop, same, ok.requested]

theorem StopOk.quiet (ok : StopOk trace server)
    (stop : next.stopRequested = server.stopRequested)
    (callers : ∀ other, server.callers other = .notifyAll → next.callers other = .notifyAll)
    (sleeps : server.stopRequested = true → ∀ id, (next.loops id).sleeping = true →
      (server.loops id).sleeping = true)
    (silent : events.any ServerEvent.ofStop = false) : StopOk (trace ++ events) next := by
  refine ok.frame stop (fun other _ notifies => .inl (callers other notifies)) ?_
    (cleared_silent silent) ?_
  · intro settledNow id
    have settled : StopSettled trace := by
      refine (settledNow.before (cleared_silent silent)).resolve_right ?_
      rintro ⟨other, returned, _⟩
      exact List.any_eq_false.mp silent _ returned rfl
    rw [← Bool.not_eq_true]
    intro asleep
    have before := sleeps (ok.stop settled) id asleep
    rw [ok.awake settled] at before
    cases before
  · intro other requested
    exact List.any_eq_false.mp silent _ requested rfl

theorem StopOk.loop (ok : StopOk trace server) {pc : LoopPc Thread}
    (loops : next.loops = Function.update server.loops id pc)
    (stop : next.stopRequested = server.stopRequested) (callers : next.callers = server.callers)
    (sleeps : server.stopRequested = true → pc.sleeping = true →
      (server.loops id).sleeping = true)
    (silent : events.any ServerEvent.ofStop = false) : StopOk (trace ++ events) next := by
  refine ok.quiet stop (fun _ notifies => by rwa [callers]) (fun stops other asleep => ?_) silent
  rw [loops] at asleep
  rcases of_update (LoopPc.sleeping · = true) asleep with ⟨rfl, now⟩ | before
  · exact sleeps stops now
  · exact before

theorem StopOk.worker (ok : StopOk trace server)
    (moved : LoopMove config server id next events) : StopOk (trace ++ events) next := by
  cases moved with
  | mayBlock here runs =>
      refine ok.loop rfl rfl rfl (fun stops => ?_) rfl
      rw [runs] at stops
      cases stops
  | blocks here => exact ok.loop rfl rfl rfl (fun _ _ => by rw [here]; rfl) rfl
  | begins here | decodesNot here =>
      refine ok.loop rfl rfl rfl (fun _ asleep => ?_) rfl
      unfold decodeFrom at asleep
      split at asleep <;> cases asleep
  | _ => exact ok.loop rfl rfl rfl (fun _ asleep => Bool.noConfusion asleep) rfl

section Steps

variable [DecidableEq Thread]

theorem StopOk.goto (ok : StopOk trace server) {pc : CallerPc}
    (callers : next.callers = Function.update server.callers thread pc)
    (before : server.callers thread ≠ .notifyAll)
    (stop : next.stopRequested = server.stopRequested)
    (sleeps : ∀ id, (next.loops id).sleeping = true → (server.loops id).sleeping = true)
    (silent : events.any ServerEvent.ofStop = false) : StopOk (trace ++ events) next := by
  refine ok.quiet stop (fun other notifies => ?_) (fun _ => sleeps) silent
  have different : other ≠ thread := by
    rintro rfl
    exact before notifies
  rwa [callers, Function.update_of_ne different]

theorem StopOk.clears :
    StopOk (trace ++ [.stopCleared])
      ({ server with stopRequested := false }.goto thread .clearQueued) := by
  have none : sinceCleared (trace ++ [.stopCleared]) = [] := sinceCleared_cleared
  constructor
  case awake =>
    rintro ⟨other, before, after, split, _⟩
    rw [none] at split
    simp at split
  case pending =>
    rw [none]
    nofun
  case requested =>
    rw [none]
    exact ⟨nofun, fun ⟨_, inside⟩ => nomatch inside⟩

theorem StopOk.requests (ok : StopOk trace server) :
    StopOk (trace ++ [.stopRequested thread])
      ({ server with stopRequested := true }.goto thread .notifyAll) := by
  have longer : sinceCleared (trace ++ [.stopRequested thread]) =
      sinceCleared trace ++ [.stopRequested thread] := sinceCleared_append rfl
  have notifies : ∀ other, (other = thread ∨ server.callers other = .notifyAll) →
      Function.update server.callers thread .notifyAll other = .notifyAll := by
    intro other notifies
    by_cases same : other = thread
    · rw [same, Function.update_self]
    · rw [Function.update_of_ne same]
      exact notifies.resolve_left same
  constructor
  case awake =>
    intro settled
    refine ok.awake ((settled.before rfl).resolve_right ?_)
    rintro ⟨other, returned, _⟩
    simp at returned
  case pending =>
    intro other requested
    rw [longer, List.mem_append] at requested
    rcases requested with earlier | now
    · rcases ok.pending other earlier with before | settled
      · exact .inl (notifies other (.inr before))
      · exact .inr (settled.append rfl)
    · obtain rfl : other = thread := by simpa using now
      exact .inl (notifies other (.inl rfl))
  case requested =>
    refine ⟨fun _ => ⟨thread, ?_⟩, fun _ => rfl⟩
    rw [longer]
    exact List.mem_append_right _ List.mem_cons_self

theorem StopOk.returns (ok : StopOk trace server) (here : server.callers thread = .testState) :
    StopOk (trace ++ [.shutdownReturned thread]) (server.goto thread .idle) := by
  refine ok.frame rfl (fun other _ notifies => .inl ?_) (fun settledNow => ?_) rfl (by simp)
  · have different : other ≠ thread := by
      rintro rfl
      rw [here] at notifies
      cases notifies
    exact (Function.update_of_ne different _ _).trans notifies
  · refine ok.awake ?_
    rcases settledNow.before rfl with settled | ⟨other, returned, requested⟩
    · exact settled
    · obtain rfl : other = thread := by simpa using returned
      have requested : .stopRequested other ∈ sinceCleared trace := by simpa using requested
      refine (ok.pending other requested).resolve_left ?_
      rw [here]
      nofun

theorem StopOk.notifies (ok : StopOk trace server)
    (heard : server.stopRequested = true → ∀ id, server.loops id ≠ .block) :
    StopOk (trace ++ [.shutdownReturned thread])
      ({ server with loops := wakeAll server.loops }.goto thread .idle) := by
  refine ok.frame rfl (fun other requested notifies => ?_) (fun settledNow id => ?_) rfl (by simp)
  · by_cases same : other = thread
    · subst same
      exact .inr (.returns requested)
    · exact .inl ((Function.update_of_ne same _ _).trans notifies)
  · have stops : server.stopRequested = true := by
      rcases settledNow.before rfl with settled | ⟨other, returned, requested⟩
      · exact ok.stop settled
      · exact ok.requested.mpr ⟨other, by simpa using requested⟩
    change (wakeAll server.loops id).sleeping = false
    unfold wakeAll
    split
    · rfl
    · rename_i notBlocked
      have notBlocking := heard stops id
      cases pc : server.loops id <;> first | rfl | contradiction

end Steps

/-! Part two: queued events are watched. -/

/-- The counter reads zero with events in the queue only while a submitter has not counted. -/
theorem countQueued_of_zero (ok : EventsOk trace server) (depth : DepthOk trace server)
    (zero : server.queuedApprox = 0) (queued : server.queue ≠ []) :
    ∃ thread, server.callers thread = .countQueued := by
  by_contra none
  have counted : (countedEvents trace).length = (pushedEvents trace).length := by
    refine ok.events.all_counted fun thread pushing => none ⟨thread, ?_⟩
    have stage : (server.callers thread).stage = .pushed := pushing
    cases pc : server.callers thread <;> simp [pc, CallerPc.stage] at stage ⊢
  have discounted : (discountedEvents trace).length ≤ (poppedEvents trace).length :=
    ok.events.discounted_le
  have order : (pushedEvents trace).length = (poppedEvents trace).length + server.queue.length :=
    (congrArg List.length ok.events.order).trans List.length_append
  have some : 0 < server.queue.length := List.length_pos_iff.mpr queued
  have room := depth.room
  have tally : UInt64.ofNat (discountedEvents trace).length =
      UInt64.ofNat (countedEvents trace).length := by
    have depth := depth.depth
    rwa [Tallied, zero, UInt64.zero_add] at depth
  have values := congrArg UInt64.toNat tally
  simp only [UInt64.toNat_ofNat'] at values
  omega

theorem Watched.frame {stop later : Bool} {threads : Thread → Prop}
    (watched : server.Watched stop threads) (queue : next.queue = server.queue)
    (workers : next.workers = server.workers)
    (delivering : ∀ other, threads other → (server.callers other).delivering = true →
      (next.callers other).delivering = true)
    (watches : ∀ id, (server.loops id).watches stop = true →
      (next.loops id).watches later = true) : next.Watched later fun _ => True := by
  intro queued employed
  rw [queue] at queued
  rw [workers] at employed ⊢
  rcases watched queued employed with ⟨other, inside, delivers⟩ | ⟨handle, inside, looks⟩
  · exact .inl ⟨other, trivial, delivering other inside delivers⟩
  · exact .inr ⟨handle, inside, watches handle.id looks⟩

theorem Watched.of_delivering {stop : Bool} (delivers : (server.callers thread).delivering = true) :
    server.Watched stop fun _ => True :=
  fun _ _ => .inl ⟨thread, trivial, delivers⟩

theorem Watched.of_handle {stop joinable : Bool} (inside : ⟨id, joinable⟩ ∈ server.workers)
    (watches : (server.loops id).watches stop = true) : server.Watched stop fun _ => True :=
  fun _ _ => .inr ⟨_, inside, watches⟩

theorem Watched.leaves {stop : Bool} {pc : LoopPc Thread}
    (watched : server.Watched stop fun _ => True)
    (loops : next.loops = Function.update server.loops id pc)
    (before : (server.loops id).watches stop = false) (queue : next.queue = server.queue)
    (workers : next.workers = server.workers) (callers : next.callers = server.callers) :
    next.Watched stop fun _ => True := by
  refine watched.frame queue workers (fun _ _ delivers => by rwa [callers]) ?_
  intro other looks
  have different : other ≠ id := by
    rintro rfl
    rw [before] at looks
    cases looks
  rwa [loops, Function.update_of_ne different]

theorem Watched.looks {stop : Bool} {pc : LoopPc Thread} (handles : server.HandlesKept)
    (alive : id < server.spawned) (unfinished : server.loops id ≠ .finished)
    (loops : next.loops = Function.update server.loops id pc)
    (workers : next.workers = server.workers) (watches : pc.watches stop = true) :
    next.Watched stop fun _ => True := by
  have inside : ⟨id, true⟩ ∈ next.workers := workers ▸ handles id alive unfinished
  refine Watched.of_handle inside ?_
  rwa [loops, Function.update_self]

theorem Watched.worker (watched : server.Watched server.stopRequested fun _ => True)
    (eventsOk : EventsOk trace server) (depth : DepthOk trace server)
    (handles : server.HandlesKept) (moved : LoopMove config server id next events) :
    next.Watched next.stopRequested fun _ => True := by
  have alive := eventsOk.alive moved.present.1
  have unfinished := moved.present.2
  cases moved with
  | seesNone here zero =>
      intro queued _
      obtain ⟨thread, counting⟩ := countQueued_of_zero eventsOk depth zero queued
      refine .inl ⟨thread, trivial, ?_⟩
      change (server.callers thread).delivering = true
      rw [counting]
      rfl
  | mayBlock here runs => exact watched.leaves rfl (by rw [here]; exact runs) rfl rfl rfl
  | blocks here => exact watched.leaves rfl (by rw [here]; rfl) rfl rfl rfl
  | begins here | decodesNot here =>
      refine Watched.looks handles alive unfinished rfl rfl ?_
      unfold decodeFrom
      split <;> rfl
  | _ => exact Watched.looks handles alive unfinished rfl rfl rfl

section Steps

variable [DecidableEq Thread]

theorem Watched.goto {stop later : Bool} {pc : CallerPc}
    (watched : server.Watched stop fun _ => True)
    (callers : next.callers = Function.update server.callers thread pc)
    (outside : (server.callers thread).delivering = false) (queue : next.queue = server.queue)
    (workers : next.workers = server.workers)
    (watches : ∀ id, (server.loops id).watches stop = true →
      (next.loops id).watches later = true) : next.Watched later fun _ => True := by
  refine watched.frame queue workers (fun other _ delivers => ?_) watches
  have different : other ≠ thread := by
    rintro rfl
    rw [outside] at delivers
    cases delivers
  rwa [callers, Function.update_of_ne different]

theorem Watched.caller (watched : server.Watched server.stopRequested fun _ => True)
    (eventsOk : EventsOk trace server) (handles : server.HandlesKept)
    (notified : server.callers thread = .notifyOne → server.anyBlocked = false →
      server.Watched server.stopRequested (· ≠ thread))
    (cleared : server.callers thread = .clearStop → server.Watched false fun _ => True)
    (moved : CallerMove config server thread next events) :
    next.Watched next.stopRequested fun _ => True := by
  have moves : ∀ pc, (Function.update server.callers thread pc thread) = pc := fun pc =>
    Function.update_self ..
  cases moved with
  | pushes here room => exact .of_delivering (congrArg CallerPc.delivering (moves _))
  | counts here => exact .of_delivering (congrArg CallerPc.delivering (moves _))
  | accepts here => exact .of_delivering (congrArg CallerPc.delivering (moves _))
  | @notifiesOne wakes here picked =>
      have present : server.loops wakes ≠ .absent := by rw [picked]; nofun
      have unfinished : server.loops wakes ≠ .finished := by rw [picked]; nofun
      exact .looks handles (eventsOk.alive present) unfinished rfl rfl rfl
  | notifiesNobody here nobody =>
      refine (notified here nobody).frame rfl rfl (fun other different delivers => ?_) fun _ => id
      have same : Function.update server.callers thread .idle other = server.callers other :=
        Function.update_of_ne different ..
      exact (congrArg CallerPc.delivering same).trans delivers
  | spawns here more | spawnsLast here last =>
      have begins : Function.update server.loops server.spawned .tryPop server.spawned = .tryPop :=
        Function.update_self ..
      refine .of_handle (List.mem_append_right _ (List.mem_singleton.mpr rfl)) ?_
      exact congrArg (LoopPc.watches _) begins
  | joins here found done =>
      refine .of_handle (List.mem_set (List.getElem?_eq_some_iff.mp found).1 _) ?_
      exact congrArg (LoopPc.watches _) done
  | clearsWorkers here joined => exact fun _ employed => absurd rfl employed
  | clearsStop here =>
      exact (cleared here).goto rfl (by rw [here]; rfl) rfl rfl fun _ => id
  | requestsStop here =>
      refine watched.goto rfl (by rw [here]; rfl) rfl rfl fun id looks => ?_
      change (server.loops id).watches true = true
      cases pc : server.loops id <;> first | rfl | (rw [pc] at looks; cases looks)
  | notifiesAll here =>
      refine watched.goto rfl (by rw [here]; rfl) rfl rfl fun id looks => ?_
      change (wakeAll server.loops id).watches _ = true
      unfold wakeAll
      split
      · rfl
      · exact looks
  | terminates here unjoined => exact watched
  | rejects here | storesMode here | storesStopping here | clearsQueued here | checksState here
  | storesStopped here =>
      exact watched.goto rfl (by rw [here]; rfl) rfl rfl fun _ => id
  | _ =>
      rename_i here _
      exact watched.goto rfl (by rw [here]; rfl) rfl rfl fun _ => id

theorem StopOk.caller (ok : StopOk trace server)
    (heard : server.callers thread = .notifyAll → server.stopRequested = true →
      ∀ id, server.loops id ≠ .block)
    (moved : CallerMove config server thread next events) : StopOk (trace ++ events) next := by
  have woken : ∀ wakes id, (Function.update server.loops wakes .notified id).sleeping = true →
      (server.loops id).sleeping = true := fun _ _ =>
    before_update (LoopPc.sleeping · = true) (by simp [LoopPc.sleeping])
  have spawned : ∀ id, (Function.update server.loops server.spawned .tryPop id).sleeping = true →
      (server.loops id).sleeping = true := fun _ =>
    before_update (LoopPc.sleeping · = true) (by simp [LoopPc.sleeping])
  cases moved with
  | clearsStop here => exact .clears
  | requestsStop here => exact ok.requests
  | alreadyStopped here was => exact ok.returns here
  | notifiesAll here => exact ok.notifies (heard here)
  | spawns here more => exact ok.goto rfl (by rw [here]; nofun) rfl spawned rfl
  | spawnsLast here last => exact ok.goto rfl (by rw [here]; nofun) rfl spawned rfl
  | @notifiesOne wakes here picked =>
      exact ok.goto rfl (by rw [here]; nofun) rfl (woken wakes) rfl
  | terminates here unjoined => exact ok.quiet rfl (fun _ => id) (fun _ _ => id) rfl
  | rejects here | storesMode here | storesStopping here | clearsQueued here | checksState here
  | storesStopped here | pushes here | counts here | accepts here =>
      exact ok.goto rfl (by rw [here]; nofun) rfl (fun _ => id) rfl
  | joins here found done => exact ok.goto rfl (by rw [here]; nofun) rfl (fun _ => id) rfl
  | _ =>
      rename_i here _
      exact ok.goto rfl (by rw [here]; nofun) rfl (fun _ => id) rfl

structure WakeOk (trace : List (ServerEvent Thread)) (server : Server Thread) : Prop where
  events : EventsOk trace server
  depth : DepthOk trace server
  handles : server.HandlesKept
  stop : StopOk trace server
  watched : server.Watched server.stopRequested fun _ => True

theorem WakeOk.step (ok : WakeOk trace server) {action : ServerAction Thread}
    (permitted : wakesHeard trace server action)
    (moved : Move config server action next events) : WakeOk (trace ++ events) next where
  events := ok.events.step moved
  depth := ok.depth.step permitted.1 moved
  handles := ok.handles.step moved
  stop := by
    cases moved with
    | call here entry =>
        cases entry <;>
          exact ok.stop.goto rfl (by rw [here]; nofun) rfl (fun _ => id) rfl
    | caller moved =>
        refine ok.stop.caller (fun notifies stops id blocking => ?_) moved
        have present : server.loops id ≠ .absent := by rw [blocking]; nofun
        exact permitted.2.1 notifies stops id (ok.events.alive present) blocking
    | worker moved => exact ok.stop.worker moved
    | wake here => exact ok.stop.loop rfl rfl rfl (fun _ asleep => Bool.noConfusion asleep) rfl
  watched := by
    cases moved with
    | call here entry => exact ok.watched.goto rfl (by rw [here]; rfl) rfl rfl fun _ => id
    | caller moved =>
        exact ok.watched.caller ok.events ok.handles permitted.2.2.1 permitted.2.2.2 moved
    | worker moved => exact ok.watched.worker ok.events ok.depth ok.handles moved
    | wake here =>
        have present := ok.events.alive (by rw [here]; nofun)
        exact .looks ok.handles present (by rw [here]; nofun) rfl rfl rfl

omit [DecidableEq Thread] in
theorem WakeOk.initial : WakeOk [] (Server.initial : Server Thread) where
  events := .initial
  depth := .initial
  handles := nofun
  stop := .initial
  watched := fun _ employed => absurd rfl employed

/-- No wakeup is lost if each notification comes when its workers have blocked or will see
what it is about. -/
theorem wakeups_kept (reached : (serverMachine config Thread).Reaches wakesHeard trace server) :
    server.WakeupsKept trace := by
  have ok : WakeOk trace server := reached.invariant WakeOk .initial
    fun _ _ _ _ _ ok permitted stepped => ok.step permitted (step_move stepped).2
  constructor
  case stop =>
    intro stops heard id blocked
    have settled : StopSettled trace := by
      rcases heard with settled | quiet
      · exact settled
      · obtain ⟨thread, requested⟩ := ok.stop.requested.mp stops
        exact (ok.stop.pending thread requested).resolve_left (quiet thread)
    have awake := ok.stop.awake settled id
    rw [blocked] at awake
    cases awake
  case queue =>
    intro queued settled employed
    rcases ok.watched queued employed with ⟨thread, _, delivers⟩ | ⟨handle, inside, watches⟩
    · have submitting := settled thread
      cases pc : server.callers thread <;> simp [pc, CallerPc.delivering, CallerPc.task]
        at delivers submitting
    · exact ⟨handle, inside, LoopPc.watches_blocked watches⟩

instance [Fintype Thread] (server : Server Thread) (stop : Bool) (threads : Thread → Prop)
    [DecidablePred threads] : Decidable (server.Watched stop threads) :=
  inferInstanceAs (Decidable (_ → _ → _ ∨ _))

instance [Fintype Thread] (trace : List (ServerEvent Thread)) (server : Server Thread)
    (action : ServerAction Thread) : Decidable (wakesHeard trace server action) :=
  match action with
  | .caller _ _ => inferInstanceAs (Decidable (_ ∧ (_ → _ → _) ∧ (_ → _ → _) ∧ (_ → _)))
  | .start _ | .shutdown _ _ | .wait _ | .trySubmit _ | .worker _ _ | .wake _ =>
      .isTrue ⟨trivial, trivial⟩

def aboutToBlock : List (ServerAction Unit) :=
  [ServerAction.start ()] ++ List.replicate 4 (ServerAction.caller () 0) ++
    List.replicate 5 (ServerAction.worker 0 true)

def unheardStop : List (ServerAction Unit) :=
  aboutToBlock ++ [ServerAction.shutdown () .graceful] ++
    List.replicate 5 (ServerAction.caller () 0) ++ [ServerAction.worker 0 true]

def unheardSubmit : List (ServerAction Unit) :=
  aboutToBlock ++ [ServerAction.trySubmit ()] ++
    List.replicate 6 (ServerAction.caller () 0) ++ [ServerAction.worker 0 true]

theorem unheardStop_runs :
    ((serverMachine sampleConfig Unit).exec EventMachine.anyAction []
      (serverMachine sampleConfig Unit).start unheardStop).isSome = true := by
  decide +kernel

theorem unheardSubmit_runs :
    ((serverMachine sampleConfig Unit).exec EventMachine.anyAction []
      (serverMachine sampleConfig Unit).start unheardSubmit).isSome = true := by
  decide +kernel

/-- The only worker sleeps through the stop, and with an event in the queue. -/
theorem wakeups_lost :
    (∃ trace, ∃ server : Server Unit,
      (serverMachine sampleConfig Unit).Reaches EventMachine.anyAction trace server ∧
      .shutdownReturned () ∈ trace ∧ server.stopRequested = true ∧
      server.callers () = .idle ∧ server.workers = [⟨0, true⟩] ∧ server.loops 0 = .blocked) ∧
    ∃ trace, ∃ server : Server Unit,
      (serverMachine sampleConfig Unit).Reaches EventMachine.anyAction trace server ∧
      server.queue = [⟨(), 0⟩] ∧ server.callers () = .idle ∧
      server.workers = [⟨0, true⟩] ∧ server.loops 0 = .blocked := by
  constructor
  · exact ⟨_, _, EventMachine.reaches_of_isSome unheardStop_runs, by decide +kernel,
      by decide +kernel, by decide +kernel, by decide +kernel, by decide +kernel⟩
  · exact ⟨_, _, EventMachine.reaches_of_isSome unheardSubmit_runs, by decide +kernel,
      by decide +kernel, by decide +kernel, by decide +kernel⟩

def heardSchedule : List (ServerAction Unit) :=
  aboutToBlock ++ [ServerAction.worker 0 true, .trySubmit ()] ++
    List.replicate 6 (ServerAction.caller () 0) ++ [ServerAction.shutdown () .graceful] ++
    List.replicate 5 (ServerAction.caller () 0)

theorem heardSchedule_runs :
    ((serverMachine sampleConfig Unit).exec wakesHeard []
      (serverMachine sampleConfig Unit).start heardSchedule).isSome = true := by
  decide +kernel

theorem wakeups_kept_sample :
    (∀ id, (Option.get _ heardSchedule_runs).2.loops id ≠ .blocked) ∧
      ∃ handle ∈ (Option.get _ heardSchedule_runs).2.workers,
        (Option.get _ heardSchedule_runs).2.loops handle.id ≠ .blocked := by
  have kept := wakeups_kept (EventMachine.reaches_of_isSome heardSchedule_runs)
  constructor
  · exact kept.stop (by decide +kernel) (.inr (by decide +kernel))
  · exact kept.queue (by decide +kernel) (by decide +kernel) (by decide +kernel)

end Steps

end Server

end MyServer
