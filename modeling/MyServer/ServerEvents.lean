import MyServer.ServerSteps
import MyServer.Handover
import Mathlib.Data.List.Perm.Subperm
import Mathlib.Data.List.Nodup

/-!
The events given to `trySubmit`: each goes through the queue once, in the order of the
pushes; it is counted after its push by its submitter and discounted after its pop by a
worker.
-/

namespace MyServer

variable {Thread : Type}

inductive PushStage
  | before
  | pushed
  | counted
  deriving DecidableEq

def CallerPc.stage : CallerPc → PushStage
  | .countQueued => .pushed
  | .countAccepted | .notifyOne => .counted
  | _ => .before

def LoopPc.discounting : LoopPc Thread → Option (Submission Thread)
  | .discount event => some event
  | _ => none

namespace ServerEvent

def pushed? : ServerEvent Thread → Option (Submission Thread)
  | .pushed event => some event
  | _ => none

def counted? : ServerEvent Thread → Option (Submission Thread)
  | .counted event => some event
  | _ => none

def popped? : ServerEvent Thread → Option (Submission Thread)
  | .popped event => some event
  | _ => none

def discounted? : ServerEvent Thread → Option (Submission Thread)
  | .discounted event => some event
  | _ => none

end ServerEvent

def pushedEvents (trace : List (ServerEvent Thread)) : List (Submission Thread) :=
  trace.filterMap ServerEvent.pushed?

def countedEvents (trace : List (ServerEvent Thread)) : List (Submission Thread) :=
  trace.filterMap ServerEvent.counted?

def poppedEvents (trace : List (ServerEvent Thread)) : List (Submission Thread) :=
  trace.filterMap ServerEvent.popped?

def discountedEvents (trace : List (ServerEvent Thread)) : List (Submission Thread) :=
  trace.filterMap ServerEvent.discounted?

theorem countedEvents_append (trace events : List (ServerEvent Thread)) :
    countedEvents (trace ++ events) = countedEvents trace ++ countedEvents events := by
  simp [countedEvents]

theorem discountedEvents_append (trace events : List (ServerEvent Thread)) :
    discountedEvents (trace ++ events) = discountedEvents trace ++ discountedEvents events := by
  simp [discountedEvents]

theorem pushedEvents_append (trace events : List (ServerEvent Thread)) :
    pushedEvents (trace ++ events) = pushedEvents trace ++ pushedEvents events := by
  simp [pushedEvents]

structure EventView (Thread : Type) where
  pushed : List (Submission Thread)
  counted : List (Submission Thread)
  popped : List (Submission Thread)
  discounted : List (Submission Thread)
  queue : List (Submission Thread)
  submits : Thread → Nat
  stage : Thread → PushStage
  discounting : Nat → Option (Submission Thread)

namespace EventView

def current (view : EventView Thread) (thread : Thread) : Submission Thread :=
  ⟨thread, view.submits thread⟩

def Uncounted (view : EventView Thread) (event : Submission Thread) : Prop :=
  event.call = view.submits event.thread ∧ view.stage event.thread = .pushed

structure Ok (view : EventView Thread) : Prop where
  order : view.pushed = view.popped ++ view.queue
  nodup : view.pushed.Nodup
  called : ∀ event ∈ view.pushed, event.call < view.submits event.thread ∨
    event.call = view.submits event.thread ∧ view.stage event.thread ≠ .before
  current : ∀ thread, view.stage thread ≠ .before → view.current thread ∈ view.pushed
  counted : ∀ event, event ∈ view.counted ↔ event ∈ view.pushed ∧ ¬view.Uncounted event
  countedNodup : view.counted.Nodup
  discounted : Handover view.popped view.discounted view.discounting

section Facts

variable {view : EventView Thread}

theorem Ok.popped_pushed (ok : view.Ok) {event : Submission Thread} (inside : event ∈ view.popped) :
    event ∈ view.pushed := by
  rw [ok.order]
  exact List.mem_append_left _ inside

theorem Ok.counted_le (ok : view.Ok) : view.counted.length ≤ view.pushed.length :=
  (List.subperm_of_subset ok.countedNodup fun event inside =>
    ((ok.counted event).mp inside).1).length_le

theorem Ok.discounted_le (ok : view.Ok) : view.discounted.length ≤ view.popped.length :=
  (List.subperm_of_subset ok.discounted.nodup fun event inside =>
    ((ok.discounted.finished event).mp inside).1).length_le

/-- Without a call between its push and its count, everything pushed is counted. -/
theorem Ok.all_counted (ok : view.Ok) (none : ∀ thread, view.stage thread ≠ .pushed) :
    view.counted.length = view.pushed.length := by
  refine Nat.le_antisymm ok.counted_le ?_
  refine (List.subperm_of_subset ok.nodup fun event inside => ?_).length_le
  exact (ok.counted event).mpr ⟨inside, fun uncounted => none event.thread uncounted.2⟩

theorem Ok.all_discounted (ok : view.Ok) (none : ∀ id, view.discounting id = none) :
    view.discounted.length = view.popped.length := by
  have nodup : view.popped.Nodup := (List.nodup_append.mp (ok.order ▸ ok.nodup)).1
  refine Nat.le_antisymm ok.discounted_le ?_
  refine (List.subperm_of_subset nodup fun event inside => ?_).length_le
  exact ok.discounted.all_done none inside

end Facts

section Operations

variable [DecidableEq Thread] {view : EventView Thread}

/-- `queue_.tryPush` succeeds. -/
theorem Ok.pushes (ok : view.Ok) (thread : Thread) (before : view.stage thread = .before) :
    Ok { view with
      pushed := view.pushed ++ [view.current thread]
      queue := view.queue ++ [view.current thread]
      stage := Function.update view.stage thread .pushed } := by
  have fresh : view.current thread ∉ view.pushed := by
    intro inside
    rcases ok.called _ inside with earlier | ⟨_, started⟩
    · exact Nat.lt_irrefl _ earlier
    · exact started before
  constructor
  case order => simp [ok.order]
  case nodup => simpa using List.Nodup.concat fresh ok.nodup
  case called =>
    rintro ⟨owner, call⟩ inside
    rcases List.mem_append.mp inside with earlier | last
    · by_cases same : owner = thread
      · subst same
        rcases ok.called _ earlier with less | ⟨_, started⟩
        · exact .inl less
        · exact absurd before started
      · simpa [same] using ok.called _ earlier
    · obtain ⟨rfl, rfl⟩ : owner = thread ∧ call = view.submits thread := by
        simpa [EventView.current] using last
      simp
  case current =>
    intro other started
    by_cases same : other = thread
    · subst same
      exact List.mem_append_right _ (List.mem_singleton.mpr rfl)
    · exact List.mem_append_left _ (ok.current other (by simpa [same] using started))
  case counted =>
    rintro ⟨owner, call⟩
    rw [ok.counted, List.mem_append, List.mem_singleton]
    by_cases same : owner = thread
    · subst same
      simp only [Uncounted, before, Function.update_self, EventView.current]
      constructor
      · rintro ⟨inside, _⟩
        refine ⟨.inl inside, fun ⟨now, _⟩ => ?_⟩
        obtain rfl : call = view.submits owner := now
        exact fresh inside
      · rintro ⟨inside | last, counted⟩
        · exact ⟨inside, by simp⟩
        · cases last
          simp at counted
    · simp [Uncounted, EventView.current, same]
  case countedNodup => exact ok.countedNodup
  case discounted => exact ok.discounted

/-- `queuedApprox_.fetch_add`. -/
theorem Ok.counts (ok : view.Ok) (thread : Thread) (pushed : view.stage thread = .pushed) :
    Ok { view with
      counted := view.counted ++ [view.current thread]
      stage := Function.update view.stage thread .counted } := by
  have uncounted : view.Uncounted (view.current thread) := ⟨rfl, pushed⟩
  have fresh : view.current thread ∉ view.counted := fun inside =>
    ((ok.counted _).mp inside).2 uncounted
  constructor
  case order => exact ok.order
  case nodup => exact ok.nodup
  case called =>
    rintro ⟨owner, call⟩ inside
    have called := ok.called _ inside
    by_cases same : owner = thread
    · subst same
      simpa [pushed] using called
    · simpa [same] using called
  case current =>
    intro other started
    by_cases same : other = thread
    · subst same
      exact ok.current other (by simp [pushed])
    · exact ok.current other (by simpa [same] using started)
  case counted =>
    rintro ⟨owner, call⟩
    rw [List.mem_append, ok.counted, List.mem_singleton]
    by_cases same : owner = thread
    · subst same
      simp only [Uncounted, pushed, and_true, Function.update_self, EventView.current,
        Submission.mk.injEq, true_and, reduceCtorEq, and_false, not_false_eq_true]
      constructor
      · rintro (⟨inside, _⟩ | rfl)
        · exact inside
        · exact ok.current owner (by simp [pushed])
      · intro inside
        by_cases now : call = view.submits owner
        · exact .inr now
        · exact .inl ⟨inside, now⟩
    · simp [Uncounted, EventView.current, same]
  case countedNodup => simpa using List.Nodup.concat fresh ok.countedNodup
  case discounted => exact ok.discounted

theorem Ok.returns (ok : view.Ok) (thread : Thread) (settled : view.stage thread ≠ .pushed) :
    Ok { view with
      submits := Function.update view.submits thread (view.submits thread + 1)
      stage := Function.update view.stage thread .before } := by
  constructor
  case order => exact ok.order
  case nodup => exact ok.nodup
  case called =>
    rintro ⟨owner, call⟩ inside
    have called := ok.called _ inside
    by_cases same : owner = thread
    · subst same
      refine .inl ?_
      simp only [Function.update_self] at called ⊢
      omega
    · simpa [same] using called
  case current =>
    intro other started
    by_cases same : other = thread
    · simp [same] at started
    · have inside := ok.current other (by simpa [same] using started)
      simpa [EventView.current, same] using inside
  case counted =>
    rintro ⟨owner, call⟩
    rw [ok.counted]
    by_cases same : owner = thread
    · subst same
      simp [Uncounted, settled]
    · simp [Uncounted, same]
  case countedNodup => exact ok.countedNodup
  case discounted => exact ok.discounted

omit [DecidableEq Thread] in
/-- `queue_.tryPop` succeeds. -/
theorem Ok.pops (ok : view.Ok) (id : Nat) {event : Submission Thread}
    {rest : List (Submission Thread)} (front : view.queue = event :: rest)
    (free : view.discounting id = none) :
    Ok { view with
      popped := view.popped ++ [event]
      queue := rest
      discounting := Function.update view.discounting id (some event) } := by
  have order : view.pushed = view.popped ++ event :: rest := front ▸ ok.order
  have fresh : event ∉ view.popped := by
    intro inside
    have nodup := order ▸ ok.nodup
    exact (List.nodup_append.mp nodup).2.2 event inside event List.mem_cons_self rfl
  constructor
  case order => simp [order]
  case nodup => exact ok.nodup
  case called => exact ok.called
  case current => exact ok.current
  case counted => exact ok.counted
  case countedNodup => exact ok.countedNodup
  case discounted => exact ok.discounted.takes free fresh

omit [DecidableEq Thread] in
/-- `queuedApprox_.fetch_sub`. -/
theorem Ok.discounts (ok : view.Ok) (id : Nat) {event : Submission Thread}
    (taken : view.discounting id = some event) :
    Ok { view with
      discounted := view.discounted ++ [event]
      discounting := Function.update view.discounting id none } := by
  constructor
  case order => exact ok.order
  case nodup => exact ok.nodup
  case called => exact ok.called
  case current => exact ok.current
  case counted => exact ok.counted
  case countedNodup => exact ok.countedNodup
  case discounted => exact ok.discounted.finishes taken

end Operations

end EventView

namespace Server

def eventView (server : Server Thread) (trace : List (ServerEvent Thread)) : EventView Thread where
  pushed := pushedEvents trace
  counted := countedEvents trace
  popped := poppedEvents trace
  discounted := discountedEvents trace
  queue := server.queue
  submits := server.submits
  stage := fun thread => (server.callers thread).stage
  discounting := fun id => (server.loops id).discounting

structure EventsOk (trace : List (ServerEvent Thread)) (server : Server Thread) : Prop where
  events : (server.eventView trace).Ok
  absent : ∀ id, server.spawned ≤ id → server.loops id = .absent

variable {trace events : List (ServerEvent Thread)} {server next : Server Thread}
variable {config : ServerConfig} {thread : Thread} {id : Nat}

/-- The view after a step that shows the events, its four lists extended by theirs. -/
theorem eventView_append (server : Server Thread) (trace events : List (ServerEvent Thread)) :
    server.eventView (trace ++ events) =
      { server.eventView trace with
        pushed := pushedEvents trace ++ pushedEvents events
        counted := countedEvents trace ++ countedEvents events
        popped := poppedEvents trace ++ poppedEvents events
        discounted := discountedEvents trace ++ discountedEvents events } := by
  simp [eventView, pushedEvents, countedEvents, poppedEvents, discountedEvents]

theorem EventsOk.alive (ok : EventsOk trace server) (present : server.loops id ≠ .absent) :
    id < server.spawned := by
  by_contra beyond
  exact present (ok.absent id (Nat.le_of_not_lt beyond))

structure Unseen (events : List (ServerEvent Thread)) : Prop where
  pushed : pushedEvents events = []
  counted : countedEvents events = []
  popped : poppedEvents events = []
  discounted : discountedEvents events = []

theorem EventsOk.frame (ok : EventsOk trace server) (unseen : Unseen events)
    (stage : ∀ thread, (next.callers thread).stage = (server.callers thread).stage)
    (discounting : ∀ id, (next.loops id).discounting = (server.loops id).discounting)
    (submits : next.submits = server.submits) (queue : next.queue = server.queue)
    (absent : ∀ id, next.spawned ≤ id → next.loops id = .absent) :
    EventsOk (trace ++ events) next where
  events := by
    have same : next.eventView trace = server.eventView trace := by
      simp [eventView, stage, discounting, submits, queue]
    rw [eventView_append, same, unseen.pushed, unseen.counted, unseen.popped, unseen.discounted]
    simp only [List.append_nil]
    exact ok.events
  absent := absent

theorem EventsOk.loop (ok : EventsOk trace server) (unseen : Unseen events) {pc : LoopPc Thread}
    (present : server.loops id ≠ .absent)
    (loops : next.loops = Function.update server.loops id pc)
    (discounting : pc.discounting = (server.loops id).discounting)
    (callers : next.callers = server.callers) (submits : next.submits = server.submits)
    (queue : next.queue = server.queue) (spawned : next.spawned = server.spawned) :
    EventsOk (trace ++ events) next := by
  refine ok.frame unseen (fun _ => by rw [callers]) ?_ submits queue ?_
  · intro other
    rw [loops]
    exact reads_same LoopPc.discounting discounting other
  · intro other beyond
    have different : other ≠ id := by
      rintro rfl
      exact absurd (ok.alive present) (by omega)
    rw [loops, Function.update_of_ne different]
    exact ok.absent other (by omega)

theorem absent_update (ok : EventsOk trace server) (present : server.loops id ≠ .absent)
    (pc : LoopPc Thread) (other : Nat) (beyond : server.spawned ≤ other) :
    Function.update server.loops id pc other = .absent := by
  have different : other ≠ id := by
    rintro rfl
    exact absurd (ok.alive present) (by omega)
  rw [Function.update_of_ne different]
  exact ok.absent other beyond

theorem EventsOk.pops (ok : EventsOk trace server) {event : Submission Thread}
    {queue : List (Submission Thread)} (here : server.loops id = .tryPop)
    (found : server.queue = event :: queue) :
    EventsOk (trace ++ [.popped event]) ({ server with queue }.loopGoto id (.discount event)) where
  events := by
    have popped := ok.events.pops id found (by simp [eventView, here, LoopPc.discounting])
    rw [eventView_append]
    change EventView.Ok ⟨pushedEvents trace ++ [], countedEvents trace ++ [],
      poppedEvents trace ++ [_], discountedEvents trace ++ [], _, _, _,
      fun other => (Function.update server.loops id _ other).discounting⟩
    rw [reads_update LoopPc.discounting]
    simp only [List.append_nil]
    exact popped
  absent := absent_update ok (by simp [here]) _

theorem EventsOk.discounts (ok : EventsOk trace server) {event : Submission Thread}
    (here : server.loops id = .discount event) :
    EventsOk (trace ++ [.discounted event])
      ({ server with queuedApprox := server.queuedApprox - 1 }.loopGoto id
        (.inflightInc event)) where
  events := by
    have discounted := ok.events.discounts id
      (show (server.loops id).discounting = some event by rw [here]; rfl)
    rw [eventView_append]
    change EventView.Ok ⟨pushedEvents trace ++ [], countedEvents trace ++ [],
      poppedEvents trace ++ [], discountedEvents trace ++ [_], _, _, _,
      fun other => (Function.update server.loops id _ other).discounting⟩
    rw [reads_update LoopPc.discounting]
    simp only [List.append_nil]
    exact discounted
  absent := absent_update ok (by simp [here]) _

theorem unseen_nil : Unseen ([] : List (ServerEvent Thread)) := ⟨rfl, rfl, rfl, rfl⟩

theorem decodeFrom_discounting (config : ServerConfig) (event : Submission Thread) (adapter : Nat) :
    (decodeFrom config event adapter).discounting = none := by
  unfold decodeFrom
  split <;> rfl

theorem EventsOk.worker (ok : EventsOk trace server)
    (moved : LoopMove config server id next events) : EventsOk (trace ++ events) next := by
  have present := moved.present.1
  cases moved with
  | pops here found => exact ok.pops here found
  | discounts here => exact ok.discounts here
  | begins here | decodesNot here =>
      exact ok.loop ⟨rfl, rfl, rfl, rfl⟩ present rfl (by rw [decodeFrom_discounting, here]; rfl)
        rfl rfl rfl rfl
  | locks here free =>
      refine ok.loop unseen_nil present rfl ?_ rfl rfl rfl rfl
      rcases here with here | here <;> rw [here] <;> rfl
  | decodes here | parses here | parsesNot here | executes here | executesNot here
  | distributes here | countsError here | ends here | blocks here | unlocks here =>
      exact ok.loop ⟨rfl, rfl, rfl, rfl⟩ present rfl (by rw [here]; rfl) rfl rfl rfl rfl
  | _ =>
      rename_i here _
      exact ok.loop unseen_nil present rfl (by rw [here]; rfl) rfl rfl rfl rfl

section Callers

variable [DecidableEq Thread]

theorem EventsOk.goto (ok : EventsOk trace server) (unseen : Unseen events) {pc : CallerPc}
    (callers : next.callers = Function.update server.callers thread pc)
    (stage : pc.stage = (server.callers thread).stage)
    (discounting : ∀ id, (next.loops id).discounting = (server.loops id).discounting)
    (submits : next.submits = server.submits) (queue : next.queue = server.queue)
    (absent : ∀ id, next.spawned ≤ id → next.loops id = .absent) :
    EventsOk (trace ++ events) next := by
  refine ok.frame unseen ?_ discounting submits queue absent
  intro other
  rw [callers]
  exact reads_same CallerPc.stage stage other

theorem EventsOk.pushes (ok : EventsOk trace server) (here : server.callers thread = .tryPush) :
    EventsOk (trace ++ [.pushed (server.submission thread)])
      ({ server with queue := server.queue ++ [server.submission thread] }.goto thread
        .countQueued) where
  events := by
    have pushed := ok.events.pushes thread (by simp [eventView, here, CallerPc.stage])
    rw [eventView_append]
    change EventView.Ok ⟨pushedEvents trace ++ [_], countedEvents trace ++ [],
      poppedEvents trace ++ [], discountedEvents trace ++ [], _, _,
      fun other => (Function.update server.callers thread _ other).stage, _⟩
    rw [reads_update CallerPc.stage]
    simp only [List.append_nil]
    exact pushed
  absent := ok.absent

theorem EventsOk.counts (ok : EventsOk trace server)
    (here : server.callers thread = .countQueued) :
    EventsOk (trace ++ [.counted (server.submission thread)])
      ({ server with queuedApprox := server.queuedApprox + 1 }.goto thread .countAccepted) where
  events := by
    have counted := ok.events.counts thread (by simp [eventView, here, CallerPc.stage])
    rw [eventView_append]
    change EventView.Ok ⟨pushedEvents trace ++ [], countedEvents trace ++ [_],
      poppedEvents trace ++ [], discountedEvents trace ++ [], _, _,
      fun other => (Function.update server.callers thread _ other).stage, _⟩
    rw [reads_update CallerPc.stage]
    simp only [List.append_nil]
    exact counted
  absent := ok.absent

theorem EventsOk.returns (ok : EventsOk trace server) (unseen : Unseen events)
    (settled : (server.callers thread).stage ≠ .pushed)
    (callers : next.callers = Function.update server.callers thread .idle)
    (submits : next.submits = Function.update server.submits thread (server.submits thread + 1))
    (discounting : ∀ id, (next.loops id).discounting = (server.loops id).discounting)
    (queue : next.queue = server.queue)
    (absent : ∀ id, next.spawned ≤ id → next.loops id = .absent) :
    EventsOk (trace ++ events) next where
  events := by
    have returned := ok.events.returns thread settled
    rw [eventView_append, unseen.pushed, unseen.counted, unseen.popped, unseen.discounted]
    simp only [List.append_nil, eventView, callers, submits, discounting, queue,
      reads_update CallerPc.stage]
    exact returned
  absent := absent

omit [DecidableEq Thread] in
theorem afterState_stage (config : ServerConfig) (event : Submission Thread) :
    (server.afterState config event).stage = .before := by
  unfold afterState
  split
  · rfl
  · split
    · rfl
    · split <;> rfl

theorem EventsOk.spawns (ok : EventsOk trace server) (unseen : Unseen events) {pc : CallerPc}
    {i : Nat} (here : server.callers thread = .spawn i) (stage : pc.stage = .before) :
    EventsOk (trace ++ events)
      ({ server with
          workers := server.workers ++ [WorkerHandle.mk server.spawned true]
          loops := Function.update server.loops server.spawned .tryPop
          spawned := server.spawned + 1 }.goto thread pc) := by
  refine ok.goto unseen rfl (by rw [stage, here]; rfl) ?_ rfl rfl ?_
  · intro id
    by_cases same : id = server.spawned
    · subst same
      simp [Server.goto, ok.absent server.spawned (Nat.le_refl _), LoopPc.discounting]
    · simp [Server.goto, same]
  · intro id (beyond : server.spawned + 1 ≤ id)
    have different : id ≠ server.spawned := by omega
    simpa [Server.goto, different] using ok.absent id (by omega)

theorem wakeAll_discounting (loops : Nat → LoopPc Thread) (id : Nat) :
    (wakeAll loops id).discounting = (loops id).discounting := by
  unfold wakeAll
  split
  · rename_i blocked
    rw [blocked]
    rfl
  · rfl

theorem wakeAll_absent {loops : Nat → LoopPc Thread} (absent : loops id = .absent) :
    wakeAll loops id = .absent := by
  simp [wakeAll, absent]

theorem EventsOk.caller (ok : EventsOk trace server)
    (moved : CallerMove config server thread next events) : EventsOk (trace ++ events) next := by
  cases moved with
  | pushes here room => exact ok.pushes here
  | counts here => exact ok.counts here
  | spawns here more => exact ok.spawns ⟨rfl, rfl, rfl, rfl⟩ here rfl
  | spawnsLast here last => exact ok.spawns ⟨rfl, rfl, rfl, rfl⟩ here rfl
  | notifiesAll here =>
      exact ok.goto ⟨rfl, rfl, rfl, rfl⟩ rfl (by rw [here]; rfl) (wakeAll_discounting _) rfl rfl
        fun id beyond => wakeAll_absent (ok.absent id beyond)
  | @notifiesOne wakes here picked =>
      have present : server.loops wakes ≠ .absent := by simp [picked]
      refine ok.returns ⟨rfl, rfl, rfl, rfl⟩ (by simp [here, CallerPc.stage]) rfl rfl ?_ rfl
        (absent_update ok present .notified)
      exact reads_same LoopPc.discounting (by rw [picked]; rfl)
  | notifiesNobody here nobody =>
      exact ok.returns ⟨rfl, rfl, rfl, rfl⟩ (by simp [here, CallerPc.stage]) rfl rfl
        (fun _ => rfl) rfl ok.absent
  | rejects here =>
      exact ok.returns ⟨rfl, rfl, rfl, rfl⟩ (by simp [here, CallerPc.stage]) rfl rfl
        (fun _ => rfl) rfl ok.absent
  | terminates here unjoined =>
      exact ok.frame ⟨rfl, rfl, rfl, rfl⟩ (fun _ => rfl) (fun _ => rfl) rfl rfl ok.absent
  | checksState here =>
      exact ok.goto unseen_nil rfl (by rw [afterState_stage, here]; rfl) (fun _ => rfl) rfl rfl
        ok.absent
  | clearsStop here | clearsQueued here | storesMode here | storesStopping here
  | requestsStop here | storesStopped here | accepts here =>
      exact ok.goto ⟨rfl, rfl, rfl, rfl⟩ rfl (by rw [here]; rfl) (fun _ => rfl) rfl rfl ok.absent
  | joins here found done =>
      exact ok.goto unseen_nil rfl (by rw [here]; rfl) (fun _ => rfl) rfl rfl ok.absent
  | _ =>
      rename_i here _
      exact ok.goto ⟨rfl, rfl, rfl, rfl⟩ rfl (by rw [here]; rfl) (fun _ => rfl) rfl rfl ok.absent

theorem EventsOk.step (ok : EventsOk trace server) {action : ServerAction Thread}
    (moved : Move config server action next events) : EventsOk (trace ++ events) next := by
  cases moved with
  | call here entry =>
      cases entry <;>
        exact ok.goto ⟨rfl, rfl, rfl, rfl⟩ rfl (by rw [here]; rfl) (fun _ => rfl) rfl rfl ok.absent
  | caller moved => exact ok.caller moved
  | worker moved => exact ok.worker moved
  | wake here =>
      exact ok.loop unseen_nil (by simp [here]) rfl (by rw [here]; rfl) rfl rfl rfl rfl

omit [DecidableEq Thread] in
theorem EventsOk.initial : EventsOk [] (Server.initial : Server Thread) := by
  constructor
  case absent => exact fun _ _ => rfl
  case events =>
    constructor
    case discounted => exact .initial
    all_goals simp [eventView, Server.initial, pushedEvents, countedEvents, poppedEvents,
      CallerPc.stage]

theorem events_ok (reached : (serverMachine config Thread).Reaches
    EventMachine.anyAction trace server) : EventsOk trace server :=
  reached.invariant EventsOk .initial fun _ _ _ _ _ ok _ stepped => ok.step (step_move stepped).2

end Callers

end Server

end MyServer
