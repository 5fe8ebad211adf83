import MyServer.LogEngineDelivery
import MyServer.ThreadCount
import Mathlib.Data.List.Sort

/-!
The `enqueue` calls of a run. Every call ends in `enqueued_` or in `dropped_`, and the
envelopes of one thread enter the queue in the order of its calls.
-/

namespace MyServer

variable {Thread : Type} {list : FreeListSteps LogRecord}

/-- How far a running `enqueue` call has come; it is accepted once its record is in the queue. -/
inductive CallStage
  | undecided
  | accepted
  deriving DecidableEq

namespace CallStage

def begun : Option CallStage → Nat
  | none => 0
  | some _ => 1

def appended : Option CallStage → Nat
  | some .accepted => 1
  | _ => 0

def isAccepted : Option CallStage → Bool
  | some .accepted => true
  | _ => false

end CallStage

def ClientPc.call : ClientPc list → Option CallStage
  | .idle | .stop | .join => none
  | .push (.linkPrev _ _) | .countEnqueued => some .accepted
  | _ => some .undecided

def Envelope.InOrder (first second : Envelope Thread) : Prop :=
  first.thread = second.thread → first.call < second.call

theorem Envelope.nodup {envelopes : List (Envelope Thread)}
    (order : envelopes.Pairwise Envelope.InOrder) : envelopes.Nodup :=
  order.imp fun {first second} inOrder same =>
    absurd (inOrder (congrArg Envelope.thread same)) (by simp [same])

structure CallView (Thread : Type) where
  called : List (Envelope Thread)
  queued : List (Envelope Thread)
  dropped : List (Envelope Thread)
  enqueued : List (Envelope Thread)
  returned : Thread → Nat
  stage : Thread → Option CallStage

def callsOf [DecidableEq Thread] (thread : Thread) (envelopes : List (Envelope Thread)) :
    List (Envelope Thread) :=
  envelopes.filter fun envelope => envelope.thread = thread

namespace CallView

def current (view : CallView Thread) (thread : Thread) : Envelope Thread :=
  ⟨thread, view.returned thread⟩

structure Ok [Fintype Thread] (view : CallView Thread) : Prop where
  calls : view.called.Pairwise Envelope.InOrder
  begun : ∀ envelope, envelope ∈ view.called ↔
    envelope.call < view.returned envelope.thread + CallStage.begun (view.stage envelope.thread)
  order : view.queued.Pairwise Envelope.InOrder
  appended : ∀ envelope ∈ view.queued, envelope.call <
    view.returned envelope.thread + CallStage.appended (view.stage envelope.thread)
  running : ∀ thread, view.stage thread = some .accepted → view.current thread ∈ view.queued
  refused : ∀ envelope ∈ view.dropped,
    envelope.call < view.returned envelope.thread ∧ envelope ∉ view.queued
  accepted : ∀ envelope, envelope ∈ view.enqueued ↔
    envelope ∈ view.queued ∧ envelope.call < view.returned envelope.thread
  total : view.called.length =
    view.enqueued.length + view.dropped.length + countWhere Option.isSome view.stage
  uncounted : view.queued.length =
    view.enqueued.length + countWhere CallStage.isAccepted view.stage

variable [Fintype Thread] [DecidableEq Thread] {view : CallView Thread} {thread : Thread}

omit [Fintype Thread] [DecidableEq Thread] in
/-- An envelope after all others of its thread. -/
theorem order_snoc {envelopes : List (Envelope Thread)} {last : Envelope Thread}
    (order : envelopes.Pairwise Envelope.InOrder)
    (later : ∀ envelope ∈ envelopes, envelope.thread = last.thread → envelope.call < last.call) :
    (envelopes ++ [last]).Pairwise Envelope.InOrder := by
  refine List.pairwise_append.mpr ⟨order, List.pairwise_singleton .., ?_⟩
  intro envelope inside other single
  obtain rfl := List.mem_singleton.mp single
  exact later envelope inside

theorem Ok.begins (ok : view.Ok) (thread : Thread)
    (idle : view.stage thread = none) :
    CallView.Ok { view with
      called := view.called ++ [view.current thread]
      stage := Function.update view.stage thread (some .undecided) } where
  calls := by
    apply order_snoc ok.calls
    rintro ⟨owner, call⟩ inside (rfl : owner = thread)
    simpa [idle, CallStage.begun, current] using (ok.begun _).mp inside
  begun := by
    rintro ⟨owner, call⟩
    rw [List.mem_append, ok.begun, List.mem_singleton]
    by_cases same : owner = thread
    · subst same
      simp only [idle, CallStage.begun, current, Function.update_self, Envelope.mk.injEq, true_and]
      omega
    · simp [same, current]
  order := ok.order
  appended := by
    rintro ⟨owner, call⟩ inside
    have bound := ok.appended _ inside
    by_cases same : owner = thread
    · subst same
      simpa [idle, CallStage.appended] using bound
    · simpa [same] using bound
  running := by
    intro other accepted
    by_cases same : other = thread
    · simp [same] at accepted
    · exact ok.running other (by simpa [same] using accepted)
  refused := ok.refused
  accepted := ok.accepted
  total := by
    have counted := countWhere_update Option.isSome view.stage thread (some .undecided)
    have total := ok.total
    simp only [idle, Option.isSome_none, Option.isSome_some, Bool.false_eq_true, if_true,
      if_false] at counted
    simp only [List.length_append, List.length_singleton]
    omega
  uncounted := by
    have counted := countWhere_update CallStage.isAccepted view.stage thread (some .undecided)
    simp only [idle, CallStage.isAccepted, Bool.false_eq_true, if_false, Nat.add_zero] at counted
    rw [counted]
    exact ok.uncounted

theorem Ok.appends (ok : view.Ok) (thread : Thread)
    (undecided : view.stage thread = some .undecided) :
    CallView.Ok { view with
      queued := view.queued ++ [view.current thread]
      stage := Function.update view.stage thread (some .accepted) } where
  calls := ok.calls
  begun := by
    rintro ⟨owner, call⟩
    rw [ok.begun]
    by_cases same : owner = thread
    · subst same
      simp [undecided, CallStage.begun]
    · simp [same]
  order := by
    apply order_snoc ok.order
    rintro ⟨owner, call⟩ inside (rfl : owner = thread)
    simpa [undecided, CallStage.appended, current] using ok.appended _ inside
  appended := by
    rintro ⟨owner, call⟩ inside
    rcases List.mem_append.mp inside with before | last
    · have bound := ok.appended _ before
      by_cases same : owner = thread
      · subst same
        simp only [undecided, CallStage.appended, Function.update_self] at bound ⊢
        omega
      · simpa [same] using bound
    · obtain ⟨rfl, rfl⟩ : owner = thread ∧ call = view.returned thread := by
        simpa [current] using last
      simp [CallStage.appended]
  running := by
    intro other accepted
    by_cases same : other = thread
    · subst same
      exact List.mem_append_right _ (List.mem_singleton.mpr rfl)
    · exact List.mem_append_left _ (ok.running other (by simpa [same] using accepted))
  refused := by
    intro envelope inside
    obtain ⟨bound, outside⟩ := ok.refused envelope inside
    refine ⟨bound, ?_⟩
    rw [List.mem_append, List.mem_singleton, not_or]
    refine ⟨outside, ?_⟩
    rintro rfl
    exact Nat.lt_irrefl _ bound
  accepted := by
    intro envelope
    rw [ok.accepted, List.mem_append, List.mem_singleton]
    constructor
    · exact fun ⟨inside, bound⟩ => ⟨.inl inside, bound⟩
    · rintro ⟨inside | rfl, bound⟩
      · exact ⟨inside, bound⟩
      · exact absurd bound (Nat.lt_irrefl _)
  total := by
    have counted := countWhere_update Option.isSome view.stage thread (some .accepted)
    simp only [undecided, Option.isSome_some, if_true, Nat.add_right_cancel_iff] at counted
    rw [counted]
    exact ok.total
  uncounted := by
    have counted := countWhere_update CallStage.isAccepted view.stage thread (some .accepted)
    have uncounted := ok.uncounted
    simp only [undecided, CallStage.isAccepted, Bool.false_eq_true, if_false, if_true] at counted
    simp only [List.length_append, List.length_singleton]
    omega

omit [DecidableEq Thread] in
/-- The envelope of a call that is not accepted is not in the queue. -/
theorem Ok.current_outside (ok : view.Ok) (undecided : view.stage thread = some .undecided) :
    view.current thread ∉ view.queued := fun inside => by
  have bound := ok.appended _ inside
  simp [current, undecided, CallStage.appended] at bound

/-! A call that returns, with its envelope dropped or enqueued. -/

omit [Fintype Thread] in
theorem returned_le (view : CallView Thread) (thread owner : Thread) :
    view.returned owner ≤
      Function.update view.returned thread (view.returned thread + 1) owner := by
  by_cases same : owner = thread
  · rw [same, Function.update_self]
    exact Nat.le_succ _
  · rw [Function.update_of_ne same]

theorem Ok.returns_begun (ok : view.Ok) (busy : view.stage thread ≠ none)
    (envelope : Envelope Thread) : envelope ∈ view.called ↔ envelope.call <
      Function.update view.returned thread (view.returned thread + 1) envelope.thread +
        CallStage.begun (Function.update view.stage thread none envelope.thread) := by
  obtain ⟨owner, call⟩ := envelope
  rw [ok.begun]
  by_cases same : owner = thread
  · subst same
    obtain ⟨stage, here⟩ := Option.ne_none_iff_exists'.mp busy
    simp [here, CallStage.begun]
  · simp [same]

theorem Ok.returns_appended (ok : view.Ok) (thread : Thread) {envelope : Envelope Thread}
    (inside : envelope ∈ view.queued) : envelope.call <
      Function.update view.returned thread (view.returned thread + 1) envelope.thread +
        CallStage.appended (Function.update view.stage thread none envelope.thread) := by
  have bound := ok.appended _ inside
  obtain ⟨owner, call⟩ := envelope
  by_cases same : owner = thread
  · subst same
    have one : CallStage.appended (view.stage owner) ≤ 1 := by
      unfold CallStage.appended
      split <;> omega
    simp only [Function.update_self] at bound ⊢
    omega
  · simpa [same] using bound

theorem Ok.returns_running (ok : view.Ok) {other : Thread}
    (accepted : Function.update view.stage thread none other = some .accepted) :
    ⟨other, Function.update view.returned thread (view.returned thread + 1) other⟩ ∈
      view.queued := by
  by_cases same : other = thread
  · simp [same] at accepted
  · rw [Function.update_of_ne same] at accepted ⊢
    exact ok.running other accepted

/-- `dropped_` is incremented and `enqueue` returns. -/
theorem Ok.drops (ok : view.Ok) (thread : Thread)
    (undecided : view.stage thread = some .undecided) :
    CallView.Ok { view with
      dropped := view.dropped ++ [view.current thread]
      returned := Function.update view.returned thread (view.returned thread + 1)
      stage := Function.update view.stage thread none } where
  calls := ok.calls
  begun := ok.returns_begun (by simp [undecided])
  order := ok.order
  appended := fun _ => ok.returns_appended thread
  running := fun _ => ok.returns_running
  refused := by
    rintro ⟨owner, call⟩ inside
    rcases List.mem_append.mp inside with before | last
    · obtain ⟨bound, outside⟩ := ok.refused _ before
      exact ⟨bound.trans_le (view.returned_le thread owner), outside⟩
    · obtain ⟨rfl, rfl⟩ : owner = thread ∧ call = view.returned thread := by
        simpa [current] using last
      exact ⟨by simp, ok.current_outside undecided⟩
  accepted := by
    rintro ⟨owner, call⟩
    rw [ok.accepted]
    by_cases same : owner = thread
    · subst same
      simp only [Function.update_self]
      constructor
      · exact fun ⟨inside, bound⟩ => ⟨inside, by omega⟩
      · intro ⟨inside, _⟩
        have bound := ok.appended _ inside
        exact ⟨inside, by simpa [undecided, CallStage.appended] using bound⟩
    · simp [same]
  total := by
    have counted := countWhere_update Option.isSome view.stage thread none
    have total := ok.total
    simp only [undecided, Option.isSome_none, Option.isSome_some, Bool.false_eq_true, if_true,
      if_false] at counted
    simp only [List.length_append, List.length_singleton]
    omega
  uncounted := by
    have counted := countWhere_update CallStage.isAccepted view.stage thread none
    simp only [undecided, CallStage.isAccepted, Bool.false_eq_true, if_false,
      Nat.add_zero] at counted
    rw [counted]
    exact ok.uncounted

/-- `enqueued_` is incremented and `enqueue` returns. -/
theorem Ok.counts (ok : view.Ok) (thread : Thread)
    (accepted : view.stage thread = some .accepted) :
    CallView.Ok { view with
      enqueued := view.enqueued ++ [view.current thread]
      returned := Function.update view.returned thread (view.returned thread + 1)
      stage := Function.update view.stage thread none } where
  calls := ok.calls
  begun := ok.returns_begun (by simp [accepted])
  order := ok.order
  appended := fun _ => ok.returns_appended thread
  running := fun _ => ok.returns_running
  refused := by
    rintro ⟨owner, call⟩ inside
    obtain ⟨bound, outside⟩ := ok.refused _ inside
    exact ⟨bound.trans_le (view.returned_le thread owner), outside⟩
  accepted := by
    rintro ⟨owner, call⟩
    rw [List.mem_append, ok.accepted, List.mem_singleton]
    by_cases same : owner = thread
    · subst same
      simp only [Function.update_self, current, Envelope.mk.injEq, true_and]
      constructor
      · rintro (⟨inside, bound⟩ | rfl)
        · exact ⟨inside, by omega⟩
        · exact ⟨ok.running owner accepted, by omega⟩
      · intro ⟨inside, bound⟩
        rcases Nat.lt_succ_iff_lt_or_eq.mp bound with before | last
        · exact .inl ⟨inside, before⟩
        · exact .inr last
    · simp [same, current]
  total := by
    have counted := countWhere_update Option.isSome view.stage thread none
    have total := ok.total
    simp only [accepted, Option.isSome_none, Option.isSome_some, Bool.false_eq_true, if_true,
      if_false] at counted
    simp only [List.length_append, List.length_singleton]
    omega
  uncounted := by
    have counted := countWhere_update CallStage.isAccepted view.stage thread none
    have uncounted := ok.uncounted
    simp only [accepted, CallStage.isAccepted, Bool.false_eq_true, if_false, if_true] at counted
    simp only [List.length_append, List.length_singleton]
    omega

omit [DecidableEq Thread] in
theorem Ok.queued_called (ok : view.Ok) {envelope : Envelope Thread}
    (inside : envelope ∈ view.queued) : envelope ∈ view.called := by
  have bound := ok.appended envelope inside
  refine (ok.begun envelope).mpr (Nat.lt_of_lt_of_le bound (Nat.add_le_add_left ?_ _))
  cases view.stage envelope.thread with
  | none => exact Nat.le_refl _
  | some stage => cases stage <;> simp [CallStage.appended, CallStage.begun]

/-- The envelopes of a thread enter the queue in the order of its calls. -/
theorem Ok.program_order (ok : view.Ok) (thread : Thread) :
    (callsOf thread view.queued).Sublist (callsOf thread view.called) := by
  let Before (first second : Envelope Thread) : Prop :=
    first.thread = second.thread ∧ first.call < second.call
  have antisymm : Std.Antisymm Before := ⟨fun first second before after =>
    absurd (Nat.lt_trans before.2 after.2) (Nat.lt_irrefl _)⟩
  have sorted : ∀ {envelopes : List (Envelope Thread)}, envelopes.Pairwise Envelope.InOrder →
      (callsOf thread envelopes).Pairwise Before := by
    intro envelopes order
    refine (order.filter _).imp_of_mem ?_
    intro first second firstIn secondIn inOrder
    have mine : first.thread = thread := by simpa using (List.mem_filter.mp firstIn).2
    have other : second.thread = thread := by simpa using (List.mem_filter.mp secondIn).2
    have same : first.thread = second.thread := mine.trans other.symm
    exact ⟨same, inOrder same⟩
  have nodup : (callsOf thread view.queued).Nodup := (Envelope.nodup ok.order).filter _
  have subset : callsOf thread view.queued ⊆ callsOf thread view.called := by
    intro envelope inside
    obtain ⟨queued, mine⟩ := List.mem_filter.mp inside
    exact List.mem_filter.mpr ⟨ok.queued_called queued, mine⟩
  exact List.sublist_of_subperm_of_pairwise (List.subperm_of_subset nodup subset)
    (sorted ok.order) (sorted ok.calls)

end CallView

namespace EngineEvent

def called? : EngineEvent Thread → Option (Envelope Thread)
  | .enqueueCalled envelope => some envelope
  | _ => none

def dropped? : EngineEvent Thread → Option (Envelope Thread)
  | .dropped envelope => some envelope
  | _ => none

def enqueued? : EngineEvent Thread → Option (Envelope Thread)
  | .enqueued envelope => some envelope
  | _ => none

end EngineEvent

def calledEnvelopes (trace : List (EngineEvent Thread)) : List (Envelope Thread) :=
  trace.filterMap EngineEvent.called?

def droppedEnvelopes (trace : List (EngineEvent Thread)) : List (Envelope Thread) :=
  trace.filterMap EngineEvent.dropped?

def enqueuedEnvelopes (trace : List (EngineEvent Thread)) : List (Envelope Thread) :=
  trace.filterMap EngineEvent.enqueued?

theorem mem_droppedEnvelopes {trace : List (EngineEvent Thread)} {envelope : Envelope Thread} :
    envelope ∈ droppedEnvelopes trace ↔ .dropped envelope ∈ trace := by
  simp only [droppedEnvelopes, List.mem_filterMap]
  constructor
  · rintro ⟨event, inside, found⟩
    cases event <;> simp_all [EngineEvent.dropped?]
  · exact fun inside => ⟨_, inside, rfl⟩

theorem mem_enqueuedEnvelopes {trace : List (EngineEvent Thread)} {envelope : Envelope Thread} :
    envelope ∈ enqueuedEnvelopes trace ↔ .enqueued envelope ∈ trace := by
  simp only [enqueuedEnvelopes, List.mem_filterMap]
  constructor
  · rintro ⟨event, inside, found⟩
    cases event <;> simp_all [EngineEvent.enqueued?]
  · exact fun inside => ⟨_, inside, rfl⟩

namespace LogEngine

def callView (state : LogEngine list Thread) (trace : List (EngineEvent Thread)) :
    CallView Thread where
  called := calledEnvelopes trace
  queued := queuedEnvelopes trace
  dropped := droppedEnvelopes trace
  enqueued := enqueuedEnvelopes trace
  returned := state.returned
  stage := fun thread => (state.clients thread).call

structure CallsOk [Fintype Thread] (trace : List (EngineEvent Thread))
    (state : LogEngine list Thread) : Prop where
  calls : (state.callView trace).Ok
  enqueued : state.enqueued = UInt64.ofNat (enqueuedEnvelopes trace).length
  dropped : state.dropped = UInt64.ofNat (droppedEnvelopes trace).length
  written : state.written = UInt64.ofNat (writtenCount trace)

variable {trace events : List (EngineEvent Thread)} {state next : LogEngine list Thread}
variable {poolSize : Nat} {thread : Thread}

/-- The view after a step that shows the events, its four lists extended by theirs. -/
theorem callView_append (state : LogEngine list Thread) (trace events : List (EngineEvent Thread)) :
    state.callView (trace ++ events) =
      { state.callView trace with
        called := calledEnvelopes trace ++ calledEnvelopes events
        queued := queuedEnvelopes trace ++ queuedEnvelopes events
        dropped := droppedEnvelopes trace ++ droppedEnvelopes events
        enqueued := enqueuedEnvelopes trace ++ enqueuedEnvelopes events } := by
  simp [callView, calledEnvelopes, droppedEnvelopes, enqueuedEnvelopes]

section Steps

variable [Fintype Thread]

theorem CallsOk.of_step (ok : CallsOk trace state)
    (calls : (next.callView (trace ++ events)).Ok)
    (enqueued : next.enqueued = state.enqueued + UInt64.ofNat (enqueuedEnvelopes events).length)
    (dropped : next.dropped = state.dropped + UInt64.ofNat (droppedEnvelopes events).length)
    (written : next.written = state.written + UInt64.ofNat (writtenCount events)) :
    CallsOk (trace ++ events) next where
  calls := calls
  enqueued := by
    rw [enqueued, ok.enqueued, ← UInt64.ofNat_add, enqueuedEnvelopes, enqueuedEnvelopes,
      enqueuedEnvelopes, List.filterMap_append, List.length_append]
  dropped := by
    rw [dropped, ok.dropped, ← UInt64.ofNat_add, droppedEnvelopes, droppedEnvelopes,
      droppedEnvelopes, List.filterMap_append, List.length_append]
  written := by
    rw [written, ok.written, ← UInt64.ofNat_add, writtenCount_append]

theorem CallsOk.frame (ok : CallsOk trace state)
    (stage : ∀ thread, (next.clients thread).call = (state.clients thread).call)
    (returned : next.returned = state.returned)
    (enqueued : next.enqueued = state.enqueued) (dropped : next.dropped = state.dropped)
    (written : next.written = state.written + UInt64.ofNat (writtenCount events))
    (noCall : calledEnvelopes events = []) (noQueued : queuedEnvelopes events = [])
    (noDropped : droppedEnvelopes events = []) (noEnqueued : enqueuedEnvelopes events = []) :
    CallsOk (trace ++ events) next := by
  refine ok.of_step ?_ (by simp [enqueued, noEnqueued]) (by simp [dropped, noDropped]) written
  have same : next.callView trace = state.callView trace := by
    simp [callView, stage, returned]
  rw [callView_append, same, noCall, noQueued, noDropped, noEnqueued]
  simp only [List.append_nil]
  exact ok.calls

variable [DecidableEq Thread]

theorem CallsOk.goto (ok : CallsOk trace state) {pc : ClientPc list}
    (clients : next.clients = Function.update state.clients thread pc)
    (call : pc.call = (state.clients thread).call) (returned : next.returned = state.returned)
    (enqueued : next.enqueued = state.enqueued) (dropped : next.dropped = state.dropped)
    (written : next.written = state.written) (notWritten : writtenCount events = 0)
    (noCall : calledEnvelopes events = []) (noQueued : queuedEnvelopes events = [])
    (noDropped : droppedEnvelopes events = []) (noEnqueued : enqueuedEnvelopes events = []) :
    CallsOk (trace ++ events) next := by
  refine ok.frame ?_ returned enqueued dropped (by simp [written, notWritten]) noCall noQueued
    noDropped noEnqueued
  intro other
  rw [clients]
  exact reads_same ClientPc.call call other

theorem CallsOk.begins (ok : CallsOk trace state) (here : state.clients thread = .idle) :
    CallsOk (trace ++ [.enqueueCalled (state.envelope thread)])
      (state.goto thread .ensureRunning) := by
  refine ok.of_step ?_ (UInt64.add_zero _).symm (UInt64.add_zero _).symm (UInt64.add_zero _).symm
  have begun := ok.calls.begins thread (by simp [callView, here, ClientPc.call])
  rw [callView_append]
  change CallView.Ok ⟨calledEnvelopes trace ++ [_], queuedEnvelopes trace ++ [],
    droppedEnvelopes trace ++ [], enqueuedEnvelopes trace ++ [], state.returned,
    fun other => (Function.update state.clients thread _ other).call⟩
  rw [reads_update ClientPc.call]
  simp only [List.append_nil]
  exact begun

theorem CallsOk.appends (ok : CallsOk trace state) {record : LogRecord}
    (here : state.clients thread = .push (.exchangeTail record)) :
    CallsOk (trace ++ [.queued (state.envelope thread) record])
      ({ state with queue := (state.queue.pushStep (.exchangeTail record)).1 }.goto thread
          (.push (.linkPrev record state.queue.tail))) := by
  refine ok.of_step ?_ (UInt64.add_zero _).symm (UInt64.add_zero _).symm (UInt64.add_zero _).symm
  have appended := ok.calls.appends thread (by simp [callView, here, ClientPc.call])
  rw [callView_append]
  change CallView.Ok ⟨calledEnvelopes trace ++ [], queuedEnvelopes trace ++ [_],
    droppedEnvelopes trace ++ [], enqueuedEnvelopes trace ++ [], state.returned,
    fun other => (Function.update state.clients thread _ other).call⟩
  rw [reads_update ClientPc.call]
  simp only [List.append_nil]
  exact appended

theorem CallsOk.drops (ok : CallsOk trace state) (here : state.clients thread = .countDropped) :
    CallsOk (trace ++ [.dropped (state.envelope thread)])
      ({ state with dropped := state.dropped + 1 }.finish thread) := by
  refine ok.of_step ?_ (UInt64.add_zero _).symm rfl (UInt64.add_zero _).symm
  have dropped := ok.calls.drops thread (by simp [callView, here, ClientPc.call])
  rw [callView_append]
  change CallView.Ok ⟨calledEnvelopes trace ++ [], queuedEnvelopes trace ++ [],
    droppedEnvelopes trace ++ [_], enqueuedEnvelopes trace ++ [], _,
    fun other => (Function.update state.clients thread _ other).call⟩
  rw [reads_update ClientPc.call]
  simp only [List.append_nil]
  exact dropped

theorem CallsOk.counts (ok : CallsOk trace state) (here : state.clients thread = .countEnqueued) :
    CallsOk (trace ++ [.enqueued (state.envelope thread)])
      ({ state with enqueued := state.enqueued + 1 }.finish thread) := by
  refine ok.of_step ?_ rfl (UInt64.add_zero _).symm (UInt64.add_zero _).symm
  have counted := ok.calls.counts thread (by simp [callView, here, ClientPc.call])
  rw [callView_append]
  change CallView.Ok ⟨calledEnvelopes trace ++ [], queuedEnvelopes trace ++ [],
    droppedEnvelopes trace ++ [], enqueuedEnvelopes trace ++ [_], _,
    fun other => (Function.update state.clients thread _ other).call⟩
  rw [reads_update ClientPc.call]
  simp only [List.append_nil]
  exact counted

omit [DecidableEq Thread] [Fintype Thread] in
theorem call_fillFrom (state : LogEngine list Thread) (index : Nat) :
    (state.fillFrom poolSize index).call = some .undecided := by
  unfold fillFrom
  split <;> rfl

theorem CallsOk.client (ok : CallsOk trace state)
    (moved : ClientMove poolSize state thread next events) : CallsOk (trace ++ events) next := by
  cases moved with
  | exchanges here => exact ok.appends here
  | drops here => exact ok.drops here
  | counts here => exact ok.counts here
  | terminates here taken =>
      exact ok.frame (fun _ => rfl) rfl rfl rfl (UInt64.add_zero _).symm rfl rfl rfl rfl
  | allocates here | filled here ran =>
      exact ok.goto rfl (by rw [call_fillFrom, here]; rfl) rfl rfl rfl rfl rfl rfl rfl rfl rfl
  | clears here | links here | spawns here | constructs here | alreadyRunning here | starts here
  | fills here | assigns here | acquires here | misses here | obtains here | stops here
  | stoppedBefore here | notJoinable here | joins here =>
      exact ok.goto rfl (by rw [here]; rfl) rfl rfl rfl rfl rfl rfl rfl rfl rfl

omit [DecidableEq Thread] in
theorem CallsOk.worker (ok : CallsOk trace state) {id : Nat}
    (moved : WorkerMove state id next events) : CallsOk (trace ++ events) next := by
  cases moved with
  | written here => exact ok.frame (fun _ => rfl) rfl rfl rfl rfl rfl rfl rfl rfl
  | _ => exact ok.frame (fun _ => rfl) rfl rfl rfl (UInt64.add_zero _).symm rfl rfl rfl rfl

theorem CallsOk.step (ok : CallsOk trace state) {action : EngineAction Thread}
    (moved : Move poolSize state action next events) : CallsOk (trace ++ events) next := by
  cases moved with
  | enqueue here => exact ok.begins here
  | shutdown here =>
      exact ok.goto rfl (by rw [here]; rfl) rfl rfl rfl rfl rfl rfl rfl rfl rfl
  | client moved => exact ok.client moved
  | worker moved => exact ok.worker moved

omit [DecidableEq Thread] in
theorem CallsOk.initial : CallsOk [] (LogEngine.initial : LogEngine list Thread) := by
  have none : ∀ (holds : Option CallStage → Bool), holds none = false →
      countWhere holds (fun thread : Thread =>
        ((LogEngine.initial : LogEngine list Thread).clients thread).call) = 0 :=
    fun holds no => countWhere_eq_zero fun _ => no
  constructor
  case calls =>
    constructor
    case calls => exact .nil
    case order => exact .nil
    case begun => simp [callView, calledEnvelopes, LogEngine.initial, ClientPc.call, CallStage.begun]
    case total => simp only [callView, none Option.isSome rfl]; rfl
    case uncounted => simp only [callView, none CallStage.isAccepted rfl]; rfl
    all_goals simp [callView, queuedEnvelopes, droppedEnvelopes, enqueuedEnvelopes,
      LogEngine.initial, ClientPc.call]
  case enqueued => rfl
  case dropped => rfl
  case written => rfl

end Steps

end LogEngine

end MyServer
