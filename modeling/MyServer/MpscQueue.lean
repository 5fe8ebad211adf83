import MyServer.MpscQueueChain
import Mathlib.Data.Fintype.Basic

/-!
`MpscQueue` as a FIFO queue. The order of the exchanges of `tail_` is the order of the
queue; what has been popped since the last `reset` is a prefix of it, and a queue just
reset cannot be told from a new one.
-/

namespace MyServer

variable {Producer Record : Type}

/-! What a trace says. -/

def QueueEvent.exchange? : QueueEvent Producer Record → Option (Producer × Record)
  | .exchanged producer node => some (producer, node)
  | _ => none

def QueueEvent.pop? : QueueEvent Producer Record → Option (MpscNode Record)
  | .popped node => some node
  | _ => none

def QueueEvent.call? : QueueEvent Producer Record → Option (Producer × Record)
  | .pushCalled producer node => some (producer, node)
  | _ => none

def exchanges (trace : List (QueueEvent Producer Record)) : List (Producer × Record) :=
  trace.filterMap QueueEvent.exchange?

def exchangedNodes (trace : List (QueueEvent Producer Record)) : List (MpscNode Record) :=
  (exchanges trace).map fun push => .record push.2

def poppedNodes (trace : List (QueueEvent Producer Record)) : List (MpscNode Record) :=
  trace.filterMap QueueEvent.pop?

def nullSeen (trace : List (QueueEvent Producer Record)) : Bool :=
  trace.foldl (fun seen event => match event with
    | .popNull => true
    | .foundEmpty _ => seen
    | _ => false) false

variable [DecidableEq Producer]

def ofProducer (producer : Producer) (pushes : List (Producer × Record)) : List Record :=
  (pushes.filter fun push => push.1 = producer).map Prod.snd

def pushCalls (producer : Producer) (trace : List (QueueEvent Producer Record)) : List Record :=
  ofProducer producer (trace.filterMap QueueEvent.call?)

variable [DecidableEq Record]

def sinceReset (trace : List (QueueEvent Producer Record)) : List (QueueEvent Producer Record) :=
  trace.foldl (fun recent event => if event = .resetReturned then [] else recent ++ [event]) []

def waiting (trace : List (QueueEvent Producer Record)) : List (MpscNode Record) :=
  (exchangedNodes (sinceReset trace)).drop (poppedNodes (sinceReset trace)).length

def ConsumerPc.resetting : ConsumerPc Record → Bool
  | .reset _ => true
  | _ => false

/-- How a queue is used: a node is pushed only when it is not in the queue, not being
pushed and not the dummy; `reset` is called after `pop` returned null with no push in
flight, and no push begins before it returns. -/
def queueUse (trace : List (QueueEvent Producer Record)) (world : QueueWorld Producer Record) :
    QueueAction Producer Record → Prop
  | .push _ node => .record node ∉ waiting trace ∧
      (∀ other, (world.producers other).map PushPc.node ≠ some node) ∧
      world.queue.head ≠ .record node ∧ world.consumer.resetting = false
  | .reset => nullSeen (sinceReset trace) = true ∧ ∀ producer, world.producers producer = none
  | _ => True

instance [Fintype Producer] (trace : List (QueueEvent Producer Record))
    (world : QueueWorld Producer Record) :
    (action : QueueAction Producer Record) → Decidable (queueUse trace world action)
  | .push _ _ => inferInstanceAs (Decidable (_ ∧ _ ∧ _ ∧ _))
  | .reset => inferInstanceAs (Decidable (_ ∧ ∀ producer, world.producers producer = none))
  | .produce _ | .pop | .empty | .consume => .isTrue trivial

section Lemmas

variable {trace more : List (QueueEvent Producer Record)} {event : QueueEvent Producer Record}

omit [DecidableEq Producer] [DecidableEq Record] in
@[simp]
theorem exchangedNodes_append :
    exchangedNodes (trace ++ more) = exchangedNodes trace ++ exchangedNodes more := by
  simp [exchangedNodes, exchanges]

omit [DecidableEq Producer] [DecidableEq Record] in
@[simp]
theorem poppedNodes_append :
    poppedNodes (trace ++ more) = poppedNodes trace ++ poppedNodes more := by
  simp [poppedNodes]

omit [DecidableEq Record] in
@[simp]
theorem pushCalls_append (producer : Producer) :
    pushCalls producer (trace ++ more) = pushCalls producer trace ++ pushCalls producer more := by
  simp [pushCalls, ofProducer]

theorem sinceReset_concat (plain : event ≠ .resetReturned) :
    sinceReset (trace ++ [event]) = sinceReset trace ++ [event] := by
  simp [sinceReset, plain]

theorem sinceReset_reset : sinceReset (trace ++ [.resetReturned]) = [] := by
  simp [sinceReset]

end Lemmas

/-! The invariant of a run. -/

def notExchanged : Option (PushPc Record) → List Record
  | some (.clearNext node) | some (.exchangeTail node) => [node]
  | _ => []

def ResetPc.Sound (queue : MpscQueue Record) : ResetPc → Prop
  | .clearStub => True
  | .setHead => queue.next .stub = none
  | .setTail => queue.next .stub = none ∧ queue.head = .stub

/-- The chain is whole except during `reset`, when nothing is pending or being pushed. -/
def QueueWorld.Phase (world : QueueWorld Producer Record) (pending : List Record) : Prop :=
  match world.consumer with
  | .idle => world.queue.Chain pending world.producers
  | .pop pc => world.queue.Chain pending world.producers ∧ pc.Sound world.queue
  | .empty pc => world.queue.Chain pending world.producers ∧ pc.Sound world.queue
  | .reset pc => pending = [] ∧ (∀ producer, world.producers producer = none) ∧
      pc.Sound world.queue

def NullWhenDrained (before : List (QueueEvent Producer Record))
    (event : QueueEvent Producer Record) : Prop :=
  event = .popNull ∨ event = .foundEmpty true → poppedNodes before = exchangedNodes before

def QueueWorld.Unused (world : QueueWorld Producer Record) : Prop :=
  world.queue.head = .stub ∧ world.queue.tail = .stub ∧
    ∀ producer, world.producers producer = none

structure QueueOk (trace : List (QueueEvent Producer Record)) (world : QueueWorld Producer Record)
    (pending : List Record) : Prop where
  phase : world.Phase pending
  order : exchangedNodes (sinceReset trace) =
    poppedNodes (sinceReset trace) ++ pending.map .record
  total : ∃ earlier, exchangedNodes trace = earlier ++ exchangedNodes (sinceReset trace) ∧
    poppedNodes trace = earlier ++ poppedNodes (sinceReset trace)
  null : nullSeen (sinceReset trace) = true → pending = []
  program : ∀ producer, pushCalls producer trace =
    ofProducer producer (exchanges trace) ++ notExchanged (world.producers producer)
  stamped : Stamped NullWhenDrained trace
  unused : sinceReset trace = [] → world.Unused

variable {trace : List (QueueEvent Producer Record)} {world next : QueueWorld Producer Record}
variable {pending later : List Record} {event : QueueEvent Producer Record}

/-- The trace's side of a step that emits one event. -/
theorem QueueOk.observe (ok : QueueOk trace world pending) (plain : event ≠ .resetReturned)
    (phase : next.Phase later)
    (moved : pending.map .record ++ exchangedNodes [event] =
      poppedNodes [event] ++ later.map .record)
    (null : nullSeen (sinceReset trace ++ [event]) = true → later = [])
    (program : ∀ producer, notExchanged (world.producers producer) ++ pushCalls producer [event] =
      ofProducer producer (exchanges [event]) ++ notExchanged (next.producers producer))
    (stamp : NullWhenDrained trace event) : QueueOk (trace ++ [event]) next later := by
  obtain ⟨earlier, exchanged, popped⟩ := ok.total
  constructor
  case phase => exact phase
  case order =>
    rw [sinceReset_concat plain, exchangedNodes_append, poppedNodes_append, ok.order,
      List.append_assoc, moved, List.append_assoc]
  case total =>
    refine ⟨earlier, ?_, ?_⟩
    · rw [sinceReset_concat plain, exchangedNodes_append, exchangedNodes_append, exchanged,
        List.append_assoc]
    · rw [sinceReset_concat plain, poppedNodes_append, poppedNodes_append, popped,
        List.append_assoc]
  case null => rwa [sinceReset_concat plain]
  case program =>
    intro producer
    rw [pushCalls_append, ok.program, List.append_assoc, program]
    simp [exchanges, ofProducer]
  case stamped => exact ok.stamped.concat stamp
  case unused => simp [sinceReset_concat plain]

/-- Nothing pending: what has been popped is what has been exchanged. -/
theorem QueueOk.all_popped (ok : QueueOk trace world []) :
    poppedNodes trace = exchangedNodes trace := by
  obtain ⟨earlier, exchanged, popped⟩ := ok.total
  rw [exchanged, popped, ok.order, List.map_nil, List.append_nil]

theorem QueueOk.initial :
    QueueOk [] (queueMachine Producer Record).start [] := by
  constructor
  case phase => exact MpscQueue.Chain.fresh rfl rfl
  case order => rfl
  case total => exact ⟨[], rfl, rfl⟩
  case null => exact fun _ => rfl
  case program => exact fun _ => rfl
  case stamped => exact .nil
  case unused => exact fun _ => ⟨rfl, rfl, fun _ => rfl⟩

theorem QueueOk.silent (ok : QueueOk trace world pending) (phase : next.Phase pending)
    (program : ∀ producer, notExchanged (next.producers producer) =
      notExchanged (world.producers producer))
    (unused : world.Unused → next.Unused) : QueueOk trace next pending where
  phase := phase
  order := ok.order
  total := ok.total
  null := ok.null
  program := fun producer => by rw [ok.program, program]
  stamped := ok.stamped
  unused := fun recent => unused (ok.unused recent)

theorem QueueOk.waiting_eq (ok : QueueOk trace world pending) :
    waiting trace = pending.map .record := by
  simp [waiting, ok.order]

omit [DecidableEq Producer] [DecidableEq Record] in
theorem Phase.chain (phase : world.Phase pending) (noReset : world.consumer.resetting = false) :
    world.queue.Chain pending world.producers := by
  unfold QueueWorld.Phase at phase
  cases consumer : world.consumer with
  | idle => simpa [consumer] using phase
  | pop pc => exact (by simpa [consumer] using phase : _ ∧ _).1
  | empty pc => exact (by simpa [consumer] using phase : _ ∧ _).1
  | reset pc => simp [consumer, ConsumerPc.resetting] at noReset

omit [DecidableEq Producer] [DecidableEq Record] in
theorem Phase.shape (phase : world.Phase pending) :
    world.queue.Chain pending world.producers ∨
      pending = [] ∧ ∀ producer, world.producers producer = none := by
  cases consumer : world.consumer with
  | idle | pop _ | empty _ => exact .inl (Phase.chain phase (by rw [consumer]; rfl))
  | reset pc =>
      simp only [QueueWorld.Phase, consumer] at phase
      exact .inr ⟨phase.1, phase.2.1⟩

omit [DecidableEq Producer] [DecidableEq Record] in
theorem Phase.produced (phase : world.Phase pending)
    (noReset : world.consumer.resetting = false)
    {queue : MpscQueue Record} {producers : Producer → Option (PushPc Record)}
    (chain : queue.Chain later producers) (head : queue.head = world.queue.head)
    (front : ∀ node, world.queue.next world.queue.head = some node →
      queue.next world.queue.head = some node) :
    { world with
      queue := queue
      producers := producers }.Phase later := by
  unfold QueueWorld.Phase at phase ⊢
  cases consumer : world.consumer with
  | idle => simpa [consumer] using chain
  | pop pc =>
      simp only [consumer] at phase ⊢
      refine ⟨chain, ?_⟩
      cases pc with
      | loadNext => trivial
      | compareTail place => exact Eq.trans phase.2 head.symm
      | spin place => exact Eq.trans phase.2 head.symm
      | advance node => simpa [PopPc.Sound, head] using front node phase.2
  | empty pc =>
      simp only [consumer] at phase ⊢
      refine ⟨chain, ?_⟩
      cases pc with
      | loadNext => trivial
      | compareTail place => exact Eq.trans phase.2 head.symm
  | reset pc => simp [consumer, ConsumerPc.resetting] at noReset

omit [DecidableEq Producer] [DecidableEq Record] in
theorem Phase.no_reset (phase : world.Phase pending) {producer : Producer} {pc : PushPc Record}
    (busy : world.producers producer = some pc) : world.consumer.resetting = false := by
  cases consumer : world.consumer with
  | idle | pop pc | empty pc => rfl
  | reset pc =>
      simp only [QueueWorld.Phase, consumer] at phase
      simp [phase.2.1 producer] at busy

/-! One lemma for each kind of action. -/

theorem QueueOk.push (ok : QueueOk trace world pending) {producer : Producer} {node : Record}
    (idle : world.producers producer = none)
    (absent : .record node ∉ waiting trace)
    (unused : ∀ other, (world.producers other).map PushPc.node ≠ some node)
    (notHead : world.queue.head ≠ .record node)
    (noReset : world.consumer.resetting = false) :
    QueueOk (trace ++ [.pushCalled producer node])
      { world with
        producers := Function.update world.producers producer (some (.clearNext node)) }
      pending := by
  have outside : .record node ∉ world.queue.chain pending := by
    rw [ok.waiting_eq] at absent
    simpa [MpscQueue.chain, notHead.symm] using absent
  have chain := (Phase.chain ok.phase noReset).begin idle outside unused
  apply ok.observe
  case plain => simp
  case phase => exact Phase.produced ok.phase noReset chain rfl fun _ loaded => loaded
  case moved => exact List.append_nil _
  case null => simp [nullSeen]
  case program =>
    intro other
    by_cases same : other = producer
    · subst same
      simp [idle, notExchanged, pushCalls, ofProducer, exchanges, QueueEvent.call?,
        QueueEvent.exchange?]
    · simp [same, Ne.symm same, pushCalls, ofProducer, exchanges, QueueEvent.call?,
        QueueEvent.exchange?]
  case stamp => simp [NullWhenDrained]

theorem QueueOk.produce (ok : QueueOk trace world pending) {producer : Producer}
    {pc : PushPc Record} (busy : world.producers producer = some pc) :
    QueueOk (trace ++ pc.event producer)
      { world with
        queue := (world.queue.pushStep pc).1
        producers := Function.update world.producers producer (world.queue.pushStep pc).2 }
      (pending ++ pc.appended) := by
  have noReset := Phase.no_reset ok.phase busy
  have chain := Phase.chain ok.phase noReset
  have phase := Phase.produced ok.phase noReset (chain.pushStep busy)
    (MpscQueue.pushStep_head world.queue pc) fun _ loaded => chain.pushStep_front busy loaded
  have others : ∀ other, other ≠ producer →
      notExchanged (Function.update world.producers producer (world.queue.pushStep pc).2 other) =
        notExchanged (world.producers other) := by
    intro other different
    simp [different]
  cases pc with
  | clearNext node =>
      simp only [PushPc.event, PushPc.appended, List.append_nil] at phase ⊢
      apply ok.silent phase
      case program =>
        intro other
        by_cases same : other = producer
        · simp [same, busy, MpscQueue.pushStep, notExchanged]
        · exact others other same
      case unused =>
        rintro ⟨_, _, idle⟩
        simp [idle producer] at busy
  | exchangeTail node =>
      apply ok.observe
      case plain => simp
      case phase => exact phase
      case moved =>
        simp [PushPc.appended, exchangedNodes, exchanges, poppedNodes, QueueEvent.exchange?,
          QueueEvent.pop?]
      case null => simp [nullSeen]
      case program =>
        intro other
        by_cases same : other = producer
        · subst same
          simp [busy, MpscQueue.pushStep, notExchanged, pushCalls, ofProducer, exchanges,
            QueueEvent.call?, QueueEvent.exchange?]
        · rw [others other same]
          simp [Ne.symm same, pushCalls, ofProducer, exchanges, QueueEvent.call?,
            QueueEvent.exchange?]
      case stamp => simp [NullWhenDrained]
  | linkPrev node prev =>
      simp only [PushPc.appended, List.append_nil] at phase ⊢
      apply ok.observe
      case plain => simp
      case phase => exact phase
      case moved => exact List.append_nil _
      case null => simp [nullSeen]
      case program =>
        intro other
        by_cases same : other = producer
        · simp [same, busy, MpscQueue.pushStep, notExchanged, pushCalls, ofProducer, exchanges,
            List.filterMap_cons, QueueEvent.call?, QueueEvent.exchange?]
        · rw [others other same]
          simp [pushCalls, ofProducer, exchanges, List.filterMap_cons, QueueEvent.call?,
            QueueEvent.exchange?]
      case stamp => simp [NullWhenDrained]

/-- The last store of `reset`: a fresh queue. -/
theorem QueueOk.reset (ok : QueueOk trace world [])
    (idle : ∀ producer, world.producers producer = none)
    (sound : world.queue.next .stub = none ∧ world.queue.head = .stub) :
    QueueOk (trace ++ [.resetReturned])
      { world with
        queue := { world.queue with tail := .stub }
        consumer := .idle } [] := by
  have producers : world.producers = fun _ => none := funext idle
  constructor
  case phase =>
    simp only [QueueWorld.Phase, producers]
    exact .fresh sound.2.symm (by simp [sound.1, sound.2])
  case order => rw [sinceReset_reset]; rfl
  case total =>
    refine ⟨exchangedNodes trace, ?_, ?_⟩
    · rw [sinceReset_reset, exchangedNodes_append]
      rfl
    · rw [sinceReset_reset, poppedNodes_append, ok.all_popped]
      rfl
  case null => exact fun _ => rfl
  case program =>
    intro producer
    have before := ok.program producer
    simpa [pushCalls, ofProducer, exchanges, List.filterMap_cons, QueueEvent.call?,
      QueueEvent.exchange?] using before
  case stamped => exact ok.stamped.concat (by simp [NullWhenDrained])
  case unused => exact fun _ => ⟨sound.2, rfl, idle⟩

theorem QueueOk.consumed (ok : QueueOk trace world pending) (plain : event ≠ .resetReturned)
    (phase : next.Phase later) (producers : next.producers = world.producers)
    (exchanged : event.exchange? = none) (called : event.call? = none)
    (moved : pending.map .record = poppedNodes [event] ++ later.map .record)
    (null : nullSeen (sinceReset trace ++ [event]) = true → later = [])
    (stamp : NullWhenDrained trace event) : QueueOk (trace ++ [event]) next later := by
  apply ok.observe plain phase
  case moved => simpa [exchangedNodes, exchanges, exchanged] using moved
  case null => exact null
  case program =>
    intro producer
    simp [producers, pushCalls, ofProducer, exchanges, exchanged, called]
  case stamp => exact stamp

theorem QueueOk.consume (ok : QueueOk trace world pending)
    {events : List (QueueEvent Producer Record)}
    (stepped : world.consume = some (next, events)) :
    ∃ later, QueueOk (trace ++ events) next later := by
  have phase := ok.phase
  unfold QueueWorld.consume at stepped
  cases consumer : world.consumer with
  | idle => simp [consumer] at stepped
  | pop pc =>
      simp only [QueueWorld.Phase, consumer] at phase
      have result := phase.1.popStep phase.2
      simp only [consumer] at stepped
      generalize world.queue.popStep pc = ended at stepped result
      cases result with
      | continues pc sound =>
          simp only [Option.some.injEq, Prod.mk.injEq] at stepped
          obtain ⟨rfl, rfl⟩ := stepped
          rw [List.append_nil]
          exact ⟨pending, ok.silent ⟨phase.1, sound⟩ (fun _ => rfl) id⟩
      | null drained =>
          simp only [Option.some.injEq, Prod.mk.injEq] at stepped
          obtain ⟨rfl, rfl⟩ := stepped
          subst drained
          refine ⟨[], ok.consumed (by simp) ?_ rfl rfl rfl rfl (fun _ => rfl) fun _ => ok.all_popped⟩
          exact phase.1
      | takes node rest front chain =>
          simp only [Option.some.injEq, Prod.mk.injEq] at stepped
          obtain ⟨rfl, rfl⟩ := stepped
          subst front
          refine ⟨rest, ok.consumed (by simp) chain rfl rfl rfl rfl ?_ ?_⟩
          · simp [nullSeen]
          · simp [NullWhenDrained]
  | empty pc =>
      simp only [QueueWorld.Phase, consumer] at phase
      simp only [consumer] at stepped
      rcases phase.1.emptyStep phase.2 with ⟨later, goes, sound⟩ | answers | ⟨answers, drained⟩
      · simp only [goes, Option.some.injEq, Prod.mk.injEq] at stepped
        obtain ⟨rfl, rfl⟩ := stepped
        rw [List.append_nil]
        exact ⟨pending, ok.silent ⟨phase.1, sound⟩ (fun _ => rfl) id⟩
      · simp only [answers, Option.some.injEq, Prod.mk.injEq] at stepped
        obtain ⟨rfl, rfl⟩ := stepped
        refine ⟨pending, ok.consumed (by simp) phase.1 rfl rfl rfl rfl ?_ ?_⟩
        · simpa [nullSeen] using ok.null
        · simp [NullWhenDrained]
      · simp only [answers, Option.some.injEq, Prod.mk.injEq] at stepped
        obtain ⟨rfl, rfl⟩ := stepped
        subst drained
        refine ⟨[], ok.consumed (by simp) ?_ rfl rfl rfl rfl (fun _ => rfl) fun _ => ok.all_popped⟩
        exact phase.1
  | reset pc =>
      simp only [QueueWorld.Phase, consumer] at phase
      simp only [consumer] at stepped
      obtain ⟨rfl, idle, sound⟩ := phase
      cases pc with
      | clearStub =>
          simp only [MpscQueue.resetStep, Option.some.injEq, Prod.mk.injEq] at stepped
          obtain ⟨rfl, rfl⟩ := stepped
          rw [List.append_nil]
          refine ⟨[], ok.silent ⟨rfl, idle, ?_⟩ (fun _ => rfl) id⟩
          simp [ResetPc.Sound]
      | setHead =>
          simp only [MpscQueue.resetStep, Option.some.injEq, Prod.mk.injEq] at stepped
          obtain ⟨rfl, rfl⟩ := stepped
          rw [List.append_nil]
          exact ⟨[], ok.silent ⟨rfl, idle, sound, rfl⟩ (fun _ => rfl)
            fun fresh => ⟨rfl, fresh.2⟩⟩
      | setTail =>
          simp only [MpscQueue.resetStep, Option.some.injEq, Prod.mk.injEq] at stepped
          obtain ⟨rfl, rfl⟩ := stepped
          exact ⟨[], ok.reset idle sound⟩

theorem QueueOk.step (ok : QueueOk trace world pending) {action : QueueAction Producer Record}
    {events : List (QueueEvent Producer Record)} (permitted : queueUse trace world action)
    (stepped : world.step action = some (next, events)) :
    ∃ later, QueueOk (trace ++ events) next later := by
  cases action with
  | push producer node =>
      cases idle : world.producers producer with
      | some pc => simp [QueueWorld.step, idle] at stepped
      | none =>
          simp only [QueueWorld.step, idle, Option.some.injEq, Prod.mk.injEq] at stepped
          obtain ⟨rfl, rfl⟩ := stepped
          obtain ⟨absent, unused, notHead, noReset⟩ := permitted
          exact ⟨pending, ok.push idle absent unused notHead noReset⟩
  | produce producer =>
      cases busy : world.producers producer with
      | none => simp [QueueWorld.step, busy] at stepped
      | some pc =>
          simp only [QueueWorld.step, busy, Option.some.injEq, Prod.mk.injEq] at stepped
          obtain ⟨rfl, rfl⟩ := stepped
          exact ⟨_, ok.produce busy⟩
  | pop =>
      cases consumer : world.consumer with
      | idle =>
          simp only [QueueWorld.step, consumer, Option.some.injEq, Prod.mk.injEq] at stepped
          obtain ⟨rfl, rfl⟩ := stepped
          have chain : world.queue.Chain pending world.producers := by
            simpa [QueueWorld.Phase, consumer] using ok.phase
          rw [List.append_nil]
          exact ⟨pending, ok.silent ⟨chain, trivial⟩ (fun _ => rfl) id⟩
      | pop pc | empty pc | reset pc => simp [QueueWorld.step, consumer] at stepped
  | empty =>
      cases consumer : world.consumer with
      | idle =>
          simp only [QueueWorld.step, consumer, Option.some.injEq, Prod.mk.injEq] at stepped
          obtain ⟨rfl, rfl⟩ := stepped
          have chain : world.queue.Chain pending world.producers := by
            simpa [QueueWorld.Phase, consumer] using ok.phase
          rw [List.append_nil]
          exact ⟨pending, ok.silent ⟨chain, trivial⟩ (fun _ => rfl) id⟩
      | pop pc | empty pc | reset pc => simp [QueueWorld.step, consumer] at stepped
  | reset =>
      cases consumer : world.consumer with
      | idle =>
          simp only [QueueWorld.step, consumer, Option.some.injEq, Prod.mk.injEq] at stepped
          obtain ⟨rfl, rfl⟩ := stepped
          obtain ⟨seen, idle⟩ := permitted
          rw [List.append_nil]
          exact ⟨pending, ok.silent ⟨ok.null seen, idle, trivial⟩ (fun _ => rfl) id⟩
      | pop pc | empty pc | reset pc => simp [QueueWorld.step, consumer] at stepped
  | consume => exact ok.consume stepped

/-! A queue just reset cannot be told from a new one. -/

structure SameView (left right : QueueWorld Producer Record) : Prop where
  head : left.queue.head = right.queue.head
  tail : left.queue.tail = right.queue.tail
  producers : left.producers = right.producers
  consumer : left.consumer = right.consumer

omit [DecidableEq Producer] [DecidableEq Record] in
theorem SameView.symm {left right : QueueWorld Producer Record} (same : SameView left right) :
    SameView right left :=
  ⟨same.head.symm, same.tail.symm, same.producers.symm, same.consumer.symm⟩

omit [DecidableEq Producer] [DecidableEq Record] in
theorem SameView.begin {left right : QueueWorld Producer Record} (same : SameView left right)
    (pc : ConsumerPc Record) :
    SameView { left with consumer := pc } { right with consumer := pc } :=
  ⟨same.head, same.tail, same.producers, rfl⟩

omit [DecidableEq Producer] in
/-- The consumer's step loads the same pointers in both queues. -/
theorem SameView.consume {left right : QueueWorld Producer Record} (same : SameView left right)
    (leftPhase : left.Phase pending) (rightPhase : right.Phase pending)
    {events : List (QueueEvent Producer Record)} (stepped : left.consume = some (next, events)) :
    ∃ other, right.consume = some (other, events) ∧ SameView next other := by
  obtain ⟨⟨leftNext, tail, head⟩, producers, consumer⟩ := left
  obtain ⟨⟨rightNext, rightTail, rightHead⟩, rightProducers, rightConsumer⟩ := right
  obtain ⟨rfl, rfl, rfl, rfl⟩ := same
  cases consumer with
  | idle => simp [QueueWorld.consume] at stepped
  | pop pc =>
      have loads : leftNext head = rightNext head :=
        MpscQueue.Chain.next_agree leftPhase.1 rightPhase.1 rfl
      obtain ⟨same, sameHead, sameTail⟩ :=
        MpscQueue.popStep_agree ⟨leftNext, tail, head⟩ ⟨rightNext, tail, head⟩ rfl rfl loads
          leftPhase.2
      simp only [QueueWorld.consume] at stepped ⊢
      generalize MpscQueue.popStep ⟨leftNext, tail, head⟩ pc = leftEnd
        at stepped same sameHead sameTail
      generalize MpscQueue.popStep ⟨rightNext, tail, head⟩ pc = rightEnd at same sameHead sameTail ⊢
      obtain ⟨leftQueue, outcome⟩ := leftEnd
      obtain ⟨rightQueue, _⟩ := rightEnd
      obtain rfl := same
      rcases outcome with pc | _ | node
      all_goals
        simp only [Option.some.injEq, Prod.mk.injEq] at stepped
        obtain ⟨rfl, rfl⟩ := stepped
        exact ⟨_, rfl, sameHead, sameTail, rfl, rfl⟩
  | empty pc =>
      have loads : leftNext head = rightNext head :=
        MpscQueue.Chain.next_agree leftPhase.1 rightPhase.1 rfl
      have same : MpscQueue.emptyStep ⟨leftNext, tail, head⟩ pc =
          MpscQueue.emptyStep ⟨rightNext, tail, head⟩ pc := by
        cases pc <;> simp [MpscQueue.emptyStep, loads]
      simp only [QueueWorld.consume] at stepped ⊢
      rw [same] at stepped
      cases answer : MpscQueue.emptyStep ⟨rightNext, tail, head⟩ pc
      all_goals
        simp only [answer, Option.some.injEq, Prod.mk.injEq] at stepped
        obtain ⟨rfl, rfl⟩ := stepped
        exact ⟨_, rfl, rfl, rfl, rfl, rfl⟩
  | reset pc =>
      cases pc
      all_goals
        simp only [QueueWorld.consume, MpscQueue.resetStep, Option.some.injEq,
          Prod.mk.injEq] at stepped
        obtain ⟨rfl, rfl⟩ := stepped
        exact ⟨_, rfl, rfl, rfl, rfl, rfl⟩

theorem SameView.step {left right : QueueWorld Producer Record} (same : SameView left right)
    (leftPhase : left.Phase pending) (rightPhase : right.Phase pending)
    {action : QueueAction Producer Record} {events : List (QueueEvent Producer Record)}
    (stepped : left.step action = some (next, events)) :
    ∃ other, right.step action = some (other, events) ∧ SameView next other := by
  cases action with
  | push producer node =>
      cases idle : left.producers producer with
      | some pc => simp [QueueWorld.step, idle] at stepped
      | none =>
          simp only [QueueWorld.step, idle, Option.some.injEq, Prod.mk.injEq] at stepped
          obtain ⟨rfl, rfl⟩ := stepped
          rw [same.producers] at idle
          have taken : right.step (.push producer node) = some ({ right with
              producers := Function.update right.producers producer (some (.clearNext node)) },
              [.pushCalled producer node]) := by simp only [QueueWorld.step, idle]
          exact ⟨_, taken, same.head, same.tail, by simp [same.producers], same.consumer⟩
  | produce producer =>
      cases busy : left.producers producer with
      | none => simp [QueueWorld.step, busy] at stepped
      | some pc =>
          simp only [QueueWorld.step, busy, Option.some.injEq, Prod.mk.injEq] at stepped
          obtain ⟨rfl, rfl⟩ := stepped
          rw [same.producers] at busy
          have taken : right.step (.produce producer) = some ({ right with
              queue := (right.queue.pushStep pc).1
              producers := Function.update right.producers producer (right.queue.pushStep pc).2 },
              pc.event producer) := by simp only [QueueWorld.step, busy]
          refine ⟨_, taken, ?_, ?_, ?_, same.consumer⟩
          all_goals cases pc <;> simp [MpscQueue.pushStep, same.head, same.tail, same.producers]
  | pop =>
      have consumer := same.consumer
      cases now : left.consumer with
      | idle =>
          simp only [QueueWorld.step, now, Option.some.injEq, Prod.mk.injEq] at stepped
          obtain ⟨rfl, rfl⟩ := stepped
          exact ⟨_, by simp only [QueueWorld.step, ← consumer, now], same.begin (.pop .loadNext)⟩
      | pop pc | empty pc | reset pc => simp [QueueWorld.step, now] at stepped
  | empty =>
      have consumer := same.consumer
      cases now : left.consumer with
      | idle =>
          simp only [QueueWorld.step, now, Option.some.injEq, Prod.mk.injEq] at stepped
          obtain ⟨rfl, rfl⟩ := stepped
          exact ⟨_, by simp only [QueueWorld.step, ← consumer, now], same.begin (.empty .loadNext)⟩
      | pop pc | empty pc | reset pc => simp [QueueWorld.step, now] at stepped
  | reset =>
      have consumer := same.consumer
      cases now : left.consumer with
      | idle =>
          simp only [QueueWorld.step, now, Option.some.injEq, Prod.mk.injEq] at stepped
          obtain ⟨rfl, rfl⟩ := stepped
          exact ⟨_, by simp only [QueueWorld.step, ← consumer, now], same.begin (.reset .clearStub)⟩
      | pop pc | empty pc | reset pc => simp [QueueWorld.step, now] at stepped
  | consume => exact same.consume leftPhase rightPhase stepped

theorem queue_ok (reached : (queueMachine Producer Record).Reaches queueUse trace world) :
    ∃ pending, QueueOk trace world pending := by
  refine reached.invariant (fun trace world => ∃ pending, QueueOk trace world pending)
    ⟨[], .initial⟩ ?_
  rintro trace world action next events ⟨pending, ok⟩ permitted stepped
  exact ok.step permitted stepped

/-- What a run may do next depends on the events since the last `reset` only. -/
theorem SameView.permitted {left right : QueueWorld Producer Record} (same : SameView left right)
    {leftTrace rightTrace : List (QueueEvent Producer Record)}
    (recent : sinceReset leftTrace = sinceReset rightTrace)
    {action : QueueAction Producer Record} (permitted : queueUse leftTrace left action) :
    queueUse rightTrace right action := by
  cases action with
  | push producer node =>
      simpa [queueUse, waiting, recent, same.head, same.producers, same.consumer] using permitted
  | reset => simpa [queueUse, recent, same.producers] using permitted
  | produce | pop | empty | consume => trivial

theorem sinceReset_append_congr {left right : List (QueueEvent Producer Record)}
    (more : List (QueueEvent Producer Record)) (recent : sinceReset left = sinceReset right) :
    sinceReset (left ++ more) = sinceReset (right ++ more) := by
  simp only [sinceReset, List.foldl_append] at recent ⊢
  rw [recent]

/-- Two runs with the same view and the same events since their last `reset` go on alike. -/
theorem SameView.path {left right last : QueueWorld Producer Record} (same : SameView left right)
    {leftTrace rightTrace segment : List (QueueEvent Producer Record)}
    (recent : sinceReset leftTrace = sinceReset rightTrace)
    (leftReached : (queueMachine Producer Record).Reaches queueUse leftTrace left)
    (rightReached : (queueMachine Producer Record).Reaches queueUse rightTrace right)
    (path : (queueMachine Producer Record).Path queueUse leftTrace left segment last) :
    ∃ other, (queueMachine Producer Record).Path queueUse rightTrace right segment other ∧
      SameView last other := by
  induction path with
  | nil => exact ⟨right, .nil, same⟩
  | @snoc segment state action next events path permitted stepped ih =>
      obtain ⟨other, otherPath, sameNow⟩ := ih
      have recentNow := sinceReset_append_congr segment recent
      obtain ⟨pending, leftOk⟩ := queue_ok (leftReached.extend path)
      obtain ⟨others, rightOk⟩ := queue_ok (rightReached.extend otherPath)
      have samePending : others = pending := by
        have waits := rightOk.waiting_eq
        rw [waiting, ← recentNow, ← waiting, leftOk.waiting_eq] at waits
        exact (List.map_injective_iff.mpr fun _ _ => by simp) waits.symm
      subst samePending
      obtain ⟨after, otherStepped, sameAfter⟩ :=
        sameNow.step leftOk.phase rightOk.phase stepped
      exact ⟨after, .snoc otherPath (sameNow.permitted recentNow permitted) otherStepped, sameAfter⟩

/-- After `reset` the queue continues exactly as a new one. -/
theorem reset_fresh {before : List (QueueEvent Producer Record)}
    (reached : (queueMachine Producer Record).Reaches queueUse (before ++ [.resetReturned]) world)
    (idle : world.consumer = .idle) (segment : List (QueueEvent Producer Record)) :
    (∃ last, (queueMachine Producer Record).Path queueUse (before ++ [.resetReturned]) world
      segment last) ↔ ∃ last, (queueMachine Producer Record).Reaches queueUse segment last := by
  obtain ⟨pending, ok⟩ := queue_ok reached
  obtain ⟨head, tail, producers⟩ := ok.unused sinceReset_reset
  have same : SameView world (queueMachine Producer Record).start :=
    ⟨head, tail, funext producers, idle⟩
  have recent : sinceReset (before ++ [QueueEvent.resetReturned]) =
      sinceReset ([] : List (QueueEvent Producer Record)) := sinceReset_reset
  constructor
  · rintro ⟨last, path⟩
    obtain ⟨other, path, _⟩ := same.path recent reached .nil path
    exact ⟨other, path⟩
  · rintro ⟨last, path⟩
    obtain ⟨other, path, _⟩ := same.symm.path recent.symm .nil reached path
    exact ⟨other, path⟩

/-- `MpscQueue` refines a FIFO queue: what has been popped since the last `reset` is a prefix
of what has been exchanged, which keeps every producer's program order; a null answer is
given only when everything exchanged has been popped; a queue that has just been reset
continues exactly as a new one. -/
theorem mpsc_queue_fifo
    (reached : (queueMachine Producer Record).Reaches queueUse trace world) :
    poppedNodes (sinceReset trace) <+: exchangedNodes (sinceReset trace) ∧
    poppedNodes trace <+: exchangedNodes trace ∧
    (∀ producer, ofProducer producer ((exchanges trace).take (poppedNodes trace).length) <+:
      pushCalls producer trace) ∧
    (∀ before event after, trace = before ++ event :: after →
      event = .popNull ∨ event = .foundEmpty true → poppedNodes before = exchangedNodes before) ∧
    ∀ before, trace = before ++ [.resetReturned] → world.consumer = .idle →
      ∀ segment, (∃ last, (queueMachine Producer Record).Path queueUse trace world segment last) ↔
        ∃ last, (queueMachine Producer Record).Reaches queueUse segment last := by
  obtain ⟨pending, ok⟩ := queue_ok reached
  obtain ⟨earlier, exchanged, popped⟩ := ok.total
  refine ⟨?_, ?_, fun producer => ?_, ok.stamped, ?_⟩
  · exact ⟨_, ok.order.symm⟩
  · refine ⟨pending.map .record, ?_⟩
    rw [exchanged, popped, ok.order, List.append_assoc]
  · rw [ok.program producer]
    refine List.IsPrefix.trans ?_ (List.prefix_append _ _)
    exact ((List.take_prefix _ _).filter _).map _
  · rintro before rfl idle segment
    exact reset_fresh reached idle segment

def queueSchedule : List (QueueAction (Fin 2) Nat) :=
  [.push 0 5, .produce 0, .produce 0, .push 1 6, .produce 1, .produce 1, .produce 1, .pop,
    .consume, .consume, .consume, .produce 0, .consume, .consume, .pop, .consume, .consume,
    .pop, .consume, .consume, .reset, .consume, .consume, .consume, .push 0 6, .produce 0,
    .produce 0, .produce 0, .pop, .consume, .consume]

theorem queueSchedule_runs :
    ((queueMachine (Fin 2) Nat).exec queueUse [] (queueMachine (Fin 2) Nat).start
      queueSchedule).isSome = true := by
  decide +kernel

theorem mpsc_queue_fifo_sample :
    let trace := (Option.get _ queueSchedule_runs).1
    poppedNodes trace = [.record 5, .record 6, .record 6] ∧
      poppedNodes trace <+: exchangedNodes trace ∧
      poppedNodes (sinceReset trace) <+: exchangedNodes (sinceReset trace) := by
  have facts := mpsc_queue_fifo (EventMachine.reaches_of_isSome queueSchedule_runs)
  exact ⟨by decide +kernel, facts.2.1, facts.1⟩

end MyServer
