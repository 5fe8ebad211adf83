import MyServer.EventMachine
import Mathlib.Logic.Function.Basic

/-!
`MpscQueue`, one atomic access at a time. A program counter says which load, store or
exchange a call performs next and holds the locals it has read so far; the steps of a
call are functions of the shared queue and of that counter alone.
-/

namespace MyServer

/-- The address of an `MpscNode`: the queue's own `stub_`, or a node of the caller. A null
pointer is `none` of `Option (MpscNode Record)`. -/
inductive MpscNode (Record : Type)
  | stub
  | record (record : Record)
  deriving DecidableEq

structure MpscQueue (Record : Type) where
  next : MpscNode Record → Option (MpscNode Record)
  tail : MpscNode Record
  head : MpscNode Record

variable {Record : Type}

/-- The constructor, over nodes whose `next` is still null. -/
def MpscQueue.initial : MpscQueue Record where
  next := fun _ => none
  tail := .stub
  head := .stub

/-- `push(n)`: store `n->next`, exchange `tail_`, store `prev->next`. -/
inductive PushPc (Record : Type)
  | clearNext (node : Record)
  | exchangeTail (node : Record)
  | linkPrev (node : Record) (prev : MpscNode Record)
  deriving DecidableEq

def PushPc.node : PushPc Record → Record
  | .clearNext node | .exchangeTail node | .linkPrev node _ => node

/-- `pop()`: load `head->next`; if null load `tail_`, then spin on `head->next`; store `head_`. -/
inductive PopPc (Record : Type)
  | loadNext
  | compareTail (head : MpscNode Record)
  | spin (head : MpscNode Record)
  | advance (next : MpscNode Record)

/-- `empty()`: load `head->next`; if null load `tail_`. -/
inductive EmptyPc (Record : Type)
  | loadNext
  | compareTail (head : MpscNode Record)

/-- `reset()`: store `stub_.next`, `head_` and `tail_`. -/
inductive ResetPc
  | clearStub
  | setHead
  | setTail

namespace MpscQueue

variable [DecidableEq Record] (queue : MpscQueue Record)

def pushStep : PushPc Record → MpscQueue Record × Option (PushPc Record)
  | .clearNext node =>
      ({ queue with next := Function.update queue.next (.record node) none },
        some (.exchangeTail node))
  | .exchangeTail node =>
      ({ queue with tail := .record node }, some (.linkPrev node queue.tail))
  | .linkPrev node prev =>
      ({ queue with next := Function.update queue.next prev (some (.record node)) }, none)

/-- One step of `pop`: the next program counter, or the pointer returned. -/
def popStep : PopPc Record → MpscQueue Record × (PopPc Record ⊕ Option (MpscNode Record))
  | .loadNext =>
      match queue.next queue.head with
      | none => (queue, .inl (.compareTail queue.head))
      | some next => (queue, .inl (.advance next))
  | .compareTail head =>
      if queue.tail = head then (queue, .inr none) else (queue, .inl (.spin head))
  | .spin head =>
      match queue.next head with
      | none => (queue, .inl (.spin head))
      | some next => (queue, .inl (.advance next))
  | .advance next => ({ queue with head := next }, .inr (some next))

def emptyStep : EmptyPc Record → EmptyPc Record ⊕ Bool
  | .loadNext =>
      match queue.next queue.head with
      | none => .inl (.compareTail queue.head)
      | some _ => .inr false
  | .compareTail head => .inr (queue.tail = head)

def resetStep : ResetPc → MpscQueue Record × Option ResetPc
  | .clearStub =>
      ({ queue with next := Function.update queue.next .stub none }, some .setHead)
  | .setHead => ({ queue with head := .stub }, some .setTail)
  | .setTail => ({ queue with tail := .stub }, none)

end MpscQueue

/-! Any number of producers and one consumer on one queue. -/

inductive ConsumerPc (Record : Type)
  | idle
  | pop (pc : PopPc Record)
  | empty (pc : EmptyPc Record)
  | reset (pc : ResetPc)

structure QueueWorld (Producer Record : Type) where
  queue : MpscQueue Record
  producers : Producer → Option (PushPc Record)
  consumer : ConsumerPc Record

inductive QueueAction (Producer Record : Type)
  /-- A producer calls `push`. -/
  | push (producer : Producer) (node : Record)
  /-- A producer takes the next step of its call. -/
  | produce (producer : Producer)
  | pop
  | empty
  | reset
  /-- The consumer takes the next step of its call. -/
  | consume

inductive QueueEvent (Producer Record : Type)
  | pushCalled (producer : Producer) (node : Record)
  | exchanged (producer : Producer) (node : Record)
  | pushReturned (producer : Producer) (node : Record)
  | popped (node : MpscNode Record)
  /-- `pop` returns null, at its load of `tail_`. -/
  | popNull
  | foundEmpty (answer : Bool)
  | resetReturned
  deriving DecidableEq

variable {Producer : Type}

def PushPc.event (producer : Producer) : PushPc Record → List (QueueEvent Producer Record)
  | .clearNext _ => []
  | .exchangeTail node => [.exchanged producer node]
  | .linkPrev node _ => [.pushReturned producer node]

variable [DecidableEq Producer] [DecidableEq Record]

def QueueWorld.consume (world : QueueWorld Producer Record) :
    Option (QueueWorld Producer Record × List (QueueEvent Producer Record)) :=
  match world.consumer with
  | .idle => none
  | .pop pc =>
      match world.queue.popStep pc with
      | (queue, .inl pc) => some ({ world with queue, consumer := .pop pc }, [])
      | (queue, .inr none) => some ({ world with queue, consumer := .idle }, [.popNull])
      | (queue, .inr (some node)) =>
          some ({ world with queue, consumer := .idle }, [.popped node])
  | .empty pc =>
      match world.queue.emptyStep pc with
      | .inl pc => some ({ world with consumer := .empty pc }, [])
      | .inr answer => some ({ world with consumer := .idle }, [.foundEmpty answer])
  | .reset pc =>
      match world.queue.resetStep pc with
      | (queue, some pc) => some ({ world with queue, consumer := .reset pc }, [])
      | (queue, none) => some ({ world with queue, consumer := .idle }, [.resetReturned])

def QueueWorld.step (world : QueueWorld Producer Record) :
    QueueAction Producer Record →
      Option (QueueWorld Producer Record × List (QueueEvent Producer Record))
  | .push producer node =>
      match world.producers producer with
      | none => some ({ world with
          producers := Function.update world.producers producer (some (.clearNext node)) },
          [.pushCalled producer node])
      | some _ => none
  | .produce producer =>
      match world.producers producer with
      | none => none
      | some pc =>
          let (queue, later) := world.queue.pushStep pc
          some ({ world with
            queue := queue
            producers := Function.update world.producers producer later }, pc.event producer)
  | .pop =>
      match world.consumer with
      | .idle => some ({ world with consumer := .pop .loadNext }, [])
      | _ => none
  | .empty =>
      match world.consumer with
      | .idle => some ({ world with consumer := .empty .loadNext }, [])
      | _ => none
  | .reset =>
      match world.consumer with
      | .idle => some ({ world with consumer := .reset .clearStub }, [])
      | _ => none
  | .consume => world.consume

def queueMachine (Producer Record : Type) [DecidableEq Producer] [DecidableEq Record] :
    EventMachine (QueueWorld Producer Record) (QueueAction Producer Record)
      (QueueEvent Producer Record) where
  start := { queue := .initial, producers := fun _ => none, consumer := .idle }
  step := QueueWorld.step

end MyServer
