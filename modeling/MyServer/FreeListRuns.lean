import Mathlib.Data.Fintype.Basic
import MyServer.EventMachine
import MyServer.FreeListStack
import MyServer.StackHistory

/-!
Threads that call `push` and `try_pop` of one `FreeList`, one shared access at a time, in
any interleaving.
-/

namespace MyServer

variable {Thread Record : Type}

inductive FreeListCall (Record : Type)
  | idle
  | pushing (pc : FreePushPc Record)
  | popping (pc : FreePopPc Record)

def FreeListCall.inPush : FreeListCall Record → Bool
  | .pushing _ => true
  | _ => false

def FreeListCall.inPop : FreeListCall Record → Bool
  | .popping _ => true
  | _ => false

/-- `holder` is the thread that has a node: it popped the node, received it, or is inside
`push` with it. -/
structure FreeListThreads (Thread Record : Type) where
  list : FreeList Record
  calls : Thread → FreeListCall Record
  holder : Record → Option Thread

inductive FreeListAction (Thread Record : Type)
  | callPush (t : Thread) (node : Record)
  | callTryPop (t : Thread)
  /-- The next shared access of a call. -/
  | step (t : Thread) (spurious : Bool)
  /-- A node passes from a thread to another one, or to none. -/
  | handOver (t : Thread) (node : Record) (receiver : Option Thread)

inductive FreeListEvent (Thread Record : Type)
  | pushCalled (t : Thread) (node : Record)
  | pushed (t : Thread) (node : Record)
  | tryPopCalled (t : Thread)
  | popped (t : Thread) (node : Record)
  /-- `try_pop` returns `nullptr`. -/
  | missed (t : Thread)
  deriving DecidableEq

namespace FreeListThreads

variable [DecidableEq Thread] [DecidableEq Record]

def goto (state : FreeListThreads Thread Record) (t : Thread) (call : FreeListCall Record) :
    FreeListThreads Thread Record :=
  { state with calls := Function.update state.calls t call }

def hold (state : FreeListThreads Thread Record) (node : Record) (holder : Option Thread) :
    FreeListThreads Thread Record :=
  { state with holder := Function.update state.holder node holder }

def pushAccess (state : FreeListThreads Thread Record) (t : Thread) (spurious : Bool)
    (pc : FreePushPc Record) :
    FreeListThreads Thread Record × List (FreeListEvent Thread Record) :=
  match state.list.pushStep spurious pc with
  | (list, some later) => ({ state with list }.goto t (.pushing later), [])
  | (list, none) =>
      (({ state with list }.hold pc.node none).goto t .idle, [.pushed t pc.node])

def popAccess (state : FreeListThreads Thread Record) (t : Thread) (spurious : Bool)
    (pc : FreePopPc Record) :
    FreeListThreads Thread Record × List (FreeListEvent Thread Record) :=
  match state.list.popStep spurious pc with
  | (list, .inl later) => ({ state with list }.goto t (.popping later), [])
  | (list, .inr none) => ({ state with list }.goto t .idle, [.missed t])
  | (list, .inr (some node)) =>
      (({ state with list }.hold node (some t)).goto t .idle, [.popped t node])

def step (state : FreeListThreads Thread Record) :
    FreeListAction Thread Record →
      Option (FreeListThreads Thread Record × List (FreeListEvent Thread Record))
  | .callPush t node =>
      match state.calls t with
      | .idle => some ((state.hold node (some t)).goto t (.pushing (.loadHead node)),
          [.pushCalled t node])
      | _ => none
  | .callTryPop t =>
      match state.calls t with
      | .idle => some (state.goto t (.popping .loadHead), [.tryPopCalled t])
      | _ => none
  | .step t spurious =>
      match state.calls t with
      | .idle => none
      | .pushing pc => some (state.pushAccess t spurious pc)
      | .popping pc => some (state.popAccess t spurious pc)
  | .handOver t node receiver =>
      match state.calls t with
      | .idle => if state.holder node = some t then some (state.hold node receiver, []) else none
      | _ => none

end FreeListThreads

def freeListMachine (Thread : Type) [DecidableEq Thread] [DecidableEq Record]
    (list : FreeList Record) :
    EventMachine (FreeListThreads Thread Record) (FreeListAction Thread Record)
      (FreeListEvent Thread Record) where
  start := ⟨list, fun _ => .idle, fun _ => none⟩
  step := FreeListThreads.step

/-- The safe regimes: any number of poppers and no push beside them, or any number of
pushers and one thread at a time in `try_pop`. -/
inductive Regime
  | popsWithoutPushes
  | onePopper
  deriving DecidableEq, Repr

def Pushable (state : FreeListThreads Thread Record) (t : Thread) (node : Record) : Prop :=
  (∀ stack, state.list.Holds stack → node ∉ stack) ∧
    ∀ other, state.holder node = some other → other = t

def inRegime (regime : Regime) (_ : List (FreeListEvent Thread Record))
    (state : FreeListThreads Thread Record) : FreeListAction Thread Record → Prop
  | .callPush t node => Pushable state t node ∧
      (regime = .popsWithoutPushes → ∀ other, (state.calls other).inPop = false)
  | .callTryPop _ =>
      match regime with
      | .popsWithoutPushes => ∀ other, (state.calls other).inPush = false
      | .onePopper => ∀ other, (state.calls other).inPop = false
  | .step _ _ => True
  | .handOver _ _ _ => True

def FreeListEvent.operation : FreeListEvent Thread Record → Option (StackHistory.StackOp Record)
  | .pushed _ node => some (.push node)
  | .popped _ node => some (.pop node)
  | .missed _ => some .miss
  | .pushCalled _ _ => none
  | .tryPopCalled _ => none

def operations (trace : List (FreeListEvent Thread Record)) :
    List (StackHistory.StackOp Record) :=
  trace.filterMap FreeListEvent.operation

end MyServer
