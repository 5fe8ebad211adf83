import Mathlib.Logic.Function.Basic

/-!
`FreeList`, one shared access at a time, and the stack it stands for. Both are given as
the steps of their calls, so that a client of the free list can be run over either.
-/

namespace MyServer

/-- The steps of `push` and `try_pop` on a shared state. The flag of a step says whether a
`compare_exchange_weak` fails although it finds the value it expects. -/
structure FreeListSteps (Record : Type) where
  Shared : Type
  PushPc : Type
  PopPc : Type
  empty : Shared
  /-- Entry of `push(n)`. -/
  push : Record → PushPc
  /-- Entry of `try_pop()`. -/
  pop : PopPc
  pushStep : Shared → PushPc → Bool → Shared × Option PushPc
  popStep : Shared → PopPc → Bool → Shared × (PopPc ⊕ Option Record)

/-- `push` and `try_pop` as atomic operations on a stack. -/
def atomicFreeList (Record : Type) : FreeListSteps Record where
  Shared := List Record
  PushPc := Record
  PopPc := Unit
  empty := []
  push := id
  pop := ()
  pushStep := fun stack node _ => (node :: stack, none)
  popStep := fun stack _ _ => (stack.tail, .inr stack.head?)

section Atomic

variable {Record : Type} {stack after : List Record} {spurious : Bool}

theorem atomic_push {node : Record} {later : Option Record}
    (ran : (atomicFreeList Record).pushStep stack node spurious = (after, later)) :
    after = node :: stack ∧ later = none :=
  ⟨(congrArg Prod.fst ran).symm, (congrArg Prod.snd ran).symm⟩

theorem atomic_pop {pc : Unit} {result : Unit ⊕ Option Record}
    (ran : (atomicFreeList Record).popStep stack pc spurious = (after, result)) :
    after = stack.tail ∧ result = .inr stack.head? :=
  ⟨(congrArg Prod.fst ran).symm, (congrArg Prod.snd ran).symm⟩

end Atomic

structure FreeList (Record : Type) where
  head : Option Record
  freeNext : Record → Option Record

/-- `push(n)`: load `head_`; store `n->free_next`; compare-exchange `head_`, in a loop. -/
inductive FreePushPc (Record : Type)
  | loadHead (node : Record)
  | writeNext (node : Record) (h : Option Record)
  | exchange (node : Record) (h : Option Record)

/-- `try_pop()`: load `head_`; read `h->free_next`; compare-exchange `head_`, in a loop. -/
inductive FreePopPc (Record : Type)
  | loadHead
  | readNext (h : Record)
  | exchange (h : Record) (next : Option Record)

namespace FreeList

variable {Record : Type} [DecidableEq Record] (list : FreeList Record)

def pushStep (spurious : Bool) : FreePushPc Record → FreeList Record × Option (FreePushPc Record)
  | .loadHead node => (list, some (.writeNext node list.head))
  | .writeNext node h =>
      ({ list with freeNext := Function.update list.freeNext node h }, some (.exchange node h))
  | .exchange node h =>
      if spurious = false ∧ list.head = h then ({ list with head := some node }, none)
      else (list, some (.writeNext node list.head))

/-- The loop test of `try_pop` on the value just loaded. -/
def popFrom : Option Record → FreePopPc Record ⊕ Option Record
  | none => .inr none
  | some h => .inl (.readNext h)

def popStep (spurious : Bool) :
    FreePopPc Record → FreeList Record × (FreePopPc Record ⊕ Option Record)
  | .loadHead => (list, popFrom list.head)
  | .readNext h => (list, .inl (.exchange h (list.freeNext h)))
  | .exchange h next =>
      if spurious = false ∧ list.head = some h then ({ list with head := next }, .inr (some h))
      else (list, popFrom list.head)

end FreeList

/-- `FreeList` as it is written: a Treiber stack without a tag. -/
def treiberFreeList (Record : Type) [DecidableEq Record] : FreeListSteps Record where
  Shared := FreeList Record
  PushPc := FreePushPc Record
  PopPc := FreePopPc Record
  empty := ⟨none, fun _ => none⟩
  push := .loadHead
  pop := .loadHead
  pushStep := fun list pc spurious => list.pushStep spurious pc
  popStep := fun list pc spurious => list.popStep spurious pc

end MyServer
