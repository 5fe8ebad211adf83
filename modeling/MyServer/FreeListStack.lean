import MyServer.FreeListCore

/-!
The stack a Treiber list holds: the records from `head_` along `free_next`. A push keeps it
one list as long as the pushed record is not on it, and a pop as long as the successor it
has read is still the successor of the head.
-/

namespace MyServer

variable {Record : Type}

def FreePushPc.node : FreePushPc Record → Record
  | .loadHead node | .writeNext node _ | .exchange node _ => node

namespace FreeList

def Linked (next : Record → Option Record) : Option Record → List Record → Prop
  | first, [] => first = none
  | first, record :: rest => first = some record ∧ Linked next (next record) rest

def Holds (list : FreeList Record) (stack : List Record) : Prop :=
  Linked list.freeNext list.head stack

def PushSound (list : FreeList Record) : FreePushPc Record → Prop
  | .exchange node h => list.freeNext node = h
  | _ => True

variable [DecidableEq Record] {list after : FreeList Record} {stack : List Record}
variable {spurious : Bool}

/-- A compare-exchange of `try_pop` that succeeds and installs an old successor. -/
def stale (list : FreeList Record) (spurious : Bool) : FreePopPc Record → Bool
  | .exchange h next =>
      decide (spurious = false ∧ list.head = some h ∧ list.freeNext h ≠ next)
  | _ => false

theorem Linked.write {next : Record → Option Record} {node : Record} {value : Option Record} :
    ∀ {stack : List Record} {first : Option Record}, Linked next first stack → node ∉ stack →
      Linked (Function.update next node value) first stack := by
  intro stack
  induction stack with
  | nil => exact fun linked _ => linked
  | cons record rest ih =>
      rintro first ⟨top, linked⟩ outside
      rw [List.mem_cons, not_or] at outside
      refine ⟨top, ?_⟩
      rw [Function.update_of_ne (Ne.symm outside.1)]
      exact ih linked outside.2

omit [DecidableEq Record] in
theorem Holds.head (holds : list.Holds stack) : list.head = stack.head? := by
  cases stack with
  | nil => exact holds
  | cons record rest => exact holds.1

theorem Holds.pushes (holds : list.Holds stack) {pc later : FreePushPc Record}
    (outside : pc.node ∉ stack) (ran : list.pushStep spurious pc = (after, some later)) :
    after.Holds stack ∧ later.node = pc.node ∧ after.PushSound later := by
  cases pc with
  | loadHead node =>
      cases ran
      exact ⟨holds, rfl, trivial⟩
  | writeNext node h =>
      cases ran
      exact ⟨Linked.write holds outside, rfl, by simp [PushSound]⟩
  | exchange node h =>
      rw [pushStep] at ran
      split at ran
      · simp at ran
      · cases ran
        exact ⟨holds, rfl, trivial⟩

theorem Holds.pushed (holds : list.Holds stack) {pc : FreePushPc Record}
    (sound : list.PushSound pc) (ran : list.pushStep spurious pc = (after, none)) :
    after.Holds (pc.node :: stack) := by
  cases pc with
  | loadHead node => simp [pushStep] at ran
  | writeNext node h => simp [pushStep] at ran
  | exchange node h =>
      rw [pushStep] at ran
      split at ran
      · rename_i succeeds
        cases ran
        refine ⟨rfl, ?_⟩
        have linked : Linked list.freeNext list.head stack := holds
        rwa [succeeds.2, ← show list.freeNext node = h from sound] at linked
      · simp at ran

omit [DecidableEq Record] in
theorem popFrom_none {first : Option Record}
    (missed : (popFrom first : FreePopPc Record ⊕ Option Record) = .inr none) : first = none := by
  cases first with
  | none => rfl
  | some record => simp [popFrom] at missed

theorem popStep_continues {pc later : FreePopPc Record}
    (ran : list.popStep spurious pc = (after, .inl later)) : after = list := by
  cases pc with
  | loadHead | readNext h => exact (congrArg Prod.fst ran).symm
  | exchange h next =>
      rw [popStep] at ran
      split at ran
      · simp at ran
      · exact (congrArg Prod.fst ran).symm

theorem Holds.misses (holds : list.Holds stack) {pc : FreePopPc Record}
    (ran : list.popStep spurious pc = (after, .inr none)) : after = list ∧ stack = [] := by
  have emptied : list.head = none → stack = [] := by
    intro none
    rw [holds.head] at none
    exact List.head?_eq_none_iff.mp none
  cases pc with
  | loadHead =>
      exact ⟨(congrArg Prod.fst ran).symm, emptied (popFrom_none (congrArg Prod.snd ran))⟩
  | readNext h => simp [popStep] at ran
  | exchange h next =>
      rw [popStep] at ran
      split at ran
      · simp at ran
      · exact ⟨(congrArg Prod.fst ran).symm, emptied (popFrom_none (congrArg Prod.snd ran))⟩

/-- Only a compare-exchange that succeeds hands out a record. -/
theorem popStep_record {pc : FreePopPc Record} {record : Record}
    (ran : list.popStep spurious pc = (after, .inr (some record))) :
    spurious = false ∧ list.head = some record ∧
      ∃ next, pc = .exchange record next ∧ after = { list with head := next } := by
  have noneFrom : ∀ first : Option Record,
      (popFrom first : FreePopPc Record ⊕ Option Record) ≠ .inr (some record) := by
    intro first
    cases first <;> simp [popFrom]
  cases pc with
  | loadHead => exact absurd (congrArg Prod.snd ran) (noneFrom _)
  | readNext h => simp [popStep] at ran
  | exchange h next =>
      rw [popStep] at ran
      split at ran
      · rename_i succeeds
        cases ran
        exact ⟨succeeds.1, succeeds.2, next, rfl, rfl⟩
      · exact absurd (congrArg Prod.snd ran) (noneFrom _)

theorem popStep_spurious {record : Record} {next : Option Record} (top : list.head = some record) :
    list.popStep true (.exchange record next) = (list, .inl (.readNext record)) := by
  simp [popStep, top, popFrom]

theorem Holds.pops (holds : list.Holds stack) {pc : FreePopPc Record} {record : Record}
    (fresh : list.stale false pc = false)
    (ran : list.popStep spurious pc = (after, .inr (some record))) :
    ∃ rest, stack = record :: rest ∧ after.Holds rest ∧ after.freeNext = list.freeNext := by
  obtain ⟨_, top, next, rfl, rfl⟩ := popStep_record ran
  have successor : list.freeNext record = next := by
    by_contra other
    simp [stale, top, other] at fresh
  rw [holds.head] at top
  obtain ⟨rest, rfl⟩ := List.head?_eq_some_iff.mp top
  exact ⟨rest, rfl, successor ▸ holds.2, rfl⟩

end FreeList

end MyServer
