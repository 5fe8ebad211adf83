import Mathlib.Algebra.BigOperators.Group.Finset.Piecewise
import Mathlib.Algebra.Order.BigOperators.Group.Finset
import Mathlib.Data.Fintype.BigOperators

/-!
Counting the threads whose local state has a property, while one thread changes its state
at a time.
-/

namespace MyServer

variable {Thread Local : Type} [Fintype Thread]

def countWhere (holds : Local → Bool) (locals : Thread → Local) : Nat :=
  (Finset.univ.filter fun thread => holds (locals thread) = true).card

theorem countWhere_update [DecidableEq Thread] (holds : Local → Bool) (locals : Thread → Local)
    (thread : Thread) (value : Local) :
    countWhere holds (Function.update locals thread value) +
        (if holds (locals thread) then 1 else 0) =
      countWhere holds locals + if holds value then 1 else 0 := by
  have through : ∀ other, (if holds (Function.update locals thread value other) = true then 1 else 0) =
      Function.update (fun other => if holds (locals other) = true then 1 else 0) thread
        (if holds value then 1 else 0) other := by
    intro other
    by_cases same : other = thread <;> simp [same]
  have split := Finset.sum_erase_add Finset.univ
    (fun other => if holds (locals other) = true then 1 else 0) (Finset.mem_univ thread)
  simp only [countWhere, Finset.card_filter, through]
  rw [Finset.sum_update_of_mem (Finset.mem_univ thread), Finset.sdiff_singleton_eq_erase]
  omega

theorem countWhere_eq_zero {holds : Local → Bool} {locals : Thread → Local}
    (none : ∀ thread, holds (locals thread) = false) : countWhere holds locals = 0 := by
  simp [countWhere, none]

section Subset

variable {Caller : Type} (threads : Finset Caller)

def countIn (holds : Local → Bool) (locals : Caller → Local) : Nat :=
  (threads.filter fun thread => holds (locals thread) = true).card

variable {threads} {holds other : Local → Bool} {locals : Caller → Local} {thread : Caller}

theorem countIn_update [DecidableEq Caller] (inside : thread ∈ threads) (value : Local) :
    countIn threads holds (Function.update locals thread value) +
        (if holds (locals thread) then 1 else 0) =
      countIn threads holds locals + if holds value then 1 else 0 := by
  have through : ∀ each, (if holds (Function.update locals thread value each) = true then 1 else 0) =
      Function.update (fun each => if holds (locals each) = true then 1 else 0) thread
        (if holds value then 1 else 0) each := by
    intro each
    by_cases same : each = thread <;> simp [same]
  have split := Finset.sum_erase_add threads
    (fun each => if holds (locals each) = true then 1 else 0) inside
  simp only [countIn, Finset.card_filter, through]
  rw [Finset.sum_update_of_mem inside, Finset.sdiff_singleton_eq_erase]
  omega

theorem countIn_same [DecidableEq Caller] {value : Local}
    (same : holds value = holds (locals thread)) :
    countIn threads holds (Function.update locals thread value) = countIn threads holds locals := by
  unfold countIn
  congr 1
  refine Finset.filter_congr fun each _ => ?_
  by_cases here : each = thread <;> simp [here, same]

/-- Two exclusive properties and a thread with neither. -/
theorem countIn_exclusive (inside : thread ∈ threads)
    (exclusive : ∀ value, holds value = true → other value = false)
    (neither : holds (locals thread) = false ∧ other (locals thread) = false) :
    countIn threads holds locals + countIn threads other locals + 1 ≤ threads.card := by
  classical
  have disjoint : Disjoint (threads.filter fun each => holds (locals each) = true)
      (threads.filter fun each => other (locals each) = true) := by
    rw [Finset.disjoint_filter]
    intro each _ left right
    simp [exclusive _ left] at right
  have fewer : (threads.filter fun each => holds (locals each) = true) ∪
      (threads.filter fun each => other (locals each) = true) ⊆ threads.erase thread := by
    intro each member
    rw [Finset.mem_union, Finset.mem_filter, Finset.mem_filter] at member
    refine Finset.mem_erase.mpr ⟨?_, member.elim And.left And.left⟩
    rintro rfl
    rcases member with ⟨_, left⟩ | ⟨_, right⟩
    · simp [neither.1] at left
    · simp [neither.2] at right
  have bound := Finset.card_le_card fewer
  rw [Finset.card_union_of_disjoint disjoint, Finset.card_erase_of_mem inside] at bound
  have some := Finset.card_pos.mpr ⟨thread, inside⟩
  unfold countIn
  omega

def loadIn (threads : Finset Caller) (weight : Local → Nat) (locals : Caller → Local) : Nat :=
  ∑ each ∈ threads, weight (locals each)

/-- One thread changes its state while no weight grows. -/
theorem loadIn_update_le [DecidableEq Caller] {weight later : Local → Nat}
    (lower : ∀ value, later value ≤ weight value) (inside : thread ∈ threads) (value : Local) :
    loadIn threads later (Function.update locals thread value) + weight (locals thread) ≤
      loadIn threads weight locals + later value := by
  have before := Finset.sum_erase_add threads (fun each => weight (locals each)) inside
  have after := Finset.sum_erase_add threads
    (fun each => later (Function.update locals thread value each)) inside
  have others : ∑ each ∈ threads.erase thread, later (Function.update locals thread value each) ≤
      ∑ each ∈ threads.erase thread, weight (locals each) := by
    apply Finset.sum_le_sum
    intro each member
    rw [Function.update_of_ne (Finset.ne_of_mem_erase member)]
    exact lower (locals each)
  simp only [Function.update_self] at after
  unfold loadIn
  omega

theorem loadIn_le {weight : Local → Nat} {bound : Nat}
    (bounded : ∀ value, weight value ≤ if holds value then bound else 0) :
    loadIn threads weight locals ≤ bound * countIn threads holds locals := by
  have total : ∑ each ∈ threads, weight (locals each) ≤
      ∑ each ∈ threads, if holds (locals each) then bound else 0 :=
    Finset.sum_le_sum fun each _ => bounded (locals each)
  rw [← Finset.sum_filter, Finset.sum_const, Nat.nsmul_eq_mul, Nat.mul_comm] at total
  exact total

end Subset

end MyServer
