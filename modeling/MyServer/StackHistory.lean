import Mathlib.Data.List.Nodup
import Mathlib.Data.List.Count

/-!
Histories of operations on a stack of distinct elements. A history is legal from an initial
stack when every push is of an element outside, every pop takes the top and every miss
finds the stack empty.
-/

namespace StackHistory

inductive StackOp (α : Type)
  | push (element : α)
  | pop (element : α)
  | miss
  deriving DecidableEq

section Replay

variable {α : Type} [DecidableEq α]

def applyOp (stack : List α) : StackOp α → Option (List α)
  | .push element => if element ∈ stack then none else some (element :: stack)
  | .pop element => if stack.head? = some element then some stack.tail else none
  | .miss => if stack = [] then some [] else none

def replay : List α → List (StackOp α) → Option (List α)
  | stack, [] => some stack
  | stack, op :: rest => (applyOp stack op).bind fun next => replay next rest

variable {initial stack next : List α} {element : α}

theorem applyOp_push : applyOp stack (.push element) = some next ↔
    element ∉ stack ∧ next = element :: stack := by
  by_cases inside : element ∈ stack
  · simp [applyOp, inside]
  · simp [applyOp, inside, eq_comm]

theorem applyOp_pop : applyOp stack (.pop element) = some next ↔ stack = element :: next := by
  cases stack with
  | nil => simp [applyOp]
  | cons top rest =>
      by_cases same : top = element
      · simp [applyOp, same]
      · simp [applyOp, same]

theorem applyOp_miss : applyOp stack .miss = some next ↔ stack = [] ∧ next = [] := by
  by_cases empty : stack = []
  · simp [applyOp, empty, eq_comm]
  · simp [applyOp, empty]

theorem replay_append (before after : List (StackOp α)) :
    replay initial (before ++ after) =
      (replay initial before).bind fun middle => replay middle after := by
  induction before generalizing initial with
  | nil => rfl
  | cons op rest ih =>
      rw [List.cons_append, replay, replay]
      cases applyOp initial op with
      | none => rfl
      | some next => exact ih

theorem replay_split {before after : List (StackOp α)}
    (legal : replay initial (before ++ after) = some stack) :
    ∃ middle, replay initial before = some middle ∧ replay middle after = some stack := by
  rw [replay_append] at legal
  exact Option.bind_eq_some_iff.mp legal

theorem replay_cons {op : StackOp α} {rest : List (StackOp α)}
    (legal : replay initial (op :: rest) = some stack) :
    ∃ next, applyOp initial op = some next ∧ replay next rest = some stack :=
  Option.bind_eq_some_iff.mp legal

theorem applyOp_nodup {op : StackOp α} (distinct : stack.Nodup)
    (legal : applyOp stack op = some next) : next.Nodup := by
  cases op with
  | push element =>
      obtain ⟨outside, rfl⟩ := applyOp_push.mp legal
      exact List.nodup_cons.mpr ⟨outside, distinct⟩
  | pop element =>
      obtain rfl := applyOp_pop.mp legal
      exact (List.nodup_cons.mp distinct).2
  | miss =>
      obtain ⟨_, rfl⟩ := applyOp_miss.mp legal
      exact List.nodup_nil

theorem replay_nodup {history : List (StackOp α)} (distinct : initial.Nodup)
    (legal : replay initial history = some stack) : stack.Nodup := by
  induction history generalizing initial with
  | nil =>
      obtain rfl : initial = stack := Option.some.inj legal
      exact distinct
  | cons op rest ih =>
      obtain ⟨next, first, later⟩ := replay_cons legal
      exact ih (applyOp_nodup distinct first) later

/-- No element is lost or invented. -/
theorem replay_count {history : List (StackOp α)} (legal : replay initial history = some stack)
    (element : α) :
    initial.count element + history.count (.push element) =
      stack.count element + history.count (.pop element) := by
  induction history generalizing initial with
  | nil =>
      obtain rfl : initial = stack := Option.some.inj legal
      rfl
  | cons op rest ih =>
      obtain ⟨next, first, later⟩ := replay_cons legal
      have balance := ih later
      cases op with
      | push other =>
          obtain ⟨_, rfl⟩ := applyOp_push.mp first
          by_cases same : other = element
          · subst same
            simp only [List.count_cons_self] at balance ⊢
            rw [List.count_cons_of_ne (by simp)]
            omega
          · rw [List.count_cons_of_ne same] at balance
            rw [List.count_cons_of_ne (by simpa using same), List.count_cons_of_ne (by simp)]
            omega
      | pop other =>
          obtain rfl := applyOp_pop.mp first
          by_cases same : other = element
          · subst same
            simp only [List.count_cons_self] at balance ⊢
            rw [List.count_cons_of_ne (by simp)]
            omega
          · rw [List.count_cons_of_ne same]
            rw [List.count_cons_of_ne (by simp), List.count_cons_of_ne (by simpa using same)]
            omega
      | miss =>
          obtain ⟨rfl, rfl⟩ := applyOp_miss.mp first
          rw [List.count_cons_of_ne (by simp), List.count_cons_of_ne (by simp)]
          omega

/-- An element that is off the stack is popped only after it has been pushed. -/
theorem pushed_before_pop {between after : List (StackOp α)} (outside : element ∉ initial)
    (legal : replay initial (between ++ .pop element :: after) = some stack) :
    .push element ∈ between := by
  induction between generalizing initial with
  | nil =>
      obtain ⟨next, first, _⟩ := replay_cons legal
      obtain rfl := applyOp_pop.mp first
      exact absurd List.mem_cons_self outside
  | cons op rest ih =>
      obtain ⟨next, first, later⟩ := replay_cons legal
      cases op with
      | push other =>
          obtain ⟨_, rfl⟩ := applyOp_push.mp first
          by_cases same : other = element
          · rw [same]
            exact List.mem_cons_self
          · have stillOutside : element ∉ other :: initial := by
              simp [Ne.symm same, outside]
            exact List.mem_cons_of_mem _ (ih stillOutside later)
      | pop other =>
          obtain rfl := applyOp_pop.mp first
          exact List.mem_cons_of_mem _ (ih (fun member =>
            outside (List.mem_cons_of_mem _ member)) later)
      | miss =>
          obtain ⟨rfl, rfl⟩ := applyOp_miss.mp first
          exact List.mem_cons_of_mem _ (ih outside later)

/-- Between two pops of an element stands a push of it. -/
theorem pops_separated {before between after : List (StackOp α)} (distinct : initial.Nodup)
    (legal : replay initial (before ++ .pop element :: (between ++ .pop element :: after)) =
      some stack) : .push element ∈ between := by
  obtain ⟨middle, early, rest⟩ := replay_split legal
  obtain ⟨next, first, later⟩ := replay_cons rest
  have unique := replay_nodup distinct early
  rw [applyOp_pop.mp first] at unique
  exact pushed_before_pop (List.nodup_cons.mp unique).1 later

theorem empty_at_miss {before after : List (StackOp α)}
    (legal : replay initial (before ++ .miss :: after) = some stack) :
    replay initial before = some [] := by
  obtain ⟨middle, early, rest⟩ := replay_split legal
  obtain ⟨next, first, _⟩ := replay_cons rest
  rw [early, (applyOp_miss.mp first).1]

end Replay

end StackHistory
