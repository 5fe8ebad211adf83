import Mathlib.Data.List.Nodup
import Mathlib.Data.List.Infix
import Mathlib.Tactic.Common

/-!
Neighbours in a list. In a list without repetition each element has at most one
neighbour on either side, and the last one has none on the right.
-/

namespace List

variable {α : Type} {l : List α} {a b c x : α}

def Adjacent (l : List α) (a b : α) : Prop := [a, b] <:+: l

theorem not_adjacent_nil : ¬Adjacent [] a b := by
  simp [Adjacent]

theorem adjacent_cons : Adjacent (x :: l) a b ↔ (a = x ∧ l.head? = some b) ∨ Adjacent l a b := by
  rw [Adjacent, List.infix_cons_iff, List.cons_prefix_cons, ← Adjacent]
  cases l <;> simp [eq_comm]

theorem adjacent_concat :
    Adjacent (l ++ [x]) a b ↔ Adjacent l a b ∨ (l.getLast? = some a ∧ b = x) := by
  induction l with
  | nil => simp [Adjacent, List.infix_cons_iff]
  | cons first rest ih =>
      rw [List.cons_append, adjacent_cons, adjacent_cons, ih]
      cases rest with
      | nil => simp [not_adjacent_nil, eq_comm]
      | cons second tail => simp [or_assoc]

theorem Adjacent.left_mem (adjacent : Adjacent l a b) : a ∈ l :=
  adjacent.subset (by simp)

theorem Adjacent.right_mem (adjacent : Adjacent l a b) : b ∈ l :=
  adjacent.subset (by simp)

theorem Adjacent.right_mem_tail (adjacent : Adjacent (x :: l) a b) : b ∈ l := by
  rcases adjacent_cons.mp adjacent with ⟨_, first⟩ | later
  · exact List.mem_of_head? first
  · exact later.right_mem

theorem Adjacent.unique_right (nodup : l.Nodup) (first : Adjacent l a b)
    (second : Adjacent l a c) : b = c := by
  induction l with
  | nil => exact absurd first not_adjacent_nil
  | cons head tail ih =>
      obtain ⟨fresh, nodup⟩ := List.nodup_cons.mp nodup
      rcases adjacent_cons.mp first with ⟨rfl, here⟩ | later
      · rcases adjacent_cons.mp second with ⟨_, alsoHere⟩ | alsoLater
        · exact Option.some.inj (here.symm.trans alsoHere)
        · exact absurd alsoLater.left_mem fresh
      · rcases adjacent_cons.mp second with ⟨rfl, alsoHere⟩ | alsoLater
        · exact absurd later.left_mem fresh
        · exact ih nodup later alsoLater

theorem Adjacent.ne (nodup : l.Nodup) (adjacent : Adjacent l a b) : a ≠ b := by
  have pair := nodup.sublist adjacent.sublist
  simpa using pair

theorem Adjacent.not_last (nodup : l.Nodup) (adjacent : Adjacent l a b) :
    l.getLast? ≠ some a := by
  induction l with
  | nil => exact absurd adjacent not_adjacent_nil
  | cons head tail ih =>
      obtain ⟨fresh, nodup⟩ := List.nodup_cons.mp nodup
      cases tail with
      | nil => simpa [not_adjacent_nil] using adjacent_cons.mp adjacent
      | cons second rest =>
          rw [List.getLast?_cons_cons]
          rcases adjacent_cons.mp adjacent with ⟨rfl, _⟩ | later
          · exact fun last => fresh (List.mem_of_getLast? last)
          · exact ih nodup later

/-- An element that is not the last one has a right neighbour. -/
theorem last_or_adjacent (inside : a ∈ l) : l.getLast? = some a ∨ ∃ b, Adjacent l a b := by
  induction l with
  | nil => simp at inside
  | cons head tail ih =>
      cases tail with
      | nil => simp_all
      | cons second rest =>
          rw [List.getLast?_cons_cons]
          rcases List.mem_cons.mp inside with rfl | later
          · exact .inr ⟨second, adjacent_cons.mpr (.inl ⟨rfl, rfl⟩)⟩
          · rcases ih later with last | ⟨b, adjacent⟩
            · exact .inl last
            · exact .inr ⟨b, adjacent_cons.mpr (.inr adjacent)⟩

theorem eq_nil_of_getLast?_head (nodup : (x :: l).Nodup) (last : (x :: l).getLast? = some x) :
    l = [] := by
  cases l with
  | nil => rfl
  | cons second rest =>
      rw [List.getLast?_cons_cons] at last
      exact absurd (List.mem_of_getLast? last) (List.nodup_cons.mp nodup).1

end List
