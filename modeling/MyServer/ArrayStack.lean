import Mathlib.Data.Finset.Card
import Mathlib.Data.List.Nodup
import Mathlib.Data.List.Range

/-!
A stack kept in the first cells of an array next to a count: the idiom
`array[count++] = x` and `array[--count]`. `contents` is the list it stands for,
oldest element first.
-/

namespace ArrayStack

variable {α : Type}

def contents (cells : Nat → α) (count : Nat) : List α := (List.range count).map cells

@[simp] theorem contents_zero (cells : Nat → α) : contents cells 0 = [] := rfl

@[simp] theorem length_contents (cells : Nat → α) (count : Nat) :
    (contents cells count).length = count := by
  simp [contents]

theorem contents_succ (cells : Nat → α) (count : Nat) :
    contents cells (count + 1) = contents cells count ++ [cells count] := by
  simp [contents, List.range_succ]

theorem mem_contents {cells : Nat → α} {count : Nat} {value : α} :
    value ∈ contents cells count ↔ ∃ index < count, cells index = value := by
  simp [contents]

theorem cell_mem (cells : Nat → α) {count index : Nat} (bound : index < count) :
    cells index ∈ contents cells count :=
  mem_contents.mpr ⟨index, bound, rfl⟩

/-- A write at or above the count leaves the stack as it is. -/
theorem contents_update_of_le (cells : Nat → α) {count index : Nat} (value : α)
    (above : count ≤ index) :
    contents (Function.update cells index value) count = contents cells count := by
  apply List.map_congr_left
  intro i member
  have below : i < count := List.mem_range.mp member
  exact Function.update_of_ne (by omega) _ _

/-- `cells[count++] = value`. -/
theorem contents_push (cells : Nat → α) (count : Nat) (value : α) :
    contents (Function.update cells count value) (count + 1) =
      contents cells count ++ [value] := by
  rw [contents_succ, contents_update_of_le _ _ (Nat.le_refl _), Function.update_self]

theorem nodup_push {cells : Nat → α} {count : Nat} {value : α}
    (unique : (contents cells count).Nodup) (absent : value ∉ contents cells count) :
    (contents (Function.update cells count value) (count + 1)).Nodup := by
  rw [contents_push]
  exact List.nodup_append.mpr ⟨unique, List.nodup_singleton _, by
    intro other member value' same
    simp only [List.mem_singleton] at same
    rintro rfl
    exact absent (same ▸ member)⟩

/-- `cells[--count]`: the popped element leaves the stack, the rest stays distinct. -/
theorem nodup_pop {cells : Nat → α} {count : Nat}
    (unique : (contents cells (count + 1)).Nodup) :
    (contents cells count).Nodup ∧ cells count ∉ contents cells count := by
  rw [contents_succ, List.nodup_append] at unique
  refine ⟨unique.1, fun member => ?_⟩
  exact unique.2.2 _ member _ (by simp) rfl

theorem mem_pop {cells : Nat → α} {count : Nat} {value : α}
    (unique : (contents cells (count + 1)).Nodup) :
    value ∈ contents cells count ↔ value ∈ contents cells (count + 1) ∧ value ≠ cells count := by
  have absent := (nodup_pop unique).2
  rw [contents_succ]
  simp only [List.mem_append, List.mem_singleton]
  constructor
  · intro member
    exact ⟨Or.inl member, fun same => absent (same ▸ member)⟩
  · rintro ⟨member | same, different⟩
    · exact member
    · exact absurd same different

theorem count_le_card [DecidableEq α] {cells : Nat → α} {count : Nat} {pool : Finset α}
    (unique : (contents cells count).Nodup)
    (inside : ∀ value ∈ contents cells count, value ∈ pool) : count ≤ pool.card := by
  have bound := Finset.card_le_card fun value member =>
    inside value (List.mem_toFinset.mp member)
  rwa [List.toFinset_card_of_nodup unique, length_contents] at bound

theorem count_eq_card [DecidableEq α] {cells : Nat → α} {count : Nat} {pool : Finset α}
    (unique : (contents cells count).Nodup)
    (exact' : ∀ value, value ∈ contents cells count ↔ value ∈ pool) :
    count = pool.card := by
  have same : (contents cells count).toFinset = pool := by
    ext value
    simp [exact']
  rw [← same, List.toFinset_card_of_nodup unique, length_contents]

end ArrayStack
