import Mathlib.Data.List.Basic
import Mathlib.Tactic.Common

/-!
Codes whose words can be told apart without separators. A word that ends in a delimiter
it does not otherwise contain is such a code, and a sequence of words decodes uniquely.
-/

namespace PrefixCode

variable {α β γ : Type}

def PrefixFree (encode : α → List β) : Prop :=
  ∀ left right rest rest', encode left ++ rest = encode right ++ rest' →
    left = right ∧ rest = rest'

theorem PrefixFree.sequence {encode : α → List β} (free : PrefixFree encode)
    (nonempty : ∀ word, encode word ≠ []) (left right : List α)
    (same : left.flatMap encode = right.flatMap encode) : left = right := by
  induction left generalizing right with
  | nil =>
      cases right with
      | nil => rfl
      | cons word right => simp [nonempty] at same
  | cons word left ih =>
      cases right with
      | nil => simp [nonempty] at same
      | cons other right =>
          simp only [List.flatMap_cons] at same
          obtain ⟨rfl, rest⟩ := free _ _ _ _ same
          rw [ih right rest]

/-- Two texts without the delimiter, each ended by it. -/
theorem delimited {delimiter : β} {left right rest rest' : List β} (leftFree : delimiter ∉ left)
    (rightFree : delimiter ∉ right)
    (same : left ++ delimiter :: rest = right ++ delimiter :: rest') :
    left = right ∧ rest = rest' := by
  induction left generalizing right with
  | nil =>
      cases right with
      | nil => simpa using same
      | cons c right =>
          obtain ⟨rfl, _⟩ := List.cons.inj same
          simp at rightFree
  | cons c left ih =>
      cases right with
      | nil =>
          obtain ⟨rfl, _⟩ := List.cons.inj same
          simp at leftFree
      | cons d right =>
          obtain ⟨rfl, tails⟩ := List.cons.inj same
          simp only [List.mem_cons, not_or] at leftFree rightFree
          obtain ⟨rfl, rests⟩ := ih leftFree.2 rightFree.2 tails
          exact ⟨rfl, rests⟩

theorem PrefixFree.delimited {delimiter : β} {value : α → List β}
    (injective : Function.Injective value) (absent : ∀ word, delimiter ∉ value word) :
    PrefixFree fun word => value word ++ [delimiter] := by
  intro left right rest rest' same
  obtain ⟨values, rests⟩ := PrefixCode.delimited (absent left) (absent right)
    (by simpa using same : value left ++ delimiter :: rest = value right ++ delimiter :: rest')
  exact ⟨injective values, rests⟩

/-- A fixed text in front of every word. -/
theorem PrefixFree.labelled {encode : α → List β} (free : PrefixFree encode) (label : List β) :
    PrefixFree fun word => label ++ encode word := by
  intro left right rest rest' same
  simp only [List.append_assoc, List.append_cancel_left_eq] at same
  exact free _ _ _ _ same

theorem PrefixFree.pair {first : α → List β} {second : γ → List β} (firstFree : PrefixFree first)
    (secondFree : PrefixFree second) :
    PrefixFree fun word : α × γ => first word.1 ++ second word.2 := by
  rintro ⟨a, c⟩ ⟨a', c'⟩ rest rest' same
  simp only [List.append_assoc] at same
  obtain ⟨rfl, tails⟩ := firstFree _ _ _ _ same
  obtain ⟨rfl, rests⟩ := secondFree _ _ _ _ tails
  exact ⟨rfl, rests⟩

theorem PrefixFree.comap {encode : α → List β} (free : PrefixFree encode) {view : γ → α}
    (injective : Function.Injective view) : PrefixFree fun word => encode (view word) := by
  intro left right rest rest' same
  obtain ⟨views, rests⟩ := free _ _ _ _ same
  exact ⟨injective views, rests⟩

end PrefixCode
