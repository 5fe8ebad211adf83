import Mathlib.Data.List.Infix
import Mathlib.Data.List.TakeWhile

/-!
Searching a list for a pattern. `cut` splits a list at the first occurrence and is what the
proofs use; `find` is the same search with positions, the way string classes offer it.
-/

namespace TextSearch

variable {α : Type} [DecidableEq α]

def cut (key : List α) : List α → Option (List α × List α)
  | [] => if key.isPrefixOf [] then some ([], []) else none
  | c :: text =>
      if key.isPrefixOf (c :: text) then some ([], (c :: text).drop key.length)
      else (cut key text).map fun parts => (c :: parts.1, parts.2)

def findFrom (key : List α) : List α → Nat → Option Nat
  | [], index => if key.isPrefixOf [] then some index else none
  | c :: text, index =>
      if key.isPrefixOf (c :: text) then some index else findFrom key text (index + 1)

def find (text key : List α) (pos : Nat) : Option Nat :=
  if pos ≤ text.length then findFrom key (text.drop pos) pos else none

theorem findFrom_eq (key text : List α) (index : Nat) :
    findFrom key text index = (cut key text).map fun parts => index + parts.1.length := by
  induction text generalizing index with
  | nil =>
      simp only [findFrom, cut]
      split <;> rfl
  | cons c text ih =>
      simp only [findFrom, cut]
      split
      · rfl
      · rw [ih, Option.map_map]
        congr 1
        funext parts
        simp only [Function.comp_apply, List.length_cons]
        omega

theorem find_eq {text : List α} {pos : Nat} (bound : pos ≤ text.length) (key : List α) :
    find text key pos = (cut key (text.drop pos)).map fun parts => pos + parts.1.length := by
  rw [find, if_pos bound, findFrom_eq]

theorem cut_some {key text before after : List α} (found : cut key text = some (before, after)) :
    text = before ++ key ++ after := by
  induction text generalizing before with
  | nil =>
      simp only [cut] at found
      split at found
      · rename_i here
        obtain ⟨rfl, rfl⟩ := Prod.mk.inj (Option.some.inj found)
        simpa using (List.isPrefixOf_iff_prefix.mp here)
      · simp at found
  | cons c text ih =>
      simp only [cut] at found
      split at found
      · rename_i here
        obtain ⟨rfl, rfl⟩ := Prod.mk.inj (Option.some.inj found)
        obtain ⟨rest, same⟩ := List.isPrefixOf_iff_prefix.mp here
        rw [← same]
        simp
      · obtain ⟨⟨first, last⟩, rest, same⟩ := Option.map_eq_some_iff.mp found
        obtain ⟨rfl, rfl⟩ := Prod.mk.inj same
        rw [ih rest]
        simp

omit [DecidableEq α] in
/-- A delimiter that the pattern does not contain separates the places where it can stand. -/
theorem prefix_delimited {key text rest : List α} {delimiter : α} (absent : delimiter ∉ key)
    (here : key <+: text ++ delimiter :: rest) : key <+: text := by
  obtain ⟨after, same⟩ := here
  rcases List.append_eq_append_iff.mp same with ⟨more, rfl, _⟩ | ⟨more, rfl, split⟩
  · exact List.prefix_append _ _
  · cases more with
    | nil => simp
    | cons d more =>
        obtain ⟨rfl, _⟩ := List.cons.inj split
        exact absurd (by simp) absent

theorem cut_skip {key text : List α} {delimiter : α} (nonempty : key ≠ [])
    (absent : delimiter ∉ key) (free : ¬key <:+: text) (rest : List α) :
    cut key (text ++ delimiter :: rest) =
      (cut key rest).map fun parts => (text ++ delimiter :: parts.1, parts.2) := by
  induction text with
  | nil =>
      have notHere : ¬key <+: delimiter :: rest := by
        intro here
        have empty : key <+: [] := prefix_delimited absent here
        exact nonempty (List.prefix_nil.mp empty)
      simp [cut, List.isPrefixOf_iff_prefix, notHere]
  | cons c text ih =>
      rw [List.infix_cons_iff, not_or] at free
      have notHere : ¬key <+: c :: (text ++ delimiter :: rest) := by
        intro here
        have inText : key <+: c :: text := prefix_delimited absent here
        exact free.1 inText
      simp only [List.cons_append, cut, List.isPrefixOf_iff_prefix, notHere, if_false, ih free.2,
        Option.map_map]
      rfl

theorem cut_here (key after : List α) : cut key (key ++ after) = some ([], after) := by
  cases key with
  | nil => cases after <;> simp [cut]
  | cons c key =>
      simp [cut, List.isPrefixOf_iff_prefix]

omit [DecidableEq α] in
/-- A pattern that ends in a character the tail lacks ends before the tail. -/
theorem infix_of_last {key name tail : List α} {last : α} (absent : last ∉ tail)
    (here : key ++ [last] <:+: name ++ tail) : key ++ [last] <:+: name := by
  obtain ⟨before, after, same⟩ := here
  have grouped : (before ++ key ++ [last]) ++ after = name ++ tail := by simpa using same
  rcases List.append_eq_append_iff.mp grouped with ⟨more, rfl, _⟩ | ⟨more, joined, rfl⟩
  · exact ⟨before, more, by simp⟩
  · rcases List.eq_nil_or_concat more with rfl | ⟨most, final, rfl⟩
    · exact ⟨before, [], by simpa using joined⟩
    · have sameLast : last = final := by
        have ends := congrArg List.getLast? joined
        simpa using ends
      exact absurd (by simp [sameLast]) absent

theorem length_before (delimiter : α) (text : List α) :
    ((cut [delimiter] text).map fun parts => parts.1.length).getD text.length =
      (text.takeWhile (· ≠ delimiter)).length := by
  induction text with
  | nil => simp [cut]
  | cons c text ih =>
      by_cases same : c = delimiter
      · simp [cut, same]
      · have notHere : ¬[delimiter] <+: c :: text := by
          simp [List.cons_prefix_cons, Ne.symm same]
        simp only [cut, List.isPrefixOf_iff_prefix, notHere, if_false, Option.map_map]
        rw [List.takeWhile_cons_of_pos (by simpa using same), List.length_cons,
          List.length_cons, ← ih]
        cases cut [delimiter] text <;> rfl

/-- Where a run without the delimiter ends: at the delimiter, or at the end of the text. -/
theorem find_delimiter {text : List α} {pos : Nat} (bound : pos ≤ text.length) (delimiter : α) :
    (find text [delimiter] pos).getD text.length =
      pos + ((text.drop pos).takeWhile (· ≠ delimiter)).length := by
  rw [find_eq bound, ← length_before]
  cases found : cut [delimiter] (text.drop pos) with
  | none =>
      simp only [Option.map_none, Option.getD_none, List.length_drop]
      omega
  | some parts => rfl

end TextSearch
