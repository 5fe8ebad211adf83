import Mathlib.Data.List.Nodup
import Mathlib.Logic.Function.Basic

/-!
Items handed over one at a time: each is given to a holder, which keeps at most one, and is
done when its holder lets go of it. The lists keep the order of the events.
-/

namespace MyServer

variable {Item Holder : Type}

structure Handover (given done : List Item) (held : Holder → Option Item) : Prop where
  taken : ∀ holder item, held holder = some item → item ∈ given
  once : ∀ left right item, held left = some item → held right = some item → left = right
  finished : ∀ item, item ∈ done ↔ item ∈ given ∧ ∀ holder, held holder ≠ some item
  nodup : done.Nodup

namespace Handover

variable {given done : List Item} {held : Holder → Option Item} {holder : Holder} {item : Item}

theorem initial : Handover ([] : List Item) [] (fun _ : Holder => none) where
  taken := nofun
  once := nofun
  finished := by simp
  nodup := List.nodup_nil

theorem not_done (handover : Handover given done held) (mine : held holder = some item) :
    item ∉ done := fun inside => ((handover.finished item).mp inside).2 holder mine

/-- With every holder free, everything given is done. -/
theorem all_done (handover : Handover given done held) (free : ∀ holder, held holder = none)
    (inside : item ∈ given) : item ∈ done :=
  (handover.finished item).mpr ⟨inside, fun holder => by simp [free]⟩

variable [DecidableEq Holder]

theorem takes (handover : Handover given done held) (idle : held holder = none)
    (fresh : item ∉ given) :
    Handover (given ++ [item]) done (Function.update held holder (some item)) := by
  constructor
  case taken =>
    intro other another holds
    by_cases same : other = holder
    · subst same
      rw [Function.update_self, Option.some.injEq] at holds
      simp [holds]
    · rw [Function.update_of_ne same] at holds
      exact List.mem_append_left _ (handover.taken other another holds)
  case once =>
    intro left right another leftHolds rightHolds
    by_cases atLeft : left = holder <;> by_cases atRight : right = holder
    · rw [atLeft, atRight]
    · subst atLeft
      rw [Function.update_self, Option.some.injEq] at leftHolds
      subst leftHolds
      rw [Function.update_of_ne atRight] at rightHolds
      exact absurd (handover.taken right _ rightHolds) fresh
    · subst atRight
      rw [Function.update_self, Option.some.injEq] at rightHolds
      subst rightHolds
      rw [Function.update_of_ne atLeft] at leftHolds
      exact absurd (handover.taken left _ leftHolds) fresh
    · rw [Function.update_of_ne atLeft] at leftHolds
      rw [Function.update_of_ne atRight] at rightHolds
      exact handover.once left right another leftHolds rightHolds
  case finished =>
    intro another
    rw [handover.finished, List.mem_append, List.mem_singleton]
    constructor
    · rintro ⟨inside, free⟩
      refine ⟨.inl inside, fun other holds => ?_⟩
      by_cases same : other = holder
      · subst same
        rw [Function.update_self, Option.some.injEq] at holds
        exact fresh (holds ▸ inside)
      · rw [Function.update_of_ne same] at holds
        exact free other holds
    · rintro ⟨inside | rfl, free⟩
      · refine ⟨inside, fun other holds => ?_⟩
        by_cases same : other = holder
        · subst same
          simp [idle] at holds
        · exact free other (by rwa [Function.update_of_ne same])
      · exact absurd (Function.update_self ..) (free holder)
  case nodup => exact handover.nodup

theorem finishes (handover : Handover given done held) (mine : held holder = some item) :
    Handover given (done ++ [item]) (Function.update held holder none) := by
  have still : ∀ other another, Function.update held holder none other = some another →
      other ≠ holder ∧ held other = some another := by
    intro other another holds
    by_cases same : other = holder
    · subst same
      simp at holds
    · exact ⟨same, by rwa [Function.update_of_ne same] at holds⟩
  constructor
  case taken => exact fun other another holds => handover.taken other another (still _ _ holds).2
  case once =>
    intro left right another leftHolds rightHolds
    exact handover.once left right another (still _ _ leftHolds).2 (still _ _ rightHolds).2
  case finished =>
    intro another
    rw [List.mem_append, List.mem_singleton, handover.finished]
    constructor
    · rintro (⟨inside, free⟩ | rfl)
      · exact ⟨inside, fun other holds => free other (still _ _ holds).2⟩
      · refine ⟨handover.taken holder _ mine, fun other holds => ?_⟩
        exact (still _ _ holds).1 (handover.once other holder _ (still _ _ holds).2 mine)
    · rintro ⟨inside, free⟩
      by_cases same : another = item
      · exact .inr same
      · refine .inl ⟨inside, fun other holds => ?_⟩
        have different : other ≠ holder := by
          rintro rfl
          rw [mine, Option.some.injEq] at holds
          exact same holds.symm
        exact free other (by rwa [Function.update_of_ne different])
  case nodup => simpa using List.Nodup.concat (handover.not_done mine) handover.nodup

end Handover

def HandedInTurn (given done : List Item) (held : Holder → Option Item) : Prop :=
  ∀ holder, (∀ other, other ≠ holder → held other = none) → given = done ++ (held holder).toList

namespace HandedInTurn

variable {given done : List Item} {held : Holder → Option Item} {holder : Holder} {item : Item}

theorem initial : HandedInTurn ([] : List Item) [] (fun _ : Holder => none) := fun _ _ => rfl

variable [DecidableEq Holder]

theorem takes (inTurn : HandedInTurn given done held) (idle : held holder = none) :
    HandedInTurn (given ++ [item]) done (Function.update held holder (some item)) := by
  intro last others
  by_cases same : last = holder
  · subst same
    rw [Function.update_self]
    have before := inTurn last fun other different => by
      simpa [Function.update_of_ne different] using others other different
    rw [before, idle]
    simp
  · have kept := others holder fun equal => same equal.symm
    simp at kept

theorem finishes (inTurn : HandedInTurn given done held) (mine : held holder = some item)
    (alone : ∀ other, other ≠ holder → held other = none) :
    HandedInTurn given (done ++ [item]) (Function.update held holder none) := by
  have all : given = done ++ [item] := by simpa [mine] using inTurn holder alone
  intro last _
  have free : Function.update held holder none last = none := by
    by_cases same : last = holder
    · rw [same, Function.update_self]
    · rw [Function.update_of_ne same, alone last same]
  rw [free, all]
  simp

end HandedInTurn

end MyServer
