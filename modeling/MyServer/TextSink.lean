import MyServer.TextSinkCore

/-!
`TextSink::format` without positions: what a turn does depends only on the part of the line
that is left, and each turn leaves a shorter part.
-/

namespace MyServer

open TextSearch

inductive KeyKind
  | timestamp
  | classId
  | methodId
  deriving DecidableEq, Repr

def KeyKind.key : KeyKind → Text
  | .timestamp => timestampKey
  | .classId => classKey
  | .methodId => methodKey

def KeyKind.render (formatTime : UInt64 → Text) : KeyKind → Text → Except SinkFailure Text
  | .timestamp => renderTimestamp formatTime
  | .classId => renderClass
  | .methodId => renderMethod

theorem KeyKind.key_ne_nil (kind : KeyKind) : kind.key ≠ [] := by
  cases kind <;> decide

def valueOf (after : Text) : Text := after.takeWhile (· ≠ ' ')
def behind (after : Text) : Text := after.dropWhile (· ≠ ' ')

theorem valueOf_append_behind (after : Text) : valueOf after ++ behind after = after :=
  List.takeWhile_append_dropWhile

theorem take_valueOf (after : Text) : after.take (valueOf after).length = valueOf after := by
  have prefixed : (valueOf after ++ behind after).take (valueOf after).length = valueOf after :=
    List.take_left
  rwa [valueOf_append_behind] at prefixed

theorem drop_valueOf (after : Text) : after.drop (valueOf after).length = behind after := by
  have dropped : (valueOf after ++ behind after).drop (valueOf after).length = behind after :=
    List.drop_left
  rwa [valueOf_append_behind] at dropped

def nextKey (text : Text) : Option (KeyKind × Text × Text) :=
  match cut timestampKey text with
  | some parts => some (.timestamp, parts)
  | none =>
    match cut classKey text with
    | some parts => some (.classId, parts)
    | none => (cut methodKey text).map fun parts => (.methodId, parts)

theorem nextKey_some {text before after : Text} {kind : KeyKind}
    (found : nextKey text = some (kind, before, after)) : text = before ++ kind.key ++ after := by
  unfold nextKey at found
  split at found
  · rename_i parts here
    obtain ⟨rfl, rfl⟩ := Prod.mk.inj (Option.some.inj found)
    exact cut_some here
  · split at found
    · rename_i parts here
      obtain ⟨rfl, rfl⟩ := Prod.mk.inj (Option.some.inj found)
      exact cut_some here
    · obtain ⟨parts, here, same⟩ := Option.map_eq_some_iff.mp found
      obtain ⟨rfl, rfl⟩ := Prod.mk.inj same
      exact cut_some here

theorem behind_shorter {text before after : Text} {kind : KeyKind}
    (found : nextKey text = some (kind, before, after)) : (behind after).length < text.length := by
  rw [nextKey_some found]
  have positive := List.length_pos_iff.mpr kind.key_ne_nil
  have shorter : (behind after).length ≤ after.length := List.length_dropWhile_le _ _
  simp only [List.length_append]
  omega

/-- `format` on the part of the line that is left. -/
def formatFrom (formatTime : UInt64 → Text) (text : Text) : Except SinkFailure Text :=
  match _found : nextKey text with
  | none => .ok text
  | some (kind, before, after) => do
      let shown ← kind.render formatTime (valueOf after)
      let rest ← formatFrom formatTime (behind after)
      return before ++ kind.key ++ shown ++ rest
termination_by text.length
decreasing_by exact behind_shorter _found

theorem formatFrom_none {formatTime : UInt64 → Text} {text : Text} (none : nextKey text = none) :
    formatFrom formatTime text = .ok text := by
  rw [formatFrom]
  split
  · rfl
  · rename_i found
    simp [none] at found

theorem formatFrom_some {formatTime : UInt64 → Text} {text before after : Text} {kind : KeyKind}
    (found : nextKey text = some (kind, before, after)) :
    formatFrom formatTime text = (do
      let shown ← kind.render formatTime (valueOf after)
      let rest ← formatFrom formatTime (behind after)
      return before ++ kind.key ++ shown ++ rest) := by
  rw [formatFrom]
  split
  · rename_i none
    simp [none] at found
  · rename_i other
    rw [found] at other
    obtain ⟨rfl, rfl, rfl⟩ : kind = _ ∧ before = _ ∧ after = _ := by simpa using other
    rfl

section Turns

variable {formatTime : UInt64 → Text} {line : Text} {pos : Nat} {result : Text}

theorem drop_key {key before after : Text} (parts : line.drop pos = before ++ key ++ after) :
    line.drop (pos + before.length + key.length) = after := by
  have dropped := congrArg (List.drop (before.length + key.length)) parts
  rwa [List.drop_drop, ← Nat.add_assoc, ← List.length_append, List.drop_left] at dropped

theorem resolveField_eq {key before after : Text} (bound : pos ≤ line.length)
    (parts : line.drop pos = before ++ key ++ after)
    (render : Text → Except SinkFailure Text) :
    resolveField line pos (pos + before.length) key key.length result render =
      (render (valueOf after)).map fun shown =>
        .again (pos + before.length + key.length + (valueOf after).length)
          (result ++ before ++ key ++ shown) := by
  have length : line.length = pos + before.length + key.length + after.length := by
    have lengths := congrArg List.length parts
    simp only [List.length_drop, List.length_append] at lengths
    omega
  have start := drop_key parts
  have first : substr line pos before.length = .ok before := by
    rw [substr, if_pos bound, parts]
    simp
  have stop : (find line [' '] (pos + before.length + key.length)).getD line.length =
      pos + before.length + key.length + (valueOf after).length := by
    rw [find_delimiter (by omega), start]
    rfl
  have value : substr line (pos + before.length + key.length) (valueOf after).length =
      .ok (valueOf after) := by
    rw [substr, if_pos (by omega), start, take_valueOf]
  simp only [resolveField, stop, Nat.add_sub_cancel_left, first, value, bind, Except.bind]
  cases render (valueOf after) <;> rfl

theorem formatTurn_eq (bound : pos ≤ line.length) :
    formatTurn formatTime line pos result =
      match nextKey (line.drop pos) with
      | none => .ok (.done (result ++ line.drop pos))
      | some (kind, before, after) => (kind.render formatTime (valueOf after)).map fun shown =>
          .again (pos + before.length + kind.key.length + (valueOf after).length)
            (result ++ before ++ kind.key ++ shown) := by
  simp only [formatTurn, find_eq bound, nextKey]
  cases ts : cut timestampKey (line.drop pos) with
  | some parts => exact resolveField_eq bound (cut_some ts) (renderTimestamp formatTime)
  | none =>
      cases cls : cut classKey (line.drop pos) with
      | some parts => exact resolveField_eq bound (cut_some cls) renderClass
      | none =>
          cases mth : cut methodKey (line.drop pos) with
          | some parts => exact resolveField_eq bound (cut_some mth) renderMethod
          | none =>
              have rest : substr line pos line.length = .ok (line.drop pos) := by
                rw [substr, if_pos bound, List.take_of_length_le (by simp)]
              simp only [Option.map_none, Option.filter_none, rest]
              rfl

/-- The loop ends, and what it adds to the output depends on the rest of the line only. -/
theorem formatLoop_eq {fuel : Nat} (bound : pos ≤ line.length)
    (enough : line.length - pos < fuel) :
    formatLoop formatTime line fuel pos result =
      some ((formatFrom formatTime (line.drop pos)).map fun rest => result ++ rest) := by
  induction fuel generalizing pos result with
  | zero => omega
  | succ fuel ih =>
      simp only [formatLoop]
      by_cases inside : pos < line.length
      · rw [if_pos inside, formatTurn_eq bound]
        cases found : nextKey (line.drop pos) with
        | none =>
            rw [formatFrom_none found]
            rfl
        | some parts =>
            obtain ⟨kind, before, after⟩ := parts
            have whole := nextKey_some found
            have lengths := congrArg List.length whole
            have positive := List.length_pos_iff.mpr kind.key_ne_nil
            have split := congrArg List.length (valueOf_append_behind after)
            simp only [List.length_drop, List.length_append] at lengths split
            rw [formatFrom_some found]
            simp only
            cases kind.render formatTime (valueOf after) with
            | error failure => rfl
            | ok value =>
                have next : line.drop (pos + before.length + kind.key.length +
                    (valueOf after).length) = behind after := by
                  rw [← List.drop_drop, drop_key whole, drop_valueOf]
                simp only [Except.map, bind, Except.bind]
                rw [ih (by omega) (by omega), next]
                cases formatFrom formatTime (behind after) with
                | error failure => rfl
                | ok rest => simp [Except.map, pure, Except.pure]
      · have atEnd : line.drop pos = [] := List.drop_eq_nil_of_le (by omega)
        rw [if_neg inside, atEnd, formatFrom_none (by decide)]
        simp [Except.map]

/-- For every line the loop ends within its fuel. -/
theorem textSinkFormat_eq (formatTime : UInt64 → Text) (line : Text) :
    textSinkFormat formatTime line = some (formatFrom formatTime line) := by
  rw [textSinkFormat, formatLoop_eq (Nat.zero_le _) (by omega), List.drop_zero]
  cases formatFrom formatTime line <;> rfl

end Turns

end MyServer
