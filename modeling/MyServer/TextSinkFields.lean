import MyServer.TextSink

/-!
Lines that are sequences of space-terminated fields. A key is found only at the start of
its own fields; which of those fields a run resolves depends on the fields after them.
-/

namespace MyServer

open TextSearch

inductive Field
  | keyed (kind : KeyKind) (digits : Text)
  | other (text : Text)

def Field.text : Field → Text
  | .keyed kind digits => kind.key ++ digits
  | .other text => text

def lineText (fields : List Field) : Text := fields.flatMap fun field => field.text ++ [' ']

theorem lineText_append (fields later : List Field) :
    lineText (fields ++ later) = lineText fields ++ lineText later := by
  simp [lineText]

theorem lineText_cons (field : Field) (rest : List Field) :
    lineText (field :: rest) = field.text ++ ' ' :: lineText rest := by
  simp [lineText]

def Field.Shaped : Field → Prop
  | .keyed _ digits => digits ≠ [] ∧ ∀ c ∈ digits, c.isDigit = true
  | .other text => ∀ kind : KeyKind, ¬kind.key <:+: text

def KeyKind.rank : KeyKind → Nat
  | .timestamp => 0
  | .classId => 1
  | .methodId => 2

def Field.rank : Field → Option Nat
  | .keyed kind _ => some kind.rank
  | .other _ => none

def Field.resolvedBefore (field : Field) (rest : List Field) : Bool :=
  match field.rank with
  | some rank => (rest.filterMap Field.rank).all (rank ≤ ·)
  | none => true

def Field.shown (formatTime : UInt64 → Text) : Field → Except SinkFailure Text
  | .keyed kind digits => (kind.render formatTime digits).map fun value => kind.key ++ value
  | .other text => .ok text

def Field.formatted (formatTime : UInt64 → Text) (field : Field) (rest : List Field) :
    Except SinkFailure Text :=
  if field.resolvedBefore rest then field.shown formatTime else .ok field.text

def formatFields (formatTime : UInt64 → Text) : List Field → Except SinkFailure Text
  | [] => .ok []
  | field :: rest => do
      let value ← field.formatted formatTime rest
      let later ← formatFields formatTime rest
      return value ++ ' ' :: later

/-! Where the keys stand. -/

theorem space_notMem_key (kind : KeyKind) : ' ' ∉ kind.key := by
  cases kind <;> decide

theorem key_not_in_key {kind other : KeyKind} (different : kind ≠ other) :
    ¬kind.key <:+: other.key := by
  cases kind <;> cases other <;> first | exact absurd rfl different | decide

theorem key_ends (kind : KeyKind) : ∃ name, kind.key = name ++ ['='] := by
  cases kind
  · exact ⟨"timestamp".toList, by decide⟩
  · exact ⟨"class_id".toList, by decide⟩
  · exact ⟨"method_id".toList, by decide⟩

theorem digit_ne {digits : Text} (all : ∀ c ∈ digits, c.isDigit = true) {c : Char}
    (notDigit : c.isDigit = false) : c ∉ digits := by
  intro member
  simp [all c member] at notDigit

def Field.isKey (kind : KeyKind) : Field → Bool
  | .keyed own _ => own = kind
  | .other _ => false

theorem key_not_in_field {field : Field} (shaped : field.Shaped) {kind : KeyKind}
    (different : field.isKey kind = false) : ¬kind.key <:+: field.text := by
  cases field with
  | other text => exact shaped kind
  | keyed own digits =>
      have apart : kind ≠ own := by
        rintro rfl
        simp [Field.isKey] at different
      intro here
      obtain ⟨name, ends⟩ := key_ends kind
      rw [ends] at here
      have inside := infix_of_last (digit_ne shaped.2 rfl) here
      rw [← ends] at inside
      exact key_not_in_key apart inside

theorem cut_skip_fields {kind : KeyKind} {skipped : List Field}
    (shaped : ∀ field ∈ skipped, field.Shaped)
    (different : ∀ field ∈ skipped, field.isKey kind = false) (text : Text) :
    cut kind.key (lineText skipped ++ text) =
      (cut kind.key text).map fun parts => (lineText skipped ++ parts.1, parts.2) := by
  induction skipped with
  | nil => simp [lineText]
  | cons field rest ih =>
      simp only [List.forall_mem_cons] at shaped different
      have free := key_not_in_field shaped.1 different.1
      rw [lineText_cons, List.append_assoc, List.cons_append,
        cut_skip kind.key_ne_nil (space_notMem_key kind) free, ih shaped.2 different.2,
        Option.map_map]
      simp [Function.comp_def]

theorem cut_lineText (kind : KeyKind) {fields : List Field}
    (shaped : ∀ field ∈ fields, field.Shaped) :
    ((∀ field ∈ fields, field.isKey kind = false) ∧ cut kind.key (lineText fields) = none) ∨
    ∃ skipped digits rest, fields = skipped ++ .keyed kind digits :: rest ∧
      (∀ field ∈ skipped, field.isKey kind = false) ∧
      cut kind.key (lineText fields) = some (lineText skipped, digits ++ ' ' :: lineText rest) := by
  cases first : fields.find? (Field.isKey kind) with
  | none =>
      have different : ∀ field ∈ fields, field.isKey kind = false := by simpa using first
      have skipped := cut_skip_fields shaped different []
      have empty : cut kind.key [] = none := by cases kind <;> decide
      exact .inl ⟨different, by simpa [empty] using skipped⟩
  | some field =>
      obtain ⟨isKey, skipped, rest, rfl, before⟩ := List.find?_eq_some_iff_append.mp first
      cases field with
      | other text => simp [Field.isKey] at isKey
      | keyed own digits =>
          obtain rfl : own = kind := by simpa [Field.isKey] using isKey
          have different : ∀ field ∈ skipped, field.isKey own = false := by simpa using before
          refine .inr ⟨skipped, digits, rest, rfl, different, ?_⟩
          rw [lineText_append, cut_skip_fields
            (fun field member => shaped field (List.mem_append_left _ member)) different,
            lineText_cons]
          simp [Field.text, cut_here]

theorem rank_ne_of_isKey {field : Field} {kind : KeyKind} (different : field.isKey kind = false)
    {rank : Nat} (ranked : field.rank = some rank) : rank ≠ kind.rank := by
  cases field with
  | other text => simp [Field.rank] at ranked
  | keyed own digits =>
      simp only [Field.rank, Option.some.injEq] at ranked
      subst ranked
      cases own <;> cases kind <;> simp [Field.isKey, KeyKind.rank] at different ⊢

theorem rank_le {field : Field} {rank : Nat} (ranked : field.rank = some rank) : rank ≤ 2 := by
  cases field with
  | other text => simp [Field.rank] at ranked
  | keyed own digits =>
      simp only [Field.rank, Option.some.injEq] at ranked
      subst ranked
      cases own <;> decide

/-- The next key is the first one of the lowest rank. -/
theorem nextKey_lineText {fields : List Field} (shaped : ∀ field ∈ fields, field.Shaped) :
    (∀ field ∈ fields, field.rank = none) ∧ nextKey (lineText fields) = none ∨
    ∃ kind skipped digits rest, fields = skipped ++ .keyed kind digits :: rest ∧
      (∀ field ∈ skipped, ∀ rank, field.rank = some rank → kind.rank < rank) ∧
      (∀ field ∈ rest, ∀ rank, field.rank = some rank → kind.rank ≤ rank) ∧
      nextKey (lineText fields) =
        some (kind, lineText skipped, digits ++ ' ' :: lineText rest) := by
  have ranked : ∀ {field : Field} {kind : KeyKind} {rank : Nat}, field.isKey kind = false →
      field.rank = some rank → rank ≠ kind.rank :=
    fun different own => rank_ne_of_isKey different own
  rcases cut_lineText .timestamp shaped with
    ⟨noTimestamp, ts⟩ | ⟨skipped, digits, rest, rfl, before, ts⟩
  · rcases cut_lineText .classId shaped with
      ⟨noClass, cls⟩ | ⟨skipped, digits, rest, rfl, before, cls⟩
    · rcases cut_lineText .methodId shaped with
        ⟨noMethod, mth⟩ | ⟨skipped, digits, rest, rfl, before, mth⟩
      · refine .inl ⟨fun field member => ?_, ?_⟩
        · cases rank : field.rank with
          | none => rfl
          | some value =>
              have first := ranked (noTimestamp field member) rank
              have second := ranked (noClass field member) rank
              have third := ranked (noMethod field member) rank
              have limit := rank_le rank
              simp only [KeyKind.rank] at first second third
              omega
        · simp only [KeyKind.key] at ts cls mth
          simp [nextKey, ts, cls, mth]
      · refine .inr ⟨.methodId, skipped, digits, rest, rfl, ?_, ?_, ?_⟩
        · intro field member rank own
          have all := List.mem_append_left (.keyed .methodId digits :: rest) member
          have first := ranked (noTimestamp field all) own
          have second := ranked (noClass field all) own
          have third := ranked (before field member) own
          simp only [KeyKind.rank] at first second third ⊢
          omega
        · intro field member rank own
          have all := List.mem_append_right skipped
            (List.mem_cons_of_mem (.keyed .methodId digits) member)
          have first := ranked (noTimestamp field all) own
          have second := ranked (noClass field all) own
          simp only [KeyKind.rank] at first second ⊢
          omega
        · simp only [KeyKind.key] at ts cls mth
          simp [nextKey, ts, cls, mth]
    · refine .inr ⟨.classId, skipped, digits, rest, rfl, ?_, ?_, ?_⟩
      · intro field member rank own
        have first := ranked (noTimestamp field (List.mem_append_left _ member)) own
        have second := ranked (before field member) own
        simp only [KeyKind.rank] at first second ⊢
        omega
      · intro field member rank own
        have all := List.mem_append_right skipped
          (List.mem_cons_of_mem (.keyed .classId digits) member)
        have first := ranked (noTimestamp field all) own
        simp only [KeyKind.rank] at first ⊢
        omega
      · simp only [KeyKind.key] at ts cls
        simp [nextKey, ts, cls]
  · refine .inr ⟨.timestamp, skipped, digits, rest, rfl, ?_, fun _ _ _ _ => Nat.zero_le _, ?_⟩
    · exact fun field member _ own => Nat.pos_of_ne_zero (ranked (before field member) own)
    · simp only [KeyKind.key] at ts
      simp [nextKey, ts]

/-! The run. -/

section Run

variable {formatTime : UInt64 → Text}

/-- Fields of a higher rank than one behind them are copied as they are. -/
theorem formatFields_skip {kind : KeyKind} {digits : Text} {skipped rest : List Field}
    (higher : ∀ field ∈ skipped, ∀ rank, field.rank = some rank → kind.rank < rank) :
    formatFields formatTime (skipped ++ .keyed kind digits :: rest) =
      (formatFields formatTime (.keyed kind digits :: rest)).map fun later =>
        lineText skipped ++ later := by
  induction skipped with
  | nil =>
      simp only [List.nil_append, lineText, List.flatMap_nil]
      cases formatFields formatTime (.keyed kind digits :: rest) <;> rfl
  | cons field skipped ih =>
      simp only [List.forall_mem_cons] at higher
      have copied : field.formatted formatTime (skipped ++ .keyed kind digits :: rest) =
          .ok field.text := by
        cases field with
        | other text => simp [Field.formatted, Field.shown, Field.text]
        | keyed own value =>
            have above := higher.1 own.rank rfl
            have passed : (Field.keyed own value).resolvedBefore
                (skipped ++ .keyed kind digits :: rest) = false := by
              simp only [Field.resolvedBefore, Field.rank, List.filterMap_append,
                List.filterMap_cons, List.all_append, List.all_cons]
              simp [Nat.not_le.mpr above]
            simp [Field.formatted, passed]
      rw [List.cons_append, formatFields, copied, ih higher.2, lineText_cons]
      cases formatFields formatTime (.keyed kind digits :: rest) <;>
        simp [Except.map, bind, Except.bind, pure, Except.pure]

theorem formatFields_hit {kind : KeyKind} {digits : Text} {rest : List Field}
    (lowest : ∀ field ∈ rest, ∀ rank, field.rank = some rank → kind.rank ≤ rank) :
    formatFields formatTime (.keyed kind digits :: rest) = (do
      let value ← kind.render formatTime digits
      let later ← formatFields formatTime rest
      return kind.key ++ value ++ ' ' :: later) := by
  have resolved : (Field.keyed kind digits).resolvedBefore rest = true := by
    simp only [Field.resolvedBefore, Field.rank, List.all_eq_true, decide_eq_true_eq]
    intro rank member
    obtain ⟨field, inRest, ranked⟩ := List.mem_filterMap.mp member
    exact lowest field inRest rank ranked
  rw [formatFields, Field.formatted, if_pos resolved]
  simp only [Field.shown]
  cases kind.render formatTime digits <;> rfl

theorem valueOf_digits {digits : Text} (all : ∀ c ∈ digits, c.isDigit = true) (rest : Text) :
    valueOf (digits ++ ' ' :: rest) = digits ∧ behind (digits ++ ' ' :: rest) = ' ' :: rest := by
  have noSpace : ∀ c ∈ digits, decide (c ≠ ' ') = true := by
    intro c member
    have apart : c ≠ ' ' := by
      rintro rfl
      exact digit_ne all rfl member
    simpa using apart
  constructor
  · simp only [valueOf, List.takeWhile_append_of_pos noSpace]
    simp
  · simp only [behind, List.dropWhile_append_of_pos noSpace]
    simp

theorem formatFields_other (text : Text) (rest : List Field) :
    formatFields formatTime (.other text :: rest) =
      (formatFields formatTime rest).map fun later => text ++ ' ' :: later := by
  rw [formatFields]
  simp only [Field.formatted, Field.shown, Field.text, ite_self]
  cases formatFields formatTime rest <;> rfl

theorem formatFields_unranked {fields : List Field}
    (unranked : ∀ field ∈ fields, field.rank = none) :
    formatFields formatTime fields = .ok (lineText fields) := by
  induction fields with
  | nil => rfl
  | cons field rest ih =>
      simp only [List.forall_mem_cons] at unranked
      cases field with
      | keyed kind digits => simp [Field.rank] at unranked
      | other text =>
          rw [formatFields_other, ih unranked.2, lineText_cons]
          rfl

/-- The run over a line of fields, whatever their order and number. -/
theorem formatFrom_lineText {fields : List Field} (shaped : ∀ field ∈ fields, field.Shaped) :
    formatFrom formatTime (lineText fields) = formatFields formatTime fields := by
  generalize measured : (lineText fields).length = size
  induction size using Nat.strongRecOn generalizing fields with
  | ind size ih =>
      rcases nextKey_lineText shaped with
        ⟨unranked, none⟩ | ⟨kind, skipped, digits, rest, rfl, higher, lowest, found⟩
      · rw [formatFrom_none none, formatFields_unranked unranked]
      · have own : (Field.keyed kind digits).Shaped := shaped _ (by simp)
        obtain ⟨value, remaining⟩ := valueOf_digits own.2 (lineText rest)
        have shorter := behind_shorter found
        have blank : ' ' :: lineText rest = lineText (.other [] :: rest) := by
          simp [lineText_cons, Field.text]
        have blankShaped : ∀ field ∈ Field.other [] :: rest, field.Shaped := by
          intro field member
          rcases List.mem_cons.mp member with rfl | inRest
          · intro kind
            simpa using kind.key_ne_nil
          · exact shaped field (by simp [inRest])
        rw [remaining, blank, measured] at shorter
        rw [formatFrom_some found, value, remaining, blank, ih _ shorter blankShaped rfl,
          formatFields_other, formatFields_skip higher, formatFields_hit lowest]
        cases kind.render formatTime digits with
        | error failure => rfl
        | ok value =>
            cases formatFields formatTime rest with
            | error failure => rfl
            | ok later => simp [Except.map, bind, Except.bind, pure, Except.pure]

end Run

end MyServer
