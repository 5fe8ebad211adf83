import MyServer.TextSinkFields

/-!
Which lines of fields come out with every field resolved: those in which the timestamps
stand before the class ids and these before the method ids.
-/

namespace MyServer

def digitsValue (digits : Text) : Nat := Nat.ofDigitChars 10 digits 0

def Field.InRange : Field → Prop
  | .keyed .timestamp digits => digitsValue digits < 2 ^ 64
  | .keyed .classId digits => digitsValue digits < logClassIdCount
  | .keyed .methodId digits => digitsValue digits < methodIdCount
  | .other _ => True

def Field.rendered (formatTime : UInt64 → Text) : Field → Text
  | .keyed .timestamp digits => timestampKey ++ formatTime (UInt64.ofNat (digitsValue digits))
  | .keyed .classId digits => classKey ++ kClassNames.getD (digitsValue digits) []
  | .keyed .methodId digits => methodKey ++ kMethodNames.getD (digitsValue digits) []
  | .other text => text

theorem isSpace_of_isDigit {c : Char} (digit : c.isDigit = true) : isSpace c = false := by
  have lower : 48 ≤ c.toNat := by
    simp only [Char.isDigit, Bool.and_eq_true, decide_eq_true_eq] at digit
    exact digit.1
  have notBlank : c ≠ ' ' := by
    rintro rfl
    simp at lower
  have above : ¬c ≤ '\r' := by
    intro below
    have upper : c.toNat ≤ 13 := below
    omega
  simp [isSpace, notBlank, above]

theorem readNumber_digits {digits : Text} (nonempty : digits ≠ [])
    (all : ∀ c ∈ digits, c.isDigit = true) : readNumber digits = (false, digits) := by
  cases digits with
  | nil => exact absurd rfl nonempty
  | cons c rest =>
      have first := all c List.mem_cons_self
      have whole : (c :: rest).takeWhile Char.isDigit = c :: rest :=
        List.takeWhile_eq_self_iff.mpr all
      have notSpace := isSpace_of_isDigit first
      have start : (c :: rest).dropWhile isSpace = c :: rest := by
        simp [List.dropWhile, notSpace]
      unfold readNumber
      rw [start]
      split
      · simp_all
      · simp_all
      · rw [whole]

theorem stoull_digits {digits : Text} (nonempty : digits ≠ [])
    (all : ∀ c ∈ digits, c.isDigit = true) (bound : digitsValue digits < 2 ^ 64) :
    stoull digits = .ok (UInt64.ofNat (digitsValue digits)) := by
  have inside : ¬2 ^ 64 ≤ Nat.ofDigitChars 10 digits 0 := Nat.not_le.mpr bound
  simp only [stoull, readNumber_digits nonempty all, nonempty, if_false, inside]
  rfl

theorem stoi_digits {digits : Text} (nonempty : digits ≠ [])
    (all : ∀ c ∈ digits, c.isDigit = true) (bound : digitsValue digits < 2 ^ 31) :
    stoi digits = .ok (digitsValue digits) := by
  have value : (Nat.ofDigitChars 10 digits 0 : Int) < 2 ^ 31 := by exact_mod_cast bound
  have inside : ¬((Nat.ofDigitChars 10 digits 0 : Int) < -2 ^ 31 ∨
      2 ^ 31 ≤ (Nat.ofDigitChars 10 digits 0 : Int)) := by omega
  simp only [stoi, readNumber_digits nonempty all, nonempty, if_false, Bool.false_eq_true, inside]
  rfl

theorem toEnum_natCast (bits value : Nat) : toEnum bits value = value % 2 ^ bits := by
  have cast : ((value : Int) % 2 ^ bits) = ((value % 2 ^ bits : Nat) : Int) := by push_cast; rfl
  rw [toEnum, cast, Int.toNat_natCast]

theorem renderClass_digits {digits : Text} (nonempty : digits ≠ [])
    (all : ∀ c ∈ digits, c.isDigit = true) (bound : digitsValue digits < 2 ^ 31) :
    renderClass digits = className (digitsValue digits % 2 ^ 8) := by
  simp only [renderClass, stoi_digits nonempty all bound, bind, Except.bind, toEnum_natCast]

theorem renderMethod_digits {digits : Text} (nonempty : digits ≠ [])
    (all : ∀ c ∈ digits, c.isDigit = true) (bound : digitsValue digits < 2 ^ 31) :
    renderMethod digits = methodName (digitsValue digits % 2 ^ 16) := by
  simp only [renderMethod, stoi_digits nonempty all bound, bind, Except.bind, toEnum_natCast]

theorem nameAt_of_lt {names : List Text} {index : Nat} (inside : index < names.length) :
    nameAt names index = .ok (names.getD index []) := by
  simp [nameAt, List.getElem?_eq_getElem inside, List.getD]

theorem className_of_lt {id : Nat} (valid : id < logClassIdCount) :
    className id = .ok (kClassNames.getD id []) := nameAt_of_lt valid

theorem methodName_of_lt {id : Nat} (valid : id < methodIdCount) :
    methodName id = .ok (kMethodNames.getD id []) := nameAt_of_lt valid

section Rendered

variable {formatTime : UInt64 → Text}

theorem shown_valid {field : Field} (shaped : field.Shaped) (valid : field.InRange) :
    field.shown formatTime = .ok (field.rendered formatTime) := by
  cases field with
  | other text => rfl
  | keyed kind digits =>
      obtain ⟨nonempty, all⟩ := shaped
      cases kind with
      | timestamp =>
          simp only [Field.shown, KeyKind.render, renderTimestamp,
            stoull_digits nonempty all valid]
          rfl
      | classId =>
          have small : digitsValue digits < 2 := valid
          have rendered := renderClass_digits nonempty all (by omega)
          rw [Nat.mod_eq_of_lt (by omega), className_of_lt valid] at rendered
          simp only [Field.shown, KeyKind.render, rendered]
          rfl
      | methodId =>
          have small : digitsValue digits < 5 := valid
          have rendered := renderMethod_digits nonempty all (by omega)
          rw [Nat.mod_eq_of_lt (by omega), methodName_of_lt valid] at rendered
          simp only [Field.shown, KeyKind.render, rendered]
          rfl

def actualLine (formatTime : UInt64 → Text) : List Field → Text
  | [] => []
  | field :: rest =>
      (if field.resolvedBefore rest then field.rendered formatTime else field.text) ++
        ' ' :: actualLine formatTime rest

def renderedLine (formatTime : UInt64 → Text) (fields : List Field) : Text :=
  fields.flatMap fun field => field.rendered formatTime ++ [' ']

def KeysInOrder (fields : List Field) : Prop := (fields.filterMap Field.rank).Pairwise (· ≤ ·)

theorem renderedLine_cons (field : Field) (rest : List Field) :
    renderedLine formatTime (field :: rest) =
      field.rendered formatTime ++ ' ' :: renderedLine formatTime rest := by
  simp [renderedLine]

theorem formatFields_valid {fields : List Field}
    (valid : ∀ field ∈ fields, field.Shaped ∧ field.InRange) :
    formatFields formatTime fields = .ok (actualLine formatTime fields) := by
  induction fields with
  | nil => rfl
  | cons field rest ih =>
      simp only [List.forall_mem_cons] at valid
      have own : field.formatted formatTime rest =
          .ok (if field.resolvedBefore rest then field.rendered formatTime else field.text) := by
        rw [Field.formatted]
        split
        · exact shown_valid valid.1.1 valid.1.2
        · rfl
      rw [formatFields, own, ih valid.2]
      rfl

theorem keysInOrder_cons (field : Field) (rest : List Field) :
    KeysInOrder (field :: rest) ↔ field.resolvedBefore rest = true ∧ KeysInOrder rest := by
  unfold KeysInOrder Field.resolvedBefore
  cases ranked : field.rank with
  | none => simp [ranked]
  | some rank =>
      rw [List.filterMap_cons_some ranked, List.pairwise_cons]
      simp only [List.all_eq_true, decide_eq_true_eq]

theorem name_ne_digits {names : List Text}
    (letters : ∀ name ∈ names, ∃ c tail, name = c :: tail ∧ c.isDigit = false) {index : Nat}
    (inside : index < names.length) {digit : Char} (first : digit.isDigit = true)
    (more left right : Text) :
    names.getD index [] ++ left ≠ digit :: more ++ right := by
  intro same
  have entry : names.getD index [] = names[index] := by
    simp [List.getD, List.getElem?_eq_getElem inside]
  obtain ⟨c, tail, name, letter⟩ := letters _ (List.getElem_mem inside)
  rw [entry, name, List.cons_append, List.cons_append] at same
  rw [(List.cons.inj same).1, first] at letter
  exact Bool.noConfusion letter

theorem kClassNames_letters :
    ∀ name ∈ kClassNames, ∃ c tail, name = c :: tail ∧ c.isDigit = false := by
  simp [kClassNames]

theorem kMethodNames_letters :
    ∀ name ∈ kMethodNames, ∃ c tail, name = c :: tail ∧ c.isDigit = false := by
  simp [kMethodNames]

/-- A name never starts like a number, so a field that was passed over shows. -/
theorem rendered_ne_text (formatTime : UInt64 → Text) {field : Field} {rest : List Field}
    (shaped : field.Shaped) (valid : field.InRange)
    (passed : field.resolvedBefore rest = false) (left right : Text) :
    field.rendered formatTime ++ ' ' :: left ≠ field.text ++ ' ' :: right := by
  cases field with
  | other text => simp [Field.resolvedBefore, Field.rank] at passed
  | keyed kind digits =>
      obtain ⟨nonempty, all⟩ := shaped
      obtain ⟨digit, more, rfl⟩ := List.exists_cons_of_ne_nil nonempty
      have first : digit.isDigit = true := all digit List.mem_cons_self
      cases kind with
      | timestamp =>
          have lowest : (Field.keyed .timestamp (digit :: more)).resolvedBefore rest = true := by
            simp only [Field.resolvedBefore, Field.rank, List.all_eq_true, decide_eq_true_eq]
            exact fun rank _ => Nat.zero_le rank
          rw [lowest] at passed
          exact Bool.noConfusion passed
      | classId =>
          intro same
          simp only [Field.rendered, Field.text, KeyKind.key, List.append_assoc,
            List.append_cancel_left_eq] at same
          exact name_ne_digits kClassNames_letters valid first more _ _ same
      | methodId =>
          intro same
          simp only [Field.rendered, Field.text, KeyKind.key, List.append_assoc,
            List.append_cancel_left_eq] at same
          exact name_ne_digits kMethodNames_letters valid first more _ _ same

theorem actualLine_eq_iff (formatTime : UInt64 → Text) {fields : List Field}
    (valid : ∀ field ∈ fields, field.Shaped ∧ field.InRange) :
    actualLine formatTime fields = renderedLine formatTime fields ↔ KeysInOrder fields := by
  induction fields with
  | nil => simp [actualLine, renderedLine, KeysInOrder]
  | cons field rest ih =>
      simp only [List.forall_mem_cons] at valid
      rw [actualLine, renderedLine_cons, keysInOrder_cons, ← ih valid.2]
      cases resolved : field.resolvedBefore rest with
      | true => simp
      | false =>
          have differs := rendered_ne_text formatTime valid.1.1 valid.1.2 resolved
            (renderedLine formatTime rest) (actualLine formatTime rest)
          simpa using differs.symm

end Rendered

/-- Every field comes out resolved exactly when the keys stand in the order in which the
loop looks for them. -/
theorem format_resolves_iff (formatTime : UInt64 → Text) {fields : List Field}
    (valid : ∀ field ∈ fields, field.Shaped ∧ field.InRange) :
    textSinkFormat formatTime (lineText fields) =
      some (.ok (renderedLine formatTime fields)) ↔ KeysInOrder fields := by
  have shaped : ∀ field ∈ fields, field.Shaped := fun field member => (valid field member).1
  rw [textSinkFormat_eq, formatFrom_lineText shaped, formatFields_valid valid,
    ← actualLine_eq_iff formatTime valid]
  simp

theorem shaped_digits {kind : KeyKind} {digits : Text} (nonempty : digits.isEmpty = false)
    (all : digits.all Char.isDigit = true) : (Field.keyed kind digits).Shaped :=
  ⟨by simpa using nonempty, List.all_eq_true.mp all⟩

def earlyTime (us : UInt64) : Text := "1970-01-01 00:00:00.00000".toList ++ decimal us.toNat

theorem format_resolves_iff_sample :
    (∀ field ∈ [Field.other "a=1".toList, .keyed .timestamp "5".toList,
        .keyed .classId "1".toList, .keyed .methodId "02".toList],
      field.Shaped ∧ field.InRange) ∧
    textSinkFormat earlyTime "a=1 timestamp=5 class_id=1 method_id=02 ".toList =
      some (.ok ("a=1 timestamp=1970-01-01 00:00:00.000005 class_id=Handler " ++
        "method_id=terminateThreads ").toList) := by
  have valid : ∀ field ∈ [Field.other "a=1".toList, .keyed .timestamp "5".toList,
      .keyed .classId "1".toList, .keyed .methodId "02".toList],
      field.Shaped ∧ field.InRange := by
    have free : (Field.other "a=1".toList).Shaped := by
      intro kind
      cases kind <;> decide
    simp only [List.forall_mem_cons]
    exact ⟨⟨free, trivial⟩, ⟨shaped_digits rfl rfl, show (5 : Nat) < 2 ^ 64 by omega⟩,
      ⟨shaped_digits rfl rfl, show (1 : Nat) < 2 by omega⟩,
      ⟨shaped_digits rfl rfl, show (2 : Nat) < 5 by omega⟩, by simp⟩
  exact ⟨valid, (format_resolves_iff earlyTime valid).mpr (by unfold KeysInOrder; decide)⟩

/-- A class id before a timestamp stays a number. -/
theorem format_passes_over_class :
    (∀ field ∈ [Field.keyed .classId "0".toList, .keyed .timestamp "5".toList],
      field.Shaped ∧ field.InRange) ∧
    textSinkFormat earlyTime
        (lineText [Field.keyed .classId "0".toList, .keyed .timestamp "5".toList]) =
      some (.ok "class_id=0 timestamp=1970-01-01 00:00:00.000005 ".toList) ∧
    renderedLine earlyTime [Field.keyed .classId "0".toList, .keyed .timestamp "5".toList] =
      "class_id=Server timestamp=1970-01-01 00:00:00.000005 ".toList ∧
    textSinkFormat earlyTime
        (lineText [Field.keyed .classId "0".toList, .keyed .timestamp "5".toList]) ≠
      some (.ok (renderedLine earlyTime
        [Field.keyed .classId "0".toList, .keyed .timestamp "5".toList])) := by
  refine ⟨?_, by decide +kernel, by decide +kernel, by decide +kernel⟩
  simp only [List.forall_mem_cons]
  exact ⟨⟨shaped_digits rfl rfl, show (0 : Nat) < 2 by omega⟩,
    ⟨shaped_digits rfl rfl, show (5 : Nat) < 2 ^ 64 by omega⟩, by simp⟩

end MyServer
