import MyServer.LogStream
import MyServer.TextSinkOrder

/-!
`TextSink::format` on the headers `print_header` writes.
-/

namespace MyServer

def headerWith (tag : MsgTag) (header : LogHeader) (time cls mth : Text) : Text :=
  "[tag=".toList ++ decimal tag.value ++ "] ".toList ++
    fieldText "severity".toList (printSeverity header.severity) ++
    fieldText "timestamp".toList time ++
    fieldText "thread_id".toList (decimal header.threadId.toNat) ++
    fieldText "request_id".toList (decimal header.requestId.toNat) ++
    fieldText "class_id".toList cls ++
    fieldText "method_id".toList mth ++
    fieldText "schema_version".toList (decimal header.schemaVersion.toNat)

theorem headerText_eq_headerWith (tag : MsgTag) (header : LogHeader) :
    headerText tag header = headerWith tag header (decimal header.timestamp.toNat)
      (decimal header.classId.toNat) (decimal header.methodId.toNat) := by
  have start : (["[tag=".toList, decimal tag.value, "] ".toList] : List Text).flatten =
      "[tag=".toList ++ decimal tag.value ++ "] ".toList := by simp
  unfold headerText printHeader headerWith
  simp only [List.flatten_append, flatten_printField]
  rw [start]

def labelled (name value : Text) : Field := .other (name ++ '=' :: value)

def headerFields (tag : MsgTag) (header : LogHeader) : List Field :=
  [labelled "[tag".toList (decimal tag.value ++ [']']),
    labelled "severity".toList (printSeverity header.severity),
    .keyed .timestamp (decimal header.timestamp.toNat),
    labelled "thread_id".toList (decimal header.threadId.toNat),
    labelled "request_id".toList (decimal header.requestId.toNat),
    .keyed .classId (decimal header.classId.toNat),
    .keyed .methodId (decimal header.methodId.toNat),
    labelled "schema_version".toList (decimal header.schemaVersion.toNat)]

theorem labelled_text (name value : Text) :
    (labelled name value).text ++ [' '] = fieldText name value := by
  simp [labelled, Field.text, fieldText]

theorem keyed_text {name : Text} {kind : KeyKind} (key : kind.key = name ++ ['=']) (digits : Text) :
    (Field.keyed kind digits).text ++ [' '] = fieldText name digits := by
  simp [Field.text, key, fieldText]

theorem header_start (tag : MsgTag) : "[tag=".toList ++ decimal tag.value ++ "] ".toList =
    fieldText "[tag".toList (decimal tag.value ++ [']']) := by
  simp [fieldText]

theorem headerText_fields (tag : MsgTag) (header : LogHeader) :
    headerText tag header = lineText (headerFields tag header) := by
  have time : KeyKind.timestamp.key = "timestamp".toList ++ ['='] := by decide
  have cls : KeyKind.classId.key = "class_id".toList ++ ['='] := by decide
  have mth : KeyKind.methodId.key = "method_id".toList ++ ['='] := by decide
  rw [headerText_eq_headerWith]
  unfold headerWith lineText headerFields
  simp only [List.flatMap_cons, List.flatMap_nil, labelled_text]
  rw [keyed_text time, keyed_text cls, keyed_text mth, header_start,
    List.append_nil]
  simp only [List.append_assoc]

/-! No field of the header can be mistaken for a key. -/

theorem labelled_shaped {name value : Text}
    (unlike : ∀ kind : KeyKind, ¬kind.key <:+: name ++ ['=']) (free : '=' ∉ value) :
    (labelled name value).Shaped := by
  intro kind here
  obtain ⟨own, ends⟩ := key_ends kind
  have split : name ++ '=' :: value = name ++ ['='] ++ value := by simp
  rw [split, ends] at here
  have inside := TextSearch.infix_of_last free here
  rw [← ends] at inside
  exact unlike kind inside

theorem decimal_shaped (kind : KeyKind) (value : Nat) :
    (Field.keyed kind (decimal value)).Shaped :=
  ⟨Nat.toDigits_ne_nil, fun _ member => isDigit_of_mem_decimal member⟩

theorem equals_notMem_printSeverity (severity : Severity) : '=' ∉ printSeverity severity := by
  rcases printSeverity_cases severity with ⟨l, _⟩ | ⟨l, _⟩ | ⟨l, _⟩ | ⟨l, _⟩ <;> rw [l]
  · decide
  · decide
  · decide
  · have digits : '=' ∉ decimal severity.toNat := notMem_decimal rfl
    simp [digits]

theorem headerFields_shaped (tag : MsgTag) (header : LogHeader) :
    ∀ field ∈ headerFields tag header, field.Shaped := by
  have number : ∀ value : Nat, '=' ∉ decimal value := fun _ => notMem_decimal rfl
  simp only [headerFields, List.forall_mem_cons]
  refine ⟨?_, ?_, decimal_shaped _ _, ?_, ?_, decimal_shaped _ _, decimal_shaped _ _, ?_, by simp⟩
  · exact labelled_shaped (by intro kind; cases kind <;> decide) (by simp [number])
  · exact labelled_shaped (by intro kind; cases kind <;> decide) (equals_notMem_printSeverity _)
  · exact labelled_shaped (by intro kind; cases kind <;> decide) (number _)
  · exact labelled_shaped (by intro kind; cases kind <;> decide) (number _)
  · exact labelled_shaped (by intro kind; cases kind <;> decide) (number _)

/-! The values read back. -/

theorem digitsValue_decimal (value : Nat) : digitsValue (decimal value) = value :=
  ofDigitChars_decimal value

theorem renderTimestamp_decimal (formatTime : UInt64 → Text) (us : UInt64) :
    renderTimestamp formatTime (decimal us.toNat) = .ok (formatTime us) := by
  obtain ⟨nonempty, all⟩ := decimal_shaped .timestamp us.toNat
  have bound : digitsValue (decimal us.toNat) < 2 ^ 64 := by
    rw [digitsValue_decimal]
    exact us.toNat_lt
  simp only [renderTimestamp, stoull_digits nonempty all bound, digitsValue_decimal,
    UInt64.ofNat_toNat]
  rfl

theorem digitsValue_narrow (id : UInt16) : digitsValue (decimal id.toNat) < 2 ^ 31 := by
  have bound := id.toNat_lt
  rw [digitsValue_decimal]
  omega

/-- The cast to the 8 bits of `LogClassId`. -/
theorem renderClass_decimal (id : UInt16) :
    renderClass (decimal id.toNat) = className (id.toNat % 256) := by
  obtain ⟨nonempty, all⟩ := decimal_shaped .classId id.toNat
  have digits := renderClass_digits nonempty all (digitsValue_narrow id)
  rwa [digitsValue_decimal] at digits

theorem renderMethod_decimal (id : UInt16) :
    renderMethod (decimal id.toNat) = methodName id.toNat := by
  obtain ⟨nonempty, all⟩ := decimal_shaped .methodId id.toNat
  rw [renderMethod_digits nonempty all (digitsValue_narrow id), digitsValue_decimal,
    Nat.mod_eq_of_lt id.toNat_lt]

section Format

variable {formatTime : UInt64 → Text}

theorem formatFields_labelled (name value : Text) (rest : List Field) :
    formatFields formatTime (labelled name value :: rest) =
      (formatFields formatTime rest).map fun later => fieldText name value ++ later := by
  rw [labelled, formatFields_other]
  simp [fieldText]

theorem formatFields_keyed {name digits value : Text} {kind : KeyKind} {rest : List Field}
    (key : kind.key = name ++ ['=']) (shown : kind.render formatTime digits = .ok value)
    (lowest : ∀ field ∈ rest, ∀ rank, field.rank = some rank → kind.rank ≤ rank) :
    formatFields formatTime (.keyed kind digits :: rest) =
      (formatFields formatTime rest).map fun later => fieldText name value ++ later := by
  rw [formatFields_hit lowest, shown]
  cases formatFields formatTime rest with
  | error failure => rfl
  | ok later => simp [Except.map, bind, Except.bind, pure, Except.pure, key, fieldText]

theorem formatFields_failed {digits : Text} {kind : KeyKind} {rest : List Field}
    {failure : SinkFailure} (failed : kind.render formatTime digits = .error failure)
    (lowest : ∀ field ∈ rest, ∀ rank, field.rank = some rank → kind.rank ≤ rank) :
    formatFields formatTime (.keyed kind digits :: rest) = .error failure := by
  rw [formatFields_hit lowest, failed]
  rfl

end Format

theorem format_header (formatTime : UInt64 → Text) (tag : MsgTag) (header : LogHeader) :
    textSinkFormat formatTime (headerText tag header) = some (do
      let cls ← className (header.classId.toNat % 256)
      let mth ← methodName header.methodId.toNat
      return headerWith tag header (formatTime header.timestamp) cls mth) := by
  have timeKey : KeyKind.timestamp.key = "timestamp".toList ++ ['='] := by decide
  have classKey : KeyKind.classId.key = "class_id".toList ++ ['='] := by decide
  have methodKey : KeyKind.methodId.key = "method_id".toList ++ ['='] := by decide
  have timeShown : KeyKind.timestamp.render formatTime (decimal header.timestamp.toNat) =
      .ok (formatTime header.timestamp) := renderTimestamp_decimal formatTime header.timestamp
  have classShown : KeyKind.classId.render formatTime (decimal header.classId.toNat) =
      className (header.classId.toNat % 256) := renderClass_decimal header.classId
  have methodShown : KeyKind.methodId.render formatTime (decimal header.methodId.toNat) =
      methodName header.methodId.toNat := renderMethod_decimal header.methodId
  rw [textSinkFormat_eq, headerText_fields, formatFrom_lineText (headerFields_shaped tag header)]
  congr 1
  unfold headerFields
  rw [formatFields_labelled, formatFields_labelled,
    formatFields_keyed timeKey timeShown fun _ _ _ _ => Nat.zero_le _,
    formatFields_labelled, formatFields_labelled]
  have classLowest : ∀ field ∈ [Field.keyed .methodId (decimal header.methodId.toNat),
      labelled "schema_version".toList (decimal header.schemaVersion.toNat)], ∀ rank,
      field.rank = some rank → KeyKind.classId.rank ≤ rank := by
    simp [labelled, Field.rank, KeyKind.rank]
  have methodLowest : ∀ field ∈
      [labelled "schema_version".toList (decimal header.schemaVersion.toNat)], ∀ rank,
      field.rank = some rank → KeyKind.methodId.rank ≤ rank := by
    simp [labelled, Field.rank]
  cases cls : className (header.classId.toNat % 256) with
  | error failure =>
      rw [formatFields_failed (classShown.trans cls) classLowest]
      rfl
  | ok clsName =>
      rw [formatFields_keyed classKey (classShown.trans cls) classLowest]
      cases mth : methodName header.methodId.toNat with
      | error failure =>
          rw [formatFields_failed (methodShown.trans mth) methodLowest]
          rfl
      | ok mthName =>
          rw [formatFields_keyed methodKey (methodShown.trans mth) methodLowest,
            formatFields_labelled]
          simp only [formatFields, Except.map, bind, Except.bind, pure, Except.pure]
          unfold headerWith
          rw [header_start, List.append_nil]
          simp only [List.append_assoc]

theorem classId_mod {id : Nat} (valid : id < logClassIdCount) : id % 256 = id := by
  unfold logClassIdCount at valid
  omega

/-- A header with ids of the two enumerations: three values change, nothing else. -/
theorem format_valid_header (formatTime : UInt64 → Text) (tag : MsgTag) (header : LogHeader)
    (validClass : header.classId.toNat < logClassIdCount)
    (validMethod : header.methodId.toNat < methodIdCount) :
    headerText tag header = headerWith tag header (decimal header.timestamp.toNat)
        (decimal header.classId.toNat) (decimal header.methodId.toNat) ∧
    ∃ cls mth, className header.classId.toNat = .ok cls ∧
      methodName header.methodId.toNat = .ok mth ∧
      textSinkFormat formatTime (headerText tag header) =
        some (.ok (headerWith tag header (formatTime header.timestamp) cls mth)) := by
  refine ⟨headerText_eq_headerWith tag header, _, _, className_of_lt validClass,
    methodName_of_lt validMethod, ?_⟩
  have small := classId_mod validClass
  rw [format_header, small, className_of_lt validClass, methodName_of_lt validMethod]
  rfl

theorem format_valid_header_sample :
    ∃ cls mth, className 1 = .ok cls ∧ methodName 4 = .ok mth ∧
      textSinkFormat earlyTime (headerText .Generic ⟨7, 5, 3, 2, 1, 4, 9⟩) =
        some (.ok (headerWith .Generic ⟨7, 5, 3, 2, 1, 4, 9⟩ (earlyTime 5) cls mth)) :=
  (format_valid_header earlyTime .Generic ⟨7, 5, 3, 2, 1, 4, 9⟩ (by decide) (by decide)).2

/-! Which headers are safe to format. -/

theorem nameAt_ok {names : List Text} {index : Nat} {name : Text}
    (ok : nameAt names index = .ok name) : names[index]? = some name := by
  unfold nameAt at ok
  split at ok
  · rename_i found
    cases ok
    exact found
  · cases ok

theorem nameAt_injective {names : List Text} (distinct : names.Nodup) {left right : Nat}
    {name : Text} (first : nameAt names left = .ok name) (second : nameAt names right = .ok name) :
    left = right := by
  have here := nameAt_ok first
  obtain ⟨inside, _⟩ := List.getElem?_eq_some_iff.mp here
  exact (List.getElem?_inj inside distinct).mp (here.trans (nameAt_ok second).symm)

theorem nameAt_lt {names : List Text} {index : Nat} {name : Text}
    (ok : nameAt names index = .ok name) : index < names.length :=
  (List.getElem?_eq_some_iff.mp (nameAt_ok ok)).1

theorem space_notMem_name {names : List Text} (free : ∀ name ∈ names, ' ' ∉ name) {index : Nat}
    {name : Text} (ok : nameAt names index = .ok name) : ' ' ∉ name :=
  free name (List.mem_of_getElem? (nameAt_ok ok))

/-- Space-free names can be read off a formatted header. -/
theorem headerWith_names {tag : MsgTag} {header : LogHeader} {time cls mth cls' mth' : Text}
    (clsFree : ' ' ∉ cls) (mthFree : ' ' ∉ mth)
    (same : headerWith tag header time cls mth = headerWith tag header time cls' mth') :
    cls = cls' ∧ mth = mth' := by
  unfold headerWith at same
  have middle := List.append_cancel_right same
  simp only [List.append_assoc, List.append_cancel_left_eq, fieldText] at middle
  have counts := congrArg (List.count ' ') middle
  have clsNone := List.count_eq_zero.mpr clsFree
  have mthNone := List.count_eq_zero.mpr mthFree
  simp only [List.count_append, List.count_cons] at counts
  have clsFree' : ' ' ∉ cls' := List.count_eq_zero.mp (by omega)
  have mthFree' : ' ' ∉ mth' := List.count_eq_zero.mp (by omega)
  simp only [List.cons_append, List.append_assoc, List.nil_append, List.cons.injEq,
    true_and] at middle
  obtain ⟨clsSame, rest⟩ := PrefixCode.delimited clsFree clsFree' middle
  have tails := List.append_cancel_left rest
  simp only [List.cons.injEq, true_and] at tails
  exact ⟨clsSame, (PrefixCode.delimited mthFree mthFree' tails).1⟩

def SafelyFormatted (formatTime : UInt64 → Text) (tag : MsgTag) (header : LogHeader) : Prop :=
  ∃ cls mth,
    textSinkFormat formatTime (headerText tag header) =
      some (.ok (headerWith tag header (formatTime header.timestamp) cls mth)) ∧
    (∀ id, className id = .ok cls → id = header.classId.toNat) ∧
    ∀ id, methodName id = .ok mth → id = header.methodId.toNat

/-- Safe are the ids of the two enumerations and no others. -/
theorem safelyFormatted_iff (formatTime : UInt64 → Text) (tag : MsgTag) (header : LogHeader) :
    SafelyFormatted formatTime tag header ↔
      header.classId.toNat < logClassIdCount ∧ header.methodId.toNat < methodIdCount := by
  have clsDistinct : kClassNames.Nodup := by decide
  have mthDistinct : kMethodNames.Nodup := by decide
  constructor
  · rintro ⟨cls, mth, formatted, clsOwn, mthOwn⟩
    rw [format_header] at formatted
    cases clsFound : className (header.classId.toNat % 256) with
    | error failure => simp [clsFound, bind, Except.bind] at formatted
    | ok clsName =>
        cases mthFound : methodName header.methodId.toNat with
        | error failure => simp [clsFound, mthFound, bind, Except.bind] at formatted
        | ok mthName =>
            simp only [clsFound, mthFound, bind, Except.bind, pure, Except.pure,
              Option.some.injEq, Except.ok.injEq] at formatted
            obtain ⟨rfl, rfl⟩ := headerWith_names (space_notMem_name (by decide) clsFound)
              (space_notMem_name (by decide) mthFound) formatted
            have wrapped := clsOwn _ clsFound
            have inside := nameAt_lt clsFound
            have inside' := nameAt_lt mthFound
            exact ⟨wrapped ▸ inside, inside'⟩
  · rintro ⟨validClass, validMethod⟩
    have small := classId_mod validClass
    have clsFound := className_of_lt validClass
    have mthFound := methodName_of_lt validMethod
    refine ⟨_, _, ?_, fun id shown => nameAt_injective clsDistinct shown clsFound,
      fun id shown => nameAt_injective mthDistinct shown mthFound⟩
    rw [format_header, small, clsFound, mthFound]
    rfl

/-- One id runs past the class table, one wraps onto a class, one runs past the methods. -/
theorem unsafe_headers :
    textSinkFormat earlyTime (headerText .Generic ⟨0, 5, 0, 0, 2, 0, 0⟩) =
      some (.error .outOfBounds) ∧
    textSinkFormat earlyTime (headerText .Generic ⟨0, 5, 0, 0, 256, 0, 0⟩) =
      some (.ok (headerWith .Generic ⟨0, 5, 0, 0, 256, 0, 0⟩ (earlyTime 5) "Server".toList
        "AddEvent".toList)) ∧
    textSinkFormat earlyTime (headerText .Generic ⟨0, 5, 0, 0, 0, 5, 0⟩) =
      some (.error .outOfBounds) ∧
    ¬∀ header : LogHeader, SafelyFormatted earlyTime .Generic header := by
  have fails : textSinkFormat earlyTime (headerText .Generic ⟨0, 5, 0, 0, 2, 0, 0⟩) =
      some (.error .outOfBounds) := by decide +kernel
  refine ⟨fails, by decide +kernel, by decide +kernel, ?_⟩
  intro safe
  obtain ⟨cls, mth, formatted, _⟩ := safe ⟨0, 5, 0, 0, 2, 0, 0⟩
  rw [fails] at formatted
  cases formatted

end MyServer
