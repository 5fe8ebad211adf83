import MyServer.LogPayloadsCore
import MyServer.OutputStream
import MyServer.PrefixCode

/-!
The stream of published records. A header is a code word: every value ends at a delimiter
it does not contain, so records written back to back can be told apart. A record never
fills the buffer it is printed into.
-/

namespace MyServer

open PrefixCode

/-! Numbers and severities as texts. -/

theorem isDigit_of_mem_decimal {value : Nat} {c : Char} (member : c ∈ decimal value) :
    c.isDigit = true :=
  Nat.isDigit_of_mem_toDigits (by decide) (by decide) member

theorem notMem_decimal {value : Nat} {c : Char} (notDigit : c.isDigit = false) :
    c ∉ decimal value := by
  intro member
  simp [isDigit_of_mem_decimal member] at notDigit

theorem ofDigitChars_decimal (value : Nat) : Nat.ofDigitChars 10 (decimal value) 0 = value :=
  Nat.ofDigitChars_ten_toDigits

theorem decimal_injective : Function.Injective decimal := by
  intro left right same
  rw [← ofDigitChars_decimal left, same, ofDigitChars_decimal]

theorem length_decimal_le {value digits : Nat} (positive : 0 < digits)
    (bound : value < 10 ^ digits) : (decimal value).length ≤ digits :=
  (Nat.length_toDigits_le_iff (by decide) positive).mpr bound

theorem printSeverity_cases (severity : Severity) :
    printSeverity severity = "Info".toList ∧ severity.toNat = 0 ∨
    printSeverity severity = "Warn".toList ∧ severity.toNat = 1 ∨
    printSeverity severity = "Error".toList ∧ severity.toNat = 2 ∨
    printSeverity severity = "Unknown(".toList ++ (decimal severity.toNat ++ [')']) ∧
      2 < severity.toNat := by
  unfold printSeverity
  generalize severity.toNat = value
  match value with
  | 0 => exact .inl ⟨rfl, rfl⟩
  | 1 => exact .inr (.inl ⟨rfl, rfl⟩)
  | 2 => exact .inr (.inr (.inl ⟨rfl, rfl⟩))
  | other + 3 => exact .inr (.inr (.inr ⟨by simp, by omega⟩))

theorem printSeverity_injective : Function.Injective printSeverity := by
  intro left right same
  apply UInt8.toNat_inj.mp
  have heads : ∀ rest : Text, "Unknown(".toList ++ rest ≠ "Info".toList ∧
      "Unknown(".toList ++ rest ≠ "Warn".toList ∧ "Unknown(".toList ++ rest ≠ "Error".toList := by
    simp
  rcases printSeverity_cases left with ⟨l, lv⟩ | ⟨l, lv⟩ | ⟨l, lv⟩ | ⟨l, _⟩ <;>
    rcases printSeverity_cases right with ⟨r, rv⟩ | ⟨r, rv⟩ | ⟨r, rv⟩ | ⟨r, _⟩ <;>
    rw [l, r] at same
  all_goals first
    | omega
    | exact absurd same (by decide)
    | exact absurd same (heads _).1
    | exact absurd same.symm (heads _).1
    | exact absurd same (heads _).2.1
    | exact absurd same.symm (heads _).2.1
    | exact absurd same (heads _).2.2
    | exact absurd same.symm (heads _).2.2
    | skip
  have digits : decimal left.toNat ++ [')'] = decimal right.toNat ++ [')'] :=
    List.append_cancel_left same
  exact decimal_injective (List.append_cancel_right digits)

theorem space_notMem_printSeverity (severity : Severity) : ' ' ∉ printSeverity severity := by
  rcases printSeverity_cases severity with ⟨l, _⟩ | ⟨l, _⟩ | ⟨l, _⟩ | ⟨l, _⟩ <;> rw [l]
  · decide
  · decide
  · decide
  · have digits : ' ' ∉ decimal severity.toNat := notMem_decimal rfl
    simp [digits]

/-! The header as a code word. -/

def fieldText (name value : Text) : Text := name ++ '=' :: (value ++ [' '])

@[simp] theorem flatten_printField (name value : Text) :
    (printField name value).flatten = fieldText name value := by
  simp [printField, fieldText]

theorem prefixFree_field {α : Type} (name : Text) {value : α → Text}
    (injective : Function.Injective value) (absent : ∀ word, ' ' ∉ value word) :
    PrefixFree fun word => fieldText name (value word) := by
  have labelled := (PrefixFree.delimited injective absent).labelled (name ++ ['='])
  simpa [fieldText] using labelled

theorem prefixFree_number {α : Type} (name : Text) {number : α → Nat}
    (injective : Function.Injective number) :
    PrefixFree fun word => fieldText name (decimal (number word)) :=
  prefixFree_field name (decimal_injective.comp injective) fun _ => notMem_decimal rfl

def headerText (tag : MsgTag) (header : LogHeader) : Text := (printHeader tag header).flatten

theorem headerText_eq (tag : MsgTag) (header : LogHeader) :
    headerText tag header = ("[tag=".toList ++ (decimal tag.value ++ [']'])) ++
      (fieldText " severity".toList (printSeverity header.severity) ++
      (fieldText "timestamp".toList (decimal header.timestamp.toNat) ++
      (fieldText "thread_id".toList (decimal header.threadId.toNat) ++
      (fieldText "request_id".toList (decimal header.requestId.toNat) ++
      (fieldText "class_id".toList (decimal header.classId.toNat) ++
      (fieldText "method_id".toList (decimal header.methodId.toNat) ++
      fieldText "schema_version".toList (decimal header.schemaVersion.toNat))))))) := by
  simp [headerText, printHeader, fieldText]

theorem tagValue_injective : Function.Injective MsgTag.value := by
  intro left right same
  cases left <;> cases right <;> first | rfl | simp [MsgTag.value] at same

theorem prefixFree_header :
    PrefixFree fun word : MsgTag × LogHeader => headerText word.1 word.2 := by
  have tag : PrefixFree fun tag : MsgTag => "[tag=".toList ++ (decimal tag.value ++ [']']) :=
    (PrefixFree.delimited (decimal_injective.comp tagValue_injective)
      fun _ => notMem_decimal rfl).labelled _
  have severity := prefixFree_field " severity".toList printSeverity_injective
    space_notMem_printSeverity
  have wide : ∀ name, PrefixFree fun number : UInt64 => fieldText name (decimal number.toNat) :=
    fun name => prefixFree_number name fun _ _ => UInt64.toNat_inj.mp
  have middle : ∀ name, PrefixFree fun number : UInt32 => fieldText name (decimal number.toNat) :=
    fun name => prefixFree_number name fun _ _ => UInt32.toNat_inj.mp
  have narrow : ∀ name, PrefixFree fun number : UInt16 => fieldText name (decimal number.toNat) :=
    fun name => prefixFree_number name fun _ _ => UInt16.toNat_inj.mp
  have whole := tag.pair (severity.pair ((wide "timestamp".toList).pair
    ((middle "thread_id".toList).pair ((middle "request_id".toList).pair
      ((narrow "class_id".toList).pair ((narrow "method_id".toList).pair
        (narrow "schema_version".toList)))))))
  have fields : Function.Injective fun word : MsgTag × LogHeader => (word.1, word.2.severity,
      word.2.timestamp, word.2.threadId, word.2.requestId, word.2.classId, word.2.methodId,
      word.2.schemaVersion) := by
    rintro ⟨tag, header⟩ ⟨tag', header'⟩ same
    cases header
    cases header'
    simpa using same
  have coded := whole.comap fields
  simpa only [headerText_eq] using coded

/-! The buffer. -/

section Buffer

variable {capacity : Nat}

theorem FixedStringBuf.sputn_stored (buf : FixedStringBuf capacity) (block : Text) :
    (buf.sputn block).1.stored = (buf.stored ++ block).take capacity ∧
      (buf.sputn block).2 = true := by
  induction block generalizing buf with
  | nil => simp [FixedStringBuf.sputn, List.take_of_length_le buf.fits]
  | cons ch rest ih =>
      by_cases room : buf.stored.length < capacity
      · simp only [FixedStringBuf.sputn, FixedStringBuf.sputc, room, dif_pos]
        simpa using ih ⟨buf.stored ++ [ch], by simpa using Nat.succ_le_of_lt room⟩
      · have full : buf.stored.length = capacity := Nat.le_antisymm buf.fits (Nat.not_lt.mp room)
        simp only [FixedStringBuf.sputn, FixedStringBuf.sputc, room, dif_neg, not_false_eq_true,
          FixedStringBuf.overflow, Option.map_some]
        refine ⟨(ih buf).1.trans ?_, (ih buf).2⟩
        rw [List.take_append_of_le_length (by omega), List.take_append_of_le_length (by omega)]

/-- Blocks written to a good stream arrive as one text, cut off where the buffer ends. -/
theorem BufferStream.write_all (blocks : List Text) (os : BufferStream capacity)
    (good : os.good = true) :
    (blocks.foldl BufferStream.write os).buf.stored =
        (os.buf.stored ++ blocks.flatten).take capacity ∧
      (blocks.foldl BufferStream.write os).good = true := by
  induction blocks generalizing os with
  | nil => simp [List.take_of_length_le os.buf.fits, good]
  | cons block rest ih =>
      obtain ⟨stored, taken⟩ := os.buf.sputn_stored block
      have writes : os.write block = ⟨(os.buf.sputn block).1, true⟩ := by
        simp [BufferStream.write, good, taken]
      simp only [List.foldl_cons, List.flatten_cons, writes]
      obtain ⟨later, still⟩ := ih ⟨(os.buf.sputn block).1, true⟩ rfl
      refine ⟨later.trans ?_, still⟩
      rw [stored, OutputStream.take_take_append, List.append_assoc]

end Buffer

/-! The published records. -/

def LoggedPayload.text (record : LoggedPayload) : Text := record.debugPrint.flatten

theorem submitImpl_view (os : BufferStream 1024) (record : LoggedPayload) :
    (submitImpl os record).1 = record.text.take 1024 := by
  have written := BufferStream.write_all record.debugPrint ⟨os.buf.reset, true⟩ rfl
  simpa [submitImpl, FixedStringBuf.view, FixedStringBuf.reset, LoggedPayload.text] using written.1

def LoggedPayload.key : LoggedPayload → MsgTag × LogHeader
  | .generic payload => (.Generic, payload.header)
  | .request payload => (.Request, payload.header)

theorem text_eq_headerText (record : LoggedPayload) :
    record.text = headerText record.key.1 record.key.2 := by
  cases record <;> rfl

theorem length_field_le (name : Text) {value : Text} {limit : Nat}
    (bound : value.length ≤ limit) : (fieldText name value).length ≤ name.length + limit + 2 := by
  simp only [fieldText, List.length_append, List.length_cons, List.length_nil]
  omega

theorem length_number_le (name : Text) {value digits : Nat} (positive : 0 < digits)
    (bound : value < 10 ^ digits) :
    (fieldText name (decimal value)).length ≤ name.length + digits + 2 :=
  length_field_le name (length_decimal_le positive bound)

theorem length_printSeverity_le (severity : Severity) : (printSeverity severity).length ≤ 12 := by
  rcases printSeverity_cases severity with ⟨l, _⟩ | ⟨l, _⟩ | ⟨l, _⟩ | ⟨l, _⟩ <;> rw [l]
  · decide
  · decide
  · decide
  · have digits : (decimal severity.toNat).length ≤ 3 :=
      length_decimal_le (by decide) (Nat.lt_trans severity.toNat_lt (by decide))
    simp
    omega

theorem length_headerText_lt (tag : MsgTag) (header : LogHeader) :
    (headerText tag header).length < 1024 := by
  have start : ("[tag=".toList ++ (decimal tag.value ++ [']'])).length = 7 := by
    cases tag <;> decide
  have severity := length_field_le " severity".toList (length_printSeverity_le header.severity)
  have wide := fun (name : Text) (value : UInt64) => length_number_le name (by decide : 0 < 20)
    (Nat.lt_trans value.toNat_lt (by decide))
  have middle := fun (name : Text) (value : UInt32) => length_number_le name (by decide : 0 < 10)
    (Nat.lt_trans value.toNat_lt (by decide))
  have narrow := fun (name : Text) (value : UInt16) => length_number_le name (by decide : 0 < 5)
    (Nat.lt_trans value.toNat_lt (by decide))
  have timestamp := wide "timestamp".toList header.timestamp
  have threadId := middle "thread_id".toList header.threadId
  have requestId := middle "request_id".toList header.requestId
  have classId := narrow "class_id".toList header.classId
  have methodId := narrow "method_id".toList header.methodId
  have schemaVersion := narrow "schema_version".toList header.schemaVersion
  have names : " severity".toList.length + "timestamp".toList.length + "thread_id".toList.length +
      "request_id".toList.length + "class_id".toList.length + "method_id".toList.length +
      "schema_version".toList.length = 68 := by decide
  rw [headerText_eq, List.length_append, start]
  simp only [List.length_append]
  omega

theorem submitImpl_whole (os : BufferStream 1024) (record : LoggedPayload) :
    (submitImpl os record).1 = headerText record.key.1 record.key.2 := by
  rw [submitImpl_view, text_eq_headerText]
  exact List.take_of_length_le (Nat.le_of_lt (length_headerText_lt _ _))

theorem headerText_ne_nil (word : MsgTag × LogHeader) : headerText word.1 word.2 ≠ [] := by
  rw [headerText_eq]
  simp

theorem publishedViews_eq (os : BufferStream 1024) (records : List LoggedPayload) :
    publishedViews os records =
      records.map fun record => headerText record.key.1 record.key.2 := by
  induction records generalizing os with
  | nil => rfl
  | cons record rest ih => simp only [publishedViews, List.map_cons, submitImpl_whole, ih]

/-- The views of the records, one after another and without separators, determine the tags
and headers of the records, and no view is cut off by the buffer. -/
theorem log_stream_decodable (os os' : BufferStream 1024) (records others : List LoggedPayload) :
    (records.map LoggedPayload.key ≠ others.map LoggedPayload.key →
      (publishedViews os records).flatten ≠ (publishedViews os' others).flatten) ∧
    publishedViews os records = records.map LoggedPayload.text ∧
    ∀ record ∈ records, record.text.length < 1024 := by
  refine ⟨fun differ same => differ ?_, ?_, fun record _ => ?_⟩
  · apply prefixFree_header.sequence headerText_ne_nil
    simpa [publishedViews_eq, List.flatMap, Function.comp_def] using same
  · simp [publishedViews_eq, text_eq_headerText]
  · rw [text_eq_headerText]
    exact length_headerText_lt _ _

theorem log_stream_decodable_sample :
    let os : BufferStream 1024 := ⟨⟨[], Nat.zero_le _⟩, true⟩
    let record := LoggedPayload.generic ⟨⟨200, 5, 1, 0, 1, 4, 1⟩⟩
    let other := LoggedPayload.request ⟨⟨200, 5, 1, 0, 1, 4, 1⟩, ⟨7, "/".toList⟩⟩
    (publishedViews os [record, other]).flatten ≠ (publishedViews os [other, record]).flatten :=
  (log_stream_decodable _ _ _ _).1 (by decide)

/-! The two request payloads. -/

theorem buildRequest_eq (args : RequestArgs) :
    buildRequest args = ⟨args.common.header, args.common.body⟩ := rfl

theorem common_text (args : RequestArgs) :
    args.common.debugPrint.flatten = (buildRequest args).debugPrint.flatten ++
      (fieldText "req_unique_id".toList (decimal args.reqUniqueId.toNat) ++
        fieldText "path".toList args.path) := by
  simp [CommonRequestPayload.debugPrint, RequestPayload.debugPrint, buildRequest_eq, printBody,
    RequestArgs.common]

/-- The logger's request payload prints its header only, so its line never equals the one of
the common payload, and requests that differ in their body alone share a line. -/
theorem request_lines_differ (args : RequestArgs) :
    (buildRequest args).debugPrint.flatten ≠ args.common.debugPrint.flatten ∧
    ∀ (reqUniqueId : UInt64) (path : Text),
      (buildRequest { args with reqUniqueId, path }).debugPrint.flatten =
        (buildRequest args).debugPrint.flatten := by
  refine ⟨fun same => ?_, fun _ _ => rfl⟩
  rw [common_text] at same
  have lengths := congrArg List.length same
  simp [fieldText] at lengths

/-- The request of the print test, as each payload prints it. -/
theorem request_line_loses_body :
    let args : RequestArgs := ⟨2, 1234567890, 42, 999, 1, 2, 1, 555, "/api/v1/users".toList⟩
    let header := "[tag=1] severity=Error timestamp=1234567890 thread_id=42 request_id=999 ".toList ++
      "class_id=1 method_id=2 schema_version=1 ".toList
    args.common.debugPrint.flatten =
        header ++ "req_unique_id=555 path=/api/v1/users ".toList ∧
      (buildRequest args).debugPrint.flatten = header ∧
      (buildRequest args).debugPrint.flatten ≠ args.common.debugPrint.flatten := by
  decide +kernel

end MyServer
