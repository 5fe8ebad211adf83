import Mathlib.Data.List.Basic
import Mathlib.Algebra.Ring.Nat

/-!
The log payloads and their printed form. A byte of a text is the `Char` with its code;
streams are assumed to have their default flags and the C locale.
-/

namespace MyServer

abbrev Text := List Char

def decimal (value : Nat) : Text := Nat.toDigits 10 value

inductive MsgTag
  | Generic
  | Request
  deriving DecidableEq, Repr

def MsgTag.value : MsgTag → Nat
  | .Generic => 0
  | .Request => 1

/-- `enum class Severity : std::uint8_t`; every byte is a value of it. -/
abbrev Severity := UInt8

def printSeverity (severity : Severity) : Text :=
  match severity.toNat with
  | 0 => "Info".toList
  | 1 => "Warn".toList
  | 2 => "Error".toList
  | other => "Unknown(".toList ++ decimal other ++ [')']

/-- The fields of `log_payloads.def`, which `PayloadBase` holds. -/
structure LogHeader where
  severity : Severity
  timestamp : UInt64
  threadId : UInt32
  requestId : UInt32
  classId : UInt16
  methodId : UInt16
  schemaVersion : UInt16
  deriving DecidableEq

/-- The fields of `log_requestpayload.def`. -/
structure RequestBody where
  reqUniqueId : UInt64
  path : Text
  deriving DecidableEq

/-- `os << #F << '=' << F << ' '`. -/
def printField (name value : Text) : List Text := [name, ['='], value, [' ']]

/-- The blocks `print_header` writes, one for each `<<`. -/
def printHeader (tag : MsgTag) (header : LogHeader) : List Text :=
  ["[tag=".toList, decimal tag.value, "] ".toList] ++
    printField "severity".toList (printSeverity header.severity) ++
    printField "timestamp".toList (decimal header.timestamp.toNat) ++
    printField "thread_id".toList (decimal header.threadId.toNat) ++
    printField "request_id".toList (decimal header.requestId.toNat) ++
    printField "class_id".toList (decimal header.classId.toNat) ++
    printField "method_id".toList (decimal header.methodId.toNat) ++
    printField "schema_version".toList (decimal header.schemaVersion.toNat)

def printBody (body : RequestBody) : List Text :=
  printField "req_unique_id".toList (decimal body.reqUniqueId.toNat) ++
    printField "path".toList body.path

structure CommonRequestPayload where
  header : LogHeader
  body : RequestBody

def CommonRequestPayload.debugPrint (payload : CommonRequestPayload) : List Text :=
  printHeader .Request payload.header ++ printBody payload.body

structure GenericPayload where
  header : LogHeader

def GenericPayload.debugPrint (payload : GenericPayload) : List Text :=
  printHeader .Generic payload.header

structure RequestPayload where
  header : LogHeader
  body : RequestBody

def RequestPayload.debugPrint (payload : RequestPayload) : List Text :=
  printHeader .Request payload.header

/-- `PayloadRegister<MsgTag::Request>::args_tuple_type`. -/
structure RequestArgs where
  severity : Severity
  timestamp : UInt64
  threadId : UInt32
  requestId : UInt32
  classId : UInt16
  methodId : UInt16
  schemaVersion : UInt16
  reqUniqueId : UInt64
  path : Text

/-- `field_ptrs`: for every argument the assignment of its field, in order. -/
def requestFieldPtrs : List (RequestArgs → RequestPayload → RequestPayload) :=
  [fun args p => { p with header.severity := args.severity },
    fun args p => { p with header.timestamp := args.timestamp },
    fun args p => { p with header.threadId := args.threadId },
    fun args p => { p with header.requestId := args.requestId },
    fun args p => { p with header.classId := args.classId },
    fun args p => { p with header.methodId := args.methodId },
    fun args p => { p with header.schemaVersion := args.schemaVersion },
    fun args p => { p with body.reqUniqueId := args.reqUniqueId },
    fun args p => { p with body.path := args.path }]

def emptyHeader : LogHeader := ⟨0, 0, 0, 0, 0, 0, 0⟩

/-- `Builder::build<MsgTag::Request>`. -/
def buildRequest (args : RequestArgs) : RequestPayload :=
  requestFieldPtrs.foldl (fun payload assign => assign args payload) ⟨emptyHeader, ⟨0, []⟩⟩

def RequestArgs.common (args : RequestArgs) : CommonRequestPayload where
  header := ⟨args.severity, args.timestamp, args.threadId, args.requestId, args.classId,
    args.methodId, args.schemaVersion⟩
  body := ⟨args.reqUniqueId, args.path⟩

/-- `FixedStringBuf<N>`: the bytes between `pbase()` and `pptr()`. -/
structure FixedStringBuf (capacity : Nat) where
  stored : Text
  fits : stored.length ≤ capacity

namespace FixedStringBuf

variable {capacity : Nat}

def reset (_ : FixedStringBuf capacity) : FixedStringBuf capacity := ⟨[], Nat.zero_le _⟩

def view (buf : FixedStringBuf capacity) : Text := buf.stored

/-- `none` would be `traits_type::eof()`. -/
def overflow (_ : FixedStringBuf capacity) (ch : Char) : Option Char := some ch

/-- One byte: into the put area while there is room, else to `overflow`. -/
def sputc (buf : FixedStringBuf capacity) (ch : Char) : Option (FixedStringBuf capacity) :=
  if room : buf.stored.length < capacity then
    some ⟨buf.stored ++ [ch], by simpa using Nat.succ_le_of_lt room⟩
  else (buf.overflow ch).map fun _ => buf

/-- A block, byte by byte; the flag says whether all of it was taken. -/
def sputn (buf : FixedStringBuf capacity) : Text → FixedStringBuf capacity × Bool
  | [] => (buf, true)
  | ch :: rest =>
      match buf.sputc ch with
      | some next => next.sputn rest
      | none => (buf, false)

end FixedStringBuf

/-- The `std::ostream` on a buffer; it writes nothing once it is no longer good. -/
structure BufferStream (capacity : Nat) where
  buf : FixedStringBuf capacity
  good : Bool

def BufferStream.write {capacity : Nat} (os : BufferStream capacity) (block : Text) :
    BufferStream capacity :=
  if os.good then
    let (buf, complete) := os.buf.sputn block
    ⟨buf, complete⟩
  else os

inductive LoggedPayload
  | generic (payload : GenericPayload)
  | request (payload : RequestPayload)

def LoggedPayload.debugPrint : LoggedPayload → List Text
  | .generic payload => payload.debugPrint
  | .request payload => payload.debugPrint

/-- The adapter of `submit_impl`: the view it publishes, and the stream it leaves for the
next record of the thread. -/
def submitImpl (os : BufferStream 1024) (record : LoggedPayload) : Text × BufferStream 1024 :=
  let fresh : BufferStream 1024 := ⟨os.buf.reset, true⟩
  let written := record.debugPrint.foldl BufferStream.write fresh
  (written.buf.view, written)

/-- The views published for a sequence of records, one after another. -/
def publishedViews (os : BufferStream 1024) : List LoggedPayload → List Text
  | [] => []
  | record :: rest =>
      (submitImpl os record).1 :: publishedViews (submitImpl os record).2 rest

end MyServer
