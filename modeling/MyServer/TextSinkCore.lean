import Mathlib.Algebra.Ring.Int.Defs
import MyServer.LogPayloadsCore
import MyServer.TextSearch

/-!
`TextSink::format_impl`. The loop keeps a position in the line and the output so far;
one turn of it copies the line up to a key, resolves the value after the key and goes on
behind the value. `format_timestamp_us` is a parameter.
-/

namespace MyServer

/-- How the formatter can fail: an exception, or an array access past the end. -/
inductive SinkFailure
  | invalidArgument (what : String)
  | outOfRange (what : String)
  | outOfBounds
  deriving DecidableEq, Repr

/-- `isspace` in the C locale. -/
def isSpace (c : Char) : Bool := c = ' ' || ('\t' ≤ c && c ≤ '\r')

/-- What `strtol` and `strtoull` read in base ten: whether there is a minus, and the digits. -/
def readNumber (text : Text) : Bool × Text :=
  match text.dropWhile isSpace with
  | '-' :: rest => (true, rest.takeWhile Char.isDigit)
  | '+' :: rest => (false, rest.takeWhile Char.isDigit)
  | rest => (false, rest.takeWhile Char.isDigit)

/-- `std::stoull`; a minus negates modulo 2^64. -/
def stoull (text : Text) : Except SinkFailure UInt64 :=
  let (negative, digits) := readNumber text
  let value := Nat.ofDigitChars 10 digits 0
  if digits = [] then .error (.invalidArgument "stoull")
  else if 2 ^ 64 ≤ value then .error (.outOfRange "stoull")
  else .ok (UInt64.ofNat (if negative then 2 ^ 64 - value else value))

def stoi (text : Text) : Except SinkFailure Int :=
  let (negative, digits) := readNumber text
  let value : Int := Nat.ofDigitChars 10 digits 0
  let value := if negative then -value else value
  if digits = [] then .error (.invalidArgument "stoi")
  else if value < -2 ^ 31 ∨ 2 ^ 31 ≤ value then .error (.outOfRange "stoi")
  else .ok value

/-- `kClassNames`, from `log_classes.def`. -/
def kClassNames : List Text := ["Server".toList, "Handler".toList]

/-- `kMethodNames`, from `log_ids.def`. -/
def kMethodNames : List Text :=
  ["AddEvent".toList, "Run".toList, "terminateThreads".toList, "addEvent".toList,
    "handlingEvent".toList]

/-- `LogClassId::Count` and `MethodId::Count`, the sizes of the name tables. -/
def logClassIdCount : Nat := 2
def methodIdCount : Nat := 5

/-- An unchecked `operator[]` of a name table. -/
def nameAt (names : List Text) (index : Nat) : Except SinkFailure Text :=
  match names[index]? with
  | some name => .ok name
  | none => .error .outOfBounds

def className (id : Nat) : Except SinkFailure Text := nameAt kClassNames id

def methodName (id : Nat) : Except SinkFailure Text := nameAt kMethodNames id

/-- `static_cast` of an `int` to an enumeration of that many bits. -/
def toEnum (bits : Nat) (value : Int) : Nat := (value % 2 ^ bits).toNat

def substr (line : Text) (pos count : Nat) : Except SinkFailure Text :=
  if pos ≤ line.length then .ok ((line.drop pos).take count)
  else .error (.outOfRange "basic_string_view::substr")

def timestampKey : Text := "timestamp=".toList
def classKey : Text := "class_id=".toList
def methodKey : Text := "method_id=".toList

inductive Turn
  | again (pos : Nat) (result : Text)
  | done (result : Text)
  deriving DecidableEq

/-- The body shared by the three branches: copy up to the key at `hit`, then resolve. -/
def resolveField (line : Text) (pos hit : Nat) (key : Text) (keyLength : Nat) (result : Text)
    (render : Text → Except SinkFailure Text) : Except SinkFailure Turn := do
  let before ← substr line pos (hit - pos)
  let numStart := hit + keyLength
  let numEnd := (TextSearch.find line [' '] numStart).getD line.length
  let text ← substr line numStart (numEnd - numStart)
  let shown ← render text
  return .again numEnd (result ++ before ++ key ++ shown)

def renderTimestamp (formatTime : UInt64 → Text) (text : Text) : Except SinkFailure Text := do
  let us ← stoull text
  return formatTime us

/-- `LogClassId` has 8 bits. -/
def renderClass (text : Text) : Except SinkFailure Text := do
  let id ← stoi text
  className (toEnum 8 id)

/-- `MethodId` has 16 bits. -/
def renderMethod (text : Text) : Except SinkFailure Text := do
  let id ← stoi text
  methodName (toEnum 16 id)

def formatTurn (formatTime : UInt64 → Text) (line : Text) (pos : Nat) (result : Text) :
    Except SinkFailure Turn := do
  let tsPos := TextSearch.find line timestampKey pos
  match tsPos with
  | some hit => resolveField line pos hit timestampKey 10 result (renderTimestamp formatTime)
  | none =>
    let classPos := TextSearch.find line classKey pos
    match classPos.filter fun hit => tsPos.all (hit < ·) with
    | some hit => resolveField line pos hit classKey 9 result renderClass
    | none =>
      let methodPos := TextSearch.find line methodKey pos
      match methodPos.filter fun hit => tsPos.all (hit < ·) && classPos.all (hit < ·) with
      | some hit => resolveField line pos hit methodKey 10 result renderMethod
      | none => return .done (result ++ (← substr line pos line.length))

/-- The loop, for at most `fuel` turns; `none` when it is not over by then. -/
def formatLoop (formatTime : UInt64 → Text) (line : Text) :
    (fuel pos : Nat) → (result : Text) → Option (Except SinkFailure Text)
  | 0, _, _ => none
  | fuel + 1, pos, result =>
      if pos < line.length then
        match formatTurn formatTime line pos result with
        | .ok (.again next longer) => formatLoop formatTime line fuel next longer
        | .ok (.done whole) => some (.ok whole)
        | .error failure => some (.error failure)
      else some (.ok result)

/-- `TextSink::format`. Every turn moves on, so this fuel is never used up. -/
def textSinkFormat (formatTime : UInt64 → Text) (line : Text) :
    Option (Except SinkFailure Text) :=
  formatLoop formatTime line (line.length + 1) 0 []

end MyServer
