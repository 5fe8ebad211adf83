import MyServer.LogEngineCore
import MyServer.LogPayloadsCore
import MyServer.PublisherRuntimeCore
import MyServer.RegistrationHandleCore

/-!
The logger as one process: `Handler::log` builds a payload and gives it to the engine, whose
worker prints it in `submit_impl` and publishes the view under the engine's own token. The
engine's store sends every channel to `std::cout`.
-/

namespace MyServer

/-- `PayloadRegister<MsgTag::Generic>::args_tuple_type`. -/
structure GenericArgs where
  severity : Severity
  timestamp : UInt64
  threadId : UInt32
  requestId : UInt32
  classId : UInt16
  methodId : UInt16
  schemaVersion : UInt16

def genericFieldPtrs : List (GenericArgs → GenericPayload → GenericPayload) :=
  [fun args p => { p with header.severity := args.severity },
    fun args p => { p with header.timestamp := args.timestamp },
    fun args p => { p with header.threadId := args.threadId },
    fun args p => { p with header.requestId := args.requestId },
    fun args p => { p with header.classId := args.classId },
    fun args p => { p with header.methodId := args.methodId },
    fun args p => { p with header.schemaVersion := args.schemaVersion }]

/-- `Builder::build<MsgTag::Generic>`. -/
def buildGeneric (args : GenericArgs) : GenericPayload :=
  genericFieldPtrs.foldl (fun payload assign => assign args payload) ⟨emptyHeader⟩

/-- What `pack_header_args` makes of the arguments of `Handler::log<Tag>`. -/
inductive LogArgs
  | generic (args : GenericArgs)
  | request (args : RequestArgs)

/-- `Builder::build<Tag>`. -/
def LogArgs.build : LogArgs → LoggedPayload
  | .generic args => .generic (buildGeneric args)
  | .request args => .request (buildRequest args)

/-- The bytes of a text, each `Char` of which stands for the byte with its code. -/
def textBytes (text : Text) : List UInt8 := text.map fun c => UInt8.ofNat c.toNat

inductive StdStream
  | cout
  deriving DecidableEq

/-- `LogEngine::store()`. -/
def engineStore : OutputResourceStore StdStream where
  terminals := fun _ => ⟨some .cout⟩

/-- `registry()` and `publishHandle_` after the constructor `LogEngine()`. -/
def engineHandle : HandleWorld Unit Unit :=
  (HandleWorld.construct ⟨fun _ => .initial, fun _ => none⟩ () ()).1

/-- `publishHandle_.token()`; the member is default-constructed if the constructor did not set it. -/
def publishToken (handles : Unit → Option (RegistrationHandle Unit)) : PublishToken :=
  ((handles ()).getD .detached).token

structure LoggerProcess (list : FreeListSteps LogRecord) (Thread : Type) where
  engine : LogEngine list Thread
  publishing : HandleWorld Unit Unit
  written : StdStream → List UInt8
  /-- The buffer and stream of `submit_impl`, local to each worker thread. -/
  streams : Nat → BufferStream 1024
  /-- A failed assertion in `publish_view`. -/
  aborted : Option Failure

namespace LoggerProcess

variable {list : FreeListSteps LogRecord} {Thread : Type}

def initial : LoggerProcess list Thread where
  engine := .initial
  publishing := engineHandle
  written := fun _ => []
  streams := fun _ => ⟨⟨[], Nat.zero_le _⟩, true⟩
  aborted := none

/-- `submit_impl` on the worker `id`: the adapter, then `publish_view`. -/
def submit (args : Envelope Thread → LogArgs) (process : LoggerProcess list Thread) (id : Nat)
    (envelope : Envelope Thread) : LoggerProcess list Thread :=
  let (view, os) := submitImpl (process.streams id) (args envelope).build
  let streams := Function.update process.streams id os
  match publishView engineStore ⟨process.publishing.registries (), process.written⟩
      (publishToken process.publishing.handles) (textBytes view) with
  | .ok world =>
      { process with
        streams
        publishing := { process.publishing with registries := fun _ => world.registry }
        written := world.written }
  | .error failure => { process with streams, aborted := some failure }

/-- What the worker's `submit_fn` does in a step that calls it. -/
def afterStep (args : Envelope Thread → LogArgs) (process : LoggerProcess list Thread) :
    EngineAction Thread → List (EngineEvent Thread) → LoggerProcess list Thread
  | .worker id _, [.submitted envelope] => process.submit args id envelope
  | _, _ => process

end LoggerProcess

/-- The engine's steps, with the arguments given to each call of `Handler::log`. -/
def loggerMachine (list : FreeListSteps LogRecord) (Thread : Type) [DecidableEq Thread]
    (args : Envelope Thread → LogArgs) (poolSize : Nat) :
    EventMachine (LoggerProcess list Thread) (EngineAction Thread) (EngineEvent Thread) where
  start := .initial
  step process action :=
    if process.aborted.isSome then none
    else
      (process.engine.step poolSize action).map fun result =>
        (({ process with engine := result.1 }).afterStep args action result.2, result.2)

end MyServer
