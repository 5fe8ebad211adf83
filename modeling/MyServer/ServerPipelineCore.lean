import MyServer.ServerCore

/-!
`processEvent` with its components. Adapters, parser, executor and distributor are any code
that reads and writes a world of its own; a worker calls them one at a time, and every call is
one step of the server. A view is the text it shows: the adapters' contract is that its buffer
is stable. The hooks are the effects that their calls have.
-/

namespace MyServer

structure SelectCommand where
  table : String
  columns : List String

structure InsertCommand where
  table : String
  values : List String

/-- `command::Command`. -/
inductive Command
  | select (command : SelectCommand)
  | insert (command : InsertCommand)

def Command.initial : Command := .select ⟨"", []⟩

structure Row where
  cells : List String

/-- `result::Result`. -/
structure Result where
  ok : Bool
  message : String
  rows : List Row

def Result.initial : Result := ⟨false, "", []⟩

/-- The hooks of `ServerHookTable` that a worker may call; `none` is a null pointer. -/
structure ServerHookTable (Effect : Type) where
  onRawInput : Option (String → Effect)
  onParsedInput : Option (String → Effect)
  onCommandBuilt : Option (String → Effect)
  onResultReady : Option (String → Effect)
  onDistributed : Option (String → Effect)
  onError : Option (String → Effect)

def callHook {Effect : Type} (hook : Option (String → Effect)) (text : String) : List Effect :=
  match hook with
  | none => []
  | some effect => [effect text]

/-- The components of a `Server` and its hooks. A component takes what its out parameter holds
before the call, and returns its answer with what it leaves there. -/
structure Pipeline (Event World Effect : Type) where
  /-- `decodeView` of each element of `adapters_`. -/
  adapters : List (Event → String → World → Bool × String × World)
  parse : String → Command → World → Bool × Command × World
  execute : Command → Result → World → Bool × Result × World
  distribute : Result → World → World
  hooks : ServerHookTable Effect

/-- What `processEvent` changes: `error_` of the metrics, the world, and the hooks' effects. -/
structure Served (World Effect : Type) where
  error : UInt64
  world : World
  effects : List Effect

variable {Event World Effect Thread : Type}

def Served.hook (served : Served World Effect) (hook : Option (String → Effect)) (text : String) :
    Served World Effect :=
  { served with effects := served.effects ++ callHook hook text }

def Served.onError (served : Served World Effect) : Served World Effect :=
  { served with error := served.error + 1 }

/-- Every adapter finds in `out` what the ones before it left there. -/
def decodeEventImpl (adapters : List (Event → String → World → Bool × String × World))
    (ev : Event) (out : String) (world : World) : Bool × String × World :=
  match adapters with
  | [] => (false, out, world)
  | decodeView :: rest =>
      match decodeView ev out world with
      | (true, out, world) => (true, out, world)
      | (false, out, world) => decodeEventImpl rest ev out world

/-- One call of `processEvent` by itself. -/
def processEvent (pipe : Pipeline Event World Effect) (ev : Event) (served : Served World Effect) :
    Served World Effect :=
  match decodeEventImpl pipe.adapters ev "" served.world with
  | (false, _, world) =>
      ({ served with world }.onError).hook pipe.hooks.onError "decode failed"
  | (true, rawInput, world) =>
      let served := { served with world }.hook pipe.hooks.onRawInput rawInput
      match pipe.parse rawInput .initial served.world with
      | (false, _, world) =>
          ({ served with world }.onError).hook pipe.hooks.onError "parse failed"
      | (true, cmd, world) =>
          let served := { served with world }.hook pipe.hooks.onCommandBuilt "command built"
          match pipe.execute cmd .initial served.world with
          | (false, _, world) =>
              ({ served with world }.onError).hook pipe.hooks.onError "execution failed"
          | (true, res, world) =>
              let served := { served with world }.hook pipe.hooks.onResultReady res.message
              let served := { served with world := pipe.distribute res served.world }
              served.hook pipe.hooks.onDistributed "result distributed"

/-- The locals of `processEvent`, and the text for `on_error` on the way it has taken. -/
structure Job where
  rawInput : String
  cmd : Command
  res : Result
  failure : String

def Job.initial : Job := ⟨"", .initial, .initial, "decode failed"⟩

/-- What a worker's step does outside the `Server`. -/
structure Work (Thread World Effect : Type) where
  /-- What the called component returned. -/
  answer : Bool
  job : Job
  world : World
  log : List (Submission Thread × Effect)

def logHook (event : Submission Thread) (hook : Option (String → Effect)) (text : String) :
    List (Submission Thread × Effect) :=
  (callHook hook text).map fun effect => (event, effect)

/-- The call that a worker makes from a place in `processEvent`. -/
def work (pipe : Pipeline Event World Effect) (contents : Submission Thread → Event)
    (pc : LoopPc Thread) (job : Job) (world : World) : Work Thread World Effect :=
  match pc with
  | .inflightInc _ => ⟨true, .initial, world, []⟩
  | .decode event adapter =>
      match pipe.adapters[adapter]? with
      | none => ⟨false, { job with failure := "decode failed" }, world, []⟩
      | some decodeView =>
          match decodeView (contents event) job.rawInput world with
          | (true, rawInput, world) =>
              ⟨true, { job with rawInput, cmd := .initial }, world,
                logHook event pipe.hooks.onRawInput rawInput⟩
          | (false, rawInput, world) =>
              ⟨false, { job with rawInput, failure := "decode failed" }, world, []⟩
  | .parse event =>
      match pipe.parse job.rawInput job.cmd world with
      | (true, cmd, world) =>
          ⟨true, { job with cmd, res := .initial }, world,
            logHook event pipe.hooks.onCommandBuilt "command built"⟩
      | (false, cmd, world) => ⟨false, { job with cmd, failure := "parse failed" }, world, []⟩
  | .execute event =>
      match pipe.execute job.cmd job.res world with
      | (true, res, world) =>
          ⟨true, { job with res }, world, logHook event pipe.hooks.onResultReady res.message⟩
      | (false, res, world) => ⟨false, { job with res, failure := "execution failed" }, world, []⟩
  | .distribute event =>
      ⟨true, job, pipe.distribute job.res world,
        logHook event pipe.hooks.onDistributed "result distributed"⟩
  | .countError event => ⟨true, job, world, logHook event pipe.hooks.onError job.failure⟩
  | _ => ⟨true, job, world, []⟩

/-- A `Server`, the locals of its workers, the components' world and the calls of hooks so far,
each with the event it was made for. -/
structure PipelineServer (Thread World Effect : Type) where
  server : Server Thread
  jobs : Nat → Job
  world : World
  log : List (Submission Thread × Effect)

namespace PipelineServer

def initial (world : World) : PipelineServer Thread World Effect :=
  ⟨.initial, fun _ => .initial, world, []⟩

variable [DecidableEq Thread]

/-- The answer named by an action is ignored: the component that is called gives it. -/
def step (config : ServerConfig) (pipe : Pipeline Event World Effect)
    (contents : Submission Thread → Event) (state : PipelineServer Thread World Effect) :
    ServerAction Thread → Option (PipelineServer Thread World Effect × List (ServerEvent Thread))
  | .worker id _ =>
      let done := work pipe contents (state.server.loops id) (state.jobs id) state.world
      (state.server.step config (.worker id done.answer)).map fun (server, events) =>
        ({ server
           jobs := Function.update state.jobs id done.job
           world := done.world
           log := state.log ++ done.log }, events)
  | action =>
      (state.server.step config action).map fun (server, events) => ({ state with server }, events)

end PipelineServer

/-- The machine of a server whose `adapters_` are those of the pipeline. -/
def pipelineMachine (config : ServerConfig) (pipe : Pipeline Event World Effect)
    (contents : Submission Thread → Event) (world : World) [DecidableEq Thread] :
    EventMachine (PipelineServer Thread World Effect) (ServerAction Thread)
      (ServerEvent Thread) where
  start := .initial world
  step := fun state action =>
    state.step { config with adapters := pipe.adapters.length } pipe contents action

end MyServer
