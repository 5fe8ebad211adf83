import MyServer.ServerCore
import Mathlib.Logic.Function.Iterate

/-!
`ServerBuilder` under any sequence of calls. `build` moves the parts out and leaves the flags
set, so a later `build` succeeds too, with what the moves left behind.
-/

namespace MyServer

inductive ProtocolKind
  | mysql
  | tcp
  | http
  | custom
  deriving DecidableEq

inductive EndpointKind
  | socket
  | file
  | terminal
  | custom
  deriving DecidableEq

structure ListenerConfig where
  port : UInt16 := 0
  protocol : ProtocolKind := .custom
  enabled : Bool := true
  deriving DecidableEq

structure ListenerRuntime where
  port : UInt16 := 0
  protocol : ProtocolKind := .custom
  enabled : Bool := true
  deriving DecidableEq

structure EndpointConfig where
  kind : EndpointKind := .custom
  enabled : Bool := true
  name : String := ""
  deriving DecidableEq

structure ExecutionConfig where
  workerCount : UInt32 := 1
  enableBackpressure : Bool := true
  queueCapacity : UInt64 := 1024
  deriving DecidableEq

structure ServerSettings where
  listeners : List ListenerConfig := []
  endpoints : List EndpointConfig := []
  execution : ExecutionConfig := {}
  deriving DecidableEq

/-- A type with a value `T{}` and, for every value, what a move out of it leaves there. -/
class Movable (T : Type) where
  initial : T
  moved : T → T

/-- A moved-from `std::vector` is empty. -/
instance (T : Type) : Movable (List T) where
  initial := []
  moved := fun _ => []

/-- A move of the whole moves its vectors and copies its numbers. -/
instance : Movable ServerSettings where
  initial := {}
  moved := fun config => { config with
    listeners := Movable.moved config.listeners
    endpoints := Movable.moved config.endpoints }

variable {Hooks QueueT ParserT ExecutorT DistributorT Adapters : Type}

structure BuiltServer (Hooks QueueT ParserT ExecutorT DistributorT Adapters : Type) where
  config : ServerSettings
  hooks : Hooks
  queue : QueueT
  parser : ParserT
  executor : ExecutorT
  distributor : DistributorT
  adapters : Adapters
  listeners : List ListenerRuntime
  deriving DecidableEq

def buildListenersFromConfig (config : ServerSettings) : List ListenerRuntime :=
  config.listeners.map fun cfg =>
    { port := cfg.port
      protocol := cfg.protocol
      enabled := cfg.enabled }

structure ServerBuilder (Hooks QueueT ParserT ExecutorT DistributorT Adapters : Type) where
  config : ServerSettings
  hooks : Hooks
  queue : QueueT
  parser : ParserT
  executor : ExecutorT
  distributor : DistributorT
  adapters : Adapters
  hasConfig : Bool := false
  hasQueue : Bool := false
  hasParser : Bool := false
  hasExecutor : Bool := false
  hasDistributor : Bool := false
  hasAdapters : Bool := false

namespace ServerBuilder

variable (builder : ServerBuilder Hooks QueueT ParserT ExecutorT DistributorT Adapters)

def withConfig (cfg : ServerSettings) :
    ServerBuilder Hooks QueueT ParserT ExecutorT DistributorT Adapters :=
  { builder with config := cfg, hasConfig := true }

def withHooks (hooks : Hooks) :
    ServerBuilder Hooks QueueT ParserT ExecutorT DistributorT Adapters :=
  { builder with hooks }

def withQueue (queue : QueueT) :
    ServerBuilder Hooks QueueT ParserT ExecutorT DistributorT Adapters :=
  { builder with queue, hasQueue := true }

def withParser (parser : ParserT) :
    ServerBuilder Hooks QueueT ParserT ExecutorT DistributorT Adapters :=
  { builder with parser, hasParser := true }

def withExecutor (executor : ExecutorT) :
    ServerBuilder Hooks QueueT ParserT ExecutorT DistributorT Adapters :=
  { builder with executor, hasExecutor := true }

def withDistributor (distributor : DistributorT) :
    ServerBuilder Hooks QueueT ParserT ExecutorT DistributorT Adapters :=
  { builder with distributor, hasDistributor := true }

def withAdapters (adapters : Adapters) :
    ServerBuilder Hooks QueueT ParserT ExecutorT DistributorT Adapters :=
  { builder with adapters, hasAdapters := true }

def isValid : Bool :=
  builder.hasConfig && builder.hasQueue && builder.hasParser && builder.hasExecutor &&
    builder.hasDistributor && builder.hasAdapters

variable [Movable QueueT] [Movable ParserT] [Movable ExecutorT] [Movable DistributorT]
variable [Movable Adapters]

def initial (noopHooks : Hooks) :
    ServerBuilder Hooks QueueT ParserT ExecutorT DistributorT Adapters where
  config := Movable.initial
  hooks := noopHooks
  queue := Movable.initial
  parser := Movable.initial
  executor := Movable.initial
  distributor := Movable.initial
  adapters := Movable.initial

def buildImpl : BuiltServer Hooks QueueT ParserT ExecutorT DistributorT Adapters ×
    ServerBuilder Hooks QueueT ParserT ExecutorT DistributorT Adapters :=
  ({ config := builder.config
     hooks := builder.hooks
     queue := builder.queue
     parser := builder.parser
     executor := builder.executor
     distributor := builder.distributor
     adapters := builder.adapters
     listeners := buildListenersFromConfig builder.config },
   { builder with
     config := Movable.moved builder.config
     queue := Movable.moved builder.queue
     parser := Movable.moved builder.parser
     executor := Movable.moved builder.executor
     distributor := Movable.moved builder.distributor
     adapters := Movable.moved builder.adapters })

def build : Option (BuiltServer Hooks QueueT ParserT ExecutorT DistributorT Adapters) ×
    ServerBuilder Hooks QueueT ParserT ExecutorT DistributorT Adapters :=
  if !builder.isValid then (none, builder)
  else (some builder.buildImpl.1, builder.buildImpl.2)

end ServerBuilder

/-! The parts of a server by name, to say one thing about all of them. -/

inductive ServerPiece
  | config
  | hooks
  | queue
  | parser
  | executor
  | distributor
  | adapters
  deriving DecidableEq

def ServerPiece.required : ServerPiece → Bool
  | .hooks => false
  | _ => true

inductive ServerPart (Hooks QueueT ParserT ExecutorT DistributorT Adapters : Type)
  | config (cfg : ServerSettings)
  | hooks (hooks : Hooks)
  | queue (queue : QueueT)
  | parser (parser : ParserT)
  | executor (executor : ExecutorT)
  | distributor (distributor : DistributorT)
  | adapters (adapters : Adapters)
  deriving DecidableEq

namespace ServerPart

def piece : ServerPart Hooks QueueT ParserT ExecutorT DistributorT Adapters → ServerPiece
  | config _ => .config
  | hooks _ => .hooks
  | queue _ => .queue
  | parser _ => .parser
  | executor _ => .executor
  | distributor _ => .distributor
  | adapters _ => .adapters

variable [Movable QueueT] [Movable ParserT] [Movable ExecutorT] [Movable DistributorT]
variable [Movable Adapters]

def moved : ServerPart Hooks QueueT ParserT ExecutorT DistributorT Adapters →
    ServerPart Hooks QueueT ParserT ExecutorT DistributorT Adapters
  | config cfg => .config (Movable.moved cfg)
  | hooks table => .hooks table
  | queue value => .queue (Movable.moved value)
  | parser value => .parser (Movable.moved value)
  | executor value => .executor (Movable.moved value)
  | distributor value => .distributor (Movable.moved value)
  | adapters value => .adapters (Movable.moved value)

end ServerPart

def BuiltServer.part (server : BuiltServer Hooks QueueT ParserT ExecutorT DistributorT Adapters) :
    ServerPiece → ServerPart Hooks QueueT ParserT ExecutorT DistributorT Adapters
  | .config => .config server.config
  | .hooks => .hooks server.hooks
  | .queue => .queue server.queue
  | .parser => .parser server.parser
  | .executor => .executor server.executor
  | .distributor => .distributor server.distributor
  | .adapters => .adapters server.adapters

inductive BuilderCall (Hooks QueueT ParserT ExecutorT DistributorT Adapters : Type)
  | give (part : ServerPart Hooks QueueT ParserT ExecutorT DistributorT Adapters)
  | build

inductive BuilderEvent (Hooks QueueT ParserT ExecutorT DistributorT Adapters : Type)
  | given (part : ServerPart Hooks QueueT ParserT ExecutorT DistributorT Adapters)
  | built (server : Option (BuiltServer Hooks QueueT ParserT ExecutorT DistributorT Adapters))
  deriving DecidableEq

namespace ServerBuilder

def part (builder : ServerBuilder Hooks QueueT ParserT ExecutorT DistributorT Adapters) :
    ServerPiece → ServerPart Hooks QueueT ParserT ExecutorT DistributorT Adapters
  | .config => .config builder.config
  | .hooks => .hooks builder.hooks
  | .queue => .queue builder.queue
  | .parser => .parser builder.parser
  | .executor => .executor builder.executor
  | .distributor => .distributor builder.distributor
  | .adapters => .adapters builder.adapters

def has (builder : ServerBuilder Hooks QueueT ParserT ExecutorT DistributorT Adapters) :
    ServerPiece → Bool
  | .config => builder.hasConfig
  | .hooks => true
  | .queue => builder.hasQueue
  | .parser => builder.hasParser
  | .executor => builder.hasExecutor
  | .distributor => builder.hasDistributor
  | .adapters => builder.hasAdapters

def give (builder : ServerBuilder Hooks QueueT ParserT ExecutorT DistributorT Adapters) :
    ServerPart Hooks QueueT ParserT ExecutorT DistributorT Adapters →
      ServerBuilder Hooks QueueT ParserT ExecutorT DistributorT Adapters
  | .config cfg => builder.withConfig cfg
  | .hooks hooks => builder.withHooks hooks
  | .queue queue => builder.withQueue queue
  | .parser parser => builder.withParser parser
  | .executor executor => builder.withExecutor executor
  | .distributor distributor => builder.withDistributor distributor
  | .adapters adapters => builder.withAdapters adapters

end ServerBuilder

namespace ServerBuilder

theorem isValid_iff (builder : ServerBuilder Hooks QueueT ParserT ExecutorT DistributorT Adapters) :
    builder.isValid = true ↔ ∀ piece, builder.has piece = true := by
  constructor
  · intro valid piece
    simp only [isValid, Bool.and_eq_true] at valid
    obtain ⟨⟨⟨⟨⟨config, queue⟩, parser⟩, executor⟩, distributor⟩, adapters⟩ := valid
    cases piece <;> first | assumption | rfl
  · intro all
    simp only [isValid, Bool.and_eq_true]
    exact ⟨⟨⟨⟨⟨all .config, all .queue⟩, all .parser⟩, all .executor⟩, all .distributor⟩,
      all .adapters⟩

theorem part_give (builder : ServerBuilder Hooks QueueT ParserT ExecutorT DistributorT Adapters)
    (part : ServerPart Hooks QueueT ParserT ExecutorT DistributorT Adapters)
    (piece : ServerPiece) :
    (builder.give part).part piece = if part.piece = piece then part else builder.part piece := by
  cases part <;> cases piece <;> rfl

theorem has_give (builder : ServerBuilder Hooks QueueT ParserT ExecutorT DistributorT Adapters)
    (part : ServerPart Hooks QueueT ParserT ExecutorT DistributorT Adapters)
    (piece : ServerPiece) :
    (builder.give part).has piece = (decide (part.piece = piece) || builder.has piece) := by
  cases part <;> cases piece <;> rfl

end ServerBuilder

section Traces

def givenPiece? : BuilderEvent Hooks QueueT ParserT ExecutorT DistributorT Adapters →
    Option ServerPiece
  | .given part => some part.piece
  | _ => none

def givenPieces (trace : List (BuilderEvent Hooks QueueT ParserT ExecutorT DistributorT Adapters)) :
    List ServerPiece :=
  trace.filterMap givenPiece?

def isServer : BuilderEvent Hooks QueueT ParserT ExecutorT DistributorT Adapters → Bool
  | .built (some _) => true
  | _ => false

def serverCount (trace : List (BuilderEvent Hooks QueueT ParserT ExecutorT DistributorT Adapters)) :
    Nat :=
  trace.countP isServer

variable {trace more : List (BuilderEvent Hooks QueueT ParserT ExecutorT DistributorT Adapters)}

@[simp]
theorem givenPieces_append :
    givenPieces (trace ++ more) = givenPieces trace ++ givenPieces more := by
  simp [givenPieces]

@[simp]
theorem givenPieces_given
    (part : ServerPart Hooks QueueT ParserT ExecutorT DistributorT Adapters) :
    givenPieces [.given part] = [part.piece] := rfl

@[simp]
theorem givenPieces_built
    (server : Option (BuiltServer Hooks QueueT ParserT ExecutorT DistributorT Adapters)) :
    givenPieces [.built server] = [] := rfl

theorem serverCount_concat
    (event : BuilderEvent Hooks QueueT ParserT ExecutorT DistributorT Adapters) :
    serverCount (trace ++ [event]) = serverCount trace + if isServer event then 1 else 0 := by
  simp [serverCount]

/-- A part given before the last event is the last event, or was given before it. -/
theorem given_concat {before : List (BuilderEvent Hooks QueueT ParserT ExecutorT DistributorT Adapters)}
    {event other : BuilderEvent Hooks QueueT ParserT ExecutorT DistributorT Adapters}
    (split : trace ++ [event] = before ++ other :: more) :
    (more = [] ∧ trace = before ∧ event = other) ∨
      ∃ rest, more = rest ++ [event] ∧ trace = before ++ other :: rest := by
  rcases List.eq_nil_or_concat more with rfl | ⟨rest, last, rfl⟩
  · exact .inl ⟨rfl, by simpa using split⟩
  · have longer : trace ++ [event] = (before ++ other :: rest) ++ [last] := by simpa using split
    obtain ⟨same, ends⟩ := List.append_inj' longer rfl
    obtain rfl : event = last := by simpa using ends
    exact .inr ⟨rest, by simp, same⟩

end Traces

section Runs

variable [Movable QueueT] [Movable ParserT] [Movable ExecutorT] [Movable DistributorT]
variable [Movable Adapters]

def builderMachine (QueueT ParserT ExecutorT DistributorT Adapters : Type) [Movable QueueT]
    [Movable ParserT] [Movable ExecutorT] [Movable DistributorT] [Movable Adapters]
    (noopHooks : Hooks) :
    EventMachine (ServerBuilder Hooks QueueT ParserT ExecutorT DistributorT Adapters)
      (BuilderCall Hooks QueueT ParserT ExecutorT DistributorT Adapters)
      (BuilderEvent Hooks QueueT ParserT ExecutorT DistributorT Adapters) where
  start := .initial noopHooks
  step := fun builder call =>
    match call with
    | .give part => some (builder.give part, [.given part])
    | .build => some (builder.build.2, [.built builder.build.1])

variable {builder : ServerBuilder Hooks QueueT ParserT ExecutorT DistributorT Adapters}
variable {trace : List (BuilderEvent Hooks QueueT ParserT ExecutorT DistributorT Adapters)}
variable {noopHooks : Hooks}

namespace ServerBuilder

theorem part_buildImpl
    (builder : ServerBuilder Hooks QueueT ParserT ExecutorT DistributorT Adapters)
    (piece : ServerPiece) :
    builder.buildImpl.2.part piece = (builder.part piece).moved := by
  cases piece <;> rfl

theorem has_build (builder : ServerBuilder Hooks QueueT ParserT ExecutorT DistributorT Adapters)
    (piece : ServerPiece) : builder.build.2.has piece = builder.has piece := by
  unfold build
  split
  · rfl
  · cases piece <;> rfl

theorem part_build (builder : ServerBuilder Hooks QueueT ParserT ExecutorT DistributorT Adapters)
    (piece : ServerPiece) :
    builder.build.2.part piece =
      ServerPart.moved^[if isServer (.built builder.build.1) then 1 else 0] (builder.part piece) := by
  unfold build
  split
  · rfl
  · exact builder.part_buildImpl piece

theorem part_built (builder : ServerBuilder Hooks QueueT ParserT ExecutorT DistributorT Adapters)
    (piece : ServerPiece) : builder.buildImpl.1.part piece = builder.part piece := by
  cases piece <;> rfl

end ServerBuilder

/-- What a builder holds of a piece: the part given last, moved out once by every server built
since then, or the one it began with. -/
structure BuilderOk (noopHooks : Hooks)
    (trace : List (BuilderEvent Hooks QueueT ParserT ExecutorT DistributorT Adapters))
    (builder : ServerBuilder Hooks QueueT ParserT ExecutorT DistributorT Adapters) : Prop where
  has : ∀ piece, builder.has piece = true ↔ piece.required = true → piece ∈ givenPieces trace
  held : ∀ before part later, trace = before ++ .given part :: later →
    part.piece ∉ givenPieces later →
      builder.part part.piece = ServerPart.moved^[serverCount later] part
  noop : .hooks ∉ givenPieces trace → builder.hooks = noopHooks

theorem BuilderOk.initial :
    BuilderOk noopHooks [] (ServerBuilder.initial noopHooks :
      ServerBuilder Hooks QueueT ParserT ExecutorT DistributorT Adapters) where
  has := by
    intro piece
    cases piece <;> simp [ServerBuilder.has, ServerBuilder.initial, ServerPiece.required,
      givenPieces]
  held := by simp
  noop := fun _ => rfl

theorem BuilderOk.give (ok : BuilderOk noopHooks trace builder)
    (part : ServerPart Hooks QueueT ParserT ExecutorT DistributorT Adapters) :
    BuilderOk noopHooks (trace ++ [.given part]) (builder.give part) := by
  constructor
  case has =>
    intro piece
    rw [ServerBuilder.has_give, Bool.or_eq_true, decide_eq_true_eq, ok.has, givenPieces_append,
      givenPieces_given, List.mem_append, List.mem_singleton]
    by_cases same : part.piece = piece
    · simp [same]
    · simp [same, Ne.symm same]
  case held =>
    intro before other later split last
    rw [ServerBuilder.part_give]
    rcases given_concat split with ⟨rfl, _, same⟩ | ⟨rest, rfl, earlier⟩
    · obtain rfl : part = other := BuilderEvent.given.inj same
      rw [if_pos rfl]
      rfl
    · rw [givenPieces_append, List.mem_append, not_or] at last
      have different : part.piece ≠ other.piece := by simpa [eq_comm] using last.2
      rw [if_neg different, ok.held before other rest earlier last.1, serverCount_concat]
      rfl
  case noop =>
    intro none
    rw [givenPieces_append, List.mem_append, not_or] at none
    have kept : (builder.give part).part .hooks = builder.part .hooks := by
      rw [ServerBuilder.part_give, if_neg (by simpa [eq_comm] using none.2)]
    exact (ServerPart.hooks.inj kept).trans (ok.noop none.1)

theorem BuilderOk.build (ok : BuilderOk noopHooks trace builder) :
    BuilderOk noopHooks (trace ++ [.built builder.build.1]) builder.build.2 := by
  constructor
  case has =>
    intro piece
    rw [ServerBuilder.has_build, ok.has, givenPieces_append, givenPieces_built, List.append_nil]
  case held =>
    intro before part later split last
    rcases given_concat split with ⟨_, _, same⟩ | ⟨rest, rfl, earlier⟩
    · cases same
    · rw [givenPieces_append, givenPieces_built, List.append_nil] at last
      rw [ServerBuilder.part_build, ok.held before part rest earlier last, serverCount_concat,
        Nat.add_comm, Function.iterate_add_apply]
  case noop =>
    intro none
    rw [givenPieces_append, givenPieces_built, List.append_nil] at none
    have kept : builder.build.2.hooks = builder.hooks := by
      unfold ServerBuilder.build
      split <;> rfl
    exact kept.trans (ok.noop none)

structure BuildResult (noopHooks : Hooks)
    (before : List (BuilderEvent Hooks QueueT ParserT ExecutorT DistributorT Adapters))
    (answer : Option (BuiltServer Hooks QueueT ParserT ExecutorT DistributorT Adapters)) :
    Prop where
  refused : answer = none ↔ ∃ piece, piece.required = true ∧ piece ∉ givenPieces before
  parts : ∀ server, answer = some server → ∀ earlier part later,
    before = earlier ++ .given part :: later → part.piece ∉ givenPieces later →
      server.part part.piece = ServerPart.moved^[serverCount later] part
  noop : ∀ server, answer = some server → .hooks ∉ givenPieces before → server.hooks = noopHooks
  configured : ∀ server, answer = some server → ∀ earlier cfg later,
    before = earlier ++ .given (.config cfg) :: later → .config ∉ givenPieces later →
      server.config.execution = cfg.execution ∧
        server.listeners = if serverCount later = 0 then buildListenersFromConfig cfg else []

theorem moved_config (cfg : ServerSettings) (count : Nat) :
    (ServerPart.moved^[count] (.config cfg) :
      ServerPart Hooks QueueT ParserT ExecutorT DistributorT Adapters) =
        .config (if count = 0 then cfg else Movable.moved cfg) := by
  induction count with
  | zero => rfl
  | succ count ih =>
      rw [Function.iterate_succ_apply', ih]
      cases count <;> rfl

theorem BuilderOk.result (ok : BuilderOk noopHooks trace builder) :
    BuildResult noopHooks trace builder.build.1 := by
  have whole : ∀ server, builder.build.1 = some server → server = builder.buildImpl.1 := by
    intro server built
    unfold ServerBuilder.build at built
    split at built
    · cases built
    · exact (Option.some.inj built).symm
  have parts : ∀ server, builder.build.1 = some server → ∀ earlier part later,
      trace = earlier ++ .given part :: later → part.piece ∉ givenPieces later →
        server.part part.piece = ServerPart.moved^[serverCount later] part := by
    intro server built earlier part later split last
    rw [whole server built, ServerBuilder.part_built]
    exact ok.held earlier part later split last
  constructor
  case refused =>
    have refuses : builder.build.1 = none ↔ ¬builder.isValid = true := by
      unfold ServerBuilder.build
      split <;> simp_all
    rw [refuses, ServerBuilder.isValid_iff]
    simp only [ok.has, not_forall, exists_prop]
  case parts => exact parts
  case noop =>
    intro server built none
    rw [whole server built]
    exact ok.noop none
  case configured =>
    intro server built earlier cfg later split last
    have held := parts server built earlier (.config cfg) later split last
    rw [moved_config] at held
    have config : server.config = if serverCount later = 0 then cfg else Movable.moved cfg :=
      ServerPart.config.inj held
    have listeners : server.listeners = buildListenersFromConfig server.config := by
      rw [whole server built]
      rfl
    rw [listeners, config]
    split_ifs <;> exact ⟨rfl, rfl⟩

/-- Any calls, in any order: `build` returns null exactly while a required part was never given,
and each server gets the parts given last, as the servers built since then have left them. -/
theorem build_any_calls
    {trace : List (BuilderEvent Hooks QueueT ParserT ExecutorT DistributorT Adapters)}
    (reached : (builderMachine QueueT ParserT ExecutorT DistributorT Adapters noopHooks).Reaches
      EventMachine.anyAction trace builder)
    {before after : List (BuilderEvent Hooks QueueT ParserT ExecutorT DistributorT Adapters)}
    {answer : Option (BuiltServer Hooks QueueT ParserT ExecutorT DistributorT Adapters)}
    (split : trace = before ++ .built answer :: after) : BuildResult noopHooks before answer := by
  have all : BuilderOk noopHooks trace builder ∧ Stamped (fun before event =>
      ∀ answer, event = .built answer → BuildResult noopHooks before answer) trace := by
    refine reached.invariant (fun trace builder => BuilderOk noopHooks trace builder ∧
      Stamped (fun before event =>
        ∀ answer, event = .built answer → BuildResult noopHooks before answer) trace)
      ⟨.initial, .nil⟩ ?_
    rintro trace builder call next events ⟨ok, stamped⟩ _ stepped
    cases call with
    | give part =>
        obtain ⟨rfl, rfl⟩ := Prod.mk.inj (Option.some.inj stepped)
        exact ⟨ok.give part, stamped.concat (by simp)⟩
    | build =>
        obtain ⟨rfl, rfl⟩ := Prod.mk.inj (Option.some.inj stepped)
        refine ⟨ok.build, stamped.concat ?_⟩
        rintro answer same
        obtain rfl := BuilderEvent.built.inj same
        exact ok.result
  exact all.2 before (.built answer) after split answer rfl

end Runs

def builderSchedule : List (BuilderCall Nat (List Nat) (List Nat) (List Nat) (List Nat) (List Nat)) :=
  [.give (.config { listeners := [{ port := 80 }], execution := { workerCount := 4 } }), .build,
    .give (.queue [1]), .give (.parser [2]), .give (.executor [3]), .give (.distributor [4]),
    .give (.adapters [5, 6]), .build, .give (.queue [7]), .build]

theorem builderSchedule_runs :
    ((builderMachine (List Nat) (List Nat) (List Nat) (List Nat) (List Nat) (0 : Nat)).exec
      EventMachine.anyAction [] (.initial 0) builderSchedule).isSome = true := by
  decide +kernel

theorem build_any_calls_sample :
    let trace := (Option.get _ builderSchedule_runs).1
    BuildResult 0 (trace.take 1) none ∧
      BuildResult 0 trace.dropLast (some
        { config := { execution := { workerCount := 4 } }
          hooks := 0
          queue := [7]
          parser := []
          executor := []
          distributor := []
          adapters := []
          listeners := [] }) := by
  intro trace
  have reached := EventMachine.reaches_of_isSome builderSchedule_runs
  have early : trace = trace.take 1 ++ .built none :: trace.drop 2 := by decide +kernel
  have late : trace = trace.dropLast ++ .built (some
      { config := { execution := { workerCount := 4 } }
        hooks := 0
        queue := [7]
        parser := []
        executor := []
        distributor := []
        adapters := []
        listeners := [] }) :: [] := by
    decide +kernel
  exact ⟨build_any_calls reached early, build_any_calls reached late⟩

end MyServer
