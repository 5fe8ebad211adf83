import MyServer.TokenRegistryRuns

/-!
`PublisherRuntime<SinkKind::Terminal>`: `publish_view` resolves a token and appends the
data to the stream of its channel. The world is a registry next to the bytes written to
each stream; the store with the channels' handles never changes after it is bound.
-/

namespace MyServer

/-- The pointer member of a handle; `none` is the null pointer. -/
structure TerminalHandle (Stream : Type) where
  out : Option Stream

def kChannelCount : Nat := kMaxChannels

structure OutputResourceStore (Stream : Type) where
  terminals : Nat → TerminalHandle Stream

structure PublisherWorld (Stream : Type) where
  registry : TokenRegistry
  written : Stream → List UInt8

variable {Stream : Type} [DecidableEq Stream]

/-- `SinkTraits<SinkKind::Terminal>::write`, on streams that append what is written. -/
def sinkWrite (handle : TerminalHandle Stream) (data : List UInt8)
    (written : Stream → List UInt8) : Except Failure (Stream → List UInt8) :=
  match handle.out with
  | none => .error (.aborts "TerminalHandle: null stream")
  | some stream => .ok (Function.update written stream (written stream ++ data))

def publishView (store : OutputResourceStore Stream) (world : PublisherWorld Stream)
    (token : PublishToken) (data : List UInt8) : Except Failure (PublisherWorld Stream) :=
  match TokenRegistry.resolve token world.registry with
  | .error failure _ => .error failure
  | .ok idx registry =>
      if idx < kChannelCount then do
        let written ← sinkWrite (store.terminals idx) data world.written
        return { registry, written }
      else .error .outOfBounds

inductive PublisherAction
  | call (call : Call)
  | publish (token : PublishToken) (data : List UInt8)

inductive PublisherEvent
  | called (call : Call) (outcome : Outcome)
  | published (token : PublishToken) (data : List UInt8)
  | aborted (failure : Failure)
  deriving DecidableEq

def publisherMachine (store : OutputResourceStore Stream) :
    EventMachine (PublisherWorld Stream) PublisherAction PublisherEvent where
  start := { registry := .initial, written := fun _ => [] }
  step world
    | .call call =>
        let (outcome, registry) := world.registry.call call
        some ({ world with registry }, [.called call outcome])
    | .publish token data =>
        match publishView store world token data with
        | .ok next => some (next, [.published token data])
        | .error failure => some (world, [.aborted failure])

def publishesLive (_ : List PublisherEvent) (world : PublisherWorld Stream) :
    PublisherAction → Prop
  | .call _ => True
  | .publish token _ => world.registry.Live token.value

instance (trace : List PublisherEvent) (world : PublisherWorld Stream) (action : PublisherAction) :
    Decidable (publishesLive trace world action) :=
  match action with
  | .call _ => .isTrue trivial
  | .publish token _ => inferInstanceAs (Decidable (world.registry.Live token.value))

def registryCalls (trace : List PublisherEvent) : List (Call × Outcome) :=
  trace.filterMap fun
    | .called call outcome => some (call, outcome)
    | _ => none

def obtained (trace : List PublisherEvent) : Nat → Option Origin :=
  originOf (registryCalls trace)

def tokenBytes (token : PublishToken) (segment : List PublisherEvent) : List UInt8 :=
  segment.flatMap fun
    | .published other data => if other = token then data else []
    | _ => []

/-- The data published by the members a group has at the time, in call order. -/
def groupBytes (group : ChannelGroup) (origin : Nat → Option Origin) :
    List PublisherEvent → List UInt8
  | [] => []
  | .called call outcome :: rest =>
      groupBytes group (recordOrigin origin (call, outcome)) rest
  | .published token data :: rest =>
      (if origin token.value = some (.group group) then data else []) ++
        groupBytes group origin rest
  | .aborted _ :: rest => groupBytes group origin rest

end MyServer
