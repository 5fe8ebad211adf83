import MyServer.TokenRegistryRuns

/-!
`RegistrationHandle`, the owner of one token. A program is a sequence of constructions,
moves, reassignments and destructions of handles over any number of registries; a handle
slot holds a handle from its construction to its destruction.
-/

namespace MyServer

/-- `registry_` (`none` is the null pointer) and `token_`. -/
structure RegistrationHandle (RegistryId : Type) where
  registry : Option RegistryId
  token : PublishToken
  deriving DecidableEq

variable {RegistryId HandleId : Type} [DecidableEq RegistryId] [DecidableEq HandleId]

def RegistrationHandle.detached : RegistrationHandle RegistryId := ⟨none, kInvalidToken⟩

def RegistrationHandle.valid (handle : RegistrationHandle RegistryId) : Bool :=
  handle.registry.isSome && handle.token.value != kInvalidToken.value

structure HandleWorld (RegistryId HandleId : Type) where
  registries : RegistryId → TokenRegistry
  handles : HandleId → Option (RegistrationHandle RegistryId)

inductive HandleEvent (RegistryId : Type)
  | acquired (registry : RegistryId) (token : PublishToken)
  | released (registry : RegistryId) (token : PublishToken)
  /-- An exception left the constructor or `reassign`. -/
  | threw (registry : RegistryId) (failure : Failure)
  /-- The `catch (...)` of `release` was entered. -/
  | caught (registry : RegistryId) (failure : Failure)
  /-- A failed assertion; what it interrupts is left as it is. -/
  | aborted (assertion : String)
  deriving DecidableEq

/-- `release()`: the handle it leaves, or `none` where an assertion failed on the way. -/
def RegistrationHandle.release (registries : RegistryId → TokenRegistry)
    (handle : RegistrationHandle RegistryId) :
    (RegistryId → TokenRegistry) × Option (RegistrationHandle RegistryId) ×
      List (HandleEvent RegistryId) :=
  let invalidated := { handle with token := kInvalidToken }
  match handle.registry with
  | none => (registries, some invalidated, [])
  | some registry =>
      if handle.token.value ≠ kInvalidToken.value then
        let (outcome, next) := (registries registry).call (.release handle.token)
        let registries := Function.update registries registry next
        match outcome with
        | .failed (.aborts assertion) => (registries, none, [.aborted assertion])
        | .failed failure => (registries, some invalidated, [.caught registry failure])
        | _ => (registries, some invalidated, [.released registry handle.token])
      else (registries, some invalidated, [])

/-- `registry.acquire()` or `registry.acquire(group)` on behalf of a handle. -/
def acquireFor (registries : RegistryId → TokenRegistry) (registry : RegistryId) (call : Call) :
    (RegistryId → TokenRegistry) × Option PublishToken × List (HandleEvent RegistryId) :=
  let (outcome, next) := (registries registry).call call
  let registries := Function.update registries registry next
  match outcome with
  | .returned token => (registries, some token, [.acquired registry token])
  | .failed failure => (registries, none, [.threw registry failure])
  | .released => (registries, none, [])

namespace HandleWorld

variable (world : HandleWorld RegistryId HandleId)

/-- The two acquiring constructors; an exception leaves no object behind. -/
def constructWith (target : HandleId) (registry : RegistryId) (call : Call) :
    HandleWorld RegistryId HandleId × List (HandleEvent RegistryId) :=
  match acquireFor world.registries registry call with
  | (registries, some token, events) =>
      ({ registries := registries
         handles := Function.update world.handles target (some ⟨some registry, token⟩) }, events)
  | (registries, none, events) => ({ world with registries }, events)

def construct (target : HandleId) (registry : RegistryId) :=
  world.constructWith target registry .acquire

def constructGroup (target : HandleId) (registry : RegistryId) (group : ChannelGroup) :=
  world.constructWith target registry (.acquireGroup group)

def moveConstruct (target source : HandleId) (other : RegistrationHandle RegistryId) :
    HandleWorld RegistryId HandleId :=
  { world with
    handles := Function.update (Function.update world.handles target (some other)) source
      (some .detached) }

def moveAssign (target source : HandleId) (handle other : RegistrationHandle RegistryId) :
    HandleWorld RegistryId HandleId × List (HandleEvent RegistryId) :=
  if target ≠ source then
    match handle.release world.registries with
    | (registries, none, events) => ({ world with registries }, events)
    | (registries, some _, events) =>
        ({ registries := registries
           handles := Function.update (Function.update world.handles target (some other)) source
             (some .detached) }, events)
  else (world, [])

/-- `reassign()` and `reassign(group)`: give the token back, then take a new one. -/
def reassignWith (target : HandleId) (handle : RegistrationHandle RegistryId) (call : Call) :
    HandleWorld RegistryId HandleId × List (HandleEvent RegistryId) :=
  match handle.registry with
  | none => (world, [.aborted "Cannot reassign detached handle"])
  | some registry =>
      match handle.release world.registries with
      | (registries, none, events) => ({ world with registries }, events)
      | (registries, some released, events) =>
          match acquireFor registries registry call with
          | (registries, some token, later) =>
              ({ registries := registries
                 handles := Function.update world.handles target (some { released with token }) },
                events ++ later)
          | (registries, none, later) =>
              ({ registries := registries
                 handles := Function.update world.handles target (some released) },
                events ++ later)

def reassign (target : HandleId) (handle : RegistrationHandle RegistryId) :=
  world.reassignWith target handle .acquire

def reassignGroup (target : HandleId) (handle : RegistrationHandle RegistryId)
    (group : ChannelGroup) :=
  world.reassignWith target handle (.acquireGroup group)

def destroy (target : HandleId) (handle : RegistrationHandle RegistryId) :
    HandleWorld RegistryId HandleId × List (HandleEvent RegistryId) :=
  match handle.release world.registries with
  | (registries, none, events) => ({ world with registries }, events)
  | (registries, some _, events) =>
      ({ registries := registries, handles := Function.update world.handles target none }, events)

end HandleWorld

inductive HandleAction (RegistryId HandleId : Type)
  | defaultConstruct (target : HandleId)
  | construct (target : HandleId) (registry : RegistryId)
  | constructGroup (target : HandleId) (registry : RegistryId) (group : ChannelGroup)
  | moveConstruct (target source : HandleId)
  | moveAssign (target source : HandleId)
  | reassign (target : HandleId)
  | reassignGroup (target : HandleId) (group : ChannelGroup)
  | destroy (target : HandleId)

/-- A constructor needs an empty slot, every other operation the handles it names. -/
def HandleWorld.step (world : HandleWorld RegistryId HandleId) :
    HandleAction RegistryId HandleId →
      Option (HandleWorld RegistryId HandleId × List (HandleEvent RegistryId))
  | .defaultConstruct target =>
      match world.handles target with
      | none => some ({ world with
          handles := Function.update world.handles target (some .detached) }, [])
      | some _ => none
  | .construct target registry =>
      match world.handles target with
      | none => some (world.construct target registry)
      | some _ => none
  | .constructGroup target registry group =>
      match world.handles target with
      | none => some (world.constructGroup target registry group)
      | some _ => none
  | .moveConstruct target source =>
      match world.handles target, world.handles source with
      | none, some other => some (world.moveConstruct target source other, [])
      | _, _ => none
  | .moveAssign target source =>
      match world.handles target, world.handles source with
      | some handle, some other => some (world.moveAssign target source handle other)
      | _, _ => none
  | .reassign target => (world.handles target).map (world.reassign target)
  | .reassignGroup target group =>
      (world.handles target).map fun handle => world.reassignGroup target handle group
  | .destroy target => (world.handles target).map (world.destroy target)

def handleMachine (RegistryId HandleId : Type) [DecidableEq RegistryId] [DecidableEq HandleId] :
    EventMachine (HandleWorld RegistryId HandleId) (HandleAction RegistryId HandleId)
      (HandleEvent RegistryId) where
  start := { registries := fun _ => .initial, handles := fun _ => none }
  step := HandleWorld.step

/-- `reassign` is called on handles with a non-null `registry_` only. -/
def reassignsAttached (_ : List (HandleEvent RegistryId))
    (world : HandleWorld RegistryId HandleId) : HandleAction RegistryId HandleId → Prop
  | .reassign target | .reassignGroup target _ =>
      (world.handles target).all (·.registry.isSome) = true
  | _ => True

instance (trace : List (HandleEvent RegistryId)) (world : HandleWorld RegistryId HandleId) :
    (action : HandleAction RegistryId HandleId) → Decidable (reassignsAttached trace world action)
  | .reassign target | .reassignGroup target _ =>
      inferInstanceAs (Decidable ((world.handles target).all (·.registry.isSome) = true))
  | .defaultConstruct _ | .construct _ _ | .constructGroup _ _ _ | .moveConstruct _ _
  | .moveAssign _ _ | .destroy _ => .isTrue trivial

end MyServer
