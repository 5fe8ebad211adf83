import MyServer.PublisherRuntime

/-!
`PublisherRuntime` over the whole `OutputResourceStore`: a token has one channel, and a channel
one slot in each of the three arrays. Seen from one kind of sink, a program that publishes to
all of them is a program that publishes to that kind only.
-/

namespace MyServer

open TokenRegistry

inductive SinkKind
  | terminal
  | file
  | socket
  deriving DecidableEq

structure FileHandle (Stream : Type) where
  file : Option Stream

structure SocketHandle where
  fakeFd : Int

structure SinkStore (Stream : Type) extends OutputResourceStore Stream where
  files : Nat → FileHandle Stream
  sockets : Nat → SocketHandle

variable {Stream : Type} [DecidableEq Stream]

def fileWrite (handle : FileHandle Stream) (data : List UInt8) (written : Stream → List UInt8) :
    Except Failure (Stream → List UInt8) :=
  match handle.file with
  | none => .error (.aborts "FileHandle: null stream")
  | some stream => .ok (Function.update written stream (written stream ++ data))

def socketWrite (handle : SocketHandle) (_data : List UInt8) (written : Stream → List UInt8) :
    Except Failure (Stream → List UInt8) :=
  if handle.fakeFd ≥ 0 then .ok written else .error (.aborts "SocketHandle: invalid fd")

def SinkStore.write (store : SinkStore Stream) (kind : SinkKind) (idx : Nat) (data : List UInt8)
    (written : Stream → List UInt8) : Except Failure (Stream → List UInt8) :=
  match kind with
  | .terminal => sinkWrite (store.terminals idx) data written
  | .file => fileWrite (store.files idx) data written
  | .socket => socketWrite (store.sockets idx) data written

def publishSink (store : SinkStore Stream) (kind : SinkKind) (world : PublisherWorld Stream)
    (token : PublishToken) (data : List UInt8) : Except Failure (PublisherWorld Stream) :=
  match TokenRegistry.resolve token world.registry with
  | .error failure _ => .error failure
  | .ok idx registry =>
      if idx < kChannelCount then do
        let written ← store.write kind idx data world.written
        return { registry, written }
      else .error .outOfBounds

inductive SinkAction
  | call (call : Call)
  | publish (kind : SinkKind) (token : PublishToken) (data : List UInt8)

inductive SinkEvent
  | called (call : Call) (outcome : Outcome)
  | published (kind : SinkKind) (token : PublishToken) (data : List UInt8)
  | aborted (failure : Failure)
  deriving DecidableEq

def sinkMachine (store : SinkStore Stream) :
    EventMachine (PublisherWorld Stream) SinkAction SinkEvent where
  start := { registry := .initial, written := fun _ => [] }
  step world
    | .call call =>
        let (outcome, registry) := world.registry.call call
        some ({ world with registry }, [.called call outcome])
    | .publish kind token data =>
        match publishSink store kind world token data with
        | .ok next => some (next, [.published kind token data])
        | .error failure => some (world, [.aborted failure])

def sinksLive (_ : List SinkEvent) (world : PublisherWorld Stream) : SinkAction → Prop
  | .call _ => True
  | .publish _ token _ => world.registry.Live token.value

instance (trace : List SinkEvent) (world : PublisherWorld Stream) (action : SinkAction) :
    Decidable (sinksLive trace world action) :=
  match action with
  | .call _ => .isTrue trivial
  | .publish _ token _ => inferInstanceAs (Decidable (world.registry.Live token.value))

def SinkStore.slot (store : SinkStore Stream) (channel : Nat) : SinkKind → Option Stream
  | .terminal => (store.terminals channel).out
  | .file => (store.files channel).file
  | .socket => none

structure DistinctSinks (store : SinkStore Stream) : Prop where
  streams : ∀ kind channel, kind ≠ .socket → channel < kMaxChannels →
    ∃ stream, store.slot channel kind = some stream
  sockets : ∀ channel, channel < kMaxChannels → 0 ≤ (store.sockets channel).fakeFd
  apart : ∀ kind other left right stream, left < kMaxChannels → right < kMaxChannels →
    store.slot left kind = some stream → store.slot right other = some stream →
      kind = other ∧ left = right

/-! One kind of sink by itself. -/

def SinkEvent.seenBy (kind : SinkKind) : SinkEvent → Option PublisherEvent
  | .called call outcome => some (.called call outcome)
  | .published other token data => if other = kind then some (.published token data) else none
  | .aborted failure => some (.aborted failure)

def seenBy (kind : SinkKind) (trace : List SinkEvent) : List PublisherEvent :=
  trace.filterMap (SinkEvent.seenBy kind)

def channelStore : OutputResourceStore Nat where
  terminals := fun channel => ⟨some channel⟩

theorem channelStore_distinct : DistinctStreams channelStore where
  nonNull := fun channel _ => ⟨channel, rfl⟩
  distinct := fun left right _ _ same => by simpa [channelStore] using same

def PublisherWorld.byChannel (world : PublisherWorld Stream) (store : SinkStore Stream)
    (kind : SinkKind) : PublisherWorld Nat where
  registry := world.registry
  written := fun channel =>
    match store.slot channel kind with
    | some stream => if channel < kMaxChannels then world.written stream else []
    | none => []

section Sinks

variable {store : SinkStore Stream} {trace segment : List SinkEvent} {events : List SinkEvent}
variable {world later next : PublisherWorld Stream} {kind : SinkKind} {action : SinkAction}

@[simp]
theorem seenBy_append (kind : SinkKind) (trace segment : List SinkEvent) :
    seenBy kind (trace ++ segment) = seenBy kind trace ++ seenBy kind segment := by
  simp [seenBy]

inductive SinkStep (store : SinkStore Stream) (world : PublisherWorld Stream) :
    SinkAction → PublisherWorld Stream → List SinkEvent → Prop
  | call (call : Call) : SinkStep store world (.call call)
      { world with registry := (world.registry.call call).2 }
      [.called call (world.registry.call call).1]
  | writes {kind token stream} (data) : world.registry.Live token.value →
      world.registry.tokenToChannel token.value < kMaxChannels →
      store.slot (world.registry.tokenToChannel token.value) kind = some stream →
      SinkStep store world (.publish kind token data)
        { world with
          written := Function.update world.written stream (world.written stream ++ data) }
        [.published kind token data]
  | sends {token} (data) : world.registry.Live token.value →
      SinkStep store world (.publish .socket token data) world [.published .socket token data]

/-- With a live token, and the slots open, no publishing fails. -/
theorem sink_step (distinct : DistinctSinks store)
    (ran : RegistryRan (seenBy kind trace) (world.byChannel store kind))
    (permitted : sinksLive trace world action)
    (stepped : (sinkMachine store).step world action = some (next, events)) :
    SinkStep store world action next events := by
  cases action with
  | call call =>
      obtain ⟨rfl, rfl⟩ := Prod.mk.inj (Option.some.inj stepped)
      exact .call call
  | publish sink token data =>
      have ok : Sound world.registry := reachable_sound ran
      have live : world.registry.Live token.value := permitted
      have bound : world.registry.tokenToChannel token.value < kMaxChannels :=
        ok.channelBound token.value live.2
      have inside : world.registry.tokenToChannel token.value < kChannelCount := bound
      have resolved : resolve token world.registry =
          .ok (world.registry.tokenToChannel token.value) world.registry := ok.resolves live
      cases sink with
      | terminal =>
          obtain ⟨stream, slot⟩ := distinct.streams .terminal _ (by decide) bound
          have out : (store.terminals (world.registry.tokenToChannel token.value)).out =
              some stream := slot
          simp only [sinkMachine, publishSink, resolved, if_pos inside, SinkStore.write, sinkWrite,
            out, bind, Except.bind, pure, Except.pure, Option.some.injEq, Prod.mk.injEq] at stepped
          obtain ⟨rfl, rfl⟩ := stepped
          exact .writes data live bound slot
      | file =>
          obtain ⟨stream, slot⟩ := distinct.streams .file _ (by decide) bound
          have file : (store.files (world.registry.tokenToChannel token.value)).file =
              some stream := slot
          simp only [sinkMachine, publishSink, resolved, if_pos inside, SinkStore.write, fileWrite,
            file, bind, Except.bind, pure, Except.pure, Option.some.injEq, Prod.mk.injEq] at stepped
          obtain ⟨rfl, rfl⟩ := stepped
          exact .writes data live bound slot
      | socket =>
          have open_ := distinct.sockets _ bound
          simp only [sinkMachine, publishSink, resolved, if_pos inside, SinkStore.write,
            socketWrite, ge_iff_le, if_pos open_, bind, Except.bind, pure, Except.pure,
            Option.some.injEq, Prod.mk.injEq] at stepped
          obtain ⟨rfl, rfl⟩ := stepped
          exact .sends data live

/-- A write to one slot, as the streams of a kind see it. -/
theorem byChannel_write (distinct : DistinctSinks store) {sink : SinkKind} {channel : Nat}
    {stream : Stream} (bound : channel < kMaxChannels)
    (slot : store.slot channel sink = some stream) (data : List UInt8) :
    PublisherWorld.byChannel { world with
        written := Function.update world.written stream (world.written stream ++ data) }
          store kind =
      if sink = kind then { world.byChannel store kind with
        written := Function.update (world.byChannel store kind).written channel
          ((world.byChannel store kind).written channel ++ data) }
      else world.byChannel store kind := by
  have written : ∀ other : Nat, (PublisherWorld.byChannel { world with
      written := Function.update world.written stream (world.written stream ++ data) }
        store kind).written other =
      if sink = kind ∧ other = channel then (world.byChannel store kind).written channel ++ data
      else (world.byChannel store kind).written other := by
    intro other
    simp only [PublisherWorld.byChannel]
    cases found : store.slot other kind with
    | none =>
        have different : ¬(sink = kind ∧ other = channel) := by
          rintro ⟨rfl, rfl⟩
          simp [slot] at found
        rw [if_neg different]
    | some target =>
        by_cases here : sink = kind ∧ other = channel
        · obtain ⟨rfl, rfl⟩ := here
          obtain rfl : stream = target := Option.some.inj (slot.symm.trans found)
          simp [bound, slot]
        · rw [if_neg here]
          by_cases inside : other < kMaxChannels
          · have different : target ≠ stream := by
              rintro rfl
              obtain ⟨rfl, rfl⟩ := distinct.apart _ _ _ _ _ bound inside slot found
              exact here ⟨rfl, rfl⟩
            simp [inside, different]
          · simp [inside]
  split
  · rename_i same
    unfold PublisherWorld.byChannel at written ⊢
    congr 1
    funext other
    rw [Function.update_apply]
    simpa [same] using written other
  · rename_i different
    unfold PublisherWorld.byChannel at written ⊢
    congr 1
    funext other
    simpa [different] using written other

/-- A step, as the streams of a kind see it: a step of that kind's publisher, or nothing. -/
theorem SinkStep.seen (distinct : DistinctSinks store)
    (real : kind ≠ .socket)
    (ran : RegistryRan (seenBy kind trace) (world.byChannel store kind))
    (stepped : SinkStep store world action next events) :
    (seenBy kind events = [] ∧ next.byChannel store kind = world.byChannel store kind) ∨
      ∃ actionB, publishesLive (seenBy kind trace) (world.byChannel store kind) actionB ∧
        (publisherMachine channelStore).step (world.byChannel store kind) actionB =
          some (next.byChannel store kind, seenBy kind events) := by
  cases stepped with
  | call call => exact .inr ⟨.call call, trivial, rfl⟩
  | @writes sink token stream data live bound slot =>
      rw [byChannel_write distinct bound slot]
      by_cases same : sink = kind
      · subst same
        right
        obtain ⟨target, out, wrote⟩ := publishView_live channelStore_distinct ran live data
        obtain rfl : world.registry.tokenToChannel token.value = target := Option.some.inj out
        refine ⟨.publish token data, live, ?_⟩
        simp only [publisherMachine, wrote]
        simp [seenBy, SinkEvent.seenBy]
      · exact .inl ⟨by simp [seenBy, SinkEvent.seenBy, same], by rw [if_neg same]⟩
  | @sends token data live =>
      exact .inl ⟨by simp [seenBy, SinkEvent.seenBy, real.symm], rfl⟩

/-- A run, as the streams of a kind see it, is a run of that kind's publisher; so is a run on
which something else holds at every step, if the kind sees that too. -/
theorem seen_path (distinct : DistinctSinks store) (real : kind ≠ .socket)
    (extra : List SinkEvent → PublisherWorld Stream → Prop)
    (extraB : List PublisherEvent → PublisherWorld Nat → Prop)
    (seen : ∀ trace world, extra trace world → extraB (seenBy kind trace)
      (world.byChannel store kind))
    (ran : RegistryRan (seenBy kind trace) (world.byChannel store kind))
    (path : (sinkMachine store).Path
      (fun trace world action => sinksLive trace world action ∧ extra trace world)
        trace world segment later) :
    (publisherMachine channelStore).Path
        (fun trace world action => publishesLive trace world action ∧ extraB trace world)
        (seenBy kind trace) (world.byChannel store kind) (seenBy kind segment)
        (later.byChannel store kind) ∧
      RegistryRan (seenBy kind (trace ++ segment)) (later.byChannel store kind) := by
  induction path with
  | nil => exact ⟨.nil, by simpa using ran⟩
  | @snoc segment state action next events _ permitted stepped ih =>
      obtain ⟨path, ranHere⟩ := ih
      have step := sink_step distinct ranHere permitted.1 stepped
      rcases step.seen distinct real ranHere with ⟨silent, same⟩ | ⟨actionB, permittedB, taken⟩
      · have quiet : seenBy kind (trace ++ (segment ++ events)) = seenBy kind (trace ++ segment) := by
          simp [silent]
        rw [quiet, seenBy_append, silent, List.append_nil, same]
        exact ⟨path, ranHere⟩
      · have alike := seen _ _ permitted.2
        have stepB := world_step channelStore_distinct ranHere permittedB taken
        have ranNext := world_step_ran ranHere stepB
        rw [← seenBy_append, List.append_assoc] at ranNext
        refine ⟨?_, ranNext⟩
        rw [seenBy_append]
        rw [seenBy_append] at permittedB alike
        exact .snoc path ⟨permittedB, alike⟩ taken

def SinkEvent.call? : SinkEvent → Option (Call × Outcome)
  | .called call outcome => some (call, outcome)
  | _ => none

def sinkCalls (trace : List SinkEvent) : List (Call × Outcome) := trace.filterMap SinkEvent.call?

def sinkObtained (trace : List SinkEvent) : Nat → Option Origin := originOf (sinkCalls trace)

theorem registryCalls_seenBy (kind : SinkKind) (trace : List SinkEvent) :
    registryCalls (seenBy kind trace) = sinkCalls trace := by
  rw [registryCalls, seenBy, List.filterMap_filterMap, sinkCalls]
  congr 1
  funext event
  cases event with
  | called call outcome | aborted failure => rfl
  | published other token data =>
      by_cases same : other = kind <;> simp [SinkEvent.seenBy, SinkEvent.call?, same]

theorem obtained_seenBy (kind : SinkKind) (trace : List SinkEvent) :
    obtained (seenBy kind trace) = sinkObtained trace := by
  rw [obtained, registryCalls_seenBy, sinkObtained]

theorem countable_seenBy
    (few : capacityFailures (sinkCalls (trace ++ segment)) < 2 ^ 64 - kMaxBindings) :
    Countable (seenBy kind trace ++ seenBy kind segment) := by
  rw [← seenBy_append, Countable, registryCalls_seenBy]
  exact few

theorem seen_live_path (distinct : DistinctSinks store) (real : kind ≠ .socket)
    (ran : RegistryRan (seenBy kind trace) (world.byChannel store kind))
    (path : (sinkMachine store).Path sinksLive trace world segment later) :
    (publisherMachine channelStore).Path publishesLive (seenBy kind trace)
        (world.byChannel store kind) (seenBy kind segment) (later.byChannel store kind) ∧
      RegistryRan (seenBy kind (trace ++ segment)) (later.byChannel store kind) := by
  have both := seen_path distinct real (fun _ _ => True) (fun _ _ => True)
    (fun _ _ _ => trivial) ran (path.mono fun _ _ _ permitted => ⟨permitted, trivial⟩)
  exact ⟨both.1.mono fun _ _ _ permitted => permitted.1, both.2⟩

theorem sink_ran (distinct : DistinctSinks store) (real : kind ≠ .socket)
    (reached : (sinkMachine store).Reaches sinksLive trace world) :
    RegistryRan (seenBy kind trace) (world.byChannel store kind) := by
  have start : RegistryRan (seenBy kind [])
      ((sinkMachine store).start.byChannel store kind) := .nil
  exact (seen_live_path distinct real start reached).2

/-- Publishing does not fail, and writes to the streams of the store only. -/
theorem sink_trace_ok (distinct : DistinctSinks store)
    (reached : (sinkMachine store).Reaches sinksLive trace world) :
    (∀ failure, .aborted failure ∉ trace) ∧
      ∀ stream, (∀ kind channel, channel < kMaxChannels → store.slot channel kind ≠ some stream) →
        world.written stream = [] := by
  have all : (sinkMachine store).Reaches sinksLive trace world ∧
      (∀ failure, .aborted failure ∉ trace) ∧
      ∀ stream, (∀ kind channel, channel < kMaxChannels → store.slot channel kind ≠ some stream) →
        world.written stream = [] := by
    refine reached.invariant (fun trace world => (sinkMachine store).Reaches sinksLive trace world ∧
      (∀ failure, .aborted failure ∉ trace) ∧
      ∀ stream, (∀ kind channel, channel < kMaxChannels → store.slot channel kind ≠ some stream) →
        world.written stream = []) ⟨.nil, by simp, fun _ _ => rfl⟩ ?_
    rintro trace world action next events ⟨here, quiet, outside⟩ permitted stepped
    have ran : RegistryRan (seenBy .terminal trace) (world.byChannel store .terminal) :=
      sink_ran distinct nofun here
    have step := sink_step distinct ran permitted stepped
    refine ⟨.snoc here permitted stepped, ?_, ?_⟩
    · intro failure
      rw [List.mem_append, not_or]
      refine ⟨quiet failure, ?_⟩
      cases step <;> simp
    · intro stream unbound
      cases step with
      | call | sends => exact outside stream unbound
      | @writes kind token target data live bound slot =>
          have different : stream ≠ target := by
            rintro rfl
            exact unbound _ _ bound slot
          simp [different, outside stream unbound]
  exact all.2

def sinksWhileAlive (group : ChannelGroup) (trace : List SinkEvent) (world : PublisherWorld Stream)
    (action : SinkAction) : Prop :=
  sinksLive trace world action ∧
    ∃ token, world.registry.Live token ∧ sinkObtained trace token = some (.group group)

omit [DecidableEq Stream] in
theorem groupAlive_seenBy {group : ChannelGroup} (trace : List SinkEvent)
    (world : PublisherWorld Stream)
    (alive : ∃ token, world.registry.Live token ∧ sinkObtained trace token = some (.group group)) :
    GroupAlive group (seenBy kind trace) (world.byChannel store kind) := by
  obtain ⟨token, live, owned⟩ := alive
  exact ⟨token, live, by rw [obtained_seenBy, owned]⟩

theorem released_seenBy {token : PublishToken} :
    releasedEvent token ∈ seenBy kind segment ↔
      .called (.release token) .released ∈ segment := by
  simp only [seenBy, List.mem_filterMap, releasedEvent]
  constructor
  · rintro ⟨event, inside, same⟩
    cases event with
    | called call outcome =>
        obtain ⟨rfl, rfl⟩ : call = .release token ∧ outcome = .released := by
          simpa [SinkEvent.seenBy] using same
        exact inside
    | published other token data => simp [SinkEvent.seenBy] at same
    | aborted failure => simp [SinkEvent.seenBy] at same
  · intro inside
    exact ⟨_, inside, rfl⟩

/-- The channel of a live token. -/
theorem resolved_channel {trace : List PublisherEvent} {world : PublisherWorld Nat}
    (ran : RegistryRan trace world) (countable : Countable trace) {token : PublishToken}
    {owner : Origin} {channel : Nat} (owned : obtained trace token.value = some owner)
    (resolved : resolve token world.registry = .ok channel world.registry) :
    world.registry.tokenToChannel token.value = channel ∧ channel < kMaxChannels := by
  obtain ⟨_, consistent⟩ := ran.consistent countable
  have live := consistent.live_of_origin owned
  rw [consistent.toSound.resolves live] at resolved
  obtain rfl : world.registry.tokenToChannel token.value = channel := by simpa using resolved
  exact ⟨rfl, consistent.channelBound _ live.2⟩

omit [DecidableEq Stream] in
theorem byChannel_written {channel : Nat} {stream : Stream} (bound : channel < kMaxChannels)
    (slot : store.slot channel kind = some stream) (world : PublisherWorld Stream) :
    (world.byChannel store kind).written channel = world.written stream := by
  simp [PublisherWorld.byChannel, slot, bound]

end Sinks

/-- A program that publishes with live tokens to terminals, files and sockets. From any state
on, each stream of the store gets what the owner of its channel publishes to its kind of sink,
in call order and nothing else, as long as the owner is there and fewer than `2 ^ 64 - 256`
calls have run out of tokens. -/
theorem sink_isolation {store : SinkStore Stream} (distinct : DistinctSinks store)
    {trace : List SinkEvent} {world : PublisherWorld Stream}
    (reached : (sinkMachine store).Reaches sinksLive trace world) :
    (∀ failure, .aborted failure ∉ trace) ∧
    (∀ kind token segment later channel stream,
      sinkObtained trace token.value = some .exclusive →
      resolve token world.registry = .ok channel world.registry →
      store.slot channel kind = some stream →
      (sinkMachine store).Path sinksLive trace world segment later →
      capacityFailures (sinkCalls (trace ++ segment)) < 2 ^ 64 - kMaxBindings →
      .called (.release token) .released ∉ segment →
      later.written stream = world.written stream ++ tokenBytes token (seenBy kind segment)) ∧
    (∀ kind token group segment later channel stream,
      sinkObtained trace token.value = some (.group group) →
      resolve token world.registry = .ok channel world.registry →
      store.slot channel kind = some stream →
      (sinkMachine store).Path (sinksWhileAlive group) trace world segment later →
      capacityFailures (sinkCalls (trace ++ segment)) < 2 ^ 64 - kMaxBindings →
      later.written stream = world.written stream ++
        groupBytes group (sinkObtained trace) (seenBy kind segment)) ∧
    ∀ stream, (∀ kind channel, channel < kMaxChannels → store.slot channel kind ≠ some stream) →
      world.written stream = [] := by
  obtain ⟨quiet, outside⟩ := sink_trace_ok distinct reached
  refine ⟨quiet, ?_, ?_, outside⟩
  · intro kind token segment later channel stream owned resolved slot path few kept
    have real : kind ≠ .socket := by
      rintro rfl
      cases slot
    have ran := sink_ran distinct real reached
    have countable : Countable (seenBy kind trace ++ seenBy kind segment) := countable_seenBy few
    have ownedB : obtained (seenBy kind trace) token.value = some .exclusive := by
      rw [obtained_seenBy, owned]
    obtain ⟨same, bound⟩ := resolved_channel ran countable.before ownedB resolved
    have bytes := exclusive_bytes channelStore_distinct ran
      (seen_live_path distinct real ran path).1 countable ownedB (released_seenBy.not.mpr kept)
      (congrArg some same)
    rwa [byChannel_written bound slot, byChannel_written bound slot] at bytes
  · intro kind token group segment later channel stream owned resolved slot path few
    have real : kind ≠ .socket := by
      rintro rfl
      cases slot
    have ran := sink_ran distinct real reached
    have countable : Countable (seenBy kind trace ++ seenBy kind segment) := countable_seenBy few
    have ownedB : obtained (seenBy kind trace) token.value = some (.group group) := by
      rw [obtained_seenBy, owned]
    obtain ⟨same, bound⟩ := resolved_channel ran countable.before ownedB resolved
    have member : world.registry.groupToChannel group.toIndex = channel := by
      obtain ⟨_, consistent⟩ := ran.consistent countable.before
      exact (consistent.groupMember token.value group ownedB).trans same
    have seen := (seen_path distinct real _ (GroupAlive group) groupAlive_seenBy ran path).1
    have bytes := (group_bytes channelStore_distinct ran seen countable (congrArg some member)).2.2
    rwa [byChannel_written bound slot, byChannel_written bound slot, obtained_seenBy] at bytes

def sinkStore : SinkStore Nat where
  terminals := fun channel => ⟨some channel⟩
  files := fun channel => ⟨some (kMaxChannels + channel)⟩
  sockets := fun _ => ⟨3⟩

theorem sinkStore_distinct : DistinctSinks sinkStore where
  streams := by
    intro kind channel real _
    cases kind with
    | terminal | file => exact ⟨_, rfl⟩
    | socket => exact absurd rfl real
  sockets := fun _ _ => show (0 : Int) ≤ 3 by decide
  apart := by
    intro kind other left right stream leftBound rightBound leftSlot rightSlot
    cases kind <;> cases other <;> simp only [SinkStore.slot, sinkStore, Option.some.injEq,
      reduceCtorEq] at leftSlot rightSlot <;> constructor <;> first | rfl | omega

def sinkWorld : PublisherWorld Nat :=
  { registry := (TokenRegistry.initial.call .acquire).2, written := fun _ => [] }

/-- An exclusive publisher and a member of a group write to files; the first one writes to its
terminal and its socket too. -/
theorem sink_isolation_sample :
    ∃ later : PublisherWorld Nat,
      later.written 7 = [] ++ tokenBytes ⟨0⟩ [.called (.acquireGroup .Group1) (.returned ⟨1⟩),
        .published ⟨0⟩ [65], .published ⟨1⟩ [66], .published ⟨0⟩ [69]] := by
  have reached : (sinkMachine sinkStore).Reaches sinksLive [.called .acquire (.returned ⟨0⟩)]
      sinkWorld := EventMachine.reaches_of_exec [.call .acquire] rfl
  exact ⟨_, (sink_isolation sinkStore_distinct reached).2.1 .file ⟨0⟩ _ _ 3 7 rfl rfl rfl
    (EventMachine.path_of_exec [.call (.acquireGroup .Group1), .publish .file ⟨0⟩ [65],
      .publish .file ⟨1⟩ [66], .publish .terminal ⟨0⟩ [67], .publish .socket ⟨0⟩ [68],
      .publish .file ⟨0⟩ [69]] rfl) (by decide) (by decide)⟩

end MyServer
