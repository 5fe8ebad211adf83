import MyServer.PublisherRuntimeCore
import MyServer.TokenRegistryPool

/-!
Isolation of publishers. Every live token has an owner: itself when it is exclusive, its
group otherwise. Two live tokens share a channel exactly when they share their owner, so
the bytes on a channel come from one owner as long as the owner is there.
-/

namespace MyServer

open TokenRegistry

section Owners

variable {origin : Nat → Option Origin} {leaked : Nat → Nat} {s : TokenRegistry}

inductive Owner
  | token (token : Nat)
  | group (group : ChannelGroup)
  deriving DecidableEq

def tokenOwner (origin : Nat → Option Origin) (token : Nat) : Option Owner :=
  (origin token).map fun
    | .exclusive => .token token
    | .group group => .group group

theorem tokenOwner_token {token other : Nat} :
    tokenOwner origin token = some (.token other) ↔
      token = other ∧ origin token = some .exclusive := by
  unfold tokenOwner
  cases origin token with
  | none => simp
  | some owner => cases owner <;> simp

theorem tokenOwner_group {token : Nat} {group : ChannelGroup} :
    tokenOwner origin token = some (.group group) ↔ origin token = some (.group group) := by
  unfold tokenOwner
  cases origin token with
  | none => simp
  | some owner => cases owner <;> simp

theorem TokenRegistry.Consistent.exclusive_unique (ok : Consistent origin leaked s)
    {left right : Nat}
    (owned : origin left = some .exclusive) (liveLeft : s.Live left) (liveRight : s.Live right)
    (same : s.tokenToChannel left = s.tokenToChannel right) : left = right := by
  have counted := (ok.ref_one_iff (ok.channelBound left liveLeft.2)).mp
    (ok.exclusiveAlone left owned).1
  have single : (s.boundTokens (s.tokenToChannel left)).card ≤ 1 := by omega
  exact Finset.card_le_one.mp single left (by simp [liveLeft]) right (by simp [liveRight, same])

/-- Live tokens resolve to one channel exactly when they have one owner. -/
theorem TokenRegistry.Consistent.same_channel_iff (ok : Consistent origin leaked s)
    {left right : Nat}
    (liveLeft : s.Live left) (liveRight : s.Live right) :
    s.tokenToChannel left = s.tokenToChannel right ↔
      tokenOwner origin left = tokenOwner origin right := by
  obtain ⟨leftOrigin, ownedLeft⟩ := Option.isSome_iff_exists.mp (ok.live_iff_origin.mp liveLeft)
  obtain ⟨rightOrigin, ownedRight⟩ := Option.isSome_iff_exists.mp (ok.live_iff_origin.mp liveRight)
  simp only [tokenOwner, ownedLeft, ownedRight, Option.map_some, Option.some.injEq]
  cases leftOrigin with
  | exclusive =>
      cases rightOrigin with
      | exclusive =>
          simp only [Owner.token.injEq]
          constructor
          · exact ok.exclusive_unique ownedLeft liveLeft liveRight
          · rintro rfl
            rfl
      | group group =>
          simp only [reduceCtorEq, iff_false]
          rw [← ok.groupMember right group ownedRight]
          exact ((ok.exclusiveAlone left ownedLeft).2 group).symm
  | group group =>
      have leftEntry := ok.groupMember left group ownedLeft
      cases rightOrigin with
      | exclusive =>
          simp only [reduceCtorEq, iff_false]
          rw [← leftEntry]
          exact (ok.exclusiveAlone right ownedRight).2 group
      | group other =>
          have rightEntry := ok.groupMember right other ownedRight
          simp only [Owner.group.injEq]
          constructor
          · intro same
            apply ok.groupInjective group other
            · rw [leftEntry, rightEntry, same]
            · rw [leftEntry]
              exact ne_kNoChannel (ok.channelBound left liveLeft.2)
          · rintro rfl
            rw [← leftEntry, ← rightEntry]

/-- A call other than the token's release leaves the token and its channel alone. -/
theorem TokenRegistry.Sound.call_keeps (ok : Sound s) (origin : Nat → Option Origin) (call : Call)
    {token : Nat} (live : s.Live token)
    (kept : ¬(call = .release ⟨token⟩ ∧ (s.call call).1 = .released)) :
    (s.call call).2.Live token ∧ (s.call call).2.tokenToChannel token = s.tokenToChannel token ∧
      recordOrigin origin (call, (s.call call).1) token = origin token := by
  have okNext := ok.call call
  rw [okNext.live_iff]
  have result := ok.call_result call
  generalize s.call call = ended at result kept
  cases result with
  | refused | uncounted => exact ⟨live.2, rfl, by rw [recordOrigin_failed]⟩
  | leaks step =>
      obtain ⟨_, _, _, used, bindings⟩ := step.pool
      exact ⟨by rw [used]; exact live.2, by rw [bindings], by rw [recordOrigin_failed]⟩
  | @grants _ channel next granted rest step _ taken =>
      obtain ⟨_, _, _, usedNext, bindingsNext⟩ := step.pool
      have fresh := (ok.attach step).2.taken_fresh taken
      have different : token ≠ granted.value := by
        rintro rfl
        rw [usedNext, live.2] at fresh
        simp at fresh
      obtain ⟨_, _, _, used, bindings⟩ := bindToken_frame channel taken
      obtain ⟨owner, acquiring⟩ := step.owner
      refine ⟨?_, ?_, ?_⟩
      · rw [used, Function.update_of_ne different, usedNext]
        exact live.2
      · rw [bindings, Function.update_of_ne different, bindingsNext]
      · rw [recordOrigin_returned acquiring, Function.update_of_ne different]
  | @takesBack returned _ _ =>
      have different : token ≠ returned.value := by
        rintro rfl
        exact kept ⟨rfl, rfl⟩
      have frame : ((s.unbound returned).dropped (s.tokenToChannel returned.value)).tokenUsed =
            Function.update s.tokenUsed returned.value false ∧
          ((s.unbound returned).dropped (s.tokenToChannel returned.value)).tokenToChannel =
            s.tokenToChannel := by
        unfold dropped
        split <;> exact ⟨rfl, rfl⟩
      refine ⟨?_, by rw [frame.2], by simp [recordOrigin, different]⟩
      rw [frame.1, Function.update_of_ne different]
      exact live.2

end Owners

section Worlds

variable {Stream : Type} [DecidableEq Stream] {store : OutputResourceStore Stream}
variable {trace segment : List PublisherEvent} {world later : PublisherWorld Stream}

structure DistinctStreams (store : OutputResourceStore Stream) : Prop where
  nonNull : ∀ channel, channel < kMaxChannels → ∃ stream, (store.terminals channel).out = some stream
  distinct : ∀ left right, left < kMaxChannels → right < kMaxChannels →
    (store.terminals left).out = (store.terminals right).out → left = right

def RegistryRan (trace : List PublisherEvent) (world : PublisherWorld Stream) : Prop :=
  RegistryReaches (registryCalls trace) world.registry

def Countable (trace : List PublisherEvent) : Prop :=
  capacityFailures (registryCalls trace) < 2 ^ 64 - kMaxBindings

omit [DecidableEq Stream] in
theorem RegistryRan.consistent (ran : RegistryRan trace world) (countable : Countable trace) :
    ∃ leaked, Consistent (obtained trace) leaked world.registry := by
  obtain ⟨leaked, ok, _⟩ := reachable_consistent ran countable
  exact ⟨leaked, ok⟩

theorem Countable.before {events : List PublisherEvent} (countable : Countable (trace ++ events)) :
    Countable trace := by
  unfold Countable registryCalls at countable ⊢
  rw [List.filterMap_append, capacityFailures_append] at countable
  omega

theorem obtained_called (trace : List PublisherEvent) (call : Call) (outcome : Outcome) :
    obtained (trace ++ [.called call outcome]) = recordOrigin (obtained trace) (call, outcome) := by
  simp [obtained, registryCalls, originOf_append]

theorem obtained_published (trace : List PublisherEvent) (token : PublishToken) (data : List UInt8) :
    obtained (trace ++ [.published token data]) = obtained trace := by
  simp [obtained, registryCalls]

theorem publishView_live (distinct : DistinctStreams store) (ran : RegistryRan trace world)
    {token : PublishToken} (live : world.registry.Live token.value) (data : List UInt8) :
    ∃ stream, (store.terminals (world.registry.tokenToChannel token.value)).out = some stream ∧
      publishView store world token data = .ok { world with
        written := Function.update world.written stream (world.written stream ++ data) } := by
  have ok := reachable_sound ran
  have bound : world.registry.tokenToChannel token.value < kChannelCount :=
    ok.channelBound token.value live.2
  obtain ⟨stream, handle⟩ := distinct.nonNull _ bound
  refine ⟨stream, handle, ?_⟩
  simp [publishView, ok.resolves live, bound, sinkWrite, handle, bind, Except.bind, pure,
    Except.pure]

inductive WorldStep (store : OutputResourceStore Stream) (world : PublisherWorld Stream) :
    PublisherAction → PublisherWorld Stream → List PublisherEvent → Prop
  | call (call : Call) : WorldStep store world (.call call)
      { world with registry := (world.registry.call call).2 }
      [.called call (world.registry.call call).1]
  | publish {token stream} (data) : world.registry.Live token.value →
      (store.terminals (world.registry.tokenToChannel token.value)).out = some stream →
      WorldStep store world (.publish token data)
        { world with
          written := Function.update world.written stream (world.written stream ++ data) }
        [.published token data]

theorem world_step (distinct : DistinctStreams store) (ran : RegistryRan trace world)
    {action : PublisherAction} {events : List PublisherEvent}
    (permitted : publishesLive trace world action)
    (stepped : (publisherMachine store).step world action = some (later, events)) :
    WorldStep store world action later events := by
  cases action with
  | call call =>
      simp only [publisherMachine, Option.some.injEq, Prod.mk.injEq] at stepped
      obtain ⟨rfl, rfl⟩ := stepped
      exact .call call
  | publish token data =>
      obtain ⟨stream, handle, wrote⟩ := publishView_live distinct ran permitted data
      simp only [publisherMachine, wrote, Option.some.injEq, Prod.mk.injEq] at stepped
      obtain ⟨rfl, rfl⟩ := stepped
      exact .publish data permitted handle

theorem world_step_ran (ran : RegistryRan trace world) {action : PublisherAction}
    {events : List PublisherEvent} (stepped : WorldStep store world action later events) :
    RegistryRan (trace ++ events) later := by
  unfold RegistryRan registryCalls at ran ⊢
  rw [List.filterMap_append]
  cases stepped with
  | call call => exact .snoc ran trivial rfl
  | publish data _ _ => simpa using ran

theorem world_ran (distinct : DistinctStreams store)
    (reached : (publisherMachine store).Reaches publishesLive trace world) :
    RegistryRan trace world := by
  refine reached.invariant RegistryRan .nil ?_
  intro trace world action next events ran permitted stepped
  exact world_step_ran ran (world_step distinct ran permitted stepped)

/-! Runs during the life of a token, and while a group has a member. -/

def releasedEvent (token : PublishToken) : PublisherEvent := .called (.release token) .released

theorem world_step_keeps (ran : RegistryRan trace world) {action : PublisherAction}
    {events : List PublisherEvent} (stepped : WorldStep store world action later events)
    (token : PublishToken) (live : world.registry.Live token.value)
    (kept : releasedEvent token ∉ events) :
    later.registry.Live token.value ∧
      later.registry.tokenToChannel token.value = world.registry.tokenToChannel token.value ∧
      obtained (trace ++ events) token.value = obtained trace token.value := by
  cases stepped with
  | call call =>
      rw [obtained_called]
      apply (reachable_sound ran).call_keeps _ _ live
      rintro ⟨rfl, outcome⟩
      exact kept (by simp [releasedEvent, outcome])
  | publish => exact ⟨live, rfl, by rw [obtained_published]⟩

theorem token_lifetime (distinct : DistinctStreams store) (ran : RegistryRan trace world)
    (path : (publisherMachine store).Path publishesLive trace world segment later)
    {token : PublishToken} (live : world.registry.Live token.value)
    (kept : releasedEvent token ∉ segment) :
    RegistryRan (trace ++ segment) later ∧ later.registry.Live token.value ∧
      later.registry.tokenToChannel token.value = world.registry.tokenToChannel token.value ∧
      obtained (trace ++ segment) token.value = obtained trace token.value := by
  induction path with
  | nil => exact ⟨by simpa using ran, live, rfl, by simp⟩
  | @snoc segment _ _ _ events _ permitted stepped ih =>
      simp only [List.mem_append, not_or] at kept
      obtain ⟨ranHere, liveHere, sameChannel, sameOrigin⟩ := ih kept.1
      have step := world_step distinct ranHere permitted stepped
      obtain ⟨liveNext, channelNext, originNext⟩ :=
        world_step_keeps ranHere step token liveHere kept.2
      have ranNext := world_step_ran ranHere step
      rw [List.append_assoc] at ranNext originNext
      exact ⟨ranNext, liveNext, channelNext.trans sameChannel, originNext.trans sameOrigin⟩

def stepBytes (owner : Owner) (origin : Nat → Option Origin) (events : List PublisherEvent) :
    List UInt8 :=
  events.flatMap fun
    | .published token data => if tokenOwner origin token.value = some owner then data else []
    | _ => []

/-- One step appends to an owner's channel exactly what the owner's tokens publish in it. -/
theorem world_step_bytes (distinct : DistinctStreams store) (ran : RegistryRan trace world)
    (countable : Countable trace)
    {action : PublisherAction} {events : List PublisherEvent}
    (stepped : WorldStep store world action later events) {token : Nat} {owner : Owner}
    (live : world.registry.Live token) (owned : tokenOwner (obtained trace) token = some owner)
    {stream : Stream}
    (handle : (store.terminals (world.registry.tokenToChannel token)).out = some stream) :
    later.written stream = world.written stream ++ stepBytes owner (obtained trace) events := by
  obtain ⟨leaked, ok⟩ := ran.consistent countable
  cases stepped with
  | call call => simp [stepBytes]
  | @publish publisher target data livePublisher targetHandle =>
      have sameOwner := ok.same_channel_iff livePublisher live
      rw [owned] at sameOwner
      simp only [stepBytes, List.flatMap_cons, List.flatMap_nil, List.append_nil]
      by_cases same : world.registry.tokenToChannel publisher.value =
          world.registry.tokenToChannel token
      · have sameStream : target = stream := by
          rw [same, handle] at targetHandle
          exact (Option.some.inj targetHandle).symm
        rw [if_pos (sameOwner.mp same), sameStream, Function.update_self]
      · have otherStream : stream ≠ target := by
          rintro rfl
          exact same (distinct.distinct _ _ (ok.channelBound _ livePublisher.2)
            (ok.channelBound _ live.2) (targetHandle.trans handle.symm))
        rw [if_neg (fun owns => same (sameOwner.mpr owns)), Function.update_of_ne otherStream,
          List.append_nil]

theorem stepBytes_token {origin : Nat → Option Origin} {token : PublishToken}
    (owned : origin token.value = some .exclusive) (events : List PublisherEvent) :
    stepBytes (.token token.value) origin events = tokenBytes token events := by
  unfold stepBytes tokenBytes
  congr 1
  funext event
  cases event with
  | published other data =>
      have iff : tokenOwner origin other.value = some (.token token.value) ↔ other = token := by
        rw [tokenOwner_token]
        constructor
        · rintro ⟨same, _⟩
          cases other
          cases token
          simpa using same
        · rintro rfl
          exact ⟨rfl, owned⟩
      simp only [iff]
  | called => rfl
  | aborted => rfl

theorem exclusive_bytes (distinct : DistinctStreams store) (ran : RegistryRan trace world)
    (path : (publisherMachine store).Path publishesLive trace world segment later)
    (countable : Countable (trace ++ segment))
    {token : PublishToken} (owned : obtained trace token.value = some .exclusive)
    (kept : releasedEvent token ∉ segment) {stream : Stream}
    (handle : (store.terminals (world.registry.tokenToChannel token.value)).out = some stream) :
    later.written stream = world.written stream ++ tokenBytes token segment := by
  have live : world.registry.Live token.value := by
    obtain ⟨_, ok⟩ := ran.consistent countable.before
    exact ok.live_of_origin owned
  induction path with
  | nil => simp [tokenBytes]
  | @snoc segment _ _ _ events before permitted stepped ih =>
      simp only [List.mem_append, not_or] at kept
      rw [← List.append_assoc] at countable
      obtain ⟨ranHere, liveHere, sameChannel, sameOrigin⟩ :=
        token_lifetime distinct ran before live kept.1
      have ownedHere := sameOrigin.trans owned
      have step := world_step distinct ranHere permitted stepped
      have appended := world_step_bytes distinct ranHere countable.before step liveHere
        (tokenOwner_token.mpr ⟨rfl, ownedHere⟩) (by rw [sameChannel]; exact handle)
      rw [appended, ih countable.before kept.1, stepBytes_token ownedHere, List.append_assoc]
      simp [tokenBytes]

theorem groupBytes_append (group : ChannelGroup) (trace segment later : List PublisherEvent) :
    groupBytes group (obtained trace) (segment ++ later) =
      groupBytes group (obtained trace) segment ++
        groupBytes group (obtained (trace ++ segment)) later := by
  induction segment generalizing trace with
  | nil => simp [groupBytes]
  | cons event rest ih =>
      cases event with
      | called call outcome =>
          have tail := ih (trace ++ [.called call outcome])
          rw [obtained_called, List.append_assoc] at tail
          simpa [groupBytes] using tail
      | published token data =>
          have tail := ih (trace ++ [.published token data])
          rw [obtained_published, List.append_assoc] at tail
          simpa [groupBytes] using tail
      | aborted failure =>
          have tail := ih (trace ++ [.aborted failure])
          have same : obtained (trace ++ [.aborted failure]) = obtained trace := by
            simp [obtained, registryCalls]
          rw [same, List.append_assoc] at tail
          simpa [groupBytes] using tail

def GroupAlive (group : ChannelGroup) (trace : List PublisherEvent)
    (world : PublisherWorld Stream) : Prop :=
  ∃ token, world.registry.Live token ∧ obtained trace token = some (.group group)

/-- The group's channel stays the same as long as a member is left. -/
theorem group_channel_kept (ran : RegistryRan trace world) {action : PublisherAction}
    {events : List PublisherEvent} (stepped : WorldStep store world action later events)
    (countable : Countable (trace ++ events))
    {group : ChannelGroup} (alive : GroupAlive group trace world)
    (aliveNext : GroupAlive group (trace ++ events) later) :
    later.registry.groupToChannel group.toIndex =
      world.registry.groupToChannel group.toIndex := by
  obtain ⟨member, live, owned⟩ := alive
  obtain ⟨nextMember, nextLive, nextOwned⟩ := aliveNext
  obtain ⟨_, okNext⟩ := (world_step_ran ran stepped).consistent countable
  obtain ⟨_, ok⟩ := ran.consistent countable.before
  by_cases kept : releasedEvent ⟨member⟩ ∈ events
  · cases stepped with
    | publish => simp [releasedEvent] at kept
    | call call =>
        simp only [List.mem_singleton, releasedEvent, PublisherEvent.called.injEq] at kept
        obtain ⟨rfl, outcome⟩ := kept
        have afterRelease := nextOwned
        rw [obtained_called, ← outcome] at afterRelease
        have different : nextMember ≠ member := by
          rintro rfl
          simp [recordOrigin] at afterRelease
        have ownedBefore : obtained trace nextMember = some (.group group) := by
          simpa [recordOrigin, different] using afterRelease
        have liveBefore := ok.live_of_origin ownedBefore
        have keptNext := ok.toSound.call_keeps (obtained trace) (.release ⟨member⟩) liveBefore (by
          rintro ⟨releasing, _⟩
          simp only [Call.release.injEq, PublishToken.mk.injEq] at releasing
          exact different releasing.symm)
        rw [okNext.groupMember nextMember group nextOwned, keptNext.2.1,
          ok.groupMember nextMember group ownedBefore]
  · obtain ⟨_, sameChannel, sameOrigin⟩ :=
      world_step_keeps ran stepped ⟨member⟩ live kept
    have entry := okNext.groupMember member group (sameOrigin.trans owned)
    rw [entry, ok.groupMember member group owned]
    exact sameChannel

def whileAlive (group : ChannelGroup) (trace : List PublisherEvent) (world : PublisherWorld Stream)
    (action : PublisherAction) : Prop :=
  publishesLive trace world action ∧ GroupAlive group trace world

theorem group_bytes (distinct : DistinctStreams store) (ran : RegistryRan trace world)
    {group : ChannelGroup}
    (path : (publisherMachine store).Path (whileAlive group) trace world segment later)
    (countable : Countable (trace ++ segment)) {stream : Stream}
    (handle : (store.terminals (world.registry.groupToChannel group.toIndex)).out = some stream) :
    RegistryRan (trace ++ segment) later ∧
      (GroupAlive group (trace ++ segment) later →
        later.registry.groupToChannel group.toIndex =
          world.registry.groupToChannel group.toIndex) ∧
      later.written stream =
        world.written stream ++ groupBytes group (obtained trace) segment := by
  induction path with
  | nil => exact ⟨by simpa using ran, fun _ => rfl, by simp [groupBytes]⟩
  | @snoc segment state _ next events _ permitted stepped ih =>
      rw [← List.append_assoc] at countable
      obtain ⟨ranHere, sameChannel, bytes⟩ := ih countable.before
      have step := world_step distinct ranHere permitted.1 stepped
      have ranNext := world_step_ran ranHere step
      have here := sameChannel permitted.2
      obtain ⟨member, live, owned⟩ := permitted.2
      have memberHandle :
          (store.terminals (state.registry.tokenToChannel member)).out = some stream := by
        obtain ⟨_, okState⟩ := ranHere.consistent countable.before
        rw [← okState.groupMember member group owned, here]
        exact handle
      have appended := world_step_bytes distinct ranHere countable.before step live
        (tokenOwner_group.mpr owned) memberHandle
      refine ⟨by simpa using ranNext, fun aliveNext => ?_, ?_⟩
      · rw [← here]
        exact group_channel_kept ranHere step countable permitted.2 (by simpa using aliveNext)
      · rw [appended, bytes, groupBytes_append, List.append_assoc]
        congr 2
        cases step with
        | call => simp [stepBytes, groupBytes]
        | publish => simp [stepBytes, groupBytes, tokenOwner_group]

end Worlds

section Isolation

variable {Stream : Type} [DecidableEq Stream] {store : OutputResourceStore Stream}

/-- From any state of a run on, a live token keeps its channel until it is released. As long as
fewer than `2 ^ 64 - 256` calls have run out of tokens, two live tokens share a channel only as
members of one group, and what reaches the channel of an exclusive token or of a group is what
its owner publishes, in call order. -/
theorem publisher_isolation (distinct : DistinctStreams store) {trace : List PublisherEvent}
    {world : PublisherWorld Stream}
    (reached : (publisherMachine store).Reaches publishesLive trace world) :
    (∀ token segment later, world.registry.Live token.value →
      (publisherMachine store).Path publishesLive trace world segment later →
      releasedEvent token ∉ segment →
      ∃ channel, channel < kMaxChannels ∧
        resolve token world.registry = .ok channel world.registry ∧
        resolve token later.registry = .ok channel later.registry) ∧
    (∀ left right : PublishToken, capacityFailures (registryCalls trace) < 2 ^ 64 - kMaxBindings →
      left ≠ right → world.registry.Live left.value → world.registry.Live right.value →
      (resolve left world.registry = resolve right world.registry ↔
        ∃ group, obtained trace left.value = some (.group group) ∧
          obtained trace right.value = some (.group group))) ∧
    (∀ token segment later channel stream, obtained trace token.value = some .exclusive →
      resolve token world.registry = .ok channel world.registry →
      (store.terminals channel).out = some stream →
      (publisherMachine store).Path publishesLive trace world segment later →
      capacityFailures (registryCalls (trace ++ segment)) < 2 ^ 64 - kMaxBindings →
      releasedEvent token ∉ segment →
      later.written stream = world.written stream ++ tokenBytes token segment) ∧
    (∀ token group segment later channel stream,
      obtained trace token.value = some (.group group) →
      resolve token world.registry = .ok channel world.registry →
      (store.terminals channel).out = some stream →
      (publisherMachine store).Path (whileAlive group) trace world segment later →
      capacityFailures (registryCalls (trace ++ segment)) < 2 ^ 64 - kMaxBindings →
      later.written stream =
        world.written stream ++ groupBytes group (obtained trace) segment) := by
  have ran := world_ran distinct reached
  have sound := reachable_sound ran
  have liveOf : ∀ (token : PublishToken) owner, Countable trace →
      obtained trace token.value = some owner → world.registry.Live token.value := by
    intro token owner countable owned
    obtain ⟨_, ok⟩ := ran.consistent countable
    exact ok.live_of_origin owned
  have channelOf : ∀ (token : PublishToken) channel, world.registry.Live token.value →
      resolve token world.registry = .ok channel world.registry →
      world.registry.tokenToChannel token.value = channel := by
    intro token channel live resolved
    rw [sound.resolves live] at resolved
    simpa using resolved
  refine ⟨?_, ?_, ?_, ?_⟩
  · intro token segment later live path kept
    obtain ⟨ranLater, liveLater, same, _⟩ := token_lifetime distinct ran path live kept
    refine ⟨_, sound.channelBound _ live.2, sound.resolves live, ?_⟩
    rw [(reachable_sound ranLater).resolves liveLater, same]
  · intro left right countable different liveLeft liveRight
    obtain ⟨_, ok⟩ := ran.consistent countable
    rw [sound.resolves liveLeft, sound.resolves liveRight]
    simp only [EStateM.Result.ok.injEq, and_true]
    rw [ok.same_channel_iff liveLeft liveRight]
    constructor
    · intro sameOwner
      obtain ⟨owner, owned⟩ := Option.isSome_iff_exists.mp (ok.live_iff_origin.mp liveLeft)
      cases owner with
      | exclusive =>
          rw [tokenOwner_token.mpr ⟨rfl, owned⟩, eq_comm, tokenOwner_token] at sameOwner
          cases left
          cases right
          exact absurd (by simpa using sameOwner.1.symm) different
      | group group =>
          refine ⟨group, owned, ?_⟩
          rw [tokenOwner_group.mpr owned, eq_comm, tokenOwner_group] at sameOwner
          exact sameOwner
    · rintro ⟨group, ownedLeft, ownedRight⟩
      rw [tokenOwner_group.mpr ownedLeft, tokenOwner_group.mpr ownedRight]
  · intro token segment later channel stream owned resolved handle path countable kept
    have live := liveOf token _ (Countable.before countable) owned
    have same := channelOf token channel live resolved
    exact exclusive_bytes distinct ran path countable owned kept (by rw [same]; exact handle)
  · intro token group segment later channel stream owned resolved handle path countable
    have live := liveOf token _ (Countable.before countable) owned
    have same := channelOf token channel live resolved
    obtain ⟨_, ok⟩ := ran.consistent (Countable.before countable)
    refine (group_bytes distinct ran path countable ?_).2.2
    rw [ok.groupMember token.value group owned, same]
    exact handle

def sampleStore : OutputResourceStore Nat := { terminals := fun channel => ⟨some channel⟩ }

theorem sampleStore_distinct : DistinctStreams sampleStore where
  nonNull := fun channel _ => ⟨channel, rfl⟩
  distinct := fun left right _ _ same => by simpa [sampleStore] using same

def sampleWorld : PublisherWorld Nat :=
  { registry := (TokenRegistry.initial.call .acquire).2, written := fun _ => [] }

/-- An exclusive publisher and a group member write in turn; the first one's channel holds
the first one's data. -/
theorem publisher_isolation_sample :
    ∃ later : PublisherWorld Nat, later.written 3 = [] ++ tokenBytes ⟨0⟩
      [.called (.acquireGroup .Group1) (.returned ⟨1⟩), .published ⟨0⟩ [65],
        .published ⟨1⟩ [66], .published ⟨0⟩ [67]] := by
  have reached : (publisherMachine sampleStore).Reaches publishesLive
      [.called .acquire (.returned ⟨0⟩)] sampleWorld :=
    EventMachine.reaches_of_exec [.call .acquire] rfl
  exact ⟨_, (publisher_isolation sampleStore_distinct reached).2.2.1 ⟨0⟩ _ _ 3 3 rfl rfl rfl
    (EventMachine.path_of_exec [.call (.acquireGroup .Group1), .publish ⟨0⟩ [65],
      .publish ⟨1⟩ [66], .publish ⟨0⟩ [67]] rfl) (by decide) (by decide)⟩

/-- A run of the registry alone is a run of the publisher in which nothing is published. -/
theorem publisher_calls {trace : List (Call × Outcome)} {s : TokenRegistry}
    (reached : RegistryReaches trace s) :
    (publisherMachine store).Reaches publishesLive
      (trace.map fun event => .called event.1 event.2) { registry := s, written := fun _ => [] } := by
  refine EventMachine.Reaches.invariant reached (fun trace s =>
    (publisherMachine store).Reaches publishesLive
      (trace.map fun event => .called event.1 event.2) { registry := s, written := fun _ => [] })
    .nil ?_
  intro trace s call next events before _ stepped
  obtain ⟨rfl, rfl⟩ := Prod.mk.inj (Option.some.inj stepped)
  rw [List.map_append]
  have stepped : (publisherMachine store).step { registry := s, written := fun _ => [] }
      (.call call) = some ({ registry := (s.call call).2, written := fun _ => [] },
        [.called call (s.call call).1]) := rfl
  refine .snoc before ?_ stepped
  trivial

theorem registryCalls_called (trace : List (Call × Outcome)) :
    registryCalls (trace.map fun event => .called event.1 event.2) = trace := by
  induction trace with
  | nil => rfl
  | cons event rest ih => simp [registryCalls]

def splitCalls : List Call := [.release ⟨255⟩, .acquireGroup .Group0]

theorem splitCalls_facts :
    let s := (wrappedRegistry.callAll splitCalls).2
    s.Live 0 ∧ s.Live 255 ∧ s.tokenToChannel 0 = 3 ∧ s.tokenToChannel 255 = 2 ∧
      originOf (wrappingTrace ++ (wrappedRegistry.callAll splitCalls).1) 0 =
        some (.group .Group0) ∧
      originOf (wrappingTrace ++ (wrappedRegistry.callAll splitCalls).1) 255 =
        some (.group .Group0) := by
  rw [originOf_append, wrappingTrace_origin]
  decide +kernel

/-- Two live members of one group on two channels. -/
theorem publisher_not_isolated : ∃ (trace : List PublisherEvent) (world : PublisherWorld Nat),
    (publisherMachine sampleStore).Reaches publishesLive trace world ∧
      world.registry.Live 0 ∧ world.registry.Live 255 ∧
      obtained trace 0 = some (.group .Group0) ∧ obtained trace 255 = some (.group .Group0) ∧
      resolve ⟨0⟩ world.registry ≠ resolve ⟨255⟩ world.registry := by
  have reached := callAll_reaches wrappedRegistry_reaches splitCalls
  have facts := splitCalls_facts
  generalize wrappedRegistry.callAll splitCalls = ended at reached facts
  obtain ⟨first, second, firstChannel, secondChannel, firstOrigin, secondOrigin⟩ := facts
  refine ⟨_, _, publisher_calls reached, first, second, ?_, ?_, ?_⟩
  · rw [obtained, registryCalls_called]
    exact firstOrigin
  · rw [obtained, registryCalls_called]
    exact secondOrigin
  · have sound := reachable_sound reached
    have left := @Sound.resolves _ sound ⟨0⟩ first
    have right := @Sound.resolves _ sound ⟨255⟩ second
    rw [left, right, firstChannel, secondChannel]
    simp

end Isolation

end MyServer
