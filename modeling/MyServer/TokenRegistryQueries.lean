import MyServer.TokenRegistryUndo

/-!
The whole interface of `TokenRegistry` as a caller sees it: acquiring, releasing and the
observers. An acquire undone by its release is not visible to any later sequence of calls.
-/

namespace MyServer

open TokenRegistry

namespace TokenRegistry

def channelRefCountOf (channelIdx : Nat) : RegistryM UInt64 := do
  require (channelIdx < kMaxChannels) "channelIdx < kMaxChannels"
  checkIndex channelIdx kMaxChannels
  return (← get).channelRefCount channelIdx

def channelModeOf (channelIdx : Nat) : RegistryM ChannelMode := do
  require (channelIdx < kMaxChannels) "channelIdx < kMaxChannels"
  checkIndex channelIdx kMaxChannels
  return (← get).channelMode channelIdx

def groupChannel (group : ChannelGroup) : RegistryM Nat := do
  checkIndex group.toIndex kMaxGroups
  return (← get).groupToChannel group.toIndex

section Reading

attribute [local simp] EStateM.bind EStateM.pure EStateM.get EStateM.throw bind pure get getThe
  MonadStateOf.get throw throwThe MonadExceptOf.throw checkIndex require

theorem channelRefCountOf_eq (s : TokenRegistry) (channelIdx : Nat) :
    channelRefCountOf channelIdx s = if channelIdx < kMaxChannels then
      .ok (s.channelRefCount channelIdx) s else .error (.aborts "channelIdx < kMaxChannels") s := by
  by_cases bound : channelIdx < kMaxChannels <;> simp [channelRefCountOf, bound]

theorem channelModeOf_eq (s : TokenRegistry) {channelIdx : Nat}
    (bound : channelIdx < kMaxChannels) :
    channelModeOf channelIdx s = .ok (s.channelMode channelIdx) s := by
  simp [channelModeOf, bound]

theorem groupChannel_eq (s : TokenRegistry) (group : ChannelGroup) :
    groupChannel group s = .ok (s.groupToChannel group.toIndex) s := by
  simp [groupChannel, toIndex_lt]

end Reading

end TokenRegistry

inductive Query
  | call (call : Call)
  | resolve (token : PublishToken)
  | freeChannelCount
  | channelRefCount (channelIdx : Nat)
  | groupChannel (group : ChannelGroup)
  | channelMode (channelIdx : Nat)

inductive Answer
  | ended (outcome : Outcome)
  | number (value : Nat)
  | mode (value : ChannelMode)
  | failed (failure : Failure)
  deriving DecidableEq

def Answer.ofResult {α : Type} (answer : α → Answer) :
    EStateM.Result Failure TokenRegistry α → Answer
  | .ok value _ => answer value
  | .error failure _ => .failed failure.untexted

def TokenRegistry.ask (s : TokenRegistry) : Query → Answer × TokenRegistry
  | .call call => (.ended (s.call call).1.untexted, (s.call call).2)
  | .resolve token => (.ofResult .number (resolve token s), s)
  | .freeChannelCount => (.number s.freeChannelCount, s)
  | .channelRefCount channelIdx => (.ofResult (fun count => .number count.toNat) (channelRefCountOf channelIdx s), s)
  | .groupChannel group => (.ofResult .number (groupChannel group s), s)
  | .channelMode channelIdx => (.ofResult .mode (channelModeOf channelIdx s), s)

def TokenRegistry.answers (s : TokenRegistry) : List Query → List Answer
  | [] => []
  | query :: rest => (s.ask query).1 :: (s.ask query).2.answers rest

def TokenRegistry.Admits (s : TokenRegistry) : Query → Prop
  | .resolve token => s.Live token.value
  | .channelMode channelIdx => channelIdx < kMaxChannels ∧ 0 < s.channelRefCount channelIdx
  | _ => True

instance (s : TokenRegistry) : (query : Query) → Decidable (s.Admits query)
  | .resolve token => inferInstanceAs (Decidable (s.Live token.value))
  | .channelMode channelIdx =>
      inferInstanceAs (Decidable (channelIdx < kMaxChannels ∧ 0 < s.channelRefCount channelIdx))
  | .call _ | .freeChannelCount | .channelRefCount _ | .groupChannel _ => .isTrue trivial

def TokenRegistry.AdmitsAll (s : TokenRegistry) : List Query → Prop
  | [] => True
  | query :: rest => s.Admits query ∧ (s.ask query).2.AdmitsAll rest

def TokenRegistry.decidableAdmitsAll (s : TokenRegistry) :
    (queries : List Query) → Decidable (s.AdmitsAll queries)
  | [] => .isTrue trivial
  | query :: rest =>
      have := (s.ask query).2.decidableAdmitsAll rest
      inferInstanceAs (Decidable (s.Admits query ∧ (s.ask query).2.AdmitsAll rest))

instance (s : TokenRegistry) (queries : List Query) : Decidable (s.AdmitsAll queries) :=
  s.decidableAdmitsAll queries

namespace TokenRegistry

variable {s t : TokenRegistry}

theorem Alike.ask (alike : Alike s t) (okS : Sound s) (okT : Sound t) (query : Query)
    (admitted : s.Admits query) :
    (t.ask query).1 = (s.ask query).1 ∧ Alike (s.ask query).2 (t.ask query).2 := by
  cases query with
  | call call =>
      obtain ⟨same, later⟩ := alike.call okS okT call
      exact ⟨congrArg Answer.ended same, later⟩
  | resolve token =>
      have live : s.Live token.value := admitted
      refine ⟨?_, alike⟩
      simp only [TokenRegistry.ask, okS.resolves live,
        okT.resolves ((alike.live okS okT token.value).mpr live), Answer.ofResult,
        alike.bindings token.value live.2]
  | freeChannelCount => exact ⟨congrArg Answer.number alike.freeChannelCount, alike⟩
  | channelRefCount channelIdx =>
      refine ⟨?_, alike⟩
      simp only [TokenRegistry.ask, channelRefCountOf_eq]
      by_cases bound : channelIdx < kMaxChannels
      · simp only [bound, if_true, Answer.ofResult, alike.refCounts channelIdx bound]
      · simp only [bound, if_false, Answer.ofResult]
  | groupChannel group =>
      refine ⟨?_, alike⟩
      simp only [TokenRegistry.ask, groupChannel_eq, Answer.ofResult, alike.groups group]
  | channelMode channelIdx =>
      obtain ⟨bound, used⟩ : channelIdx < kMaxChannels ∧ 0 < s.channelRefCount channelIdx := admitted
      refine ⟨?_, alike⟩
      simp only [TokenRegistry.ask, channelModeOf_eq _ bound, Answer.ofResult,
        alike.modes channelIdx bound used]

theorem Sound.ask (ok : Sound s) (query : Query) : Sound (s.ask query).2 := by
  cases query with
  | call call => exact ok.call call
  | resolve | freeChannelCount | channelRefCount | groupChannel | channelMode => exact ok

/-- The simulation, along a sequence of queries. -/
theorem Alike.answers (queries : List Query) (alike : Alike s t) (okS : Sound s) (okT : Sound t)
    (admitted : s.AdmitsAll queries) : t.answers queries = s.answers queries := by
  induction queries generalizing s t with
  | nil => rfl
  | cons query rest ih =>
      obtain ⟨first, later⟩ := admitted
      obtain ⟨same, alikeNext⟩ := alike.ask okS okT query first
      simp only [TokenRegistry.answers, same, ih alikeNext (okS.ask query) (okT.ask query) later]

end TokenRegistry

/-- An acquire that succeeds while no count can wrap, undone by the release of its token,
leaves a registry that answers every sequence of queries as before. -/
theorem acquire_release_unobservable {trace : List (Call × Outcome)} {s : TokenRegistry}
    (reached : RegistryReaches trace s)
    (few : capacityFailures trace < 2 ^ 64 - kMaxBindings) {call : Call} {token : PublishToken}
    (returned : (s.call call).1 = .returned token) (queries : List Query)
    (admitted : s.AdmitsAll queries) :
    let released := (s.call call).2.call (.release token)
    released.1 = .released ∧ released.2.answers queries = s.answers queries := by
  obtain ⟨leaked, ok, within⟩ := reachable_consistent reached few
  obtain ⟨after, ran, alike⟩ := ok.acquire_release (reachable_modes reached few)
    (fun channel => Nat.lt_of_le_of_lt (within channel) few) returned
  have keptAfter := (ok.toSound.call call).call (.release token)
  simp only [ran] at keptAfter ⊢
  exact ⟨trivial, alike.answers queries ok.toSound keptAfter admitted⟩

def undoQueries : List Query :=
  [.groupChannel .Group0, .call .acquire, .resolve ⟨1⟩, .channelMode 2, .call (.release ⟨7⟩),
    .call (.acquireGroup .Group0), .freeChannelCount]

theorem acquire_release_unobservable_sample :
    let s := (TokenRegistry.initial.callAll [.acquireGroup .Group1, .release ⟨5⟩]).2
    let released := (s.call (.acquireGroup .Group0)).2.call (.release ⟨1⟩)
    released.2.nextToken = 2 ∧ s.nextToken = 1 ∧
      released.2.answers undoQueries = s.answers undoQueries := by
  refine ⟨by decide, by decide, ?_⟩
  exact (acquire_release_unobservable (callAll_reaches .nil _) (by decide) (by decide) undoQueries
    (by decide)).2

/-- The wrapped count reads zero, so a join opens a second channel for the group, and its undoing
forgets the first one. -/
theorem acquire_release_observable :
    let s := (wrappedRegistry.call (.release ⟨255⟩)).2
    let released := (s.call (.acquireGroup .Group0)).2.call (.release ⟨255⟩)
    (∃ trace, RegistryReaches trace s) ∧
      (s.call (.acquireGroup .Group0)).1 = .returned ⟨255⟩ ∧ released.1 = .released ∧
      s.answers [.groupChannel .Group0] = [.number 3] ∧
      released.2.answers [.groupChannel .Group0] = [.number kNoChannel] :=
  ⟨⟨_, .snoc wrappedRegistry_reaches trivial rfl⟩, by decide +kernel, by decide +kernel,
    by decide +kernel, by decide +kernel⟩

end MyServer
