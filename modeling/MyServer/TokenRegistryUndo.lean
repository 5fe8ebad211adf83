import MyServer.TokenRegistryPool
import MyServer.TokenRegistrySupply

/-!
Acquiring and releasing undo each other, up to what a caller can see. Both orders rest on
the stacks being last-in first-out and on the mode a channel has while it is in use, which
is `Shared` for a group's channel and `Exclusive` for an exclusive token's.
-/

namespace MyServer

namespace TokenRegistry

variable {origin : Nat → Option Origin} {leaked : Nat → Nat} {s : TokenRegistry}

/-- The mode of a channel in use says how it was taken. -/
structure ModesFit (origin : Nat → Option Origin) (s : TokenRegistry) : Prop where
  shared : ∀ group : ChannelGroup, s.groupToChannel group.toIndex ≠ kNoChannel →
    s.channelMode (s.groupToChannel group.toIndex) = .Shared
  exclusive : ∀ token, origin token = some .exclusive →
    s.channelMode (s.tokenToChannel token) = .Exclusive

theorem ModesFit.initial : ModesFit (fun _ => none) initial := by
  constructor
  · exact fun group present => absurd rfl present
  · simp

theorem ModesFit.attach (fit : ModesFit origin s) (ok : Consistent origin leaked s) {call : Call}
    {channel : Nat} {next : TokenRegistry} (step : AttachStep s call channel next) :
    ModesFit origin next := by
  cases step with
  | exclusive counted =>
      obtain ⟨bound, free⟩ := ok.top_free counted
      constructor
      · intro group present
        simpa [setReferences, ok.group_ne_free bound free group] using fit.shared group present
      · intro token owned
        simpa [setReferences, ok.token_ne_free (ok.live_of_origin owned) free] using
          fit.exclusive token owned
  | @opens group count _ counted =>
      obtain ⟨bound, free⟩ := ok.top_free counted
      constructor
      · intro other present
        by_cases same : other.toIndex = group.toIndex
        · simp [setReferences, same]
        · simp only [setReferences, Function.update_of_ne same] at present ⊢
          rw [Function.update_of_ne (ok.group_ne_free bound free other)]
          exact fit.shared other present
      · intro token owned
        simpa [setReferences, ok.token_ne_free (ok.live_of_origin owned) free] using
          fit.exclusive token owned
  | @joins group _ =>
      constructor
      · intro other otherPresent
        by_cases same : s.groupToChannel other.toIndex = s.groupToChannel group.toIndex
        · simp [setReferences, same]
        · simpa [setReferences, same] using fit.shared other otherPresent
      · intro token owned
        have different := ((ok.exclusiveAlone token owned).2 group).symm
        simpa [setReferences, different] using fit.exclusive token owned

theorem ModesFit.bind {next rest : TokenRegistry} (fit : ModesFit origin next)
    {token : PublishToken} (taken : takeToken next = some (token, rest)) {owner : Origin}
    {channel : Nat} (mode : owner = .exclusive → next.channelMode channel = .Exclusive) :
    ModesFit (Function.update origin token.value (some owner)) (rest.bindToken token channel) := by
  have frame : rest.channelMode = next.channelMode ∧ rest.groupToChannel = next.groupToChannel ∧
      rest.tokenToChannel = next.tokenToChannel := by
    rcases takeToken_cases taken with ⟨_, _, _, rfl⟩ | ⟨_, _, _, rfl⟩ <;> exact ⟨rfl, rfl, rfl⟩
  obtain ⟨modes, groups, bindings⟩ := frame
  constructor
  · simp only [bindToken, modes, groups]
    exact fit.shared
  · intro other owned
    simp only [bindToken, modes, bindings]
    by_cases same : other = token.value
    · subst same
      simp only [Function.update_self, Option.some.injEq] at owned ⊢
      exact mode owned
    · simp only [Function.update_of_ne same] at owned ⊢
      exact fit.exclusive other owned

theorem ModesFit.release (fit : ModesFit origin s) (token : PublishToken) (channel : Nat) :
    ModesFit (Function.update origin token.value none) ((s.unbound token).dropped channel) := by
  have frame : ((s.unbound token).dropped channel).channelMode = s.channelMode ∧
      ((s.unbound token).dropped channel).tokenToChannel = s.tokenToChannel := by
    unfold dropped
    split <;> exact ⟨rfl, rfl⟩
  obtain ⟨modes, bindings⟩ := frame
  have entry : ∀ index, ((s.unbound token).dropped channel).groupToChannel index = kNoChannel ∨
      ((s.unbound token).dropped channel).groupToChannel index = s.groupToChannel index := by
    intro index
    unfold dropped
    split
    · exact resetGroups_entry channel kMaxGroups 0 s.groupToChannel index
    · exact .inr rfl
  constructor
  · intro group present
    have same := (entry group.toIndex).resolve_left present
    rw [same] at present
    rw [modes, same]
    exact fit.shared group present
  · intro other owned
    rw [modes, bindings]
    by_cases same : other = token.value
    · simp [same] at owned
    · exact fit.exclusive other (by simpa [same] using owned)

theorem attachStep_mode {owner : Origin} {call : Call} (acquiring : ownerOf call = some owner)
    {channel : Nat} {next : TokenRegistry} (step : AttachStep s call channel next) :
    owner = .exclusive → next.channelMode channel = .Exclusive := by
  cases step with
  | exclusive => simp [setReferences]
  | opens | joins =>
      rintro rfl
      simp [ownerOf] at acquiring

theorem ModesFit.call (fit : ModesFit origin s) (ok : Consistent origin leaked s) (call : Call) :
    ModesFit (recordOrigin origin (call, (s.call call).1)) (s.call call).2 := by
  have result := ok.toSound.call_result call
  generalize s.call call = ended at result
  cases result with
  | refused | uncounted => rwa [recordOrigin_failed]
  | leaks step =>
      rw [recordOrigin_failed]
      exact fit.attach ok step
  | grants step _ taken =>
      obtain ⟨owner, acquiring⟩ := step.owner
      rw [recordOrigin_returned acquiring]
      exact (fit.attach ok step).bind taken (attachStep_mode acquiring step)
  | takesBack => exact fit.release _ _

end TokenRegistry

open TokenRegistry

theorem reachable_modes {trace : List (Call × Outcome)} {s : TokenRegistry}
    (reached : RegistryReaches trace s)
    (few : capacityFailures trace < 2 ^ 64 - kMaxBindings) : ModesFit (originOf trace) s := by
  have both : RegistryReaches trace s ∧
      (capacityFailures trace < 2 ^ 64 - kMaxBindings → ModesFit (originOf trace) s) := by
    refine EventMachine.Reaches.invariant reached (fun trace s => RegistryReaches trace s ∧
      (capacityFailures trace < 2 ^ 64 - kMaxBindings → ModesFit (originOf trace) s))
      ⟨.nil, fun _ => .initial⟩ ?_
    rintro trace s call next events ⟨here, fit⟩ _ stepped
    refine ⟨.snoc here trivial stepped, fun few => ?_⟩
    obtain ⟨rfl, rfl⟩ := Prod.mk.inj (Option.some.inj stepped)
    rw [capacityFailures_append] at few
    obtain ⟨leaked, ok, _⟩ := reachable_consistent here (by omega)
    rw [originOf_append]
    exact (fit (by omega)).call ok call
  exact both.2 few

namespace TokenRegistry

variable {origin : Nat → Option Origin} {leaked : Nat → Nat} {s : TokenRegistry}

/-! Acquire, then release. -/

/-- A free channel is taken and given back; `groups` is the group table in between. -/
theorem Consistent.untake (ok : Consistent origin leaked s) {count : Nat}
    (counted : s.freeChannelCount = count + 1) (mode : ChannelMode) (groups : Nat → Nat)
    (reset : ∀ group : ChannelGroup,
      resetGroups (s.freeChannels count) kMaxGroups 0 groups group.toIndex =
        s.groupToChannel group.toIndex) :
    Alike s (TokenRegistry.dropped
      { ({ s with freeChannelCount := count }).setReferences (s.freeChannels count) 1 mode with
        groupToChannel := groups } (s.freeChannels count)) := by
  obtain ⟨_, free⟩ := ok.top_free counted
  simp only [dropped, setReferences, Function.update_self, if_true, Function.update_idem]
  constructor
  case freeChannels =>
    simp only [freeChannelStack, counted, Function.update_eq_self]
  case refCounts =>
    intro channel _
    by_cases same : channel = s.freeChannels count
    · simp [same, free]
    · simp [same]
  case modes =>
    intro channel _ used
    have different : channel ≠ s.freeChannels count := by
      rintro rfl
      simp [free] at used
    simp [different]
  case groups => exact reset
  all_goals first | rfl | exact fun _ _ => rfl

theorem resetGroups_none {channel : Nat} {groups : Nat → Nat}
    (free : ∀ group : ChannelGroup, groups group.toIndex ≠ channel) (group : ChannelGroup) :
    resetGroups channel kMaxGroups 0 groups group.toIndex = groups group.toIndex := by
  rw [resetGroups_single fun left _ here => absurd here (free left), if_neg (free group)]

theorem resetGroups_only {channel : Nat} {groups : Nat → Nat} {group : ChannelGroup}
    (only : ∀ other : ChannelGroup, groups other.toIndex = channel → other = group)
    (other : ChannelGroup) :
    resetGroups channel kMaxGroups 0 groups other.toIndex =
      if groups other.toIndex = channel then kNoChannel else groups other.toIndex := by
  refine resetGroups_single (fun left right leftHere rightHere => ?_) other
  rw [only left leftHere, only right rightHere]

theorem Consistent.detach (ok : Consistent origin leaked s) (fit : ModesFit origin s)
    {call : Call} {channel : Nat} {next : TokenRegistry}
    (step : AttachStep s call channel next) :
    channel < kMaxChannels ∧ Alike s (next.dropped channel) := by
  cases step with
  | exclusive counted =>
      obtain ⟨bound, free⟩ := ok.top_free counted
      refine ⟨bound, ok.untake counted .Exclusive s.groupToChannel fun group => ?_⟩
      exact resetGroups_none (ok.group_ne_free bound free) group
  | @opens group count closed counted =>
      obtain ⟨bound, free⟩ := ok.top_free counted
      have absent : s.groupToChannel group.toIndex = kNoChannel := by
        rw [ok.group_open_iff] at closed
        exact not_not.mp closed
      refine ⟨bound, ok.untake counted .Shared _ fun other => ?_⟩
      have only : ∀ other : ChannelGroup,
          Function.update s.groupToChannel group.toIndex (s.freeChannels count) other.toIndex =
            s.freeChannels count → other = group := by
        intro other here
        by_contra different
        have apart : other.toIndex ≠ group.toIndex := fun same => different (toIndex_injective same)
        rw [Function.update_of_ne apart] at here
        exact ok.group_ne_free bound free other here
      rw [resetGroups_only only]
      by_cases same : other = group
      · simp [same, absent]
      · have apart : other.toIndex ≠ group.toIndex := fun equal => same (toIndex_injective equal)
        simp [apart, ok.group_ne_free bound free other]
  | @joins group opened =>
      obtain ⟨bound, used⟩ := ok.group_used opened
      have shared : s.channelRefCount (s.groupToChannel group.toIndex) + 1 ≠ 1 :=
        fun single => used (by grind)
      have back : s.channelRefCount (s.groupToChannel group.toIndex) + 1 - 1 =
          s.channelRefCount (s.groupToChannel group.toIndex) := UInt64.add_sub_cancel _ _
      refine ⟨bound, ?_⟩
      simp only [dropped, setReferences, Function.update_self, shared, if_false, back,
        Function.update_idem, Function.update_eq_self]
      refine { Alike.refl s with modes := fun channel _ _ => ?_ }
      by_cases same : channel = s.groupToChannel group.toIndex
      · simp [same, fit.shared group opened.1]
      · simp [same]

theorem unbind_bound {next rest : TokenRegistry} {token : PublishToken}
    (taken : takeToken next = some (token, rest)) (fresh : next.tokenUsed token.value = false)
    (channel : Nat) : Alike next ((rest.bindToken token channel).unbound token) := by
  have supplies := supply_of_takeToken taken
  have returned := supply_unbound (rest.bindToken token channel) token
  have frame := takeToken_cases taken
  constructor
  case supply => exact returned.trans supplies.symm
  case tokenUsed =>
    rcases frame with ⟨_, _, _, rfl⟩ | ⟨_, _, _, rfl⟩ <;>
      simp only [unbound, bindToken, Function.update_idem] <;>
      rw [← fresh, Function.update_eq_self]
  case bindings =>
    intro other used
    have different : other ≠ token.value := by
      rintro rfl
      simp [fresh] at used
    rcases frame with ⟨_, _, _, rfl⟩ | ⟨_, _, _, rfl⟩ <;> simp [unbound, bindToken, different]
  all_goals
    rcases frame with ⟨_, _, _, rfl⟩ | ⟨_, _, _, rfl⟩ <;>
      first | rfl | exact fun _ _ => rfl | exact fun _ _ _ => rfl | exact fun _ => rfl

theorem Consistent.acquire_release (ok : Consistent origin leaked s) (fit : ModesFit origin s)
    (few : ∀ channel, leaked channel < 2 ^ 64 - kMaxBindings) {call : Call}
    {token : PublishToken} (returned : (s.call call).1 = .returned token) :
    ∃ after, (s.call call).2.call (.release token) = (.released, after) ∧ Alike s after := by
  have result := ok.toSound.call_result call
  generalize s.call call = ended at result returned
  cases result with
  | refused | leaks | takesBack | uncounted => simp at returned
  | @grants _ channel next other rest step spare taken =>
      obtain rfl : other = token := Outcome.returned.inj returned
      obtain ⟨owner, acquiring⟩ := step.owner
      obtain ⟨bound, attached⟩ := ok.toSound.attach step
      have fits := ok.fits bound (by simpa [spare] using few channel)
      have kept := ok.call_acquires acquiring step fits taken
      have live := kept.live_of_origin (Function.update_self ..)
      have channelEq : (rest.bindToken other channel).tokenToChannel other.value = channel := by
        simp [bindToken]
      refine ⟨_, kept.toSound.call_release_live live (kept.ref_ne_zero live), ?_⟩
      have used : next.channelRefCount channel ≠ 0 := by
        rw [ok.toSound.attach_counts step]
        exact succ_ne_zero fits
      rw [channelEq]
      exact (ok.detach fit step).2.trans
        ((unbind_bound taken (attached.taken_fresh taken) channel).dropped bound used)

/-! Release, then acquire the same way again. -/

theorem attach_unbound (s : TokenRegistry) (token : PublishToken) (call : Call) :
    (s.unbound token).attach call = (s.attach call).map fun r => (r.1, r.2.unbound token) := by
  have taken : ∀ mode, (s.unbound token).takeChannel mode =
      (s.takeChannel mode).map fun r => (r.1, r.2.unbound token) := by
    intro mode
    unfold TokenRegistry.takeChannel
    cases counted : s.freeChannelCount <;> simp only [unbound, counted] <;> rfl
  have opened : ∀ group, (s.unbound token).GroupOpen group ↔ s.GroupOpen group :=
    fun _ => Iff.rfl
  cases call with
  | acquire => exact taken .Exclusive
  | acquireGroup group =>
      simp only [TokenRegistry.attach, taken, opened]
      by_cases here : s.GroupOpen group
      · simp only [here, if_true]
        rfl
      · simp only [here, if_false, Option.map_map]
        rfl
  | release _ => rfl

/-- The token given back last is the next one handed out. -/
theorem retake {next : TokenRegistry} {token : PublishToken} {channel : Nat}
    (used : next.tokenUsed token.value = true)
    (bound : next.tokenToChannel token.value = channel) :
    ∃ after, allotted channel (next.unbound token) = (.returned token, after) ∧
      Alike next after := by
  refine ⟨({ next.unbound token with freeTokenCount := next.freeTokenCount }).bindToken token
    channel, by simp [allotted, takeToken, unbound], ?_⟩
  constructor
  case supply =>
    simp only [supply, freeTokenStack, bindToken, unbound, Function.comp_update,
      ArrayStack.contents_update_of_le _ _ (Nat.le_refl _)]
  case tokenUsed =>
    simp only [bindToken, unbound, Function.update_idem]
    rw [← used, Function.update_eq_self]
  case bindings =>
    intro other _
    simp only [bindToken, unbound]
    rw [← bound, Function.update_eq_self]
  all_goals first | rfl | exact fun _ _ => rfl | exact fun _ _ _ => rfl | exact fun _ => rfl

def retaken (s : TokenRegistry) (channel : Nat) (mode : ChannelMode) (groups : Nat → Nat) :
    TokenRegistry :=
  { s with
    freeChannels := Function.update s.freeChannels s.freeChannelCount channel
    groupToChannel := groups
    channelRefCount := Function.update (Function.update s.channelRefCount channel 0) channel 1
    channelMode := Function.update s.channelMode channel mode }

theorem takeChannel_dropped {channel : Nat} (last : s.channelRefCount channel = 1)
    (mode : ChannelMode) :
    (s.dropped channel).takeChannel mode = some (channel,
      s.retaken channel mode (resetGroups channel kMaxGroups 0 s.groupToChannel)) := by
  simp [TokenRegistry.takeChannel, dropped, last, setReferences, retaken]

theorem retaken_alike {channel : Nat} (last : s.channelRefCount channel = 1) {groups : Nat → Nat}
    (same : ∀ group : ChannelGroup, groups group.toIndex = s.groupToChannel group.toIndex) :
    Alike s (s.retaken channel (s.channelMode channel) groups) := by
  constructor
  case freeChannels =>
    simp only [freeChannelStack, retaken, ArrayStack.contents_update_of_le _ _ (Nat.le_refl _)]
  case refCounts =>
    intro other _
    simp only [retaken, Function.update_idem]
    rw [← last, Function.update_eq_self]
  case modes =>
    intro other _ _
    simp only [retaken, Function.update_eq_self]
  case groups => exact same
  all_goals first | rfl | exact fun _ _ => rfl

theorem Consistent.only_group (ok : Consistent origin leaked s) {channel : Nat}
    (bound : channel < kMaxChannels) {group : ChannelGroup}
    (entry : s.groupToChannel group.toIndex = channel) {other : ChannelGroup}
    (here : s.groupToChannel other.toIndex = channel) : other = group :=
  ok.groupInjective other group (here.trans entry.symm) (by rw [here]; exact ne_kNoChannel bound)

theorem Consistent.reattach (ok : Consistent origin leaked s) (fit : ModesFit origin s)
    {token : Nat} {owner : Origin} (owned : origin token = some owner) {call : Call}
    (acquiring : ownerOf call = some owner) :
    ∃ next, (s.dropped (s.tokenToChannel token)).attach call =
      some (s.tokenToChannel token, next) ∧ Alike s next := by
  have live := ok.live_of_origin owned
  have bound := ok.channelBound token live.2
  cases call with
  | acquire =>
      obtain rfl : Origin.exclusive = owner := by simpa [ownerOf] using acquiring
      obtain ⟨last, noGroup⟩ := ok.exclusiveAlone token owned
      refine ⟨_, takeChannel_dropped last .Exclusive, ?_⟩
      rw [← fit.exclusive token owned]
      exact retaken_alike last (resetGroups_none noGroup)
  | acquireGroup group =>
      obtain rfl : Origin.group group = owner := by simpa [ownerOf] using acquiring
      have entry := ok.groupMember token group owned
      have present : s.groupToChannel group.toIndex ≠ kNoChannel := by
        rw [entry]
        exact ne_kNoChannel bound
      have mode := fit.shared group present
      rw [entry] at mode
      by_cases last : s.channelRefCount (s.tokenToChannel token) = 1
      · have reset := resetGroups_only fun _ => ok.only_group bound entry
        have absent : (s.dropped (s.tokenToChannel token)).groupToChannel group.toIndex =
            kNoChannel := by
          simp only [dropped, last, if_true, reset, entry]
        have closed : ¬(s.dropped (s.tokenToChannel token)).GroupOpen group :=
          fun opened => opened.1 absent
        simp only [TokenRegistry.attach, closed, if_false, takeChannel_dropped last,
          Option.map_some]
        refine ⟨_, rfl, ?_⟩
        rw [← mode]
        refine retaken_alike last fun other => ?_
        by_cases same : other = group
        · simp [same, entry]
        · have apart : other.toIndex ≠ group.toIndex := fun equal => same (toIndex_injective equal)
          have elsewhere : s.groupToChannel other.toIndex ≠ s.tokenToChannel token :=
            fun here => same (ok.only_group bound entry here)
          simp [retaken, apart, reset, elsewhere]
      · have still : (s.dropped (s.tokenToChannel token)).groupToChannel group.toIndex =
            s.tokenToChannel token := by
          simp only [dropped, last, if_false, entry]
        have count : (s.dropped (s.tokenToChannel token)).channelRefCount
            (s.tokenToChannel token) = s.channelRefCount (s.tokenToChannel token) - 1 := by
          simp only [dropped, last, if_false, Function.update_self]
        have opened : (s.dropped (s.tokenToChannel token)).GroupOpen group := by
          rw [GroupOpen, still, count]
          exact ⟨ne_kNoChannel bound, UInt64.pos_iff_ne_zero.mpr (pred_ne_zero last)⟩
        have refs : (s.dropped (s.tokenToChannel token)).channelRefCount
            (s.tokenToChannel token) + 1 = s.channelRefCount (s.tokenToChannel token) := by
          rw [count]
          exact UInt64.sub_add_cancel _ _
        simp only [TokenRegistry.attach, opened, if_true, still, refs]
        refine ⟨_, rfl, ?_⟩
        simp only [dropped, last, if_false, setReferences, Function.update_idem,
          Function.update_eq_self, ← mode]
        exact { Alike.refl s with }
  | release token => simp [ownerOf] at acquiring

theorem Consistent.release_acquire (ok : Consistent origin leaked s) (fit : ModesFit origin s)
    {token : PublishToken} {owner : Origin} (owned : origin token.value = some owner)
    {call : Call} (acquiring : ownerOf call = some owner) :
    ∃ after, (s.call (.release token)).2.call call = (.returned token, after) ∧
      Alike s after := by
  have live := ok.live_of_origin owned
  obtain ⟨next, attached, alike⟩ := ok.reattach fit owned acquiring
  have ran := (ok.call_releases live).toSound.call_acquiring acquiring
  rw [ok.toSound.call_release_live live (ok.ref_ne_zero live)]
  simp only [← dropped_unbound, attach_unbound, attached, Option.map_some] at ran ⊢
  have used : next.tokenUsed token.value = true := by
    rw [alike.tokenUsed]
    exact live.2
  obtain ⟨after, allocated, later⟩ := retake used (alike.bindings token.value live.2)
  exact ⟨after, ran.trans allocated, alike.trans later⟩

end TokenRegistry

end MyServer
