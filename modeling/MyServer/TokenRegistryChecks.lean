import MyServer.TokenRegistryLedger

/-!
The steps of a call keep the invariant as long as no count wraps. A reference without a token
counts as leaked until a token is bound to it.
-/

namespace MyServer.TokenRegistry

variable {origin : Nat → Option Origin} {leaked : Nat → Nat} {s : TokenRegistry}

def gain (leaked : Nat → Nat) (channel : Nat) : Nat → Nat :=
  Function.update leaked channel (leaked channel + 1)

theorem update_gain (leaked : Nat → Nat) (channel : Nat) :
    Function.update (gain leaked channel) channel (gain leaked channel channel - 1) = leaked := by
  simp [gain]

theorem Consistent.refCount_update (ok : Consistent origin leaked s) {channel leak : Nat}
    {count : UInt64} (balanced : count.toNat = (s.boundTokens channel).card + leak) (other : Nat)
    (bound : other < kMaxChannels) : (Function.update s.channelRefCount channel count other).toNat =
      (s.boundTokens other).card + Function.update leaked channel leak other := by
  by_cases same : other = channel
  · rw [same, Function.update_self, Function.update_self]
    exact balanced
  · rw [Function.update_of_ne same, Function.update_of_ne same]
    exact ok.refCount other bound

/-! Taking a reference. -/

theorem Consistent.reserve (ok : Consistent origin leaked s) {count : Nat} (mode : ChannelMode)
    (counted : s.freeChannelCount = count + 1) :
    Consistent origin (gain leaked (s.freeChannels count))
      (({ s with freeChannelCount := count }).setReferences (s.freeChannels count) 1 mode) := by
  obtain ⟨bound, free⟩ := ok.top_free counted
  have noGroup := ok.group_ne_free bound free
  have noToken : ∀ token, s.Live token → s.tokenToChannel token ≠ s.freeChannels count :=
    fun token live => ok.token_ne_free live free
  constructor
  case toSound => exact ok.toSound.reserve mode counted
  case refCount =>
    have unused := (ok.ref_zero_iff bound).mp free
    refine ok.refCount_update ?_
    change 1 = _
    omega
  case freeChannelsAll =>
    intro channel below unused
    have different : channel ≠ s.freeChannels count := by
      rintro rfl
      simp [setReferences] at unused
    have kept := ok.freeChannelsAll channel below (by simpa [setReferences, different] using unused)
    have unique := ok.freeChannelsNodup
    rw [freeChannelStack, counted] at kept unique
    exact (ArrayStack.mem_pop unique).mpr ⟨kept, different⟩
  case groupUsed =>
    intro group
    simpa [setReferences, noGroup group] using ok.groupUsed group
  case exclusiveAlone =>
    intro token owned
    have live := ok.live_of_origin owned
    simpa [setReferences, noToken token live] using ok.exclusiveAlone token owned
  all_goals first
    | exact ok.originLive | exact ok.groupInjective | exact ok.groupMember

theorem Consistent.assignGroup (ok : Consistent origin leaked s) {group : ChannelGroup}
    {channel : Nat} (absent : s.groupToChannel group.toIndex = kNoChannel)
    (bound : channel < kMaxChannels) (used : s.channelRefCount channel ≠ 0)
    (noGroup : ∀ other : ChannelGroup, s.groupToChannel other.toIndex ≠ channel)
    (noToken : ∀ token, s.Live token → s.tokenToChannel token ≠ channel) :
    Consistent origin leaked { s with
      groupToChannel := Function.update s.groupToChannel group.toIndex channel } := by
  have entry : ∀ other : ChannelGroup,
      Function.update s.groupToChannel group.toIndex channel other.toIndex =
        if other = group then channel else s.groupToChannel other.toIndex := by
    intro other
    by_cases same : other = group
    · simp [same]
    · have different : other.toIndex ≠ group.toIndex := fun equal => same (toIndex_injective equal)
      simp [same, different]
  constructor
  case toSound => exact ok.toSound.assignGroup group bound
  case groupUsed =>
    intro other
    simp only [entry]
    split
    · exact fun _ => used
    · exact ok.groupUsed other
  case groupInjective =>
    intro left right
    simp only [entry]
    split <;> split <;> intro same present
    · simp_all
    · exact absurd same.symm (noGroup right)
    · exact absurd same (noGroup left)
    · exact ok.groupInjective left right same present
  case groupMember =>
    intro token other owned
    have member := ok.groupMember token other owned
    have live := ok.live_of_origin owned
    simp only [entry]
    split
    · rename_i same
      rw [same, absent] at member
      exact absurd member.symm (ne_kNoChannel (ok.channelBound token live.2))
    · exact member
  case exclusiveAlone =>
    intro token owned
    have live := ok.live_of_origin owned
    refine ⟨(ok.exclusiveAlone token owned).1, fun other => ?_⟩
    simp only [entry]
    split
    · exact (noToken token live).symm
    · exact (ok.exclusiveAlone token owned).2 other
  all_goals first
    | exact ok.originLive | exact ok.refCount | exact ok.freeChannelsAll

theorem toNat_succ {count : UInt64} (fits : count.toNat + 1 < 2 ^ 64) :
    (count + 1).toNat = count.toNat + 1 := by
  rw [UInt64.toNat_add]
  exact Nat.mod_eq_of_lt fits

theorem succ_ne_zero {count : UInt64} (fits : count.toNat + 1 < 2 ^ 64) : count + 1 ≠ 0 := by
  intro zero
  have counted := toNat_succ fits
  rw [zero] at counted
  exact absurd counted (Nat.succ_ne_zero _).symm

theorem Consistent.join (ok : Consistent origin leaked s) {group : ChannelGroup} {channel : Nat}
    (mode : ChannelMode) (entry : s.groupToChannel group.toIndex = channel)
    (bound : channel < kMaxChannels) (used : s.channelRefCount channel ≠ 0)
    (fits : (s.channelRefCount channel).toNat + 1 < 2 ^ 64) :
    Consistent origin (gain leaked channel)
      (s.setReferences channel (s.channelRefCount channel + 1) mode) := by
  have still := succ_ne_zero fits
  constructor
  case toSound => exact ok.toSound.join used _ _
  case refCount =>
    have counted := ok.refCount channel bound
    refine ok.refCount_update ?_
    rw [toNat_succ fits, counted, Nat.add_assoc]
  case freeChannelsAll =>
    intro other below unused
    have different : other ≠ channel := by
      rintro rfl
      exact still (by simpa [setReferences] using unused)
    exact ok.freeChannelsAll other below (by simpa [setReferences, different] using unused)
  case groupUsed =>
    intro other present
    by_cases same : s.groupToChannel other.toIndex = channel
    · simpa [setReferences, same] using still
    · simpa [setReferences, same] using ok.groupUsed other present
  case exclusiveAlone =>
    intro token owned
    obtain ⟨alone, noGroup⟩ := ok.exclusiveAlone token owned
    have different : s.tokenToChannel token ≠ channel := by
      rintro same
      exact noGroup group (entry.trans same.symm)
    exact ⟨by simpa [setReferences, different] using alone, noGroup⟩
  all_goals first
    | exact ok.originLive | exact ok.groupInjective | exact ok.groupMember

/-! Binding a token to a reference, and unbinding it. -/

section Bind

variable {token : PublishToken} {next : TokenRegistry} {channel : Nat}

theorem Consistent.bindToken_bound (ok : Consistent origin leaked s)
    (taken : takeToken s = some (token, next)) (other : Nat) :
    (next.bindToken token channel).boundTokens other =
      if other = channel then insert token.value (s.boundTokens other)
      else s.boundTokens other := by
  obtain ⟨_, _, _, used, bound⟩ := bindToken_frame channel taken
  obtain ⟨_, grown, below, _⟩ := ok.bindToken_pool channel taken
  have fresh := ok.taken_fresh taken
  have member : ∀ t, t ∈ (next.bindToken token channel).boundTokens other ↔
      if t = token.value then other = channel else t ∈ s.boundTokens other := by
    intro t
    simp only [mem_boundTokens, Live, used, bound]
    by_cases same : t = token.value
    · subst same
      simp [below, eq_comm]
    · simp only [Function.update_of_ne same, same, if_false]
      constructor
      · rintro ⟨⟨_, live⟩, at'⟩
        exact ⟨⟨ok.usedBelow t live, live⟩, at'⟩
      · rintro ⟨⟨lower, live⟩, at'⟩
        exact ⟨⟨by omega, live⟩, at'⟩
  ext t
  rw [member]
  by_cases here : other = channel
  · by_cases same : t = token.value <;> simp [same, here]
  · by_cases same : t = token.value
    · simp [same, here, Live, fresh]
    · simp [same, here]

def Offers (s : TokenRegistry) (channel : Nat) : Origin → Prop
  | .exclusive => s.channelRefCount channel = 1 ∧
      ∀ group : ChannelGroup, s.groupToChannel group.toIndex ≠ channel
  | .group group => s.groupToChannel group.toIndex = channel

theorem Consistent.bind (ok : Consistent origin leaked s) {owner : Origin}
    (taken : takeToken s = some (token, next)) (bound : channel < kMaxChannels)
    (held : 0 < leaked channel) (offers : s.Offers channel owner) :
    Consistent (Function.update origin token.value (some owner))
      (Function.update leaked channel (leaked channel - 1)) (next.bindToken token channel) := by
  obtain ⟨channels, refs, groups, used, chans⟩ := bindToken_frame channel taken
  have fresh := ok.taken_fresh taken
  constructor
  case toSound => exact ok.toSound.bind taken bound
  case refCount =>
    intro other otherBound
    have kept := ok.refCount other otherBound
    rw [refs, ok.bindToken_bound taken]
    by_cases same : other = channel
    · subst same
      have absent : token.value ∉ s.boundTokens other := by simp [Live, fresh]
      simp only [if_true, Finset.card_insert_of_notMem absent, Function.update_self]
      omega
    · simpa [same] using kept
  case freeChannelsAll => rw [channels, refs]; exact ok.freeChannelsAll
  case originLive =>
    intro t
    rw [used]
    by_cases same : t = token.value
    · simp [same]
    · simpa [same] using ok.originLive t
  case groupUsed => rw [groups, refs]; exact ok.groupUsed
  case groupInjective => rw [groups]; exact ok.groupInjective
  case groupMember =>
    intro t group
    rw [groups, chans]
    by_cases same : t = token.value
    · subst same
      simp only [Function.update_self, Option.some.injEq]
      rintro rfl
      exact offers
    · simpa [same] using ok.groupMember t group
  case exclusiveAlone =>
    intro t
    rw [groups, chans, refs]
    by_cases same : t = token.value
    · subst same
      simp only [Function.update_self, Option.some.injEq]
      rintro rfl
      exact offers
    · simpa [same] using ok.exclusiveAlone t

end Bind

theorem Consistent.unbind (ok : Consistent origin leaked s) {token : PublishToken}
    (live : s.Live token.value) :
    Consistent (Function.update origin token.value none)
      (gain leaked (s.tokenToChannel token.value)) (s.unbound token) := by
  have usedEq : (s.unbound token).tokenUsed = Function.update s.tokenUsed token.value false := rfl
  have boundEq : ∀ channel,
      (s.unbound token).boundTokens channel = (s.boundTokens channel).erase token.value := by
    intro channel
    ext t
    simp only [mem_boundTokens, Live, usedEq, Finset.mem_erase]
    by_cases same : t = token.value
    · simp [same]
    · simp [same, unbound]
  have ownedBefore : ∀ {t owner}, Function.update origin token.value none t = some owner →
      origin t = some owner := before_update (· = some _) (by simp)
  constructor
  case toSound => exact ok.toSound.unbind live
  case refCount =>
    intro channel bound
    have kept := ok.refCount channel bound
    rw [boundEq]
    by_cases same : channel = s.tokenToChannel token.value
    · subst same
      have member : token.value ∈ s.boundTokens (s.tokenToChannel token.value) := by
        simp [live]
      have positive := Finset.card_pos.mpr ⟨_, member⟩
      rw [Finset.card_erase_of_mem member]
      simp only [gain, Function.update_self]
      change (s.channelRefCount _).toNat = _
      omega
    · have other : token.value ∉ s.boundTokens channel := by
        simp [Ne.symm same]
      rw [Finset.erase_eq_of_notMem other, gain, Function.update_of_ne same]
      exact kept
  case originLive =>
    intro t
    rw [usedEq]
    by_cases same : t = token.value
    · simp [same]
    · simpa [same] using ok.originLive t
  case groupMember => exact fun t group owned => ok.groupMember t group (ownedBefore owned)
  case exclusiveAlone => exact fun t owned => ok.exclusiveAlone t (ownedBefore owned)
  all_goals first
    | exact ok.freeChannelsAll | exact ok.groupUsed | exact ok.groupInjective

/-! Giving a reference back. -/

theorem Consistent.held_ne_zero (ok : Consistent origin leaked s) {channel : Nat}
    (bound : channel < kMaxChannels) (held : 0 < leaked channel) :
    s.channelRefCount channel ≠ 0 := by
  rw [Ne, ok.ref_zero_iff bound]
  omega

theorem Consistent.drop_last (ok : Consistent origin leaked s) {channel : Nat}
    (bound : channel < kMaxChannels) (held : 0 < leaked channel)
    (last : s.channelRefCount channel = 1) :
    Consistent origin (Function.update leaked channel (leaked channel - 1))
      (s.dropped channel) := by
  have counted := (ok.ref_one_iff bound).mp last
  have noToken : ∀ token, s.Live token → s.tokenToChannel token ≠ channel := by
    rintro token live rfl
    have positive : 0 < (s.boundTokens (s.tokenToChannel token)).card :=
      Finset.card_pos.mpr ⟨token, by simp [live]⟩
    omega
  have groupsEq : ∀ group : ChannelGroup, (s.dropped channel).groupToChannel group.toIndex =
      if s.groupToChannel group.toIndex = channel then kNoChannel
      else s.groupToChannel group.toIndex := by
    intro group
    simp only [dropped, last, if_true]
    refine resetGroups_single (fun left right leftHere rightHere => ?_) group
    exact ok.groupInjective left right (leftHere.trans rightHere.symm)
      (by rw [leftHere]; exact ne_kNoChannel bound)
  have refsEq : (s.dropped channel).channelRefCount =
      Function.update s.channelRefCount channel 0 := by
    simp [dropped, last]
  have frame : (s.dropped channel).tokenUsed = s.tokenUsed ∧
      (s.dropped channel).tokenToChannel = s.tokenToChannel ∧
      (s.dropped channel).freeChannelStack = s.freeChannelStack ++ [channel] ∧
      (s.dropped channel).boundTokens = s.boundTokens := by
    rw [dropped, if_pos last]
    exact ⟨rfl, rfl, ArrayStack.contents_push _ _ _, rfl⟩
  obtain ⟨usedEq, chansEq, stackEq, boundEq⟩ := frame
  constructor
  case toSound => exact ok.toSound.drop bound (ok.held_ne_zero bound held)
  case originLive => rw [usedEq]; exact ok.originLive
  case refCount =>
    rw [refsEq, boundEq]
    refine ok.refCount_update ?_
    change 0 = _
    omega
  case freeChannelsAll =>
    intro other below
    rw [stackEq, refsEq, List.mem_append, List.mem_singleton]
    by_cases same : other = channel
    · exact fun _ => .inr same
    · rw [Function.update_of_ne same]
      exact fun unused => .inl (ok.freeChannelsAll other below unused)
  case groupUsed =>
    intro group
    rw [groupsEq, refsEq]
    split
    · exact fun present => absurd rfl present
    · rename_i elsewhere
      simpa [elsewhere] using ok.groupUsed group
  case groupInjective =>
    intro left right
    rw [groupsEq, groupsEq]
    split <;> split <;> intro same present
    · exact absurd rfl present
    · exact absurd rfl present
    · exact absurd same present
    · exact ok.groupInjective left right same present
  case groupMember =>
    intro token group owned
    have live := ok.live_of_origin owned
    have member := ok.groupMember token group owned
    have elsewhere : s.groupToChannel group.toIndex ≠ channel := by
      rw [member]
      exact noToken token live
    rw [groupsEq, chansEq, if_neg elsewhere]
    exact member
  case exclusiveAlone =>
    intro token owned
    have live := ok.live_of_origin owned
    obtain ⟨alone, noGroup⟩ := ok.exclusiveAlone token owned
    rw [chansEq, refsEq]
    refine ⟨by simpa [noToken token live] using alone, fun group => ?_⟩
    rw [groupsEq]
    split
    · exact (ne_kNoChannel (ok.channelBound token live.2)).symm
    · exact noGroup group

theorem toNat_pred {count : UInt64} (used : count ≠ 0) : (count - 1).toNat = count.toNat - 1 := by
  refine UInt64.toNat_sub_of_le _ _ ?_
  rw [UInt64.le_iff_toNat_le]
  have positive : count.toNat ≠ 0 := fun zero => used (UInt64.toNat_inj.mp zero)
  change 1 ≤ count.toNat
  omega

theorem pred_ne_zero {count : UInt64} (shared : count ≠ 1) : count - 1 ≠ 0 :=
  fun zero => shared (by grind)

theorem Consistent.drop_shared (ok : Consistent origin leaked s) {channel : Nat}
    (bound : channel < kMaxChannels) (held : 0 < leaked channel)
    (shared : s.channelRefCount channel ≠ 1) :
    Consistent origin (Function.update leaked channel (leaked channel - 1))
      (s.dropped channel) := by
  have used := ok.held_ne_zero bound held
  have remains := pred_ne_zero shared
  have sound := ok.toSound.drop bound used
  have droppedEq : s.dropped channel = { s with
      channelRefCount :=
        Function.update s.channelRefCount channel (s.channelRefCount channel - 1) } := by
    simp [dropped, shared]
  rw [droppedEq] at sound ⊢
  constructor
  case toSound => exact sound
  case refCount =>
    have counted := ok.refCount channel bound
    refine ok.refCount_update ?_
    rw [toNat_pred used]
    omega
  case freeChannelsAll =>
    intro other below unused
    have different : other ≠ channel := by
      rintro rfl
      exact remains (by simpa using unused)
    exact ok.freeChannelsAll other below (by simpa [different] using unused)
  case groupUsed =>
    intro group present
    by_cases same : s.groupToChannel group.toIndex = channel
    · simpa [same] using remains
    · simpa [same] using ok.groupUsed group present
  case exclusiveAlone =>
    intro token owned
    obtain ⟨alone, noGroup⟩ := ok.exclusiveAlone token owned
    have different : s.tokenToChannel token ≠ channel := by
      rintro rfl
      exact shared alone
    exact ⟨by simpa [different] using alone, noGroup⟩
  all_goals first
    | exact ok.originLive | exact ok.groupInjective | exact ok.groupMember

theorem Consistent.drop (ok : Consistent origin leaked s) {channel : Nat}
    (bound : channel < kMaxChannels) (held : 0 < leaked channel) :
    Consistent origin (Function.update leaked channel (leaked channel - 1))
      (s.dropped channel) := by
  by_cases last : s.channelRefCount channel = 1
  · exact ok.drop_last bound held last
  · exact ok.drop_shared bound held last

end MyServer.TokenRegistry
