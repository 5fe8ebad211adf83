import MyServer.TokenRegistryCalls

/-!
The invariant of a `TokenRegistry` whose counts have not wrapped. A channel's count is split
into the live tokens bound to it and the references taken by calls that failed before they
got a token; the second part stays zero until a call throws `TokenRegistry capacity exceeded`.
-/

namespace MyServer

namespace TokenRegistry

def boundTokens (s : TokenRegistry) (channel : Nat) : Finset Nat :=
  (Finset.range s.nextToken).filter fun token =>
    s.Live token ∧ s.tokenToChannel token = channel

@[simp] theorem mem_boundTokens {s : TokenRegistry} {channel token : Nat} :
    token ∈ s.boundTokens channel ↔ s.Live token ∧ s.tokenToChannel token = channel := by
  simp only [boundTokens, Finset.mem_filter, Finset.mem_range, and_iff_right_iff_imp]
  exact fun facts => facts.1.1

structure Consistent (origin : Nat → Option Origin) (leaked : Nat → Nat)
    (s : TokenRegistry) : Prop extends Sound s where
  refCount : ∀ channel, channel < kMaxChannels →
    (s.channelRefCount channel).toNat = (s.boundTokens channel).card + leaked channel
  freeChannelsAll : ∀ channel, channel < kMaxChannels → s.channelRefCount channel = 0 →
    channel ∈ s.freeChannelStack
  originLive : ∀ token, (origin token).isSome = true ↔ s.tokenUsed token = true
  groupUsed : ∀ group : ChannelGroup, s.groupToChannel group.toIndex ≠ kNoChannel →
    s.channelRefCount (s.groupToChannel group.toIndex) ≠ 0
  groupInjective : ∀ left right : ChannelGroup,
    s.groupToChannel left.toIndex = s.groupToChannel right.toIndex →
    s.groupToChannel left.toIndex ≠ kNoChannel → left = right
  groupMember : ∀ token group, origin token = some (.group group) →
    s.groupToChannel group.toIndex = s.tokenToChannel token
  exclusiveAlone : ∀ token, origin token = some .exclusive →
    s.channelRefCount (s.tokenToChannel token) = 1 ∧
      ∀ group : ChannelGroup, s.groupToChannel group.toIndex ≠ s.tokenToChannel token

theorem initial_consistent : Consistent (fun _ => none) (fun _ => 0) initial := by
  constructor
  case toSound => exact .initial
  case freeChannelsAll =>
    intro channel bound _
    rw [freeChannelStack, ArrayStack.mem_contents]
    exact ⟨channel, bound, by simp [initial, bound]⟩
  case refCount =>
    intro channel _
    have empty : initial.boundTokens channel = ∅ := by
      ext token
      simp [Live, initial]
    rw [empty]
    rfl
  all_goals simp [initial]

section Bounds

variable {origin : Nat → Option Origin} {leaked : Nat → Nat} {s : TokenRegistry}

theorem Consistent.live_iff_origin (ok : Consistent origin leaked s) {token : Nat} :
    s.Live token ↔ (origin token).isSome = true :=
  ok.live_iff.trans (ok.originLive token).symm

theorem Consistent.live_of_origin (ok : Consistent origin leaked s) {token : Nat} {owner : Origin}
    (owned : origin token = some owner) : s.Live token :=
  ok.live_iff_origin.mpr (by simp [owned])

theorem Consistent.freeChannelsExact (ok : Consistent origin leaked s) (channel : Nat) :
    channel ∈ s.freeChannelStack ↔ channel < kMaxChannels ∧ s.channelRefCount channel = 0 :=
  ⟨ok.freeChannelsUnused channel, fun facts => ok.freeChannelsAll channel facts.1 facts.2⟩

theorem Consistent.group_open_iff (ok : Consistent origin leaked s) (group : ChannelGroup) :
    s.GroupOpen group ↔ s.groupToChannel group.toIndex ≠ kNoChannel :=
  ⟨And.left, fun present => ⟨present, UInt64.pos_iff_ne_zero.mpr (ok.groupUsed group present)⟩⟩

theorem Consistent.freeChannelCount_eq (ok : Consistent origin leaked s) :
    s.freeChannelCount =
      ((Finset.range kMaxChannels).filter fun channel => s.channelRefCount channel = 0).card := by
  apply ArrayStack.count_eq_card ok.freeChannelsNodup
  intro channel
  rw [← freeChannelStack, ok.freeChannelsExact]
  simp

/-- A channel without references has neither tokens nor leaks. -/
theorem Consistent.ref_zero_iff (ok : Consistent origin leaked s) {channel : Nat}
    (bound : channel < kMaxChannels) :
    s.channelRefCount channel = 0 ↔ (s.boundTokens channel).card + leaked channel = 0 := by
  rw [← ok.refCount channel bound]
  exact ⟨fun unused => by rw [unused]; rfl, fun unused => UInt64.toNat_inj.mp unused⟩

theorem Consistent.ref_one_iff (ok : Consistent origin leaked s) {channel : Nat}
    (bound : channel < kMaxChannels) :
    s.channelRefCount channel = 1 ↔ (s.boundTokens channel).card + leaked channel = 1 := by
  rw [← ok.refCount channel bound]
  exact ⟨fun single => by rw [single]; rfl, fun single => UInt64.toNat_inj.mp single⟩

theorem Consistent.ref_ne_zero (ok : Consistent origin leaked s) {token : Nat}
    (live : s.Live token) : s.channelRefCount (s.tokenToChannel token) ≠ 0 := by
  rw [Ne, ok.ref_zero_iff (ok.channelBound token live.2)]
  have counted : 0 < (s.boundTokens (s.tokenToChannel token)).card :=
    Finset.card_pos.mpr ⟨token, by simp [live]⟩
  omega

theorem Consistent.token_ne_free (ok : Consistent origin leaked s) {token channel : Nat}
    (live : s.Live token) (free : s.channelRefCount channel = 0) :
    s.tokenToChannel token ≠ channel := by
  rintro rfl
  exact ok.ref_ne_zero live free

/-- No group points to a channel without references. -/
theorem Consistent.group_ne_free (ok : Consistent origin leaked s) {channel : Nat}
    (bound : channel < kMaxChannels) (free : s.channelRefCount channel = 0)
    (group : ChannelGroup) : s.groupToChannel group.toIndex ≠ channel := by
  rintro rfl
  exact ok.groupUsed group (ne_kNoChannel bound) free

theorem Sound.boundTokens_card_le (ok : Sound s) (channel : Nat) :
    (s.boundTokens channel).card + s.freeTokenCount ≤ s.nextToken := by
  have partition := ok.tokens_partition
  have inside : (s.boundTokens channel).card ≤
      ((Finset.range s.nextToken).filter s.Live).card := by
    refine Finset.card_le_card fun token member => ?_
    have live := (mem_boundTokens.mp member).1
    simp [live, live.1]
  omega

end Bounds

end TokenRegistry

end MyServer
