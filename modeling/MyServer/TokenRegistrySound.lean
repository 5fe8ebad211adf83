import MyServer.EventMachine
import MyServer.TokenRegistrySteps

/-!
What holds of a `TokenRegistry` whatever its reference counts have come to. A count that
wrapped may say that a channel has no users when it has some; the token pool, the bounds and
the free channels do not depend on it. Each call is one of the five results of `CallResult`.
-/

namespace MyServer

inductive Origin
  | exclusive
  | group (group : ChannelGroup)
  deriving DecidableEq, Repr

namespace TokenRegistry

def Live (s : TokenRegistry) (token : Nat) : Prop :=
  token < s.nextToken ∧ s.tokenUsed token = true

instance (s : TokenRegistry) (token : Nat) : Decidable (s.Live token) :=
  inferInstanceAs (Decidable (_ ∧ _))

def freeTokenStack (s : TokenRegistry) : List Nat :=
  ArrayStack.contents (PublishToken.value ∘ s.freeTokens) s.freeTokenCount

def freeChannelStack (s : TokenRegistry) : List Nat :=
  ArrayStack.contents s.freeChannels s.freeChannelCount

structure Sound (s : TokenRegistry) : Prop where
  nextBound : s.nextToken ≤ kMaxBindings
  usedBelow : ∀ token, s.tokenUsed token = true → token < s.nextToken
  freeTokensNodup : s.freeTokenStack.Nodup
  freeTokensExact : ∀ token,
    token ∈ s.freeTokenStack ↔ token < s.nextToken ∧ s.tokenUsed token = false
  channelBound : ∀ token, s.tokenUsed token = true → s.tokenToChannel token < kMaxChannels
  freeChannelsNodup : s.freeChannelStack.Nodup
  freeChannelsUnused : ∀ channel ∈ s.freeChannelStack,
    channel < kMaxChannels ∧ s.channelRefCount channel = 0
  groupBound : ∀ group : ChannelGroup, s.groupToChannel group.toIndex ≠ kNoChannel →
    s.groupToChannel group.toIndex < kMaxChannels

theorem ne_kNoChannel {channel : Nat} (bound : channel < kMaxChannels) : channel ≠ kNoChannel := by
  have small : kMaxChannels < kNoChannel := by decide
  omega

theorem Sound.initial : Sound initial := by
  constructor
  case freeChannelsUnused =>
    intro channel inside
    simp only [freeChannelStack, TokenRegistry.initial, ArrayStack.mem_contents] at inside
    obtain ⟨index, bound, rfl⟩ := inside
    simp [TokenRegistry.initial, bound]
  all_goals simp [TokenRegistry.initial, freeTokenStack, freeChannelStack]
  all_goals decide

variable {s : TokenRegistry}

theorem Sound.live_iff (ok : Sound s) {token : Nat} :
    s.Live token ↔ s.tokenUsed token = true :=
  ⟨And.right, fun used => ⟨ok.usedBelow token used, used⟩⟩

theorem Sound.live_bound (ok : Sound s) {token : Nat} (live : s.Live token) :
    token < kMaxBindings :=
  Nat.lt_of_lt_of_le live.1 ok.nextBound

/-- Tokens handed out so far are either on the free stack or live. -/
theorem Sound.tokens_partition (ok : Sound s) :
    s.freeTokenCount + ((Finset.range s.nextToken).filter s.Live).card = s.nextToken := by
  have free : s.freeTokenCount =
      ((Finset.range s.nextToken).filter fun token => ¬s.Live token).card := by
    apply ArrayStack.count_eq_card ok.freeTokensNodup
    intro token
    rw [← freeTokenStack, ok.freeTokensExact]
    simp only [Finset.mem_filter, Finset.mem_range, Live, not_and, Bool.not_eq_true]
    exact ⟨fun facts => ⟨facts.1, fun _ => facts.2⟩, fun facts => ⟨facts.1, facts.2 facts.1⟩⟩
  have split := Finset.card_filter_add_card_filter_not (s := Finset.range s.nextToken) s.Live
  rw [Finset.card_range] at split
  omega

theorem Sound.freeTokenCount_le (ok : Sound s) : s.freeTokenCount ≤ kMaxBindings := by
  have partition := ok.tokens_partition
  have bound := ok.nextBound
  omega

theorem Sound.freeTokenCount_lt (ok : Sound s) {token : Nat} (live : s.Live token) :
    s.freeTokenCount < kMaxBindings := by
  have partition := ok.tokens_partition
  have bound := ok.nextBound
  have counted : 0 < ((Finset.range s.nextToken).filter s.Live).card :=
    Finset.card_pos.mpr ⟨token, by simp [live, live.1]⟩
  omega

theorem Sound.freeChannelCount_le (ok : Sound s) : s.freeChannelCount ≤ kMaxChannels := by
  have bound : s.freeChannelCount ≤ (Finset.range kMaxChannels).card :=
    ArrayStack.count_le_card ok.freeChannelsNodup fun channel inside =>
      Finset.mem_range.mpr (ok.freeChannelsUnused channel inside).1
  rwa [Finset.card_range] at bound

/-- A channel with users is not on the free stack, so the stack has room for it. -/
theorem Sound.freeChannelCount_lt (ok : Sound s) {channel : Nat} (bound : channel < kMaxChannels)
    (used : s.channelRefCount channel ≠ 0) : s.freeChannelCount < kMaxChannels := by
  have others : s.freeChannelCount ≤ ((Finset.range kMaxChannels).erase channel).card := by
    refine ArrayStack.count_le_card ok.freeChannelsNodup fun other inside => ?_
    obtain ⟨below, unused⟩ := ok.freeChannelsUnused other inside
    refine Finset.mem_erase.mpr ⟨?_, Finset.mem_range.mpr below⟩
    rintro rfl
    exact used unused
  rw [Finset.card_erase_of_mem (Finset.mem_range.mpr bound), Finset.card_range] at others
  omega

/-- The channel on top of the free stack is not counted. -/
theorem Sound.top_free (ok : Sound s) {count : Nat} (counted : s.freeChannelCount = count + 1) :
    s.freeChannels count < kMaxChannels ∧ s.channelRefCount (s.freeChannels count) = 0 := by
  apply ok.freeChannelsUnused
  rw [freeChannelStack, counted]
  exact ArrayStack.cell_mem _ (Nat.lt_succ_self count)

theorem Sound.cells_bound (ok : Sound s) {index : Nat} (below : index < s.freeTokenCount) :
    (s.freeTokens index).value < kMaxBindings := by
  have onStack : (s.freeTokens index).value ∈ s.freeTokenStack :=
    ArrayStack.cell_mem (PublishToken.value ∘ s.freeTokens) below
  exact Nat.lt_of_lt_of_le ((ok.freeTokensExact _).mp onStack).1 ok.nextBound

/-! Taking a reference. -/

theorem Sound.reserve (ok : Sound s) {count : Nat} (mode : ChannelMode)
    (counted : s.freeChannelCount = count + 1) :
    Sound (({ s with freeChannelCount := count }).setReferences (s.freeChannels count) 1 mode) := by
  have unique := ok.freeChannelsNodup
  have unused := ok.freeChannelsUnused
  rw [freeChannelStack, counted] at unique unused
  constructor
  case freeChannelsNodup => exact (ArrayStack.nodup_pop unique).1
  case freeChannelsUnused =>
    intro channel inside
    obtain ⟨before, different⟩ := (ArrayStack.mem_pop unique).mp inside
    simpa [setReferences, different] using unused channel before
  all_goals first
    | exact ok.nextBound | exact ok.usedBelow | exact ok.freeTokensNodup
    | exact ok.freeTokensExact | exact ok.channelBound | exact ok.groupBound

theorem Sound.assignGroup (ok : Sound s) (group : ChannelGroup) {channel : Nat}
    (bound : channel < kMaxChannels) :
    Sound { s with
      groupToChannel := Function.update s.groupToChannel group.toIndex channel } := by
  refine { ok with groupBound := fun other present => ?_ }
  by_cases same : other.toIndex = group.toIndex
  · simpa [same] using bound
  · simp only [Function.update_of_ne same] at present ⊢
    exact ok.groupBound other present

theorem Sound.join (ok : Sound s) {channel : Nat} (used : s.channelRefCount channel ≠ 0)
    (count : UInt64) (mode : ChannelMode) : Sound (s.setReferences channel count mode) := by
  refine { ok with freeChannelsUnused := fun other inside => ?_ }
  obtain ⟨bound, unused⟩ := ok.freeChannelsUnused other inside
  have different : other ≠ channel := by
    rintro rfl
    exact used unused
  exact ⟨bound, by simpa [setReferences, different] using unused⟩

/-! Binding a token to a reference, and unbinding it. -/

/-- What `takeToken` leaves of the token pool: everything but the token it hands out. -/
theorem takeToken_cases {token : PublishToken} {next : TokenRegistry}
    (taken : takeToken s = some (token, next)) :
    (∃ count, s.freeTokenCount = count + 1 ∧ token = s.freeTokens count ∧
      next = { s with freeTokenCount := count }) ∨
    (s.freeTokenCount = 0 ∧ s.nextToken < kMaxBindings ∧ token = ⟨s.nextToken⟩ ∧
      next = { s with nextToken := s.nextToken + 1 }) := by
  unfold takeToken at taken
  split at taken
  · rename_i count counted
    simp only [Option.some.injEq, Prod.mk.injEq] at taken
    exact Or.inl ⟨count, counted, taken.1.symm, taken.2.symm⟩
  · rename_i counted
    split at taken
    · rename_i room
      simp only [Option.some.injEq, Prod.mk.injEq] at taken
      exact Or.inr ⟨counted, room, taken.1.symm, taken.2.symm⟩
    · simp at taken

theorem Sound.taken_fresh (ok : Sound s) {token : PublishToken} {next : TokenRegistry}
    (taken : takeToken s = some (token, next)) : s.tokenUsed token.value = false := by
  rcases takeToken_cases taken with ⟨count, counted, rfl, _⟩ | ⟨_, _, rfl, _⟩
  · have onStack : (s.freeTokens count).value ∈ s.freeTokenStack := by
      rw [freeTokenStack, counted]
      exact ArrayStack.cell_mem (PublishToken.value ∘ s.freeTokens) (Nat.lt_succ_self count)
    exact ((ok.freeTokensExact _).mp onStack).2
  · by_contra used
    simp only [Bool.not_eq_false] at used
    exact absurd (ok.usedBelow _ used) (Nat.lt_irrefl _)

theorem Sound.takeToken_bound (ok : Sound s) {token : PublishToken} {next : TokenRegistry}
    (taken : takeToken s = some (token, next)) : token.value < kMaxBindings := by
  rcases takeToken_cases taken with ⟨count, counted, rfl, _⟩ | ⟨_, room, rfl, _⟩
  · exact ok.cells_bound (by omega)
  · exact room

def TokensExhausted (s : TokenRegistry) : Prop :=
  s.freeTokenCount = 0 ∧ s.nextToken = kMaxBindings

theorem Sound.takeToken_eq_none (ok : Sound s) : takeToken s = none ↔ s.TokensExhausted := by
  have bound := ok.nextBound
  unfold takeToken TokensExhausted
  split
  · rename_i counted
    simp [counted]
  · rename_i counted
    split
    · rename_i room
      simp only [reduceCtorEq, counted, true_and, false_iff]
      omega
    · rename_i full
      simp only [counted, true_and, true_iff]
      omega

section Bind

variable {token : PublishToken} {next : TokenRegistry} {channel : Nat}

/-- `next` after the token is bound differs from `s` in these token tables only. -/
theorem bindToken_frame (channel : Nat) (taken : takeToken s = some (token, next)) :
    (next.bindToken token channel).freeChannelStack = s.freeChannelStack ∧
    (next.bindToken token channel).channelRefCount = s.channelRefCount ∧
    (next.bindToken token channel).groupToChannel = s.groupToChannel ∧
    (next.bindToken token channel).tokenUsed = Function.update s.tokenUsed token.value true ∧
    (next.bindToken token channel).tokenToChannel =
      Function.update s.tokenToChannel token.value channel := by
  rcases takeToken_cases taken with ⟨_, _, _, rfl⟩ | ⟨_, _, _, rfl⟩ <;>
    exact ⟨rfl, rfl, rfl, rfl, rfl⟩

theorem Sound.bindToken_pool (ok : Sound s) (channel : Nat)
    (taken : takeToken s = some (token, next)) :
    let after := next.bindToken token channel
    after.nextToken ≤ kMaxBindings ∧ s.nextToken ≤ after.nextToken ∧
    token.value < after.nextToken ∧ after.freeTokenStack.Nodup ∧
    ∀ t, t ∈ after.freeTokenStack ↔ t < after.nextToken ∧ after.tokenUsed t = false := by
  have nextBound := ok.nextBound
  rcases takeToken_cases taken with ⟨count, counted, rfl, rfl⟩ | ⟨counted, room, rfl, rfl⟩
  · have unique := ok.freeTokensNodup
    rw [freeTokenStack, counted] at unique
    have exact' := ok.freeTokensExact
    rw [freeTokenStack, counted] at exact'
    have onStack : (s.freeTokens count).value ∈
        ArrayStack.contents (PublishToken.value ∘ s.freeTokens) (count + 1) :=
      ArrayStack.cell_mem (PublishToken.value ∘ s.freeTokens) (Nat.lt_succ_self count)
    refine ⟨nextBound, Nat.le_refl _, ((exact' _).mp onStack).1, (ArrayStack.nodup_pop unique).1, ?_⟩
    intro t
    change t ∈ ArrayStack.contents (PublishToken.value ∘ s.freeTokens) count ↔ _
    rw [ArrayStack.mem_pop unique, exact']
    by_cases same : t = (s.freeTokens count).value
    · simp [same, bindToken]
    · simp [same, bindToken]
  · refine ⟨room, Nat.le_succ _, Nat.lt_succ_self _, ok.freeTokensNodup, ?_⟩
    intro t
    refine (ok.freeTokensExact t).trans ?_
    by_cases same : t = s.nextToken
    · simp [same, bindToken]
    · simp only [bindToken, Function.update_of_ne same, and_congr_left_iff]
      omega

theorem Sound.bind (ok : Sound s) (taken : takeToken s = some (token, next))
    (bound : channel < kMaxChannels) : Sound (next.bindToken token channel) := by
  obtain ⟨channels, refs, groups, used, chans⟩ := bindToken_frame channel taken
  obtain ⟨nextBound, grown, below, unique, exact'⟩ := ok.bindToken_pool channel taken
  constructor
  case nextBound => exact nextBound
  case freeTokensNodup => exact unique
  case freeTokensExact => exact exact'
  case usedBelow =>
    intro t live
    rw [used] at live
    rcases of_update (· = true) live with ⟨rfl, -⟩ | before
    · exact below
    · have lower := ok.usedBelow t before
      omega
  case channelBound =>
    intro t
    rw [used, chans]
    by_cases same : t = token.value
    · simpa [same] using bound
    · simpa [same] using ok.channelBound t
  case freeChannelsNodup => rw [channels]; exact ok.freeChannelsNodup
  case freeChannelsUnused => rw [channels, refs]; exact ok.freeChannelsUnused
  case groupBound => rw [groups]; exact ok.groupBound

end Bind

theorem Sound.unbind (ok : Sound s) {token : PublishToken} (live : s.Live token.value) :
    Sound (s.unbound token) := by
  have stackEq : (s.unbound token).freeTokenStack = s.freeTokenStack ++ [token.value] := by
    simp only [freeTokenStack, unbound, Function.comp_update]
    exact ArrayStack.contents_push _ _ _
  have absent : token.value ∉ s.freeTokenStack := by
    rw [ok.freeTokensExact]
    simp [live.2]
  have usedBefore : ∀ {t}, (s.unbound token).tokenUsed t = true → s.tokenUsed t = true :=
    before_update (· = true) (by simp)
  constructor
  case usedBelow => exact fun t used => ok.usedBelow t (usedBefore used)
  case freeTokensNodup =>
    simp only [freeTokenStack, unbound, Function.comp_update]
    exact ArrayStack.nodup_push ok.freeTokensNodup absent
  case freeTokensExact =>
    intro t
    rw [stackEq, List.mem_append, ok.freeTokensExact, List.mem_singleton]
    by_cases same : t = token.value
    · simp [same, unbound, live.1]
    · simp [same, unbound]
  case channelBound => exact fun t used => ok.channelBound t (usedBefore used)
  all_goals first
    | exact ok.nextBound | exact ok.freeChannelsNodup | exact ok.freeChannelsUnused
    | exact ok.groupBound

/-! Giving a reference back. -/

theorem resetGroups_entry (channel remaining group : Nat) (groups : Nat → Nat) (index : Nat) :
    resetGroups channel remaining group groups index = kNoChannel ∨
      resetGroups channel remaining group groups index = groups index := by
  induction remaining generalizing group with
  | zero => exact .inr rfl
  | succ remaining ih =>
      simp only [resetGroups]
      split
      · by_cases here : index = group
        · simp [here]
        · simp [here]
      · exact ih (group + 1)

theorem Sound.drop (ok : Sound s) {channel : Nat} (bound : channel < kMaxChannels)
    (used : s.channelRefCount channel ≠ 0) : Sound (s.dropped channel) := by
  have absent : channel ∉ s.freeChannelStack :=
    fun inside => used (ok.freeChannelsUnused channel inside).2
  have kept : ∀ count, ∀ other ∈ s.freeChannelStack,
      other < kMaxChannels ∧ Function.update s.channelRefCount channel count other = 0 := by
    intro count other inside
    have different : other ≠ channel := by
      rintro rfl
      exact absent inside
    simpa [different] using ok.freeChannelsUnused other inside
  unfold dropped
  split
  · constructor
    case freeChannelsNodup => exact ArrayStack.nodup_push ok.freeChannelsNodup absent
    case freeChannelsUnused =>
      intro other inside
      simp only [freeChannelStack, ArrayStack.contents_push, List.mem_append,
        List.mem_singleton] at inside
      rcases inside with inside | rfl
      · exact kept 0 other inside
      · exact ⟨bound, Function.update_self ..⟩
    case groupBound =>
      intro group present
      have same := (resetGroups_entry channel kMaxGroups 0 s.groupToChannel
        group.toIndex).resolve_left present
      simp only [same] at present ⊢
      exact ok.groupBound group present
    all_goals first
      | exact ok.nextBound | exact ok.usedBelow | exact ok.freeTokensNodup
      | exact ok.freeTokensExact | exact ok.channelBound
  · exact { ok with freeChannelsUnused := kept _ }

end TokenRegistry

end MyServer
