import MyServer.TokenRegistryCore
import MyServer.ArrayStack

/-!
What one registry method can do, said once: each method is an equation between its
outcome and plain updates of the state. Later proofs use these and never unfold a method.
-/

namespace MyServer.TokenRegistry

attribute [local simp] EStateM.bind EStateM.pure EStateM.get EStateM.set EStateM.modifyGet
  EStateM.throw bind pure get getThe MonadStateOf.get modify modifyGet MonadStateOf.modifyGet
  set MonadStateOf.set throw throwThe MonadExceptOf.throw checkIndex require

variable {s : TokenRegistry}

def noFreeChannels : Failure := .throws "No free channels available"
def capacityExceeded : Failure := .throws "TokenRegistry capacity exceeded"
def releaseInvalid : Failure := .throws "Attempt to release invalid token"
def releaseFree : Failure := .throws "Attempt to release already free token"

theorem popFreeChannel_none (empty : s.freeChannelCount = 0) :
    popFreeChannel s = .error noFreeChannels s := by
  simp [popFreeChannel, empty, noFreeChannels]

theorem popFreeChannel_some {count : Nat} (counted : s.freeChannelCount = count + 1)
    (bound : count < kMaxChannels) :
    popFreeChannel s = .ok (s.freeChannels count) { s with freeChannelCount := count } := by
  simp [popFreeChannel, counted, bound]

theorem pushFreeChannel_ok (channel : Nat) (room : s.freeChannelCount < kMaxChannels) :
    pushFreeChannel channel s = .ok () { s with
      freeChannels := Function.update s.freeChannels s.freeChannelCount channel
      freeChannelCount := s.freeChannelCount + 1 } := by
  simp [pushFreeChannel, room]

/-- The token `allocateToken` hands out, with the pool it leaves; `none` when there is none. -/
def takeToken (s : TokenRegistry) : Option (PublishToken × TokenRegistry) :=
  match s.freeTokenCount with
  | count + 1 => some (s.freeTokens count, { s with freeTokenCount := count })
  | 0 =>
      if s.nextToken < kMaxBindings then
        some (⟨s.nextToken⟩, { s with nextToken := s.nextToken + 1 })
      else none

def bindToken (s : TokenRegistry) (token : PublishToken) (channel : Nat) : TokenRegistry :=
  { s with
    tokenToChannel := Function.update s.tokenToChannel token.value channel
    tokenUsed := Function.update s.tokenUsed token.value true }

theorem nextFreeToken_eq (countBound : s.freeTokenCount ≤ kMaxBindings) :
    nextFreeToken s =
      match takeToken s with
      | some (token, next) => .ok token next
      | none => .error capacityExceeded s := by
  unfold takeToken
  cases counted : s.freeTokenCount with
  | zero =>
      by_cases room : s.nextToken < kMaxBindings
      · have notFull : ¬kMaxBindings ≤ s.nextToken := Nat.not_le.mpr room
        simp [nextFreeToken, counted, room, notFull]
      · have full : kMaxBindings ≤ s.nextToken := Nat.not_lt.mp room
        simp [nextFreeToken, counted, room, full, capacityExceeded]
  | succ count =>
      have bound : count < kMaxBindings := by omega
      simp [nextFreeToken, counted, bound]

theorem allocateToken_eq (channel : Nat) (countBound : s.freeTokenCount ≤ kMaxBindings)
    (tokenBound : ∀ token next, takeToken s = some (token, next) → token.value < kMaxBindings) :
    allocateToken channel s =
      match takeToken s with
      | some (token, next) => .ok token (bindToken next token channel)
      | none => .error capacityExceeded s := by
  have taken := nextFreeToken_eq countBound
  cases found : takeToken s with
  | none =>
      rw [found] at taken
      simp [allocateToken, taken]
  | some result =>
      obtain ⟨token, next⟩ := result
      have bound := tokenBound token next found
      rw [found] at taken
      simp [allocateToken, taken, bound, bindToken]

/-- `channelRefCount_[channel] = count` together with the mode written beside it. -/
def setReferences (s : TokenRegistry) (channel : Nat) (count : UInt64) (mode : ChannelMode) :
    TokenRegistry :=
  { s with
    channelRefCount := Function.update s.channelRefCount channel count
    channelMode := Function.update s.channelMode channel mode }

theorem setChannel_ok {channel : Nat} (count : UInt64) (mode : ChannelMode)
    (bound : channel < kMaxChannels) :
    setChannel channel count mode s = .ok () (s.setReferences channel count mode) := by
  simp [setChannel, bound, setReferences]

theorem acquire_none (empty : s.freeChannelCount = 0) :
    acquire s = .error noFreeChannels s := by
  simp [acquire, popFreeChannel_none empty]

theorem acquire_some {count : Nat} (counted : s.freeChannelCount = count + 1)
    (countBound : count < kMaxChannels) (channelBound : s.freeChannels count < kMaxChannels) :
    acquire s = allocateToken (s.freeChannels count)
      (({ s with freeChannelCount := count }).setReferences (s.freeChannels count) 1
        .Exclusive) := by
  simp [acquire, popFreeChannel_some counted countBound, setChannel_ok _ _ channelBound]

theorem toIndex_lt (group : ChannelGroup) : group.toIndex < kMaxGroups := by
  cases group <;> decide

theorem toIndex_injective {left right : ChannelGroup} (same : left.toIndex = right.toIndex) :
    left = right := by
  cases left <;> cases right <;> first | rfl | simp [ChannelGroup.toIndex] at same

theorem exists_toIndex {index : Nat} (bound : index < kMaxGroups) :
    ∃ group : ChannelGroup, group.toIndex = index := by
  match index, bound with
  | 0, _ => exact ⟨.Group0, rfl⟩
  | 1, _ => exact ⟨.Group1, rfl⟩
  | 2, _ => exact ⟨.Group2, rfl⟩
  | 3, _ => exact ⟨.Group3, rfl⟩

theorem openGroup_none (groupIdx : Nat) (empty : s.freeChannelCount = 0) :
    openGroup groupIdx s = .error noFreeChannels s := by
  simp [openGroup, popFreeChannel_none empty]

theorem openGroup_some (groupIdx : Nat) {count : Nat} (counted : s.freeChannelCount = count + 1)
    (countBound : count < kMaxChannels) (channelBound : s.freeChannels count < kMaxChannels) :
    openGroup groupIdx s = .ok (s.freeChannels count)
      { ({ s with freeChannelCount := count }).setReferences (s.freeChannels count) 1 .Shared with
        groupToChannel := Function.update s.groupToChannel groupIdx (s.freeChannels count) } := by
  simp [openGroup, popFreeChannel_some counted countBound, setChannel_ok _ _ channelBound,
    setReferences]

def GroupOpen (s : TokenRegistry) (group : ChannelGroup) : Prop :=
  s.groupToChannel group.toIndex ≠ kNoChannel ∧
    0 < s.channelRefCount (s.groupToChannel group.toIndex)

instance (s : TokenRegistry) (group : ChannelGroup) : Decidable (s.GroupOpen group) :=
  inferInstanceAs (Decidable (_ ∧ _))

theorem acquireGroup_join {group : ChannelGroup} (opened : s.GroupOpen group)
    (bound : s.groupToChannel group.toIndex < kMaxChannels) :
    acquireGroup group s = allocateToken (s.groupToChannel group.toIndex)
      (s.setReferences (s.groupToChannel group.toIndex)
        (s.channelRefCount (s.groupToChannel group.toIndex) + 1) .Shared) := by
  simp [acquireGroup, toIndex_lt, opened.1, bound, opened.2, setChannel_ok _ _ bound]

/-- A group without a channel, or with one that is not counted, gets a new one. -/
theorem acquireGroup_open {group : ChannelGroup} (closed : ¬s.GroupOpen group)
    (bound : s.groupToChannel group.toIndex ≠ kNoChannel →
      s.groupToChannel group.toIndex < kMaxChannels) :
    acquireGroup group s = (openGroup group.toIndex >>= fun idx => allocateToken idx) s := by
  by_cases absent : s.groupToChannel group.toIndex = kNoChannel
  · simp [acquireGroup, toIndex_lt, absent]
  · have unused : ¬0 < s.channelRefCount (s.groupToChannel group.toIndex) :=
      fun used => closed ⟨absent, used⟩
    simp [acquireGroup, toIndex_lt, absent, bound absent, unused]

theorem acquireGroup_open_none {group : ChannelGroup} (closed : ¬s.GroupOpen group)
    (bound : s.groupToChannel group.toIndex ≠ kNoChannel →
      s.groupToChannel group.toIndex < kMaxChannels) (empty : s.freeChannelCount = 0) :
    acquireGroup group s = .error noFreeChannels s := by
  rw [acquireGroup_open closed bound]
  simp [openGroup_none _ empty]

theorem acquireGroup_open_some {group : ChannelGroup} {count : Nat}
    (closed : ¬s.GroupOpen group)
    (bound : s.groupToChannel group.toIndex ≠ kNoChannel →
      s.groupToChannel group.toIndex < kMaxChannels)
    (counted : s.freeChannelCount = count + 1) (countBound : count < kMaxChannels)
    (channelBound : s.freeChannels count < kMaxChannels) :
    acquireGroup group s = allocateToken (s.freeChannels count)
      { ({ s with freeChannelCount := count }).setReferences (s.freeChannels count) 1 .Shared with
        groupToChannel :=
          Function.update s.groupToChannel group.toIndex (s.freeChannels count) } := by
  rw [acquireGroup_open closed bound]
  simp [openGroup_some _ counted countBound channelBound]

/-- The group table after the scan of `release`: the first entry that equals the channel is reset. -/
def resetGroups (channel : Nat) : (remaining group : Nat) → (Nat → Nat) → (Nat → Nat)
  | 0, _, groups => groups
  | remaining + 1, group, groups =>
      if groups group = channel then Function.update groups group kNoChannel
      else resetGroups channel remaining (group + 1) groups

theorem resetGroupFrom_eq (channel remaining group : Nat)
    (inside : group + remaining ≤ kMaxGroups) :
    resetGroupFrom channel remaining group s =
      .ok () { s with groupToChannel := resetGroups channel remaining group s.groupToChannel } := by
  induction remaining generalizing group with
  | zero => simp [resetGroupFrom, resetGroups]
  | succ remaining ih =>
      have bound : group < kMaxGroups := by omega
      by_cases found : s.groupToChannel group = channel
      · simp [resetGroupFrom, resetGroups, bound, found]
      · have rest := ih (group + 1) (by omega)
        simp [resetGroupFrom, resetGroups, bound, found, rest]

/-- With at most one group on the channel, the scan clears exactly that channel's entry. -/
theorem resetGroups_apply {channel : Nat} {groups : Nat → Nat} (remaining group index : Nat)
    (single : ∀ i j, i < group + remaining → j < group + remaining →
      groups i = channel → groups j = channel → i = j)
    (lower : group ≤ index) (upper : index < group + remaining) :
    resetGroups channel remaining group groups index =
      if groups index = channel then kNoChannel else groups index := by
  induction remaining generalizing group with
  | zero => omega
  | succ remaining ih =>
      simp only [resetGroups]
      by_cases found : groups group = channel
      · simp only [found, if_true]
        by_cases same : index = group
        · subst index
          simp [found]
        · have other : groups index ≠ channel := by
            intro also
            exact same (single index group upper (by omega) also found)
          simp [Function.update_of_ne same, other]
      · simp only [found, if_false]
        by_cases same : index = group
        · subst index
          simp only [found, if_false]
          exact resetGroups_below _ _ _ _ (Nat.lt_succ_self _)
        · exact ih (group + 1) (fun i j iBound jBound => single i j (by omega) (by omega))
            (by omega) (by omega)
where
  resetGroups_below (remaining group index : Nat) (groups : Nat → Nat) (below : index < group) :
      resetGroups channel remaining group groups index = groups index := by
    induction remaining generalizing group with
    | zero => rfl
    | succ remaining ih =>
        simp only [resetGroups]
        split
        · exact Function.update_of_ne (by omega) _ _
        · exact ih (group + 1) (by omega)

theorem resetGroups_single {channel : Nat} {groups : Nat → Nat}
    (single : ∀ left right : ChannelGroup, groups left.toIndex = channel →
      groups right.toIndex = channel → left = right) (group : ChannelGroup) :
    resetGroups channel kMaxGroups 0 groups group.toIndex =
      if groups group.toIndex = channel then kNoChannel else groups group.toIndex := by
  apply resetGroups_apply _ _ _ _ (Nat.zero_le _) (by simpa using toIndex_lt group)
  intro i j iBound jBound iHere jHere
  obtain ⟨left, rfl⟩ := exists_toIndex (by simpa using iBound : i < kMaxGroups)
  obtain ⟨right, rfl⟩ := exists_toIndex (by simpa using jBound : j < kMaxGroups)
  rw [single left right iHere jHere]

def dropped (s : TokenRegistry) (channel : Nat) : TokenRegistry :=
  if s.channelRefCount channel = 1 then
    { s with
      channelRefCount := Function.update s.channelRefCount channel 0
      freeChannels := Function.update s.freeChannels s.freeChannelCount channel
      freeChannelCount := s.freeChannelCount + 1
      groupToChannel := resetGroups channel kMaxGroups 0 s.groupToChannel }
  else
    { s with
      channelRefCount :=
        Function.update s.channelRefCount channel (s.channelRefCount channel - 1) }

theorem dropReference_eq {channel : Nat} (bound : channel < kMaxChannels)
    (used : 0 < s.channelRefCount channel)
    (room : s.channelRefCount channel = 1 → s.freeChannelCount < kMaxChannels) :
    dropReference channel s = .ok () (s.dropped channel) := by
  by_cases last : s.channelRefCount channel = 1
  · have pushed := pushFreeChannel_ok
      (s := { s with channelRefCount := Function.update s.channelRefCount channel 0 })
      channel (room last)
    simp [dropReference, dropped, bound, last, pushed, resetGroupFrom_eq]
  · have remains : s.channelRefCount channel - 1 ≠ 0 := fun zero => last (by grind)
    simp [dropReference, dropped, bound, used, last, remains]

def refCountUnderflow : Failure := .aborts "Channel ref count underflow"

theorem dropReference_underflow {channel : Nat} (bound : channel < kMaxChannels)
    (unused : s.channelRefCount channel = 0) :
    dropReference channel s = .error refCountUnderflow s := by
  simp [dropReference, bound, unused, refCountUnderflow]

def unbound (s : TokenRegistry) (token : PublishToken) : TokenRegistry :=
  { s with
    tokenUsed := Function.update s.tokenUsed token.value false
    freeTokens := Function.update s.freeTokens s.freeTokenCount token
    freeTokenCount := s.freeTokenCount + 1 }

theorem dropped_unbound (token : PublishToken) (channel : Nat) :
    (s.dropped channel).unbound token = (s.unbound token).dropped channel := by
  by_cases last : s.channelRefCount channel = 1 <;> simp [dropped, unbound, last]

theorem release_invalid {token : PublishToken} (invalid : s.nextToken ≤ token.value) :
    release token s = .error releaseInvalid s := by
  simp [release, isValidToken, invalid, releaseInvalid]

theorem release_free {token : PublishToken} (valid : token.value < s.nextToken)
    (bound : token.value < kMaxBindings) (free : s.tokenUsed token.value = false) :
    release token s = .error releaseFree s := by
  simp [release, isValidToken, valid, bound, free, releaseFree]

theorem release_live {token : PublishToken} (valid : token.value < s.nextToken)
    (bound : token.value < kMaxBindings) (used : s.tokenUsed token.value = true)
    (room : s.freeTokenCount < kMaxBindings)
    (dropping : dropReference (s.tokenToChannel token.value) s =
      .ok () (s.dropped (s.tokenToChannel token.value))) :
    release token s = .ok () ((s.unbound token).dropped (s.tokenToChannel token.value)) := by
  have notOverflow : ¬kMaxBindings ≤ s.freeTokenCount := Nat.not_le.mpr room
  have countKept : (s.dropped (s.tokenToChannel token.value)).freeTokenCount = s.freeTokenCount := by
    unfold dropped
    split <;> rfl
  rw [← dropped_unbound]
  simp [release, isValidToken, valid, bound, used, notOverflow, dropping, countKept, room, unbound]

theorem release_underflow {token : PublishToken} (valid : token.value < s.nextToken)
    (bound : token.value < kMaxBindings) (used : s.tokenUsed token.value = true)
    (room : s.freeTokenCount < kMaxBindings)
    (dropping : dropReference (s.tokenToChannel token.value) s = .error refCountUnderflow s) :
    release token s = .error refCountUnderflow s := by
  have notOverflow : ¬kMaxBindings ≤ s.freeTokenCount := Nat.not_le.mpr room
  simp [release, isValidToken, valid, bound, used, notOverflow, dropping]

theorem resolve_live {token : PublishToken} (valid : token.value < s.nextToken)
    (bound : token.value < kMaxBindings) (used : s.tokenUsed token.value = true) :
    resolve token s = .ok (s.tokenToChannel token.value) s := by
  simp [resolve, isValidToken, valid, bound, used]

end MyServer.TokenRegistry
