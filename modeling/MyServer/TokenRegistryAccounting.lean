import MyServer.TokenRegistryRuns

/-!
What the registry promises its callers: exact reference counts, and which failing calls
leave the registry as they found it.
-/

namespace MyServer

open TokenRegistry

section Accounting

variable {origin : Nat → Option Origin} {leaked : Nat → Nat} {s : TokenRegistry}

namespace TokenRegistry

theorem Consistent.free_count (ok : Consistent origin leaked s) (channel : Nat) :
    s.freeChannelStack.count channel =
      if channel < kMaxChannels ∧ s.channelRefCount channel = 0 then 1 else 0 := by
  split
  · rename_i free
    exact List.count_eq_one_of_mem ok.freeChannelsNodup ((ok.freeChannelsExact channel).mpr free)
  · rename_i used
    rw [List.count_eq_zero, ok.freeChannelsExact]
    exact used

/-- A channel in use by no failed call has a live token, and a group's channel only the group's. -/
theorem Consistent.group_has_member (ok : Consistent origin leaked s)
    (clean : ∀ channel, leaked channel = 0) {group : ChannelGroup}
    (present : s.groupToChannel group.toIndex ≠ kNoChannel) :
    ∃ token, s.Live token ∧ origin token = some (.group group) := by
  have used := ok.groupUsed group present
  rw [Ne, ok.ref_zero_iff (ok.groupBound group present), clean, Nat.add_zero,
    ← Ne, Finset.card_ne_zero] at used
  obtain ⟨token, member⟩ := used
  rw [mem_boundTokens] at member
  refine ⟨token, member.1, ?_⟩
  have known := ok.live_iff_origin.mp member.1
  cases owned : origin token with
  | none => simp [owned] at known
  | some owner =>
      cases owner with
      | exclusive => exact absurd member.2.symm ((ok.exclusiveAlone token owned).2 group)
      | group other =>
          have entry := ok.groupMember token other owned
          rw [member.2] at entry
          rw [ok.groupInjective other group entry (by rwa [entry])]

theorem Consistent.group_absent_iff (ok : Consistent origin leaked s)
    (clean : ∀ channel, leaked channel = 0) (group : ChannelGroup) :
    s.groupToChannel group.toIndex = kNoChannel ↔
      ¬∃ token, s.Live token ∧ origin token = some (.group group) := by
  constructor
  · rintro absent ⟨token, live, owned⟩
    rw [ok.groupMember token group owned] at absent
    exact ne_kNoChannel (ok.channelBound token live.2) absent
  · intro empty
    by_contra present
    exact empty (ok.group_has_member clean present)

theorem Consistent.group_maps_iff (ok : Consistent origin leaked s)
    (clean : ∀ channel, leaked channel = 0) (group : ChannelGroup) {channel : Nat}
    (bound : channel < kMaxChannels) :
    s.groupToChannel group.toIndex = channel ↔
      (∃ token, s.Live token ∧ origin token = some (.group group)) ∧
        ∀ token, s.Live token → origin token = some (.group group) →
          s.tokenToChannel token = channel := by
  constructor
  · rintro rfl
    exact ⟨ok.group_has_member clean (ne_kNoChannel bound),
      fun token _ owned => (ok.groupMember token group owned).symm⟩
  · rintro ⟨⟨token, live, owned⟩, all⟩
    rw [ok.groupMember token group owned]
    exact all token live owned

theorem Consistent.all_free (ok : Consistent origin leaked s)
    (clean : ∀ channel, leaked channel = 0) (dead : ∀ token, ¬s.Live token) :
    s.freeChannelCount = kMaxChannels ∧
      ∀ group : ChannelGroup, s.groupToChannel group.toIndex = kNoChannel := by
  constructor
  · rw [ok.freeChannelCount_eq, Finset.filter_true_of_mem, Finset.card_range]
    intro channel member
    have empty : s.boundTokens channel = ∅ := by
      ext token
      simp [dead token]
    rw [ok.ref_zero_iff (Finset.mem_range.mp member), clean, empty]
    rfl
  · intro group
    rw [ok.group_absent_iff clean]
    rintro ⟨token, live, _⟩
    exact dead token live

end TokenRegistry

/-- As long as no call has run out of tokens, counts, free stack and group table say
exactly what the live tokens say. -/
theorem registry_accounting {trace : List (Call × Outcome)} {s : TokenRegistry}
    (reached : RegistryReaches trace s)
    (clean : ∀ event ∈ trace, event.2 ≠ .failed capacityExceeded) :
    (∀ channel, channel < kMaxChannels → (s.channelRefCount channel).toNat =
      ((Finset.range s.nextToken).filter fun token =>
        s.Live token ∧ s.tokenToChannel token = channel).card) ∧
    (∀ channel, s.freeChannelStack.count channel =
      if channel < kMaxChannels ∧ s.channelRefCount channel = 0 then 1 else 0) ∧
    (∀ (group : ChannelGroup) (channel : Nat), channel < kMaxChannels →
      (s.groupToChannel group.toIndex = channel ↔
        (∃ token, s.Live token ∧ originOf trace token = some (.group group)) ∧
          ∀ token, s.Live token → originOf trace token = some (.group group) →
            s.tokenToChannel token = channel)) ∧
    (∀ group : ChannelGroup, s.groupToChannel group.toIndex = kNoChannel ↔
      ¬∃ token, s.Live token ∧ originOf trace token = some (.group group)) ∧
    ((∀ token, ¬s.Live token) → s.freeChannelCount = kMaxChannels ∧
      ∀ group : ChannelGroup, s.groupToChannel group.toIndex = kNoChannel) := by
  have zero := capacityFailures_eq_zero.mpr clean
  obtain ⟨leaked, ok, within⟩ := reachable_consistent reached (by rw [zero]; decide)
  have none : ∀ channel, leaked channel = 0 := by
    intro channel
    have leak := within channel
    omega
  refine ⟨?_, ok.free_count, fun group _ bound => ok.group_maps_iff none group bound,
    ok.group_absent_iff none, ok.all_free none⟩
  intro channel bound
  rw [ok.refCount channel bound, none, Nat.add_zero]
  rfl

def sampleCalls : List Call :=
  [.acquireGroup .Group0, .acquireGroup .Group0, .acquire, .release ⟨1⟩, .release ⟨7⟩]

/-- One live group member and one exclusive token after five calls, the last of which throws. -/
theorem registry_accounting_sample :
    let s := (TokenRegistry.initial.callAll sampleCalls).2
    (s.groupToChannel ChannelGroup.Group0.toIndex = 3 ∧ s.channelRefCount 3 = 1) ∧
      s.freeChannelStack.count 3 = 0 := by
  have facts := registry_accounting (callAll_reaches .nil sampleCalls) (by decide)
  refine ⟨⟨rfl, rfl⟩, ?_⟩
  exact (facts.2.1 3).trans rfl

end Accounting

/-! Which failing calls leave the registry as they found it. -/

section Atomicity

variable {origin : Nat → Option Origin} {leaked : Nat → Nat} {s : TokenRegistry}

namespace TokenRegistry

structure SameState (s after : TokenRegistry) : Prop where
  freeChannels : after.freeChannelStack = s.freeChannelStack
  refCounts : ∀ channel, channel < kMaxChannels →
    after.channelRefCount channel = s.channelRefCount channel
  modes : ∀ channel, channel < kMaxChannels → 0 < s.channelRefCount channel →
    after.channelMode channel = s.channelMode channel
  groups : ∀ group : ChannelGroup,
    after.groupToChannel group.toIndex = s.groupToChannel group.toIndex
  nextToken : after.nextToken = s.nextToken
  freeTokens : after.freeTokenStack = s.freeTokenStack
  tokenUsed : after.tokenUsed = s.tokenUsed
  tokenToChannel : after.tokenToChannel = s.tokenToChannel

theorem SameState.refl (s : TokenRegistry) : SameState s s :=
  ⟨rfl, fun _ _ => rfl, fun _ _ _ => rfl, fun _ => rfl, rfl, rfl, rfl, rfl⟩

def FailureAtomic (s : TokenRegistry) (call : Call) : Prop :=
  ∀ what, (s.call call).1 = .failed (.throws what) → SameState s (s.call call).2

theorem Sound.spared_iff (ok : Sound s) (call : Call) :
    s.FailureAtomic call ↔ ¬(s.Available call ∧ s.TokensExhausted) := by
  have result := ok.call_result call
  unfold FailureAtomic
  generalize s.call call = ended at result
  cases result with
  | refused _ unavailable =>
      exact ⟨fun _ both => unavailable both.1, fun _ _ _ => .refl s⟩
  | @leaks _ channel _ step exhausted =>
      constructor
      · intro atomic _
        have counted := (atomic "TokenRegistry capacity exceeded" rfl).refCounts channel
          (ok.attach step).1
        rw [ok.attach_counts step] at counted
        grind
      · exact fun spared => absurd ⟨step.available, exhausted⟩ spared
  | grants _ spare => exact ⟨fun _ both => spare both.2, fun _ what failed => by simp at failed⟩
  | takesBack => exact ⟨fun _ both => both.1, fun _ what failed => by simp at failed⟩
  | uncounted =>
      exact ⟨fun _ both => both.1, fun _ what failed => by simp [refCountUnderflow] at failed⟩

end TokenRegistry

/-- A call that throws changes nothing exactly when it is not an `acquire` that finds a
channel while every token is handed out. -/
theorem failure_atomic_iff {trace : List (Call × Outcome)} {s : TokenRegistry}
    (reached : RegistryReaches trace s) (call : Call) :
    s.FailureAtomic call ↔ ¬(s.Available call ∧ s.TokensExhausted) := by
  exact (reachable_sound reached).spared_iff call

def fullCalls : List Call :=
  [.acquireGroup .Group0, .acquireGroup .Group1, .acquire, .acquireGroup .Group1, .acquire]

theorem failure_atomic_full :
    let s := (TokenRegistry.initial.callAll fullCalls).2
    (s.call .acquire).1 = .failed noFreeChannels ∧ s.FailureAtomic .acquire ∧
      (s.call (.release ⟨9⟩)).1 = .failed releaseInvalid ∧ s.FailureAtomic (.release ⟨9⟩) := by
  refine ⟨by decide, ?_, by decide, ?_⟩
  · exact (failure_atomic_iff (callAll_reaches .nil fullCalls) .acquire).mpr (by decide)
  · exact (failure_atomic_iff (callAll_reaches .nil fullCalls) (.release ⟨9⟩)).mpr
      fun both => both.1

def crowdedRegistry : TokenRegistry :=
  (TokenRegistry.initial.callAll (List.replicate kMaxBindings (.acquireGroup .Group0))).2

/-- With every token handed out, `acquire()` takes a channel off the free stack and counts
it before `allocateToken` throws. -/
theorem failure_not_atomic :
    (∃ trace, RegistryReaches trace crowdedRegistry) ∧
      (crowdedRegistry.call .acquire).1 = .failed capacityExceeded ∧
      crowdedRegistry.freeChannelCount = 3 ∧
      (crowdedRegistry.call .acquire).2.freeChannelCount = 2 ∧
      ¬crowdedRegistry.FailureAtomic .acquire := by
  refine ⟨⟨_, callAll_reaches .nil _⟩, by decide +kernel, by decide +kernel, by decide +kernel, ?_⟩
  intro atomic
  have kept := (atomic "TokenRegistry capacity exceeded" (by decide +kernel)).refCounts 2 (by decide)
  have before : crowdedRegistry.channelRefCount 2 = 0 := by decide +kernel
  have after : (crowdedRegistry.call .acquire).2.channelRefCount 2 = 1 := by decide +kernel
  rw [before, after] at kept
  exact absurd kept (by decide)

end Atomicity

end MyServer
