import MyServer.TokenRegistryRuns

/-!
How a count wraps. With every token handed out, a join of a group in use throws after it has
counted itself, so the count of the group's channel grows with every such call.
-/

namespace MyServer

open TokenRegistry

namespace TokenRegistry

/-- The registry after `count` calls have each leaked a reference to a shared channel. -/
def leakedBy (s : TokenRegistry) (channel count : Nat) : TokenRegistry :=
  s.setReferences channel (s.channelRefCount channel + UInt64.ofNat count) .Shared

variable {s : TokenRegistry} {group : ChannelGroup} {channel : Nat}

theorem leakedBy_zero (shared : s.channelMode channel = .Shared) : s.leakedBy channel 0 = s := by
  have none : s.channelRefCount channel + UInt64.ofNat 0 = s.channelRefCount channel :=
    UInt64.add_zero _
  rw [leakedBy, setReferences, none, Function.update_eq_self, ← shared, Function.update_eq_self]

/-- A join with no token left throws and leaves one more reference, as long as the count of
the channel is not zero. -/
theorem leakedBy_call (exhausted : s.TokensExhausted)
    (entry : s.groupToChannel group.toIndex = channel) (bound : channel < kMaxChannels) {count : Nat}
    (used : s.channelRefCount channel + UInt64.ofNat count ≠ 0) :
    (s.leakedBy channel count).call (.acquireGroup group) =
      (.failed capacityExceeded, s.leakedBy channel (count + 1)) := by
  have counted : (s.leakedBy channel count).channelRefCount channel =
      s.channelRefCount channel + UInt64.ofNat count := by
    simp [leakedBy, setReferences]
  have entry' : (s.leakedBy channel count).groupToChannel group.toIndex = channel := entry
  have opened : (s.leakedBy channel count).GroupOpen group := by
    rw [GroupOpen, entry', counted]
    exact ⟨ne_kNoChannel bound, UInt64.pos_iff_ne_zero.mpr used⟩
  have next : (s.leakedBy channel count).setReferences channel
      (s.channelRefCount channel + UInt64.ofNat count + 1) .Shared =
        s.leakedBy channel (count + 1) := by
    have successor : UInt64.ofNat (count + 1) = UInt64.ofNat count + 1 := UInt64.ofNat_add _ _
    simp only [leakedBy, setReferences, Function.update_idem, successor, UInt64.add_assoc]
  have spent : takeToken (s.leakedBy channel (count + 1)) = none := by
    have empty : (s.leakedBy channel (count + 1)).freeTokenCount = 0 := exhausted.1
    have full : (s.leakedBy channel (count + 1)).nextToken = kMaxBindings := exhausted.2
    simp [takeToken, empty, full]
  have ran := acquireGroup_join opened (entry' ▸ bound)
  rw [entry', counted, next, allocateToken_eq channel, spent] at ran
  · simp [TokenRegistry.call, ran]
  · rw [show (s.leakedBy channel (count + 1)).freeTokenCount = 0 from exhausted.1]
    exact Nat.zero_le _
  · simp [spent]

def wrapping (count : UInt64) : Nat := 2 ^ 64 - count.toNat

theorem leaked_ne_zero {count : UInt64} (used : count ≠ 0) {leaks : Nat}
    (below : leaks < wrapping count) : count + UInt64.ofNat leaks ≠ 0 := by
  intro zero
  have positive : count.toNat ≠ 0 := fun none => used (UInt64.toNat_inj.mp none)
  have sum := congrArg UInt64.toNat zero
  have small : count.toNat + leaks < 2 ^ 64 := by
    unfold wrapping at below
    omega
  have size : leaks < 2 ^ 64 := by omega
  rw [UInt64.toNat_add, UInt64.toNat_ofNat', Nat.mod_eq_of_lt size, Nat.mod_eq_of_lt small] at sum
  change count.toNat + leaks = 0 at sum
  omega

theorem leakedBy_wrapping (used : s.channelRefCount channel ≠ 0) :
    s.leakedBy channel (wrapping (s.channelRefCount channel)) =
      s.setReferences channel 0 .Shared := by
  have positive : (s.channelRefCount channel).toNat ≠ 0 :=
    fun none => used (UInt64.toNat_inj.mp none)
  have sum : s.channelRefCount channel + UInt64.ofNat (wrapping (s.channelRefCount channel)) = 0 := by
    have limit := UInt64.toNat_lt (s.channelRefCount channel)
    apply UInt64.toNat_inj.mp
    have size : wrapping (s.channelRefCount channel) < 2 ^ 64 := by
      unfold wrapping
      omega
    rw [UInt64.toNat_add, UInt64.toNat_ofNat', Nat.mod_eq_of_lt size]
    unfold wrapping
    change _ = 0
    omega
  rw [leakedBy, sum]

/-- Throwing joins until the count is zero again. -/
theorem wraps {before : List (Call × Outcome)} (exhausted : s.TokensExhausted)
    (entry : s.groupToChannel group.toIndex = channel) (bound : channel < kMaxChannels)
    (shared : s.channelMode channel = .Shared) (used : s.channelRefCount channel ≠ 0) :
    registryMachine.Path EventMachine.anyAction before s
      (List.replicate (wrapping (s.channelRefCount channel))
        (.acquireGroup group, .failed capacityExceeded))
      (s.setReferences channel 0 .Shared) := by
  have path : registryMachine.Path EventMachine.anyAction before (s.leakedBy channel 0)
      (List.replicate (wrapping (s.channelRefCount channel))
        (.acquireGroup group, .failed capacityExceeded))
      (s.leakedBy channel (wrapping (s.channelRefCount channel))) := by
    refine .repeated (.acquireGroup group) (s.leakedBy channel) _ (fun _ _ _ => trivial)
      fun leaks below => ?_
    have ran := leakedBy_call exhausted entry bound (leaked_ne_zero used below)
    simp only [registryMachine, ran]
  rwa [leakedBy_zero shared, leakedBy_wrapping used] at path

end TokenRegistry

def exhaustingCalls : List Call :=
  List.replicate 255 (.acquireGroup .Group0) ++ [.acquire]

def exhaustedRegistry : TokenRegistry := (TokenRegistry.initial.callAll exhaustingCalls).2

theorem exhaustedRegistry_facts :
    exhaustedRegistry.TokensExhausted ∧
      exhaustedRegistry.groupToChannel ChannelGroup.Group0.toIndex = 3 ∧
      exhaustedRegistry.channelMode 3 = .Shared ∧ exhaustedRegistry.channelRefCount 3 = 255 := by
  decide +kernel

def wrappedRegistry : TokenRegistry := exhaustedRegistry.setReferences 3 0 .Shared

def wrappingTrace : List (Call × Outcome) :=
  (TokenRegistry.initial.callAll exhaustingCalls).1 ++
    List.replicate (wrapping 255) (.acquireGroup .Group0, .failed capacityExceeded)

theorem wrappedRegistry_reaches : RegistryReaches wrappingTrace wrappedRegistry := by
  obtain ⟨exhausted, entry, shared, counted⟩ := exhaustedRegistry_facts
  have start : RegistryReaches [] TokenRegistry.initial := .nil
  have reached := callAll_reaches start exhaustingCalls
  rw [List.nil_append, ← exhaustedRegistry] at reached
  have bound : 3 < kMaxChannels := by decide
  have used : exhaustedRegistry.channelRefCount 3 ≠ 0 := by
    rw [counted]
    decide
  have wrapped := reached.extend (wraps exhausted entry bound shared used)
  rwa [counted] at wrapped

theorem originOf_joins (trace : List (Call × Outcome)) (count : Nat) (group : ChannelGroup)
    (failure : Failure) :
    originOf (trace ++ List.replicate count (.acquireGroup group, .failed failure)) =
      originOf trace := by
  induction count with
  | zero => rw [List.replicate_zero, List.append_nil]
  | succ count ih =>
      rw [List.replicate_succ', ← List.append_assoc, originOf_append]
      exact ih

theorem wrappingTrace_origin :
    originOf wrappingTrace = originOf (TokenRegistry.initial.callAll exhaustingCalls).1 :=
  originOf_joins ..

end MyServer
