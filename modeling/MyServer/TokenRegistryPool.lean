import MyServer.TokenRegistryWrap

/-!
The token pool: which tokens are on the free stack, which calls return, and which of the
guards can fail.
-/

namespace MyServer

namespace TokenRegistry

variable {s : TokenRegistry}

def liveTokens (s : TokenRegistry) : Finset Nat := (Finset.range s.nextToken).filter s.Live

theorem Sound.live_card_lt (ok : Sound s) :
    s.liveTokens.card < kMaxBindings ↔ ¬s.TokensExhausted := by
  have partition : s.freeTokenCount + s.liveTokens.card = s.nextToken := ok.tokens_partition
  have bound := ok.nextBound
  unfold TokensExhausted
  omega

theorem Sound.acquiring_returns (ok : Sound s) {call : Call} {owner : Origin}
    (acquiring : ownerOf call = some owner) :
    (∃ token, (s.call call).1 = .returned token) ↔
      s.Available call ∧ s.liveTokens.card < kMaxBindings := by
  rw [ok.live_card_lt]
  have result := ok.call_result call
  generalize s.call call = ended at result
  cases result with
  | refused _ unavailable => simp [unavailable]
  | leaks _ exhausted => simp [exhausted]
  | grants step spare => simp [step.available, spare]
  | takesBack | uncounted => simp [ownerOf] at acquiring

theorem Sound.returned_dead (ok : Sound s) {call : Call} {token : PublishToken}
    (returned : (s.call call).1 = .returned token) : ¬s.Live token.value := by
  have result := ok.call_result call
  generalize s.call call = ended at result returned
  cases result with
  | grants step _ taken =>
      obtain rfl := Outcome.returned.inj returned
      have fresh := (ok.attach step).2.taken_fresh taken
      rw [step.pool.2.2.2.1] at fresh
      simp [Live, fresh]
  | refused | leaks | takesBack | uncounted => simp at returned

/-- `release` also needs the channel to be counted still. -/
theorem Sound.released_iff (ok : Sound s) (token : PublishToken) :
    (s.call (.release token)).1 = .released ↔
      s.Live token.value ∧ s.channelRefCount (s.tokenToChannel token.value) ≠ 0 := by
  by_cases live : s.Live token.value
  · by_cases unused : s.channelRefCount (s.tokenToChannel token.value) = 0
    · simp [ok.call_release_uncounted live unused, unused]
    · simp [ok.call_release_live live unused, live, unused]
  · rcases ok.call_release_dead live with ran | ran <;> simp [ran, live]

theorem Sound.release_fails (ok : Sound s) {token : PublishToken} {failure : Failure}
    (failed : (s.call (.release token)).1 = .failed failure) :
    (s.call (.release token)).2 = s := by
  have result := ok.call_result (.release token)
  generalize s.call (.release token) = ended at result failed
  cases result with
  | refused | uncounted => rfl
  | leaks step => cases step
  | grants | takesBack => simp at failed

def documented : List Failure := [noFreeChannels, capacityExceeded, releaseInvalid, releaseFree]

theorem Sound.call_fails (ok : Sound s) {call : Call} {failure : Failure}
    (failed : (s.call call).1 = .failed failure) :
    failure ∈ documented ∨ failure = refCountUnderflow ∧
      ∃ token : PublishToken, call = .release token ∧ s.Live token.value ∧
        s.channelRefCount (s.tokenToChannel token.value) = 0 := by
  have result := ok.call_result call
  generalize s.call call = ended at result failed
  cases result with
  | refused known =>
      obtain rfl := Outcome.failed.inj failed
      left
      simp only [documented, List.mem_cons, List.not_mem_nil, or_false] at known ⊢
      tauto
  | leaks =>
      obtain rfl := Outcome.failed.inj failed
      exact .inl (by simp [documented])
  | uncounted live unused =>
      obtain rfl := Outcome.failed.inj failed
      exact .inr ⟨rfl, _, rfl, live, unused⟩
  | grants | takesBack => simp at failed

theorem Sound.resolves (ok : Sound s) {token : PublishToken} (live : s.Live token.value) :
    resolve token s = .ok (s.tokenToChannel token.value) s :=
  resolve_live live.1 (ok.live_bound live) live.2

structure PoolExact (s : TokenRegistry) : Prop where
  nodup : s.freeTokenStack.Nodup
  lists : ∀ token, token ∈ s.freeTokenStack ↔ token < s.nextToken ∧ s.tokenUsed token = false
  nextBound : s.nextToken ≤ kMaxBindings

end TokenRegistry

open TokenRegistry

/-- The free token stack is exact, an acquiring call returns exactly when a channel and a token
are at hand, and a call that fails throws one of the four documented exceptions, with no access
out of bounds. Only the assertion on the count in `release` can fail besides, and it does not
as long as fewer than `2 ^ 64 - 256` calls have run out of tokens. -/
theorem token_pool_exact {trace : List (Call × Outcome)} {s : TokenRegistry}
    (reached : RegistryReaches trace s) :
    s.PoolExact ∧
    ((∃ token, (s.call .acquire).1 = .returned token) ↔
      0 < s.freeChannelCount ∧ s.liveTokens.card < kMaxBindings) ∧
    (∀ group, (∃ token, (s.call (.acquireGroup group)).1 = .returned token) ↔
      ((s.groupToChannel group.toIndex ≠ kNoChannel ∧
          0 < s.channelRefCount (s.groupToChannel group.toIndex)) ∨ 0 < s.freeChannelCount) ∧
        s.liveTokens.card < kMaxBindings) ∧
    (∀ call token, (s.call call).1 = .returned token → ¬s.Live token.value) ∧
    (∀ call failure, (s.call call).1 = .failed failure →
      failure ∈ documented ∨ failure = refCountUnderflow) ∧
    (∀ token, s.Live token.value → resolve token s = .ok (s.tokenToChannel token.value) s) ∧
    (capacityFailures trace < 2 ^ 64 - kMaxBindings →
      (∀ token, s.Live token ↔ (originOf trace token).isSome = true) ∧
      (∀ token, (s.call (.release token)).1 = .released ↔ s.Live token.value) ∧
      ∀ call failure, (s.call call).1 = .failed failure → failure ∈ documented) := by
  have sound := reachable_sound reached
  refine ⟨⟨sound.freeTokensNodup, sound.freeTokensExact, sound.nextBound⟩,
    sound.acquiring_returns rfl, fun _ => sound.acquiring_returns rfl,
    fun _ _ => sound.returned_dead, fun _ _ failed => (sound.call_fails failed).imp_right And.left,
    fun _ => sound.resolves, fun few => ?_⟩
  obtain ⟨leaked, ok, _⟩ := reachable_consistent reached few
  refine ⟨fun _ => ok.live_iff_origin, fun token => ?_, fun call failure failed => ?_⟩
  · rw [sound.released_iff]
    exact and_iff_left_of_imp ok.ref_ne_zero
  · rcases sound.call_fails failed with known | ⟨_, token, _, live, unused⟩
    · exact known
    · exact absurd unused (ok.ref_ne_zero live)

/-- A live member of a group whose channel's count has wrapped cannot be released: the
assertion on the count fails. -/
theorem token_pool_underflows :
    RegistryReaches wrappingTrace wrappedRegistry ∧ wrappedRegistry.Live 0 ∧
      (wrappedRegistry.call (.release ⟨0⟩)).1 = .failed refCountUnderflow :=
  ⟨wrappedRegistry_reaches, by decide +kernel, by decide +kernel⟩

def poolCalls : List Call :=
  [.acquireGroup .Group1, .acquireGroup .Group1, .acquire, .acquireGroup .Group1, .release ⟨1⟩]

theorem token_pool_exact_sample :
    let s := (TokenRegistry.initial.callAll poolCalls).2
    s.freeTokenStack = [1] ∧ s.PoolExact ∧
      (∃ token, (s.call (.acquireGroup .Group1)).1 = .returned token) ∧
      (s.call (.release ⟨1⟩)).1 ≠ .released := by
  have facts := token_pool_exact (callAll_reaches .nil poolCalls)
  obtain ⟨_, releases, _⟩ := facts.2.2.2.2.2.2 (by decide)
  refine ⟨by decide, facts.1, (facts.2.2.1 .Group1).mpr ?_, ?_⟩
  · exact ⟨.inr (by decide), by decide⟩
  · exact fun released => absurd ((releases ⟨1⟩).mp released) (by decide)

end MyServer
