import MyServer.TokenRegistryChecks

/-!
Runs of `TokenRegistry`: any finite sequence of `acquire()`, `acquire(g)` and `release(t)`
calls, those that throw included. The history of a run says how each live token was obtained.
A call that runs out of tokens leaks one reference, so the counts are exact until that has
happened `2 ^ 64 - 256` times.
-/

namespace MyServer

open TokenRegistry

def recordOrigin (origin : Nat → Option Origin) : Call × Outcome → (Nat → Option Origin)
  | (.acquire, .returned token) => Function.update origin token.value (some .exclusive)
  | (.acquireGroup group, .returned token) =>
      Function.update origin token.value (some (.group group))
  | (.release token, .released) => Function.update origin token.value none
  | _ => origin

def originOf (history : List (Call × Outcome)) : Nat → Option Origin :=
  history.foldl recordOrigin fun _ => none

theorem originOf_append (history later : List (Call × Outcome)) :
    originOf (history ++ later) = later.foldl recordOrigin (originOf history) := by
  simp [originOf]

theorem recordOrigin_failed (origin : Nat → Option Origin) (call : Call) (failure : Failure) :
    recordOrigin origin (call, .failed failure) = origin := by
  cases call <;> rfl

theorem recordOrigin_returned {call : Call} {owner : Origin}
    (acquiring : ownerOf call = some owner) (origin : Nat → Option Origin)
    (token : PublishToken) :
    recordOrigin origin (call, .returned token) =
      Function.update origin token.value (some owner) := by
  cases call <;> simp_all [ownerOf, recordOrigin]

def capacityFailures (history : List (Call × Outcome)) : Nat :=
  history.countP fun event => event.2 = .failed capacityExceeded

theorem capacityFailures_append (history later : List (Call × Outcome)) :
    capacityFailures (history ++ later) = capacityFailures history + capacityFailures later :=
  List.countP_append ..

theorem capacityFailures_eq_zero {history : List (Call × Outcome)} :
    capacityFailures history = 0 ↔ ∀ event ∈ history, event.2 ≠ .failed capacityExceeded := by
  simp [capacityFailures, List.countP_eq_zero]

namespace TokenRegistry

variable {origin : Nat → Option Origin} {leaked : Nat → Nat} {s : TokenRegistry}

theorem Consistent.attach (ok : Consistent origin leaked s) {call : Call} {owner : Origin}
    {channel : Nat} {next : TokenRegistry} (step : AttachStep s call channel next)
    (acquiring : ownerOf call = some owner)
    (fits : (s.channelRefCount channel).toNat + 1 < 2 ^ 64) :
    Consistent origin (gain leaked channel) next ∧ next.Offers channel owner := by
  cases step with
  | exclusive counted =>
      obtain rfl : Origin.exclusive = owner := by simpa [ownerOf] using acquiring
      obtain ⟨bound, free⟩ := ok.top_free counted
      exact ⟨ok.reserve _ counted, by simp [setReferences],
        fun group => ok.group_ne_free bound free group⟩
  | @opens group count closed counted =>
      obtain rfl : Origin.group group = owner := by simpa [ownerOf] using acquiring
      obtain ⟨bound, free⟩ := ok.top_free counted
      have absent : s.groupToChannel group.toIndex = kNoChannel := by
        rw [ok.group_open_iff] at closed
        exact not_not.mp closed
      refine ⟨(ok.reserve .Shared counted).assignGroup absent bound ?_
        (ok.group_ne_free bound free) fun token live => ok.token_ne_free live free, ?_⟩
      · simp [setReferences]
      · simp [Offers]
  | @joins group opened =>
      obtain rfl : Origin.group group = owner := by simpa [ownerOf] using acquiring
      obtain ⟨bound, used⟩ := ok.group_used opened
      exact ⟨ok.join _ rfl bound used fits, rfl⟩

instance (s : TokenRegistry) : Decidable s.TokensExhausted :=
  inferInstanceAs (Decidable (_ ∧ _))

/-- With few leaks a count has room for one more reference: at most 256 tokens are live, and
one fewer while a token is left. -/
theorem Consistent.fits (ok : Consistent origin leaked s) {channel : Nat}
    (bound : channel < kMaxChannels)
    (few : leaked channel + (if s.TokensExhausted then 1 else 0) < 2 ^ 64 - kMaxBindings) :
    (s.channelRefCount channel).toNat + 1 < 2 ^ 64 := by
  have capacity : kMaxBindings = 256 := rfl
  have held := ok.toSound.boundTokens_card_le channel
  have limit := ok.nextBound
  rw [ok.refCount channel bound]
  split at few
  · omega
  · rename_i spare
    unfold TokensExhausted at spare
    omega

theorem Consistent.call_acquires (ok : Consistent origin leaked s) {call : Call}
    {owner : Origin} {channel : Nat} {next rest : TokenRegistry} {token : PublishToken}
    (acquiring : ownerOf call = some owner) (step : AttachStep s call channel next)
    (fits : (s.channelRefCount channel).toNat + 1 < 2 ^ 64)
    (taken : next.takeToken = some (token, rest)) :
    Consistent (Function.update origin token.value (some owner)) leaked
      (rest.bindToken token channel) := by
  obtain ⟨attached, offers⟩ := ok.attach step acquiring fits
  have bound := attached.bind taken (ok.toSound.attach step).1 (by simp [gain]) offers
  rwa [update_gain] at bound

theorem Consistent.call_releases (ok : Consistent origin leaked s) {token : PublishToken}
    (live : s.Live token.value) :
    Consistent (Function.update origin token.value none) leaked
      ((s.unbound token).dropped (s.tokenToChannel token.value)) := by
  have returned := (ok.unbind live).drop (ok.channelBound _ live.2) (by simp [gain])
  rwa [update_gain] at returned

/-- A call keeps the invariant while no count can wrap; only a call that runs out of tokens
leaks a reference. -/
theorem Consistent.call (ok : Consistent origin leaked s) (call : Call) {failures : Nat}
    (within : ∀ channel, leaked channel ≤ failures)
    (few : failures + capacityFailures [(call, (s.call call).1)] < 2 ^ 64 - kMaxBindings) :
    ∃ leaked', Consistent (recordOrigin origin (call, (s.call call).1)) leaked' (s.call call).2 ∧
      ∀ channel, leaked' channel ≤
        failures + capacityFailures [(call, (s.call call).1)] := by
  have result := ok.toSound.call_result call
  generalize s.call call = ended at result few ⊢
  have still : ∀ channel, leaked channel ≤ failures + capacityFailures [(call, ended.1)] :=
    fun channel => Nat.le_add_right_of_le (within channel)
  cases result with
  | refused => exact ⟨leaked, by rwa [recordOrigin_failed], still⟩
  | uncounted live unused => exact absurd unused (ok.ref_ne_zero live)
  | takesBack live => exact ⟨leaked, ok.call_releases live, still⟩
  | @grants _ channel _ _ _ step spare taken =>
      obtain ⟨owner, acquiring⟩ := step.owner
      have fits := ok.fits (ok.toSound.attach step).1 (by
        rw [if_neg spare]
        have leak := still channel
        omega)
      rw [recordOrigin_returned acquiring]
      exact ⟨leaked, ok.call_acquires acquiring step fits taken, still⟩
  | @leaks _ channel _ step exhausted =>
      obtain ⟨owner, acquiring⟩ := step.owner
      have failed : capacityFailures [(call, .failed capacityExceeded)] = 1 := by
        simp [capacityFailures]
      rw [failed] at few ⊢
      have fits := ok.fits (ok.toSound.attach step).1 (by
        rw [if_pos exhausted]
        have leak := within channel
        omega)
      refine ⟨gain leaked channel, ?_, fun other => ?_⟩
      · rw [recordOrigin_failed]
        exact (ok.attach step acquiring fits).1
      · have leak := within other
        rcases eq_or_ne other channel with rfl | different
        · simpa [gain] using leak
        · rw [gain, Function.update_of_ne different]
          omega

end TokenRegistry

section Runs

variable {trace : List (Call × Outcome)} {s : TokenRegistry}

/-- Every state reached before the capacity failures can make a count wrap is consistent, and
at most those failures have leaked a reference. -/
theorem reachable_consistent (reached : RegistryReaches trace s)
    (few : capacityFailures trace < 2 ^ 64 - kMaxBindings) :
    ∃ leaked, Consistent (originOf trace) leaked s ∧
      ∀ channel, leaked channel ≤ capacityFailures trace := by
  revert few
  refine EventMachine.Reaches.invariant reached (fun trace s =>
    capacityFailures trace < 2 ^ 64 - kMaxBindings →
      ∃ leaked, Consistent (originOf trace) leaked s ∧
        ∀ channel, leaked channel ≤ capacityFailures trace)
    (fun _ => ⟨fun _ => 0, initial_consistent, fun _ => Nat.zero_le _⟩) ?_
  intro trace s call next events before _ stepped few
  obtain ⟨rfl, rfl⟩ := Prod.mk.inj (Option.some.inj stepped)
  rw [capacityFailures_append] at few ⊢
  obtain ⟨leaked, ok, within⟩ := before (by omega)
  rw [originOf_append]
  exact ok.call call within few

end Runs

end MyServer
