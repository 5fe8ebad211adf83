import MyServer.RegistrationHandleCore

/-!
Every live token has exactly one owning handle. Ownership is a relation between handle
slots and the live tokens of a registry; a token enters it when a handle acquires it,
leaves it when the handle gives it back, and moves with the handle.
-/

namespace MyServer

open TokenRegistry

variable {RegistryId HandleId : Type}

/-- The token numbers below the capacity never equal the invalid token. -/
theorem ne_kInvalidToken {token : Nat} (bound : token < kMaxBindings) :
    token ≠ kInvalidToken.value := by
  have small : kMaxBindings < kInvalidToken.value := by decide
  omega

/-- What an acquiring call does to the set of live tokens. -/
theorem TokenRegistry.Sound.acquire_live {s : TokenRegistry} (ok : Sound s) {call : Call}
    {owner : Origin} (acquiring : ownerOf call = some owner) :
    (∃ token, (s.call call).1 = .returned token ∧ ¬s.Live token.value ∧
        ∀ t, (s.call call).2.Live t ↔ t = token.value ∨ s.Live t) ∨
      (∃ what, (s.call call).1 = .failed (.throws what)) ∧
        ∀ t, (s.call call).2.Live t ↔ s.Live t := by
  have okNext := ok.call call
  simp only [okNext.live_iff]
  have result := ok.call_result call
  generalize s.call call = ended at result okNext
  cases result with
  | refused => exact .inr ⟨⟨_, rfl⟩, fun _ => ok.live_iff.symm⟩
  | leaks step =>
      refine .inr ⟨⟨_, rfl⟩, fun t => ?_⟩
      rw [step.pool.2.2.2.1]
      exact ok.live_iff.symm
  | @grants _ channel _ token _ step _ taken =>
      obtain ⟨_, _, _, used, _⟩ := step.pool
      have fresh := (ok.attach step).2.taken_fresh taken
      rw [used] at fresh
      refine .inl ⟨token, rfl, by simp [Live, fresh], fun t => ?_⟩
      rw [(bindToken_frame channel taken).2.2.2.1, used, ok.live_iff]
      by_cases same : t = token.value <;> simp [same]
  | takesBack | uncounted => simp [ownerOf] at acquiring

/-- A live token is given back, or the assertion on its channel's count fails. -/
theorem TokenRegistry.Sound.release_live {s : TokenRegistry} (ok : Sound s)
    {token : PublishToken} (live : s.Live token.value) :
    (∃ after, s.call (.release token) = (.released, after) ∧ Sound after ∧
      ∀ t, after.Live t ↔ t ≠ token.value ∧ s.Live t) ∨
    s.call (.release token) = (.failed refCountUnderflow, s) := by
  by_cases unused : s.channelRefCount (s.tokenToChannel token.value) = 0
  · exact .inr (ok.call_release_uncounted live unused)
  · have ran := ok.call_release_live live unused
    have okNext := ok.call (.release token)
    rw [ran] at okNext
    refine .inl ⟨_, ran, okNext, fun t => ?_⟩
    have used : ((s.unbound token).dropped (s.tokenToChannel token.value)).tokenUsed =
        Function.update s.tokenUsed token.value false := by
      unfold dropped
      split <;> rfl
    rw [okNext.live_iff, ok.live_iff, used]
    by_cases same : t = token.value <;> simp [same]

def Holds (handles : HandleId → Option (RegistrationHandle RegistryId)) (slot : HandleId)
    (registry : RegistryId) (token : Nat) : Prop :=
  handles slot = some ⟨some registry, ⟨token⟩⟩ ∧ token ≠ kInvalidToken.value

def Idle (handles : HandleId → Option (RegistrationHandle RegistryId)) (slot : HandleId) : Prop :=
  ∀ registry token, ¬Holds handles slot registry token

/-- Ownership after a trace: the valid handles of a registry and its live tokens correspond
one to one, and every token has been acquired as often as released, once more while live. -/
structure Owned [DecidableEq RegistryId] (trace : List (HandleEvent RegistryId))
    (world : HandleWorld RegistryId HandleId) : Prop where
  sound : ∀ registry, Sound (world.registries registry)
  live : ∀ slot registry token, Holds world.handles slot registry token →
    (world.registries registry).Live token
  unique : ∀ left right registry token, Holds world.handles left registry token →
    Holds world.handles right registry token → left = right
  covered : ∀ registry token, (world.registries registry).Live token →
    ∃ slot, Holds world.handles slot registry token
  ledger : ∀ registry (token : PublishToken),
    trace.count (.acquired registry token) = trace.count (.released registry token) +
      if (world.registries registry).Live token.value then 1 else 0
  quiet : ∀ registry failure, .caught registry failure ∉ trace

theorem holds_functional {handles : HandleId → Option (RegistrationHandle RegistryId)}
    {slot : HandleId} {registry other : RegistryId} {token token' : Nat}
    (first : Holds handles slot registry token) (second : Holds handles slot other token') :
    registry = other ∧ token = token' := by
  have same := first.1.symm.trans second.1
  simpa using same

theorem idle_of_none {handles : HandleId → Option (RegistrationHandle RegistryId)}
    {slot : HandleId} (empty : handles slot = none) : Idle handles slot := by
  rintro r token ⟨same, _⟩
  simp [empty] at same

theorem Owned.initial [DecidableEq RegistryId] :
    Owned [] (⟨fun _ => .initial, fun _ => none⟩ : HandleWorld RegistryId HandleId) := by
  have dead : ∀ token, ¬TokenRegistry.initial.Live token := by
    simp [Live, TokenRegistry.initial]
  constructor
  · exact fun _ => .initial
  · exact fun slot registry token holds => absurd holds (idle_of_none rfl registry token)
  · exact fun left right registry token holds _ => absurd holds (idle_of_none rfl registry token)
  · exact fun registry token live => absurd live (dead token)
  · simp [dead]
  · simp

def HandleWorld.validFor (world : HandleWorld RegistryId HandleId) (registry : RegistryId) :
    Set HandleId :=
  {slot | ∃ handle, world.handles slot = some handle ∧ handle.valid = true ∧
    handle.registry = some registry}

def HandleWorld.tokenOf (world : HandleWorld RegistryId HandleId) (slot : HandleId) :
    PublishToken :=
  ((world.handles slot).getD .detached).token

theorem validFor_iff_holds {world : HandleWorld RegistryId HandleId} {registry : RegistryId}
    {slot : HandleId} :
    slot ∈ world.validFor registry ↔
      Holds world.handles slot registry (world.tokenOf slot).value := by
  cases present : world.handles slot with
  | none => simp [HandleWorld.validFor, Holds, present]
  | some handle =>
      obtain ⟨attached, token⟩ := handle
      cases attached <;>
        simp [HandleWorld.validFor, HandleWorld.tokenOf, Holds, present, RegistrationHandle.valid,
          and_comm]

theorem holds_tokenOf {world : HandleWorld RegistryId HandleId} {registry : RegistryId}
    {slot : HandleId} {token : Nat}
    (holds : Holds world.handles slot registry token) : world.tokenOf slot = ⟨token⟩ := by
  simp [HandleWorld.tokenOf, holds.1]

variable [DecidableEq HandleId]

theorem holds_update_of_ne {handles : HandleId → Option (RegistrationHandle RegistryId)}
    {target slot : HandleId} {value : Option (RegistrationHandle RegistryId)} {registry : RegistryId}
    {token : Nat} (different : slot ≠ target) :
    Holds (Function.update handles target value) slot registry token ↔
      Holds handles slot registry token := by
  simp [Holds, different]

theorem idle_update_invalid (handles : HandleId → Option (RegistrationHandle RegistryId))
    (slot : HandleId) (registry : Option RegistryId) :
    Idle (Function.update handles slot (some ⟨registry, kInvalidToken⟩)) slot := by
  rintro r token ⟨same, different⟩
  simp only [Function.update_self, Option.some.injEq, RegistrationHandle.mk.injEq] at same
  exact different (by rw [same.2])

theorem idle_update_none (handles : HandleId → Option (RegistrationHandle RegistryId))
    (slot : HandleId) : Idle (Function.update handles slot none) slot := by
  rintro r token ⟨same, _⟩
  simp at same

variable [DecidableEq RegistryId]
variable {trace : List (HandleEvent RegistryId)} {world : HandleWorld RegistryId HandleId}

/-- Overwriting an idle slot by something that holds nothing changes no ownership. -/
theorem Owned.replace_idle (ok : Owned trace world) {slot : HandleId}
    (idle : Idle world.handles slot) {value : Option (RegistrationHandle RegistryId)}
    (still : Idle (Function.update world.handles slot value) slot) :
    Owned trace { world with handles := Function.update world.handles slot value } := by
  have same : ∀ other registry token,
      Holds (Function.update world.handles slot value) other registry token ↔
        Holds world.handles other registry token := by
    intro other registry token
    by_cases here : other = slot
    · subst here
      exact ⟨fun holds => absurd holds (still _ _), fun holds => absurd holds (idle _ _)⟩
    · exact holds_update_of_ne here
  refine { ok with live := ?_, unique := ?_, covered := ?_ }
  · exact fun other registry token holds => ok.live other registry token ((same _ _ _).mp holds)
  · exact fun left right registry token first second =>
      ok.unique left right registry token ((same _ _ _).mp first) ((same _ _ _).mp second)
  · intro registry token live
    obtain ⟨other, holds⟩ := ok.covered registry token live
    exact ⟨other, (same _ _ _).mpr holds⟩

theorem Owned.move (ok : Owned trace world) {target source : HandleId}
    {other : RegistrationHandle RegistryId} (different : target ≠ source)
    (idle : Idle world.handles target) (present : world.handles source = some other) :
    Owned trace { world with
      handles := Function.update (Function.update world.handles target (some other)) source
        (some .detached) } := by
  have moved : ∀ slot registry token,
      Holds (Function.update (Function.update world.handles target (some other)) source
        (some .detached)) slot registry token ↔
      slot ≠ source ∧ Holds world.handles (if slot = target then source else slot) registry token := by
    intro slot registry token
    by_cases atSource : slot = source
    · subst atSource
      constructor
      · exact fun holds => absurd holds (idle_update_invalid _ _ _ _ _)
      · exact fun holds => absurd rfl holds.1
    · rw [holds_update_of_ne atSource]
      by_cases atTarget : slot = target
      · subst atTarget
        simp [Holds, present, atSource]
      · rw [holds_update_of_ne atTarget]
        simp [atSource, atTarget]
  refine { ok with live := ?_, unique := ?_, covered := ?_ }
  · intro slot registry token holds
    exact ok.live _ registry token ((moved _ _ _).mp holds).2
  · intro left right registry token first second
    obtain ⟨leftSource, first⟩ := (moved _ _ _).mp first
    obtain ⟨rightSource, second⟩ := (moved _ _ _).mp second
    have same := ok.unique _ _ registry token first second
    split at same <;> split at same <;> simp_all
  · intro registry token live
    obtain ⟨slot, holds⟩ := ok.covered registry token live
    by_cases atSource : slot = source
    · subst atSource
      exact ⟨target, (moved _ _ _).mpr ⟨different, by simpa using holds⟩⟩
    · have notTarget : slot ≠ target := by
        rintro rfl
        exact idle _ _ holds
      exact ⟨slot, (moved _ _ _).mpr ⟨atSource, by simpa [notTarget] using holds⟩⟩

omit [DecidableEq RegistryId] in
theorem holds_given_back {handles : HandleId → Option (RegistrationHandle RegistryId)}
    {slot other : HandleId} {registry r : RegistryId} {t : Nat} :
    Holds (Function.update handles slot (some ⟨some registry, kInvalidToken⟩)) other r t ↔
      other ≠ slot ∧ Holds handles other r t := by
  by_cases here : other = slot
  · subst here
    simp [idle_update_invalid handles other (some registry) r t]
  · rw [holds_update_of_ne here]
    simp [here]

omit [DecidableEq RegistryId] in
theorem holds_taken {handles : HandleId → Option (RegistrationHandle RegistryId)}
    {slot other : HandleId} {registry r : RegistryId} {token : PublishToken} {t : Nat}
    (idle : Idle handles slot) (real : token.value ≠ kInvalidToken.value) :
    Holds (Function.update handles slot (some ⟨some registry, token⟩)) other r t ↔
      (other = slot ∧ r = registry ∧ t = token.value) ∨ Holds handles other r t := by
  by_cases here : other = slot
  · subst here
    have none := idle r t
    simp only [Holds, Function.update_self, Option.some.injEq, RegistrationHandle.mk.injEq,
      true_and]
    constructor
    · rintro ⟨⟨rfl, rfl⟩, _⟩
      exact Or.inl ⟨rfl, rfl⟩
    · rintro (⟨rfl, rfl⟩ | held)
      · exact ⟨⟨rfl, rfl⟩, real⟩
      · exact absurd held none
  · rw [holds_update_of_ne here]
    simp [here]

theorem live_update {registries : RegistryId → TokenRegistry} {after : TokenRegistry}
    {registry other : RegistryId} {t : Nat} :
    (Function.update registries registry after other).Live t ↔
      if other = registry then after.Live t else (registries other).Live t := by
  by_cases same : other = registry
  · subst same
    simp
  · simp [same]

omit [DecidableEq HandleId] in
/-- The ledger after a call on one token: only that token's entry moves. -/
theorem Owned.ledger_update (ok : Owned trace world) {registry : RegistryId}
    {token : PublishToken} {after : TokenRegistry} {event : HandleEvent RegistryId}
    (others : ∀ t, t ≠ token.value → (after.Live t ↔ (world.registries registry).Live t))
    (concerns : ∀ r t, (event = .acquired r t ∨ event = .released r t) → r = registry ∧ t = token)
    (balanced : (trace ++ [event]).count (.acquired registry token) =
      (trace ++ [event]).count (.released registry token) +
        if after.Live token.value then 1 else 0) (r : RegistryId) (t : PublishToken) :
    (trace ++ [event]).count (.acquired r t) = (trace ++ [event]).count (.released r t) +
      if (Function.update world.registries registry after r).Live t.value then 1 else 0 := by
  by_cases same : r = registry ∧ t = token
  · obtain ⟨rfl, rfl⟩ := same
    simpa using balanced
  · have notAcquired : event ≠ .acquired r t := fun here => same (concerns r t (.inl here))
    have notReleased : event ≠ .released r t := fun here => same (concerns r t (.inr here))
    have kept : (Function.update world.registries registry after r).Live t.value ↔
        (world.registries r).Live t.value := by
      rw [live_update]
      split
      · rename_i here
        subst here
        exact others t.value fun equal => same ⟨rfl, PublishToken.ext equal⟩
      · exact Iff.rfl
    simp only [List.count_append, kept]
    simpa [List.count_singleton, notAcquired, notReleased] using ok.ledger r t

/-- The token of a valid handle goes back to its registry. -/
theorem Owned.given_back (ok : Owned trace world) {slot : HandleId} {registry : RegistryId}
    {token : PublishToken} (holds : Holds world.handles slot registry token.value)
    {after : TokenRegistry} (sound : Sound after)
    (liveAfter : ∀ t, after.Live t ↔ t ≠ token.value ∧ (world.registries registry).Live t) :
    Owned (trace ++ [.released registry token])
      { registries := Function.update world.registries registry after
        handles := Function.update world.handles slot (some ⟨some registry, kInvalidToken⟩) } := by
  have live := ok.live slot registry token.value holds
  have liveIff : ∀ other t, (Function.update world.registries registry after other).Live t ↔
      ¬(other = registry ∧ t = token.value) ∧ (world.registries other).Live t := by
    intro other t
    rw [live_update]
    split
    · rename_i here
      simp [here, liveAfter]
    · rename_i elsewhere
      simp [elsewhere]
  constructor
  case sound =>
    exact fun other => after_update Sound sound fun _ => ok.sound other
  case live =>
    intro other r t heldAfter
    obtain ⟨different, held⟩ := holds_given_back.mp heldAfter
    refine (liveIff _ _).mpr ⟨?_, ok.live _ _ _ held⟩
    rintro ⟨sameRegistry, sameToken⟩
    rw [sameRegistry, sameToken] at held
    exact different (ok.unique _ _ _ _ held holds)
  case unique =>
    intro left right r t first second
    exact ok.unique _ _ r t (holds_given_back.mp first).2 (holds_given_back.mp second).2
  case covered =>
    intro r t liveT
    obtain ⟨different, liveT⟩ := (liveIff _ _).mp liveT
    obtain ⟨other, held⟩ := ok.covered r t liveT
    refine ⟨other, holds_given_back.mpr ⟨?_, held⟩⟩
    rintro rfl
    obtain ⟨rfl, rfl⟩ := holds_functional held holds
    exact different ⟨rfl, rfl⟩
  case ledger =>
    have others : ∀ t, t ≠ token.value → (after.Live t ↔ (world.registries registry).Live t) := by
      intro t different
      simp [liveAfter, different]
    refine ok.ledger_update others ?_ ?_
    · rintro r t (here | here)
      · cases here
      · cases here
        exact ⟨rfl, rfl⟩
    · simpa [liveAfter, live] using ok.ledger registry token
  case quiet => simpa using ok.quiet

omit [DecidableEq HandleId] in
theorem Owned.aborted (ok : Owned trace world) (assertion : String) :
    Owned (trace ++ [.aborted assertion]) world :=
  { ok with
    ledger := by simpa using ok.ledger
    quiet := by simpa using ok.quiet }

/-- `release()` gives the handle's token back and leaves the slot idle, or it stops at a failed
assertion with nothing changed. -/
theorem Owned.release (ok : Owned trace world) {slot : HandleId}
    {handle : RegistrationHandle RegistryId} (present : world.handles slot = some handle) :
    (∃ registries events, handle.release world.registries =
        (registries, some { handle with token := kInvalidToken }, events) ∧
      Owned (trace ++ events)
        { registries := registries
          handles := Function.update world.handles slot
            (some { handle with token := kInvalidToken }) }) ∨
    ∃ assertion, handle.release world.registries =
      (world.registries, none, [.aborted assertion]) := by
  obtain ⟨attached, token⟩ := handle
  cases attached with
  | none =>
      have idle : Idle world.handles slot := by
        rintro registry value ⟨same, _⟩
        simp [present] at same
      refine .inl ⟨world.registries, [], rfl, ?_⟩
      simpa using ok.replace_idle idle (idle_update_invalid _ _ _)
  | some registry =>
      by_cases invalid : token.value = kInvalidToken.value
      · have idle : Idle world.handles slot := by
          rintro other value ⟨same, different⟩
          rw [present] at same
          simp only [Option.some.injEq, RegistrationHandle.mk.injEq] at same
          exact different (by rw [← invalid, same.2])
        refine .inl ⟨world.registries, [], by simp [RegistrationHandle.release, invalid], ?_⟩
        simpa using ok.replace_idle idle (idle_update_invalid _ _ _)
      · have holds : Holds world.handles slot registry token.value := ⟨present, invalid⟩
        have live := ok.live slot registry token.value holds
        rcases (ok.sound registry).release_live live with ⟨after, ran, sound, liveAfter⟩ | ran
        · exact .inl ⟨Function.update world.registries registry after, [.released registry token],
            by simp [RegistrationHandle.release, invalid, ran],
            ok.given_back holds sound liveAfter⟩
        · exact .inr ⟨"Channel ref count underflow",
            by simp [RegistrationHandle.release, invalid, ran, refCountUnderflow]⟩

/-- A fresh token of a registry goes to an idle slot. -/
theorem Owned.taken (ok : Owned trace world) {slot : HandleId} (idle : Idle world.handles slot)
    {registry : RegistryId} {token : PublishToken} {after : TokenRegistry}
    (sound : Sound after) (fresh : ¬(world.registries registry).Live token.value)
    (liveAfter : ∀ t, after.Live t ↔ t = token.value ∨ (world.registries registry).Live t) :
    Owned (trace ++ [.acquired registry token])
      { registries := Function.update world.registries registry after
        handles := Function.update world.handles slot (some ⟨some registry, token⟩) } := by
  have liveIff : ∀ other t, (Function.update world.registries registry after other).Live t ↔
      (other = registry ∧ t = token.value) ∨ (world.registries other).Live t := by
    intro other t
    rw [live_update]
    split
    · rename_i here
      simp [here, liveAfter]
    · rename_i elsewhere
      simp [elsewhere]
  have real : token.value ≠ kInvalidToken.value :=
    ne_kInvalidToken (sound.live_bound ((liveAfter _).mpr (Or.inl rfl)))
  constructor
  case sound =>
    exact fun other => after_update Sound sound fun _ => ok.sound other
  case live =>
    intro other r t held
    rcases (holds_taken idle real).mp held with ⟨rfl, rfl, rfl⟩ | held
    · exact (liveIff _ _).mpr (Or.inl ⟨rfl, rfl⟩)
    · exact (liveIff _ _).mpr (Or.inr (ok.live _ _ _ held))
  case unique =>
    intro left right r t first second
    rcases (holds_taken idle real).mp first with ⟨atSlot, sameRegistry, sameToken⟩ | firstOld
    · rcases (holds_taken idle real).mp second with ⟨alsoAtSlot, _, _⟩ | secondOld
      · rw [atSlot, alsoAtSlot]
      · rw [sameRegistry, sameToken] at secondOld
        exact absurd (ok.live _ _ _ secondOld) fresh
    · rcases (holds_taken idle real).mp second with ⟨_, sameRegistry, sameToken⟩ | secondOld
      · rw [sameRegistry, sameToken] at firstOld
        exact absurd (ok.live _ _ _ firstOld) fresh
      · exact ok.unique _ _ _ _ firstOld secondOld
  case covered =>
    intro r t live
    rcases (liveIff _ _).mp live with ⟨rfl, rfl⟩ | live
    · exact ⟨slot, (holds_taken idle real).mpr (Or.inl ⟨rfl, rfl, rfl⟩)⟩
    · obtain ⟨other, held⟩ := ok.covered r t live
      exact ⟨other, (holds_taken idle real).mpr (Or.inr held)⟩
  case ledger =>
    have others : ∀ t, t ≠ token.value → (after.Live t ↔ (world.registries registry).Live t) := by
      intro t different
      simp [liveAfter, different]
    refine ok.ledger_update others ?_ ?_
    · rintro r t (here | here)
      · cases here
        exact ⟨rfl, rfl⟩
      · cases here
    · simpa [liveAfter, fresh] using ok.ledger registry token
  case quiet => simpa using ok.quiet

omit [DecidableEq HandleId] in
/-- A call that throws leaves the live tokens of its registry alone. -/
theorem Owned.threw (ok : Owned trace world) {registry : RegistryId} {after : TokenRegistry}
    (sound : Sound after) (what : String)
    (liveAfter : ∀ t, after.Live t ↔ (world.registries registry).Live t) :
    Owned (trace ++ [.threw registry (.throws what)])
      { world with registries := Function.update world.registries registry after } := by
  have liveIff : ∀ other t, (Function.update world.registries registry after other).Live t ↔
      (world.registries other).Live t := by
    intro other t
    rw [live_update]
    split
    · rename_i here
      rw [here, liveAfter]
    · exact Iff.rfl
  constructor
  case sound =>
    exact fun other => after_update Sound sound fun _ => ok.sound other
  case live => exact fun other r t held => (liveIff _ _).mpr (ok.live other r t held)
  case unique => exact ok.unique
  case covered => exact fun r t live => ok.covered r t ((liveIff _ _).mp live)
  case ledger =>
    intro r t
    simp only [liveIff]
    simpa using ok.ledger r t
  case quiet => simpa using ok.quiet

/-- Acquiring for an idle slot: the slot owns the new token, or the call threw and nothing is
owned. -/
theorem Owned.acquire (ok : Owned trace world) {slot : HandleId} (idle : Idle world.handles slot)
    (registry : RegistryId) {call : Call} {owner : Origin} (acquiring : ownerOf call = some owner) :
    (∃ registries token, acquireFor world.registries registry call =
        (registries, some token, [.acquired registry token]) ∧
      Owned (trace ++ [.acquired registry token])
        { registries := registries
          handles := Function.update world.handles slot (some ⟨some registry, token⟩) }) ∨
    (∃ registries what, acquireFor world.registries registry call =
        (registries, none, [.threw registry (.throws what)]) ∧
      Owned (trace ++ [.threw registry (.throws what)]) { world with registries }) := by
  have sound := (ok.sound registry).call call
  rcases (ok.sound registry).acquire_live acquiring with
    ⟨token, outcome, fresh, liveAfter⟩ | ⟨⟨what, outcome⟩, liveAfter⟩
  · exact Or.inl ⟨_, token, by simp [acquireFor, outcome], ok.taken idle sound fresh liveAfter⟩
  · exact Or.inr ⟨_, what, by simp [acquireFor, outcome], ok.threw sound what liveAfter⟩

/-- A construction that acquires: the new handle owns its token, or no handle exists. -/
theorem Owned.constructWith (ok : Owned trace world) {target : HandleId}
    (empty : world.handles target = none) (registry : RegistryId) (call : Call) {owner : Origin}
    (acquiring : ownerOf call = some owner) :
    Owned (trace ++ (world.constructWith target registry call).2)
      (world.constructWith target registry call).1 := by
  rcases ok.acquire (idle_of_none empty) registry acquiring with
    ⟨registries, token, acquired, owned⟩ | ⟨registries, what, threw, owned⟩
  · simpa [HandleWorld.constructWith, acquired] using owned
  · simpa [HandleWorld.constructWith, threw] using owned

theorem Owned.moveConstruct (ok : Owned trace world) {target source : HandleId}
    {other : RegistrationHandle RegistryId} (empty : world.handles target = none)
    (present : world.handles source = some other) :
    Owned trace (world.moveConstruct target source other) := by
  have different : target ≠ source := by
    rintro rfl
    simp [empty] at present
  exact ok.move different (idle_of_none empty) present

/-- Move assignment releases the target's token first; on itself it does nothing. -/
theorem Owned.moveAssign (ok : Owned trace world) {target source : HandleId}
    {handle other : RegistrationHandle RegistryId} (present : world.handles target = some handle)
    (source_present : world.handles source = some other) :
    Owned (trace ++ (world.moveAssign target source handle other).2)
      (world.moveAssign target source handle other).1 := by
  by_cases different : target ≠ source
  · rcases ok.release present with ⟨registries, events, ran, released⟩ | ⟨assertion, ran⟩
    · have stillThere : Function.update world.handles target
          (some { handle with token := kInvalidToken }) source = some other := by
        simpa [Function.update_of_ne different.symm] using source_present
      have moved := released.move different (idle_update_invalid _ _ _) stillThere
      simpa [HandleWorld.moveAssign, different, ran, Function.update_idem] using moved
    · simpa [HandleWorld.moveAssign, different, ran] using ok.aborted assertion
  · simpa [HandleWorld.moveAssign, different] using ok

/-- `reassign` of a handle with a registry: the released handle stays without a token when
the acquisition throws. -/
theorem Owned.reassignWith (ok : Owned trace world) {target : HandleId}
    {handle : RegistrationHandle RegistryId} (present : world.handles target = some handle)
    (attached : handle.registry.isSome = true) (call : Call) {owner : Origin}
    (acquiring : ownerOf call = some owner) :
    Owned (trace ++ (world.reassignWith target handle call).2)
      (world.reassignWith target handle call).1 := by
  obtain ⟨registry, attached⟩ := Option.isSome_iff_exists.mp attached
  rcases ok.release present with ⟨registries, events, ran, released⟩ | ⟨assertion, ran⟩
  · have idle := idle_update_invalid world.handles target handle.registry
    rcases released.acquire idle registry acquiring with
      ⟨after, token, acquired, owned⟩ | ⟨after, what, threw, owned⟩
    · simpa [HandleWorld.reassignWith, attached, ran, acquired, Function.update_idem] using owned
    · simpa [HandleWorld.reassignWith, attached, ran, threw] using owned
  · simpa [HandleWorld.reassignWith, attached, ran] using ok.aborted assertion

theorem Owned.destroy (ok : Owned trace world) {target : HandleId}
    {handle : RegistrationHandle RegistryId} (present : world.handles target = some handle) :
    Owned (trace ++ (world.destroy target handle).2) (world.destroy target handle).1 := by
  rcases ok.release present with ⟨registries, events, ran, released⟩ | ⟨assertion, ran⟩
  · have emptied := released.replace_idle (idle_update_invalid _ _ _) (idle_update_none _ target)
    simpa [HandleWorld.destroy, ran, Function.update_idem] using emptied
  · simpa [HandleWorld.destroy, ran] using ok.aborted assertion

theorem Owned.step (ok : Owned trace world) {action : HandleAction RegistryId HandleId}
    {next : HandleWorld RegistryId HandleId} {events : List (HandleEvent RegistryId)}
    (permitted : reassignsAttached trace world action)
    (stepped : world.step action = some (next, events)) : Owned (trace ++ events) next := by
  cases action with
  | defaultConstruct target =>
      cases empty : world.handles target with
      | some handle => simp [HandleWorld.step, empty] at stepped
      | none =>
          simp only [HandleWorld.step, empty, Option.some.injEq, Prod.mk.injEq] at stepped
          obtain ⟨rfl, rfl⟩ := stepped
          have owned := ok.replace_idle (idle_of_none empty) (idle_update_invalid _ _ none)
          rw [List.append_nil]
          exact owned
  | construct target registry =>
      cases empty : world.handles target with
      | some handle => simp [HandleWorld.step, empty] at stepped
      | none =>
          simp only [HandleWorld.step, empty, Option.some.injEq, HandleWorld.construct] at stepped
          have owned := ok.constructWith empty registry .acquire rfl
          simpa only [stepped] using owned
  | constructGroup target registry group =>
      cases empty : world.handles target with
      | some handle => simp [HandleWorld.step, empty] at stepped
      | none =>
          simp only [HandleWorld.step, empty, Option.some.injEq, HandleWorld.constructGroup] at stepped
          have owned := ok.constructWith empty registry (.acquireGroup group) rfl
          simpa only [stepped] using owned
  | moveConstruct target source =>
      cases empty : world.handles target with
      | some handle => simp [HandleWorld.step, empty] at stepped
      | none =>
          cases present : world.handles source with
          | none => simp [HandleWorld.step, empty, present] at stepped
          | some other =>
              simp only [HandleWorld.step, empty, present, Option.some.injEq, Prod.mk.injEq] at stepped
              obtain ⟨rfl, rfl⟩ := stepped
              simpa using ok.moveConstruct empty present
  | moveAssign target source =>
      cases present : world.handles target with
      | none => simp [HandleWorld.step, present] at stepped
      | some handle =>
          cases other_present : world.handles source with
          | none => simp [HandleWorld.step, present, other_present] at stepped
          | some other =>
              simp only [HandleWorld.step, present, other_present, Option.some.injEq] at stepped
              have owned := ok.moveAssign present other_present
              simpa only [stepped] using owned
  | reassign target =>
      cases present : world.handles target with
      | none => simp [HandleWorld.step, present] at stepped
      | some handle =>
          simp only [HandleWorld.step, present, Option.map_some, Option.some.injEq,
            HandleWorld.reassign] at stepped
          have attached : handle.registry.isSome = true := by
            simpa [reassignsAttached, present] using permitted
          have owned := ok.reassignWith present attached .acquire rfl
          simpa only [stepped] using owned
  | reassignGroup target group =>
      cases present : world.handles target with
      | none => simp [HandleWorld.step, present] at stepped
      | some handle =>
          simp only [HandleWorld.step, present, Option.map_some, Option.some.injEq,
            HandleWorld.reassignGroup] at stepped
          have attached : handle.registry.isSome = true := by
            simpa [reassignsAttached, present] using permitted
          have owned := ok.reassignWith present attached (.acquireGroup group) rfl
          simpa only [stepped] using owned
  | destroy target =>
      cases present : world.handles target with
      | none => simp [HandleWorld.step, present] at stepped
      | some handle =>
          simp only [HandleWorld.step, present, Option.map_some, Option.some.injEq] at stepped
          simpa only [stepped] using ok.destroy present

theorem handles_owned
    (reached : (handleMachine RegistryId HandleId).Reaches reassignsAttached trace world) :
    Owned trace world :=
  reached.invariant Owned Owned.initial fun _ _ _ _ _ ok permitted stepped => ok.step permitted stepped

/-- In every program over handles and registries that reassigns attached handles only, whatever
the reference counts come to, the valid handles of a registry correspond one to one to its live
tokens, no token is released without having been acquired since, and `release` never catches
an exception. -/
theorem handles_own_live_tokens
    (reached : (handleMachine RegistryId HandleId).Reaches reassignsAttached trace world) :
    (∀ registry, Set.BijOn world.tokenOf (world.validFor registry)
      {token | (world.registries registry).Live token.value}) ∧
    (∀ registry token, trace.count (.acquired registry token) =
      trace.count (.released registry token) +
        if (world.registries registry).Live token.value then 1 else 0) ∧
    ∀ registry failure, .caught registry failure ∉ trace := by
  have ok := handles_owned reached
  refine ⟨fun registry => ⟨?_, ?_, ?_⟩, ok.ledger, ok.quiet⟩
  · intro slot valid
    exact ok.live _ _ _ (validFor_iff_holds.mp valid)
  · intro left leftValid right rightValid same
    have leftHolds := validFor_iff_holds.mp leftValid
    have rightHolds := validFor_iff_holds.mp rightValid
    rw [← same] at rightHolds
    exact ok.unique _ _ _ _ leftHolds rightHolds
  · intro token live
    obtain ⟨slot, holds⟩ := ok.covered registry token.value live
    have same := holds_tokenOf holds
    refine ⟨slot, validFor_iff_holds.mpr ?_, same⟩
    rwa [same]

def handleProgram : List (HandleAction Nat Nat) :=
  [.construct 7 0, .constructGroup 8 1 .Group2, .moveAssign 8 7, .moveAssign 8 8,
    .reassignGroup 8 .Group1, .moveConstruct 9 8, .moveAssign 7 9]

theorem handleProgram_runs :
    ((handleMachine Nat Nat).exec reassignsAttached [] (handleMachine Nat Nat).start
      handleProgram).isSome = true := by
  decide +kernel

theorem handles_own_live_tokens_sample :
    let world := (Option.get _ handleProgram_runs).2
    world.handles 7 = some ⟨some 0, ⟨0⟩⟩ ∧ world.handles 8 = some .detached ∧
      ∀ registry, Set.BijOn world.tokenOf (world.validFor registry)
        {token | (world.registries registry).Live token.value} := by
  refine ⟨?_, ?_, (handles_own_live_tokens (EventMachine.reaches_of_isSome handleProgram_runs)).1⟩
  · decide +kernel
  · decide +kernel

end MyServer
