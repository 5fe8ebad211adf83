import MyServer.TokenRegistrySound

/-!
What a call of `TokenRegistry` does, for any counts, and the runs of these calls. An acquiring
call first takes a reference to a channel and then a token; `CallResult` lists how a call can
end, with the state it leaves.
-/

namespace MyServer

namespace TokenRegistry

variable {s : TokenRegistry}

def ownerOf : Call → Option Origin
  | .acquire => some .exclusive
  | .acquireGroup group => some (.group group)
  | .release _ => none

def takeChannel (s : TokenRegistry) (mode : ChannelMode) : Option (Nat × TokenRegistry) :=
  match s.freeChannelCount with
  | 0 => none
  | count + 1 => some (s.freeChannels count,
      ({ s with freeChannelCount := count }).setReferences (s.freeChannels count) 1 mode)

def attach (s : TokenRegistry) : Call → Option (Nat × TokenRegistry)
  | .acquire => s.takeChannel .Exclusive
  | .acquireGroup group =>
      if s.GroupOpen group then
        some (s.groupToChannel group.toIndex,
          s.setReferences (s.groupToChannel group.toIndex)
            (s.channelRefCount (s.groupToChannel group.toIndex) + 1) .Shared)
      else
        (s.takeChannel .Shared).map fun taken => (taken.1, { taken.2 with
          groupToChannel := Function.update taken.2.groupToChannel group.toIndex taken.1 })
  | .release _ => none

inductive AttachStep (s : TokenRegistry) : Call → Nat → TokenRegistry → Prop
  | exclusive {count : Nat} : s.freeChannelCount = count + 1 →
      AttachStep s .acquire (s.freeChannels count)
        (({ s with freeChannelCount := count }).setReferences (s.freeChannels count) 1 .Exclusive)
  | opens {group : ChannelGroup} {count : Nat} :
      ¬s.GroupOpen group → s.freeChannelCount = count + 1 →
      AttachStep s (.acquireGroup group) (s.freeChannels count)
        { ({ s with freeChannelCount := count }).setReferences (s.freeChannels count) 1 .Shared with
          groupToChannel :=
            Function.update s.groupToChannel group.toIndex (s.freeChannels count) }
  | joins {group : ChannelGroup} : s.GroupOpen group →
      AttachStep s (.acquireGroup group) (s.groupToChannel group.toIndex)
        (s.setReferences (s.groupToChannel group.toIndex)
          (s.channelRefCount (s.groupToChannel group.toIndex) + 1) .Shared)

theorem takeChannel_some {mode : ChannelMode} {channel : Nat} {next : TokenRegistry}
    (taken : s.takeChannel mode = some (channel, next)) :
    ∃ count, s.freeChannelCount = count + 1 ∧ channel = s.freeChannels count ∧
      next = ({ s with freeChannelCount := count }).setReferences channel 1 mode := by
  unfold TokenRegistry.takeChannel at taken
  split at taken
  · simp at taken
  · rename_i count counted
    simp only [Option.some.injEq, Prod.mk.injEq] at taken
    obtain ⟨rfl, rfl⟩ := taken
    exact ⟨count, counted, rfl, rfl⟩

theorem attach_step {call : Call} {channel : Nat} {next : TokenRegistry}
    (attached : s.attach call = some (channel, next)) : AttachStep s call channel next := by
  cases call with
  | acquire =>
      obtain ⟨count, counted, rfl, rfl⟩ := takeChannel_some attached
      exact .exclusive counted
  | acquireGroup group =>
      simp only [TokenRegistry.attach] at attached
      split at attached
      · rename_i opened
        simp only [Option.some.injEq, Prod.mk.injEq] at attached
        obtain ⟨rfl, rfl⟩ := attached
        exact .joins opened
      · rename_i closed
        obtain ⟨⟨_, _⟩, taken, same⟩ := Option.map_eq_some_iff.mp attached
        obtain ⟨count, counted, rfl, rfl⟩ := takeChannel_some taken
        obtain ⟨rfl, rfl⟩ := Prod.mk.inj same
        exact .opens closed counted
  | release token => simp [TokenRegistry.attach] at attached

theorem Sound.group_used (ok : Sound s) {group : ChannelGroup} (opened : s.GroupOpen group) :
    s.groupToChannel group.toIndex < kMaxChannels ∧
      s.channelRefCount (s.groupToChannel group.toIndex) ≠ 0 :=
  ⟨ok.groupBound group opened.1, UInt64.pos_iff_ne_zero.mp opened.2⟩

section Attached

variable {call : Call} {channel : Nat} {next : TokenRegistry}

theorem Sound.attach (ok : Sound s) (step : AttachStep s call channel next) :
    channel < kMaxChannels ∧ Sound next := by
  cases step with
  | exclusive counted => exact ⟨(ok.top_free counted).1, ok.reserve .Exclusive counted⟩
  | @opens group _ closed counted =>
      have bound := (ok.top_free counted).1
      exact ⟨bound, (ok.reserve .Shared counted).assignGroup group bound⟩
  | joins opened =>
      obtain ⟨bound, used⟩ := ok.group_used opened
      exact ⟨bound, ok.join used _ _⟩

/-- `attach` leaves the token pool and the tokens alone, and counts the channel once more. -/
theorem AttachStep.pool (step : AttachStep s call channel next) :
    next.nextToken = s.nextToken ∧ next.freeTokenCount = s.freeTokenCount ∧
      next.freeTokens = s.freeTokens ∧ next.tokenUsed = s.tokenUsed ∧
      next.tokenToChannel = s.tokenToChannel := by
  cases step <;> exact ⟨rfl, rfl, rfl, rfl, rfl⟩

theorem Sound.attach_counts (ok : Sound s) (step : AttachStep s call channel next) :
    next.channelRefCount channel = s.channelRefCount channel + 1 := by
  cases step with
  | exclusive counted | opens _ counted => simp [setReferences, (ok.top_free counted).2]
  | joins => simp [setReferences]

end Attached

/-! The calls in terms of these steps. -/

def allotted (channel : Nat) (next : TokenRegistry) : Outcome × TokenRegistry :=
  match next.takeToken with
  | some (token, rest) => (.returned token, rest.bindToken token channel)
  | none => (.failed capacityExceeded, next)

def outcomeOf : EStateM.Result Failure TokenRegistry PublishToken → Outcome × TokenRegistry
  | .ok token next => (.returned token, next)
  | .error failure next => (.failed failure, next)

theorem call_acquire (s : TokenRegistry) : s.call .acquire = outcomeOf (acquire s) := by
  simp only [TokenRegistry.call]
  cases acquire s <;> rfl

theorem call_acquireGroup (s : TokenRegistry) (group : ChannelGroup) :
    s.call (.acquireGroup group) = outcomeOf (acquireGroup group s) := by
  simp only [TokenRegistry.call]
  cases acquireGroup group s <;> rfl

theorem outcomeOf_allocateToken {channel : Nat} {next : TokenRegistry}
    (countBound : next.freeTokenCount ≤ kMaxBindings)
    (cells : ∀ index, index < next.freeTokenCount →
      (next.freeTokens index).value < kMaxBindings) :
    outcomeOf (allocateToken channel next) = allotted channel next := by
  have tokenBound : ∀ token rest, takeToken next = some (token, rest) →
      token.value < kMaxBindings := by
    intro token rest taken
    rcases takeToken_cases taken with ⟨count, counted, rfl, _⟩ | ⟨_, room, rfl, _⟩
    · exact cells count (by omega)
    · exact room
  rw [allocateToken_eq channel countBound tokenBound, allotted]
  cases takeToken next <;> rfl

theorem Sound.call_acquiring (ok : Sound s) {call : Call} {owner : Origin}
    (acquiring : ownerOf call = some owner) :
    s.call call = match s.attach call with
      | some (channel, next) => allotted channel next
      | none => (.failed noFreeChannels, s) := by
  have countBound := ok.freeTokenCount_le
  have cells := fun index (below : index < s.freeTokenCount) => ok.cells_bound below
  have channelCount := ok.freeChannelCount_le
  cases call with
  | acquire =>
      rw [call_acquire]
      cases counted : s.freeChannelCount with
      | zero =>
          rw [acquire_none counted]
          simp [TokenRegistry.attach, TokenRegistry.takeChannel, counted, outcomeOf]
      | succ count =>
          rw [acquire_some counted (by omega) (ok.top_free counted).1]
          simp only [TokenRegistry.attach, TokenRegistry.takeChannel, counted]
          exact outcomeOf_allocateToken countBound cells
  | acquireGroup group =>
      rw [call_acquireGroup]
      by_cases opened : s.GroupOpen group
      · rw [acquireGroup_join opened (ok.group_used opened).1]
        simp only [TokenRegistry.attach, opened, if_true]
        exact outcomeOf_allocateToken countBound cells
      · cases counted : s.freeChannelCount with
        | zero =>
            rw [acquireGroup_open_none opened (ok.groupBound group) counted]
            simp [TokenRegistry.attach, TokenRegistry.takeChannel, opened, counted, outcomeOf]
        | succ count =>
            rw [acquireGroup_open_some opened (ok.groupBound group) counted (by omega)
              (ok.top_free counted).1]
            simp only [TokenRegistry.attach, TokenRegistry.takeChannel, opened, counted, if_false,
              Option.map_some]
            exact outcomeOf_allocateToken countBound cells
  | release token => simp [ownerOf] at acquiring

theorem Sound.call_release_live (ok : Sound s) {token : PublishToken} (live : s.Live token.value)
    (used : s.channelRefCount (s.tokenToChannel token.value) ≠ 0) :
    s.call (.release token) =
      (.released, (s.unbound token).dropped (s.tokenToChannel token.value)) := by
  have bound := ok.channelBound token.value live.2
  have dropping := dropReference_eq bound (UInt64.pos_iff_ne_zero.mpr used)
    fun _ => ok.freeChannelCount_lt bound used
  have ran := release_live live.1 (ok.live_bound live) live.2 (ok.freeTokenCount_lt live) dropping
  simp [TokenRegistry.call, ran]

/-- A live token on a channel that is no longer counted cannot be given back. -/
theorem Sound.call_release_uncounted (ok : Sound s) {token : PublishToken}
    (live : s.Live token.value)
    (unused : s.channelRefCount (s.tokenToChannel token.value) = 0) :
    s.call (.release token) = (.failed refCountUnderflow, s) := by
  have dropping := dropReference_underflow (ok.channelBound token.value live.2) unused
  have ran := release_underflow live.1 (ok.live_bound live) live.2 (ok.freeTokenCount_lt live)
    dropping
  simp [TokenRegistry.call, ran]

theorem Sound.call_release_dead (ok : Sound s) {token : PublishToken}
    (dead : ¬s.Live token.value) :
    s.call (.release token) = (.failed releaseInvalid, s) ∨
      s.call (.release token) = (.failed releaseFree, s) := by
  by_cases valid : token.value < s.nextToken
  · have free : s.tokenUsed token.value = false := by
      simpa [Live, valid] using dead
    right
    simp [TokenRegistry.call,
      release_free valid (Nat.lt_of_lt_of_le valid ok.nextBound) free]
  · left
    simp [TokenRegistry.call, release_invalid (Nat.not_lt.mp valid)]

def Available (s : TokenRegistry) : Call → Prop
  | .acquire => 0 < s.freeChannelCount
  | .acquireGroup group => s.GroupOpen group ∨ 0 < s.freeChannelCount
  | .release _ => False

instance (s : TokenRegistry) : (call : Call) → Decidable (s.Available call)
  | .acquire => inferInstanceAs (Decidable (0 < s.freeChannelCount))
  | .acquireGroup group => inferInstanceAs (Decidable (s.GroupOpen group ∨ 0 < s.freeChannelCount))
  | .release _ => .isFalse id

theorem attach_isSome (s : TokenRegistry) (call : Call) :
    (s.attach call).isSome = true ↔ s.Available call := by
  have taken : ∀ mode, (s.takeChannel mode).isSome = true ↔ 0 < s.freeChannelCount := by
    intro mode
    unfold TokenRegistry.takeChannel
    split <;> rename_i counted <;> simp [counted]
  cases call with
  | acquire => exact taken .Exclusive
  | acquireGroup group =>
      simp only [TokenRegistry.attach, Available]
      split
      · rename_i opened
        simp [opened]
      · rename_i closed
        simp [closed, taken]
  | release token => simp [TokenRegistry.attach, Available]

theorem Sound.call_unavailable (ok : Sound s) {call : Call} {owner : Origin}
    (acquiring : ownerOf call = some owner) (unavailable : ¬s.Available call) :
    s.call call = (.failed noFreeChannels, s) := by
  rw [ok.call_acquiring acquiring]
  cases attached : s.attach call with
  | none => rfl
  | some found => exact absurd ((attach_isSome s call).mp (by simp [attached])) unavailable

theorem AttachStep.available {call : Call} {channel : Nat} {next : TokenRegistry}
    (step : AttachStep s call channel next) : s.Available call := by
  cases step with
  | exclusive counted => simp [Available, counted]
  | opens _ counted => simp [Available, counted]
  | joins opened => exact .inl opened

theorem AttachStep.owner {call : Call} {channel : Nat} {next : TokenRegistry}
    (step : AttachStep s call channel next) : ∃ owner, ownerOf call = some owner := by
  cases step <;> exact ⟨_, rfl⟩

inductive CallResult (s : TokenRegistry) : Call → Outcome × TokenRegistry → Prop
  | refused {call what} : .throws what ∈ [noFreeChannels, releaseInvalid, releaseFree] →
      ¬s.Available call → CallResult s call (.failed (.throws what), s)
  | leaks {call channel next} : AttachStep s call channel next → s.TokensExhausted →
      CallResult s call (.failed capacityExceeded, next)
  | grants {call channel next token rest} : AttachStep s call channel next →
      ¬s.TokensExhausted → next.takeToken = some (token, rest) →
      CallResult s call (.returned token, rest.bindToken token channel)
  | takesBack {token} : s.Live token.value →
      s.channelRefCount (s.tokenToChannel token.value) ≠ 0 →
      CallResult s (.release token)
        (.released, (s.unbound token).dropped (s.tokenToChannel token.value))
  | uncounted {token} : s.Live token.value →
      s.channelRefCount (s.tokenToChannel token.value) = 0 →
      CallResult s (.release token) (.failed refCountUnderflow, s)

theorem Sound.acquiring_result (ok : Sound s) {call : Call} {owner : Origin}
    (acquiring : ownerOf call = some owner) : CallResult s call (s.call call) := by
  rw [ok.call_acquiring acquiring]
  cases attached : s.attach call with
  | none =>
      refine .refused (by simp [noFreeChannels]) fun available => ?_
      simpa [attached] using (attach_isSome s call).mpr available
  | some found =>
      obtain ⟨channel, next⟩ := found
      have step := attach_step attached
      have same : next.TokensExhausted ↔ s.TokensExhausted := by
        obtain ⟨nextEq, countEq, _⟩ := step.pool
        rw [TokensExhausted, TokensExhausted, nextEq, countEq]
      have spent := (ok.attach step).2.takeToken_eq_none.trans same
      simp only [allotted]
      cases taken : next.takeToken with
      | none => exact .leaks step (spent.mp taken)
      | some result =>
          refine .grants step (fun exhausted => ?_) taken
          simp [spent.mpr exhausted] at taken

/-- How a call ends, said once for every state of the counts. -/
theorem Sound.call_result (ok : Sound s) (call : Call) : CallResult s call (s.call call) := by
  cases call with
  | acquire => exact ok.acquiring_result rfl
  | acquireGroup group => exact ok.acquiring_result rfl
  | release token =>
      by_cases live : s.Live token.value
      · by_cases unused : s.channelRefCount (s.tokenToChannel token.value) = 0
        · rw [ok.call_release_uncounted live unused]
          exact .uncounted live unused
        · rw [ok.call_release_live live unused]
          exact .takesBack live unused
      · rcases ok.call_release_dead live with ran | ran <;> rw [ran] <;>
          exact .refused (by simp [releaseInvalid, releaseFree]) id

theorem Sound.call (ok : Sound s) (call : Call) : Sound (s.call call).2 := by
  have result := ok.call_result call
  generalize s.call call = ended at result
  cases result with
  | refused | uncounted => exact ok
  | leaks step => exact (ok.attach step).2
  | grants step _ taken =>
      obtain ⟨bound, attached⟩ := ok.attach step
      exact attached.bind taken bound
  | takesBack live used => exact (ok.unbind live).drop (ok.channelBound _ live.2) used

end TokenRegistry

open TokenRegistry

def registryMachine : EventMachine TokenRegistry Call (Call × Outcome) where
  start := TokenRegistry.initial
  step registry call := some ((registry.call call).2, [(call, (registry.call call).1)])

abbrev RegistryReaches (trace : List (Call × Outcome)) (s : TokenRegistry) : Prop :=
  registryMachine.Reaches EventMachine.anyAction trace s

def TokenRegistry.callAll : TokenRegistry → List Call → List (Call × Outcome) × TokenRegistry
  | s, [] => ([], s)
  | s, call :: rest =>
      let (outcome, next) := s.call call
      let (later, last) := next.callAll rest
      ((call, outcome) :: later, last)

section Runs

variable {trace : List (Call × Outcome)} {s : TokenRegistry}

theorem callAll_reaches (reached : RegistryReaches trace s) (calls : List Call) :
    RegistryReaches (trace ++ (s.callAll calls).1) (s.callAll calls).2 := by
  induction calls generalizing trace s with
  | nil => simpa [TokenRegistry.callAll] using reached
  | cons call rest ih =>
      have stepped : RegistryReaches (trace ++ [(call, (s.call call).1)]) (s.call call).2 :=
        .snoc reached trivial rfl
      simpa [TokenRegistry.callAll] using ih stepped

theorem reachable_sound (reached : RegistryReaches trace s) : Sound s := by
  refine EventMachine.Reaches.invariant reached (fun _ s => Sound s) .initial ?_
  intro trace s call next events ok _ stepped
  obtain ⟨rfl, rfl⟩ := Prod.mk.inj (Option.some.inj stepped)
  exact ok.call call

end Runs

end MyServer
