import MyServer.RegistrationProgram
import MyServer.TokenRegistryUndo

/-!
`reassign` gives the handle's token back before it asks for the next one. Whether that
next call succeeds is decided by the state before the release; asking for the binding the
handle already has always succeeds and changes nothing.
-/

namespace MyServer

namespace TokenRegistry

variable {origin : Nat → Option Origin} {leaked : Nat → Nat} {s : TokenRegistry}

def Stuck (s : TokenRegistry) (token : PublishToken) (call : Call) : Prop :=
  s.freeChannelCount = 0 ∧ s.channelRefCount (s.tokenToChannel token.value) ≠ 1 ∧
    ∀ group, call = .acquireGroup group → s.groupToChannel group.toIndex = kNoChannel

theorem Consistent.available_given_back (ok : Consistent origin leaked s) (token : PublishToken)
    {call : Call} {owner : Origin} (acquiring : ownerOf call = some owner) :
    ((s.unbound token).dropped (s.tokenToChannel token.value)).Available call ↔
      ¬s.Stuck token call := by
  by_cases last : s.channelRefCount (s.tokenToChannel token.value) = 1
  · have free : 0 < ((s.unbound token).dropped (s.tokenToChannel token.value)).freeChannelCount := by
      simp [dropped, unbound, last]
    refine iff_of_true ?_ fun stuck => stuck.2.1 last
    cases call with
    | acquire => exact free
    | acquireGroup group => exact .inr free
    | release other => simp [ownerOf] at acquiring
  · have notLast : (s.unbound token).channelRefCount (s.tokenToChannel token.value) ≠ 1 := last
    simp only [dropped, notLast, if_false]
    cases call with
    | acquire =>
        simp [Available, Stuck, unbound, last]
        omega
    | acquireGroup group =>
        -- a channel that keeps a reference keeps its group open
        have entry : s.groupToChannel group.toIndex ≠ kNoChannel →
            0 < Function.update s.channelRefCount (s.tokenToChannel token.value)
              (s.channelRefCount (s.tokenToChannel token.value) - 1)
              (s.groupToChannel group.toIndex) := by
          intro present
          rw [UInt64.pos_iff_ne_zero]
          by_cases same : s.groupToChannel group.toIndex = s.tokenToChannel token.value
          · simpa only [same, Function.update_self] using pred_ne_zero last
          · simpa [same] using ok.groupUsed group present
        simp only [Available, GroupOpen, Stuck, unbound]
        by_cases present : s.groupToChannel group.toIndex = kNoChannel
        · simp [present, last]
          omega
        · simp [present, entry present]
    | release other => simp [ownerOf] at acquiring

structure GivenBack (s after : TokenRegistry) (token : PublishToken) : Prop where
  live : ∀ t, after.Live t ↔ t ≠ token.value ∧ s.Live t
  bindings : after.tokenToChannel = s.tokenToChannel
  freeChannels : after.freeChannelStack = s.freeChannelStack
  groups : after.groupToChannel = s.groupToChannel
  refCounts : after.channelRefCount =
    Function.update s.channelRefCount (s.tokenToChannel token.value)
      (s.channelRefCount (s.tokenToChannel token.value) - 1)

theorem given_back {token : PublishToken}
    (shared : s.channelRefCount (s.tokenToChannel token.value) ≠ 1) :
    GivenBack s ((s.unbound token).dropped (s.tokenToChannel token.value)) token := by
  have notLast : (s.unbound token).channelRefCount (s.tokenToChannel token.value) ≠ 1 := shared
  simp only [dropped, notLast, if_false]
  refine ⟨fun t => ?_, rfl, rfl, rfl, rfl⟩
  by_cases same : t = token.value
  · simp [Live, unbound, same]
  · simp [Live, unbound, same]

/-- The second half of `reassign`, on the registry the first half leaves. -/
theorem Consistent.exchange (ok : Consistent origin leaked s)
    (few : ∀ channel, leaked channel < 2 ^ 64 - kMaxBindings) {token : PublishToken}
    (live : s.Live token.value) {call : Call} {owner : Origin}
    (acquiring : ownerOf call = some owner) :
    let after := (s.call (.release token)).2
    (s.Stuck token call ∧ after.call call = (.failed noFreeChannels, after) ∧
      GivenBack s after token) ∨
    (¬s.Stuck token call ∧ ∃ taken next, after.call call = (.returned taken, next) ∧
      taken.value < kMaxBindings ∧ next.Live taken.value ∧
      next.Offers (next.tokenToChannel taken.value) owner) := by
  have given := ok.available_given_back token acquiring
  have kept := ok.call_releases live
  rw [ok.toSound.call_release_live live (ok.ref_ne_zero live)]
  by_cases stuck : s.Stuck token call
  · have unavailable := fun available => given.mp available stuck
    exact .inl ⟨stuck, kept.toSound.call_unavailable acquiring unavailable, given_back stuck.2.1⟩
  · have spare : ¬((s.unbound token).dropped (s.tokenToChannel token.value)).TokensExhausted := by
      rintro ⟨none, _⟩
      unfold dropped at none
      split at none <;> simp [unbound] at none
    have result := kept.toSound.call_result call
    refine .inr ⟨stuck, ?_⟩
    simp only
    generalize TokenRegistry.call _ call = ended at result ⊢
    cases result with
    | refused _ unavailable => exact absurd (given.mpr stuck) unavailable
    | leaks _ exhausted => exact absurd exhausted spare
    | takesBack | uncounted => simp [ownerOf] at acquiring
    | @grants _ channel next taken rest step _ took =>
        obtain ⟨bound, attached⟩ := kept.toSound.attach step
        have ok' := kept.call_acquires acquiring step
          (kept.fits bound (by simpa [spare] using few channel)) took
        refine ⟨taken, _, rfl, attached.takeToken_bound took, ?_, ?_⟩
        · exact ok'.live_of_origin (Function.update_self ..)
        · cases owner with
          | exclusive => exact ok'.exclusiveAlone taken.value (Function.update_self ..)
          | group group => exact ok'.groupMember taken.value group (Function.update_self ..)

end TokenRegistry

open TokenRegistry

variable {RegistryId HandleId : Type} [DecidableEq RegistryId] [DecidableEq HandleId]
variable {world : HandleWorld RegistryId HandleId} {target : HandleId} {registry : RegistryId}
variable {token : PublishToken} {call : Call}

def Threw (registry : RegistryId) (events : List (HandleEvent RegistryId)) : Prop :=
  ∃ failure, .threw registry failure ∈ events

section Equations

variable {released ended : TokenRegistry}

theorem reassignWith_thrown (valid : token.value ≠ kInvalidToken.value)
    (gave : (world.registries registry).call (.release token) = (.released, released))
    {failure : Failure} (refused : released.call call = (.failed failure, ended)) :
    world.reassignWith target ⟨some registry, token⟩ call =
      (⟨Function.update world.registries registry ended,
          Function.update world.handles target (some ⟨some registry, kInvalidToken⟩)⟩,
        [.released registry token, .threw registry failure]) := by
  simp [HandleWorld.reassignWith, RegistrationHandle.release, acquireFor, valid, gave, refused]

theorem reassignWith_returned (valid : token.value ≠ kInvalidToken.value)
    (gave : (world.registries registry).call (.release token) = (.released, released))
    {taken : PublishToken} (granted : released.call call = (.returned taken, ended)) :
    world.reassignWith target ⟨some registry, token⟩ call =
      (⟨Function.update world.registries registry ended,
          Function.update world.handles target (some ⟨some registry, taken⟩)⟩,
        [.released registry token, .acquired registry taken]) := by
  simp [HandleWorld.reassignWith, RegistrationHandle.release, acquireFor, valid, gave, granted]

end Equations

structure ReassignOutcome (world : HandleWorld RegistryId HandleId) (target : HandleId)
    (registry : RegistryId) (token : PublishToken) (call : Call) (owner : Origin)
    (result : HandleWorld RegistryId HandleId × List (HandleEvent RegistryId)) : Prop where
  throws_iff : Threw registry result.2 ↔ (world.registries registry).Stuck token call
  thrown : Threw registry result.2 →
    result.1.handles target = some ⟨some registry, kInvalidToken⟩ ∧
      GivenBack (world.registries registry) (result.1.registries registry) token
  returned : ¬Threw registry result.2 → ∃ taken : PublishToken,
    result.1.handles target = some ⟨some registry, taken⟩ ∧
      taken.value ≠ kInvalidToken.value ∧ (result.1.registries registry).Live taken.value ∧
      (result.1.registries registry).Offers
        ((result.1.registries registry).tokenToChannel taken.value) owner

theorem reassignWith_outcome {history : List (Call × Outcome)}
    (reached : RegistryReaches history (world.registries registry))
    (few : capacityFailures history < 2 ^ 64 - kMaxBindings)
    (live : (world.registries registry).Live token.value) {owner : Origin}
    (acquiring : ownerOf call = some owner) :
    ReassignOutcome world target registry token call owner
      (world.reassignWith target ⟨some registry, token⟩ call) := by
  obtain ⟨leaked, ok, within⟩ := reachable_consistent reached few
  have gave := ok.toSound.call_release_live live (ok.ref_ne_zero live)
  have valid := ne_kInvalidToken (ok.live_bound live)
  rcases ok.exchange (fun channel => Nat.lt_of_le_of_lt (within channel) few) live acquiring with
    ⟨stuck, refused, back⟩ | ⟨free, taken, ended, granted, bound, liveAfter, offers⟩
  · rw [gave] at refused back
    rw [reassignWith_thrown valid gave refused]
    have threw : Threw registry
        [.released registry token, .threw registry noFreeChannels] := ⟨noFreeChannels, by simp⟩
    refine ⟨iff_of_true threw stuck, fun _ => ?_, fun calm => absurd threw calm⟩
    simpa using back
  · rw [gave] at granted
    rw [reassignWith_returned valid gave granted]
    have calm : ¬Threw registry [.released registry token, .acquired registry taken] := by
      simp [Threw]
    refine ⟨iff_of_false calm free, fun threw => absurd threw calm, fun _ => ⟨taken, ?_⟩⟩
    simpa using ⟨ne_kInvalidToken bound, liveAfter, offers⟩

omit [DecidableEq RegistryId] in
theorem valid_handle {handle : RegistrationHandle RegistryId} (valid : handle.valid = true) :
    ∃ registry, handle = ⟨some registry, handle.token⟩ ∧
      handle.token.value ≠ kInvalidToken.value := by
  obtain ⟨attached, token⟩ := handle
  cases attached with
  | none => simp [RegistrationHandle.valid] at valid
  | some registry => exact ⟨registry, rfl, by simpa [RegistrationHandle.valid] using valid⟩

section Programs

variable {trace : List (RegistryEvent RegistryId)} {handle : RegistrationHandle RegistryId}

/-- While no count of its registry can have wrapped, `reassign` throws exactly when no channel is
left for its second half. A handle it throws on has given its token back and holds none;
otherwise it is bound as asked. -/
theorem reassign_outcome
    (reached : (programMachine RegistryId HandleId).Reaches releasesOwn trace world)
    (present : world.handles target = some handle) (valid : handle.valid = true)
    (few : ∀ registry, handle.registry = some registry →
      capacityFailures (historyOf trace registry) < 2 ^ 64 - kMaxBindings) :
    ∃ registry, handle.registry = some registry ∧
      ReassignOutcome world target registry handle.token .acquire .exclusive
        (world.reassign target handle) ∧
      ∀ group, ReassignOutcome world target registry handle.token (.acquireGroup group)
        (.group group) (world.reassignGroup target handle group) := by
  obtain ⟨registry, same, bound⟩ := valid_handle valid
  rw [same] at present few ⊢
  have live := program_handle_live reached ⟨present, bound⟩
  have run := program_registry_reaches reached registry
  exact ⟨registry, rfl, reassignWith_outcome run (few registry rfl) live rfl,
    fun group => reassignWith_outcome run (few registry rfl) live rfl⟩

def crowdedProgram : List (ProgramAction Unit Bool) :=
  [.handle (.constructGroup false () .Group0), .handle (.constructGroup true () .Group0),
    .direct () .acquire, .direct () .acquire, .direct () .acquire, .direct () (.acquireGroup .Group0),
    .direct () (.release ⟨5⟩)]

theorem crowdedProgram_runs :
    ((programMachine Unit Bool).exec releasesOwn [] (programMachine Unit Bool).start
      crowdedProgram).isSome = true := by
  decide +kernel

theorem crowdedProgram_few :
    capacityFailures (historyOf (Option.get _ crowdedProgram_runs).1 ()) < 2 ^ 64 - kMaxBindings := by
  decide +kernel

theorem reassign_outcome_crowded :
    let world := (Option.get _ crowdedProgram_runs).2
    let result := world.reassign true ⟨some (), ⟨1⟩⟩
    Threw () result.2 ∧ result.1.handles true = some ⟨some (), kInvalidToken⟩ ∧
      ¬Threw () (world.reassignGroup true ⟨some (), ⟨1⟩⟩ .Group0).2 := by
  intro world result
  have holds : world.handles true = some ⟨some (), ⟨1⟩⟩ := by decide +kernel
  have reached : (programMachine Unit Bool).Reaches releasesOwn
      (Option.get _ crowdedProgram_runs).1 world :=
    EventMachine.reaches_of_isSome crowdedProgram_runs
  obtain ⟨_, attached, alone, member⟩ :=
    reassign_outcome reached holds (by decide) fun () _ => crowdedProgram_few
  obtain rfl := Option.some.inj attached
  have stuck : (world.registries ()).Stuck ⟨1⟩ .acquire :=
    ⟨by decide +kernel, by decide +kernel, by simp⟩
  have threw := alone.throws_iff.mpr stuck
  refine ⟨threw, (alone.thrown threw).1, fun failed => ?_⟩
  have absent := ((member .Group0).throws_iff.mp failed).2.2 .Group0 rfl
  have present : (world.registries ()).groupToChannel ChannelGroup.Group0.toIndex ≠ kNoChannel := by
    decide +kernel
  exact present absent

/-- All channels are in use and the handle shares its own: it ends up without a token, and the
count of its channel has dropped. -/
theorem reassign_loses_token :
    let world := (Option.get _ crowdedProgram_runs).2
    let result := world.reassign true ⟨some (), ⟨1⟩⟩
    (programMachine Unit Bool).Reaches releasesOwn (Option.get _ crowdedProgram_runs).1 world ∧
      world.handles true = some ⟨some (), ⟨1⟩⟩ ∧
      .threw () noFreeChannels ∈ result.2 ∧
      (result.1.handles true).map RegistrationHandle.valid = some false ∧
      (world.registries ()).channelRefCount 3 = 2 ∧
      (result.1.registries ()).channelRefCount 3 = 1 :=
  ⟨EventMachine.reaches_of_isSome crowdedProgram_runs, by decide +kernel, by decide +kernel,
    by decide +kernel, by decide +kernel, by decide +kernel⟩

structure Undisturbed (world : HandleWorld RegistryId HandleId) (registry : RegistryId)
    (token : PublishToken)
    (result : HandleWorld RegistryId HandleId × List (HandleEvent RegistryId)) : Prop where
  calm : ∀ other, ¬Threw other result.2
  running : ∀ assertion, .aborted assertion ∉ result.2
  handles : result.1.handles = world.handles
  others : ∀ other, other ≠ registry → result.1.registries other = world.registries other
  channel : (result.1.registries registry).tokenToChannel token.value =
    (world.registries registry).tokenToChannel token.value
  refCounts : ∀ channel, channel < kMaxChannels →
    (result.1.registries registry).channelRefCount channel =
      (world.registries registry).channelRefCount channel
  groups : ∀ group : ChannelGroup,
    (result.1.registries registry).groupToChannel group.toIndex =
      (world.registries registry).groupToChannel group.toIndex
  freeChannels : (result.1.registries registry).freeChannelStack =
    (world.registries registry).freeChannelStack
  live : ∀ t, (result.1.registries registry).Live t ↔ (world.registries registry).Live t

theorem reassignWith_same {history : List (Call × Outcome)}
    (reached : RegistryReaches history (world.registries registry))
    (few : capacityFailures history < 2 ^ 64 - kMaxBindings) {owner : Origin}
    (owned : originOf history token.value = some owner) (acquiring : ownerOf call = some owner)
    (present : world.handles target = some ⟨some registry, token⟩) :
    Undisturbed world registry token
      (world.reassignWith target ⟨some registry, token⟩ call) := by
  obtain ⟨leaked, ok, _⟩ := reachable_consistent reached few
  have live := ok.live_of_origin owned
  have gave := ok.toSound.call_release_live live (ok.ref_ne_zero live)
  have valid := ne_kInvalidToken (ok.live_bound live)
  obtain ⟨after, granted, alike⟩ := ok.release_acquire (reachable_modes reached few) owned acquiring
  have keptAfter := (ok.toSound.call (.release token)).call call
  rw [granted] at keptAfter
  rw [gave] at granted
  rw [reassignWith_returned valid gave granted]
  constructor
  case calm => simp [Threw]
  case running => simp
  case handles => simp only [← present, Function.update_eq_self]
  case others => exact fun other different => Function.update_of_ne different _ _
  case channel => simpa using alike.bindings token.value live.2
  case refCounts => simpa using alike.refCounts
  case groups => simpa using alike.groups
  case freeChannels => simpa using alike.freeChannels
  case live => simpa using alike.live ok.toSound keptAfter

/-- While no count of its registry can have wrapped, reassigning a handle to the binding it has
succeeds and leaves everything as it was. -/
theorem reassign_same_binding
    (reached : (programMachine RegistryId HandleId).Reaches releasesOwn trace world)
    (present : world.handles target = some handle) (valid : handle.valid = true)
    (few : ∀ registry, handle.registry = some registry →
      capacityFailures (historyOf trace registry) < 2 ^ 64 - kMaxBindings) :
    ∃ registry, handle.registry = some registry ∧
      (originOf (historyOf trace registry) handle.token.value = some .exclusive →
        Undisturbed world registry handle.token (world.reassign target handle)) ∧
      ∀ group, originOf (historyOf trace registry) handle.token.value = some (.group group) →
        Undisturbed world registry handle.token (world.reassignGroup target handle group) := by
  obtain ⟨registry, same, _⟩ := valid_handle valid
  rw [same] at present few ⊢
  have run := program_registry_reaches reached registry
  exact ⟨registry, rfl, fun owned => reassignWith_same run (few registry rfl) owned rfl present,
    fun group owned => reassignWith_same run (few registry rfl) owned rfl present⟩

theorem reassign_same_binding_crowded :
    let world := (Option.get _ crowdedProgram_runs).2
    Undisturbed world () ⟨1⟩ (world.reassignGroup true ⟨some (), ⟨1⟩⟩ .Group0) := by
  intro world
  have holds : world.handles true = some ⟨some (), ⟨1⟩⟩ := by decide +kernel
  obtain ⟨_, attached, _, member⟩ := reassign_same_binding
    (EventMachine.reaches_of_isSome crowdedProgram_runs) holds (by decide)
    fun () _ => crowdedProgram_few
  obtain rfl := Option.some.inj attached
  exact member .Group0 (by decide +kernel)

def crowdingProgram : List (ProgramAction Unit Bool) :=
  .handle (.constructGroup false () .Group0) ::
    List.replicate 254 (.direct () (.acquireGroup .Group0)) ++ [.handle (.construct true ())]

theorem crowdingProgram_runs :
    ((programMachine Unit Bool).exec releasesOwn [] (programMachine Unit Bool).start
      crowdingProgram).isSome = true := by
  decide +kernel

def crowdingTrace : List (RegistryEvent Unit) := (Option.get _ crowdingProgram_runs).1

def crowdingWorld : HandleWorld Unit Bool := (Option.get _ crowdingProgram_runs).2

theorem crowdingWorld_facts :
    (crowdingWorld.registries ()).TokensExhausted ∧
      (crowdingWorld.registries ()).groupToChannel ChannelGroup.Group0.toIndex = 3 ∧
      (crowdingWorld.registries ()).channelMode 3 = .Shared ∧
      (crowdingWorld.registries ()).channelRefCount 3 = 255 := by
  decide +kernel

def wrappedWorld : HandleWorld Unit Bool :=
  { crowdingWorld with
    registries := Function.update crowdingWorld.registries ()
      ((crowdingWorld.registries ()).setReferences 3 0 .Shared) }

def wrappedHistory : List (RegistryEvent Unit) :=
  crowdingTrace ++ (List.replicate (wrapping 255)
    (.acquireGroup .Group0, .failed capacityExceeded)).map ((), ·)

theorem wrappedWorld_reaches :
    (programMachine Unit Bool).Reaches releasesOwn wrappedHistory wrappedWorld := by
  obtain ⟨exhausted, entry, shared, counted⟩ := crowdingWorld_facts
  have reached : (programMachine Unit Bool).Reaches releasesOwn crowdingTrace crowdingWorld :=
    EventMachine.reaches_of_isSome crowdingProgram_runs
  have used : (crowdingWorld.registries ()).channelRefCount 3 ≠ 0 := by
    rw [counted]
    decide
  have path := @wraps _ _ _ [] exhausted entry (by decide) shared used
  rw [counted] at path
  have keeps : ∀ event ∈ List.replicate (wrapping 255)
      (Call.acquireGroup .Group0, Outcome.failed capacityExceeded),
      ∃ owner, ownerOf event.1 = some owner := by
    intro event member
    rw [List.eq_of_mem_replicate member]
    exact ⟨_, rfl⟩
  have joined := reached.extend (direct_path path keeps)
  exact joined

def reopeningProgram : List (ProgramAction Unit Bool) :=
  [.handle (.destroy true), .handle (.constructGroup true () .Group0)]

theorem reopeningProgram_runs :
    ((programMachine Unit Bool).exec releasesOwn [] wrappedWorld reopeningProgram).isSome = true := by
  decide +kernel

def reopenedWorld : HandleWorld Unit Bool := (Option.get _ reopeningProgram_runs).2

def reopenedHistory : List (RegistryEvent Unit) :=
  wrappedHistory ++ (Option.get _ reopeningProgram_runs).1

theorem reopenedWorld_reaches :
    (programMachine Unit Bool).Reaches releasesOwn reopenedHistory reopenedWorld := by
  have path := EventMachine.path_of_isSome reopeningProgram_runs
  have joined := wrappedWorld_reaches.extend
    (path.rebase fun _ _ _ _ permitted => releasesOwn_ignores permitted)
  exact joined

theorem reopenedHistory_origin :
    originOf (historyOf reopenedHistory ()) 0 = some (.group .Group0) := by
  rw [reopenedHistory, wrappedHistory, historyOf_append, historyOf_append, historyOf_direct,
    originOf_append, originOf_joins]
  decide +kernel

/-- The handle's channel still has its members and its count is zero: giving the token back
fails an assertion. -/
theorem reassign_same_binding_aborts :
    ∃ (trace : List (RegistryEvent Unit)) (world : HandleWorld Unit Bool),
      (programMachine Unit Bool).Reaches releasesOwn trace world ∧
        world.handles false = some ⟨some (), ⟨0⟩⟩ ∧
        originOf (historyOf trace ()) 0 = some (.group .Group0) ∧
        (world.reassignGroup false ⟨some (), ⟨0⟩⟩ .Group0).2 =
          [.aborted "Channel ref count underflow"] ∧
        ¬Undisturbed world () ⟨0⟩ (world.reassignGroup false ⟨some (), ⟨0⟩⟩ .Group0) := by
  have fails : (reopenedWorld.reassignGroup false ⟨some (), ⟨0⟩⟩ .Group0).2 =
      [.aborted "Channel ref count underflow"] := by
    decide +kernel
  refine ⟨_, _, reopenedWorld_reaches, by decide +kernel, reopenedHistory_origin, fails,
    fun undisturbed => ?_⟩
  have runs := undisturbed.running "Channel ref count underflow"
  rw [fails] at runs
  exact runs (List.mem_singleton_self _)

end Programs

end MyServer
