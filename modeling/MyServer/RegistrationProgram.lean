import MyServer.RegistrationHandle
import MyServer.TokenRegistryPool

/-!
Programs that use registries through handles and directly. What a registry has been through
in such a program is a run of the registry alone; and a token obtained directly behaves
like a handle in a slot that the program never names.
-/

namespace MyServer

open TokenRegistry

variable {RegistryId HandleId : Type} [DecidableEq RegistryId] [DecidableEq HandleId]

inductive ProgramAction (RegistryId HandleId : Type)
  | handle (action : HandleAction RegistryId HandleId)
  | direct (registry : RegistryId) (call : Call)

abbrev RegistryEvent (RegistryId : Type) := RegistryId × Call × Outcome

def HandleAction.acquires : HandleAction RegistryId HandleId → Call
  | .constructGroup _ _ group | .reassignGroup _ group => .acquireGroup group
  | _ => .acquire

def HandleEvent.registryEvent (acquires : Call) :
    HandleEvent RegistryId → Option (RegistryEvent RegistryId)
  | .acquired registry token => some (registry, acquires, .returned token)
  | .released registry token => some (registry, .release token, .released)
  | .threw registry failure => some (registry, acquires, .failed failure)
  | .caught _ _ | .aborted _ => none

def HandleWorld.direct (world : HandleWorld RegistryId HandleId) (registry : RegistryId)
    (call : Call) : HandleWorld RegistryId HandleId :=
  { world with
    registries :=
      Function.update world.registries registry ((world.registries registry).call call).2 }

def programMachine (RegistryId HandleId : Type) [DecidableEq RegistryId] [DecidableEq HandleId] :
    EventMachine (HandleWorld RegistryId HandleId) (ProgramAction RegistryId HandleId)
      (RegistryEvent RegistryId) where
  start := (handleMachine RegistryId HandleId).start
  step world
    | .handle action => (world.step action).map fun result =>
        (result.1, result.2.filterMap (HandleEvent.registryEvent action.acquires))
    | .direct registry call => some (world.direct registry call,
        [(registry, call, ((world.registries registry).call call).1)])

def releasesOwn (_ : List (RegistryEvent RegistryId)) (world : HandleWorld RegistryId HandleId) :
    ProgramAction RegistryId HandleId → Prop
  | .handle action => reassignsAttached [] world action
  | .direct registry (.release token) => ∀ slot, ¬Holds world.handles slot registry token.value
  | .direct _ _ => True

instance (handles : HandleId → Option (RegistrationHandle RegistryId)) (slot : HandleId)
    (registry : RegistryId) (token : Nat) : Decidable (Holds handles slot registry token) :=
  inferInstanceAs (Decidable (_ ∧ _))

instance [Fintype HandleId] (trace : List (RegistryEvent RegistryId))
    (world : HandleWorld RegistryId HandleId) :
    (action : ProgramAction RegistryId HandleId) → Decidable (releasesOwn trace world action)
  | .handle action => inferInstanceAs (Decidable (reassignsAttached [] world action))
  | .direct registry (.release token) =>
      inferInstanceAs (Decidable (∀ slot, ¬Holds world.handles slot registry token.value))
  | .direct _ .acquire | .direct _ (.acquireGroup _) => .isTrue trivial

omit [DecidableEq RegistryId] [DecidableEq HandleId] in
theorem releasesOwn_ignores {trace other : List (RegistryEvent RegistryId)}
    {world : HandleWorld RegistryId HandleId} {action : ProgramAction RegistryId HandleId}
    (permitted : releasesOwn trace world action) : releasesOwn other world action := by
  cases action with
  | handle action => cases action <;> exact permitted
  | direct registry call => cases call <;> exact permitted

def historyOf (trace : List (RegistryEvent RegistryId)) (registry : RegistryId) :
    List (Call × Outcome) :=
  (trace.filter (·.1 = registry)).map Prod.snd

theorem historyOf_append (trace later : List (RegistryEvent RegistryId)) (registry : RegistryId) :
    historyOf (trace ++ later) registry = historyOf trace registry ++ historyOf later registry := by
  simp [historyOf]

/-- From `before` to `after` the registries went through the calls `events`, in this order. -/
def Logged (before after : RegistryId → TokenRegistry) (events : List (RegistryEvent RegistryId)) :
    Prop :=
  ∀ registry trace, RegistryReaches trace (before registry) →
    RegistryReaches (trace ++ historyOf events registry) (after registry)

theorem Logged.nil (registries : RegistryId → TokenRegistry) : Logged registries registries [] := by
  intro registry trace reached
  simpa [historyOf] using reached

theorem Logged.trans {first second third : RegistryId → TokenRegistry}
    {events later : List (RegistryEvent RegistryId)} (left : Logged first second events)
    (right : Logged second third later) : Logged first third (events ++ later) := by
  intro registry trace reached
  rw [historyOf_append, ← List.append_assoc]
  exact right _ _ (left _ _ reached)

theorem logged_call (registries : RegistryId → TokenRegistry) (registry : RegistryId)
    (call : Call) :
    Logged registries
      (Function.update registries registry ((registries registry).call call).2)
      [(registry, call, ((registries registry).call call).1)] := by
  intro other trace reached
  by_cases same : other = registry
  · subst same
    have stepped : RegistryReaches (trace ++ [(call, ((registries other).call call).1)])
        ((registries other).call call).2 := .snoc reached trivial rfl
    simpa [historyOf] using stepped
  · have apart : registry ≠ other := Ne.symm same
    simpa [historyOf, same, apart] using reached

/-- A release that fails leaves the registry alone, whether `release` of the handle catches it
or an assertion ends it. -/
theorem logged_release {registries after : RegistryId → TokenRegistry}
    {handle : RegistrationHandle RegistryId} {released : Option (RegistrationHandle RegistryId)}
    {events : List (HandleEvent RegistryId)}
    (ran : handle.release registries = (after, released, events)) (acquires : Call) :
    Logged registries after (events.filterMap (HandleEvent.registryEvent acquires)) := by
  have idle : Logged registries registries
      (([] : List (HandleEvent RegistryId)).filterMap (HandleEvent.registryEvent acquires)) :=
    .nil registries
  unfold RegistrationHandle.release at ran
  cases attached : handle.registry with
  | none =>
      simp only [attached, Prod.mk.injEq] at ran
      obtain ⟨rfl, _, rfl⟩ := ran
      exact idle
  | some registry =>
      simp only [attached] at ran
      split at ran
      · have called := logged_call registries registry (.release handle.token)
        cases ended : ((registries registry).call (.release handle.token)).1 with
        | released =>
            simp only [ended, Prod.mk.injEq] at ran
            obtain ⟨rfl, _, rfl⟩ := ran
            simpa [ended, HandleEvent.registryEvent] using called
        | returned token =>
            simp only [TokenRegistry.call] at ended
            split at ended <;> simp at ended
        | failed failure =>
            have silent : after = Function.update registries registry
                ((registries registry).call (.release handle.token)).2 ∧
                events.filterMap (HandleEvent.registryEvent acquires) = [] := by
              rw [ended] at ran
              cases failure with
              | throws | aborts | outOfBounds =>
                  obtain ⟨rfl, _, rfl⟩ := by simpa only [Prod.mk.injEq] using ran
                  exact ⟨rfl, by simp [HandleEvent.registryEvent]⟩
            obtain ⟨rfl, quiet⟩ := silent
            intro other trace reached
            have kept : Function.update registries registry
                ((registries registry).call (.release handle.token)).2 other =
                  registries other := by
              by_cases same : other = registry
              · subst same
                rw [Function.update_self]
                exact (reachable_sound reached).release_fails ended
              · simp [same]
            rw [kept, quiet]
            simpa [historyOf] using reached
      · simp only [Prod.mk.injEq] at ran
        obtain ⟨rfl, _, rfl⟩ := ran
        exact idle

theorem logged_acquireFor {registries after : RegistryId → TokenRegistry}
    {registry : RegistryId} {call : Call} {token : Option PublishToken}
    {events : List (HandleEvent RegistryId)} {owner : Origin}
    (acquiring : ownerOf call = some owner)
    (ran : acquireFor registries registry call = (after, token, events)) :
    Logged registries after (events.filterMap (HandleEvent.registryEvent call)) := by
  have called := logged_call registries registry call
  unfold acquireFor at ran
  cases ended : ((registries registry).call call).1 with
  | returned _ =>
      simp only [ended, Prod.mk.injEq] at ran
      obtain ⟨rfl, _, rfl⟩ := ran
      simpa [ended, HandleEvent.registryEvent] using called
  | failed _ =>
      simp only [ended, Prod.mk.injEq] at ran
      obtain ⟨rfl, _, rfl⟩ := ran
      simpa [ended, HandleEvent.registryEvent] using called
  | released =>
      cases call with
      | acquire => simp only [TokenRegistry.call] at ended; split at ended <;> simp at ended
      | acquireGroup group =>
          simp only [TokenRegistry.call] at ended
          split at ended <;> simp at ended
      | release token => simp [ownerOf] at acquiring

variable {world next : HandleWorld RegistryId HandleId}

theorem logged_constructWith (target : HandleId) (registry : RegistryId) {call : Call}
    {owner : Origin} (acquiring : ownerOf call = some owner) :
    Logged world.registries (world.constructWith target registry call).1.registries
      ((world.constructWith target registry call).2.filterMap
        (HandleEvent.registryEvent call)) := by
  unfold HandleWorld.constructWith
  split <;> rename_i ran <;> exact logged_acquireFor acquiring ran

theorem logged_reassignWith (target : HandleId) (handle : RegistrationHandle RegistryId)
    {call : Call} {owner : Origin} (acquiring : ownerOf call = some owner) :
    Logged world.registries (world.reassignWith target handle call).1.registries
      ((world.reassignWith target handle call).2.filterMap (HandleEvent.registryEvent call)) := by
  rcases released : handle.release world.registries with ⟨registries, detached, events⟩
  unfold HandleWorld.reassignWith
  cases handle.registry with
  | none => exact .nil _
  | some registry =>
      cases detached with
      | none =>
          simp only [released]
          exact logged_release released call
      | some detached =>
          simp only [released]
          split <;> rename_i ran <;> simp only [List.filterMap_append] <;>
            exact (logged_release released call).trans (logged_acquireFor acquiring ran)

/-- One operation on handles, as the registries see it. -/
theorem HandleWorld.step_logged {action : HandleAction RegistryId HandleId}
    {events : List (HandleEvent RegistryId)} (stepped : world.step action = some (next, events)) :
    Logged world.registries next.registries
      (events.filterMap (HandleEvent.registryEvent action.acquires)) := by
  have ended : ∀ {result : HandleWorld RegistryId HandleId × List (HandleEvent RegistryId)},
      Logged world.registries result.1.registries
        (result.2.filterMap (HandleEvent.registryEvent action.acquires)) →
      result = (next, events) → Logged world.registries next.registries
        (events.filterMap (HandleEvent.registryEvent action.acquires)) := by
    rintro result logged rfl
    exact logged
  cases action with
  | defaultConstruct target =>
      simp only [HandleWorld.step] at stepped
      split at stepped
      · exact ended (.nil _) (Option.some.inj stepped)
      · simp at stepped
  | construct target registry =>
      simp only [HandleWorld.step] at stepped
      split at stepped
      · have logged := @logged_constructWith _ _ _ _ world target registry .acquire _ rfl
        exact ended logged (Option.some.inj stepped)
      · simp at stepped
  | constructGroup target registry group =>
      simp only [HandleWorld.step] at stepped
      split at stepped
      · exact ended (logged_constructWith target registry rfl) (Option.some.inj stepped)
      · simp at stepped
  | moveConstruct target source =>
      simp only [HandleWorld.step] at stepped
      split at stepped
      · exact ended (.nil _) (Option.some.inj stepped)
      · simp at stepped
  | moveAssign target source =>
      simp only [HandleWorld.step] at stepped
      split at stepped
      · refine ended ?_ (Option.some.inj stepped)
        unfold HandleWorld.moveAssign
        split
        · split <;> rename_i ran <;> exact logged_release ran _
        · exact .nil _
      · simp at stepped
  | reassign target =>
      obtain ⟨handle, _, result⟩ := Option.map_eq_some_iff.mp stepped
      exact ended (logged_reassignWith target handle rfl) result
  | reassignGroup target group =>
      obtain ⟨handle, _, result⟩ := Option.map_eq_some_iff.mp stepped
      exact ended (logged_reassignWith target handle rfl) result
  | destroy target =>
      obtain ⟨handle, _, result⟩ := Option.map_eq_some_iff.mp stepped
      refine ended ?_ result
      unfold HandleWorld.destroy
      split <;> rename_i ran <;> exact logged_release ran _

/-- What a registry has been through in a program is a run of that registry. -/
theorem program_registry_reaches
    {allowed : List (RegistryEvent RegistryId) → HandleWorld RegistryId HandleId →
      ProgramAction RegistryId HandleId → Prop} {trace : List (RegistryEvent RegistryId)}
    (reached : (programMachine RegistryId HandleId).Reaches allowed trace world)
    (registry : RegistryId) :
    RegistryReaches (historyOf trace registry) (world.registries registry) := by
  refine reached.invariant
    (fun trace world => RegistryReaches (historyOf trace registry) (world.registries registry))
    .nil ?_
  intro trace world action next events sofar _ stepped
  rw [historyOf_append]
  cases action with
  | handle action =>
      obtain ⟨⟨after, emitted⟩, ran, same⟩ := Option.map_eq_some_iff.mp stepped
      obtain ⟨rfl, rfl⟩ := Prod.mk.inj same
      exact HandleWorld.step_logged ran registry _ sofar
  | direct other call =>
      obtain ⟨rfl, rfl⟩ := Prod.mk.inj (Option.some.inj stepped)
      exact logged_call world.registries other call registry _ sofar

theorem historyOf_direct (registry : RegistryId) (calls : List (Call × Outcome)) :
    historyOf (calls.map (registry, ·)) registry = calls := by
  induction calls with
  | nil => rfl
  | cons call rest ih => simpa [historyOf] using ih

/-- A run of one registry that releases nothing, called directly. -/
theorem direct_path {before : List (RegistryEvent RegistryId)} {earlier : List (Call × Outcome)}
    {registry : RegistryId} {segment : List (Call × Outcome)} {last : TokenRegistry}
    (path : registryMachine.Path EventMachine.anyAction earlier (world.registries registry) segment
      last)
    (keeps : ∀ event ∈ segment, ∃ owner, ownerOf event.1 = some owner) :
    (programMachine RegistryId HandleId).Path releasesOwn before world
      (segment.map (registry, ·))
      { world with registries := Function.update world.registries registry last } := by
  induction path with
  | nil =>
      rw [Function.update_eq_self]
      exact .nil
  | @snoc segment s call next events _ _ stepped ih =>
      obtain ⟨rfl, rfl⟩ := Prod.mk.inj (Option.some.inj stepped)
      have sofar := ih fun event member => keeps event (List.mem_append_left _ member)
      obtain ⟨owner, acquiring⟩ := keeps _ (List.mem_append_right segment (List.mem_singleton_self _))
      rw [List.map_append]
      have called : (programMachine RegistryId HandleId).step
          { world with registries := Function.update world.registries registry s }
          (.direct registry call) = some
            ({ world with registries := Function.update world.registries registry (s.call call).2 },
              [(registry, call, (s.call call).1)]) := by
        simp [programMachine, HandleWorld.direct]
      refine .snoc sofar ?_ called
      cases call with
      | acquire | acquireGroup group => trivial
      | release token => simp [ownerOf] at acquiring

/-! Tokens obtained directly, as handles in slots of their own. -/

def HandleAction.rename {Slot : Type} (name : HandleId → Slot) :
    HandleAction RegistryId HandleId → HandleAction RegistryId Slot
  | .defaultConstruct target => .defaultConstruct (name target)
  | .construct target registry => .construct (name target) registry
  | .constructGroup target registry group => .constructGroup (name target) registry group
  | .moveConstruct target source => .moveConstruct (name target) (name source)
  | .moveAssign target source => .moveAssign (name target) (name source)
  | .reassign target => .reassign (name target)
  | .reassignGroup target group => .reassignGroup (name target) group
  | .destroy target => .destroy (name target)

def HandleWorld.named (world : HandleWorld RegistryId (HandleId ⊕ Nat)) :
    HandleWorld RegistryId HandleId :=
  { registries := world.registries, handles := world.handles ∘ Sum.inl }

omit [DecidableEq RegistryId] in
theorem update_named (handles : HandleId ⊕ Nat → Option (RegistrationHandle RegistryId))
    (slot : HandleId) (value : Option (RegistrationHandle RegistryId)) :
    Function.update handles (.inl slot) value ∘ Sum.inl =
      Function.update (handles ∘ Sum.inl) slot value :=
  Function.update_comp_eq_of_injective handles Sum.inl_injective slot value

omit [DecidableEq RegistryId] in
theorem update_numbered (handles : HandleId ⊕ Nat → Option (RegistrationHandle RegistryId))
    (slot : HandleId) (value : Option (RegistrationHandle RegistryId)) :
    Function.update handles (.inl slot) value ∘ Sum.inr = handles ∘ Sum.inr :=
  Function.update_comp_eq_of_forall_ne handles value (by simp)

/-- `wide` ends up as `result` on the named slots, with the numbered ones untouched. -/
structure Widens (wide : HandleWorld RegistryId (HandleId ⊕ Nat))
    (after : HandleWorld RegistryId (HandleId ⊕ Nat) × List (HandleEvent RegistryId))
    (result : HandleWorld RegistryId HandleId × List (HandleEvent RegistryId)) : Prop where
  named : after.1.named = result.1
  events : after.2 = result.2
  numbered : after.1.handles ∘ Sum.inr = wide.handles ∘ Sum.inr

variable {wide : HandleWorld RegistryId (HandleId ⊕ Nat)}

omit [DecidableEq RegistryId] in
theorem Widens.update (registries : RegistryId → TokenRegistry) (slot : HandleId)
    (value : Option (RegistrationHandle RegistryId)) (events : List (HandleEvent RegistryId)) :
    Widens wide (⟨registries, Function.update wide.handles (.inl slot) value⟩, events)
      (⟨registries, Function.update wide.named.handles slot value⟩, events) :=
  ⟨congrArg _ (update_named _ _ _), rfl, update_numbered _ _ _⟩

omit [DecidableEq RegistryId] in
theorem Widens.update_two (registries : RegistryId → TokenRegistry) (slot other : HandleId)
    (value later : Option (RegistrationHandle RegistryId))
    (events : List (HandleEvent RegistryId)) :
    Widens wide
      (⟨registries, Function.update (Function.update wide.handles (.inl slot) value) (.inl other)
        later⟩, events)
      (⟨registries, Function.update (Function.update wide.named.handles slot value) other later⟩,
        events) := by
  refine ⟨?_, rfl, ?_⟩
  · simp only [HandleWorld.named, update_named]
  · simp only [update_numbered]

theorem widens_constructWith (target : HandleId) (registry : RegistryId) (call : Call) :
    Widens wide (wide.constructWith (.inl target) registry call)
      (wide.named.constructWith target registry call) := by
  rcases ran : acquireFor wide.registries registry call with ⟨registries, token | token, events⟩
  · simp only [HandleWorld.constructWith, HandleWorld.named, ran]
    exact ⟨rfl, rfl, rfl⟩
  · simp only [HandleWorld.constructWith, HandleWorld.named, ran]
    exact .update registries target _ events

theorem widens_reassignWith (target : HandleId) (handle : RegistrationHandle RegistryId)
    (call : Call) :
    Widens wide (wide.reassignWith (.inl target) handle call)
      (wide.named.reassignWith target handle call) := by
  rcases released : handle.release wide.registries with ⟨registries, detached | detached, events⟩ <;>
    unfold HandleWorld.reassignWith <;> cases handle.registry with
    | none => exact ⟨rfl, rfl, rfl⟩
    | some registry =>
        rcases ran : acquireFor registries registry call with ⟨after, token | token, later⟩ <;>
          simp only [HandleWorld.named, released, ran] <;>
          first | exact ⟨rfl, rfl, rfl⟩ | exact .update after target _ _

theorem widens_moveAssign (target source : HandleId) (handle other : RegistrationHandle RegistryId) :
    Widens wide (wide.moveAssign (.inl target) (.inl source) handle other)
      (wide.named.moveAssign target source handle other) := by
  by_cases different : target ≠ source
  · rcases released : handle.release wide.registries with
      ⟨registries, detached | detached, events⟩ <;>
      simp only [HandleWorld.moveAssign, HandleWorld.named, different, ne_eq, Sum.inl.injEq,
        not_false_eq_true, if_true, released]
    · exact ⟨rfl, rfl, rfl⟩
    · exact .update_two _ _ _ _ _ _
  · simp only [HandleWorld.moveAssign, HandleWorld.named, different, ne_eq, Sum.inl.injEq, if_false]
    exact ⟨rfl, rfl, rfl⟩

theorem widens_destroy (target : HandleId) (handle : RegistrationHandle RegistryId) :
    Widens wide (wide.destroy (.inl target) handle) (wide.named.destroy target handle) := by
  rcases released : handle.release wide.registries with
    ⟨registries, detached | detached, events⟩ <;>
    simp only [HandleWorld.destroy, HandleWorld.named, released]
  · exact ⟨rfl, rfl, rfl⟩
  · exact .update _ _ _ _

/-- A renamed operation does to the named slots what the operation does, and nothing to the rest. -/
theorem HandleWorld.step_named {action : HandleAction RegistryId HandleId}
    {events : List (HandleEvent RegistryId)}
    (stepped : wide.named.step action = some (next, events)) :
    ∃ after, wide.step (action.rename Sum.inl) = some (after, events) ∧ after.named = next ∧
      after.handles ∘ Sum.inr = wide.handles ∘ Sum.inr := by
  have ended : ∀ {after result}, Widens wide after result → result = (next, events) →
      wide.step (action.rename Sum.inl) = some after →
      ∃ after, wide.step (action.rename Sum.inl) = some (after, events) ∧ after.named = next ∧
        after.handles ∘ Sum.inr = wide.handles ∘ Sum.inr := by
    rintro ⟨after, emitted⟩ _ widens rfl ran
    obtain rfl : emitted = events := widens.events
    exact ⟨after, ran, widens.named, widens.numbered⟩
  cases action with
  | defaultConstruct target =>
      simp only [HandleWorld.step] at stepped
      split at stepped
      · rename_i empty
        refine ended (.update _ _ _ _) (Option.some.inj stepped) ?_
        have vacant : wide.handles (.inl target) = none := empty
        simp only [HandleAction.rename, HandleWorld.step, vacant]
        rfl
      · simp at stepped
  | construct target registry =>
      simp only [HandleWorld.step] at stepped
      split at stepped
      · rename_i empty
        refine ended (widens_constructWith _ _ _) (Option.some.inj stepped) ?_
        have vacant : wide.handles (.inl target) = none := empty
        simp only [HandleAction.rename, HandleWorld.step, vacant]
        rfl
      · simp at stepped
  | constructGroup target registry group =>
      simp only [HandleWorld.step] at stepped
      split at stepped
      · rename_i empty
        refine ended (widens_constructWith _ _ _) (Option.some.inj stepped) ?_
        have vacant : wide.handles (.inl target) = none := empty
        simp only [HandleAction.rename, HandleWorld.step, vacant]
        rfl
      · simp at stepped
  | moveConstruct target source =>
      simp only [HandleWorld.step] at stepped
      split at stepped
      · rename_i other empty present
        refine ended (.update_two _ _ _ _ _ _) (Option.some.inj stepped) ?_
        have vacant : wide.handles (.inl target) = none := empty
        have held : wide.handles (.inl source) = some other := present
        simp only [HandleAction.rename, HandleWorld.step, vacant, held]
        rfl
      · simp at stepped
  | moveAssign target source =>
      simp only [HandleWorld.step] at stepped
      split at stepped
      · rename_i handle other present otherPresent
        refine ended (widens_moveAssign _ _ _ _) (Option.some.inj stepped) ?_
        have held : wide.handles (.inl target) = some handle := present
        have otherHeld : wide.handles (.inl source) = some other := otherPresent
        simp only [HandleAction.rename, HandleWorld.step, held, otherHeld]
      · simp at stepped
  | reassign target =>
      obtain ⟨handle, present, result⟩ := Option.map_eq_some_iff.mp stepped
      refine ended (widens_reassignWith _ _ _) result ?_
      exact Option.map_eq_some_iff.mpr ⟨handle, present, rfl⟩
  | reassignGroup target group =>
      obtain ⟨handle, present, result⟩ := Option.map_eq_some_iff.mp stepped
      refine ended (widens_reassignWith _ _ _) result ?_
      exact Option.map_eq_some_iff.mpr ⟨handle, present, rfl⟩
  | destroy target =>
      obtain ⟨handle, present, result⟩ := Option.map_eq_some_iff.mp stepped
      refine ended (widens_destroy _ _) result ?_
      exact Option.map_eq_some_iff.mpr ⟨handle, present, rfl⟩

theorem constructWith_registries (target : HandleId) (registry : RegistryId) (call : Call) :
    (world.constructWith target registry call).1.registries =
      Function.update world.registries registry ((world.registries registry).call call).2 := by
  unfold HandleWorld.constructWith acquireFor
  rcases (world.registries registry).call call with ⟨outcome, after⟩
  cases outcome <;> rfl

theorem constructWith_handles {target slot : HandleId} (different : slot ≠ target)
    (registry : RegistryId) (call : Call) :
    (world.constructWith target registry call).1.handles slot = world.handles slot := by
  unfold HandleWorld.constructWith
  split
  · exact Function.update_of_ne different _ _
  · rfl

/-- The program's world as a world of handles only, with fresh slots from `bound` on. -/
structure Widened (world : HandleWorld RegistryId HandleId)
    (wide : HandleWorld RegistryId (HandleId ⊕ Nat)) (bound : Nat) : Prop where
  reached : ∃ trace, (handleMachine RegistryId (HandleId ⊕ Nat)).Reaches reassignsAttached trace wide
  named : wide.named = world
  vacant : ∀ slot, bound ≤ slot → wide.handles (.inr slot) = none

/-- A direct acquire is the construction of a handle in a fresh slot. -/
theorem Widened.acquire {bound : Nat} (widened : Widened world wide bound)
    (registry : RegistryId) {call : Call} {owner : Origin} (acquiring : ownerOf call = some owner) :
    Widened (world.direct registry call)
      (wide.constructWith (.inr bound) registry call).1 (bound + 1) := by
  obtain ⟨⟨trace, reached⟩, rfl, vacant⟩ := widened
  have empty := vacant bound (Nat.le_refl _)
  have others : ∀ slot, slot ≠ Sum.inr bound →
      (wide.constructWith (.inr bound) registry call).1.handles slot = wide.handles slot :=
    fun slot different => constructWith_handles different registry call
  have stepped : ∃ action, reassignsAttached trace wide action ∧
      wide.step action = some (wide.constructWith (.inr bound) registry call) := by
    cases call with
    | acquire =>
        refine ⟨.construct (.inr bound) registry, trivial, ?_⟩
        simp only [HandleWorld.step, empty]
        rfl
    | acquireGroup group =>
        refine ⟨.constructGroup (.inr bound) registry group, trivial, ?_⟩
        simp only [HandleWorld.step, empty]
        rfl
    | release token => simp [ownerOf] at acquiring
  obtain ⟨action, permitted, stepped⟩ := stepped
  refine ⟨⟨_, .snoc reached permitted stepped⟩, ?_, fun slot above => ?_⟩
  · simp only [HandleWorld.named, HandleWorld.direct, constructWith_registries,
      HandleWorld.mk.injEq, true_and]
    exact funext fun slot => others (.inl slot) (by simp)
  · rw [others (.inr slot) (by simp; omega)]
    exact vacant slot (by omega)

/-- A direct release of a live token is the destruction of the handle that stands for it. -/
theorem Widened.release {bound : Nat} (widened : Widened world wide bound)
    {registry : RegistryId} {token : PublishToken}
    (unheld : ∀ slot, ¬Holds world.handles slot registry token.value) :
    ∃ after, Widened (world.direct registry (.release token)) after bound := by
  obtain ⟨⟨trace, reached⟩, rfl, vacant⟩ := widened
  have owned := handles_owned reached
  have ok := owned.sound registry
  cases ended : ((wide.registries registry).call (.release token)).1 with
  | failed failure =>
      have same := ok.release_fails ended
      refine ⟨wide, ⟨trace, reached⟩, ?_, vacant⟩
      simp [HandleWorld.named, HandleWorld.direct, same]
  | returned taken =>
      simp only [TokenRegistry.call] at ended
      split at ended <;> simp at ended
  | released =>
      have live := ((ok.released_iff token).mp ended).1
      obtain ⟨slot, held, valid⟩ := owned.covered registry token.value live
      cases slot with
      | inl slot => exact absurd ⟨held, valid⟩ (unheld slot)
      | inr slot =>
          have destroyed : (wide.destroy (.inr slot) ⟨some registry, ⟨token.value⟩⟩).1 =
              ⟨Function.update wide.registries registry
                  ((wide.registries registry).call (.release token)).2,
                Function.update wide.handles (.inr slot) none⟩ := by
            simp [HandleWorld.destroy, RegistrationHandle.release, valid, ended]
          have stepped : wide.step (.destroy (.inr slot)) =
              some (wide.destroy (.inr slot) ⟨some registry, ⟨token.value⟩⟩) :=
            Option.map_eq_some_iff.mpr ⟨_, held, rfl⟩
          rcases done : wide.destroy (.inr slot) ⟨some registry, ⟨token.value⟩⟩ with ⟨after, events⟩
          rw [done] at destroyed stepped
          obtain rfl : after = _ := destroyed
          have permitted : reassignsAttached trace wide (.destroy (.inr slot)) := trivial
          refine ⟨_, ⟨_, .snoc reached permitted stepped⟩, ?_, fun other above => ?_⟩
          · simp only [HandleWorld.named, HandleWorld.direct, HandleWorld.mk.injEq, true_and]
            exact funext fun other => Function.update_of_ne (by simp) _ _
          · by_cases same : other = slot
            · simp [same]
            · simpa [same] using vacant other above

theorem Widened.step {bound : Nat} (widened : Widened world wide bound)
    {action : ProgramAction RegistryId HandleId} {trace events : List (RegistryEvent RegistryId)}
    (permitted : releasesOwn trace world action)
    (stepped : (programMachine RegistryId HandleId).step world action = some (next, events)) :
    ∃ after bound, Widened next after bound := by
  cases action with
  | handle action =>
      obtain ⟨⟨trace, reached⟩, rfl, vacant⟩ := widened
      obtain ⟨⟨_, _⟩, ran, same⟩ := Option.map_eq_some_iff.mp stepped
      obtain ⟨rfl, rfl⟩ := Prod.mk.inj same
      obtain ⟨after, ranWide, named, numbered⟩ := HandleWorld.step_named ran
      have permittedWide : reassignsAttached trace wide (action.rename Sum.inl) := by
        cases action <;> exact permitted
      refine ⟨after, bound, ⟨_, .snoc reached permittedWide ranWide⟩, named, fun slot above => ?_⟩
      exact (congrFun numbered slot).trans (vacant slot above)
  | direct registry call =>
      obtain ⟨rfl, rfl⟩ := Prod.mk.inj (Option.some.inj stepped)
      cases call with
      | acquire => exact ⟨_, _, widened.acquire registry rfl⟩
      | acquireGroup group => exact ⟨_, _, widened.acquire registry rfl⟩
      | release token =>
          obtain ⟨after, released⟩ := widened.release permitted
          exact ⟨after, bound, released⟩

theorem program_widened {trace : List (RegistryEvent RegistryId)}
    (reached : (programMachine RegistryId HandleId).Reaches releasesOwn trace world) :
    ∃ wide bound, Widened world wide bound := by
  refine reached.invariant (fun _ world => ∃ wide bound, Widened world wide bound)
    ⟨_, 0, ⟨[], .nil⟩, rfl, fun _ _ => rfl⟩ ?_
  rintro _ world action next events ⟨wide, bound, widened⟩ permitted stepped
  exact widened.step permitted stepped

/-- In a program that releases the tokens of handles through handles, valid handles hold live tokens. -/
theorem program_handle_live {trace : List (RegistryEvent RegistryId)}
    (reached : (programMachine RegistryId HandleId).Reaches releasesOwn trace world)
    {slot : HandleId} {registry : RegistryId} {token : Nat}
    (holds : Holds world.handles slot registry token) : (world.registries registry).Live token := by
  obtain ⟨wide, _, ⟨_, reachedWide⟩, rfl, _⟩ := program_widened reached
  exact (handles_owned reachedWide).live (.inl slot) registry token holds

end MyServer
