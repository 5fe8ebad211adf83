import MyServer.TokenRegistryCalls

/-!
The registry as its callers see it. Which tokens come next is one list, the recycled ones
before the fresh ones, so two registries whose free stacks and counters differ can still
be alike. Every call keeps likeness and ends the same way on both sides.
-/

namespace MyServer

namespace TokenRegistry

variable {s t u : TokenRegistry}

def supply (s : TokenRegistry) : List Nat :=
  s.freeTokenStack.reverse ++ List.range' s.nextToken (kMaxBindings - s.nextToken)

theorem supply_of_takeToken {token : PublishToken} {rest : TokenRegistry}
    (taken : takeToken s = some (token, rest)) : s.supply = token.value :: rest.supply := by
  rcases takeToken_cases taken with ⟨count, counted, rfl, rfl⟩ | ⟨counted, room, rfl, rfl⟩
  · simp [supply, freeTokenStack, counted, ArrayStack.contents_succ]
  · obtain ⟨left, remaining⟩ : ∃ left, kMaxBindings - s.nextToken = left + 1 :=
      Nat.exists_eq_succ_of_ne_zero (by omega)
    have fewer : kMaxBindings - (s.nextToken + 1) = left := by omega
    simp [supply, freeTokenStack, counted, remaining, fewer, List.range'_succ]

theorem takeToken_isNone (bound : s.nextToken ≤ kMaxBindings) :
    takeToken s = none ↔ s.supply = [] := by
  constructor
  · intro missing
    unfold takeToken at missing
    split at missing
    · simp at missing
    · rename_i counted
      split at missing
      · simp at missing
      · rename_i full
        have same : kMaxBindings - s.nextToken = 0 := by omega
        simp [supply, freeTokenStack, counted, same]
  · intro empty
    by_contra present
    obtain ⟨⟨token, rest⟩, taken⟩ := Option.ne_none_iff_exists'.mp present
    simp [supply_of_takeToken taken] at empty

theorem supply_unbound (s : TokenRegistry) (token : PublishToken) :
    (s.unbound token).supply = token.value :: s.supply := by
  have stackEq : (s.unbound token).freeTokenStack = s.freeTokenStack ++ [token.value] := by
    simp only [freeTokenStack, unbound, Function.comp_update]
    exact ArrayStack.contents_push _ _ _
  have nextEq : (s.unbound token).nextToken = s.nextToken := rfl
  simp [supply, stackEq, nextEq]

structure Alike (s t : TokenRegistry) : Prop where
  freeChannels : t.freeChannelStack = s.freeChannelStack
  refCounts : ∀ channel, channel < kMaxChannels →
    t.channelRefCount channel = s.channelRefCount channel
  modes : ∀ channel, channel < kMaxChannels → 0 < s.channelRefCount channel →
    t.channelMode channel = s.channelMode channel
  groups : ∀ group : ChannelGroup,
    t.groupToChannel group.toIndex = s.groupToChannel group.toIndex
  supply : t.supply = s.supply
  tokenUsed : t.tokenUsed = s.tokenUsed
  bindings : ∀ token, s.tokenUsed token = true → t.tokenToChannel token = s.tokenToChannel token

theorem Alike.refl (s : TokenRegistry) : Alike s s :=
  ⟨rfl, fun _ _ => rfl, fun _ _ _ => rfl, fun _ => rfl, rfl, rfl, fun _ _ => rfl⟩

theorem Alike.trans (first : Alike s t) (second : Alike t u) : Alike s u where
  freeChannels := second.freeChannels.trans first.freeChannels
  refCounts channel bound := (second.refCounts channel bound).trans (first.refCounts channel bound)
  modes channel bound used :=
    (second.modes channel bound (by rwa [first.refCounts channel bound])).trans
      (first.modes channel bound used)
  groups group := (second.groups group).trans (first.groups group)
  supply := second.supply.trans first.supply
  tokenUsed := second.tokenUsed.trans first.tokenUsed
  bindings token used :=
    (second.bindings token (by rwa [first.tokenUsed])).trans (first.bindings token used)

theorem Alike.freeChannelCount (alike : Alike s t) : t.freeChannelCount = s.freeChannelCount := by
  simpa [freeChannelStack] using congrArg List.length alike.freeChannels

/-! The steps of a call, each on two registries that are alike. -/

theorem Alike.setReferences (alike : Alike s t) (channel : Nat) (count : UInt64)
    (mode : ChannelMode) :
    Alike (s.setReferences channel count mode) (t.setReferences channel count mode) := by
  constructor
  case refCounts => exact fun other bound => update_agree (alike.refCounts other bound)
  case modes =>
    intro other bound
    by_cases same : other = channel
    · simp [TokenRegistry.setReferences, same]
    · simpa [TokenRegistry.setReferences, same] using alike.modes other bound
  all_goals first
    | exact alike.freeChannels | exact alike.groups | exact alike.supply
    | exact alike.tokenUsed | exact alike.bindings

theorem Alike.assignGroup (alike : Alike s t) (group : ChannelGroup) (channel : Nat) :
    Alike
      { s with groupToChannel := Function.update s.groupToChannel group.toIndex channel }
      { t with groupToChannel := Function.update t.groupToChannel group.toIndex channel } := by
  exact { alike with groups := fun other => update_agree (alike.groups other) }

theorem AttachStep.supply {call : Call} {channel : Nat} {next : TokenRegistry}
    (step : AttachStep s call channel next) : next.supply = s.supply := by
  cases step <;> rfl

def AlikeWith {α : Type} (left right : α × TokenRegistry) : Prop :=
  right.1 = left.1 ∧ Alike left.2 right.2

theorem Alike.takeChannel (alike : Alike s t) (mode : ChannelMode) :
    Option.Rel AlikeWith (s.takeChannel mode) (t.takeChannel mode) := by
  have counts := alike.freeChannelCount
  unfold TokenRegistry.takeChannel
  cases counted : s.freeChannelCount with
  | zero =>
      rw [counted] at counts
      simp only [counts]
      exact .none
  | succ count =>
      rw [counted] at counts
      have sameStack := alike.freeChannels
      simp only [freeChannelStack, counted, counts, ArrayStack.contents_succ] at sameStack
      obtain ⟨below, top⟩ := List.append_inj' sameStack rfl
      have sameTop : t.freeChannels count = s.freeChannels count := by simpa using top
      simp only [counts, sameTop]
      have popped : Alike { s with freeChannelCount := count }
          { t with freeChannelCount := count } := { alike with freeChannels := below }
      exact .some ⟨rfl, popped.setReferences _ _ _⟩

theorem Alike.groupOpen (alike : Alike s t) (ok : Sound s) (group : ChannelGroup) :
    t.GroupOpen group ↔ s.GroupOpen group := by
  unfold GroupOpen
  rw [alike.groups group]
  refine and_congr_right fun present => ?_
  rw [alike.refCounts _ (ok.groupBound group present)]

theorem Alike.attach (alike : Alike s t) (ok : Sound s) (call : Call) :
    Option.Rel AlikeWith (s.attach call) (t.attach call) := by
  cases call with
  | acquire => exact alike.takeChannel .Exclusive
  | acquireGroup group =>
      simp only [TokenRegistry.attach, alike.groupOpen ok group, alike.groups group]
      split
      · rename_i opened
        rw [alike.refCounts _ (ok.groupBound group opened.1)]
        exact .some ⟨rfl, alike.setReferences _ _ _⟩
      · have taken := alike.takeChannel .Shared
        generalize s.takeChannel .Shared = left at taken
        generalize t.takeChannel .Shared = right at taken
        cases taken with
        | none => exact .none
        | @some left right both =>
            obtain ⟨same, later⟩ := both
            refine .some ⟨same, ?_⟩
            simp only [same]
            exact later.assignGroup group left.1
  | release token => exact .none

theorem Alike.takeToken (alike : Alike s t) (boundS : s.nextToken ≤ kMaxBindings)
    (boundT : t.nextToken ≤ kMaxBindings) : Option.Rel AlikeWith s.takeToken t.takeToken := by
  have same := alike.supply
  cases left : s.takeToken with
  | none =>
      have empty := (takeToken_isNone boundS).mp left
      rw [(takeToken_isNone boundT).mpr (same.trans empty)]
      exact .none
  | some taken =>
      obtain ⟨token, rest⟩ := taken
      rw [supply_of_takeToken left] at same
      cases right : t.takeToken with
      | none => simp [(takeToken_isNone boundT).mp right] at same
      | some other =>
          obtain ⟨token', rest'⟩ := other
          rw [supply_of_takeToken right] at same
          obtain ⟨sameToken, sameRest⟩ := List.cons.inj same
          refine .some ⟨PublishToken.ext sameToken, ?_⟩
          rcases takeToken_cases left with ⟨_, _, _, rfl⟩ | ⟨_, _, _, rfl⟩ <;>
            rcases takeToken_cases right with ⟨_, _, _, rfl⟩ | ⟨_, _, _, rfl⟩ <;>
              exact { alike with supply := sameRest }

theorem Alike.bindToken (alike : Alike s t) (token : PublishToken) (channel : Nat) :
    Alike (s.bindToken token channel) (t.bindToken token channel) := by
  constructor
  case tokenUsed => simp [TokenRegistry.bindToken, alike.tokenUsed]
  case bindings =>
    intro other
    by_cases same : other = token.value
    · simp [TokenRegistry.bindToken, same]
    · simpa [TokenRegistry.bindToken, same] using alike.bindings other
  all_goals first
    | exact alike.freeChannels | exact alike.refCounts | exact alike.modes
    | exact alike.groups | exact alike.supply

theorem Alike.unbound (alike : Alike s t) (token : PublishToken) :
    Alike (s.unbound token) (t.unbound token) := by
  constructor
  case supply => rw [supply_unbound, supply_unbound, alike.supply]
  case tokenUsed => simp [TokenRegistry.unbound, alike.tokenUsed]
  case bindings =>
    intro other
    by_cases same : other = token.value
    · simp [TokenRegistry.unbound, same]
    · simpa [TokenRegistry.unbound, same] using alike.bindings other
  all_goals first
    | exact alike.freeChannels | exact alike.refCounts | exact alike.modes | exact alike.groups

theorem resetGroups_congr (channel remaining group : Nat) {left right : Nat → Nat}
    (inside : group + remaining ≤ kMaxGroups)
    (same : ∀ index, index < kMaxGroups → right index = left index) {index : Nat}
    (bound : index < kMaxGroups) :
    resetGroups channel remaining group right index =
      resetGroups channel remaining group left index := by
  induction remaining generalizing group with
  | zero => exact same index bound
  | succ remaining ih =>
      simp only [resetGroups, same group (by omega)]
      split
      · exact update_agree (same index bound)
      · exact ih (group + 1) (by omega)

theorem Alike.dropped (alike : Alike s t) {channel : Nat} (bound : channel < kMaxChannels)
    (used : s.channelRefCount channel ≠ 0) : Alike (s.dropped channel) (t.dropped channel) := by
  have counts := alike.freeChannelCount
  have refs : ∀ count other, other < kMaxChannels →
      Function.update t.channelRefCount channel count other =
        Function.update s.channelRefCount channel count other :=
    fun _ other otherBound => update_agree (alike.refCounts other otherBound)
  by_cases last : s.channelRefCount channel = 1
  · have lastT : t.channelRefCount channel = 1 := (alike.refCounts channel bound).trans last
    simp only [TokenRegistry.dropped, last, lastT, if_true]
    constructor
    case freeChannels =>
      simp only [freeChannelStack, ArrayStack.contents_push]
      exact congrArg (· ++ [channel]) alike.freeChannels
    case refCounts => exact refs 0
    case modes =>
      intro other otherBound used
      exact alike.modes other otherBound (before_update (0 < ·) (by simp) used)
    case groups =>
      intro group
      refine resetGroups_congr channel kMaxGroups 0 (by simp) ?_ (toIndex_lt group)
      intro index inside
      obtain ⟨other, rfl⟩ := exists_toIndex inside
      exact alike.groups other
    case supply => exact alike.supply
    case tokenUsed => exact alike.tokenUsed
    case bindings => exact alike.bindings
  · simp only [TokenRegistry.dropped, last, if_false, alike.refCounts channel bound]
    refine { alike with refCounts := refs _, modes := fun other otherBound usedAfter => ?_ }
    refine alike.modes other otherBound ?_
    by_cases same : other = channel
    · rw [same]
      exact UInt64.pos_iff_ne_zero.mpr used
    · simpa [same] using usedAfter

end TokenRegistry

def Failure.untexted : Failure → Failure
  | .throws _ => .throws ""
  | .aborts _ => .aborts ""
  | .outOfBounds => .outOfBounds

def Outcome.untexted : Outcome → Outcome
  | .failed failure => .failed failure.untexted
  | outcome => outcome

namespace TokenRegistry

variable {s t : TokenRegistry}

theorem Alike.live (alike : Alike s t) (okS : Sound s) (okT : Sound t) (token : Nat) :
    t.Live token ↔ s.Live token := by
  rw [okS.live_iff, okT.live_iff, alike.tokenUsed]

def SameEnd (left right : Outcome × TokenRegistry) : Prop :=
  right.1.untexted = left.1.untexted ∧ Alike left.2 right.2

theorem Alike.allotted (alike : Alike s t) (boundS : s.nextToken ≤ kMaxBindings)
    (boundT : t.nextToken ≤ kMaxBindings) (channel : Nat) :
    SameEnd (TokenRegistry.allotted channel s) (TokenRegistry.allotted channel t) := by
  have both := alike.takeToken boundS boundT
  unfold TokenRegistry.allotted
  generalize s.takeToken = left at both
  generalize t.takeToken = right at both
  cases both with
  | none => exact ⟨rfl, alike⟩
  | @some left right same =>
      obtain ⟨token, rest⟩ := left
      obtain ⟨sameToken, later⟩ := same
      simp only [sameToken]
      exact ⟨rfl, later.bindToken token channel⟩

theorem Alike.acquiring (alike : Alike s t) (okS : Sound s) (okT : Sound t) {call : Call}
    {owner : Origin} (acquiring : ownerOf call = some owner) :
    SameEnd (s.call call) (t.call call) := by
  rw [okS.call_acquiring acquiring, okT.call_acquiring acquiring]
  have both := alike.attach okS call
  cases left : s.attach call with
  | none =>
      rw [left] at both
      cases right : t.attach call with
      | none => exact ⟨rfl, alike⟩
      | some taken => rw [right] at both; cases both
  | some taken =>
      obtain ⟨channel, next⟩ := taken
      rw [left] at both
      cases right : t.attach call with
      | none => rw [right] at both; cases both
      | some other =>
          obtain ⟨channel', next'⟩ := other
          rw [right] at both
          obtain ⟨rfl, later⟩ : channel' = channel ∧ Alike next next' := by
            cases both with
            | some same => exact same
          refine later.allotted ?_ ?_ channel'
          · rw [(attach_step left).pool.1]
            exact okS.nextBound
          · rw [(attach_step right).pool.1]
            exact okT.nextBound

/-- The simulation step: a call ends the same way on registries that are alike. -/
theorem Alike.call (alike : Alike s t) (okS : Sound s) (okT : Sound t) (call : Call) :
    SameEnd (s.call call) (t.call call) := by
  cases call with
  | acquire => exact alike.acquiring okS okT rfl
  | acquireGroup group => exact alike.acquiring okS okT rfl
  | release token =>
      by_cases live : s.Live token.value
      · have liveT := (alike.live okS okT token.value).mpr live
        have bound := okS.channelBound token.value live.2
        have sameChannel := alike.bindings token.value live.2
        have sameCount : t.channelRefCount (t.tokenToChannel token.value) =
            s.channelRefCount (s.tokenToChannel token.value) := by
          rw [sameChannel, alike.refCounts _ bound]
        by_cases unused : s.channelRefCount (s.tokenToChannel token.value) = 0
        · rw [okS.call_release_uncounted live unused,
            okT.call_release_uncounted liveT (sameCount.trans unused)]
          exact ⟨rfl, alike⟩
        · rw [okS.call_release_live live unused,
            okT.call_release_live liveT (by rwa [sameCount]), sameChannel]
          exact ⟨rfl, (alike.unbound token).dropped bound unused⟩
      · have deadT : ¬t.Live token.value := fun liveT => live ((alike.live okS okT _).mp liveT)
        rcases okS.call_release_dead live with ran | ran <;>
          rcases okT.call_release_dead deadT with ranT | ranT <;>
            rw [ran, ranT] <;> exact ⟨rfl, alike⟩

end TokenRegistry

end MyServer
