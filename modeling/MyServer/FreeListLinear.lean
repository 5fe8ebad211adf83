import MyServer.FreeListRuns

/-!
In its safe regimes `FreeList` is a stack whose operations happen at their successful
compare-exchanges. A popper's old successor is still right there: either nothing enters the
list while it is inside, or nothing but itself leaves it.
-/

namespace MyServer

open StackHistory

variable {Thread Record : Type}

/-! The list in memory determines the stack. -/

namespace FreeList

theorem Linked.unique {next : Record → Option Record} {left right : List Record}
    {first : Option Record} (linked : Linked next first left) (other : Linked next first right) :
    left = right := by
  induction left generalizing first right with
  | nil =>
      cases right with
      | nil => rfl
      | cons record rest =>
          rw [show first = none from linked] at other
          exact absurd other.1 (by simp)
  | cons record left ih =>
      obtain ⟨rfl, linked⟩ := linked
      cases right with
      | nil => exact absurd (show some record = none from other) (by simp)
      | cons record' right =>
          obtain ⟨same, other⟩ := other
          obtain rfl := Option.some.inj same
          rw [ih linked other]

theorem Linked.suffix {next : Record → Option Record} {before after : List Record}
    {first : Option Record} (linked : Linked next first (before ++ after)) :
    ∃ middle, Linked next middle after := by
  induction before generalizing first with
  | nil => exact ⟨first, linked⟩
  | cons record before ih => exact ih linked.2

/-- A list that ends has no cycle. -/
theorem Linked.nodup {next : Record → Option Record} {stack : List Record} {first : Option Record}
    (linked : Linked next first stack) : stack.Nodup := by
  induction stack generalizing first with
  | nil => exact List.nodup_nil
  | cons record rest ih =>
      refine List.nodup_cons.mpr ⟨?_, ih linked.2⟩
      intro member
      obtain ⟨before, after, rfl⟩ := List.append_of_mem member
      obtain ⟨middle, again⟩ := Linked.suffix linked.2
      have shorter : Linked next (some record) (record :: after) := ⟨rfl, again.2⟩
      have longer : Linked next (some record) (record :: (before ++ record :: after)) :=
        ⟨rfl, linked.2⟩
      have lengths := congrArg List.length (Linked.unique shorter longer)
      simp only [List.length_cons, List.length_append] at lengths
      omega

variable [DecidableEq Record] {list after : FreeList Record} {spurious : Bool}

/-- A step of `push` writes no other node's link. -/
theorem pushStep_frame {pc : FreePushPc Record} {later : Option (FreePushPc Record)}
    (ran : list.pushStep spurious pc = (after, later)) {record : Record}
    (other : record ≠ pc.node) : after.freeNext record = list.freeNext record := by
  cases pc with
  | loadHead node =>
      cases ran
      rfl
  | writeNext node h =>
      cases ran
      exact Function.update_of_ne other _ _
  | exchange node h =>
      rw [pushStep] at ran
      split at ran
      · cases ran
        rfl
      · cases ran
        rfl

omit [DecidableEq Record] in
theorem PushSound.frame {pc : FreePushPc Record} (sound : list.PushSound pc)
    (same : after.freeNext pc.node = list.freeNext pc.node) : after.PushSound pc := by
  cases pc with
  | loadHead node => trivial
  | writeNext node h => trivial
  | exchange node h => exact same.trans sound

end FreeList

/-! The invariant. -/

def PopSound (regime : Regime) (list : FreeList Record) (stack : List Record) :
    FreePopPc Record → Prop
  | .loadHead => True
  | .readNext h => regime = .onePopper → h ∈ stack
  | .exchange h next =>
      (regime = .onePopper → h ∈ stack) ∧ (h ∈ stack → list.freeNext h = next)

def CallOk (regime : Regime) (list : FreeList Record) (stack : List Record)
    (holder : Record → Option Thread) (t : Thread) : FreeListCall Record → Prop
  | .idle => True
  | .pushing pc => pc.node ∉ stack ∧ holder pc.node = some t ∧ list.PushSound pc
  | .popping pc => PopSound regime list stack pc

def RegimeKept (regime : Regime) (calls : Thread → FreeListCall Record) : Prop :=
  match regime with
  | .popsWithoutPushes =>
      ∀ t other, (calls t).inPush = true → (calls other).inPop = true → False
  | .onePopper =>
      ∀ t other, (calls t).inPop = true → (calls other).inPop = true → t = other

structure FreeListOk [DecidableEq Record] (regime : Regime) (initial : List Record)
    (trace : List (FreeListEvent Thread Record)) (state : FreeListThreads Thread Record)
    (stack : List Record) : Prop where
  legal : replay initial (operations trace) = some stack
  holds : state.list.Holds stack
  calls : ∀ t, CallOk regime state.list stack state.holder t (state.calls t)
  kept : RegimeKept regime state.calls

section Update

variable [DecidableEq Thread] {regime : Regime} {calls : Thread → FreeListCall Record}
variable {list : FreeList Record} {stack : List Record} {holder : Record → Option Thread}
variable {t : Thread} {call : FreeListCall Record}

theorem callOk_update (own : CallOk regime list stack holder t call)
    (others : ∀ other, other ≠ t → CallOk regime list stack holder other (calls other)) :
    ∀ other, CallOk regime list stack holder other (Function.update calls t call other) := by
  intro other
  by_cases same : other = t
  · subst same
    rw [Function.update_self]
    exact own
  · rw [Function.update_of_ne same]
    exact others other same

theorem inPush_update {other : Thread}
    (inside : (Function.update calls t call other).inPush = true) :
    (other = t ∧ call.inPush = true) ∨ (other ≠ t ∧ (calls other).inPush = true) := by
  by_cases same : other = t
  · subst same
    rw [Function.update_self] at inside
    exact .inl ⟨rfl, inside⟩
  · rw [Function.update_of_ne same] at inside
    exact .inr ⟨same, inside⟩

theorem inPop_update {other : Thread}
    (inside : (Function.update calls t call other).inPop = true) :
    (other = t ∧ call.inPop = true) ∨ (other ≠ t ∧ (calls other).inPop = true) := by
  by_cases same : other = t
  · subst same
    rw [Function.update_self] at inside
    exact .inl ⟨rfl, inside⟩
  · rw [Function.update_of_ne same] at inside
    exact .inr ⟨same, inside⟩

theorem RegimeKept.goes (kept : RegimeKept regime calls)
    (push : call.inPush = true → (calls t).inPush = true)
    (pop : call.inPop = true → (calls t).inPop = true) :
    RegimeKept regime (Function.update calls t call) := by
  have pushBefore : ∀ {other}, (Function.update calls t call other).inPush = true →
      (calls other).inPush = true := by
    intro other inside
    rcases inPush_update inside with ⟨rfl, own⟩ | ⟨_, before⟩
    · exact push own
    · exact before
  have popBefore : ∀ {other}, (Function.update calls t call other).inPop = true →
      (calls other).inPop = true := by
    intro other inside
    rcases inPop_update inside with ⟨rfl, own⟩ | ⟨_, before⟩
    · exact pop own
    · exact before
  cases regime with
  | popsWithoutPushes =>
      exact fun first second pushes pops =>
        kept first second (pushBefore pushes) (popBefore pops)
  | onePopper =>
      exact fun first second pops pops' =>
        kept first second (popBefore pops) (popBefore pops')

theorem RegimeKept.leaves (kept : RegimeKept regime calls) :
    RegimeKept regime (Function.update calls t .idle) := by
  apply kept.goes
  · intro impossible
    simp [FreeListCall.inPush] at impossible
  · intro impossible
    simp [FreeListCall.inPop] at impossible

end Update

section Steps

variable {regime : Regime} {initial : List Record} {trace : List (FreeListEvent Thread Record)}
variable {stack : List Record}

theorem operations_silent {event : FreeListEvent Thread Record} (silent : event.operation = none) :
    operations (trace ++ [event]) = operations trace := by
  simp [operations, List.filterMap_cons_none silent]

/-- What a thread other than the one that acts has, it keeps. -/
theorem CallOk.others {list after : FreeList Record} {rest : List Record}
    {holder holder' : Record → Option Thread} {other : Thread} {call : FreeListCall Record}
    (ok : CallOk regime list stack holder other call)
    (push : ∀ pc, call = .pushing pc → pc.node ∉ stack → holder pc.node = some other →
      pc.node ∉ rest ∧ holder' pc.node = some other ∧
        after.freeNext pc.node = list.freeNext pc.node)
    (pop : ∀ pc, call = .popping pc → PopSound regime list stack pc →
      PopSound regime after rest pc) : CallOk regime after rest holder' other call := by
  cases call with
  | idle => trivial
  | pushing pc =>
      obtain ⟨outside, held, sound⟩ := ok
      obtain ⟨outside', held', same⟩ := push pc rfl outside held
      exact ⟨outside', held', sound.frame same⟩
  | popping pc => exact pop pc rfl ok

variable [DecidableEq Record]

theorem legal_after {event : FreeListEvent Thread Record} {op : StackOp Record}
    {next : List Record} (legal : replay initial (operations trace) = some stack)
    (acts : event.operation = some op) (applied : applyOp stack op = some next) :
    replay initial (operations (trace ++ [event])) = some next := by
  have split : operations (trace ++ [event]) = operations trace ++ [op] := by
    simp [operations, List.filterMap_cons_some acts]
  rw [split, replay_append, legal]
  simp [replay, applied]

variable [DecidableEq Thread] {state : FreeListThreads Thread Record} {t : Thread}
variable {spurious : Bool}

theorem FreeListOk.callPush (ok : FreeListOk regime initial trace state stack) {node : Record}
    (pushable : Pushable state t node)
    (fits : regime = .popsWithoutPushes → ∀ other, (state.calls other).inPop = false) :
    FreeListOk regime initial (trace ++ [.pushCalled t node])
      ((state.hold node (some t)).goto t (.pushing (.loadHead node))) stack := by
  have outside := pushable.1 stack ok.holds
  refine ⟨?_, ok.holds, ?_, ?_⟩
  · rw [operations_silent rfl]
    exact ok.legal
  · refine callOk_update ⟨outside, Function.update_self node _ _, trivial⟩ ?_
    intro other apart
    refine (ok.calls other).others ?_ fun _ _ sound => sound
    intro pc pushing free held
    have different : pc.node ≠ node := by
      rintro rfl
      exact apart (pushable.2 other held)
    exact ⟨free, (Function.update_of_ne different _ _).trans held, rfl⟩
  · cases regime with
    | popsWithoutPushes =>
        intro first second _ pops
        rcases inPop_update pops with ⟨_, impossible⟩ | ⟨_, inside⟩
        · exact absurd impossible (by simp [FreeListCall.inPop])
        · have outsidePop : (state.calls second).inPop = true := inside
          rw [fits rfl second] at outsidePop
          exact Bool.noConfusion outsidePop
    | onePopper =>
        intro first second pops pops'
        rcases inPop_update pops with ⟨_, impossible⟩ | ⟨_, inside⟩
        · exact absurd impossible (by simp [FreeListCall.inPop])
        · rcases inPop_update pops' with ⟨_, impossible⟩ | ⟨_, inside'⟩
          · exact absurd impossible (by simp [FreeListCall.inPop])
          · exact ok.kept first second inside inside'

theorem FreeListOk.callTryPop (ok : FreeListOk regime initial trace state stack)
    (permitted : inRegime regime trace state (.callTryPop t)) :
    FreeListOk regime initial (trace ++ [.tryPopCalled t]) (state.goto t (.popping .loadHead))
      stack := by
  refine ⟨?_, ok.holds, ?_, ?_⟩
  · rw [operations_silent rfl]
    exact ok.legal
  · exact callOk_update trivial fun other _ => ok.calls other
  · cases regime with
    | popsWithoutPushes =>
        intro first second pushes _
        rcases inPush_update pushes with ⟨_, impossible⟩ | ⟨_, inside⟩
        · exact absurd impossible (by simp [FreeListCall.inPush])
        · rw [permitted first] at inside
          exact Bool.noConfusion inside
    | onePopper =>
        intro first second pops pops'
        rcases inPop_update pops with ⟨rfl, _⟩ | ⟨_, inside⟩
        · rcases inPop_update pops' with ⟨rfl, _⟩ | ⟨_, inside'⟩
          · rfl
          · rw [permitted second] at inside'
            exact Bool.noConfusion inside'
        · rw [permitted first] at inside
          exact Bool.noConfusion inside

omit [DecidableEq Thread] in
theorem FreeListOk.handOver (ok : FreeListOk regime initial trace state stack) {node : Record}
    {receiver : Option Thread} (resting : state.calls t = .idle)
    (held : state.holder node = some t) :
    FreeListOk regime initial trace (state.hold node receiver) stack := by
  refine ⟨ok.legal, ok.holds, ?_, ok.kept⟩
  intro other
  refine (ok.calls other).others ?_ fun _ _ sound => sound
  intro pc pushing free own
  have different : pc.node ≠ node := by
    rintro rfl
    obtain rfl : t = other := Option.some.inj (held.symm.trans own)
    rw [show state.calls t = .pushing pc from pushing] at resting
    cases resting
  exact ⟨free, (Function.update_of_ne different _ _).trans own, rfl⟩

theorem FreeListOk.pushGoesOn (ok : FreeListOk regime initial trace state stack)
    {pc later : FreePushPc Record} {list : FreeList Record} (inside : state.calls t = .pushing pc)
    (ran : state.list.pushStep spurious pc = (list, some later)) :
    FreeListOk regime initial trace ({ state with list }.goto t (.pushing later)) stack := by
  have own := ok.calls t
  rw [inside] at own
  obtain ⟨outside, held, _⟩ := own
  obtain ⟨holds, sameNode, sound⟩ := ok.holds.pushes outside ran
  refine ⟨ok.legal, holds, ?_, ?_⟩
  · refine callOk_update ⟨sameNode ▸ outside, sameNode ▸ held, sound⟩ ?_
    intro other apart
    refine (ok.calls other).others ?_ ?_
    · intro pc' _ free held'
      have different : pc'.node ≠ pc.node := by
        intro same
        rw [same] at held'
        exact apart (Option.some.inj (held'.symm.trans held))
      exact ⟨free, held', FreeList.pushStep_frame ran different⟩
    · intro pc' popping popSound
      cases pc' with
      | loadHead => trivial
      | readNext h => exact popSound
      | exchange h next =>
          refine ⟨popSound.1, fun member => ?_⟩
          have different : h ≠ pc.node := fun same => outside (same ▸ member)
          exact (FreeList.pushStep_frame ran different).trans (popSound.2 member)
  · refine ok.kept.goes ?_ ?_
    · intro _
      simp [inside, FreeListCall.inPush]
    · intro impossible
      simp [FreeListCall.inPop] at impossible

omit [DecidableEq Record] in
/-- Nobody who stays in `try_pop` has its node pushed under it. -/
theorem PopSound.pushed {list after : FreeList Record} {pc : FreePopPc Record} {node : Record}
    (sound : PopSound .onePopper list stack pc) (outside : node ∉ stack)
    (frame : ∀ record, record ≠ node → after.freeNext record = list.freeNext record) :
    PopSound .onePopper after (node :: stack) pc := by
  cases pc with
  | loadHead => trivial
  | readNext h => exact fun same => List.mem_cons_of_mem _ (sound same)
  | exchange h next =>
      have member := sound.1 rfl
      refine ⟨fun _ => List.mem_cons_of_mem _ member, fun _ => ?_⟩
      have different : h ≠ node := fun same => outside (same ▸ member)
      rw [frame h different]
      exact sound.2 member

theorem FreeListOk.pushEnds (ok : FreeListOk regime initial trace state stack)
    {pc : FreePushPc Record} {list : FreeList Record} (inside : state.calls t = .pushing pc)
    (ran : state.list.pushStep spurious pc = (list, none)) :
    FreeListOk regime initial (trace ++ [.pushed t pc.node])
      (({ state with list }.hold pc.node none).goto t .idle) (pc.node :: stack) := by
  have own := ok.calls t
  rw [inside] at own
  obtain ⟨outside, held, sound⟩ := own
  have frame : ∀ record, record ≠ pc.node → list.freeNext record = state.list.freeNext record :=
    fun record different => FreeList.pushStep_frame ran different
  have pushes : (state.calls t).inPush = true := by simp [inside, FreeListCall.inPush]
  refine ⟨legal_after ok.legal rfl (applyOp_push.mpr ⟨outside, rfl⟩), ok.holds.pushed sound ran,
    ?_, ok.kept.leaves⟩
  · refine callOk_update trivial ?_
    intro other apart
    refine (ok.calls other).others ?_ ?_
    · intro pc' _ free held'
      have different : pc'.node ≠ pc.node := by
        intro same
        rw [same] at held'
        exact apart (Option.some.inj (held'.symm.trans held))
      refine ⟨?_, (Function.update_of_ne different _ _).trans held', frame _ different⟩
      simp [different, free]
    · intro pc' popping popSound
      cases regime with
      | onePopper => exact popSound.pushed outside frame
      | popsWithoutPushes =>
          have pops : (state.calls other).inPop = true := by
            rw [show state.calls other = .popping pc' from popping]
            rfl
          exact (ok.kept t other pushes pops).elim

theorem FreeListOk.popGoesOn (ok : FreeListOk regime initial trace state stack)
    {pc later : FreePopPc Record} {list : FreeList Record} (inside : state.calls t = .popping pc)
    (ran : state.list.popStep spurious pc = (list, .inl later)) :
    FreeListOk regime initial trace ({ state with list }.goto t (.popping later)) stack := by
  have own : PopSound regime state.list stack pc := by
    have sound := ok.calls t
    rwa [inside] at sound
  obtain rfl := FreeList.popStep_continues ran
  have loaded : ∀ later, FreeList.popFrom state.list.head = .inl later →
      PopSound regime state.list stack later := by
    intro later found
    cases top : state.list.head with
    | none => simp [FreeList.popFrom, top] at found
    | some h =>
        obtain rfl : .readNext h = later := by simpa [FreeList.popFrom, top] using found
        intro _
        rw [ok.holds.head] at top
        exact List.mem_of_mem_head? top
  have sound : PopSound regime state.list stack later := by
    have result := congrArg Prod.snd ran
    cases pc with
    | loadHead => exact loaded later result
    | readNext h =>
        obtain rfl : .exchange h (state.list.freeNext h) = later := Sum.inl.inj result
        exact ⟨own, fun _ => rfl⟩
    | exchange h next =>
        rw [FreeList.popStep] at result
        split at result
        · simp at result
        · exact loaded later result
  refine ⟨ok.legal, ok.holds, callOk_update sound fun other _ => ok.calls other, ?_⟩
  refine ok.kept.goes ?_ ?_
  · intro impossible
    simp [FreeListCall.inPush] at impossible
  · intro _
    simp [inside, FreeListCall.inPop]

theorem FreeListOk.popMisses (ok : FreeListOk regime initial trace state stack)
    {pc : FreePopPc Record} {list : FreeList Record}
    (ran : state.list.popStep spurious pc = (list, .inr none)) :
    FreeListOk regime initial (trace ++ [.missed t]) ({ state with list }.goto t .idle) stack := by
  obtain ⟨rfl, rfl⟩ := ok.holds.misses ran
  refine ⟨legal_after ok.legal rfl (applyOp_miss.mpr ⟨rfl, rfl⟩), ok.holds,
    callOk_update trivial fun other _ => ok.calls other, ok.kept.leaves⟩

/-- The compare-exchange that ends a pop takes the top of the stack. -/
theorem FreeListOk.popEnds (ok : FreeListOk regime initial trace state stack)
    {pc : FreePopPc Record} {list : FreeList Record} {node : Record}
    (inside : state.calls t = .popping pc)
    (ran : state.list.popStep spurious pc = (list, .inr (some node))) :
    ∃ rest, FreeListOk regime initial (trace ++ [.popped t node])
      (({ state with list }.hold node (some t)).goto t .idle) rest := by
  have own : PopSound regime state.list stack pc := by
    have sound := ok.calls t
    rwa [inside] at sound
  have pops : (state.calls t).inPop = true := by simp [inside, FreeListCall.inPop]
  obtain ⟨_, top, next, rfl, _⟩ := FreeList.popStep_record ran
  have member : node ∈ stack := by
    rw [ok.holds.head] at top
    exact List.mem_of_mem_head? top
  have fresh : state.list.stale false (.exchange node next) = false := by
    simp [FreeList.stale, own.2 member]
  obtain ⟨rest, rfl, holds, sameNext⟩ := ok.holds.pops fresh ran
  refine ⟨rest, legal_after ok.legal rfl (applyOp_pop.mpr rfl), holds, ?_, ok.kept.leaves⟩
  · refine callOk_update trivial ?_
    intro other apart
    refine (ok.calls other).others ?_ ?_
    · intro pc' _ free held'
      rw [List.mem_cons, not_or] at free
      exact ⟨free.2, (Function.update_of_ne free.1 _ _).trans held',
        congrFun sameNext pc'.node⟩
    · intro pc' popping popSound
      have pops' : (state.calls other).inPop = true := by
        rw [show state.calls other = .popping pc' from popping]
        rfl
      cases regime with
      | onePopper => exact absurd (ok.kept other t pops' pops) apart
      | popsWithoutPushes =>
          cases pc' with
          | loadHead => trivial
          | readNext h => simp [PopSound]
          | exchange h successor =>
              refine ⟨by simp, fun inRest => ?_⟩
              have before := popSound.2 (List.mem_cons_of_mem _ inRest)
              exact (congrFun sameNext h).trans before

theorem FreeListOk.step (ok : FreeListOk regime initial trace state stack)
    {action : FreeListAction Thread Record} {next : FreeListThreads Thread Record}
    {events : List (FreeListEvent Thread Record)} (permitted : inRegime regime trace state action)
    (stepped : state.step action = some (next, events)) :
    ∃ rest, FreeListOk regime initial (trace ++ events) next rest := by
  cases action with
  | callPush t node =>
      simp only [FreeListThreads.step] at stepped
      split at stepped
      · cases stepped
        exact ⟨stack, ok.callPush permitted.1 permitted.2⟩
      · cases stepped
  | callTryPop t =>
      simp only [FreeListThreads.step] at stepped
      split at stepped
      · cases stepped
        exact ⟨stack, ok.callTryPop permitted⟩
      · cases stepped
  | handOver t node receiver =>
      simp only [FreeListThreads.step] at stepped
      split at stepped
      · rename_i resting
        split at stepped
        · rename_i held
          cases stepped
          exact ⟨stack, by simpa using ok.handOver resting held⟩
        · cases stepped
      · cases stepped
  | step t spurious =>
      simp only [FreeListThreads.step] at stepped
      split at stepped
      · cases stepped
      · rename_i pc inside
        have result := (Option.some.inj stepped).symm
        cases ran : state.list.pushStep spurious pc with
        | mk list later =>
            cases later with
            | some later =>
                simp only [FreeListThreads.pushAccess, ran] at result
                cases result
                exact ⟨stack, by simpa using ok.pushGoesOn inside ran⟩
            | none =>
                simp only [FreeListThreads.pushAccess, ran] at result
                cases result
                exact ⟨_, ok.pushEnds inside ran⟩
      · rename_i pc inside
        have result := (Option.some.inj stepped).symm
        rcases ran : state.list.popStep spurious pc with ⟨list, later | missed | node⟩
        · simp only [FreeListThreads.popAccess, ran] at result
          cases result
          exact ⟨stack, by simpa using ok.popGoesOn inside ran⟩
        · simp only [FreeListThreads.popAccess, ran] at result
          cases result
          exact ⟨stack, ok.popMisses ran⟩
        · simp only [FreeListThreads.popAccess, ran] at result
          cases result
          exact ok.popEnds inside ran

theorem freeListOk_initial {list : FreeList Record} (holds : list.Holds initial) :
    FreeListOk regime initial [] (freeListMachine Thread list).start initial := by
  refine ⟨rfl, holds, fun _ => trivial, ?_⟩
  cases regime with
  | popsWithoutPushes => exact fun _ _ pushes _ => Bool.noConfusion pushes
  | onePopper => exact fun _ _ pops _ => Bool.noConfusion pops

theorem freeList_ok {list : FreeList Record} (holds : list.Holds initial)
    (reached : (freeListMachine Thread list).Reaches (inRegime regime) trace state) :
    ∃ stack, FreeListOk regime initial trace state stack := by
  refine reached.invariant (fun trace state => ∃ stack, FreeListOk regime initial trace state stack)
    ⟨initial, freeListOk_initial holds⟩ ?_
  rintro trace state action next events ⟨stack, ok⟩ permitted stepped
  exact ok.step permitted stepped

end Steps

section Linearizable

theorem operations_append (left right : List (FreeListEvent Thread Record)) :
    operations (left ++ right) = operations left ++ operations right :=
  List.filterMap_append

theorem operations_popped (t : Thread) (node : Record) (rest : List (FreeListEvent Thread Record)) :
    operations (.popped t node :: rest) = .pop node :: operations rest :=
  List.filterMap_cons_some rfl

theorem operations_missed (t : Thread) (rest : List (FreeListEvent Thread Record)) :
    operations (.missed t :: rest) = .miss :: operations rest :=
  List.filterMap_cons_some rfl

theorem mem_operations_push {trace : List (FreeListEvent Thread Record)} {node : Record}
    (member : .push node ∈ operations trace) : ∃ t, .pushed t node ∈ trace := by
  obtain ⟨event, inTrace, acts⟩ := List.mem_filterMap.mp member
  cases event with
  | pushed t other =>
      obtain rfl : other = node := by simpa [FreeListEvent.operation] using acts
      exact ⟨t, inTrace⟩
  | popped t other => simp [FreeListEvent.operation] at acts
  | missed t => simp [FreeListEvent.operation] at acts
  | pushCalled t other => simp [FreeListEvent.operation] at acts
  | tryPopCalled t => simp [FreeListEvent.operation] at acts

variable [DecidableEq Thread] [DecidableEq Record]

/-- The calls that have passed their compare-exchange, in that order, are a legal history of a
stack, and the list in memory is that stack. Nothing is lost, nothing is returned twice
without a push in between, and a miss finds the stack empty. -/
theorem free_list_linearizable {regime : Regime} {list : FreeList Record} {initial : List Record}
    (holds : list.Holds initial) {trace : List (FreeListEvent Thread Record)}
    {state : FreeListThreads Thread Record}
    (reached : (freeListMachine Thread list).Reaches (inRegime regime) trace state) :
    ∃ stack, replay initial (operations trace) = some stack ∧
      state.list.Holds stack ∧ stack.Nodup ∧
      (∀ node, initial.count node + (operations trace).count (.push node) =
        stack.count node + (operations trace).count (.pop node)) ∧
      (∀ before between after t t' node,
        trace = before ++ .popped t node :: (between ++ .popped t' node :: after) →
          ∃ pusher, .pushed pusher node ∈ between) ∧
      ∀ before after t, trace = before ++ .missed t :: after →
        replay initial (operations before) = some [] := by
  obtain ⟨stack, ok⟩ := freeList_ok holds reached
  refine ⟨stack, ok.legal, ok.holds, ok.holds.nodup, replay_count ok.legal, ?_, ?_⟩
  · intro before between after t t' node split
    have legal := ok.legal
    rw [split, operations_append, operations_popped, operations_append,
      operations_popped] at legal
    exact mem_operations_push (pops_separated holds.nodup legal)
  · intro before after t split
    have legal := ok.legal
    rw [split, operations_append, operations_missed] at legal
    exact empty_at_miss legal

end Linearizable

/-! Runs of both regimes. Whether a node is in the list is decided by walking the list. -/

def FreeList.walk (list : FreeList Record) : Nat → Option Record → Option (List Record)
  | _, none => some []
  | 0, some _ => none
  | fuel + 1, some record => (list.walk fuel (list.freeNext record)).map (record :: ·)

theorem FreeList.walk_linked {list : FreeList Record} {fuel : Nat} {first : Option Record}
    {stack : List Record} (walked : list.walk fuel first = some stack) :
    Linked list.freeNext first stack := by
  induction fuel generalizing first stack with
  | zero =>
      cases first with
      | none =>
          obtain rfl : [] = stack := Option.some.inj walked
          rfl
      | some record => simp [walk] at walked
  | succ fuel ih =>
      cases first with
      | none =>
          obtain rfl : [] = stack := Option.some.inj walked
          rfl
      | some record =>
          obtain ⟨rest, later, rfl⟩ := Option.map_eq_some_iff.mp walked
          exact ⟨rfl, ih later⟩

section Checked

variable [DecidableEq Thread] [DecidableEq Record]

def checkedRegime (regime : Regime) (trace : List (FreeListEvent Thread Record))
    (state : FreeListThreads Thread Record) : FreeListAction Thread Record → Prop
  | .callPush t node =>
      (state.list.walk 4 state.list.head).any (node ∉ ·) = true ∧
        (state.holder node).all (· = t) = true ∧
        (regime = .popsWithoutPushes → ∀ other, (state.calls other).inPop = false)
  | .callTryPop t => inRegime regime trace state (.callTryPop t)
  | .step _ _ => True
  | .handOver _ _ _ => True

instance [Fintype Thread] (regime : Regime) (trace : List (FreeListEvent Thread Record))
    (state : FreeListThreads Thread Record) (action : FreeListAction Thread Record) :
    Decidable (checkedRegime regime trace state action) :=
  match action, regime with
  | .callPush _ _, _ => inferInstanceAs (Decidable (_ ∧ _ ∧ (_ → _)))
  | .callTryPop _, .popsWithoutPushes =>
      inferInstanceAs (Decidable (∀ other, (state.calls other).inPush = false))
  | .callTryPop _, .onePopper =>
      inferInstanceAs (Decidable (∀ other, (state.calls other).inPop = false))
  | .step _ _, _ => .isTrue trivial
  | .handOver _ _ _, _ => .isTrue trivial

theorem inRegime_of_checked {regime : Regime} {trace : List (FreeListEvent Thread Record)}
    {state : FreeListThreads Thread Record} {action : FreeListAction Thread Record}
    (checked : checkedRegime regime trace state action) : inRegime regime trace state action := by
  cases action with
  | callPush t node =>
      obtain ⟨outside, free, fits⟩ := checked
      refine ⟨⟨fun stack holds => ?_, fun other held => ?_⟩, fits⟩
      · cases walked : state.list.walk 4 state.list.head with
        | none => simp [walked] at outside
        | some found =>
            rw [FreeList.Linked.unique holds (FreeList.walk_linked walked)]
            simpa [walked] using outside
      · simpa [held] using free
  | callTryPop t => exact checked
  | step t spurious => trivial
  | handOver t node receiver => trivial

end Checked

def twoNodes : FreeList Nat := ⟨some 1, fun node => if node = 1 then some 2 else none⟩

theorem twoNodes_holds : twoNodes.Holds [1, 2] := ⟨rfl, rfl, rfl⟩

def onePopperSchedule : List (FreeListAction Bool Nat) :=
  [.callTryPop true, .step true false, .step true false, .callPush false 3, .step false false,
    .step false false, .step false false, .step true false, .step true false, .step true true,
    .step true false, .step true false, .handOver true 3 none, .callPush false 3]

def twoPoppersSchedule : List (FreeListAction Bool Nat) :=
  [.callTryPop true, .callTryPop false, .step true false, .step false false, .step true false,
    .step false false, .step true false, .step false false, .step false false, .step false false,
    .callTryPop true, .step true false]

theorem onePopperSchedule_runs :
    ((freeListMachine Bool twoNodes).exec (checkedRegime .onePopper) []
      (freeListMachine Bool twoNodes).start onePopperSchedule).isSome = true := by
  decide +kernel

theorem twoPoppersSchedule_runs :
    ((freeListMachine Bool twoNodes).exec (checkedRegime .popsWithoutPushes) []
      (freeListMachine Bool twoNodes).start twoPoppersSchedule).isSome = true := by
  decide +kernel

theorem free_list_linearizable_sample :
    let run := Option.get _ onePopperSchedule_runs
    let run' := Option.get _ twoPoppersSchedule_runs
    operations run.1 = [.push 3, .pop 3] ∧
      (∃ stack, replay [1, 2] (operations run.1) = some stack ∧ run.2.list.Holds stack) ∧
      operations run'.1 = [.pop 1, .pop 2, .miss] ∧
      ∃ stack, replay [1, 2] (operations run'.1) = some stack ∧ run'.2.list.Holds stack := by
  have first := (EventMachine.reaches_of_isSome onePopperSchedule_runs).mono
    fun _ _ _ checked => inRegime_of_checked checked
  have second := (EventMachine.reaches_of_isSome twoPoppersSchedule_runs).mono
    fun _ _ _ checked => inRegime_of_checked checked
  obtain ⟨stack, legal, holds, _⟩ := free_list_linearizable twoNodes_holds first
  obtain ⟨stack', legal', holds', _⟩ := free_list_linearizable twoNodes_holds second
  exact ⟨by decide +kernel, ⟨stack, legal, holds⟩, by decide +kernel, stack', legal', holds'⟩

end MyServer
