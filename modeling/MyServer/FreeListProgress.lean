import MyServer.FreeListRuns
import MyServer.RankedRuns

/-!
Lock-freedom of `FreeList`. A call goes round its loop only after another call has changed
`head_` or its own compare-exchange has failed spuriously, so the accesses are paid from what
each call costs alone and from what the successes of the others take away.
-/

namespace MyServer

variable {Thread Record : Type}

namespace FreeListCall

def alone : FreeListCall Record → Nat
  | .idle => 0
  | .pushing (.loadHead _) | .popping .loadHead => 3
  | .pushing (.writeNext _ _) | .popping (.readNext _) => 2
  | .pushing (.exchange _ _) | .popping (.exchange _ _) => 1

def expected : FreeListCall Record → Option (Option Record)
  | .pushing (.writeNext _ h) | .pushing (.exchange _ h) => some h
  | .popping (.readNext h) | .popping (.exchange h _) => some (some h)
  | _ => none

variable [DecidableEq Record]

def cost (head : Option Record) (call : FreeListCall Record) : Nat :=
  call.alone + match call.expected with
    | none => 0
    | some h => if h = head then 0 else 2

theorem cost_le (head : Option Record) (call : FreeListCall Record) : call.cost head ≤ 4 := by
  unfold cost
  rcases call with _ | ⟨_ | _ | _⟩ | ⟨_ | _ | _⟩ <;> simp only [alone, expected] <;>
    (try split_ifs) <;> omega

/-- Another value in `head_` costs a call one round at most. -/
theorem cost_raise (head other : Option Record) (call : FreeListCall Record) :
    call.cost other ≤ call.cost head + 2 := by
  unfold cost
  cases call.expected with
  | none => simp
  | some h =>
      simp only
      split_ifs <;> omega

end FreeListCall

namespace FreeListThreads

variable [DecidableEq Record] [Fintype Thread]

def potential (state : FreeListThreads Thread Record) : Nat :=
  ∑ t, (state.calls t).cost state.list.head

theorem potential_le (state : FreeListThreads Thread Record) :
    state.potential ≤ 4 * Fintype.card Thread := by
  have bound : state.potential ≤ ∑ _t : Thread, 4 :=
    Finset.sum_le_sum fun t _ => FreeListCall.cost_le state.list.head (state.calls t)
  rwa [Finset.sum_const_nat fun _ _ => rfl, Finset.card_univ, Nat.mul_comm] at bound

variable [DecidableEq Thread]

/-- What one thread's new place, and a new value in `head_`, do to the potential. -/
theorem potential_goto {state next : FreeListThreads Thread Record} {t : Thread}
    {call : FreeListCall Record} {raise : Nat}
    (calls : next.calls = Function.update state.calls t call)
    (raised : ∀ other : FreeListCall Record,
      other.cost next.list.head ≤ other.cost state.list.head + raise) :
    next.potential + (state.calls t).cost state.list.head ≤
      state.potential + call.cost next.list.head + raise * Fintype.card Thread := by
  unfold potential
  rw [calls, ← Finset.add_sum_erase Finset.univ _ (Finset.mem_univ t),
    ← Finset.add_sum_erase Finset.univ (fun t => (state.calls t).cost state.list.head)
      (Finset.mem_univ t), Function.update_self]
  have others : ∑ u ∈ Finset.univ.erase t,
      (Function.update state.calls t call u).cost next.list.head ≤
        ∑ u ∈ Finset.univ.erase t, ((state.calls u).cost state.list.head + raise) := by
    apply Finset.sum_le_sum
    intro u inside
    rw [Function.update_of_ne (Finset.ne_of_mem_erase inside)]
    exact raised _
  have few : (Finset.univ.erase t).card ≤ Fintype.card Thread := Finset.card_le_univ _
  have total : raise * (Finset.univ.erase t).card ≤ raise * Fintype.card Thread :=
    Nat.mul_le_mul_left raise few
  rw [Finset.sum_add_distrib, Finset.sum_const_nat fun _ _ => rfl, Nat.mul_comm _ raise] at others
  omega

/-- A step of a call that leaves `head_` as it is, or loads it. -/
theorem paid_goto {state next : FreeListThreads Thread Record} (t : Thread)
    (call : FreeListCall Record) (calls : next.calls = Function.update state.calls t call)
    (head : next.list.head = state.list.head) {extra : Nat}
    (lower : call.cost state.list.head + 1 ≤ (state.calls t).cost state.list.head + extra) :
    1 + next.potential ≤ state.potential + extra := by
  have raised : next.potential + (state.calls t).cost state.list.head ≤
      state.potential + call.cost next.list.head + 0 * Fintype.card Thread :=
    potential_goto calls fun other => by rw [head, Nat.add_zero]
  rw [head] at raised
  omega

/-- A success ends a call, and costs every other one round at most. -/
theorem paid_success {state next : FreeListThreads Thread Record} (t : Thread)
    (calls : next.calls = Function.update state.calls t .idle)
    (lower : 1 ≤ (state.calls t).cost state.list.head) :
    1 + next.potential ≤ state.potential + 2 * Fintype.card Thread := by
  have raised := potential_goto calls fun other =>
    FreeListCall.cost_raise state.list.head next.list.head other
  change _ ≤ state.potential + 0 + _ at raised
  omega

/-! What a run does, entry by entry. -/

def isAccess : FreeListAction Thread Record × List (FreeListEvent Thread Record) → Bool
  | (.step _ _, _) => true
  | _ => false

def isCall : FreeListAction Thread Record × List (FreeListEvent Thread Record) → Bool
  | (.callPush _ _, _) | (.callTryPop _, _) => true
  | _ => false

def isSpurious : FreeListAction Thread Record × List (FreeListEvent Thread Record) → Bool
  | (.step _ spurious, _) => spurious
  | _ => false

def isSuccess : FreeListAction Thread Record × List (FreeListEvent Thread Record) → Bool
  | (_, [.pushed _ _]) | (_, [.popped _ _]) => true
  | _ => false

def accessCost (entry : FreeListAction Thread Record × List (FreeListEvent Thread Record)) : Nat :=
  if isAccess entry then 1 else 0

def accessBudget (threads : Nat)
    (entry : FreeListAction Thread Record × List (FreeListEvent Thread Record)) : Nat :=
  (if isCall entry then 3 else 0) + (if isSpurious entry then 2 else 0) +
    (if isSuccess entry then 2 * threads else 0)

/-- An access of `push` that is not its last one. -/
theorem push_round {list after : FreeList Record} {spurious : Bool}
    {pc later : FreePushPc Record} (ran : list.pushStep spurious pc = (after, some later)) :
    after.head = list.head ∧ (FreeListCall.pushing later).cost list.head + 1 ≤
      (FreeListCall.pushing pc).cost list.head + if spurious then 2 else 0 := by
  cases pc with
  | loadHead node =>
      obtain ⟨rfl, rfl⟩ : list = after ∧ .writeNext node list.head = later := by
        simpa [FreeList.pushStep] using ran
      simp [FreeListCall.cost, FreeListCall.alone, FreeListCall.expected]
  | writeNext node h =>
      obtain ⟨rfl, rfl⟩ : _ = after ∧ .exchange node h = later := by
        simpa [FreeList.pushStep] using ran
      refine ⟨rfl, ?_⟩
      simp only [FreeListCall.cost, FreeListCall.alone, FreeListCall.expected]
      omega
  | exchange node h =>
      rw [FreeList.pushStep] at ran
      split at ran
      · cases ran
      · rename_i fails
        obtain ⟨rfl, rfl⟩ : list = after ∧ .writeNext node list.head = later := by
          simpa using ran
        refine ⟨rfl, ?_⟩
        simp only [FreeListCall.cost, FreeListCall.alone, FreeListCall.expected]
        by_cases same : list.head = h
        · have forced : spurious = true := by simpa [same] using fails
          simp [forced]
        · simp [Ne.symm same]

theorem popFrom_cost {list : FreeList Record} {later : FreePopPc Record}
    (found : FreeList.popFrom list.head = .inl later) :
    (FreeListCall.popping later).cost list.head = 2 := by
  cases top : list.head with
  | none => simp [FreeList.popFrom, top] at found
  | some h =>
      obtain rfl : .readNext h = later := by simpa [FreeList.popFrom, top] using found
      simp [FreeListCall.cost, FreeListCall.alone, FreeListCall.expected]

theorem popStep_misses {list after : FreeList Record} {spurious : Bool} {pc : FreePopPc Record}
    (ran : list.popStep spurious pc = (after, .inr none)) : after = list := by
  cases pc with
  | loadHead | readNext h => exact (congrArg Prod.fst ran).symm
  | exchange h next =>
      rw [FreeList.popStep] at ran
      split at ran
      · simp at ran
      · exact (congrArg Prod.fst ran).symm

/-- An access of `try_pop` that is not its last one. -/
theorem pop_round {list after : FreeList Record} {spurious : Bool}
    {pc later : FreePopPc Record} (ran : list.popStep spurious pc = (after, .inl later)) :
    after.head = list.head ∧ (FreeListCall.popping later).cost list.head + 1 ≤
      (FreeListCall.popping pc).cost list.head + if spurious then 2 else 0 := by
  obtain rfl := FreeList.popStep_continues ran
  refine ⟨rfl, ?_⟩
  cases pc with
  | loadHead =>
      rw [popFrom_cost (congrArg Prod.snd ran)]
      simp [FreeListCall.cost, FreeListCall.alone, FreeListCall.expected]
  | readNext h =>
      obtain rfl : .exchange h (after.freeNext h) = later :=
        Sum.inl.inj (congrArg Prod.snd ran)
      simp only [FreeListCall.cost, FreeListCall.alone, FreeListCall.expected]
      omega
  | exchange h next =>
      rw [FreeList.popStep] at ran
      split at ran
      · simp at ran
      · rename_i fails
        rw [popFrom_cost (congrArg Prod.snd ran)]
        simp only [FreeListCall.cost, FreeListCall.alone, FreeListCall.expected]
        by_cases same : after.head = some h
        · have forced : spurious = true := by simpa [same] using fails
          simp [forced]
        · simp [Ne.symm same]

theorem paid_push {state : FreeListThreads Thread Record} {t : Thread} (spurious : Bool)
    {pc : FreePushPc Record} (here : state.calls t = .pushing pc) :
    1 + (state.pushAccess t spurious pc).1.potential ≤ state.potential +
      accessBudget (Fintype.card Thread) (.step t spurious, (state.pushAccess t spurious pc).2) := by
  rcases ran : state.list.pushStep spurious pc with ⟨after, _ | later⟩
  · have paid : 1 + (({ state with list := after }.hold pc.node none).goto t .idle).potential ≤
        state.potential + 2 * Fintype.card Thread := by
      apply paid_success t rfl
      rw [here]
      cases pc <;> simp [FreeListCall.cost, FreeListCall.alone] <;> omega
    simp only [pushAccess, ran, accessBudget, isCall, isSpurious, isSuccess]
    simp only [if_true, Bool.false_eq_true, if_false]
    omega
  · obtain ⟨head, lower⟩ := push_round ran
    have paid : 1 + ({ state with list := after }.goto t (.pushing later)).potential ≤
        state.potential + if spurious then 2 else 0 := by
      apply paid_goto t _ rfl head
      rw [here]
      exact lower
    simp only [pushAccess, ran]
    change _ ≤ state.potential + (0 + (if spurious then 2 else 0) + 0)
    omega

theorem paid_pop {state : FreeListThreads Thread Record} {t : Thread} (spurious : Bool)
    {pc : FreePopPc Record} (here : state.calls t = .popping pc) :
    1 + (state.popAccess t spurious pc).1.potential ≤ state.potential +
      accessBudget (Fintype.card Thread) (.step t spurious, (state.popAccess t spurious pc).2) := by
  have busy : 1 ≤ (state.calls t).cost state.list.head := by
    rw [here]
    cases pc <;> simp [FreeListCall.cost, FreeListCall.alone] <;> omega
  rcases ran : state.list.popStep spurious pc with ⟨after, later | _ | node⟩
  · obtain ⟨head, lower⟩ := pop_round ran
    have paid : 1 + ({ state with list := after }.goto t (.popping later)).potential ≤
        state.potential + if spurious then 2 else 0 := by
      apply paid_goto t _ rfl head
      rw [here]
      exact lower
    simp only [popAccess, ran]
    change _ ≤ state.potential + (0 + (if spurious then 2 else 0) + 0)
    omega
  · have paid : 1 + ({ state with list := after }.goto t .idle).potential ≤
        state.potential + 0 :=
      paid_goto t .idle rfl (congrArg FreeList.head (popStep_misses ran)) busy
    simp only [popAccess, ran]
    omega
  · have paid : 1 + (({ state with list := after }.hold node (some t)).goto t .idle).potential ≤
        state.potential + 2 * Fintype.card Thread := paid_success t rfl busy
    simp only [popAccess, ran, accessBudget, isCall, isSpurious, isSuccess]
    simp only [if_true, Bool.false_eq_true, if_false]
    omega

theorem paid_call {state next : FreeListThreads Thread Record} (t : Thread)
    (call : FreeListCall Record) (calls : next.calls = Function.update state.calls t call)
    (head : next.list.head = state.list.head) (three : call.cost state.list.head = 3) :
    next.potential ≤ state.potential + 3 := by
  have paid : 1 + next.potential ≤ state.potential + 4 := by
    apply paid_goto t call calls head
    omega
  omega

theorem step_paid {state next : FreeListThreads Thread Record}
    {action : FreeListAction Thread Record} {events : List (FreeListEvent Thread Record)}
    (ran : state.step action = some (next, events)) :
    accessCost (action, events) + next.potential ≤
      state.potential + accessBudget (Fintype.card Thread) (action, events) := by
  cases action with
  | callPush t node =>
      rw [step] at ran
      split at ran
      · obtain ⟨rfl, rfl⟩ := Prod.mk.inj (Option.some.inj ran)
        have paid : ((state.hold node (some t)).goto t (.pushing (.loadHead node))).potential ≤
            state.potential + 3 := paid_call t _ rfl rfl rfl
        change 0 + _ ≤ state.potential + (3 + 0 + 0)
        omega
      · cases ran
  | callTryPop t =>
      rw [step] at ran
      split at ran
      · obtain ⟨rfl, rfl⟩ := Prod.mk.inj (Option.some.inj ran)
        have paid : (state.goto t (.popping .loadHead)).potential ≤ state.potential + 3 :=
          paid_call t _ rfl rfl rfl
        change 0 + _ ≤ state.potential + (3 + 0 + 0)
        omega
      · cases ran
  | step t spurious =>
      rw [step] at ran
      split at ran
      · cases ran
      · rename_i pc here
        have paid := paid_push spurious here
        rw [Option.some.inj ran] at paid
        exact paid
      · rename_i pc here
        have paid := paid_pop spurious here
        rw [Option.some.inj ran] at paid
        exact paid
  | handOver t node receiver =>
      rw [step] at ran
      split at ran
      · split_ifs at ran
        obtain ⟨rfl, rfl⟩ := Prod.mk.inj (Option.some.inj ran)
        change 0 + state.potential ≤ _
        omega
      · cases ran

omit [DecidableEq Record] [Fintype Thread] [DecidableEq Thread] in
theorem sum_accessCost
    (entries : List (FreeListAction Thread Record × List (FreeListEvent Thread Record))) :
    (entries.map accessCost).sum = entries.countP isAccess := by
  induction entries with
  | nil => rfl
  | cons entry entries ih =>
      rw [List.map_cons, List.sum_cons, ih, List.countP_cons, accessCost, Nat.add_comm]

omit [DecidableEq Record] [Fintype Thread] [DecidableEq Thread] in
theorem sum_accessBudget (threads : Nat)
    (entries : List (FreeListAction Thread Record × List (FreeListEvent Thread Record))) :
    (entries.map (accessBudget threads)).sum = 3 * entries.countP isCall +
      2 * entries.countP isSpurious + 2 * threads * entries.countP isSuccess := by
  induction entries with
  | nil => simp
  | cons entry entries ih =>
      rw [List.map_cons, List.sum_cons, ih, accessBudget]
      simp only [List.countP_cons, Nat.mul_add]
      split_ifs <;> omega

/-- In any stretch of any run, the accesses are paid by the calls, by the spurious failures
and by the successes: while nobody calls and no exchange fails by itself, one access in every
`2 * n + 1`, after the first `4 * n`, is a success. -/
theorem free_list_lock_free {list : FreeList Record} {first last : FreeListThreads Thread Record}
    {earlier entries : List (FreeListAction Thread Record × List (FreeListEvent Thread Record))}
    (path : (freeListMachine Thread list).recorded.Path EventMachine.anyAction earlier first
      entries last) :
    entries.countP isAccess ≤ 4 * Fintype.card Thread + 3 * entries.countP isCall +
      2 * entries.countP isSpurious +
        2 * Fintype.card Thread * entries.countP isSuccess := by
  have paid := EventMachine.Path.amortized accessCost (accessBudget (Fintype.card Thread))
    potential (fun _ _ _ _ ran => step_paid ran) path
  rw [sum_accessCost, sum_accessBudget] at paid
  have initial := potential_le first
  omega

def contendedSchedule : List (FreeListAction (Fin 3) Nat) :=
  [.callPush 0 7, .callPush 1 8, .callTryPop 2, .step 0 false, .step 1 false, .step 0 false,
    .step 1 false, .step 0 false, .step 1 false, .step 1 false, .step 2 false, .step 2 false,
    .step 1 false, .step 2 true, .step 2 false, .step 2 false]

theorem contendedSchedule_runs :
    ((freeListMachine (Fin 3) ⟨none, fun _ => none⟩).recorded.exec EventMachine.anyAction []
      (freeListMachine (Fin 3) ⟨none, fun _ => none⟩).recorded.start
        contendedSchedule).isSome = true := by
  decide +kernel

theorem free_list_lock_free_sample :
    let entries := (Option.get _ contendedSchedule_runs).1
    entries.countP isAccess = 13 ∧ entries.countP isCall = 3 ∧
      entries.countP isSpurious = 1 ∧ entries.countP isSuccess = 3 ∧
      entries.countP isAccess ≤ 4 * Fintype.card (Fin 3) + 3 * entries.countP isCall +
        2 * entries.countP isSpurious +
          2 * Fintype.card (Fin 3) * entries.countP isSuccess :=
  ⟨by decide +kernel, by decide +kernel, by decide +kernel, by decide +kernel,
    free_list_lock_free (EventMachine.reaches_of_isSome contendedSchedule_runs)⟩

end FreeListThreads

end MyServer
