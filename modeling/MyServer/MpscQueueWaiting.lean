import MyServer.MpscQueue
import Mathlib.Data.List.TakeWhile

/-!
For whom `MpscQueue::pop` waits. A consumer that finds `head->next` null and `tail_` moved on
spins until one producer, the one between its exchange of `tail_` behind the dummy and its
link, stores that link; no other producer can delay it.
-/

namespace MyServer

variable {Producer Record : Type} [DecidableEq Producer] [DecidableEq Record]

def QueueEvent.isAnswer : QueueEvent Producer Record → Bool
  | .popped _ | .popNull | .foundEmpty _ | .resetReturned => true
  | _ => false

def isProduceOf (producer : Producer) :
    QueueAction Producer Record × List (QueueEvent Producer Record) → Bool
  | (.produce other, _) => other = producer
  | _ => false

def isConsume : QueueAction Producer Record × List (QueueEvent Producer Record) → Bool
  | (.consume, _) => true
  | _ => false

def consumesAfter (producer : Producer)
    (entries : List (QueueAction Producer Record × List (QueueEvent Producer Record))) : Nat :=
  (entries.dropWhile fun entry => !isProduceOf producer entry).countP isConsume

def consumerAnswers
    (entries : List (QueueAction Producer Record × List (QueueEvent Producer Record))) :
    List (QueueEvent Producer Record) :=
  (entries.flatMap Prod.snd).filter QueueEvent.isAnswer

def recordedUse
    (entries : List (QueueAction Producer Record × List (QueueEvent Producer Record))) :
    QueueWorld Producer Record → QueueAction Producer Record → Prop :=
  queueUse (entries.flatMap Prod.snd)

instance [Fintype Producer]
    (entries : List (QueueAction Producer Record × List (QueueEvent Producer Record)))
    (world : QueueWorld Producer Record) (action : QueueAction Producer Record) :
    Decidable (recordedUse entries world action) :=
  inferInstanceAs (Decidable (queueUse (entries.flatMap Prod.snd) world action))

/-- The consumer spins on the dummy's `next`, which the producer is about to store. -/
structure QueueWorld.WaitsFor (world : QueueWorld Producer Record) (producer : Producer)
    (node : Record) : Prop where
  spins : world.consumer = .pop (.spin world.queue.head)
  null : world.queue.next world.queue.head = none
  links : world.producers producer = some (.linkPrev node world.queue.head)

variable {world next : QueueWorld Producer Record} {trace events : List (QueueEvent Producer Record)}
variable {pending : List Record} {producer : Producer} {node : Record}
variable {action : QueueAction Producer Record}

/-! The consumer spins only when something has been exchanged into `tail_`. -/

def QueueWorld.SpinsBehind (world : QueueWorld Producer Record) : Prop :=
  ∀ head, world.consumer = .pop (.spin head) → world.queue.tail ≠ world.queue.head

omit [DecidableEq Producer] in
/-- A consumer's step into the loop of `pop` is a step of `pop` that changes no variable. -/
theorem consume_spins {head : MpscNode Record} (stepped : world.consume = some (next, events))
    (spins : next.consumer = .pop (.spin head)) :
    ∃ pc, world.consumer = .pop pc ∧ world.queue.popStep pc = (world.queue, .inl (.spin head)) ∧
      next.queue = world.queue := by
  unfold QueueWorld.consume at stepped
  split at stepped
  · cases stepped
  · rename_i pc popping
    split at stepped
    · rename_i queue later result
      obtain ⟨rfl, rfl⟩ := Prod.mk.inj (Option.some.inj stepped)
      obtain rfl : later = .spin head := by simpa using spins
      have same : queue = world.queue := by
        cases pc with
        | loadNext | spin _ =>
            rw [MpscQueue.popStep] at result
            split at result <;> exact (congrArg Prod.fst result).symm
        | compareTail _ =>
            rw [MpscQueue.popStep] at result
            split at result <;> exact (congrArg Prod.fst result).symm
        | advance _ => simp [MpscQueue.popStep] at result
      subst same
      exact ⟨pc, popping, result, rfl⟩
    all_goals
      obtain ⟨rfl, rfl⟩ := Prod.mk.inj (Option.some.inj stepped)
      simp at spins
  all_goals
    split at stepped <;>
      obtain ⟨rfl, rfl⟩ := Prod.mk.inj (Option.some.inj stepped) <;> simp at spins

theorem spins_behind_step (ok : QueueOk trace world pending) (behind : world.SpinsBehind)
    (stepped : world.step action = some (next, events)) : next.SpinsBehind := by
  intro head spins
  cases action with
  | push other node =>
      rw [QueueWorld.step] at stepped
      split at stepped
      · obtain ⟨rfl, rfl⟩ := Prod.mk.inj (Option.some.inj stepped)
        exact behind head spins
      · cases stepped
  | produce other =>
      rw [QueueWorld.step] at stepped
      split at stepped
      · cases stepped
      · rename_i pc busy
        obtain ⟨rfl, rfl⟩ := Prod.mk.inj (Option.some.inj stepped)
        have spun : world.consumer = .pop (.spin head) := spins
        cases pc with
        | clearNext _ | linkPrev _ _ => exact behind head spun
        | exchangeTail node =>
            have chain := Phase.chain ok.phase (by rw [spun]; rfl)
            intro same
            apply chain.outside other node (.inr busy)
            change MpscNode.record node = world.queue.head at same
            simp [MpscQueue.chain, same]
  | pop | empty | reset =>
      rw [QueueWorld.step] at stepped
      split at stepped
      · obtain ⟨rfl, rfl⟩ := Prod.mk.inj (Option.some.inj stepped)
        simp at spins
      · cases stepped
  | consume =>
      change world.consume = some (next, events) at stepped
      obtain ⟨pc, popping, result, same⟩ := consume_spins stepped spins
      rw [same]
      cases pc with
      | loadNext =>
          rw [MpscQueue.popStep] at result
          split at result <;> simp at result
      | compareTail first =>
          have phase := ok.phase
          simp only [QueueWorld.Phase, popping] at phase
          change _ ∧ first = world.queue.head at phase
          rw [← phase.2]
          rw [MpscQueue.popStep] at result
          split at result
          · simp at result
          · assumption
      | spin first => exact behind first popping
      | advance _ => simp [MpscQueue.popStep] at result

theorem spins_behind
    (reached : (queueMachine Producer Record).Reaches queueUse trace world) :
    world.SpinsBehind := by
  have both : (∃ pending, QueueOk trace world pending) ∧ world.SpinsBehind := by
    refine reached.invariant (fun trace world =>
      (∃ pending, QueueOk trace world pending) ∧ world.SpinsBehind)
      ⟨⟨[], .initial⟩, fun head spins => nomatch spins⟩ ?_
    rintro trace world action next events ⟨⟨pending, ok⟩, behind⟩ permitted stepped
    exact ⟨ok.step permitted stepped, spins_behind_step ok behind stepped⟩
  exact both.2

/-- Someone is waited for, and it is the only producer at a link behind the dummy. -/
theorem waits_for_one (reached : (queueMachine Producer Record).Reaches queueUse trace world)
    {head : MpscNode Record} (spins : world.consumer = .pop (.spin head))
    (null : world.queue.next head = none) :
    ∃ producer node, world.WaitsFor producer node := by
  obtain ⟨pending, ok⟩ := queue_ok reached
  have phase := ok.phase
  simp only [QueueWorld.Phase, spins] at phase
  obtain ⟨chain, same⟩ := phase
  change head = world.queue.head at same
  subst same
  cases pending with
  | nil =>
      have last : world.queue.tail = world.queue.head := by
        simpa [MpscQueue.chain, eq_comm] using chain.tailLast
      exact absurd last (spins_behind reached _ spins)
  | cons node rest =>
      have adjacent : (world.queue.chain (node :: rest)).Adjacent world.queue.head
          (.record node) := by
        simp [MpscQueue.chain, List.adjacent_cons]
      rcases chain.linked _ _ adjacent with stored | ⟨producer, links⟩
      · simp [null] at stored
      · exact ⟨producer, node, spins, null, links⟩

/-- No other producer is at a link behind the dummy. -/
theorem QueueWorld.WaitsFor.only (waits : world.WaitsFor producer node)
    (ok : QueueOk trace world pending) {other : Producer} {late : Record}
    (links : world.producers other = some (.linkPrev late world.queue.head)) :
    other = producer := by
  have chain := Phase.chain ok.phase (by rw [waits.spins]; rfl)
  have here := (chain.window _ _ _ waits.links).1
  have there := (chain.window _ _ _ links).1
  have same : late = node := by
    simpa using List.Adjacent.unique_right chain.nodup there here
  subst same
  exact chain.distinct other producer late (by rw [links]; rfl) (by rw [waits.links]; rfl)

/-- A producer's step beside a `pop`: it emits no answer and keeps the dummy's successor. -/
theorem beside_pop {pc : PopPc Record} (popping : world.consumer = .pop pc)
    (ok : QueueOk trace world pending) (stepped : world.step action = some (next, events))
    (other : action ≠ .consume) :
    next.consumer = world.consumer ∧ events.filter QueueEvent.isAnswer = [] ∧
      next.queue.head = world.queue.head ∧
        ∀ front, world.queue.next world.queue.head = some front →
          next.queue.next world.queue.head = some front := by
  cases action with
  | push producer node =>
      rw [QueueWorld.step] at stepped
      split at stepped
      · obtain ⟨rfl, rfl⟩ := Prod.mk.inj (Option.some.inj stepped)
        exact ⟨rfl, rfl, rfl, fun _ stored => stored⟩
      · cases stepped
  | produce producer =>
      rw [QueueWorld.step] at stepped
      split at stepped
      · cases stepped
      · rename_i pushing busy
        obtain ⟨rfl, rfl⟩ := Prod.mk.inj (Option.some.inj stepped)
        have chain := Phase.chain ok.phase (by rw [popping]; rfl)
        refine ⟨rfl, ?_, ?_, fun front stored => chain.pushStep_front busy stored⟩
        · cases pushing <;> rfl
        · cases pushing <;> rfl
  | pop | empty | reset => simp [QueueWorld.step, popping] at stepped
  | consume => exact absurd rfl other

/-- Only the producer waited for ends the wait. -/
theorem QueueWorld.WaitsFor.beside (waits : world.WaitsFor producer node)
    (ok : QueueOk trace world pending) (stepped : world.step action = some (next, events))
    (other : action ≠ .produce producer) : next.WaitsFor producer node := by
  cases action with
  | push late _ =>
      rw [QueueWorld.step] at stepped
      split at stepped
      · rename_i idle
        obtain ⟨rfl, rfl⟩ := Prod.mk.inj (Option.some.inj stepped)
        have different : producer ≠ late := by
          rintro rfl
          simp [waits.links] at idle
        exact ⟨waits.spins, waits.null, by simpa [different] using waits.links⟩
      · cases stepped
  | produce late =>
      have different : producer ≠ late := fun same => other (congrArg _ same.symm)
      rw [QueueWorld.step] at stepped
      split at stepped
      · cases stepped
      · rename_i pushing busy
        obtain ⟨rfl, rfl⟩ := Prod.mk.inj (Option.some.inj stepped)
        have kept : Function.update world.producers late (world.queue.pushStep pushing).2
            producer = some (.linkPrev node world.queue.head) := by
          rw [Function.update_of_ne different, waits.links]
        cases pushing with
        | clearNext record =>
            refine ⟨waits.spins, ?_, kept⟩
            simp [Function.update_apply, waits.null]
        | exchangeTail record => exact ⟨waits.spins, waits.null, kept⟩
        | linkPrev record prev =>
            have elsewhere : world.queue.head ≠ prev := by
              rintro rfl
              exact different (waits.only ok busy).symm
            refine ⟨waits.spins, ?_, kept⟩
            simp [elsewhere, waits.null]
  | pop | empty | reset => simp [QueueWorld.step, waits.spins] at stepped
  | consume =>
      have again : world.queue.popStep (.spin world.queue.head) =
          (world.queue, .inl (.spin world.queue.head)) := by
        simp [MpscQueue.popStep, waits.null]
      simp only [QueueWorld.step, QueueWorld.consume, waits.spins, again, Option.some.injEq,
        Prod.mk.injEq] at stepped
      obtain ⟨rfl, _⟩ := stepped
      exact ⟨rfl, waits.null, waits.links⟩

inductive Awaited (producer : Producer) (node : Record)
    (entries : List (QueueAction Producer Record × List (QueueEvent Producer Record)))
    (world : QueueWorld Producer Record) : Prop
  | waiting (before : entries.any (isProduceOf producer) = false)
      (waits : world.WaitsFor producer node) (silent : consumerAnswers entries = [])
  | linked (after : entries.any (isProduceOf producer) = true)
      (steps : consumesAfter producer entries = 0)
      (spins : world.consumer = .pop (.spin world.queue.head))
      (stored : world.queue.next world.queue.head = some (.record node))
      (silent : consumerAnswers entries = [])
  | advancing (after : entries.any (isProduceOf producer) = true)
      (steps : consumesAfter producer entries = 1)
      (advances : world.consumer = .pop (.advance (.record node)))
      (silent : consumerAnswers entries = [])
  | answered (after : entries.any (isProduceOf producer) = true)
      (steps : 2 ≤ consumesAfter producer entries)
      (answer : (consumerAnswers entries).head? = some (.popped (.record node)))

variable {entries : List (QueueAction Producer Record × List (QueueEvent Producer Record))}
variable {entry : QueueAction Producer Record × List (QueueEvent Producer Record)}

omit [DecidableEq Record] in
theorem dropWhile_before (before : entries.any (isProduceOf producer) = false) :
    entries.dropWhile (fun entry => !isProduceOf producer entry) = [] := by
  simpa [List.dropWhile_eq_nil_iff] using before

omit [DecidableEq Record] in
theorem consumesAfter_before (before : entries.any (isProduceOf producer) = false) :
    consumesAfter producer (entries ++ [entry]) = 0 := by
  rw [consumesAfter, List.dropWhile_append, dropWhile_before before]
  rcases entry with ⟨action, events⟩
  cases action <;> simp [List.dropWhile_cons, isProduceOf, isConsume]

omit [DecidableEq Record] in
theorem consumesAfter_after (after : entries.any (isProduceOf producer) = true) :
    consumesAfter producer (entries ++ [entry]) =
      consumesAfter producer entries + if isConsume entry then 1 else 0 := by
  have some : entries.dropWhile (fun entry => !isProduceOf producer entry) ≠ [] := by
    simpa [List.dropWhile_eq_nil_iff] using after
  rw [consumesAfter, List.dropWhile_append, if_neg (by simpa using some), List.countP_append,
    List.countP_singleton, consumesAfter]

omit [DecidableEq Producer] [DecidableEq Record] in
theorem consumerAnswers_concat : consumerAnswers (entries ++ [entry]) =
    consumerAnswers entries ++ entry.2.filter QueueEvent.isAnswer := by
  simp [consumerAnswers]

omit [DecidableEq Record] in
theorem isProduceOf_iff : isProduceOf producer (action, events) = true ↔
    action = (.produce producer : QueueAction Producer Record) := by
  cases action <;> simp [isProduceOf]

omit [DecidableEq Producer] [DecidableEq Record] in
theorem isConsume_iff : isConsume (action, events) = true ↔
    action = (.consume : QueueAction Producer Record) := by
  cases action <;> simp [isConsume]

theorem Awaited.step (awaited : Awaited producer node entries world)
    (ok : QueueOk trace world pending) (stepped : world.step action = some (next, events)) :
    Awaited producer node (entries ++ [(action, events)]) next := by
  cases awaited with
  | waiting before waits silent =>
      have quiet : events.filter QueueEvent.isAnswer = [] := by
        by_cases consumes : action = .consume
        · subst consumes
          simp only [QueueWorld.step, QueueWorld.consume, waits.spins, MpscQueue.popStep,
            waits.null, Option.some.injEq, Prod.mk.injEq] at stepped
          rw [← stepped.2]
          rfl
        · exact (beside_pop waits.spins ok stepped consumes).2.1
      have still : consumerAnswers (entries ++ [(action, events)]) = [] := by
        rw [consumerAnswers_concat, silent, quiet, List.nil_append]
      by_cases its : action = .produce producer
      · subst its
        apply Awaited.linked (by simp [isProduceOf]) (consumesAfter_before before)
        all_goals
          simp only [QueueWorld.step, waits.links, Option.some.injEq, Prod.mk.injEq] at stepped
        · rw [← stepped.1]
          exact waits.spins
        · rw [← stepped.1]
          simp [MpscQueue.pushStep]
        · exact still
      · refine .waiting ?_ (waits.beside ok stepped its) still
        rw [List.any_append, before]
        simpa using fun its' => its (isProduceOf_iff.mp its')
  | linked after steps spins stored silent =>
      have later : (entries ++ [(action, events)]).any (isProduceOf producer) = true := by
        rw [List.any_append, after, Bool.true_or]
      by_cases consumes : action = .consume
      · subst consumes
        simp only [QueueWorld.step, QueueWorld.consume, spins, MpscQueue.popStep, stored,
          Option.some.injEq, Prod.mk.injEq] at stepped
        obtain ⟨rfl, rfl⟩ := stepped
        apply Awaited.advancing later
        · rw [consumesAfter_after after, steps, isConsume, if_pos rfl]
        · rfl
        · rw [consumerAnswers_concat, silent, List.nil_append, List.filter_nil]
      · obtain ⟨same, quiet, head, kept⟩ := beside_pop spins ok stepped consumes
        apply Awaited.linked later
        · rw [consumesAfter_after after, steps, if_neg fun c => consumes (isConsume_iff.mp c)]
        · rw [same, head, spins]
        · rw [head, kept _ stored]
        · rw [consumerAnswers_concat, silent, quiet, List.nil_append]
  | advancing after steps advances silent =>
      have later : (entries ++ [(action, events)]).any (isProduceOf producer) = true := by
        rw [List.any_append, after, Bool.true_or]
      by_cases consumes : action = .consume
      · subst consumes
        simp only [QueueWorld.step, QueueWorld.consume, advances, MpscQueue.popStep,
          Option.some.injEq, Prod.mk.injEq] at stepped
        obtain ⟨rfl, rfl⟩ := stepped
        apply Awaited.answered later
        · rw [consumesAfter_after after, steps, isConsume, if_pos rfl]
        · rw [consumerAnswers_concat, silent]
          rfl
      · obtain ⟨same, quiet, -, -⟩ := beside_pop advances ok stepped consumes
        apply Awaited.advancing later
        · rw [consumesAfter_after after, steps, if_neg fun c => consumes (isConsume_iff.mp c)]
        · rw [same, advances]
        · rw [consumerAnswers_concat, silent, quiet, List.nil_append]
  | answered after steps answer =>
      apply Awaited.answered
      · rw [List.any_append, after, Bool.true_or]
      · rw [consumesAfter_after after]
        omega
      · rw [consumerAnswers_concat, List.head?_append, answer, Option.some_or]

/-- A consumer that spins waits for exactly one producer: until that producer's next step the
call cannot return, and after it the call returns the producer's node at the consumer's
second step, whatever the other producers do. -/
theorem pop_waits_for_one_push
    {earlier : List (QueueAction Producer Record × List (QueueEvent Producer Record))}
    (reached : (queueMachine Producer Record).recorded.Reaches recordedUse earlier world)
    {head : MpscNode Record} (spins : world.consumer = .pop (.spin head))
    (null : world.queue.next head = none) :
    ∃ producer node, world.producers producer = some (.linkPrev node head) ∧
      (∀ other late, world.producers other = some (.linkPrev late head) → other = producer) ∧
      ∀ segment last,
        (queueMachine Producer Record).recorded.Path recordedUse earlier world segment last →
        (consumerAnswers segment).head? =
          if 2 ≤ consumesAfter producer segment then some (.popped (.record node)) else none := by
  have start : (queueMachine Producer Record).Reaches queueUse (earlier.flatMap Prod.snd) world :=
    EventMachine.Path.unrecorded reached
  obtain ⟨producer, node, waits⟩ := waits_for_one start spins null
  obtain rfl : world.queue.head = head := by simpa [waits.spins] using spins
  obtain ⟨pending, ok⟩ := queue_ok start
  refine ⟨producer, node, waits.links, fun other late links => waits.only ok links, ?_⟩
  intro segment last path
  have awaited : Awaited producer node segment last := by
    induction path with
    | nil => exact .waiting rfl waits rfl
    | snoc path permitted stepped ih =>
        obtain ⟨events, ran, rfl⟩ := EventMachine.recorded_step stepped
        obtain ⟨pending, ok⟩ := queue_ok (start.extend path.unrecorded)
        exact ih.step ok ran
  cases awaited with
  | waiting before waits silent =>
      rw [silent, consumesAfter, dropWhile_before before]
      rfl
  | linked after steps spins stored silent => rw [silent, steps]; rfl
  | advancing after steps advances silent => rw [silent, steps]; rfl
  | answered after steps answer => rw [answer, if_pos steps]

def spinningSchedule : List (QueueAction Bool Nat) :=
  [.push false 5, .produce false, .produce false, .pop, .consume, .consume]

def waitingSchedule : List (QueueAction Bool Nat) :=
  [.consume, .push true 6, .produce true, .produce true, .consume, .produce true, .consume,
    .produce false, .push false 7, .consume, .produce false, .consume]

theorem spinningSchedule_runs :
    ((queueMachine Bool Nat).recorded.exec recordedUse []
      (queueMachine Bool Nat).recorded.start spinningSchedule).isSome = true := by
  decide +kernel

theorem waitingSchedule_runs :
    let spinning := Option.get _ spinningSchedule_runs
    ((queueMachine Bool Nat).recorded.exec recordedUse spinning.1 spinning.2
      waitingSchedule).isSome = true := by
  decide +kernel

theorem pop_waits_for_one_push_sample :
    let spinning := Option.get _ spinningSchedule_runs
    let after := Option.get _ waitingSchedule_runs
    let segment := after.1.drop spinning.1.length
    (∀ other late, spinning.2.producers other = some (.linkPrev late .stub) → other = false) ∧
      (consumerAnswers segment).head? = some (.popped (.record 5)) := by
  intro spinning after segment
  have spins : spinning.2.consumer = .pop (.spin .stub) := rfl
  obtain ⟨producer, node, links, only, answers⟩ := pop_waits_for_one_push
    (EventMachine.reaches_of_isSome spinningSchedule_runs) spins rfl
  have first : spinning.2.producers false = some (.linkPrev 5 .stub) := by decide +kernel
  obtain rfl : false = producer := only false 5 first
  obtain rfl : 5 = node := by simpa using first.symm.trans links
  have ran : (queueMachine Bool Nat).recorded.exec recordedUse spinning.1 spinning.2
      waitingSchedule = some (spinning.1 ++ segment, after.2) := by
    rfl
  refine ⟨only, ?_⟩
  rw [answers segment after.2 (EventMachine.path_of_exec _ ran)]
  decide +kernel

end MyServer
