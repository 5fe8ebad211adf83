import MyServer.ServerDepth
import MyServer.ServerProcessing
import MyServer.ServerStart

/-!
`shutdown(ShutdownMode::force)`. Its runs record their steps, so that a trace tells which
worker did what. The stop test of `workerLoop` stands behind its pop, so a worker goes on
with every event it finds; a forced shutdown stops the workers when none of them can find
one on its way to the test, and there the force branch keeps them from coming back.
-/

namespace MyServer

deriving instance DecidableEq for ServerAction

variable {Thread : Type}

abbrev ServerEntry (Thread : Type) := ServerAction Thread × List (ServerEvent Thread)

def eventsOf (trace : List (ServerEntry Thread)) : List (ServerEvent Thread) :=
  trace.flatMap Prod.snd

def isWorker (id : Nat) (entry : ServerEntry Thread) : Bool :=
  match entry.1 with
  | .worker other _ => other = id
  | _ => false

def workerEvents (id : Nat) (trace : List (ServerEntry Thread)) : List (ServerEvent Thread) :=
  eventsOf (trace.filter (isWorker id))

def ServerEvent.isSpawn (id : Nat) : ServerEvent Thread → Bool
  | .spawned other => other = id
  | _ => false

def ServerEvent.isShutdownReturned : ServerEvent Thread → Bool
  | .shutdownReturned _ => true
  | _ => false

def cameRound (id : Nat) (trace : List (ServerEntry Thread)) : Bool :=
  trace.any fun entry => isWorker id entry || entry.2.any (ServerEvent.isSpawn id)

def ServerEvent.shutdownMode? [DecidableEq Thread] (thread : Thread) :
    ServerEvent Thread → Option ShutdownMode
  | .shutdownCalled other mode => if other = thread then some mode else none
  | _ => none

def calledMode [DecidableEq Thread] (thread : Thread) (trace : List (ServerEntry Thread)) :
    Option ShutdownMode :=
  ((eventsOf trace).filterMap (ServerEvent.shutdownMode? thread)).getLast?

def ForcedReturn [DecidableEq Thread] (before : List (ServerEntry Thread))
    (entry : ServerEntry Thread) : Prop :=
  ∃ thread, .shutdownReturned thread ∈ entry.2 ∧ calledMode thread before = some .force

def NoStart (trace : List (ServerEntry Thread)) : Prop :=
  ∀ event ∈ eventsOf trace, event.isStartCalled = false

def SinceForced [DecidableEq Thread] (trace : List (ServerEntry Thread))
    (holds : List (ServerEntry Thread) → Prop) : Prop :=
  ∀ index, (below : index < trace.length) → ForcedReturn (trace.take index) (trace.get ⟨index, below⟩) →
    NoStart (trace.drop (index + 1)) → holds (trace.drop (index + 1))

namespace CallerPc

def stored : CallerPc → Bool
  | .testState | .storeStopping | .requestStop | .notifyAll => true
  | _ => false

def launching : CallerPc → Bool
  | .clearStop | .spawn _ => true
  | _ => false

end CallerPc

def LoopPc.leaving : LoopPc Thread → Bool
  | .absent | .testStop | .testMode | .finished => true
  | _ => false

namespace Server

def AllFinished (server : Server Thread) : Prop :=
  ∀ id, id < server.spawned → server.loops id = .finished

/-- With `count` events in the queue no worker can come round and find one: it leaves, or its
`tryPop` has been under way and takes the only one. -/
def Spent (since : List (ServerEntry Thread)) (count : Nat) (server : Server Thread) : Prop :=
  ∀ id, id < server.spawned → (server.loops id).leaving = true ∨
    count ≤ 1 ∧ server.loops id = .tryPop ∧ cameRound id since = false

/-- A forced `shutdown` is not overruled by a graceful one, nor by a `start` that was called
before its return. -/
def NotOverruled [DecidableEq Thread] (server : Server Thread) (trace : List (ServerEntry Thread))
    (thread : Thread) : Prop :=
  (server.callers thread = .storeMode .graceful →
    (∀ other, (server.callers other).stored = true → calledMode other trace ≠ some .force) ∧
      SinceForced trace fun _ => server.AllFinished) ∧
  (server.callers thread = .clearStop →
    ∀ other, server.callers other = .notifyAll → calledMode other trace ≠ some .force) ∧
  ((server.callers thread).launching = true → SinceForced trace fun _ => False)

/-- When a forced `shutdown` returns, and at every push since, no worker can come round and find
an event. -/
def NothingLeft [DecidableEq Thread] (server : Server Thread) (trace : List (ServerEntry Thread))
    (thread : Thread) : Prop :=
  (server.callers thread = .notifyAll → calledMode thread trace = some .force →
    server.queue = [] ∨ server.Spent [] server.queue.length) ∧
  (server.callers thread = .testState → server.state = .stopped ∨ server.state = .failed →
    calledMode thread trace = some .force → server.AllFinished) ∧
  (server.callers thread = .tryPush →
    SinceForced trace fun since => server.Spent since (server.queue.length + 1))

def forceStands [DecidableEq Thread] (trace : List (ServerEntry Thread)) (server : Server Thread) :
    ServerAction Thread → Prop
  | .caller thread _ => server.NotOverruled trace thread ∧ server.NothingLeft trace thread
  | _ => True

end Server

/-! Records, entry by entry. -/

section Records

variable {id : Nat} {trace before after : List (ServerEntry Thread)} {entry : ServerEntry Thread}

theorem eventsOf_append : eventsOf (before ++ after) = eventsOf before ++ eventsOf after := by
  simp [eventsOf]

theorem workerEvents_own (own : isWorker id entry = true) :
    workerEvents id (trace ++ [entry]) = workerEvents id trace ++ entry.2 := by
  simp [workerEvents, eventsOf, List.filter_append, own]

theorem workerEvents_other (other : isWorker id entry = false) :
    workerEvents id (trace ++ [entry]) = workerEvents id trace := by
  simp [workerEvents, eventsOf, List.filter_append, other]

theorem eventsOf_snoc : eventsOf (trace ++ [entry]) = eventsOf trace ++ entry.2 := by
  simp [eventsOf]

theorem NoStart.earlier (none : NoStart (trace ++ [entry])) : NoStart trace := by
  intro event inside
  apply none
  rw [eventsOf_append]
  exact List.mem_append_left _ inside

section Modes

variable [DecidableEq Thread] {thread : Thread}

theorem calledMode_silent
    (silent : entry.2.filterMap (ServerEvent.shutdownMode? thread) = []) :
    calledMode thread (trace ++ [entry]) = calledMode thread trace := by
  rw [calledMode, eventsOf_snoc, List.filterMap_append, silent, List.append_nil, calledMode]

theorem calledMode_called (action : ServerAction Thread) (mode : ShutdownMode) :
    calledMode thread (trace ++ [(action, [.shutdownCalled thread mode])]) = some mode := by
  rw [calledMode, eventsOf_snoc, List.filterMap_append]
  simp [ServerEvent.shutdownMode?]

theorem SinceForced.since {holds : List (ServerEntry Thread) → Prop}
    (all : SinceForced (before ++ entry :: after) holds) (forced : ForcedReturn before entry)
    (noStart : NoStart after) : holds after := by
  have below : before.length < (before ++ entry :: after).length := by simp
  have found := all before.length below
  simp only [List.take_left, List.get_eq_getElem, List.getElem_append_right (Nat.le_refl _),
    Nat.sub_self, List.getElem_cons_zero] at found
  rw [show (before ++ entry :: after).drop (before.length + 1) = after by simp] at found
  exact found forced noStart

end Modes

theorem cameRound_still (still : cameRound id trace = false) (other : isWorker id entry = false)
    (unspawned : entry.2.any (ServerEvent.isSpawn id) = false) :
    cameRound id (trace ++ [entry]) = false := by
  rw [cameRound, List.any_append, ← cameRound, still]
  simp [other, unspawned]

theorem cameRound_snoc (still : cameRound id (trace ++ [entry]) = false) :
    cameRound id trace = false ∧ isWorker id entry = false ∧
      entry.2.any (ServerEvent.isSpawn id) = false := by
  simpa [cameRound, and_assoc] using still

end Records

namespace Server

variable [DecidableEq Thread] {config : ServerConfig} {server next first : Server Thread}
variable {events : List (ServerEvent Thread)} {action : ServerAction Thread} {id : Nat}

omit [DecidableEq Thread] in
theorem LoopMove.others_same {other : Nat} (moved : LoopMove config server other next events)
    (apart : id ≠ other) : next.loops id = server.loops id := by
  cases moved <;> exact Function.update_of_ne apart _ _

/-- A step of others leaves a worker where it is, wakes it, or spawns it. -/
theorem others_loop (moved : Move config server action next events)
    (other : isWorker id (action, events) = false) :
    next.loops id = server.loops id ∨ next.loops id = .notified ∨
      next.loops id = .tryPop ∧ events.any (ServerEvent.isSpawn id) = true := by
  have spawn : ∀ more, Function.update server.loops server.spawned .tryPop id = server.loops id ∨
      Function.update server.loops server.spawned .tryPop id = .tryPop ∧
        (ServerEvent.spawned server.spawned :: more : List (ServerEvent Thread)).any
          (ServerEvent.isSpawn id) = true := by
    intro more
    by_cases same : id = server.spawned
    · subst same
      exact .inr ⟨Function.update_self _ _ _, by simp [ServerEvent.isSpawn]⟩
    · exact .inl (Function.update_of_ne same _ _)
  have woken : ∀ wakes, Function.update server.loops wakes .notified id = server.loops id ∨
      Function.update server.loops wakes .notified id = .notified := by
    intro wakes
    by_cases same : id = wakes
    · subst same
      exact .inr (Function.update_self _ _ _)
    · exact .inl (Function.update_of_ne same _ _)
  cases moved with
  | call here entry => exact .inl rfl
  | wake here =>
      rcases woken _ with same | wakes
      · exact .inl same
      · exact .inr (.inl wakes)
  | worker moved =>
      refine .inl (moved.others_same ?_)
      rintro rfl
      simp [isWorker] at other
  | caller moved =>
      cases moved with
      | spawns here more =>
          rcases spawn [] with same | spawned
          · exact .inl same
          · exact .inr (.inr spawned)
      | spawnsLast here last =>
          rcases spawn _ with same | spawned
          · exact .inl same
          · exact .inr (.inr spawned)
      | notifiesAll here =>
          by_cases blocked : server.loops id = .blocked
          · exact .inr (.inl (by simp [goto, wakeAll, blocked]))
          · exact .inl (by simp [goto, wakeAll, blocked])
      | notifiesOne here picked =>
          rcases woken _ with same | wakes
          · exact .inl same
          · exact .inr (.inl wakes)
      | _ => exact .inl rfl

omit [DecidableEq Thread] in
/-- What a worker's step does to the event it has popped and not begun. -/
theorem LoopMove.progress (moved : LoopMove config server id next events) :
    (∃ event, server.loops id = .tryPop ∧ server.queue ≠ [] ∧
      (next.loops id).fetched = some event ∧ poppedEvents events = [event] ∧
      beganEvents events = []) ∨
    (∃ event, (server.loops id).fetched = some event ∧ (next.loops id).fetched = none ∧
      poppedEvents events = [] ∧ beganEvents events = [event]) ∨
    ((next.loops id).fetched = (server.loops id).fetched ∧ poppedEvents events = [] ∧
      beganEvents events = []) := by
  have goes : ∀ pc : LoopPc Thread, Function.update server.loops id pc id = pc :=
    fun pc => Function.update_self _ _ _
  cases moved with
  | pops here found =>
      exact .inl ⟨_, here, by simp [found], congrArg LoopPc.fetched (goes _), rfl, rfl⟩
  | begins here =>
      refine .inr (.inl ⟨_, congrArg LoopPc.fetched here, ?_, rfl, rfl⟩)
      exact (congrArg LoopPc.fetched (goes _)).trans (decodeFrom_processing config _ 0).2
  | decodesNot here =>
      refine .inr (.inr ⟨?_, rfl, rfl⟩)
      rw [here]
      exact (congrArg LoopPc.fetched (goes _)).trans (decodeFrom_processing config _ _).2
  | locks here free =>
      refine .inr (.inr ⟨(congrArg LoopPc.fetched (goes _)).trans ?_, rfl, rfl⟩)
      rcases here with here | here <;> rw [here] <;> rfl
  | _ here =>
      refine .inr (.inr ⟨(congrArg LoopPc.fetched (goes _)).trans ?_, rfl, rfl⟩)
      rw [here]
      rfl

structure ForcedOk (first : Server Thread) (since : List (ServerEntry Thread))
    (server : Server Thread) (id : Nat) : Prop where
  unmoved : cameRound id since = false →
    poppedEvents (workerEvents id since) = [] ∧
      (server.loops id = .tryPop → first.loops id = .tryPop)
  once : (poppedEvents (workerEvents id since)).length ≤ 1
  underWay : poppedEvents (workerEvents id since) ≠ [] → first.loops id = .tryPop
  began : (beganEvents (workerEvents id since) ++ (server.loops id).fetched.toList).Sublist
    ((first.loops id).fetched.toList ++ poppedEvents (workerEvents id since))

variable {since : List (ServerEntry Thread)} {entry : ServerEntry Thread}

omit [DecidableEq Thread] in
theorem ForcedOk.other (ok : ForcedOk first since server id) (other : isWorker id entry = false)
    (loop : next.loops id = server.loops id ∨ next.loops id = .notified ∨
      next.loops id = .tryPop ∧ entry.2.any (ServerEvent.isSpawn id) = true) :
    ForcedOk first (since ++ [entry]) next id := by
  have same : workerEvents id (since ++ [entry]) = workerEvents id since := workerEvents_other other
  constructor
  case once =>
    rw [same]
    exact ok.once
  case underWay =>
    rw [same]
    exact ok.underWay
  case unmoved =>
    intro still
    obtain ⟨before, _, noSpawn⟩ := cameRound_snoc still
    rw [same]
    refine ⟨(ok.unmoved before).1, fun here => ?_⟩
    rcases loop with kept | woken | ⟨_, spawned⟩
    · exact (ok.unmoved before).2 (kept ▸ here)
    · rw [woken] at here
      cases here
    · rw [noSpawn] at spawned
      cases spawned
  case began =>
    rw [same]
    rcases loop with kept | woken | ⟨tryPop, _⟩
    · rw [kept]
      exact ok.began
    · rw [woken]
      exact (List.sublist_append_left _ _).trans (by simpa [LoopPc.fetched] using ok.began)
    · rw [tryPop]
      exact (List.sublist_append_left _ _).trans (by simpa [LoopPc.fetched] using ok.began)

omit [DecidableEq Thread] in
theorem ForcedOk.own {answer : Bool} (ok : ForcedOk first since server id)
    (moved : LoopMove config server id next events)
    (round : server.loops id = .tryPop → server.queue ≠ [] → cameRound id since = false) :
    ForcedOk first (since ++ [(.worker id answer, events)]) next id := by
  have own : isWorker id ((.worker id answer, events) : ServerEntry Thread) = true := by
    simp [isWorker]
  have longer : workerEvents id (since ++ [(.worker id answer, events)]) =
      workerEvents id since ++ events := workerEvents_own own
  have popped : poppedEvents (workerEvents id (since ++ [(.worker id answer, events)])) =
      poppedEvents (workerEvents id since) ++ poppedEvents events := by
    rw [longer, poppedEvents_append]
  have began : beganEvents (workerEvents id (since ++ [(.worker id answer, events)])) =
      beganEvents (workerEvents id since) ++ beganEvents events := by
    rw [longer, beganEvents_append]
  have unmoved : cameRound id (since ++ [(.worker id answer, events)]) = false →
      poppedEvents (workerEvents id (since ++ [(.worker id answer, events)])) = [] ∧
        (next.loops id = .tryPop → first.loops id = .tryPop) := by
    intro still
    rw [(cameRound_snoc still).2.1] at own
    exact Bool.noConfusion own
  rcases moved.progress with ⟨event, here, found, held, pops, begins⟩ |
      ⟨event, held, gone, pops, begins⟩ | ⟨same, pops, begins⟩
  · obtain ⟨nothing, underWay⟩ := ok.unmoved (round here found)
    refine ⟨unmoved, ?_, fun _ => underWay here, ?_⟩
    · rw [popped, nothing, pops]
      simp
    · have before := ok.began
      rw [here] at before
      rw [popped, began, begins, pops, held, List.append_nil, ← List.append_assoc]
      apply List.Sublist.append _ (List.Sublist.refl _)
      simpa [LoopPc.fetched] using before
  · refine ⟨unmoved, ?_, ?_, ?_⟩
    · rw [popped, pops, List.append_nil]
      exact ok.once
    · rw [popped, pops, List.append_nil]
      exact ok.underWay
    · have before := ok.began
      rw [held] at before
      rw [popped, began, begins, pops, gone]
      simpa using before
  · refine ⟨unmoved, ?_, ?_, ?_⟩
    · rw [popped, pops, List.append_nil]
      exact ok.once
    · rw [popped, pops, List.append_nil]
      exact ok.underWay
    · rw [popped, began, begins, pops, same, List.append_nil, List.append_nil]
      exact ok.began

theorem ForcedOk.step (ok : ForcedOk first since server id)
    (stepped : server.step config action = some (next, events))
    (round : ∀ answer, action = .worker id answer → server.loops id = .tryPop →
      server.queue ≠ [] → cameRound id since = false) :
    ForcedOk first (since ++ [(action, events)]) next id := by
  have moved := (step_move stepped).2
  cases own : isWorker id (action, events) with
  | false => exact ok.other own (others_loop moved own)
  | true =>
      cases moved with
      | worker moved =>
          rename_i other answer
          obtain rfl : other = id := by simpa [isWorker] using own
          exact ok.own moved (round answer rfl)
      | caller moved => simp [isWorker] at own
      | wake here => simp [isWorker] at own
      | call here entry => cases entry <;> simp [isWorker] at own

omit [DecidableEq Thread] in
theorem ForcedOk.initial : ForcedOk first [] first id where
  unmoved := fun _ => ⟨rfl, fun here => here⟩
  once := Nat.zero_le _
  underWay := fun popped => absurd rfl popped
  began := by simp [workerEvents, eventsOf, beganEvents, poppedEvents]

omit [DecidableEq Thread] in
/-- A worker that has popped an event since was at its `tryPop`, so it held none before. -/
theorem ForcedOk.begins_once (ok : ForcedOk first since server id) :
    (beganEvents (workerEvents id since)).length ≤ 1 := by
  have lengths := ok.began.length_le
  simp only [List.length_append] at lengths
  cases held : (first.loops id).fetched with
  | none =>
      have once := ok.once
      simp only [held, Option.toList_none, List.length_nil] at lengths
      omega
  | some event =>
      have nothing : poppedEvents (workerEvents id since) = [] := by
        by_contra popped
        rw [ok.underWay popped] at held
        cases held
      simp only [held, nothing, Option.toList_some, List.length_cons, List.length_nil] at lengths
      omega

/-! What a forced shutdown has stored when it returns. -/

structure ModesOk (trace : List (ServerEntry Thread)) (server : Server Thread) : Prop where
  called : ∀ thread mode, server.callers thread = .storeMode mode →
    calledMode thread trace = some mode
  stored : ∀ thread, (server.callers thread).stored = true →
    calledMode thread trace = some .force → server.shutdownMode = .force
  requested : ∀ thread, server.callers thread = .notifyAll →
    calledMode thread trace = some .force → server.stopRequested = true

variable {trace : List (ServerEntry Thread)} {thread : Thread}

theorem CallerMove.calls_nothing (moved : CallerMove config server thread next events)
    (other : Thread) : events.filterMap (ServerEvent.shutdownMode? other) = [] := by
  cases moved <;> rfl

omit [DecidableEq Thread] in
theorem LoopMove.calls_nothing [DecidableEq Thread] (moved : LoopMove config server id next events)
    (other : Thread) : events.filterMap (ServerEvent.shutdownMode? other) = [] := by
  cases moved <;> rfl

theorem ModesOk.frame (ok : ModesOk trace server) (callers : next.callers = server.callers)
    (mode : next.shutdownMode = server.shutdownMode)
    (stop : next.stopRequested = server.stopRequested)
    (silent : ∀ other, entry.2.filterMap (ServerEvent.shutdownMode? other) = []) :
    ModesOk (trace ++ [entry]) next := by
  constructor
  case called =>
    intro other
    rw [callers, calledMode_silent (silent other)]
    exact ok.called other
  case stored =>
    intro other
    rw [callers, mode, calledMode_silent (silent other)]
    exact ok.stored other
  case requested =>
    intro other
    rw [callers, stop, calledMode_silent (silent other)]
    exact ok.requested other

/-- A caller goes on, with what it does to the mode and the stop flag. -/
theorem ModesOk.goto (ok : ModesOk trace server) {pc : CallerPc}
    (callers : next.callers = Function.update server.callers thread pc)
    (silent : ∀ other, entry.2.filterMap (ServerEvent.shutdownMode? other) = [])
    (called : ∀ mode, pc ≠ .storeMode mode)
    (stored : pc.stored = true → calledMode thread trace = some .force →
      next.shutdownMode = .force)
    (others : ∀ other, (server.callers other).stored = true →
      calledMode other trace = some .force → next.shutdownMode = .force)
    (requested : pc = .notifyAll → calledMode thread trace = some .force →
      next.stopRequested = true)
    (kept : ∀ other, server.callers other = .notifyAll → calledMode other trace = some .force →
      next.stopRequested = true) :
    ModesOk (trace ++ [entry]) next := by
  constructor
  case called =>
    intro other mode here
    rw [calledMode_silent (silent other)]
    rw [callers] at here
    exact ok.called other mode (before_update (· = CallerPc.storeMode mode) (called mode) here)
  case stored =>
    intro other here
    rw [calledMode_silent (silent other)]
    rw [callers] at here
    rcases of_update (CallerPc.stored · = true) here with ⟨rfl, now⟩ | before
    · exact stored now
    · exact others other before
  case requested =>
    intro other here
    rw [calledMode_silent (silent other)]
    rw [callers] at here
    rcases of_update (· = CallerPc.notifyAll) here with ⟨rfl, now⟩ | before
    · exact requested now
    · exact kept other before

theorem ModesOk.plain (ok : ModesOk trace server) {pc : CallerPc}
    (callers : next.callers = Function.update server.callers thread pc)
    (mode : next.shutdownMode = server.shutdownMode)
    (stop : next.stopRequested = server.stopRequested)
    (silent : ∀ other, entry.2.filterMap (ServerEvent.shutdownMode? other) = [])
    (called : ∀ mode, pc ≠ .storeMode mode)
    (stored : pc.stored = true → (server.callers thread).stored = true)
    (notLast : pc ≠ .notifyAll) : ModesOk (trace ++ [entry]) next := by
  refine ok.goto callers silent called (fun now => ?_) ?_ (absurd · notLast) ?_
  · rw [mode]
    exact ok.stored thread (stored now)
  · rw [mode]
    exact ok.stored
  · rw [stop]
    exact ok.requested

omit [DecidableEq Thread] in
theorem afterState_unstored [DecidableEq Thread] (server : Server Thread) (config : ServerConfig)
    (event : Submission Thread) :
    (∀ mode, server.afterState config event ≠ .storeMode mode) ∧
      (server.afterState config event).stored = false ∧
      server.afterState config event ≠ .notifyAll := by
  unfold afterState
  split
  · simp [CallerPc.stored]
  · split
    · simp [CallerPc.stored]
    · split <;> simp [CallerPc.stored]

theorem ModesOk.caller (ok : ModesOk trace server) {wakes : Nat}
    (permitted : forceStands trace server (.caller thread wakes))
    (moved : CallerMove config server thread next events) :
    ModesOk (trace ++ [(.caller thread wakes, events)]) next := by
  have silent := moved.calls_nothing
  obtain ⟨⟨overrules, clears, _⟩, _⟩ := permitted
  cases moved with
  | @storesMode mode here =>
      refine ok.goto rfl silent nofun (fun _ force => ?_) (fun other stored force => ?_) nofun
        ok.requested
      · rw [ok.called thread mode here] at force
        exact Option.some.inj force
      · cases mode with
        | force => rfl
        | graceful => exact absurd force ((overrules here).1 other stored)
  | clearsStop here =>
      exact ok.goto rfl silent nofun nofun ok.stored nofun
        fun other last force => absurd force (clears here other last)
  | requestsStop here =>
      exact ok.goto rfl silent nofun (fun _ => ok.stored thread (by rw [here]; rfl)) ok.stored
        (fun _ _ => rfl) fun _ _ _ => rfl
  | checksState here =>
      obtain ⟨called, stored, notLast⟩ :=
        afterState_unstored server config (server.submission thread)
      exact ok.plain rfl rfl rfl silent called (by simp [stored]) notLast
  | terminates here unjoined => exact ok.frame rfl rfl rfl silent
  | _ here =>
      exact ok.plain rfl rfl rfl silent (by simp) (by simp [here, CallerPc.stored]) (by simp)

theorem ModesOk.step (ok : ModesOk trace server) (permitted : forceStands trace server action)
    (moved : Move config server action next events) : ModesOk (trace ++ [(action, events)]) next := by
  cases moved with
  | caller moved => exact ok.caller permitted moved
  | worker moved =>
      have silent := moved.calls_nothing
      cases moved with
      | _ => exact ok.frame rfl rfl rfl silent
  | wake here => exact ok.frame rfl rfl rfl fun _ => rfl
  | @call thread _ _ _ here entry =>
      cases entry with
      | @shutdown mode =>
          have others : ∀ other, other ≠ thread → calledMode other (trace ++
              [(.shutdown thread mode, [.shutdownCalled thread mode])]) =
                calledMode other trace := by
            intro other different
            refine calledMode_silent ?_
            simp [ServerEvent.shutdownMode?, Ne.symm different]
          constructor
          case called =>
            intro other asked now
            by_cases same : other = thread
            · subst same
              rw [calledMode_called]
              simpa [Server.goto] using now
            · rw [others other same]
              exact ok.called other asked (by simpa [Server.goto, same] using now)
          case stored =>
            intro other now
            have different : other ≠ thread := by
              rintro rfl
              simp [Server.goto, CallerPc.stored] at now
            rw [others other different]
            exact ok.stored other (by simpa [Server.goto, different] using now)
          case requested =>
            intro other now
            have different : other ≠ thread := by
              rintro rfl
              simp [Server.goto] at now
            rw [others other different]
            exact ok.requested other (by simpa [Server.goto, different] using now)
      | start | wait | trySubmit =>
          exact ok.plain rfl rfl rfl (fun _ => rfl) (by simp) (by simp [CallerPc.stored]) (by simp)

omit [DecidableEq Thread] in
theorem ModesOk.initial [DecidableEq Thread] : ModesOk [] (Server.initial : Server Thread) :=
  ⟨nofun, nofun, nofun⟩

/-! The workers since then. -/

structure Quelled (since : List (ServerEntry Thread)) (server : Server Thread) : Prop where
  told : server.stopRequested = true ∧ server.shutdownMode = .force ∨ server.AllFinished
  queue : server.queue = [] ∨ server.Spent since server.queue.length

omit [DecidableEq Thread] in
/-- A step that is not a worker's leaves the workers of a nonempty queue where they are. -/
theorem Quelled.others (ok : Quelled since server)
    (told : next.stopRequested = true ∧ next.shutdownMode = .force ∨ next.AllFinished)
    (spawned : next.spawned = server.spawned) (queue : next.queue = server.queue)
    (loops : ∀ id, server.loops id ≠ .blocked → next.loops id = server.loops id)
    (still : ∀ id, cameRound id since = false → cameRound id (since ++ [entry]) = false) :
    Quelled (since ++ [entry]) next := by
  refine ⟨told, ?_⟩
  rw [queue]
  refine ok.queue.imp_right fun spent id bound => ?_
  rw [spawned] at bound
  rcases spent id bound with leaves | ⟨single, here, under⟩
  · rw [loops id (by rintro blocked; simp [blocked, LoopPc.leaving] at leaves)]
    exact .inl leaves
  · rw [loops id (by rw [here]; nofun)]
    exact .inr ⟨single, here, still id under⟩

omit [DecidableEq Thread] in
theorem Quelled.worker {answer : Bool} (ok : Quelled since server)
    (spawned : id < server.spawned) (moved : LoopMove config server id next events) :
    Quelled (since ++ [(.worker id answer, events)]) next := by
  have flags := ok.told.resolve_right fun finished => moved.present.2 (finished id spawned)
  have silent : ∀ other, events.any (ServerEvent.isSpawn other) = false := by
    intro other
    cases moved <;> rfl
  have still : ∀ other, other ≠ id → cameRound other since = false →
      cameRound other (since ++ [(.worker id answer, events)]) = false := by
    intro other different before
    exact cameRound_still before (by simp [isWorker, Ne.symm different]) (silent other)
  have leaves : ∀ pc : LoopPc Thread, pc.leaving = true →
      next.loops = Function.update server.loops id pc → next.spawned = server.spawned →
      next.queue = server.queue → next.queue = [] ∨
        next.Spent (since ++ [(.worker id answer, events)]) next.queue.length := by
    intro pc leaving loops same queue
    rw [queue]
    refine ok.queue.imp_right fun spent other bound => ?_
    rw [same] at bound
    rw [loops]
    by_cases here : other = id
    · subst here
      rw [Function.update_self]
      exact .inl leaving
    · rw [Function.update_of_ne here]
      exact (spent other bound).imp_right fun rest =>
        ⟨rest.1, rest.2.1, still other here rest.2.2⟩
  -- with events in the queue the worker is under way in its `tryPop` or at one of its two tests
  have empty : (server.loops id).leaving = false → server.loops id ≠ .tryPop →
      server.queue = [] := by
    intro stays notPop
    rcases ok.queue with empty | spent
    · exact empty
    · rcases spent id spawned with leaving | ⟨_, here, _⟩
      · simp [stays] at leaving
      · exact absurd here notPop
  cases moved with
  | @pops event queue here found =>
      refine ⟨.inl flags, .inl ?_⟩
      rcases ok.queue with empty | spent
      · simp [found] at empty
      · rcases spent id spawned with leaving | ⟨single, _⟩
        · simp [here, LoopPc.leaving] at leaving
        · have none : queue.length = 0 := by simpa [found] using single
          exact List.length_eq_zero_iff.mp none
  | popsNothing here none => exact ⟨.inl flags, .inl none⟩
  | seesStop here stop => exact ⟨.inl flags, leaves _ rfl rfl rfl rfl⟩
  | forced here mode => exact ⟨.inl flags, leaves _ rfl rfl rfl rfl⟩
  | seesNoStop here runs => exact absurd (runs.symm.trans flags.1) Bool.false_ne_true
  | notForced here mode => exact absurd flags.2 mode
  | locks here free =>
      refine ⟨.inl flags, .inl (empty ?_ ?_)⟩ <;> rcases here with here | here <;>
        simp [here, LoopPc.leaving]
  | _ here =>
      exact ⟨.inl flags, .inl (empty (by rw [here]; rfl) (by rw [here]; nofun))⟩

theorem Quelled.caller {wakes : Nat} (ok : Quelled since server)
    (overrules : server.callers thread = .storeMode .graceful → server.AllFinished)
    (launches : (server.callers thread).launching = false)
    (pushes : server.callers thread = .tryPush → server.Spent since (server.queue.length + 1))
    (moved : CallerMove config server thread next events) :
    Quelled (since ++ [(.caller thread wakes, events)]) next := by
  have unspawned : ∀ id, events.any (ServerEvent.isSpawn id) = false := by
    intro id
    cases moved with
    | spawns here more | spawnsLast here last =>
        rw [here] at launches
        cases launches
    | _ => rfl
  have still : ∀ id, cameRound id since = false →
      cameRound id (since ++ [(.caller thread wakes, events)]) = false :=
    fun id before => cameRound_still before rfl (unspawned id)
  cases moved with
  | clearsStop here | spawns here more | spawnsLast here last =>
      rw [here] at launches
      cases launches
  | @storesMode mode here =>
      refine ok.others ?_ rfl rfl (fun _ _ => rfl) still
      cases mode with
      | force => exact ok.told.imp_left fun flags => ⟨flags.1, rfl⟩
      | graceful => exact .inr (overrules here)
  | requestsStop here =>
      exact ok.others (ok.told.imp_left fun flags => ⟨rfl, flags.2⟩) rfl rfl (fun _ _ => rfl) still
  | pushes here room =>
      refine ⟨ok.told, .inr fun id bound => ?_⟩
      have spent := pushes here id bound
      simp only [Server.goto, List.length_append, List.length_singleton]
      exact spent.imp_right fun rest => ⟨rest.1, rest.2.1, still id rest.2.2⟩
  | notifiesAll here =>
      refine ok.others ?_ rfl rfl (fun id awake => if_neg awake) still
      exact ok.told.imp_right fun finished id bound => finished_wakeAll.mpr (finished id bound)
  | @notifiesOne wakes here picked =>
      refine ok.others ?_ rfl rfl (fun id awake => ?_) still
      · exact ok.told.imp_right fun finished id bound =>
          (finished_notified picked).mpr (finished id bound)
      · refine Function.update_of_ne ?_ _ _
        rintro rfl
        exact awake picked
  | _ => exact ok.others ok.told rfl rfl (fun _ _ => rfl) still

theorem Quelled.step {before : List (ServerEntry Thread)} (ok : Quelled since server)
    (eventsOk : EventsOk (eventsOf trace) server)
    (permitted : forceStands (before ++ entry :: since) server action)
    (forced : ForcedReturn before entry) (noStart : NoStart since)
    (moved : Move config server action next events) : Quelled (since ++ [(action, events)]) next := by
  cases moved with
  | worker moved => exact ok.worker (eventsOk.alive moved.present.1) moved
  | @caller thread wakes next events moved =>
      obtain ⟨⟨overrules, _, launches⟩, _, _, pushes⟩ := permitted
      refine ok.caller (fun here => (overrules here).2.since forced noStart) ?_
        (fun here => (pushes here).since forced noStart) moved
      by_contra launching
      exact (launches (by simpa using launching)).since forced noStart
  | @wake woken here =>
      refine ok.others ?_ rfl rfl (fun id awake => ?_) fun id before => cameRound_still before rfl rfl
      · exact ok.told.imp_right fun finished id bound =>
          (finished_notified here).mpr (finished id bound)
      · refine Function.update_of_ne ?_ _ _
        rintro rfl
        exact awake here
  | call here entry =>
      refine ok.others ok.told rfl rfl (fun _ _ => rfl) fun id before => ?_
      cases entry <;> exact cameRound_still before rfl rfl

/-- The return of a forced shutdown. -/
theorem ModesOk.returns (ok : ModesOk trace server) (permitted : forceStands trace server action)
    (moved : Move config server action next events) (forced : ForcedReturn trace (action, events)) :
    Quelled [] next := by
  obtain ⟨thread, returned, force⟩ := forced
  cases moved with
  | worker moved => cases moved <;> simp at returned
  | wake here => simp at returned
  | call here entry => cases entry <;> simp at returned
  | @caller other wakes next events moved =>
      obtain ⟨_, returns, early, _⟩ := permitted
      cases moved with
      | notifiesAll here =>
          obtain rfl : thread = other := by simpa using returned
          refine ⟨.inl ⟨ok.requested thread here force, ok.stored thread (by rw [here]; rfl) force⟩,
            (returns here force).imp_right fun spent id bound => ?_⟩
          have awake : server.loops id ≠ .blocked := by
            intro blocked
            rcases spent id bound with leaves | ⟨_, here, _⟩
            · simp [blocked, LoopPc.leaving] at leaves
            · simp [blocked] at here
          simp only [Server.goto, wakeAll, if_neg awake]
          exact spent id bound
      | alreadyStopped here was =>
          obtain rfl : thread = other := by simpa using returned
          have finished := early here was force
          exact ⟨.inr finished, .inr fun id bound => .inl (congrArg LoopPc.leaving (finished id bound))⟩
      | _ => simp at returned

structure ForceOk (trace : List (ServerEntry Thread)) (server : Server Thread) : Prop where
  events : EventsOk (eventsOf trace) server
  modes : ModesOk trace server
  quelled : ∀ before entry since, trace = before ++ entry :: since → ForcedReturn before entry →
    NoStart since → Quelled since server

theorem ForceOk.step (ok : ForceOk trace server) (permitted : forceStands trace server action)
    (moved : Move config server action next events) :
    ForceOk (trace ++ [(action, events)]) next where
  events := by
    rw [eventsOf_snoc]
    exact ok.events.step moved
  modes := ok.modes.step permitted moved
  quelled := by
    intro before entry since split forced noStart
    rcases List.eq_nil_or_concat' since with rfl | ⟨earlier, last, rfl⟩
    · obtain ⟨rfl, same⟩ := List.append_inj' split rfl
      obtain rfl := List.head_eq_of_cons_eq same
      exact ok.modes.returns permitted moved forced
    · rw [← List.cons_append, ← List.append_assoc] at split
      obtain ⟨rfl, same⟩ := List.append_inj' split rfl
      obtain rfl := List.head_eq_of_cons_eq same
      have quelled := ok.quelled before entry earlier rfl forced noStart.earlier
      exact quelled.step ok.events permitted forced noStart.earlier moved

theorem force_ok (reached : (serverMachine config Thread).recorded.Reaches forceStands trace server) :
    ForceOk trace server := by
  refine reached.invariant ForceOk ⟨.initial, .initial, by simp⟩ ?_
  intro trace server action next entries ok permitted stepped
  obtain ⟨events, inner, rfl⟩ := EventMachine.recorded_step stepped
  exact ok.step permitted (step_move inner).2

/-- While a forced shutdown that has returned stands, each worker begins at most one further
event, which it had popped or pops in the `tryPop` that was under way, and every other event
stays in the queue: as long as it holds any, each worker is at that `tryPop` or leaves. -/
theorem forced_shutdown_stops {before after : List (ServerEntry Thread)}
    {entry : ServerEntry Thread}
    (reached : (serverMachine config Thread).recorded.Reaches forceStands
      (before ++ entry :: after) server)
    (forced : ForcedReturn before entry) (noStart : NoStart after) :
    ∃ first, (serverMachine config Thread).recorded.Reaches forceStands (before ++ [entry]) first ∧
      (∀ id, (beganEvents (workerEvents id after)).length ≤ 1 ∧
        (poppedEvents (workerEvents id after)).length ≤ 1 ∧
        (poppedEvents (workerEvents id after) ≠ [] → first.loops id = .tryPop)) ∧
      first.queue ++ pushedEvents (eventsOf after) =
        poppedEvents (eventsOf after) ++ server.queue ∧
      (server.queue ≠ [] → ∀ id, id < server.spawned → (server.loops id).leaving = true ∨
        server.loops id = .tryPop ∧ cameRound id after = false) := by
  have quelled := (force_ok reached).quelled before entry after rfl forced noStart
  rw [show before ++ entry :: after = (before ++ [entry]) ++ after by simp] at reached
  obtain ⟨first, returned, path⟩ := reached.cut
  refine ⟨first, returned, fun id => ?_, ?_, fun left id bound => ?_⟩
  · have kept : ForceOk ((before ++ [entry]) ++ after) server ∧
        ∃ since, (before ++ [entry]) ++ after = (before ++ [entry]) ++ since ∧
          (NoStart since → ForcedOk first since server id) := by
      refine path.invariant (fun trace state => ForceOk trace state ∧
        ∃ since, trace = (before ++ [entry]) ++ since ∧
          (NoStart since → ForcedOk first since state id))
        ⟨force_ok returned, [], by simp, fun _ => .initial⟩ ?_
      rintro trace state action next entries ⟨forceOk, since, rfl, ok⟩ permitted stepped
      obtain ⟨events, inner, rfl⟩ := EventMachine.recorded_step stepped
      refine ⟨forceOk.step permitted (step_move inner).2, since ++ [(action, events)], by simp,
        fun noLater => (ok noLater.earlier).step inner ?_⟩
      rintro answer rfl here found
      have sofar := forceOk.quelled before entry since (by simp) forced noLater.earlier
      have alive : id < state.spawned := forceOk.events.alive (by rw [here]; nofun)
      rcases (sofar.queue.resolve_left found) id alive with leaves | ⟨_, _, under⟩
      · simp [here, LoopPc.leaving] at leaves
      · exact under
    obtain ⟨_, since, same, ok⟩ := kept
    obtain rfl := List.append_cancel_left same
    have facts := ok noStart
    exact ⟨facts.begins_once, facts.once, facts.underWay⟩
  · have early : pushedEvents (eventsOf (before ++ [entry])) =
        poppedEvents (eventsOf (before ++ [entry])) ++ first.queue :=
      (events_ok returned.unrecorded).events.order
    have late : pushedEvents (eventsOf ((before ++ [entry]) ++ after)) =
        poppedEvents (eventsOf ((before ++ [entry]) ++ after)) ++ server.queue :=
      (events_ok reached.unrecorded).events.order
    rw [eventsOf_append, pushedEvents_append, poppedEvents_append, early, List.append_assoc,
      List.append_assoc] at late
    exact List.append_cancel_left late
  · exact ((quelled.queue.resolve_left left) id bound).imp_right And.right

/-! Two runs. -/

instance [Fintype Thread] (before : List (ServerEntry Thread)) (entry : ServerEntry Thread) :
    Decidable (ForcedReturn before entry) :=
  inferInstanceAs (Decidable (∃ _, _ ∧ _))

instance (trace : List (ServerEntry Thread)) : Decidable (NoStart trace) :=
  inferInstanceAs (Decidable (∀ event ∈ eventsOf trace, event.isStartCalled = false))

instance [Fintype Thread] (trace : List (ServerEntry Thread))
    (holds : List (ServerEntry Thread) → Prop) [DecidablePred holds] :
    Decidable (SinceForced trace holds) :=
  inferInstanceAs (Decidable (∀ index, (below : index < trace.length) → _ → _ → _))

instance (server : Server Thread) : Decidable server.AllFinished :=
  inferInstanceAs (Decidable (∀ id, id < server.spawned → _))

instance (since : List (ServerEntry Thread)) (count : Nat) (server : Server Thread) :
    Decidable (server.Spent since count) :=
  inferInstanceAs (Decidable (∀ id, id < server.spawned → _))

instance [Fintype Thread] (server : Server Thread) (trace : List (ServerEntry Thread))
    (thread : Thread) : Decidable (server.NotOverruled trace thread) :=
  inferInstanceAs (Decidable (_ ∧ _ ∧ _))

instance [Fintype Thread] (server : Server Thread) (trace : List (ServerEntry Thread))
    (thread : Thread) : Decidable (server.NothingLeft trace thread) :=
  inferInstanceAs (Decidable (_ ∧ _ ∧ _))

instance [Fintype Thread] (trace : List (ServerEntry Thread)) (server : Server Thread)
    (action : ServerAction Thread) : Decidable (forceStands trace server action) :=
  match action with
  | .caller _ _ => inferInstanceAs (Decidable (_ ∧ _))
  | .start _ | .shutdown _ _ | .wait _ | .trySubmit _ | .worker _ _ | .wake _ => .isTrue trivial

def drainSchedule : List (ServerAction Bool) :=
  [ServerAction.start false] ++ List.replicate 4 (ServerAction.caller false 0) ++
    [ServerAction.trySubmit true] ++ List.replicate 6 (ServerAction.caller true 0) ++
    [ServerAction.trySubmit true] ++ List.replicate 6 (ServerAction.caller true 0) ++
    [ServerAction.trySubmit true] ++ List.replicate 6 (ServerAction.caller true 0) ++
    [ServerAction.shutdown false .force] ++ List.replicate 5 (ServerAction.caller false 0) ++
    List.replicate 27 (ServerAction.worker 0 true)

def stopSchedule : List (ServerAction Bool) :=
  [ServerAction.start false] ++ List.replicate 4 (ServerAction.caller false 0) ++
    [ServerAction.trySubmit true] ++ List.replicate 6 (ServerAction.caller true 0) ++
    [ServerAction.trySubmit true] ++ List.replicate 2 (ServerAction.caller true 0) ++
    [ServerAction.shutdown false .force] ++ List.replicate 5 (ServerAction.caller false 0) ++
    List.replicate 9 (ServerAction.worker 0 true) ++
    List.replicate 4 (ServerAction.caller true 0) ++ List.replicate 2 (ServerAction.worker 0 true)

theorem drainSchedule_runs :
    ((serverMachine sampleConfig Bool).recorded.exec EventMachine.anyAction []
      (serverMachine sampleConfig Bool).recorded.start drainSchedule).isSome = true := by
  decide +kernel

theorem stopSchedule_runs :
    ((serverMachine sampleConfig Bool).recorded.exec forceStands []
      (serverMachine sampleConfig Bool).recorded.start stopSchedule).isSome = true := by
  decide +kernel

/-- The event pushed late stays in the queue. -/
theorem forced_shutdown_stops_sample :
    let trace := (Option.get _ stopSchedule_runs).1
    beganEvents (workerEvents 0 (trace.drop 21)) = [⟨true, 0⟩] ∧
      (Option.get _ stopSchedule_runs).2.queue = [⟨true, 1⟩] ∧
      (Option.get _ stopSchedule_runs).2.loops 0 = .finished ∧
      ∀ id, (beganEvents (workerEvents id (trace.drop 21))).length ≤ 1 := by
  refine ⟨by decide +kernel, by decide +kernel, by decide +kernel, ?_⟩
  have reached := EventMachine.reaches_of_isSome stopSchedule_runs
  have split : (Option.get _ stopSchedule_runs).1 = (Option.get _ stopSchedule_runs).1.take 20 ++
      (.caller false 0, [.shutdownReturned false]) :: (Option.get _ stopSchedule_runs).1.drop 21 := by
    decide +kernel
  rw [split] at reached
  obtain ⟨first, _, workers, _⟩ := forced_shutdown_stops reached
    ⟨false, List.mem_singleton_self _, by decide +kernel⟩ (by decide +kernel)
  exact fun id => (workers id).1

/-- The worker goes on with all three events. -/
theorem forced_worker_drains :
    ∃ before entry after, ∃ server : Server Bool,
      (serverMachine sampleConfig Bool).recorded.Reaches EventMachine.anyAction
        (before ++ entry :: after) server ∧
      ForcedReturn before entry ∧ NoStart after ∧
      beganEvents (workerEvents 0 after) = [⟨true, 0⟩, ⟨true, 1⟩, ⟨true, 2⟩] ∧
      server.queue = [] := by
  have reached := EventMachine.reaches_of_isSome drainSchedule_runs
  have split : (Option.get _ drainSchedule_runs).1 = (Option.get _ drainSchedule_runs).1.take 31 ++
      (.caller false 0, [.shutdownReturned false]) ::
        (Option.get _ drainSchedule_runs).1.drop 32 := by
    decide +kernel
  rw [split] at reached
  exact ⟨_, _, _, _, reached, ⟨false, List.mem_singleton_self _, by decide +kernel⟩,
    by decide +kernel, by decide +kernel, by decide +kernel⟩

end Server

end MyServer
