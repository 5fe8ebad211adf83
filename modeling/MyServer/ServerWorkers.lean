import MyServer.ServerLifecycle
import MyServer.ThreadCount
import Mathlib.Order.Interval.Finset.Nat

/-!
How many workers are alive. While no `wait` overlaps a `start`, a start finds every earlier
worker finished, so there are never more of them than the configured number.
-/

namespace MyServer

variable {Thread : Type}

def CallerPc.progress : CallerPc → Option Nat
  | .clearStop | .clearQueued => some 0
  | .spawn i => some i
  | _ => none

def LoopPc.alive : LoopPc Thread → Bool
  | .absent | .finished => false
  | _ => true

theorem ServerConfig.workerTotal_pos (config : ServerConfig) : 0 < config.workerTotal := by
  unfold ServerConfig.workerTotal
  split
  · exact Nat.one_pos
  · rename_i some
    exact Nat.pos_of_ne_zero fun zero => some (UInt32.toNat_inj.mp zero)

theorem ServerConfig.workerTotal_lt (config : ServerConfig) : config.workerTotal < 2 ^ 32 := by
  unfold ServerConfig.workerTotal
  split
  · decide
  · exact config.workerCount.toNat_lt

namespace Server

def waitsApart (_ : List (ServerEvent Thread)) (server : Server Thread) :
    ServerAction Thread → Prop
  | .start _ => ∀ thread, (server.callers thread).task ≠ .wait
  | .wait _ => ∀ thread, (server.callers thread).task ≠ .start
  | _ => True

structure WorkersOk (config : ServerConfig) (server : Server Thread) : Prop where
  apart : ∀ left right, (server.callers left).task = .wait →
    (server.callers right).task ≠ .start
  joinable : ∀ id, id < server.spawned → server.loops id ≠ .finished → ⟨id, true⟩ ∈ server.workers
  joined : ∀ thread, (server.callers thread).joined = true →
    ∀ id, id < server.spawned → server.loops id = .finished
  down : server.Down → (∀ id, id < server.spawned → server.loops id = .finished) ∧
    ∀ thread, (server.callers thread).progress = none
  alone : ∀ left right, (server.callers left).progress ≠ none →
    (server.callers right).progress ≠ none → left = right
  recent : ∃ base, (∀ id, id < base → server.loops id = .finished) ∧
    server.spawned ≤ base + config.workerTotal ∧
    ∀ thread i, (server.callers thread).progress = some i →
      server.spawned = base + i ∧ i < config.workerTotal

variable {trace events : List (ServerEvent Thread)} {server next : Server Thread}
variable {config : ServerConfig} {thread : Thread} {id : Nat}

theorem WorkersOk.loop (ok : WorkersOk config server) {pc : LoopPc Thread}
    (spawned : id < server.spawned) (unfinished : server.loops id ≠ .finished)
    (loops : next.loops = Function.update server.loops id pc)
    (callers : next.callers = server.callers) (state : next.state = server.state)
    (same : next.spawned = server.spawned) (workers : next.workers = server.workers) :
    WorkersOk config next where
  apart := by rw [callers]; exact ok.apart
  joinable := HandlesKept.loop ok.joinable unfinished loops same workers
  joined := by
    intro thread joined
    rw [callers] at joined
    exact absurd (ok.joined thread joined id spawned) unfinished
  down := by
    rw [Down, state]
    exact fun down => absurd ((ok.down down).1 id spawned) unfinished
  alone := by rw [callers]; exact ok.alone
  recent := by
    obtain ⟨base, done, total, progress⟩ := ok.recent
    refine ⟨base, fun other bound => ?_, by rwa [same], by rw [same, callers]; exact progress⟩
    have different : other ≠ id := by
      rintro rfl
      exact unfinished (done other bound)
    rw [loops, Function.update_of_ne different]
    exact done other bound

theorem WorkersOk.worker (ok : WorkersOk config server) (eventsOk : EventsOk trace server)
    (moved : LoopMove config server id next events) : WorkersOk config next := by
  have present := moved.present
  cases moved with
  | _ => exact ok.loop (eventsOk.alive present.1) present.2 rfl rfl rfl rfl rfl

section Callers

variable [DecidableEq Thread]

theorem WorkersOk.goto (ok : WorkersOk config server) {pc : CallerPc}
    (callers : next.callers = Function.update server.callers thread pc)
    (apart : (pc.task = .wait → ∀ other, (server.callers other).task ≠ .start) ∧
      (pc.task = .start → ∀ other, (server.callers other).task ≠ .wait))
    (spawned : next.spawned = server.spawned)
    (finished : ∀ id, next.loops id = .finished ↔ server.loops id = .finished)
    (handles : next.HandlesKept)
    (joined : pc.joined = true → ∀ id, id < server.spawned → server.loops id = .finished)
    (down : next.Down → (∀ id, id < server.spawned → server.loops id = .finished) ∧
      ∀ other, (server.callers other).progress = none)
    (progress : pc.progress = (server.callers thread).progress) : WorkersOk config next := by
  have same : ∀ other, (next.callers other).progress = (server.callers other).progress := by
    intro other
    rw [callers]
    exact reads_same CallerPc.progress progress other
  constructor
  case apart =>
    intro left right waits starts
    rw [callers] at waits starts
    rcases of_update (CallerPc.task · = .wait) waits with ⟨-, waitsNow⟩ | waited
    · rcases of_update (CallerPc.task · = .start) starts with ⟨-, startsNow⟩ | started
      · exact Task.noConfusion (waitsNow.symm.trans startsNow)
      · exact apart.1 waitsNow right started
    · rcases of_update (CallerPc.task · = .start) starts with ⟨-, startsNow⟩ | started
      · exact apart.2 startsNow left waited
      · exact ok.apart left right waited started
  case joinable => exact handles
  case joined =>
    intro other past id bound
    rw [spawned] at bound
    rw [finished]
    rw [callers] at past
    rcases of_update (CallerPc.joined · = true) past with ⟨-, now⟩ | before
    · exact joined now id bound
    · exact ok.joined other before id bound
  case down =>
    intro now
    obtain ⟨dead, none⟩ := down now
    rw [spawned]
    exact ⟨fun id bound => (finished id).mpr (dead id bound), fun other => by rw [same, none]⟩
  case alone =>
    intro left right leftStarts rightStarts
    rw [same] at leftStarts rightStarts
    exact ok.alone left right leftStarts rightStarts
  case recent =>
    obtain ⟨base, done, total, progress⟩ := ok.recent
    refine ⟨base, fun id bound => (finished id).mpr (done id bound), by rwa [spawned], ?_⟩
    intro other i starts
    rw [same] at starts
    rw [spawned]
    exact progress other i starts

theorem WorkersOk.plain (ok : WorkersOk config server) {pc : CallerPc}
    (callers : next.callers = Function.update server.callers thread pc)
    (task : pc.task = (server.callers thread).task ∨ pc.task = .none)
    (state : next.Down → server.Down) (spawned : next.spawned = server.spawned)
    (loops : next.loops = server.loops) (workers : next.workers = server.workers)
    (joined : pc.joined = false ∨ (server.callers thread).joined = true)
    (progress : pc.progress = (server.callers thread).progress) : WorkersOk config next := by
  have finished : ∀ id, next.loops id = .finished ↔ server.loops id = .finished := by
    intro id
    rw [loops]
  have handles : next.HandlesKept :=
    HandlesKept.frame ok.joinable spawned workers fun id => (finished id).mpr
  have waits : pc.task = .wait → ∀ other, (server.callers other).task ≠ .start := by
    intro waits other
    rcases task with same | none
    · exact ok.apart thread other (same.symm.trans waits)
    · simp [none] at waits
  have starts : pc.task = .start → ∀ other, (server.callers other).task ≠ .wait := by
    intro starts other waits
    rcases task with same | none
    · exact ok.apart other thread waits (same.symm.trans starts)
    · simp [none] at starts
  refine ok.goto callers ⟨waits, starts⟩ spawned finished handles ?_ ?_ progress
  · intro past
    rcases joined with notPast | before
    · simp [notPast] at past
    · exact ok.joined thread before
  · exact fun now => ok.down (state now)

/-- `start` wins its compare-exchange when every earlier worker has finished. -/
theorem WorkersOk.starts (ok : WorkersOk config server)
    (starts : (server.callers thread).task = .start) (down : server.Down) :
    WorkersOk config ({ server with state := .running }.goto thread .clearStop) := by
  obtain ⟨dead, none⟩ := ok.down down
  have mine : ∀ other, (Function.update server.callers thread .clearStop other).progress ≠
      Option.none → other = thread := by
    intro other starting
    by_contra different
    rw [Function.update_of_ne different, none] at starting
    exact starting rfl
  constructor
  case apart =>
    intro left right waits _
    have different : left ≠ thread := by
      rintro rfl
      simp [Server.goto, CallerPc.task] at waits
    have waits : (Function.update server.callers thread .clearStop left).task = .wait := waits
    rw [Function.update_of_ne different] at waits
    exact ok.apart left thread waits starts
  case joinable => exact ok.joinable
  case joined => exact fun _ _ => dead
  case down => exact fun up => by rcases up with up | up <;> cases up
  case alone =>
    intro left right leftStarts rightStarts
    rw [mine left leftStarts, mine right rightStarts]
  case recent =>
    refine ⟨server.spawned, dead, Nat.le_add_right _ _, fun other i now => ?_⟩
    have now : (Function.update server.callers thread .clearStop other).progress = some i := now
    obtain rfl := mine other (by simp [now])
    rw [Function.update_self] at now
    cases now
    exact ⟨rfl, config.workerTotal_pos⟩

theorem WorkersOk.spawns (ok : WorkersOk config server) {i : Nat} {pc : CallerPc}
    (here : server.callers thread = .spawn i)
    (goes : pc.task = .start ∨ pc.task = .none)
    (progress : pc.progress = none ∨ pc.progress = some (i + 1) ∧ i + 1 < config.workerTotal) :
    WorkersOk config ({ server with
      workers := server.workers ++ [WorkerHandle.mk server.spawned true]
      loops := Function.update server.loops server.spawned .tryPop
      spawned := server.spawned + 1 }.goto thread pc) := by
  have starts : (server.callers thread).task = .start := by rw [here]; rfl
  have mine : (server.callers thread).progress = some i := by rw [here]; rfl
  have others : ∀ other, (Function.update server.callers thread pc other).progress ≠ none →
      other = thread := by
    intro other starting
    by_contra different
    rw [Function.update_of_ne different] at starting
    exact different (ok.alone other thread starting (by simp [mine]))
  constructor
  case apart =>
    intro left right waits _
    have different : left ≠ thread := by
      rintro rfl
      rcases goes with task | task <;> simp [Server.goto, task] at waits
    have waits : (Function.update server.callers thread pc left).task = .wait := waits
    rw [Function.update_of_ne different] at waits
    exact ok.apart left thread waits starts
  case joinable => exact HandlesKept.spawns ok.joinable
  case joined =>
    intro other past
    have waiting : (server.callers other).task = .wait := by
      rcases of_update (CallerPc.joined · = true) past with ⟨-, now⟩ | before
      · have waits := CallerPc.task_of_joined now
        rcases goes with task | task <;> simp [task] at waits
      · exact CallerPc.task_of_joined before
    exact absurd starts (ok.apart other thread waiting)
  case down =>
    intro down
    have none := (ok.down down).2 thread
    simp [mine] at none
  case alone =>
    intro left right leftStarts rightStarts
    rw [others left leftStarts, others right rightStarts]
  case recent =>
    obtain ⟨base, done, total, counts⟩ := ok.recent
    obtain ⟨reached, below⟩ := counts thread i mine
    refine ⟨base, fun id bound => ?_, ?_, fun other j now => ?_⟩
    · have different : id ≠ server.spawned := by omega
      simpa [Server.goto, different] using done id bound
    · show server.spawned + 1 ≤ base + config.workerTotal
      omega
    · have now : (Function.update server.callers thread pc other).progress = some j := now
      obtain rfl := others other (by simp [now])
      rw [Function.update_self] at now
      rcases progress with none | ⟨more, bound⟩
      · simp [none] at now
      · rw [more] at now
        cases now
        show server.spawned + 1 = base + (i + 1) ∧ i + 1 < config.workerTotal
        omega

omit [DecidableEq Thread] in
theorem progress_none {pc : CallerPc} (outside : pc.task ≠ .start) : pc.progress = none := by
  cases pc with
  | clearStop | clearQueued | spawn => exact absurd rfl outside
  | _ => rfl

theorem WorkersOk.stops (ok : WorkersOk config server)
    (here : server.callers thread = .storeStopped) :
    WorkersOk config ({ server with state := .stopped }.goto thread .idle) := by
  have waits : (server.callers thread).task = .wait := by rw [here]; rfl
  have handles : HandlesKept ({ server with state := .stopped }.goto thread .idle) :=
    HandlesKept.frame ok.joinable rfl rfl fun _ => id
  refine ok.goto rfl ⟨nofun, nofun⟩ rfl (fun _ => .rfl) handles nofun (fun _ => ?_)
    (by rw [here]; rfl)
  exact ⟨ok.joined thread (by rw [here]; rfl),
    fun other => progress_none (ok.apart thread other waits)⟩

theorem WorkersOk.clears (ok : WorkersOk config server)
    (here : server.callers thread = .clearWorkers)
    (joined : server.workers.any WorkerHandle.joinable = false)
    (handles : HandlesKept ({ server with workers := [] }.goto thread .readState)) :
    WorkersOk config ({ server with workers := [] }.goto thread .readState) := by
  have waits : (server.callers thread).task = .wait := by rw [here]; rfl
  refine ok.goto rfl ⟨fun _ other => ok.apart thread other waits, nofun⟩ rfl (fun _ => .rfl)
    handles ?_ ok.down (by rw [here]; rfl)
  exact fun _ => HandlesKept.all_finished ok.joinable joined

theorem WorkersOk.caller (ok : WorkersOk config server)
    (moved : CallerMove config server thread next events) : WorkersOk config next := by
  have handles : next.HandlesKept := HandlesKept.caller ok.joinable moved
  cases moved with
  | created here fresh => exact ok.starts (by rw [here]; rfl) (.inl fresh)
  | restarted here was => exact ok.starts (by rw [here]; rfl) (.inr was)
  | spawns here more => exact ok.spawns here (.inl rfl) (.inr ⟨rfl, more⟩)
  | spawnsLast here last => exact ok.spawns here (.inr rfl) (.inl rfl)
  | storesStopped here => exact ok.stops here
  | clearsWorkers here joined => exact ok.clears here joined handles
  | storesStopping here =>
      exact ok.plain rfl (.inl (by rw [here]; rfl)) (by simp [Down, Server.goto]) rfl rfl rfl
        (.inl rfl) (by rw [here]; rfl)
  | joins here found done =>
      have waits : (server.callers thread).task = .wait := by rw [here]; rfl
      exact ok.goto rfl ⟨fun _ other => ok.apart thread other waits, by rintro ⟨⟩⟩ rfl
        (fun _ => .rfl) handles (by simp [CallerPc.joined]) ok.down (by rw [here]; rfl)
  | notifiesAll here =>
      exact ok.goto rfl ⟨by rintro ⟨⟩, by rintro ⟨⟩⟩ rfl (fun _ => finished_wakeAll) handles
        (by simp [CallerPc.joined]) ok.down (by rw [here]; rfl)
  | @notifiesOne wakes here picked =>
      exact ok.goto rfl ⟨by rintro ⟨⟩, by rintro ⟨⟩⟩ rfl (fun id => finished_notified picked) handles
        (by simp [CallerPc.joined]) ok.down (by rw [here]; rfl)
  | terminates here unjoined =>
      exact { ok with joined := ok.joined, down := ok.down, recent := ok.recent }
  | checksState here =>
      obtain ⟨task, notJoined, _⟩ := afterState_task server config (server.submission thread)
      exact ok.plain rfl (.inl (by rw [task, here]; rfl)) id rfl rfl rfl (.inl notJoined)
        (by rw [progress_none (by simp [task]), here]; rfl)
  | readsState here was | readsFailed here was =>
      exact ok.plain rfl (by rw [here]; first | exact .inl rfl | exact .inr rfl) id rfl rfl rfl
        (.inr (by rw [here]; rfl)) (by rw [here]; rfl)
  | notCreated here other | startRefused here other | clearsStop here | clearsQueued here
  | storesMode here | alreadyStopped here was | notStopped here was | requestsStop here
  | joinedAll here past | joinedBefore here found | seesFull here | seesRoom here | pushes here
  | pushFails here | counts here | accepts here | notifiesNobody here | rejects here =>
      exact ok.plain rfl (by rw [here]; first | exact .inl rfl | exact .inr rfl) id rfl rfl rfl
        (.inl rfl) (by rw [here]; rfl)

theorem WorkersOk.step (ok : WorkersOk config server) (eventsOk : EventsOk trace server)
    {action : ServerAction Thread} (permitted : waitsApart trace server action)
    (moved : Move config server action next events) : WorkersOk config next := by
  have handles : next.HandlesKept := HandlesKept.step ok.joinable moved
  cases moved with
  | call here entry =>
      cases entry with
      | start =>
          exact ok.goto rfl ⟨by rintro ⟨⟩, fun _ => permitted⟩ rfl (fun _ => .rfl)
            handles (by simp [CallerPc.joined]) ok.down (by rw [here]; rfl)
      | wait =>
          exact ok.goto rfl ⟨fun _ => permitted, by rintro ⟨⟩⟩ rfl (fun _ => .rfl)
            handles (by simp [CallerPc.joined]) ok.down (by rw [here]; rfl)
      | shutdown | trySubmit =>
          exact ok.goto rfl ⟨by rintro ⟨⟩, by rintro ⟨⟩⟩ rfl (fun _ => .rfl) handles
            (by simp [CallerPc.joined]) ok.down (by rw [here]; rfl)
  | caller moved => exact ok.caller moved
  | worker moved => exact ok.worker eventsOk moved
  | @wake id here =>
      have present : server.loops id ≠ .absent ∧ server.loops id ≠ .finished := by simp [here]
      exact ok.loop (eventsOk.alive present.1) present.2 rfl rfl rfl rfl rfl

omit [DecidableEq Thread] in
theorem WorkersOk.initial : WorkersOk config (Server.initial : Server Thread) := by
  constructor
  case apart => exact fun _ _ => nofun
  case joinable => exact fun _ bound => absurd bound (Nat.not_lt_zero _)
  case joined => nofun
  case down => exact fun _ => ⟨fun _ bound => absurd bound (Nat.not_lt_zero _), fun _ => rfl⟩
  case alone => exact fun _ _ starts => absurd rfl starts
  case recent =>
    exact ⟨0, fun _ bound => absurd bound (Nat.not_lt_zero _), Nat.zero_le _, fun _ _ => nofun⟩

omit [DecidableEq Thread] in
/-- No more workers are alive than the configuration says. -/
theorem WorkersOk.alive_le (ok : WorkersOk config server) :
    countIn (Finset.range server.spawned) LoopPc.alive server.loops ≤ config.workerTotal := by
  obtain ⟨base, done, total, _⟩ := ok.recent
  have inside : (Finset.range server.spawned).filter (fun id => (server.loops id).alive = true) ⊆
      Finset.Ico base server.spawned := by
    intro id member
    obtain ⟨bound, alive⟩ := Finset.mem_filter.mp member
    refine Finset.mem_Ico.mpr ⟨?_, Finset.mem_range.mp bound⟩
    by_contra earlier
    rw [done id (by omega)] at alive
    cases alive
  have bound := Finset.card_le_card inside
  rw [Nat.card_Ico] at bound
  unfold countIn
  omega

end Callers

end Server

end MyServer
