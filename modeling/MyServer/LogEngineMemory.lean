import MyServer.LogEngineSteps
import MyServer.MpscQueue

/-!
Where the records of the pool are. With an atomic free list every record of the pool is in
exactly one place, and the queue's dummy is a record the worker still holds. This needs
that the engine is started once and that no push overlaps the worker's `reset`.
-/

namespace MyServer

variable {Thread : Type}

inductive StartPc
  | allocate
  | fill (index : Nat) (node : LogRecord)
  | spawn

abbrev AtomicEngine (Thread : Type) := LogEngine (atomicFreeList LogRecord) Thread

abbrev AtomicClient := ClientPc (atomicFreeList LogRecord)

abbrev AtomicWorker := WorkerPc (atomicFreeList LogRecord)

def PushPc.held : PushPc LogRecord → Option LogRecord
  | .clearNext record | .exchangeTail record => some record
  | .linkPrev _ _ => none

namespace ClientPc

def held : AtomicClient → Option LogRecord
  | .construct record => some record
  | .push pc => pc.held
  | _ => none

def pusher : AtomicClient → Option (PushPc LogRecord)
  | .push pc => some pc
  | _ => none

def start : AtomicClient → Option StartPc
  | .allocatePool => some .allocate
  | .fillPool index node => some (.fill index node)
  | .startWorker => some .spawn
  | _ => none

end ClientPc

def dummyOf : Option LogRecord → MpscNode LogRecord
  | some record => .record record
  | none => .stub

namespace WorkerPc

def current : AtomicWorker → Option LogRecord
  | .recycle _ record _ _ | .submit _ record | .destroy _ record
  | .countWritten _ record => some record
  | _ => none

def recycling : AtomicWorker → Option LogRecord
  | .loadRun pending | .checkEmpty pending _ | .pop _ pending _ | .reset pending _ => pending
  | .recycle _ _ old _ | .recycleLast old _ => some old
  | _ => none

def pushing : AtomicWorker → Option LogRecord
  | .recycle _ _ _ node | .recycleLast _ node => some node
  | _ => none

def dummy : AtomicWorker → MpscNode LogRecord
  | .loadRun pending | .checkEmpty pending _ | .pop _ pending _ | .reset pending .clearStub
  | .reset pending .setHead => dummyOf pending
  | .recycle _ record _ _ | .submit _ record | .destroy _ record
  | .countWritten _ record => .record record
  | _ => .stub

def consumer : AtomicWorker → ConsumerPc LogRecord
  | .checkEmpty _ pc => .empty pc
  | .pop _ _ pc => .pop pc
  | .reset _ pc => .reset pc
  | _ => .idle

theorem dummy_held {worker : AtomicWorker} {record : LogRecord}
    (same : worker.dummy = .record record) :
    worker.current = some record ∨ worker.recycling = some record := by
  cases worker with
  | loadRun pending | checkEmpty pending pc | pop drain pending pc =>
      cases pending <;> simp_all [dummy, recycling, dummyOf]
  | recycle | submit | destroy | countWritten => simp_all [dummy, current]
  | reset pending pc => cases pc <;> cases pending <;> simp_all [dummy, recycling, dummyOf]
  | absent | recycleLast | finished => simp [dummy] at same

end WorkerPc

/-! What a trace says about the queue's records. -/

def EngineEvent.queuedRecord? : EngineEvent Thread → Option LogRecord
  | .queued _ record => some record
  | _ => none

def EngineEvent.taken? : EngineEvent Thread → Option LogRecord
  | .taken record => some record
  | _ => none

def queuedRecords (trace : List (EngineEvent Thread)) : List LogRecord :=
  trace.filterMap EngineEvent.queuedRecord?

def takenRecords (trace : List (EngineEvent Thread)) : List LogRecord :=
  trace.filterMap EngineEvent.taken?

def waitingRecords (trace : List (EngineEvent Thread)) : List LogRecord :=
  (queuedRecords trace).drop (takenRecords trace).length

structure MemoryView (Thread : Type) where
  generation : Nat
  spawned : Nat
  freelist : List LogRecord
  queue : MpscQueue LogRecord
  pending : List LogRecord
  held : Thread → Option LogRecord
  pusher : Thread → Option (PushPc LogRecord)
  start : Thread → Option StartPc
  workers : Nat → AtomicWorker

def LogEngine.view (state : AtomicEngine Thread) (pending : List LogRecord) :
    MemoryView Thread where
  generation := state.generation
  spawned := state.spawned
  freelist := state.freelist
  queue := state.queue
  pending := pending
  held := fun thread => (state.clients thread).held
  pusher := fun thread => (state.clients thread).pusher
  start := fun thread => (state.clients thread).start
  workers := state.workers

inductive Place (Thread : Type)
  | unfilled
  | free
  | client (thread : Thread)
  | queued
  | current
  | recycling
  deriving DecidableEq

namespace MemoryView

def InPool (view : MemoryView Thread) (poolSize : Nat) (record : LogRecord) : Prop :=
  0 < view.generation ∧ record.generation = view.generation ∧ record.index < poolSize

def Unfilled (view : MemoryView Thread) (poolSize : Nat) (record : LogRecord) : Prop :=
  ∃ thread index node, view.start thread = some (.fill index node) ∧
    view.InPool poolSize record ∧ index ≤ record.index

def queueWorld (view : MemoryView Thread) : QueueWorld Thread LogRecord where
  queue := view.queue
  producers := view.pusher
  consumer := (view.workers 0).consumer

structure StartedOnce (poolSize : Nat) (view : MemoryView Thread) : Prop where
  generations : view.generation ≤ 1
  oneStarter : ∀ left right, view.start left ≠ none → view.start right ≠ none → left = right
  starterFirst : ∀ thread, view.start thread ≠ none → view.spawned = 0
  allocating : ∀ thread, view.start thread = some .allocate → view.generation = 0
  allocated : ∀ thread, view.start thread ≠ none → view.start thread ≠ some .allocate →
    view.generation = 1
  spawnedLast : 0 < view.spawned → view.generation = 1
  spawnedOnce : view.spawned ≤ 1
  absent : ∀ id, view.spawned ≤ id → view.workers id = .absent
  fillNode : ∀ thread index node, view.start thread = some (.fill index node) →
    node = ⟨view.generation, index⟩ ∧ index < poolSize

def At (view : MemoryView Thread) (poolSize : Nat) : Place Thread → LogRecord → Prop
  | .unfilled, record => view.Unfilled poolSize record
  | .free, record => record ∈ view.freelist
  | .client thread, record => view.held thread = some record
  | .queued, record => record ∈ view.pending
  | .current, record => (view.workers 0).current = some record
  | .recycling, record => (view.workers 0).recycling = some record

structure Placed (poolSize : Nat) (view : MemoryView Thread)
    (place : LogRecord → Option (Place Thread)) : Prop where
  pool : ∀ record, (place record).isSome = true ↔ view.InPool poolSize record
  located : ∀ here record, view.At poolSize here record ↔ place record = some here
  freeNodup : view.freelist.Nodup

structure Queued (view : MemoryView Thread) : Prop where
  phase : view.queueWorld.Phase view.pending
  dummy : view.queue.head = (view.workers 0).dummy
  pushes : ∀ thread pc, view.pusher thread = some pc → view.held thread = pc.held
  recycles : ∀ record, (view.workers 0).pushing = some record →
    (view.workers 0).recycling = some record

structure Ok (poolSize : Nat) (view : MemoryView Thread)
    (place : LogRecord → Option (Place Thread)) : Prop where
  started : view.StartedOnce poolSize
  placed : view.Placed poolSize place
  queue : view.Queued

variable {view : MemoryView Thread} {poolSize : Nat}
variable {place : LogRecord → Option (Place Thread)}

theorem Placed.unique (placed : view.Placed poolSize place) (here there : Place Thread)
    {record : LogRecord} (first : view.At poolSize here record)
    (second : view.At poolSize there record) : here = there := by
  rw [placed.located] at first second
  exact Option.some.inj (first.symm.trans second)

theorem Placed.move (placed : view.Placed poolSize place)
    {after : MemoryView Thread} {record : LogRecord} (source target : Place Thread)
    (was : view.At poolSize source record)
    (different : source ≠ target)
    (pool : ∀ r, after.InPool poolSize r ↔ view.InPool poolSize r)
    (freeNodup : after.freelist.Nodup)
    (leaves : ∀ r, after.At poolSize source r ↔ view.At poolSize source r ∧ r ≠ record)
    (arrives : ∀ r, after.At poolSize target r ↔ view.At poolSize target r ∨ r = record)
    (others : ∀ here r, here ≠ source → here ≠ target →
      (after.At poolSize here r ↔ view.At poolSize here r)) :
    after.Placed poolSize (Function.update place record (some target)) := by
  have before := (placed.located source record).mp was
  constructor
  case pool =>
    intro r
    rw [pool, ← placed.pool]
    by_cases same : r = record <;> simp [same, before]
  case located =>
    intro here r
    by_cases atSource : here = source
    · subst atSource
      rw [leaves, placed.located]
      by_cases same : r = record <;> simp [same, different.symm]
    · by_cases atTarget : here = target
      · subst atTarget
        rw [arrives, placed.located]
        by_cases same : r = record <;> simp [same]
      · rw [others here r atSource atTarget, placed.located]
        by_cases same : r = record
        · simp [same, before, Ne.symm atSource, Ne.symm atTarget]
        · simp [same]
  case freeNodup => exact freeNodup

theorem Placed.none_before (placed : view.Placed poolSize place) (fresh : view.generation = 0)
    (record : LogRecord) : place record = none := by
  rw [← Option.not_isSome_iff_eq_none, placed.pool]
  exact fun inPool => by simp [InPool, fresh] at inPool

/-! The thread that starts the engine. -/

/-- With one thread that may be starting the engine, only its own state matters. -/
theorem StartedOnce.of_alone {thread : Thread}
    (alone : ∀ other, other ≠ thread → view.start other = none)
    (generations : view.generation ≤ 1)
    (first : view.start thread ≠ none → view.spawned = 0)
    (allocating : view.start thread = some .allocate → view.generation = 0)
    (allocated : view.start thread ≠ none → view.start thread ≠ some .allocate →
      view.generation = 1)
    (spawnedLast : 0 < view.spawned → view.generation = 1)
    (spawnedOnce : view.spawned ≤ 1)
    (absent : ∀ id, view.spawned ≤ id → view.workers id = .absent)
    (fillNode : ∀ index node, view.start thread = some (.fill index node) →
      node = ⟨view.generation, index⟩ ∧ index < poolSize) : view.StartedOnce poolSize := by
  have isThread : ∀ other, view.start other ≠ none → other = thread := by
    intro other starting
    by_contra different
    exact starting (alone other different)
  constructor
  case generations => exact generations
  case oneStarter =>
    intro left right leftStarts rightStarts
    rw [isThread left leftStarts, isThread right rightStarts]
  case starterFirst =>
    intro other starting
    obtain rfl := isThread other starting
    exact first starting
  case allocating =>
    intro other now
    rw [isThread other (by simp [now])] at now
    exact allocating now
  case allocated =>
    intro other starting later
    obtain rfl := isThread other starting
    exact allocated starting later
  case spawnedLast => exact spawnedLast
  case spawnedOnce => exact spawnedOnce
  case absent => exact absent
  case fillNode =>
    intro other index node filling
    rw [isThread other (by simp [filling])] at filling
    exact fillNode index node filling

theorem StartedOnce.others (started : view.StartedOnce poolSize) {thread : Thread}
    (starting : view.start thread ≠ none) (other : Thread) (different : other ≠ thread) :
    view.start other = none := by
  by_contra alsoStarting
  exact different (started.oneStarter other thread alsoStarting starting)

def startFrom (generation poolSize index : Nat) : StartPc :=
  if index < poolSize then .fill index ⟨generation, index⟩ else .spawn

theorem unfilled_of_alone {thread : Thread}
    (alone : ∀ other, other ≠ thread → view.start other = none) (record : LogRecord) :
    view.Unfilled poolSize record ↔ ∃ index node, view.start thread = some (.fill index node) ∧
      view.InPool poolSize record ∧ index ≤ record.index := by
  constructor
  · rintro ⟨other, index, node, filling, inPool, above⟩
    by_cases same : other = thread
    · subst same
      exact ⟨index, node, filling, inPool, above⟩
    · simp [alone other same] at filling
  · rintro ⟨index, node, filling, inPool, above⟩
    exact ⟨thread, index, node, filling, inPool, above⟩

section Start

variable [DecidableEq Thread] {thread : Thread}

theorem Ok.starts (ok : view.Ok poolSize place) (fresh : view.generation = 0)
    (none : ∀ other, view.start other ≠ some .allocate) :
    Ok poolSize { view with start := Function.update view.start thread (some .allocate) }
      place := by
  have noStarter : ∀ other, view.start other = Option.none := by
    intro other
    by_contra starting
    have allocated := ok.started.allocated other starting (none other)
    omega
  have notSpawned : view.spawned = 0 := by
    by_contra spawned
    have last := ok.started.spawnedLast (by omega)
    omega
  have alone : ∀ other, other ≠ thread →
      Function.update view.start thread (some .allocate) other = Option.none := by
    intro other different
    simp [different, noStarter]
  refine ⟨StartedOnce.of_alone alone ?_ ?_ ?_ ?_ ?_ ?_ ?_ ?_, { ok.placed with located := ?_ },
    { ok.queue with }⟩
  · exact ok.started.generations
  · exact fun _ => notSpawned
  · exact fun _ => fresh
  · simp
  · exact ok.started.spawnedLast
  · exact ok.started.spawnedOnce
  · exact ok.started.absent
  · simp
  · intro here record
    rw [← ok.placed.located]
    cases here with
    | unfilled => simp [At, Unfilled, InPool, fresh]
    | free | client | queued | current | recycling => rfl

theorem Ok.allocates (ok : view.Ok poolSize place)
    (here : view.start thread = some .allocate) :
    ∃ after, Ok poolSize
      { view with
        generation := view.generation + 1
        start := Function.update view.start thread
          (some (startFrom (view.generation + 1) poolSize 0)) } after := by
  have fresh := ok.started.allocating thread here
  have starting : view.start thread ≠ none := by simp [here]
  have notSpawned := ok.started.starterFirst thread starting
  have alone : ∀ other, other ≠ thread → Function.update view.start thread
      (some (startFrom (view.generation + 1) poolSize 0)) other = none := by
    intro other different
    simpa [different] using ok.started.others starting other different
  let inPool : LogRecord → Prop := fun record =>
    record.generation = view.generation + 1 ∧ record.index < poolSize
  classical
  let after : LogRecord → Option (Place Thread) := fun record =>
    if inPool record then some .unfilled else none
  have empty : ∀ record other, other ≠ Place.unfilled → (after record = some other ↔
      place record = some other) := by
    intro record other different
    rw [ok.placed.none_before fresh record]
    by_cases inside : inPool record <;> simp [after, inside, different.symm]
  refine ⟨after, StartedOnce.of_alone alone ?_ ?_ ?_ ?_ ?_ ?_ ?_ ?_, ?_, { ok.queue with }⟩
  · simp [fresh]
  · exact fun _ => notSpawned
  · simp [startFrom]
    split <;> simp
  · simp [fresh]
  · simp [fresh]
  · exact ok.started.spawnedOnce
  · exact ok.started.absent
  · intro index node
    simp only [Function.update_self, startFrom]
    split
    · rintro filling
      cases filling
      exact ⟨rfl, by assumption⟩
    · simp
  · constructor
    case pool =>
      intro record
      by_cases inside : inPool record
      · simp [after, inside, InPool, inside.1, inside.2]
      · have outside : ¬(record.generation = view.generation + 1 ∧ record.index < poolSize) := inside
        simpa [after, inside, InPool] using outside
    case located =>
      intro here record
      by_cases notYet : here = .unfilled
      · subst notYet
        rw [At, unfilled_of_alone alone]
        by_cases inside : inPool record
        · have some : 0 < poolSize := by
            have bound := inside.2
            omega
          simp [after, inside, InPool, startFrom, some, inside.1, inside.2]
        · simp only [after, if_neg inside]
          constructor
          · rintro ⟨_, _, _, ⟨_, generation, bound⟩, _⟩
            exact absurd ⟨generation, bound⟩ inside
          · simp
      · rw [empty record here notYet, ← ok.placed.located]
        cases here with
        | unfilled => exact absurd rfl notYet
        | free | client | queued | current | recycling => rfl
    case freeNodup => exact ok.placed.freeNodup

theorem Ok.filled (ok : view.Ok poolSize place) {index : Nat} {node : LogRecord}
    (here : view.start thread = some (.fill index node)) :
    ∃ after, Ok poolSize
      { view with
        freelist := node :: view.freelist
        start := Function.update view.start thread
          (some (startFrom view.generation poolSize (index + 1))) } after := by
  have starting : view.start thread ≠ none := by simp [here]
  have notSpawned := ok.started.starterFirst thread starting
  have allocated := ok.started.allocated thread starting (by simp [here])
  obtain ⟨named, bound⟩ := ok.started.fillNode thread index node here
  have alone : ∀ other, other ≠ thread → Function.update view.start thread
      (some (startFrom view.generation poolSize (index + 1))) other = none := by
    intro other different
    simpa [different] using ok.started.others starting other different
  have inPool : view.InPool poolSize node := by
    subst named
    exact ⟨by omega, rfl, bound⟩
  have was : view.At poolSize .unfilled node := ⟨thread, index, node, here, inPool, by rw [named]⟩
  refine ⟨Function.update place node (some .free), StartedOnce.of_alone alone ?_ ?_ ?_ ?_ ?_ ?_ ?_ ?_,
    ?_, { ok.queue with }⟩
  · exact ok.started.generations
  · exact fun _ => notSpawned
  · simp only [Function.update_self, startFrom]
    split <;> simp
  · exact fun _ _ => allocated
  · exact ok.started.spawnedLast
  · exact ok.started.spawnedOnce
  · exact ok.started.absent
  · intro next later
    simp only [Function.update_self, startFrom]
    split
    · rintro filling
      cases filling
      exact ⟨rfl, by assumption⟩
    · simp
  · apply ok.placed.move _ _ was (by simp)
    case pool => exact fun _ => Iff.rfl
    case freeNodup =>
      refine List.nodup_cons.mpr ⟨fun free => ?_, ok.placed.freeNodup⟩
      exact absurd (ok.placed.unique _ .free was free) (by simp)
    case leaves =>
      intro record
      rw [At, At, unfilled_of_alone alone, unfilled_of_alone (ok.started.others starting), here]
      simp only [Function.update_self, startFrom, Option.some.injEq]
      constructor
      · rintro ⟨later, _, next, inside, above⟩
        split at next
        · simp only [StartPc.fill.injEq] at next
          obtain ⟨rfl, _⟩ := next
          refine ⟨⟨index, node, rfl, inside, by omega⟩, ?_⟩
          intro same
          have atIndex : record.index = index := by rw [same, named]
          omega
        · simp at next
      · rintro ⟨⟨_, _, now, inside, above⟩, different⟩
        cases now
        have later : index < record.index := by
          rcases Nat.lt_or_eq_of_le above with less | same
          · exact less
          · refine absurd ?_ different
            rw [named, ← inside.2.1, same]
        have bounded : index + 1 < poolSize := by
          have inBound := inside.2.2
          omega
        exact ⟨_, _, by rw [if_pos bounded], inside, later⟩
    case arrives =>
      intro record
      simp [At, or_comm]
    case others =>
      intro place record notUnfilled notFree
      cases place with
      | unfilled => exact absurd rfl notUnfilled
      | free => exact absurd rfl notFree
      | client | queued | current | recycling => rfl

theorem Ok.spawns (ok : view.Ok poolSize place) (here : view.start thread = some .spawn) :
    Ok poolSize
      { view with
        start := Function.update view.start thread none
        workers := Function.update view.workers view.spawned (.loadRun none)
        spawned := view.spawned + 1 } place := by
  have starting : view.start thread ≠ none := by simp [here]
  have notSpawned := ok.started.starterFirst thread starting
  have allocated := ok.started.allocated thread starting (by simp [here])
  have absent := ok.started.absent 0 (by omega)
  have alone : ∀ other, other ≠ thread → Function.update view.start thread none other = none := by
    intro other different
    simpa [different] using ok.started.others starting other different
  refine ⟨StartedOnce.of_alone alone ?_ ?_ ?_ ?_ ?_ ?_ ?_ ?_, ?_, ?_⟩
  · exact ok.started.generations
  · simp
  · simp
  · simp
  · exact fun _ => allocated
  · simp [notSpawned]
  · intro id bound
    simp only [notSpawned] at bound ⊢
    have other : id ≠ 0 := by omega
    simpa [other] using ok.started.absent id (by omega)
  · simp
  · refine { ok.placed with located := ?_ }
    intro place record
    rw [← ok.placed.located]
    cases place with
    | unfilled =>
        rw [At, At, unfilled_of_alone alone, unfilled_of_alone (ok.started.others starting), here]
        simp
    | free | client | queued => rfl
    | current => simp [At, notSpawned, absent, WorkerPc.current]
    | recycling => simp [At, notSpawned, absent, WorkerPc.recycling]
  · have queue := ok.queue
    constructor
    case phase =>
      have phase := queue.phase
      simpa [QueueWorld.Phase, queueWorld, notSpawned, absent, WorkerPc.consumer] using phase
    case dummy =>
      have dummy := queue.dummy
      simpa [notSpawned, absent, WorkerPc.dummy, dummyOf] using dummy
    case pushes => exact queue.pushes
    case recycles => simp [notSpawned, WorkerPc.pushing]

end Start

/-! The threads that enqueue. -/

section Clients

variable {thread : Thread} {record : LogRecord}

/-- A record in the hands of a thread is neither in the queue nor its dummy. -/
theorem Ok.held_outside (ok : view.Ok poolSize place) (held : view.held thread = some record) :
    .record record ∉ view.queue.chain view.pending := by
  have mine : view.At poolSize (.client thread) record := held
  simp only [MpscQueue.chain, List.mem_cons, List.mem_map, MpscNode.record.injEq,
    exists_eq_right, not_or]
  constructor
  · intro same
    have dummy := ok.queue.dummy
    rw [← same] at dummy
    have inHand : view.At poolSize .current record ∨ view.At poolSize .recycling record :=
      WorkerPc.dummy_held dummy.symm
    rcases inHand with atWorker | atWorker
    · exact absurd (ok.placed.unique _ _ mine atWorker) (by simp)
    · exact absurd (ok.placed.unique _ _ mine atWorker) (by simp)
  · intro inside
    exact absurd (ok.placed.unique _ .queued mine inside) (by simp)

theorem Ok.chain (ok : view.Ok poolSize place)
    (noReset : (view.workers 0).consumer.resetting = false) :
    view.queue.Chain view.pending view.pusher :=
  Phase.chain ok.queue.phase noReset

theorem Ok.pushing_node (ok : view.Ok poolSize place)
    (noReset : (view.workers 0).consumer.resetting = false) {pc : PushPc LogRecord}
    (busy : view.pusher thread = some pc) :
    view.held thread = some pc.node ∨ pc.node ∈ view.pending := by
  cases pc with
  | clearNext node | exchangeTail node => exact Or.inl (ok.queue.pushes thread _ busy)
  | linkPrev node prev =>
      have adjacent := ((ok.chain noReset).window thread node prev busy).1
      have inside := adjacent.right_mem_tail
      exact Or.inr (by simpa [PushPc.node] using inside)

variable [DecidableEq Thread]

theorem Ok.obtains (ok : view.Ok poolSize place) {rest : List LogRecord}
    (list : view.freelist = record :: rest) (empty : view.held thread = none)
    (idle : ∀ pc, view.pusher thread ≠ some pc) :
    ∃ after, Ok poolSize
      { view with
        freelist := rest
        held := Function.update view.held thread (some record) } after := by
  have nodup := ok.placed.freeNodup
  rw [list, List.nodup_cons] at nodup
  have was : view.At poolSize .free record := by simp [At, list]
  refine ⟨Function.update place record (some (.client thread)), { ok.started with }, ?_,
    { ok.queue with pushes := ?_ }⟩
  · apply ok.placed.move _ _ was (by simp)
    case pool => exact fun _ => Iff.rfl
    case freeNodup => exact nodup.2
    case leaves =>
      intro r
      simp only [At, list, List.mem_cons]
      constructor
      · intro inside
        refine ⟨Or.inr inside, ?_⟩
        rintro rfl
        exact nodup.1 inside
      · rintro ⟨rfl | inside, different⟩
        · exact absurd rfl different
        · exact inside
    case arrives =>
      intro r
      simp [At, empty, eq_comm]
    case others =>
      intro here r notFree notMine
      cases here with
      | free => exact absurd rfl notFree
      | client other =>
          have different : other ≠ thread := by
            rintro rfl
            exact notMine rfl
          simp [At, different]
      | unfilled | queued | current | recycling => rfl
  · intro other pc busy
    have held := ok.queue.pushes other pc busy
    have different : other ≠ thread := by
      rintro rfl
      exact idle pc busy
    simpa [different] using held

theorem Ok.begins (ok : view.Ok poolSize place) (held : view.held thread = some record)
    (idle : view.pusher thread = none)
    (noReset : (view.workers 0).consumer.resetting = false) :
    Ok poolSize
      { view with pusher := Function.update view.pusher thread (some (.clearNext record)) }
      place := by
  have chain := ok.chain noReset
  have mine : view.At poolSize (.client thread) record := held
  have unused : ∀ other, (view.pusher other).map PushPc.node ≠ some record := by
    intro other pushes
    obtain ⟨pc, busy, rfl⟩ := Option.map_eq_some_iff.mp pushes
    rcases ok.pushing_node noReset busy with alsoHeld | inside
    · have same := ok.placed.unique _ (.client other) mine alsoHeld
      obtain rfl : thread = other := by simpa using same
      simp [idle] at busy
    · exact absurd (ok.placed.unique _ .queued mine inside) (by simp)
  have begun := chain.begin idle (ok.held_outside held) unused
  refine ⟨{ ok.started with }, { ok.placed with }, { ok.queue with phase := ?_, pushes := ?_ }⟩
  · exact Phase.produced ok.queue.phase noReset begun rfl fun _ loaded => loaded
  · intro other pc busy
    by_cases same : other = thread
    · subst same
      simp only [Function.update_self, Option.some.injEq] at busy
      rw [← busy]
      exact held
    · exact ok.queue.pushes other pc (by simpa [same] using busy)

/-- A step of `queue_.push`: the record leaves the thread's hands at the exchange. -/
theorem Ok.pushStep (ok : view.Ok poolSize place) {pc : PushPc LogRecord}
    (busy : view.pusher thread = some pc) :
    ∃ after, Ok poolSize
      { view with
        queue := (view.queue.pushStep pc).1
        pending := view.pending ++ pc.appended
        held := Function.update view.held thread ((view.queue.pushStep pc).2.bind PushPc.held)
        pusher := Function.update view.pusher thread (view.queue.pushStep pc).2 } after := by
  have noReset := Phase.no_reset ok.queue.phase busy
  have chain := ok.chain noReset
  have held := ok.queue.pushes thread pc busy
  have queue : Queued { view with
      queue := (view.queue.pushStep pc).1
      pending := view.pending ++ pc.appended
      held := Function.update view.held thread ((view.queue.pushStep pc).2.bind PushPc.held)
      pusher := Function.update view.pusher thread (view.queue.pushStep pc).2 } := by
    constructor
    case phase =>
      exact Phase.produced ok.queue.phase noReset (chain.pushStep busy)
        (MpscQueue.pushStep_head view.queue pc) fun _ loaded => chain.pushStep_front busy loaded
    case dummy => exact (MpscQueue.pushStep_head view.queue pc).trans ok.queue.dummy
    case pushes =>
      intro other later now
      by_cases same : other = thread
      · subst same
        simp only [Function.update_self] at now ⊢
        simp [now]
      · simpa [same] using ok.queue.pushes other later (by simpa [same] using now)
    case recycles => exact ok.queue.recycles
  have kept : pc.appended = [] →
      (view.queue.pushStep pc).2.bind PushPc.held = pc.held →
      ∀ here r, view.At poolSize here r ↔ At { view with
        queue := (view.queue.pushStep pc).1
        pending := view.pending ++ pc.appended
        held := Function.update view.held thread ((view.queue.pushStep pc).2.bind PushPc.held)
        pusher := Function.update view.pusher thread (view.queue.pushStep pc).2 } poolSize here r := by
    intro none same here r
    rw [same, ← held, Function.update_eq_self, none, List.append_nil]
    cases here <;> rfl
  cases pc with
  | clearNext node =>
      refine ⟨place, { ok.started with }, ?_, queue⟩
      refine { ok.placed with located := fun here r => ?_ }
      rw [← ok.placed.located, kept rfl rfl]
  | exchangeTail node =>
      refine ⟨Function.update place node (some .queued), { ok.started with }, ?_, queue⟩
      apply ok.placed.move (.client thread) .queued held (by simp)
      case pool => exact fun _ => Iff.rfl
      case freeNodup => exact ok.placed.freeNodup
      case leaves =>
        intro r
        simp only [At, MpscQueue.pushStep, Option.bind_some, PushPc.held, Function.update_self,
          held, Option.some.injEq]
        exact ⟨fun none => by simp at none, fun both => absurd both.1.symm both.2⟩
      case arrives =>
        intro r
        simp [At, PushPc.appended]
      case others =>
        intro here r notMine notQueued
        cases here with
        | queued => exact absurd rfl notQueued
        | client other =>
            have different : other ≠ thread := by
              rintro rfl
              exact notMine rfl
            simp [At, different]
        | unfilled | free | current | recycling => rfl
  | linkPrev node prev =>
      refine ⟨place, { ok.started with }, ?_, queue⟩
      refine { ok.placed with located := fun here r => ?_ }
      rw [← ok.placed.located, kept rfl rfl]

end Clients

/-! The worker. -/

section Worker

variable {worker : AtomicWorker} {queue : MpscQueue LogRecord}

theorem StartedOnce.workerGoes (started : view.StartedOnce poolSize)
    (alive : view.workers 0 ≠ .absent) :
    StartedOnce poolSize { view with workers := Function.update view.workers 0 worker } := by
  refine { started with absent := fun id bound => ?_ }
  have other : id ≠ 0 := by
    rintro rfl
    exact alive (started.absent 0 bound)
  simpa [other] using started.absent id bound

theorem Ok.workerStays (ok : view.Ok poolSize place) (alive : view.workers 0 ≠ .absent)
    (current : worker.current = (view.workers 0).current)
    (recycling : worker.recycling = (view.workers 0).recycling)
    (phase : QueueWorld.Phase ⟨queue, view.pusher, worker.consumer⟩ view.pending)
    (dummy : queue.head = worker.dummy)
    (recycles : ∀ record, worker.pushing = some record → worker.recycling = some record) :
    Ok poolSize
      { view with
        queue := queue
        workers := Function.update view.workers 0 worker } place := by
  have started : StartedOnce poolSize
      { view with workers := Function.update view.workers 0 worker } := ok.started.workerGoes alive
  refine ⟨{ started with }, ?_, ?_⟩
  · refine { ok.placed with located := fun here record => ?_ }
    rw [← ok.placed.located]
    cases here with
    | unfilled | free | client | queued => rfl
    | current => simp [At, current]
    | recycling => simp [At, recycling]
  · constructor
    case phase => simpa [queueWorld] using phase
    case dummy => simpa using dummy
    case pushes => exact ok.queue.pushes
    case recycles => simpa using recycles

/-- `pop` hands the oldest record to the worker. -/
theorem Ok.takes (ok : view.Ok poolSize place) {record : LogRecord} {rest : List LogRecord}
    (worker : AtomicWorker) (alive : view.workers 0 ≠ .absent) (front : view.pending = record :: rest)
    (empty : (view.workers 0).current = none) (current : worker.current = some record)
    (recycling : worker.recycling = (view.workers 0).recycling)
    (phase : QueueWorld.Phase ⟨queue, view.pusher, worker.consumer⟩ rest)
    (dummy : queue.head = worker.dummy) (chainNodup : (record :: rest).Nodup)
    (recycles : ∀ record, worker.pushing = some record → worker.recycling = some record) :
    ∃ after, Ok poolSize
      { view with
        queue := queue
        pending := rest
        workers := Function.update view.workers 0 worker } after := by
  have was : view.At poolSize .queued record := by simp [At, front]
  have started : StartedOnce poolSize
      { view with workers := Function.update view.workers 0 worker } := ok.started.workerGoes alive
  refine ⟨Function.update place record (some .current), { started with }, ?_, ?_⟩
  · apply ok.placed.move _ _ was (by simp)
    case pool => exact fun _ => Iff.rfl
    case freeNodup => exact ok.placed.freeNodup
    case leaves =>
      intro r
      simp only [At, front, List.mem_cons]
      constructor
      · intro inside
        refine ⟨Or.inr inside, ?_⟩
        rintro rfl
        exact (List.nodup_cons.mp chainNodup).1 inside
      · rintro ⟨rfl | inside, different⟩
        · exact absurd rfl different
        · exact inside
    case arrives =>
      intro r
      simp [At, empty, current, eq_comm]
    case others =>
      intro here r notQueued notCurrent
      cases here with
      | queued => exact absurd rfl notQueued
      | current => exact absurd rfl notCurrent
      | recycling => simp [At, recycling]
      | unfilled | free | client => rfl
  · constructor
    case phase => simpa [queueWorld] using phase
    case dummy => simpa using dummy
    case pushes => exact ok.queue.pushes
    case recycles => simpa using recycles

theorem Ok.givesBack (ok : view.Ok poolSize place) {record : LogRecord}
    (alive : view.workers 0 ≠ .absent) (mine : (view.workers 0).recycling = some record)
    (current : worker.current = (view.workers 0).current) (recycling : worker.recycling = none)
    (phase : QueueWorld.Phase ⟨view.queue, view.pusher, worker.consumer⟩ view.pending)
    (dummy : view.queue.head = worker.dummy) (idle : worker.pushing = none) :
    ∃ after, Ok poolSize
      { view with
        freelist := record :: view.freelist
        workers := Function.update view.workers 0 worker } after := by
  have was : view.At poolSize .recycling record := mine
  have started : StartedOnce poolSize
      { view with workers := Function.update view.workers 0 worker } := ok.started.workerGoes alive
  refine ⟨Function.update place record (some .free), { started with }, ?_, ?_⟩
  · apply ok.placed.move _ _ was (by simp)
    case pool => exact fun _ => Iff.rfl
    case freeNodup =>
      refine List.nodup_cons.mpr ⟨fun free => ?_, ok.placed.freeNodup⟩
      exact absurd (ok.placed.unique _ .free was free) (by simp)
    case leaves =>
      intro r
      simp only [At, Function.update_self, recycling, mine, Option.some.injEq]
      exact ⟨fun none => by simp at none, fun both => absurd both.1.symm both.2⟩
    case arrives =>
      intro r
      simp [At, or_comm]
    case others =>
      intro here r notMine notFree
      cases here with
      | recycling => exact absurd rfl notMine
      | free => exact absurd rfl notFree
      | current => simp [At, current]
      | unfilled | client | queued => rfl
  · constructor
    case phase => simpa [queueWorld] using phase
    case dummy => simpa using dummy
    case pushes => exact ok.queue.pushes
    case recycles => simp [idle]

/-- The record just written waits in `pending_recycle`. -/
theorem Ok.retires (ok : view.Ok poolSize place) (record : LogRecord)
    (alive : view.workers 0 ≠ .absent) (mine : (view.workers 0).current = some record)
    (empty : (view.workers 0).recycling = none) (current : worker.current = none)
    (recycling : worker.recycling = some record)
    (phase : QueueWorld.Phase ⟨view.queue, view.pusher, worker.consumer⟩ view.pending)
    (dummy : view.queue.head = worker.dummy) (idle : worker.pushing = none) :
    ∃ after, Ok poolSize { view with workers := Function.update view.workers 0 worker } after := by
  have was : view.At poolSize .current record := mine
  refine ⟨Function.update place record (some .recycling),
    ok.started.workerGoes alive, ?_, ?_⟩
  · apply ok.placed.move _ _ was (by simp)
    case pool => exact fun _ => Iff.rfl
    case freeNodup => exact ok.placed.freeNodup
    case leaves =>
      intro r
      simp only [At, Function.update_self, current, mine, Option.some.injEq]
      exact ⟨fun none => by simp at none, fun both => absurd both.1.symm both.2⟩
    case arrives =>
      intro r
      simp [At, empty, recycling, eq_comm]
    case others =>
      intro here r notMine notRecycling
      cases here with
      | current => exact absurd rfl notMine
      | recycling => exact absurd rfl notRecycling
      | unfilled | free | client | queued => rfl
  · constructor
    case phase => simpa [queueWorld] using phase
    case dummy => simpa using dummy
    case pushes => exact ok.queue.pushes
    case recycles => simp [idle]

end Worker

end MemoryView

end MyServer
