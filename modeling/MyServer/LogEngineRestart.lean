import MyServer.LogEngineTreiber

/-!
Whose records the free list holds. The list survives a restart while `pool_storage_` is
replaced, so the engine keeps to its own pool exactly as long as it is started once.
-/

namespace MyServer

variable {Thread : Type} {list : FreeListSteps LogRecord}

namespace LogEngine

def Current (state : LogEngine list Thread) (poolSize : Nat) (record : LogRecord) : Prop :=
  0 < state.generation ∧ record.generation = state.generation ∧ record.index < poolSize

def Handed (state : TreiberEngine Thread) (thread : Thread) (record : LogRecord) : Prop :=
  (state.clients thread).atomic.held = some record

structure OwnPool (poolSize : Nat) (trace : List (EngineEvent Thread))
    (state : TreiberEngine Thread) (stack : List LogRecord) : Prop where
  holds : FreeList.Holds state.freelist stack
  nodup : stack.Nodup
  current : ∀ record ∈ stack, state.Current poolSize record
  acquired : ∀ thread record, state.Handed thread record →
    state.Current poolSize record ∧ record ∉ stack ∧
      ∀ owner, (state.atomically stack).Owns trace owner record → owner = .producer thread
  bounded : ∀ records : List LogRecord, records.Nodup →
    (∀ record ∈ records, ∃ owner, owner ≠ .freeList ∧
      (state.atomically stack).Owns trace owner record) → records.length ≤ poolSize

variable {trace : List (EngineEvent Thread)} {state : TreiberEngine Thread}
variable {poolSize : Nat} {stack : List LogRecord}

theorem own_pool_of_memory (listed : state.Listed stack)
    (memory : MemoryOk poolSize trace (state.atomically stack)) :
    OwnPool poolSize trace state stack := by
  have current : ∀ owner record, (state.atomically stack).Owns trace owner record →
      state.Current poolSize record := by
    intro owner record owns
    exact (mem_pool trace).mp (memory.owned owns)
  constructor
  case holds => exact listed.holds
  case nodup =>
    obtain ⟨place, placed⟩ := memory.placed
    exact placed.placed.freeNodup
  case current => exact fun record free => current .freeList record free
  case acquired =>
    intro thread record handed
    have owns : (state.atomically stack).Owns trace (.producer thread) record := handed
    refine ⟨current _ record owns, fun free => ?_, fun owner also =>
      memory.owner_unique owner (.producer thread) also owns⟩
    have same := memory.owner_unique .freeList (.producer thread) free owns
    cases same
  case bounded =>
    intro records nodup owned
    have inside : records ⊆ (state.atomically stack).pool poolSize := by
      intro record member
      obtain ⟨owner, _, owns⟩ := owned record member
      exact memory.owned owns
    have fits := (List.subperm_of_subset nodup inside).length_le
    refine fits.trans ?_
    unfold pool
    split <;> simp

variable [DecidableEq Thread]

/-- Enqueues and shutdowns in separate phases, over any number of cycles: while nobody wins
the start with a pool allocated and no pop installs an old successor, the free list and the
records handed out are those of the current pool. -/
theorem reuses_own_pool
    (reached : (engineMachine (treiberFreeList LogRecord) Thread poolSize).Reaches
      (fun trace state action => singleStart trace state action ∧ freshPops trace state action)
      trace state) : ∃ stack, OwnPool poolSize trace state stack := by
  obtain ⟨stack, listed, run⟩ := treiber_simulates singleStart
    (fun trace state stack action permitted =>
      ⟨(apart_atomic trace state stack action).mpr permitted.1,
        (startsFresh_atomic trace state stack action).mpr permitted.2⟩)
    (fun _ _ run => (rest_ok run).1) reached
  exact ⟨stack, own_pool_of_memory listed (rest_ok run).1⟩

def acquireSchedule : List (EngineAction Unit) :=
  .enqueue () :: List.replicate 13 (EngineAction.client () false)

theorem acquireSchedule_runs :
    ((engineMachine (treiberFreeList LogRecord) Unit 2).exec
      (fun trace state action => singleStart trace state action ∧ freshPops trace state action) []
      (engineMachine (treiberFreeList LogRecord) Unit 2).start acquireSchedule).isSome = true := by
  decide +kernel

theorem reuses_own_pool_sample :
    let trace := (Option.get _ acquireSchedule_runs).1
    let state := (Option.get _ acquireSchedule_runs).2
    state.Handed () ⟨1, 1⟩ ∧ ∃ stack, OwnPool 2 trace state stack := by
  refine ⟨?_, reuses_own_pool (EventMachine.reaches_of_isSome acquireSchedule_runs)⟩
  rw [Handed]
  decide +kernel

def restartSchedule : List (EngineAction Unit) :=
  [EngineAction.enqueue ()] ++
    List.replicate (3 * kPoolSize + 12) (EngineAction.client () false) ++
    List.replicate 6 (EngineAction.worker 0 false) ++
    [EngineAction.shutdown (), .client () false] ++
    List.replicate 11 (EngineAction.worker 0 false) ++
    [EngineAction.client () false, .enqueue (), .client () false, .client () false]

theorem restart_runs :
    ((engineMachine (treiberFreeList LogRecord) Unit kPoolSize).exec apart []
      (engineMachine (treiberFreeList LogRecord) Unit kPoolSize).start restartSchedule).map
        (fun last => (last.2.generation, FreeList.head last.2.freelist)) =
      some (2, some ⟨1, 1023⟩) := by
  decide +kernel

/-- After a shutdown that has returned, the next `enqueue` replaces the array and the free
list still holds the records of the old one. -/
theorem restart_keeps_old_records :
    ∃ trace state, (engineMachine (treiberFreeList LogRecord) Unit kPoolSize).Reaches apart
      trace state ∧ state.generation = 2 ∧
        (∃ record, FreeList.head state.freelist = some record ∧ record.generation = 1) ∧
        ∀ stack, ¬OwnPool kPoolSize trace state stack := by
  have runs := restart_runs
  rw [Option.map_eq_some_iff] at runs
  obtain ⟨⟨trace, state⟩, ran, last⟩ := runs
  obtain ⟨generation, head⟩ := Prod.mk.inj last
  refine ⟨trace, state, EventMachine.reaches_of_exec restartSchedule ran, generation,
    ⟨_, head, rfl⟩, fun stack own => ?_⟩
  have top := own.holds.head
  rw [head, eq_comm] at top
  have old := (own.current _ (List.mem_of_head? top)).2.1
  exact absurd (old.trans generation) (by decide)

end LogEngine

end MyServer
