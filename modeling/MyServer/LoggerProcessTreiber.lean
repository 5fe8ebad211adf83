import MyServer.LogEngineTreiber
import MyServer.LoggerProcess

/-!
The logger on the free list that `LogEngine` has. While no `try_pop` installs an old successor,
its runs are those on the atomic stack, so the same reaches `std::cout`.
-/

namespace MyServer

namespace LoggerProcess

open LogEngine

variable {Thread : Type} [DecidableEq Thread] {args : Envelope Thread → LogArgs} {poolSize : Nat}
variable {trace : List (EngineEvent Thread)} {state : TreiberEngine Thread}

def orderlyCalls (trace : List (EngineEvent Thread)) (state : TreiberEngine Thread) :
    EngineAction Thread → Prop :=
  LogEngine.orderly trace (state.atomically [])

def orderlyFresh (trace : List (EngineEvent Thread)) (state : TreiberEngine Thread)
    (action : EngineAction Thread) : Prop :=
  orderlyCalls trace state action ∧ freshPops trace state action

omit [DecidableEq Thread] in
theorem orderly_atomically (stack : List LogRecord) (action : EngineAction Thread) :
    LogEngine.orderly trace (state.atomically stack) action ↔ orderlyCalls trace state action := by
  cases action <;> rfl

theorem cout_tells_accepted_treiber [Fintype Thread]
    {process : LoggerProcess (treiberFreeList LogRecord) Thread}
    (reached : (loggerMachine (treiberFreeList LogRecord) Thread args poolSize).Reaches
      (fun trace process => orderlyFresh trace process.engine) trace process) :
    process.aborted = none ∧
      process.written .cout =
        (submittedEnvelopes trace).flatMap (fun envelope => lineBytes (args envelope)) ∧
      submittedEnvelopes trace <+: queuedEnvelopes trace ∧
      (∀ thread, .shutdownReturned thread ∈ trace →
        LoggedOnce args trace (process.written .cout)) := by
  obtain ⟨ok, run⟩ := runs_engine reached
  obtain ⟨stack, _, atomicRun⟩ := treiber_simulates LogEngine.orderly
    (fun trace state stack action => (orderly_atomically stack action).mpr)
    (fun _ _ run => (engine_ok run).memory) run
  exact ⟨ok.running, ok.written, ok.told atomicRun⟩

instance [Fintype Thread] (trace : List (EngineEvent Thread)) (state : TreiberEngine Thread)
    (action : EngineAction Thread) : Decidable (orderlyFresh trace state action) :=
  inferInstanceAs (Decidable (LogEngine.orderly trace (state.atomically []) action ∧ _))

def treiberSchedule : List (EngineAction Bool) :=
  [EngineAction.enqueue false] ++ List.replicate 18 (EngineAction.client false false) ++
    [EngineAction.enqueue true] ++ List.replicate 9 (EngineAction.client true false) ++
    [EngineAction.shutdown true, .client true false] ++
    List.replicate 28 (EngineAction.worker 0 false) ++ [EngineAction.client true false]

theorem treiberSchedule_runs :
    ((loggerMachine (treiberFreeList LogRecord) Bool sampleArgs 2).exec
      (fun trace process => orderlyFresh trace process.engine) []
      (loggerMachine (treiberFreeList LogRecord) Bool sampleArgs 2).start
      treiberSchedule).isSome = true := by
  decide +kernel

theorem cout_tells_accepted_treiber_sample :
    let trace := (Option.get _ treiberSchedule_runs).1
    let process := (Option.get _ treiberSchedule_runs).2
    enqueuedEnvelopes trace = [⟨false, 0⟩, ⟨true, 0⟩] ∧
      LoggedOnce sampleArgs trace (process.written .cout) := by
  have facts := cout_tells_accepted_treiber (EventMachine.reaches_of_isSome treiberSchedule_runs)
  exact ⟨by decide +kernel, facts.2.2.2 true (by decide +kernel)⟩

end LoggerProcess

end MyServer
