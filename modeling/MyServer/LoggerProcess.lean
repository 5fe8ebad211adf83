import MyServer.LogEngine
import MyServer.LogStream
import MyServer.LoggerProcessCore

/-!
What reaches `std::cout`. In every run the stream is the lines of the submitted records, each
whole and in the order of their submission; in an orderly run that has shut down, it
determines the tags and headers of the accepted records.
-/

namespace MyServer

variable {Thread : Type} {list : FreeListSteps LogRecord}

def lineBytes (args : LogArgs) : List UInt8 := textBytes args.build.text

/-! The bytes of a line determine its text. -/

theorem textBytes_flatMap {α : Type} (items : List α) (text : α → Text) :
    textBytes (items.flatMap text) = items.flatMap fun item => textBytes (text item) := by
  simp [textBytes, List.map_flatMap]

def SingleBytes (text : Text) : Prop := ∀ c ∈ text, c.toNat < 256

theorem textBytes_injective {left right : Text} (leftBytes : SingleBytes left)
    (rightBytes : SingleBytes right) (same : textBytes left = textBytes right) : left = right := by
  induction left generalizing right with
  | nil =>
      cases right with
      | nil => rfl
      | cons c right => simp [textBytes] at same
  | cons c left ih =>
      cases right with
      | nil => simp [textBytes] at same
      | cons d right =>
          obtain ⟨first, rest⟩ := List.cons.inj same
          have codes : c.toNat = d.toNat := by
            have small := leftBytes c List.mem_cons_self
            have small' := rightBytes d List.mem_cons_self
            have values := congrArg UInt8.toNat first
            rwa [UInt8.toNat_ofNat', UInt8.toNat_ofNat', Nat.mod_eq_of_lt small,
              Nat.mod_eq_of_lt small'] at values
          have tails : left = right := by
            apply ih (fun c inside => leftBytes c (List.mem_cons_of_mem _ inside))
              (fun d inside => rightBytes d (List.mem_cons_of_mem _ inside)) rest
          rw [Char.toNat_inj.mp codes, tails]

theorem SingleBytes.append {left right : Text} (leftBytes : SingleBytes left)
    (rightBytes : SingleBytes right) : SingleBytes (left ++ right) := by
  intro c inside
  rcases List.mem_append.mp inside with inside | inside
  · exact leftBytes c inside
  · exact rightBytes c inside

theorem singleBytes_decimal (value : Nat) : SingleBytes (decimal value) := by
  intro c inside
  have digit := isDigit_of_mem_decimal inside
  simp only [Char.isDigit, Bool.and_eq_true, decide_eq_true_eq, ge_iff_le] at digit
  have upper : c.toNat ≤ 57 := UInt32.le_iff_toNat_le.mp digit.2
  omega

theorem singleBytes_of_all {text : Text} (small : text.all (fun c => c.toNat < 256) = true) :
    SingleBytes text := by
  intro c inside
  simpa using List.all_eq_true.mp small c inside

theorem singleBytes_field {name value : Text} (nameBytes : name.all (fun c => c.toNat < 256) = true)
    (valueBytes : SingleBytes value) : SingleBytes (fieldText name value) := by
  unfold fieldText
  apply (singleBytes_of_all nameBytes).append
  rw [← List.singleton_append]
  apply (singleBytes_of_all (by decide)).append
  exact valueBytes.append (singleBytes_of_all (by decide))

theorem singleBytes_severity (severity : Severity) : SingleBytes (printSeverity severity) := by
  rcases printSeverity_cases severity with ⟨text, _⟩ | ⟨text, _⟩ | ⟨text, _⟩ | ⟨text, _⟩ <;> rw [text]
  · exact singleBytes_of_all (by decide)
  · exact singleBytes_of_all (by decide)
  · exact singleBytes_of_all (by decide)
  · apply SingleBytes.append (singleBytes_of_all (by decide))
    exact (singleBytes_decimal _).append (singleBytes_of_all (by decide))

theorem singleBytes_header (tag : MsgTag) (header : LogHeader) :
    SingleBytes (headerText tag header) := by
  have number := fun {name : Text} (small : name.all (fun c => c.toNat < 256) = true) value =>
    singleBytes_field small (singleBytes_decimal value)
  rw [headerText_eq]
  apply SingleBytes.append
  · apply (singleBytes_of_all (by decide)).append
    exact (singleBytes_decimal _).append (singleBytes_of_all (by decide))
  apply (singleBytes_field (by decide) (singleBytes_severity _)).append
  apply (number (by decide) _).append
  apply (number (by decide) _).append
  apply (number (by decide) _).append
  apply (number (by decide) _).append
  apply (number (by decide) _).append
  exact number (by decide) _

/-- The bytes of a sequence of records determine their tags and headers. -/
theorem keys_of_bytes {records others : List LoggedPayload}
    (same : (records.flatMap fun record => textBytes record.text) =
      others.flatMap fun record => textBytes record.text) :
    records.map LoggedPayload.key = others.map LoggedPayload.key := by
  have single : ∀ records : List LoggedPayload, SingleBytes (records.flatMap LoggedPayload.text) := by
    intro records c inside
    obtain ⟨record, _, here⟩ := List.mem_flatMap.mp inside
    rw [text_eq_headerText] at here
    exact singleBytes_header _ _ c here
  rw [← textBytes_flatMap, ← textBytes_flatMap] at same
  have texts := textBytes_injective (single records) (single others) same
  apply prefixFree_header.sequence headerText_ne_nil
  simpa [List.flatMap_map, text_eq_headerText, funext text_eq_headerText] using texts

/-! Every run. -/

namespace LoggerProcess

variable {args : Envelope Thread → LogArgs} {trace events : List (EngineEvent Thread)}
variable {process next : LoggerProcess list Thread}

/-- The token of `publishHandle_` is the registry's first, and its channel the last. -/
theorem engineHandle_resolves :
    publishToken engineHandle.handles = ⟨0⟩ ∧
      TokenRegistry.resolve ⟨0⟩ (engineHandle.registries ()) =
        .ok 3 (engineHandle.registries ()) := by
  exact ⟨rfl, rfl⟩

structure PublishingOk (args : Envelope Thread → LogArgs) (trace : List (EngineEvent Thread))
    (process : LoggerProcess list Thread) : Prop where
  running : process.aborted = none
  bound : process.publishing = engineHandle
  written : process.written .cout =
    (submittedEnvelopes trace).flatMap fun envelope => lineBytes (args envelope)

theorem PublishingOk.initial : PublishingOk args [] (initial : LoggerProcess list Thread) :=
  ⟨rfl, rfl, rfl⟩

theorem publish_engine (written : StdStream → List UInt8) (data : List UInt8) :
    publishView engineStore ⟨engineHandle.registries (), written⟩
        (publishToken engineHandle.handles) data =
      .ok ⟨engineHandle.registries (),
        Function.update written .cout (written .cout ++ data)⟩ := by
  obtain ⟨token, resolved⟩ := engineHandle_resolves
  rw [publishView, token, resolved]
  rfl

theorem PublishingOk.submit (ok : PublishingOk args trace process) (id : Nat)
    (envelope : Envelope Thread) :
    PublishingOk args (trace ++ [.submitted envelope]) (process.submit args id envelope) ∧
      (process.submit args id envelope).engine = process.engine := by
  have view : (submitImpl (process.streams id) (args envelope).build).1 =
      (args envelope).build.text := by
    rw [submitImpl_whole, text_eq_headerText]
  simp only [LoggerProcess.submit, ok.bound, publish_engine, view]
  refine ⟨⟨ok.running, rfl, ?_⟩, trivial⟩
  rw [submittedEnvelopes_append, List.flatMap_append, ← ok.written]
  simp [submittedEnvelopes, EngineEvent.submitted?, lineBytes]

variable [DecidableEq Thread] {poolSize : Nat} {action : EngineAction Thread}

/-- A step calls `submit_fn` once, on a worker, or not at all. -/
theorem submits_or_silent (args : Envelope Thread → LogArgs) {state after : LogEngine list Thread}
    (moved : LogEngine.Move poolSize state action after events) :
    (∃ id spurious envelope, action = .worker id spurious ∧ events = [.submitted envelope]) ∨
      submittedEnvelopes events = [] ∧
        ∀ process : LoggerProcess list Thread, process.afterStep args action events = process := by
  cases moved with
  | enqueue | shutdown => exact .inr ⟨rfl, fun _ => rfl⟩
  | client moved => cases moved <;> exact .inr ⟨rfl, fun _ => rfl⟩
  | worker moved =>
      cases moved with
      | submits here read => exact .inl ⟨_, _, _, rfl, rfl⟩
      | _ => exact .inr ⟨rfl, fun _ => rfl⟩

theorem PublishingOk.step (ok : PublishingOk args trace process)
    (stepped : (loggerMachine list Thread args poolSize).step process action =
      some (next, events)) :
    PublishingOk args (trace ++ events) next ∧
      process.engine.step poolSize action = some (next.engine, events) := by
  change (if process.aborted.isSome then none else _) = _ at stepped
  rw [if_neg (by simp [ok.running])] at stepped
  obtain ⟨⟨engine, emitted⟩, ran, same⟩ := Option.map_eq_some_iff.mp stepped
  obtain ⟨rfl, rfl⟩ := Prod.mk.inj same
  have moved : PublishingOk args trace { process with engine } :=
    ⟨ok.running, ok.bound, ok.written⟩
  rcases submits_or_silent args (LogEngine.step_move ran).2 with
    ⟨id, spurious, envelope, rfl, rfl⟩ | ⟨silent, unchanged⟩
  · obtain ⟨okNext, sameEngine⟩ := moved.submit id envelope
    refine ⟨okNext, ran.trans ?_⟩
    exact congrArg (fun engine => some (engine, _)) sameEngine.symm
  · rw [unchanged]
    refine ⟨⟨ok.running, ok.bound, ?_⟩, ran⟩
    rw [submittedEnvelopes_append, silent, List.append_nil]
    exact ok.written

/-- A run of the process is a run of the engine with the same events. -/
theorem runs_engine {guard : List (EngineEvent Thread) → LogEngine list Thread →
      EngineAction Thread → Prop}
    (reached : (loggerMachine list Thread args poolSize).Reaches
      (fun trace process => guard trace process.engine) trace process) :
    PublishingOk args trace process ∧
      (engineMachine list Thread poolSize).Reaches guard trace process.engine := by
  refine reached.invariant (fun trace process => PublishingOk args trace process ∧
    (engineMachine list Thread poolSize).Reaches guard trace process.engine)
    ⟨.initial, .nil⟩ ?_
  rintro trace process action next events ⟨ok, run⟩ permitted stepped
  obtain ⟨okNext, ran⟩ := ok.step stepped
  exact ⟨okNext, .snoc run permitted ran⟩

structure LoggedOnce (args : Envelope Thread → LogArgs) (trace : List (EngineEvent Thread))
    (written : List UInt8) : Prop where
  /-- The accepted calls in some order that keeps the order of each thread's calls; their lines
  are the stream, and no other calls have a stream with these bytes. -/
  lines : ∃ order : List (Envelope Thread), order.Nodup ∧
    (∀ envelope, envelope ∈ order ↔ .enqueued envelope ∈ trace) ∧
    (∀ thread, (callsOf thread order).Sublist (callsOf thread (calledEnvelopes trace))) ∧
    written = order.flatMap (fun envelope => lineBytes (args envelope)) ∧
    ∀ records : List LoggedPayload,
      (records.flatMap fun record => textBytes record.text) = written →
      records.map LoggedPayload.key = order.map fun envelope => (args envelope).build.key

/-- What the events of an orderly run of the engine say about the bytes written. -/
theorem PublishingOk.told [Fintype Thread] (ok : PublishingOk args trace process)
    {engine : AtomicEngine Thread}
    (run : (engineMachine (atomicFreeList LogRecord) Thread poolSize).Reaches LogEngine.orderly
      trace engine) :
    submittedEnvelopes trace <+: queuedEnvelopes trace ∧
      (∀ thread, .shutdownReturned thread ∈ trace →
        LoggedOnce args trace (process.written .cout)) := by
  refine ⟨?_, fun thread returned => ⟨?_⟩⟩
  · have order := (LogEngine.engine_ok run).delivery.order
    have shorter : (submittedEnvelopes trace).map some <+: (queuedEnvelopes trace).map some :=
      ⟨_, order.symm⟩
    exact (List.prefix_map_iff_of_injective (Option.some_injective _)).mp shorter
  · have engine := LogEngine.engine_ok run
    have quiet := engine.closed returned
    have same := (engine.delivery.delivered quiet).1
    have lines : process.written .cout =
        (queuedEnvelopes trace).flatMap fun envelope => lineBytes (args envelope) := by
      rw [ok.written, same]
    refine ⟨queuedEnvelopes trace, Envelope.nodup engine.calls.calls.order,
      engine.mem_queued quiet, engine.calls.calls.program_order, lines, fun records read => ?_⟩
    have bytes : (records.flatMap fun record => textBytes record.text) =
        ((queuedEnvelopes trace).map fun envelope => (args envelope).build).flatMap
          fun record => textBytes record.text := by
      rw [read, lines, List.flatMap_map]
      rfl
    rw [keys_of_bytes bytes, List.map_map]
    rfl

/-- In every orderly run of the logger nothing fails to publish, and `std::cout` is the lines
of the records submitted so far, which are the first to have entered the queue; after
`shutdown` it tells the accepted calls. -/
theorem cout_tells_accepted [Fintype Thread] {process : LoggerProcess (atomicFreeList LogRecord) Thread}
    (reached : (loggerMachine (atomicFreeList LogRecord) Thread args poolSize).Reaches
      (fun trace process => LogEngine.orderly trace process.engine) trace process) :
    process.aborted = none ∧
      process.written .cout =
        (submittedEnvelopes trace).flatMap (fun envelope => lineBytes (args envelope)) ∧
      submittedEnvelopes trace <+: queuedEnvelopes trace ∧
      (∀ thread, .shutdownReturned thread ∈ trace →
        LoggedOnce args trace (process.written .cout)) := by
  obtain ⟨ok, run⟩ := runs_engine reached
  exact ⟨ok.running, ok.written, ok.told run⟩

def sampleArgs (_ : Envelope Bool) : LogArgs := .request ⟨1, 5, 7, 0, 1, 4, 1, 9, "/".toList⟩

theorem logger_runs :
    ((loggerMachine (atomicFreeList LogRecord) Bool sampleArgs 1).exec
      (fun trace process => LogEngine.orderly trace process.engine) []
      (loggerMachine (atomicFreeList LogRecord) Bool sampleArgs 1).start
      LogEngine.engineSchedule).isSome = true := by
  decide +kernel

theorem cout_tells_accepted_sample :
    let trace := (Option.get _ logger_runs).1
    let process := (Option.get _ logger_runs).2
    enqueuedEnvelopes trace = [⟨false, 0⟩] ∧ droppedEnvelopes trace = [⟨true, 0⟩] ∧
      process.written .cout = lineBytes (sampleArgs ⟨false, 0⟩) ∧
      LoggedOnce sampleArgs trace (process.written .cout) := by
  have facts := cout_tells_accepted (EventMachine.reaches_of_isSome logger_runs)
  exact ⟨by decide +kernel, by decide +kernel, by decide +kernel,
    facts.2.2.2 true (by decide +kernel)⟩

end LoggerProcess

end MyServer
