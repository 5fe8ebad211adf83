import MyServer.ServerPipelineSteps

/-!
The workers of a server against `processEvent` by itself. With one worker the server does
what `processEvent` does to the pushed events, one after the other. With more, and components
that keep nothing from one event to the next, it does what `processEvent` does to the events
in the order in which they were done.
-/

namespace MyServer

variable {Event World Effect Thread : Type} {pipe : Pipeline Event World Effect}
variable {contents : Submission Thread → Event} {config : ServerConfig}

def processAll (pipe : Pipeline Event World Effect) (contents : Submission Thread → Event)
    (events : List (Submission Thread)) (served : Served World Effect) : Served World Effect :=
  events.foldl (fun served event => processEvent pipe (contents event) served) served

theorem processAll_concat (events : List (Submission Thread)) (event : Submission Thread)
    (served : Served World Effect) :
    processAll pipe contents (events ++ [event]) served =
      processEvent pipe (contents event) (processAll pipe contents events served) := by
  simp [processAll]

theorem resume_idle {pc : LoopPc Thread} (idle : pc.processing = none) (job : Job)
    (served : Served World Effect) : pipe.resume contents pc job served = served := by
  cases pc with
  | decode | parse | execute | distribute | countError => cases idle
  | _ => rfl

/-- A worker that has an event is alive. -/
theorem LoopPc.alive_of_fetched {pc : LoopPc Thread} (has : pc.fetched ≠ none) :
    pc.alive = true := by
  cases pc <;> simp_all [LoopPc.fetched, LoopPc.alive]

theorem LoopPc.alive_of_processing {pc : LoopPc Thread} (has : pc.processing ≠ none) :
    pc.alive = true := by
  cases pc <;> simp_all [LoopPc.processing, LoopPc.alive]

theorem Server.workers_ok [DecidableEq Thread] {trace : List (ServerEvent Thread)}
    {server : Server Thread}
    (reached : (serverMachine config Thread).Reaches Server.waitsApart trace server) :
    EventsOk trace server ∧ WorkersOk config server := by
  refine reached.invariant (fun trace server => EventsOk trace server ∧ WorkersOk config server)
    ⟨.initial, .initial⟩ ?_
  rintro trace server action next events ⟨eventsOk, workersOk⟩ permitted stepped
  have moved := (step_move stepped).2
  exact ⟨eventsOk.step moved, workersOk.step eventsOk permitted moved⟩

theorem ServerConfig.workerTotal_one (config : ServerConfig) (one : config.workerCount ≤ 1) :
    config.workerTotal = 1 := by
  unfold ServerConfig.workerTotal
  split
  · rfl
  · rename_i some
    have upper : config.workerCount.toNat ≤ 1 := UInt32.le_iff_toNat_le.mp one
    have lower : config.workerCount.toNat ≠ 0 := fun zero => some (UInt32.toNat_inj.mp zero)
    omega

/-- A server configured for one worker has at most one alive. -/
theorem Server.alone_of_one {server : Server Thread} {trace : List (ServerEvent Thread)}
    (eventsOk : EventsOk trace server) (workersOk : WorkersOk config server)
    (one : config.workerTotal = 1) (left right : Nat)
    (leftAlive : (server.loops left).alive = true)
    (rightAlive : (server.loops right).alive = true) : left = right := by
  have few := workersOk.alive_le
  rw [one] at few
  have inside : ∀ id, (server.loops id).alive = true →
      id ∈ (Finset.range server.spawned).filter fun id => (server.loops id).alive = true := by
    intro id alive
    refine Finset.mem_filter.mpr ⟨Finset.mem_range.mpr (eventsOk.alive ?_), alive⟩
    intro absent
    rw [absent] at alive
    cases alive
  exact Finset.card_le_one.mp few left (inside left leftAlive) right (inside right rightAlive)

namespace PipelineServer

variable {trace events : List (ServerEvent Thread)} {start : Served World Effect} {world : World}
variable {state next : PipelineServer Thread World Effect}

section Runs

variable [DecidableEq Thread]

variable {guard : List (ServerEvent Thread) → Server Thread → ServerAction Thread → Prop}

theorem server_step
    (blind : ∀ trace server id answer other, guard trace server (.worker id answer) →
      guard trace server (.worker id other))
    (run : (serverMachine config Thread).Reaches guard trace state.server)
    {action : ServerAction Thread} (permitted : guard trace state.server action)
    (stepped : state.step config pipe contents action = some (next, events)) :
    (serverMachine config Thread).Reaches guard (trace ++ events) next.server := by
  cases action with
  | worker id answer =>
      obtain ⟨⟨server, shown⟩, ran, same⟩ := Option.map_eq_some_iff.mp stepped
      cases same
      exact .snoc run (blind _ _ _ _ _ permitted) ran
  | _ =>
      obtain ⟨⟨server, shown⟩, ran, same⟩ := Option.map_eq_some_iff.mp stepped
      cases same
      exact .snoc run permitted ran

theorem server_moves {action : ServerAction Thread}
    (stepped : state.step config pipe contents action = some (next, events)) :
    ∃ action, Server.Move config state.server action next.server events := by
  cases action with
  | _ =>
      obtain ⟨⟨server, shown⟩, ran, same⟩ := Option.map_eq_some_iff.mp stepped
      cases same
      exact ⟨_, (Server.step_move ran).2⟩

/-- A run with components is a run of the server with the same events. -/
theorem reaches_server
    (blind : ∀ trace server id answer other, guard trace server (.worker id answer) →
      guard trace server (.worker id other))
    (reached : (pipelineMachine config pipe contents world).Reaches
      (fun trace state => guard trace state.server) trace state) :
    (serverMachine { config with adapters := pipe.adapters.length } Thread).Reaches guard trace
      state.server := by
  refine reached.invariant (fun trace state => (serverMachine
    { config with adapters := pipe.adapters.length } Thread).Reaches guard trace state.server)
    .nil ?_
  exact fun _ _ _ _ _ run permitted stepped => server_step blind run permitted stepped

end Runs

/-! One worker. -/

structure TurnOk (pipe : Pipeline Event World Effect) (contents : Submission Thread → Event)
    (start : Served World Effect) (trace : List (ServerEvent Thread))
    (state : PipelineServer Thread World Effect) : Prop where
  fetched : HandedInTurn (poppedEvents trace) (beganEvents trace)
    fun id => (state.server.loops id).fetched
  processed : HandedInTurn (beganEvents trace) (returnedEvents trace)
    fun id => (state.server.loops id).processing
  serial : ∀ id, (∀ other, other ≠ id → (state.server.loops other).processing = none) →
    pipe.resume contents (state.server.loops id) (state.jobs id) state.served =
      processAll pipe contents (beganEvents trace) start

theorem TurnOk.initial : TurnOk pipe contents ⟨0, world, []⟩ [] (initial world) :=
  ⟨.initial, .initial, fun _ _ => rfl⟩

/-- What holds of every worker's call while its place and locals are kept or it has none. -/
theorem serial_frame {done : Served World Effect}
    (serial : ∀ id, (∀ other, other ≠ id → (state.server.loops other).processing = none) →
      pipe.resume contents (state.server.loops id) (state.jobs id) state.served = done)
    (processing : ∀ id, (next.server.loops id).processing = (state.server.loops id).processing)
    (kept : ∀ id, (state.server.loops id).processing ≠ none →
      next.server.loops id = state.server.loops id)
    (jobs : next.jobs = state.jobs) (served : next.served = state.served) (id : Nat)
    (others : ∀ other, other ≠ id → (next.server.loops other).processing = none) :
    pipe.resume contents (next.server.loops id) (next.jobs id) next.served = done := by
  have before := serial id fun other different => by rw [← processing, others other different]
  rw [jobs, served]
  by_cases idle : (state.server.loops id).processing = none
  · rw [resume_idle (by rw [processing, idle])]
    rwa [resume_idle idle] at before
  · rwa [kept id idle]

theorem TurnOk.pops (ok : TurnOk pipe contents start trace state) {id : Nat}
    {event : Submission Thread} (here : state.server.loops id = .tryPop)
    (loops : next.server.loops = Function.update state.server.loops id (.discount event))
    (jobs : next.jobs = state.jobs) (served : next.served = state.served) :
    TurnOk pipe contents start (trace ++ [.popped event]) next := by
  have processing : ∀ other, (next.server.loops other).processing =
      (state.server.loops other).processing := by
    rw [loops]
    exact reads_same LoopPc.processing (by rw [here]; rfl)
  constructor
  case fetched =>
    rw [Server.poppedEvents_append, Server.beganEvents_append, loops, reads_update]
    change HandedInTurn (poppedEvents trace ++ [event]) (beganEvents trace ++ []) _
    rw [List.append_nil]
    exact ok.fetched.takes (by rw [here]; rfl)
  case processed =>
    rw [Server.beganEvents_append, Server.returnedEvents_append, funext processing]
    change HandedInTurn (beganEvents trace ++ []) (returnedEvents trace ++ []) _
    rw [List.append_nil, List.append_nil]
    exact ok.processed
  case serial =>
    rw [Server.beganEvents_append]
    change ∀ id, _ → _ = processAll pipe contents (beganEvents trace ++ []) start
    rw [List.append_nil]
    refine serial_frame ok.serial processing (fun other busy => ?_) jobs served
    rw [loops, Function.update_of_ne]
    rintro rfl
    exact busy (by rw [here]; rfl)

theorem TurnOk.begins (ok : TurnOk pipe contents start trace state)
    (adapters : config.adapters = pipe.adapters.length) {id : Nat} {event : Submission Thread}
    (here : state.server.loops id = .inflightInc event)
    (alone : ∀ other, other ≠ id → (state.server.loops other).alive = false)
    (loops : next.server.loops =
      Function.update state.server.loops id (Server.decodeFrom config event 0))
    (jobs : next.jobs = Function.update state.jobs id .initial)
    (served : next.served = state.served) :
    TurnOk pipe contents start (trace ++ [.processBegan event]) next := by
  obtain ⟨inside, fetched⟩ := Server.decodeFrom_processing config event 0
  constructor
  case fetched =>
    rw [Server.poppedEvents_append, Server.beganEvents_append, loops, reads_update, fetched]
    change HandedInTurn (poppedEvents trace ++ []) (beganEvents trace ++ [event]) _
    rw [List.append_nil]
    refine ok.fetched.finishes (by rw [here]; rfl) fun other different => ?_
    by_contra has
    exact absurd (LoopPc.alive_of_fetched has) (by simp [alone other different])
  case processed =>
    rw [Server.beganEvents_append, Server.returnedEvents_append, loops, reads_update, inside]
    change HandedInTurn (beganEvents trace ++ [event]) (returnedEvents trace ++ []) _
    rw [List.append_nil]
    exact ok.processed.takes (by rw [here]; rfl)
  case serial =>
    intro last others
    have idle : ∀ other, other ≠ id → (state.server.loops other).processing = none := by
      intro other different
      by_contra has
      exact absurd (LoopPc.alive_of_processing has) (by simp [alone other different])
    have before := ok.serial id idle
    rw [here] at before
    have mine : last = id := by
      by_contra different
      have none := others id fun equal => different equal.symm
      rw [loops, Function.update_self, inside] at none
      cases none
    subst mine
    rw [Server.beganEvents_append]
    change _ = processAll pipe contents (beganEvents trace ++ [event]) start
    rw [processAll_concat, ← before, loops, jobs, Function.update_self, Function.update_self, served,
      resume_begin adapters]
    rfl

theorem TurnOk.works (ok : TurnOk pipe contents start trace state)
    (adapters : config.adapters = pipe.adapters.length) {id : Nat} {event : Submission Thread}
    (inside : (state.server.loops id).processing = some event)
    (alone : ∀ other, other ≠ id → (state.server.loops other).alive = false)
    {done : Work Thread World Effect}
    (worked : done = work pipe contents (state.server.loops id) (state.jobs id) state.world)
    (loops : next.server.loops = Function.update state.server.loops id
      ((state.server.loops id).after config done.answer))
    (jobs : next.jobs = Function.update state.jobs id done.job)
    (served : next.served = state.served.extend (state.server.loops id) done)
    (popped : poppedEvents events = []) (began : beganEvents events = [])
    (ends : ((state.server.loops id).after config done.answer).processing ≠ none ∧
        returnedEvents events = [] ∨
      (state.server.loops id).after config done.answer = .inflightDec ∧
        returnedEvents events = [event]) :
    TurnOk pipe contents start (trace ++ events) next := by
  have idle : ∀ other, other ≠ id → (state.server.loops other).processing = none := by
    intro other different
    by_contra has
    exact absurd (LoopPc.alive_of_processing has) (by simp [alone other different])
  have after := LoopPc.after_processing config done.answer inside
  have fetched : ∀ other, (next.server.loops other).fetched =
      (state.server.loops other).fetched := by
    rw [loops]
    refine reads_same LoopPc.fetched ?_
    have mine : (state.server.loops id).fetched = none := by
      cases pc : state.server.loops id <;> simp_all [LoopPc.processing, LoopPc.fetched]
    rcases after with ⟨_, none⟩ | same
    · rw [none, mine]
    · rw [same, mine]
      rfl
  constructor
  case fetched =>
    rw [Server.poppedEvents_append, Server.beganEvents_append, popped, began, List.append_nil,
      List.append_nil, funext fetched]
    exact ok.fetched
  case processed =>
    rw [Server.beganEvents_append, Server.returnedEvents_append, began, List.append_nil, loops]
    rcases ends with ⟨stays, returned⟩ | ⟨leaves, returned⟩
    · have same := (after.resolve_right fun leaves => stays (by rw [leaves]; rfl)).1
      rw [returned, List.append_nil, funext (reads_same LoopPc.processing (same.trans inside.symm))]
      exact ok.processed
    · rw [returned, reads_update, leaves]
      exact ok.processed.finishes inside idle
  case serial =>
    rw [Server.beganEvents_append, began, List.append_nil]
    have mine : pipe.resume contents (next.server.loops id) (next.jobs id) next.served =
        processAll pipe contents (beganEvents trace) start := by
      rw [← ok.serial id idle, loops, jobs, Function.update_self, Function.update_self, served, worked]
      have busy : (state.server.loops id).processing ≠ none := by simp [inside]
      exact resume_work adapters busy (state.jobs id) state.served
    intro last others
    by_cases same : last = id
    · rwa [same]
    · have free := others id fun equal => same equal.symm
      rw [resume_idle free] at mine
      rw [resume_idle, mine]
      rw [loops, Function.update_of_ne same, idle last same]

theorem TurnOk.step (ok : TurnOk pipe contents start trace state)
    (adapters : config.adapters = pipe.adapters.length)
    (alone : ∀ left right, (state.server.loops left).alive = true →
      (state.server.loops right).alive = true → left = right)
    (acts : Acts config pipe contents state next events) :
    TurnOk pipe contents start (trace ++ events) next := by
  have only : ∀ id, (state.server.loops id).alive = true →
      ∀ other, other ≠ id → (state.server.loops other).alive = false := by
    intro id alive other different
    by_contra living
    exact different (alone other id (by simpa using living) alive)
  cases acts with
  | pops here shown loops jobs log served =>
      subst shown
      exact ok.pops here loops jobs served
  | begins here shown loops jobs log served =>
      subst shown
      exact ok.begins adapters here (only _ (by rw [here]; rfl)) loops jobs served
  | works inside done worked loops jobs log served popped began ends =>
      exact ok.works adapters inside (only _ (LoopPc.alive_of_processing (by simp [inside]))) worked
        loops jobs served popped began ends
  | rests outside jobs log served =>
      constructor
      case fetched =>
        rw [Server.poppedEvents_append, Server.beganEvents_append, outside.popped, outside.began,
          List.append_nil, List.append_nil, funext outside.fetched]
        exact ok.fetched
      case processed =>
        rw [Server.beganEvents_append, Server.returnedEvents_append, outside.began,
          outside.returned, List.append_nil, List.append_nil, funext outside.processing]
        exact ok.processed
      case serial =>
        rw [Server.beganEvents_append, outside.began, List.append_nil]
        exact serial_frame ok.serial outside.processing outside.kept jobs served

/-- The components and the hooks of a server with one worker have seen the events one after
the other, in the order of their pushes. -/
structure ServedInTurn (pipe : Pipeline Event World Effect)
    (contents : Submission Thread → Event) (start : Served World Effect)
    (trace : List (ServerEvent Thread)) (state : PipelineServer Thread World Effect) : Prop where
  order : returnedEvents trace <+: pushedEvents trace
  between : (∀ id, (state.server.loops id).processing = none) →
    state.served = processAll pipe contents (returnedEvents trace) start
  /-- Inside a call, its rest completes the sequence. -/
  within : ∀ id event, (state.server.loops id).processing = some event →
    pipe.resume contents (state.server.loops id) (state.jobs id) state.served =
      processAll pipe contents (returnedEvents trace ++ [event]) start
  /-- With an empty queue and every worker between two events, all pushed events are served. -/
  all : state.server.queue = [] → (∀ id, (state.server.loops id).processing = none ∧
      (state.server.loops id).fetched = none) →
    state.served = processAll pipe contents (pushedEvents trace) start

theorem TurnOk.in_turn (ok : TurnOk pipe contents start trace state)
    (events : Server.EventsOk trace state.server)
    (alone : ∀ left right, (state.server.loops left).alive = true →
      (state.server.loops right).alive = true → left = right) :
    ServedInTurn pipe contents start trace state := by
  obtain ⟨id, only⟩ : ∃ id, ∀ other, other ≠ id → (state.server.loops other).alive = false := by
    by_cases living : ∃ id, (state.server.loops id).alive = true
    · obtain ⟨id, alive⟩ := living
      exact ⟨id, fun other different => by
        by_contra also
        exact different (alone other id (by simpa using also) alive)⟩
    · exact ⟨0, fun other _ => by
        by_contra also
        exact living ⟨other, by simpa using also⟩⟩
  have idle : ∀ other, other ≠ id → (state.server.loops other).processing = none ∧
      (state.server.loops other).fetched = none := by
    intro other different
    constructor
    · by_contra has
      exact absurd (LoopPc.alive_of_processing has) (by simp [only other different])
    · by_contra has
      exact absurd (LoopPc.alive_of_fetched has) (by simp [only other different])
  have began : beganEvents trace =
      returnedEvents trace ++ (state.server.loops id).processing.toList :=
    ok.processed id fun other different => (idle other different).1
  have popped : poppedEvents trace =
      beganEvents trace ++ (state.server.loops id).fetched.toList :=
    ok.fetched id fun other different => (idle other different).2
  have pushed : pushedEvents trace = poppedEvents trace ++ state.server.queue :=
    events.events.order
  have serial := ok.serial id fun other different => (idle other different).1
  constructor
  case order =>
    rw [pushed, popped, began, List.append_assoc, List.append_assoc]
    exact ⟨_, rfl⟩
  case between =>
    intro free
    rwa [resume_idle (free id), began, free id, Option.toList_none, List.append_nil] at serial
  case within =>
    intro busy event inside
    have same : busy = id := by
      by_contra different
      rw [(idle busy different).1] at inside
      cases inside
    subst same
    rw [serial, began, inside]
    rfl
  case all =>
    intro empty free
    rw [resume_idle (free id).1] at serial
    rw [serial, pushed, popped, empty, (free id).2, Option.toList_none, List.append_nil,
      List.append_nil]

variable [DecidableEq Thread]

theorem turn_ok (one : config.workerCount ≤ 1)
    (reached : (pipelineMachine config pipe contents world).Reaches
      (fun trace state => Server.waitsApart trace state.server) trace state) :
    TurnOk pipe contents ⟨0, world, []⟩ trace state := by
  suffices both : (serverMachine { config with adapters := pipe.adapters.length } Thread).Reaches
      Server.waitsApart trace state.server ∧ TurnOk pipe contents ⟨0, world, []⟩ trace state from
    both.2
  refine reached.invariant (fun trace state => (serverMachine
    { config with adapters := pipe.adapters.length } Thread).Reaches Server.waitsApart trace
      state.server ∧ TurnOk pipe contents ⟨0, world, []⟩ trace state) ⟨.nil, .initial⟩ ?_
  rintro trace state action next events ⟨run, ok⟩ permitted stepped
  obtain ⟨eventsOk, workersOk⟩ := Server.workers_ok run
  have acts := step_acts eventsOk stepped
  refine ⟨server_step (fun _ _ _ _ _ _ => trivial) run permitted stepped, ok.step rfl ?_ acts⟩
  exact Server.alone_of_one eventsOk workersOk (config.workerTotal_one one)

/-- While no `wait` overlaps a `start`, over any number of them, a server with one worker
serves its events in turn. -/
theorem one_worker_in_turn (one : config.workerCount ≤ 1)
    (reached : (pipelineMachine config pipe contents world).Reaches
      (fun trace state => Server.waitsApart trace state.server) trace state) :
    ServedInTurn pipe contents ⟨0, world, []⟩ trace state := by
  have run := reaches_server (fun _ _ _ _ _ _ => trivial) reached
  obtain ⟨events, workers⟩ := Server.workers_ok run
  exact (turn_ok one reached).in_turn events
    (Server.alone_of_one events workers (config.workerTotal_one one))

def samplePipeline : Pipeline Nat (List String) String where
  adapters := [fun _ _ world => (false, "unknown", world),
    fun ev _ world => (true, if ev = 0 then "select" else "", world)]
  parse := fun input cmd world =>
    if input = "" then (false, cmd, world) else (true, .select ⟨input, []⟩, world)
  execute := fun _ res world => (true, { res with ok := true, message := "rows" }, world)
  distribute := fun res world => world ++ [res.message]
  hooks := ⟨none, none, none, none, some id, some id⟩

def sampleContents (event : Submission Bool) : Nat := event.call

def submitTwice : List (ServerAction Bool) :=
  [ServerAction.trySubmit true] ++ List.replicate 6 (ServerAction.caller true 0) ++
    [ServerAction.trySubmit true] ++ List.replicate 6 (ServerAction.caller true 0)

def turnSchedule : List (ServerAction Bool) :=
  [ServerAction.start false] ++ List.replicate 4 (ServerAction.caller false 0) ++ submitTwice ++
    List.replicate 17 (ServerAction.worker 0 true)

theorem turnSchedule_runs :
    ((pipelineMachine Server.sampleConfig samplePipeline sampleContents []).exec
      (fun trace state => Server.waitsApart trace state.server) []
      (pipelineMachine Server.sampleConfig samplePipeline sampleContents []).start
      turnSchedule).isSome = true := by
  decide +kernel

theorem one_worker_in_turn_sample :
    let trace := (Option.get _ turnSchedule_runs).1
    let state := (Option.get _ turnSchedule_runs).2
    ServedInTurn samplePipeline sampleContents ⟨0, [], []⟩ trace state ∧
      pushedEvents trace = [⟨true, 0⟩, ⟨true, 1⟩] ∧ state.world = ["rows"] ∧
      state.log = [(⟨true, 0⟩, "result distributed"), (⟨true, 1⟩, "parse failed")] :=
  ⟨one_worker_in_turn (by decide) (EventMachine.reaches_of_isSome turnSchedule_runs),
    by decide +kernel, by decide +kernel, by decide +kernel⟩

/-! Any number of workers. -/

def KeepsNothing {Out : Type} (call : World → Bool × Out × World) : Prop :=
  ∃ answer out, ∀ world, call world = (answer, out, world)

structure Stateless (pipe : Pipeline Event World Effect) : Prop where
  adapters : ∀ decodeView ∈ pipe.adapters, ∀ ev out, KeepsNothing (decodeView ev out)
  parse : ∀ input cmd, KeepsNothing (pipe.parse input cmd)
  execute : ∀ cmd res, KeepsNothing (pipe.execute cmd res)

def deliver (pipe : Pipeline Event World Effect) (job : Job) : LoopPc Thread → World → World
  | .distribute _ => pipe.distribute job.res
  | _ => id

omit [DecidableEq Thread] in
theorem logHook_own (event : Submission Thread) (hook : Option (String → Effect)) (text : String) :
    ∀ entry ∈ logHook event hook text, entry.1 = event := by
  intro entry inside
  obtain ⟨_, _, rfl⟩ := List.mem_map.mp inside
  rfl

omit [DecidableEq Thread] in
theorem work_stateless (contents : Submission Thread → Event) (stateless : Stateless pipe)
    {pc : LoopPc Thread} {event : Submission Thread} (inside : pc.processing = some event)
    (job : Job) :
    ∃ answer after log, (∀ entry ∈ log, entry.1 = event) ∧
      ∀ world, work pipe contents pc job world = ⟨answer, after, deliver pipe job pc world, log⟩ := by
  cases pc with
  | decode other adapter =>
      cases inside
      rcases here : pipe.adapters[adapter]? with _ | decodeView
      · exact ⟨_, _, _, List.forall_mem_nil _, fun world => by simp only [work, here]; rfl⟩
      · have listed : decodeView ∈ pipe.adapters := List.mem_of_getElem? here
        obtain ⟨_ | _, out, same⟩ := stateless.adapters _ listed (contents event) job.rawInput
        · exact ⟨_, _, _, List.forall_mem_nil _, fun world => by simp only [work, here, same]; rfl⟩
        · exact ⟨_, _, _, logHook_own _ _ _, fun world => by simp only [work, here, same]; rfl⟩
  | parse other =>
      cases inside
      obtain ⟨_ | _, out, same⟩ := stateless.parse job.rawInput job.cmd
      · exact ⟨_, _, _, List.forall_mem_nil _, fun world => by simp only [work, same]; rfl⟩
      · exact ⟨_, _, _, logHook_own _ _ _, fun world => by simp only [work, same]; rfl⟩
  | execute other =>
      cases inside
      obtain ⟨_ | _, out, same⟩ := stateless.execute job.cmd job.res
      · exact ⟨_, _, _, List.forall_mem_nil _, fun world => by simp only [work, same]; rfl⟩
      · exact ⟨_, _, _, logHook_own _ _ _, fun world => by simp only [work, same]; rfl⟩
  | distribute other | countError other =>
      cases inside
      exact ⟨_, _, _, logHook_own _ _ _, fun world => rfl⟩
  | _ => cases inside

omit [DecidableEq Thread] in
/-- Only the last step of a call counts an error or distributes. -/
theorem stays_quiet (pipe : Pipeline Event World Effect) {pc : LoopPc Thread} {answer : Bool}
    (stays : (pc.after config answer).processing ≠ none) (inside : pc.processing ≠ none)
    (job : Job) (world : World) (error : UInt64) :
    deliver pipe job pc world = world ∧ pc.charge error = error := by
  cases pc with
  | distribute | countError => exact absurd rfl stays
  | decode | parse | execute => exact ⟨rfl, rfl⟩
  | _ => exact absurd rfl inside

def effectsOf (event : Submission Thread) (log : List (Submission Thread × Effect)) :
    List Effect :=
  (log.filter fun entry => entry.1 = event).map Prod.snd

theorem effectsOf_append (event : Submission Thread)
    (log more : List (Submission Thread × Effect)) :
    effectsOf event (log ++ more) = effectsOf event log ++ effectsOf event more := by
  simp [effectsOf]

theorem effectsOf_own {event : Submission Thread} {log : List (Submission Thread × Effect)}
    (own : ∀ entry ∈ log, entry.1 = event) : effectsOf event log = log.map Prod.snd := by
  rw [effectsOf, List.filter_eq_self.mpr]
  simpa using own

theorem effectsOf_other {event other : Submission Thread}
    {log : List (Submission Thread × Effect)} (own : ∀ entry ∈ log, entry.1 = event)
    (different : other ≠ event) : effectsOf other log = [] := by
  rw [effectsOf, List.filter_eq_nil_iff.mpr, List.map_nil]
  intro entry inside
  simpa [own entry inside] using different.symm

/-- Every call has so far done what `processEvent` does by itself, whatever was done before. -/
structure FateOk (pipe : Pipeline Event World Effect) (contents : Submission Thread → Event)
    (start : Served World Effect) (trace : List (ServerEvent Thread))
    (state : PipelineServer Thread World Effect) : Prop where
  untouched : ∀ event, event ∉ beganEvents trace → effectsOf event state.log = []
  inside : ∀ id event, (state.server.loops id).processing = some event → ∀ served,
    processEvent pipe (contents event) served =
      pipe.resume contents (state.server.loops id) (state.jobs id)
        { served with effects := served.effects ++ effectsOf event state.log }
  done : ∀ event ∈ returnedEvents trace, ∀ served,
    (processEvent pipe (contents event) served).effects =
      served.effects ++ effectsOf event state.log
  world : state.world = (processAll pipe contents (returnedEvents trace) start).world
  error : state.server.metrics.error =
    (processAll pipe contents (returnedEvents trace) start).error

theorem FateOk.initial : FateOk pipe contents ⟨0, world, []⟩ [] (initial world) where
  untouched := fun _ _ => rfl
  inside := fun _ _ inside => by cases inside
  done := fun _ inside => by cases inside
  world := rfl
  error := rfl

theorem FateOk.frame (ok : FateOk pipe contents start trace state)
    (kept : ∀ id, (next.server.loops id).processing ≠ none →
      next.server.loops id = state.server.loops id)
    (jobs : next.jobs = state.jobs) (log : next.log = state.log)
    (served : next.served = state.served) (began : beganEvents events = [])
    (returned : returnedEvents events = []) : FateOk pipe contents start (trace ++ events) next where
  untouched := by
    rw [Server.beganEvents_append, began, List.append_nil, log]
    exact ok.untouched
  inside := by
    intro id event inside
    have same := kept id (by simp [inside])
    rw [same] at inside ⊢
    rw [jobs, log]
    exact ok.inside id event inside
  done := by
    rw [Server.returnedEvents_append, returned, List.append_nil, log]
    exact ok.done
  world := by
    rw [Server.returnedEvents_append, returned, List.append_nil]
    exact (congrArg Served.world served).trans ok.world
  error := by
    rw [Server.returnedEvents_append, returned, List.append_nil]
    exact (congrArg Served.error served).trans ok.error

theorem FateOk.begins (ok : FateOk pipe contents start trace state)
    (adapters : config.adapters = pipe.adapters.length) {id : Nat} {event : Submission Thread}
    (fresh : event ∉ beganEvents trace)
    (loops : next.server.loops =
      Function.update state.server.loops id (Server.decodeFrom config event 0))
    (jobs : next.jobs = Function.update state.jobs id .initial) (log : next.log = state.log)
    (served : next.served = state.served) :
    FateOk pipe contents start (trace ++ [.processBegan event]) next := by
  constructor
  case untouched =>
    intro other outside
    rw [Server.beganEvents_append, List.mem_append, not_or] at outside
    rw [log]
    exact ok.untouched other outside.1
  case inside =>
    intro worker other inside served
    rw [log, loops, jobs]
    rw [loops] at inside
    by_cases same : worker = id
    · subst same
      rw [Function.update_self, (Server.decodeFrom_processing config event 0).1] at inside
      cases inside
      rw [Function.update_self, Function.update_self, resume_begin adapters,
        ok.untouched event fresh, List.append_nil]
    · rw [Function.update_of_ne same] at inside
      rw [Function.update_of_ne same, Function.update_of_ne same]
      exact ok.inside worker other inside served
  case done =>
    rw [Server.returnedEvents_append, log]
    change ∀ event ∈ returnedEvents trace ++ [], _
    rw [List.append_nil]
    exact ok.done
  case world =>
    rw [Server.returnedEvents_append]
    change _ = (processAll pipe contents (returnedEvents trace ++ []) start).world
    rw [List.append_nil]
    exact (congrArg Served.world served).trans ok.world
  case error =>
    rw [Server.returnedEvents_append]
    change _ = (processAll pipe contents (returnedEvents trace ++ []) start).error
    rw [List.append_nil]
    exact (congrArg Served.error served).trans ok.error

theorem FateOk.works (ok : FateOk pipe contents start trace state) (stateless : Stateless pipe)
    (adapters : config.adapters = pipe.adapters.length)
    (processed : Handover (beganEvents trace) (returnedEvents trace)
      fun id => (state.server.loops id).processing) {id : Nat} {event : Submission Thread}
    (inside : (state.server.loops id).processing = some event)
    {done : Work Thread World Effect}
    (worked : done = work pipe contents (state.server.loops id) (state.jobs id) state.world)
    (loops : next.server.loops = Function.update state.server.loops id
      ((state.server.loops id).after config done.answer))
    (jobs : next.jobs = Function.update state.jobs id done.job)
    (log : next.log = state.log ++ done.log)
    (served : next.served = state.served.extend (state.server.loops id) done)
    (began : beganEvents events = [])
    (ends : ((state.server.loops id).after config done.answer).processing ≠ none ∧
        returnedEvents events = [] ∨
      (state.server.loops id).after config done.answer = .inflightDec ∧
        returnedEvents events = [event]) :
    FateOk pipe contents start (trace ++ events) next := by
  have busy : (state.server.loops id).processing ≠ none := by simp [inside]
  obtain ⟨answer, after, entries, own, works⟩ :=
    work_stateless contents stateless inside (state.jobs id)
  rw [works] at worked
  subst worked
  -- The step as one of `processEvent`, on whatever was served before.
  have advances : ∀ other : Served World Effect, processEvent pipe (contents event) other =
      pipe.resume contents ((state.server.loops id).after config answer) after
        ⟨(state.server.loops id).charge other.error,
          deliver pipe (state.jobs id) (state.server.loops id) other.world,
          other.effects ++ effectsOf event next.log⟩ := by
    intro other
    rw [ok.inside id event inside other, ← resume_work adapters busy, works, log, effectsOf_append,
      effectsOf_own own, ← List.append_assoc]
    rfl
  have others : ∀ other, other ≠ event → effectsOf other next.log = effectsOf other state.log := by
    intro other different
    rw [log, effectsOf_append, effectsOf_other own different, List.append_nil]
  have worldNow : next.world = deliver pipe (state.jobs id) (state.server.loops id) state.world :=
    congrArg Served.world served
  have errorNow : next.server.metrics.error =
      (state.server.loops id).charge state.server.metrics.error := congrArg Served.error served
  constructor
  case untouched =>
    intro other outside
    rw [Server.beganEvents_append, began, List.append_nil] at outside
    have different : other ≠ event := by
      rintro rfl
      exact outside (processed.taken id other inside)
    rw [others other different]
    exact ok.untouched other outside
  case inside =>
    intro worker other now before
    rw [loops] at now ⊢
    rw [jobs]
    by_cases same : worker = id
    · subst same
      rw [Function.update_self] at now ⊢
      rw [Function.update_self]
      have stays : ((state.server.loops worker).after config answer).processing ≠ none := by
        simp [now]
      have mine : other = event := by
        rcases LoopPc.after_processing config answer inside with ⟨still, _⟩ | leaves
        · exact Option.some.inj (now.symm.trans still)
        · exact absurd (by rw [leaves]; rfl) stays
      obtain ⟨still, free⟩ := stays_quiet pipe stays busy (state.jobs worker) before.world before.error
      rw [mine, advances before, still, free]
    · rw [Function.update_of_ne same] at now ⊢
      rw [Function.update_of_ne same]
      have different : other ≠ event := by
        rintro rfl
        exact same (processed.once worker id other now inside)
      rw [others other different]
      exact ok.inside worker other now before
  case done =>
    rw [Server.returnedEvents_append]
    intro other finished before
    have old : other ∈ returnedEvents trace → (processEvent pipe (contents other) before).effects =
        before.effects ++ effectsOf other next.log := by
      intro earlier
      have different : other ≠ event := by
        rintro rfl
        exact processed.not_done inside earlier
      rw [others other different]
      exact ok.done other earlier before
    rcases ends with ⟨_, returned⟩ | ⟨leaves, returned⟩
    · rw [returned, List.append_nil] at finished
      exact old finished
    · rw [returned, List.mem_append, List.mem_singleton] at finished
      rcases finished with earlier | rfl
      · exact old earlier
      · rw [advances before, leaves]
        rfl
  case world =>
    rw [Server.returnedEvents_append, worldNow, ok.world]
    rcases ends with ⟨stays, returned⟩ | ⟨leaves, returned⟩
    · rw [returned, List.append_nil]
      exact (stays_quiet pipe stays busy (state.jobs id) _ 0).1
    · rw [returned, processAll_concat, advances, leaves]
      rfl
  case error =>
    rw [Server.returnedEvents_append, errorNow, ok.error]
    rcases ends with ⟨stays, returned⟩ | ⟨leaves, returned⟩
    · rw [returned, List.append_nil]
      exact (stays_quiet pipe stays busy (state.jobs id) state.world _).2
    · rw [returned, processAll_concat, advances, leaves]
      rfl

theorem FateOk.step (ok : FateOk pipe contents start trace state) (stateless : Stateless pipe)
    (adapters : config.adapters = pipe.adapters.length)
    (processing : Server.ProcessingOk trace state.server)
    (acts : Acts config pipe contents state next events) :
    FateOk pipe contents start (trace ++ events) next := by
  cases acts with
  | @pops id event here shown loops jobs log served =>
      subst shown
      refine ok.frame (fun other busy => ?_) jobs log served rfl rfl
      rw [loops] at busy ⊢
      rw [Function.update_of_ne]
      rintro rfl
      rw [Function.update_self] at busy
      exact busy rfl
  | @begins id event here shown loops jobs log served =>
      subst shown
      have fetched : (state.server.loops id).fetched = some event := by
        rw [here]
        rfl
      exact ok.begins adapters (processing.fetched.not_done fetched) loops jobs log served
  | works inside done worked loops jobs log served popped began ends =>
      exact ok.works stateless adapters processing.processed inside worked loops jobs log served
        began ends
  | rests outside jobs log served =>
      refine ok.frame (fun other busy => outside.kept other ?_) jobs log served outside.began
        outside.returned
      rwa [outside.processing] at busy

omit [DecidableEq Thread] in
/-- The rest of a call only adds to what the hooks have done. -/
theorem resume_extends (pc : LoopPc Thread) (job : Job) (served : Served World Effect) :
    served.effects <+: (pipe.resume contents pc job served).effects := by
  have fails : ∀ failure (served : Served World Effect),
      served.effects <+: (pipe.fail failure served).effects :=
    fun _ _ => List.prefix_append _ _
  have distributes : ∀ res (served : Served World Effect),
      served.effects <+: (pipe.fromDistribute res served).effects :=
    fun _ _ => List.prefix_append _ _
  have executes : ∀ cmd res (served : Served World Effect),
      served.effects <+: (pipe.fromExecute cmd res served).effects := by
    intro cmd res served
    unfold Pipeline.fromExecute
    split
    · apply fails
    · apply List.IsPrefix.trans _ (distributes _ _)
      apply List.prefix_append
  have parses : ∀ rawInput cmd (served : Served World Effect),
      served.effects <+: (pipe.fromParse rawInput cmd served).effects := by
    intro rawInput cmd served
    unfold Pipeline.fromParse
    split
    · apply fails
    · apply List.IsPrefix.trans _ (executes _ _ _)
      apply List.prefix_append
  cases pc with
  | decode event adapter =>
      change _ <+: (pipe.fromDecode _ _ _ _).effects
      unfold Pipeline.fromDecode
      split
      · apply fails
      · apply List.IsPrefix.trans _ (parses _ _ _)
        apply List.prefix_append
  | parse => apply parses
  | execute => apply executes
  | distribute => apply distributes
  | countError => apply fails
  | _ => exact List.prefix_rfl

omit [DecidableEq Thread] in
theorem processEvent_extends (event : Submission Thread) (served : Served World Effect) :
    served.effects <+: (processEvent pipe (contents event) served).effects := by
  have whole : processEvent pipe (contents event) served =
      pipe.resume contents (.decode event 0) .initial served := pipe.processEvent_eq _ _
  rw [whole]
  apply resume_extends

/-- The server has done what `processEvent` does to its events one after the other, in the
order in which their processing ended; of an event in progress, a part. -/
structure Serialized (pipe : Pipeline Event World Effect) (contents : Submission Thread → Event)
    (start : Served World Effect) (trace : List (ServerEvent Thread))
    (state : PipelineServer Thread World Effect) : Prop where
  once : (returnedEvents trace).Nodup ∧ ∀ event ∈ returnedEvents trace, event ∈ pushedEvents trace
  world : state.world = (processAll pipe contents (returnedEvents trace) start).world
  error : state.server.metrics.error =
    (processAll pipe contents (returnedEvents trace) start).error
  whole : ∀ event ∈ returnedEvents trace, ∀ served,
    (processEvent pipe (contents event) served).effects =
      served.effects ++ effectsOf event state.log
  part : ∀ event served, served.effects ++ effectsOf event state.log <+:
    (processEvent pipe (contents event) served).effects

theorem workers_serialize (stateless : Stateless pipe)
    (reached : (pipelineMachine config pipe contents world).Reaches EventMachine.anyAction
      trace state) : Serialized pipe contents ⟨0, world, []⟩ trace state := by
  obtain ⟨events, processing, fate⟩ : Server.EventsOk trace state.server ∧
      Server.ProcessingOk trace state.server ∧ FateOk pipe contents ⟨0, world, []⟩ trace state := by
    refine reached.invariant (fun trace state => Server.EventsOk trace state.server ∧
      Server.ProcessingOk trace state.server ∧ FateOk pipe contents ⟨0, world, []⟩ trace state)
      ⟨.initial, .initial, .initial⟩ ?_
    rintro trace state action next events ⟨eventsOk, processing, ok⟩ _ stepped
    obtain ⟨ran, moved⟩ := server_moves stepped
    exact ⟨eventsOk.step moved, processing.step eventsOk moved,
      ok.step stateless rfl processing (step_acts eventsOk stepped)⟩
  have began : ∀ event ∈ returnedEvents trace, event ∈ beganEvents trace :=
    fun event done => ((processing.processed.finished event).mp done).1
  constructor
  case once =>
    refine ⟨processing.processed.nodup, fun event done => ?_⟩
    have popped := ((processing.fetched.finished event).mp (began event done)).1
    exact events.events.popped_pushed popped
  case world => exact fate.world
  case error => exact fate.error
  case whole => exact fate.done
  case part =>
    intro event served
    by_cases done : event ∈ returnedEvents trace
    · rw [fate.done event done]
    by_cases entered : event ∈ beganEvents trace
    · have holds : ¬∀ id, (state.server.loops id).processing ≠ some event :=
        fun free => done ((processing.processed.finished event).mpr ⟨entered, free⟩)
      obtain ⟨id, inside⟩ : ∃ id, (state.server.loops id).processing = some event := by
        simpa using holds
      rw [fate.inside id event inside]
      exact resume_extends _ _ ⟨_, _, served.effects ++ effectsOf event state.log⟩
    · rw [fate.untouched event entered, List.append_nil]
      apply processEvent_extends

theorem samplePipeline_stateless : Stateless samplePipeline where
  adapters := by
    intro decodeView listed ev out
    simp only [samplePipeline, List.mem_cons, List.not_mem_nil, or_false] at listed
    rcases listed with rfl | rfl
    · exact ⟨_, _, fun _ => rfl⟩
    · exact ⟨_, _, fun _ => rfl⟩
  parse := by
    intro input cmd
    by_cases empty : input = ""
    · exact ⟨false, cmd, fun _ => if_pos empty⟩
    · exact ⟨true, _, fun _ => if_neg empty⟩
  execute := fun _ _ => ⟨_, _, fun _ => rfl⟩

def overtakingSchedule : List (ServerAction Bool) :=
  [ServerAction.start false] ++ List.replicate 5 (ServerAction.caller false 0) ++ submitTwice ++
    List.replicate 5 (ServerAction.worker 0 true) ++ List.replicate 8 (ServerAction.worker 1 true) ++
    List.replicate 4 (ServerAction.worker 0 true)

theorem overtakingSchedule_runs :
    ((pipelineMachine { Server.sampleConfig with workerCount := 2 } samplePipeline
        sampleContents []).exec EventMachine.anyAction []
      (pipelineMachine { Server.sampleConfig with workerCount := 2 } samplePipeline
        sampleContents []).start overtakingSchedule).isSome = true := by
  decide +kernel

theorem workers_serialize_sample :
    let trace := (Option.get _ overtakingSchedule_runs).1
    let state := (Option.get _ overtakingSchedule_runs).2
    Serialized samplePipeline sampleContents ⟨0, [], []⟩ trace state ∧
      returnedEvents trace = [⟨true, 1⟩, ⟨true, 0⟩] ∧ state.server.metrics.error = 1 :=
  ⟨workers_serialize samplePipeline_stateless
      (EventMachine.reaches_of_isSome overtakingSchedule_runs),
    by decide +kernel, by decide +kernel⟩

end PipelineServer

end MyServer
