import MyServer.ServerMetrics
import MyServer.ServerPipelineCore

/-!
What is left of `processEvent` at each place of a worker, and what a step of the server with
its components can be.
-/

namespace MyServer

variable {Event World Effect Thread : Type} {pipe : Pipeline Event World Effect}
variable {contents : Submission Thread → Event} {config : ServerConfig}

/-! The rest of `processEvent` from each of its calls. -/

namespace Pipeline

variable (pipe : Pipeline Event World Effect)

def fail (failure : String) (served : Served World Effect) : Served World Effect :=
  (served.onError).hook pipe.hooks.onError failure

def fromDistribute (res : Result) (served : Served World Effect) : Served World Effect :=
  { served with world := pipe.distribute res served.world }.hook pipe.hooks.onDistributed
    "result distributed"

def fromExecute (cmd : Command) (res : Result) (served : Served World Effect) :
    Served World Effect :=
  match pipe.execute cmd res served.world with
  | (false, _, world) => pipe.fail "execution failed" { served with world }
  | (true, res, world) =>
      pipe.fromDistribute res ({ served with world }.hook pipe.hooks.onResultReady res.message)

def fromParse (rawInput : String) (cmd : Command) (served : Served World Effect) :
    Served World Effect :=
  match pipe.parse rawInput cmd served.world with
  | (false, _, world) => pipe.fail "parse failed" { served with world }
  | (true, cmd, world) =>
      pipe.fromExecute cmd .initial
        ({ served with world }.hook pipe.hooks.onCommandBuilt "command built")

def fromDecode (adapters : List (Event → String → World → Bool × String × World)) (ev : Event)
    (out : String) (served : Served World Effect) : Served World Effect :=
  match decodeEventImpl adapters ev out served.world with
  | (false, _, world) => pipe.fail "decode failed" { served with world }
  | (true, rawInput, world) =>
      pipe.fromParse rawInput .initial
        ({ served with world }.hook pipe.hooks.onRawInput rawInput)

theorem processEvent_eq (ev : Event) (served : Served World Effect) :
    processEvent pipe ev served = pipe.fromDecode pipe.adapters ev "" served := by
  unfold processEvent fromDecode
  rcases decodeEventImpl pipe.adapters ev "" served.world with ⟨_ | _, rawInput, world⟩
  · rfl
  simp only [fromParse]
  rcases pipe.parse rawInput .initial _ with ⟨_ | _, cmd, world⟩
  · rfl
  simp only [fromExecute]
  rcases pipe.execute cmd .initial _ with ⟨_ | _, res, world⟩ <;> rfl

def resume (contents : Submission Thread → Event) (pc : LoopPc Thread) (job : Job)
    (served : Served World Effect) : Served World Effect :=
  match pc with
  | .decode event adapter =>
      pipe.fromDecode (pipe.adapters.drop adapter) (contents event) job.rawInput served
  | .parse _ => pipe.fromParse job.rawInput job.cmd served
  | .execute _ => pipe.fromExecute job.cmd job.res served
  | .distribute _ => pipe.fromDistribute job.res served
  | .countError _ => pipe.fail job.failure served
  | _ => served

end Pipeline

def LoopPc.after (config : ServerConfig) (answer : Bool) : LoopPc Thread → LoopPc Thread
  | .decode event adapter =>
      if answer then .parse event else Server.decodeFrom config event (adapter + 1)
  | .parse event => if answer then .execute event else .countError event
  | .execute event => if answer then .distribute event else .countError event
  | .distribute _ | .countError _ => .inflightDec
  | pc => pc

def LoopPc.charge (error : UInt64) : LoopPc Thread → UInt64
  | .countError _ => error + 1
  | _ => error

def Served.extend (served : Served World Effect) (pc : LoopPc Thread)
    (done : Work Thread World Effect) : Served World Effect :=
  ⟨pc.charge served.error, done.world, served.effects ++ done.log.map Prod.snd⟩

theorem map_logHook (event : Submission Thread) (hook : Option (String → Effect))
    (text : String) : (logHook event hook text).map Prod.snd = callHook hook text := by
  unfold logHook callHook
  cases hook <;> rfl

theorem resume_decodeFrom (adapters : config.adapters = pipe.adapters.length)
    (event : Submission Thread) (adapter : Nat) (job : Job)
    (failure : job.failure = "decode failed") (served : Served World Effect) :
    pipe.resume contents (Server.decodeFrom config event adapter) job served =
      pipe.fromDecode (pipe.adapters.drop adapter) (contents event) job.rawInput served := by
  unfold Server.decodeFrom
  split
  · rfl
  · rename_i past
    have none : pipe.adapters.drop adapter = [] := by
      apply List.drop_eq_nil_of_le
      omega
    rw [none]
    change pipe.fail job.failure served = _
    rw [failure]
    rfl

theorem resume_begin (adapters : config.adapters = pipe.adapters.length)
    (event : Submission Thread) (served : Served World Effect) :
    pipe.resume contents (Server.decodeFrom config event 0) .initial served =
      processEvent pipe (contents event) served := by
  rw [resume_decodeFrom adapters event 0 .initial rfl, pipe.processEvent_eq]
  rfl

/-- A call and the rest after it are the rest before it. -/
theorem resume_work (adapters : config.adapters = pipe.adapters.length) {pc : LoopPc Thread}
    (inside : pc.processing ≠ none) (job : Job) (served : Served World Effect) :
    let done := work pipe contents pc job served.world
    pipe.resume contents (pc.after config done.answer) done.job (served.extend pc done) =
      pipe.resume contents pc job served := by
  cases pc with
  | decode event adapter =>
      simp only [LoopPc.after, Served.extend, LoopPc.charge]
      rcases here : pipe.adapters[adapter]? with _ | decodeView
      · have past : pipe.adapters.length ≤ adapter := List.getElem?_eq_none_iff.mp here
        have none : pipe.adapters.drop adapter = [] := List.drop_eq_nil_of_le past
        simp only [work, here]
        rw [if_neg (by decide), resume_decodeFrom adapters _ _ _ rfl, Pipeline.resume, none,
          List.drop_eq_nil_of_le (Nat.le_succ_of_le past), List.map_nil, List.append_nil]
      · obtain ⟨bound, rfl⟩ := List.getElem?_eq_some_iff.mp here
        rw [Pipeline.resume, List.drop_eq_getElem_cons bound, Pipeline.fromDecode, decodeEventImpl]
        rcases decoded : pipe.adapters[adapter] (contents event) job.rawInput served.world with
          ⟨_ | _, rawInput, world⟩
        · simp only [work, here, decoded]
          rw [if_neg (by decide), resume_decodeFrom adapters _ _ _ rfl, List.map_nil,
            List.append_nil]
          rfl
        · simp only [work, here, decoded, map_logHook]
          rfl
  | parse event =>
      rw [Pipeline.resume, Pipeline.fromParse]
      rcases parsed : pipe.parse job.rawInput job.cmd served.world with ⟨_ | _, cmd, world⟩
      · simp only [work, parsed, LoopPc.after, Served.extend, LoopPc.charge, List.map_nil,
          List.append_nil]
        rfl
      · simp only [work, parsed, LoopPc.after, Served.extend, LoopPc.charge, map_logHook]
        rfl
  | execute event =>
      rw [Pipeline.resume, Pipeline.fromExecute]
      rcases executed : pipe.execute job.cmd job.res served.world with ⟨_ | _, res, world⟩
      · simp only [work, executed, LoopPc.after, Served.extend, LoopPc.charge, List.map_nil,
          List.append_nil]
        rfl
      · simp only [work, executed, LoopPc.after, Served.extend, LoopPc.charge, map_logHook]
        rfl
  | distribute event | countError event =>
      simp only [work, LoopPc.after, Served.extend, LoopPc.charge, map_logHook]
      rfl
  | _ => exact absurd rfl inside

theorem LoopPc.after_processing (config : ServerConfig) (answer : Bool) {pc : LoopPc Thread}
    {event : Submission Thread} (inside : pc.processing = some event) :
    (pc.after config answer).processing = some event ∧ (pc.after config answer).fetched = none ∨
      pc.after config answer = .inflightDec := by
  cases pc with
  | decode _ adapter =>
      cases inside
      cases answer
      · exact .inl (Server.decodeFrom_processing config event (adapter + 1))
      · exact .inl ⟨rfl, rfl⟩
  | parse | execute =>
      cases inside
      cases answer <;> exact .inl ⟨rfl, rfl⟩
  | distribute | countError => exact .inr rfl
  | _ => cases inside

/-! The steps of the server. -/

namespace Server

variable {server next : Server Thread} {id : Nat} {answer : Bool}
variable {events : List (ServerEvent Thread)}

/-- A step of a worker inside `processEvent` follows the answer of the component. -/
theorem loopStep_inside {event : Submission Thread}
    (inside : (server.loops id).processing = some event)
    (ran : server.loopStep config id answer = some (next, events)) :
    next.loops = Function.update server.loops id ((server.loops id).after config answer) ∧
      next.metrics.error = (server.loops id).charge server.metrics.error ∧
      poppedEvents events = [] ∧ beganEvents events = [] ∧
      (((server.loops id).after config answer).processing ≠ none ∧ returnedEvents events = [] ∨
        (server.loops id).after config answer = .inflightDec ∧ returnedEvents events = [event]) := by
  unfold loopStep at ran
  cases here : server.loops id with
  | decode other adapter =>
      rw [here] at inside ran
      cases inside
      cases answer <;> cases ran
      · have still := (decodeFrom_processing config event (adapter + 1)).1
        exact ⟨rfl, rfl, rfl, rfl, .inl ⟨by simp [LoopPc.after, still], rfl⟩⟩
      · exact ⟨rfl, rfl, rfl, rfl, .inl ⟨by simp [LoopPc.after, LoopPc.processing], rfl⟩⟩
  | parse other | execute other =>
      rw [here] at inside ran
      cases inside
      cases answer <;> cases ran <;>
        exact ⟨rfl, rfl, rfl, rfl, .inl ⟨by simp [LoopPc.after, LoopPc.processing], rfl⟩⟩
  | distribute other | countError other =>
      rw [here] at inside ran
      cases inside
      cases ran
      exact ⟨rfl, rfl, rfl, rfl, .inr ⟨rfl, rfl⟩⟩
  | _ =>
      rw [here] at inside
      cases inside

structure Outside (server next : Server Thread) (events : List (ServerEvent Thread)) : Prop where
  fetched : ∀ id, (next.loops id).fetched = (server.loops id).fetched
  processing : ∀ id, (next.loops id).processing = (server.loops id).processing
  kept : ∀ id, (server.loops id).processing ≠ none → next.loops id = server.loops id
  error : next.metrics.error = server.metrics.error
  popped : poppedEvents events = []
  began : beganEvents events = []
  returned : returnedEvents events = []

theorem Outside.loop {pc : LoopPc Thread}
    (loops : next.loops = Function.update server.loops id pc)
    (fetched : pc.fetched = (server.loops id).fetched)
    (idle : (server.loops id).processing = none) (processing : pc.processing = none)
    (error : next.metrics.error = server.metrics.error) (popped : poppedEvents events = [])
    (began : beganEvents events = []) (returned : returnedEvents events = []) :
    Outside server next events := by
  refine ⟨fun other => ?_, fun other => ?_, fun other inside => ?_, error, popped, began, returned⟩
  · rw [loops]
    exact reads_same LoopPc.fetched fetched other
  · rw [loops]
    exact reads_same LoopPc.processing (processing.trans idle.symm) other
  · rw [loops, Function.update_of_ne]
    rintro rfl
    exact inside idle

theorem LoopMove.outside (moved : LoopMove config server id next events)
    (idle : (server.loops id).processing = none) :
    (Outside server next events ∧ ∀ event, server.loops id ≠ .inflightInc event) ∨
      (∃ event, server.loops id = .tryPop ∧ events = [.popped event] ∧
        next.loops = Function.update server.loops id (.discount event) ∧
        next.metrics.error = server.metrics.error) ∨
      ∃ event, server.loops id = .inflightInc event ∧ events = [.processBegan event] ∧
        next.loops = Function.update server.loops id (decodeFrom config event 0) ∧
        next.metrics.error = server.metrics.error := by
  cases moved with
  | pops here found => exact .inr (.inl ⟨_, here, rfl, rfl, rfl⟩)
  | begins here => exact .inr (.inr ⟨_, here, rfl, rfl, rfl⟩)
  | decodes here | decodesNot here | parses here | parsesNot here | executes here
  | executesNot here | distributes here | countsError here =>
      rw [here] at idle
      cases idle
  | locks here free =>
      refine .inl ⟨.loop rfl ?_ idle rfl rfl rfl rfl rfl, ?_⟩
      · rcases here with here | here <;> rw [here] <;> rfl
      · rcases here with here | here <;> simp [here]
  | discounts here | ends here | blocks here | unlocks here =>
      exact .inl ⟨.loop rfl (by rw [here]; rfl) idle rfl rfl rfl rfl rfl, by simp [here]⟩
  | _ =>
      rename_i here _
      exact .inl ⟨.loop rfl (by rw [here]; rfl) idle rfl rfl rfl rfl rfl, by simp [here]⟩

variable [DecidableEq Thread]

omit [DecidableEq Thread] in
theorem Outside.callers (loops : next.loops = server.loops)
    (error : next.metrics.error = server.metrics.error) (popped : poppedEvents events = [])
    (began : beganEvents events = []) (returned : returnedEvents events = []) :
    Outside server next events := by
  refine ⟨fun _ => ?_, fun _ => ?_, fun _ _ => ?_, error, popped, began, returned⟩ <;> rw [loops]

theorem CallerMove.outside {trace : List (ServerEvent Thread)} (ok : EventsOk trace server)
    {thread : Thread} (moved : CallerMove config server thread next events) :
    Outside server next events := by
  have absent := ok.absent server.spawned (Nat.le_refl _)
  cases moved with
  | spawns here more | spawnsLast here last =>
      exact .loop rfl (by rw [absent]; rfl) (by rw [absent]; rfl) rfl rfl rfl rfl rfl
  | notifiesAll here =>
      refine ⟨fun id => (wakeAll_fetched _ id).1, fun id => (wakeAll_fetched _ id).2,
        fun id inside => ?_, rfl, rfl, rfl, rfl⟩
      change wakeAll server.loops id = _
      unfold wakeAll
      rw [if_neg]
      intro blocked
      rw [blocked] at inside
      exact inside rfl
  | notifiesOne here picked =>
      exact .loop rfl (by rw [picked]; rfl) (by rw [picked]; rfl) rfl rfl rfl rfl rfl
  | rejects here => exact .callers rfl (rejected_inflight _ _).2 rfl rfl rfl
  | _ => exact .callers rfl rfl rfl rfl rfl

theorem Move.outside {trace : List (ServerEvent Thread)} (ok : EventsOk trace server)
    {action : ServerAction Thread} (caller : ∀ id answer, action ≠ .worker id answer)
    (moved : Move config server action next events) : Outside server next events := by
  cases moved with
  | call here entry => cases entry <;> exact .callers rfl rfl rfl rfl rfl
  | caller moved => exact moved.outside ok
  | worker => exact absurd rfl (caller _ _)
  | wake here => exact .loop rfl (by rw [here]; rfl) (by rw [here]; rfl) rfl rfl rfl rfl rfl

end Server

namespace PipelineServer

def served (state : PipelineServer Thread World Effect) : Served World Effect :=
  ⟨state.server.metrics.error, state.world, state.log.map Prod.snd⟩

variable {state next : PipelineServer Thread World Effect} {events : List (ServerEvent Thread)}

inductive Acts (config : ServerConfig) (pipe : Pipeline Event World Effect)
    (contents : Submission Thread → Event) (state next : PipelineServer Thread World Effect)
    (events : List (ServerEvent Thread)) : Prop
  | pops {id event} (here : state.server.loops id = .tryPop) (shown : events = [.popped event])
      (loops : next.server.loops = Function.update state.server.loops id (.discount event))
      (jobs : next.jobs = state.jobs) (log : next.log = state.log)
      (served : next.served = state.served)
  | begins {id event} (here : state.server.loops id = .inflightInc event)
      (shown : events = [.processBegan event])
      (loops : next.server.loops =
        Function.update state.server.loops id (Server.decodeFrom config event 0))
      (jobs : next.jobs = Function.update state.jobs id .initial) (log : next.log = state.log)
      (served : next.served = state.served)
  | works {id event} (inside : (state.server.loops id).processing = some event)
      (done : Work Thread World Effect)
      (worked : done = work pipe contents (state.server.loops id) (state.jobs id) state.world)
      (loops : next.server.loops = Function.update state.server.loops id
        ((state.server.loops id).after config done.answer))
      (jobs : next.jobs = Function.update state.jobs id done.job)
      (log : next.log = state.log ++ done.log)
      (served : next.served = state.served.extend (state.server.loops id) done)
      (popped : poppedEvents events = []) (began : beganEvents events = [])
      (ends : ((state.server.loops id).after config done.answer).processing ≠ none ∧
          returnedEvents events = [] ∨
        (state.server.loops id).after config done.answer = .inflightDec ∧
          returnedEvents events = [event])
  | rests (outside : Server.Outside state.server next.server events) (jobs : next.jobs = state.jobs)
      (log : next.log = state.log) (served : next.served = state.served)

theorem served_congr (error : next.server.metrics.error = state.server.metrics.error)
    (world : next.world = state.world) (log : next.log = state.log) :
    next.served = state.served := by
  unfold served
  rw [error, world, log]

/-- Outside `processEvent` a step calls no component. -/
theorem work_outside {pc : LoopPc Thread} (idle : pc.processing = none) (job : Job)
    (world : World) : (work pipe contents pc job world).world = world ∧
      (work pipe contents pc job world).log = [] ∧
      ((∀ event, pc ≠ .inflightInc event) → (work pipe contents pc job world).job = job) := by
  cases pc with
  | inflightInc event => exact ⟨rfl, rfl, fun other => absurd rfl (other event)⟩
  | decode | parse | execute | distribute | countError => cases idle
  | _ => exact ⟨rfl, rfl, fun _ => rfl⟩

variable [DecidableEq Thread]

theorem worker_acts {id : Nat} {server : Server Thread} {done : Work Thread World Effect}
    (worked : done = work pipe contents (state.server.loops id) (state.jobs id) state.world)
    (ran : state.server.step config (.worker id done.answer) = some (server, events)) :
    Acts config pipe contents state
      { server
        jobs := Function.update state.jobs id done.job
        world := done.world
        log := state.log ++ done.log } events := by
  rcases inside : (state.server.loops id).processing with _ | event
  · have quiet : done.world = state.world ∧ done.log = [] ∧
        ((∀ event, state.server.loops id ≠ .inflightInc event) → done.job = state.jobs id) := by
      rw [worked]
      exact work_outside inside _ _
    obtain ⟨world, log, job⟩ := quiet
    have same : state.log ++ done.log = state.log := by rw [log, List.append_nil]
    have kept (other : ∀ event, state.server.loops id ≠ .inflightInc event) :
        Function.update state.jobs id done.job = state.jobs := by
      rw [job other, Function.update_eq_self]
    have moved : Server.LoopMove config state.server id server events := by
      cases (Server.step_move ran).2 with
      | call here entry => cases entry
      | worker moved => exact moved
    rcases moved.outside inside with ⟨outside, other⟩ | ⟨event, here, shown, loops, error⟩ |
      ⟨event, here, shown, loops, error⟩
    · exact .rests outside (kept other) same (served_congr outside.error world same)
    · exact .pops here shown loops (kept (by simp [here])) same (served_congr error world same)
    · refine .begins here shown loops ?_ same (served_congr error world same)
      rw [worked, here]
      rfl
  · have looped : state.server.loopStep config id done.answer = some (server, events) := by
      rw [← ran, Server.step, if_neg (by simp [(Server.step_move ran).1])]
    obtain ⟨loops, error, popped, began, ends⟩ := Server.loopStep_inside inside looped
    refine .works inside done worked loops rfl rfl ?_ popped began ends
    simp only [PipelineServer.served, Served.extend, error, List.map_append]

theorem step_acts {trace : List (ServerEvent Thread)} (ok : Server.EventsOk trace state.server)
    {action : ServerAction Thread}
    (stepped : state.step config pipe contents action = some (next, events)) :
    Acts config pipe contents state next events := by
  have others : (∀ id answer, action ≠ .worker id answer) →
      (state.server.step config action).map (fun ran => ({ state with server := ran.1 }, ran.2)) =
        some (next, events) → Acts config pipe contents state next events := by
    intro caller stepped
    obtain ⟨⟨server, shown⟩, ran, same⟩ := Option.map_eq_some_iff.mp stepped
    cases same
    have outside := (Server.step_move ran).2.outside ok caller
    exact .rests outside rfl rfl (served_congr outside.error rfl rfl)
  cases action with
  | worker id answer =>
      obtain ⟨⟨server, shown⟩, ran, same⟩ := Option.map_eq_some_iff.mp stepped
      cases same
      exact worker_acts rfl ran
  | _ => exact others nofun stepped

end PipelineServer

end MyServer
