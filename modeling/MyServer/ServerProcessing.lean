import MyServer.ServerEvents

/-!
`processEvent`: a worker that has popped an event gives it to one call of `processEvent`,
and every call ends.
-/

namespace MyServer

variable {Thread : Type}

namespace LoopPc

def fetched : LoopPc Thread → Option (Submission Thread)
  | .discount event | .inflightInc event => some event
  | _ => none

def processing : LoopPc Thread → Option (Submission Thread)
  | .decode event _ | .parse event | .execute event | .distribute event | .countError event =>
      some event
  | _ => none

end LoopPc

namespace ServerEvent

def began? : ServerEvent Thread → Option (Submission Thread)
  | .processBegan event => some event
  | _ => none

def returned? : ServerEvent Thread → Option (Submission Thread)
  | .processReturned event => some event
  | _ => none

end ServerEvent

def beganEvents (trace : List (ServerEvent Thread)) : List (Submission Thread) :=
  trace.filterMap ServerEvent.began?

def returnedEvents (trace : List (ServerEvent Thread)) : List (Submission Thread) :=
  trace.filterMap ServerEvent.returned?

namespace Server

structure ProcessingOk (trace : List (ServerEvent Thread)) (server : Server Thread) : Prop where
  fetched : Handover (poppedEvents trace) (beganEvents trace) fun id => (server.loops id).fetched
  processed : Handover (beganEvents trace) (returnedEvents trace)
    fun id => (server.loops id).processing

variable {trace events : List (ServerEvent Thread)} {server next : Server Thread}
variable {config : ServerConfig} {thread : Thread} {id : Nat}

theorem poppedEvents_append (trace events : List (ServerEvent Thread)) :
    poppedEvents (trace ++ events) = poppedEvents trace ++ poppedEvents events := by
  simp [poppedEvents]

theorem beganEvents_append (trace events : List (ServerEvent Thread)) :
    beganEvents (trace ++ events) = beganEvents trace ++ beganEvents events := by
  simp [beganEvents]

theorem returnedEvents_append (trace events : List (ServerEvent Thread)) :
    returnedEvents (trace ++ events) = returnedEvents trace ++ returnedEvents events := by
  simp [returnedEvents]

theorem ProcessingOk.frame (ok : ProcessingOk trace server)
    (fetched : ∀ id, (next.loops id).fetched = (server.loops id).fetched)
    (processing : ∀ id, (next.loops id).processing = (server.loops id).processing)
    (popped : poppedEvents events = []) (began : beganEvents events = [])
    (returned : returnedEvents events = []) : ProcessingOk (trace ++ events) next where
  fetched := by
    rw [poppedEvents_append, beganEvents_append, popped, began, List.append_nil, List.append_nil,
      funext fetched]
    exact ok.fetched
  processed := by
    rw [beganEvents_append, returnedEvents_append, began, returned, List.append_nil,
      List.append_nil, funext processing]
    exact ok.processed

theorem ProcessingOk.loop (ok : ProcessingOk trace server) {pc : LoopPc Thread}
    (loops : next.loops = Function.update server.loops id pc)
    (fetched : pc.fetched = (server.loops id).fetched)
    (processing : pc.processing = (server.loops id).processing)
    (popped : poppedEvents events = []) (began : beganEvents events = [])
    (returned : returnedEvents events = []) : ProcessingOk (trace ++ events) next := by
  refine ok.frame (fun other => ?_) (fun other => ?_) popped began returned
  · rw [loops]
    exact reads_same LoopPc.fetched fetched other
  · rw [loops]
    exact reads_same LoopPc.processing processing other

theorem ProcessingOk.pops (ok : ProcessingOk trace server) (eventsOk : EventsOk trace server)
    {event : Submission Thread} {queue : List (Submission Thread)}
    (here : server.loops id = .tryPop) (found : server.queue = event :: queue) :
    ProcessingOk (trace ++ [.popped event])
      ({ server with queue }.loopGoto id (.discount event)) := by
  have fresh : event ∉ poppedEvents trace := by
    intro inside
    have order : pushedEvents trace = poppedEvents trace ++ server.queue := eventsOk.events.order
    have nodup : (poppedEvents trace ++ event :: queue).Nodup := by
      rw [← found, ← order]
      exact eventsOk.events.nodup
    exact (List.nodup_append.mp nodup).2.2 event inside event List.mem_cons_self rfl
  have free : (server.loops id).fetched = none := by rw [here]; rfl
  have idle : (server.loops id).processing = none := by rw [here]; rfl
  constructor
  case fetched =>
    rw [poppedEvents_append, beganEvents_append]
    change Handover (poppedEvents trace ++ [event]) (beganEvents trace ++ [])
      fun other => (Function.update server.loops id (.discount event) other).fetched
    rw [reads_update, List.append_nil]
    exact ok.fetched.takes free fresh
  case processed =>
    rw [beganEvents_append, returnedEvents_append]
    change Handover (beganEvents trace ++ []) (returnedEvents trace ++ [])
      fun other => (Function.update server.loops id (.discount event) other).processing
    rw [reads_update, List.append_nil, List.append_nil,
      show (LoopPc.discount event).processing = (server.loops id).processing from idle.symm,
      Function.update_eq_self_iff.mpr rfl]
    exact ok.processed

theorem decodeFrom_processing (config : ServerConfig) (event : Submission Thread) (adapter : Nat) :
    (decodeFrom config event adapter).processing = some event ∧
      (decodeFrom config event adapter).fetched = none := by
  unfold decodeFrom
  split <;> exact ⟨rfl, rfl⟩

theorem ProcessingOk.begins (ok : ProcessingOk trace server) {event : Submission Thread}
    (here : server.loops id = .inflightInc event)
    (loops : next.loops = Function.update server.loops id (decodeFrom config event 0)) :
    ProcessingOk (trace ++ [.processBegan event]) next := by
  obtain ⟨processing, fetched⟩ := decodeFrom_processing config event 0
  have mine : (server.loops id).fetched = some event := by rw [here]; rfl
  have idle : (server.loops id).processing = none := by rw [here]; rfl
  constructor
  case fetched =>
    rw [poppedEvents_append, beganEvents_append, loops, reads_update, fetched]
    change Handover (poppedEvents trace ++ []) (beganEvents trace ++ [event]) _
    rw [List.append_nil]
    exact ok.fetched.finishes mine
  case processed =>
    rw [beganEvents_append, returnedEvents_append, loops, reads_update, processing]
    change Handover (beganEvents trace ++ [event]) (returnedEvents trace ++ []) _
    rw [List.append_nil]
    exact ok.processed.takes idle (ok.fetched.not_done mine)

theorem ProcessingOk.returns (ok : ProcessingOk trace server) {event : Submission Thread}
    (mine : (server.loops id).processing = some event)
    (loops : next.loops = Function.update server.loops id .inflightDec)
    (popped : poppedEvents events = []) (began : beganEvents events = [])
    (returned : returnedEvents events = [event]) : ProcessingOk (trace ++ events) next := by
  have free : (server.loops id).fetched = none := by
    cases pc : server.loops id <;> simp_all [LoopPc.processing, LoopPc.fetched]
  constructor
  case fetched =>
    rw [poppedEvents_append, beganEvents_append, popped, began, List.append_nil, List.append_nil,
      loops, reads_update, show (LoopPc.inflightDec : LoopPc Thread).fetched =
        (server.loops id).fetched from free.symm, Function.update_eq_self_iff.mpr rfl]
    exact ok.fetched
  case processed =>
    rw [beganEvents_append, returnedEvents_append, began, returned, List.append_nil, loops,
      reads_update]
    exact ok.processed.finishes mine

theorem ProcessingOk.worker (ok : ProcessingOk trace server) (eventsOk : EventsOk trace server)
    (moved : LoopMove config server id next events) : ProcessingOk (trace ++ events) next := by
  cases moved with
  | pops here found => exact ok.pops eventsOk here found
  | begins here => exact ok.begins here rfl
  | distributes here => exact ok.returns (by rw [here]; rfl) rfl rfl rfl rfl
  | countsError here => exact ok.returns (by rw [here]; rfl) rfl rfl rfl rfl
  | @decodesNot event adapter here =>
      obtain ⟨processing, fetched⟩ := decodeFrom_processing config event (adapter + 1)
      exact ok.loop rfl (by rw [fetched, here]; rfl) (by rw [processing, here]; rfl) rfl rfl rfl
  | locks here free =>
      refine ok.loop rfl ?_ ?_ rfl rfl rfl
      · rcases here with here | here <;> rw [here] <;> rfl
      · rcases here with here | here <;> rw [here] <;> rfl
  | discounts here | decodes here | parses here | parsesNot here | executes here
  | executesNot here | ends here | blocks here | unlocks here =>
      exact ok.loop rfl (by rw [here]; rfl) (by rw [here]; rfl) rfl rfl rfl
  | _ =>
      rename_i here _
      exact ok.loop rfl (by rw [here]; rfl) (by rw [here]; rfl) rfl rfl rfl

theorem ProcessingOk.spawns (ok : ProcessingOk trace server) (eventsOk : EventsOk trace server)
    (loops : next.loops = Function.update server.loops server.spawned .tryPop)
    (popped : poppedEvents events = []) (began : beganEvents events = [])
    (returned : returnedEvents events = []) : ProcessingOk (trace ++ events) next := by
  have absent := eventsOk.absent server.spawned (Nat.le_refl _)
  exact ok.loop loops (by rw [absent]; rfl) (by rw [absent]; rfl) popped began returned

variable [DecidableEq Thread]

theorem wakeAll_fetched (loops : Nat → LoopPc Thread) (id : Nat) :
    (wakeAll loops id).fetched = (loops id).fetched ∧
      (wakeAll loops id).processing = (loops id).processing := by
  unfold wakeAll
  split
  · rename_i blocked
    rw [blocked]
    exact ⟨rfl, rfl⟩
  · exact ⟨rfl, rfl⟩

/-- Every step keeps each popped event with one worker until `processEvent` returns. -/
theorem ProcessingOk.step (ok : ProcessingOk trace server) (eventsOk : EventsOk trace server)
    {action : ServerAction Thread} (moved : Move config server action next events) :
    ProcessingOk (trace ++ events) next := by
  cases moved with
  | call here entry => cases entry <;> exact ok.frame (fun _ => rfl) (fun _ => rfl) rfl rfl rfl
  | caller moved =>
      cases moved with
      | spawns here more => exact ok.spawns eventsOk rfl rfl rfl rfl
      | spawnsLast here last => exact ok.spawns eventsOk rfl rfl rfl rfl
      | notifiesAll here =>
          exact ok.frame (fun id => (wakeAll_fetched _ id).1) (fun id => (wakeAll_fetched _ id).2)
            rfl rfl rfl
      | notifiesOne here picked =>
          exact ok.loop rfl (by rw [picked]; rfl) (by rw [picked]; rfl) rfl rfl rfl
      | _ => exact ok.frame (fun _ => rfl) (fun _ => rfl) rfl rfl rfl
  | worker moved => exact ok.worker eventsOk moved
  | wake here => exact ok.loop rfl (by rw [here]; rfl) (by rw [here]; rfl) rfl rfl rfl

omit [DecidableEq Thread] in
theorem ProcessingOk.initial : ProcessingOk [] (Server.initial : Server Thread) where
  fetched := .initial
  processed := .initial

end Server

end MyServer
