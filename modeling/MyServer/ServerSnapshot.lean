import MyServer.ObservedMachine
import MyServer.ServerMetrics

/-!
`Server::metrics`, called by any thread while the server runs. It loads seven atomics one
after the other, so a `ServerMetrics` is not the metrics of one moment; each of its fields is
one of a moment during the call.
-/

namespace MyServer

open EventMachine

variable {Thread Reader : Type}

structure ServerMetrics where
  acceptedTotal : UInt64
  rejectedFullTotal : UInt64
  rejectedStoppedTotal : UInt64
  invalidTotal : UInt64
  errorTotal : UInt64
  queueDepthSnapshot : UInt64
  inflightSnapshot : UInt64
  deriving DecidableEq

/-- The loads of `metrics`: its argument for `snapshot`, then those of `snapshot`. -/
def Server.metricsLoads : List (Server Thread → UInt64) :=
  [fun server => server.queuedApprox, fun server => server.metrics.accepted,
    fun server => server.metrics.rejectedFull, fun server => server.metrics.rejectedStopped,
    fun server => server.metrics.invalid, fun server => server.metrics.error,
    fun server => server.metrics.inflight]

def MetricsMixin.snapshot : List UInt64 → Option ServerMetrics
  | [queueDepth, accepted, rejectedFull, rejectedStopped, invalid, error, inflight] =>
      some
        { acceptedTotal := accepted
          rejectedFullTotal := rejectedFull
          rejectedStoppedTotal := rejectedStopped
          invalidTotal := invalid
          errorTotal := error
          queueDepthSnapshot := queueDepth
          inflightSnapshot := inflight }
  | _ => none

def ServerMetrics.total (metrics : ServerMetrics) : SubmitStatus → UInt64
  | .accepted => metrics.acceptedTotal
  | .rejectedFull => metrics.rejectedFullTotal
  | .rejectedStopped => metrics.rejectedStoppedTotal
  | .invalid => metrics.invalidTotal
  | .error => metrics.errorTotal

def metricsMachine (config : ServerConfig) (Thread Reader : Type) [DecidableEq Thread]
    [DecidableEq Reader] :
    EventMachine (Observed (Server Thread) Reader UInt64)
      (ObservedAction (ServerAction Thread) Reader)
      (ObservedEvent (ServerEvent Thread) Reader UInt64) :=
  (serverMachine config Thread).observed Server.metricsLoads

structure SnapshotOk [DecidableEq Thread] (config : ServerConfig)
    (before during : List (ServerEvent Thread)) (snapshot : ServerMetrics) : Prop where
  counted : ∀ status, status ≠ .error → ∃ count,
    snapshot.total status = UInt64.ofNat count ∧ resultCount status before ≤ count ∧
      count ≤ resultCount status (before ++ during)
  failed : ∃ moment, before <+: moment ∧ moment <+: before ++ during ∧
    UInt64.ofNat (returnedEvents moment).length =
      snapshot.errorTotal + UInt64.ofNat (distributedEvents moment).length
  depth : ∃ moment server, (serverMachine config Thread).Reaches Server.waitsApart moment server ∧
    before <+: moment ∧ moment <+: before ++ during ∧
      snapshot.queueDepthSnapshot = server.queuedApprox
  inflight : snapshot.inflightSnapshot.toNat ≤ config.workerTotal

section Snapshots

variable [DecidableEq Thread] {config : ServerConfig}
variable {lower upper : List (ServerEvent Thread)} {values : List UInt64}

/-- The moment of one load. -/
theorem loaded_moment
    (loaded : Loaded (serverMachine config Thread) Server.waitsApart Server.metricsLoads lower upper
      values)
    (index : Nat) {load : Server Thread → UInt64} {value : UInt64}
    (which : Server.metricsLoads[index]? = some load) (here : values[index]? = some value) :
    ∃ moment server, (serverMachine config Thread).Reaches Server.waitsApart moment server ∧
      lower <+: moment ∧ moment <+: upper ∧ value = load server := by
  obtain ⟨other, moment, server, found, read, reached, low, high⟩ := loaded index value here
  obtain rfl : load = other := Option.some.inj (which.symm.trans found)
  exact ⟨moment, server, reached, low, high, read.symm⟩

omit [DecidableEq Thread] in
theorem resultCount_mono {status : SubmitStatus} (longer : lower <+: upper) :
    resultCount status lower ≤ resultCount status upper :=
  longer.sublist.countP_le

theorem loaded_count
    (loaded : Loaded (serverMachine config Thread) Server.waitsApart Server.metricsLoads lower upper
      values)
    (index : Nat) {status : SubmitStatus} (real : status ≠ .error) {value : UInt64}
    (which : Server.metricsLoads[index]? =
      some fun server : Server Thread => server.metrics.counter status)
    (here : values[index]? = some value) :
    ∃ count, value = UInt64.ofNat count ∧ resultCount status lower ≤ count ∧
      count ≤ resultCount status upper := by
  obtain ⟨moment, server, reached, low, high, rfl⟩ := loaded_moment loaded index which here
  have ok := Server.metrics_ok (reached.mono fun _ _ _ _ => trivial)
  exact ⟨resultCount status moment, ok.counters.paid status real, resultCount_mono low,
    resultCount_mono high⟩

theorem loaded_snapshot {config : ServerConfig} {during : List (ServerEvent Thread)}
    {snapshot : ServerMetrics}
    (loaded : Loaded (serverMachine config Thread) Server.waitsApart Server.metricsLoads lower
      (lower ++ during) values) (taken : MetricsMixin.snapshot values = some snapshot) :
    SnapshotOk config lower during snapshot := by
  unfold MetricsMixin.snapshot at taken
  split at taken
  · rename_i queueDepth accepted rejectedFull rejectedStopped invalid error inflight
    obtain rfl := Option.some.inj taken
    constructor
    case counted =>
      intro status real
      cases status with
      | accepted => exact loaded_count loaded 1 real rfl rfl
      | rejectedFull => exact loaded_count loaded 2 real rfl rfl
      | rejectedStopped => exact loaded_count loaded 3 real rfl rfl
      | invalid => exact loaded_count loaded 4 real rfl rfl
      | error => exact absurd rfl real
    case failed =>
      obtain ⟨moment, server, reached, low, high, rfl⟩ := loaded_moment loaded 5 rfl rfl
      have ok := Server.metrics_ok (reached.mono fun _ _ _ _ => trivial)
      exact ⟨moment, low, high, ok.counters.errors⟩
    case depth =>
      obtain ⟨moment, server, reached, low, high, rfl⟩ := loaded_moment loaded 0 rfl rfl
      exact ⟨moment, server, reached, low, high, rfl⟩
    case inflight =>
      obtain ⟨moment, server, reached, low, high, rfl⟩ := loaded_moment loaded 6 rfl rfl
      have bounded := Server.inflight_bounded reached
      exact bounded.alive.trans bounded.few
  · cases taken

end Snapshots

/-- Every snapshot that a call of `metrics` returns, against the events at the call and at its
return. -/
theorem metrics_between [DecidableEq Thread] [DecidableEq Reader] {config : ServerConfig}
    {before after : List (ObservedEvent (ServerEvent Thread) Reader UInt64)}
    {world : Observed (Server Thread) Reader UInt64} {reader : Reader} {values : List UInt64}
    (reached : (metricsMachine config Thread Reader).Reaches (besides Server.waitsApart)
      (before ++ .returned reader values :: after) world) :
    ∃ snapshot earlier during, MetricsMixin.snapshot values = some snapshot ∧
      before = earlier ++ .called reader :: during ∧ .called reader ∉ during ∧
      SnapshotOk config (innerEvents earlier) (innerEvents during) snapshot := by
  obtain ⟨length, earlier, during, split, once, loaded⟩ := observed_returned reached
  obtain ⟨snapshot, taken⟩ : ∃ snapshot, MetricsMixin.snapshot values = some snapshot := by
    have seven : values.length = 7 := length
    match values, seven with
    | [_, _, _, _, _, _, _], _ => exact ⟨_, rfl⟩
  refine ⟨snapshot, earlier, during, taken, split, once, loaded_snapshot ?_ taken⟩
  have inner : innerEvents before = innerEvents earlier ++ innerEvents during := by
    rw [split, innerEvents_append]
    rfl
  rw [← inner]
  exact loaded

def snapshotSchedule : List (ObservedAction (ServerAction Bool) Unit) :=
  ([ServerAction.start false] ++ List.replicate 4 (ServerAction.caller false 0) ++
    [ServerAction.trySubmit true] ++ List.replicate 6 (ServerAction.caller true 0)).map .inner ++
  [.call (), .load ()] ++
  ([ServerAction.trySubmit true] ++ List.replicate 6 (ServerAction.caller true 0)).map .inner ++
  List.replicate 5 (.load ()) ++ List.replicate 4 (.inner (.worker 0 true)) ++
  [.load (), .load ()]

theorem snapshotSchedule_runs :
    ((metricsMachine Server.sampleConfig Bool Unit).exec (besides Server.waitsApart) []
      (metricsMachine Server.sampleConfig Bool Unit).start snapshotSchedule).isSome = true := by
  decide +kernel

theorem metrics_between_sample :
    let run := Option.get _ snapshotSchedule_runs
    ∃ snapshot earlier during, MetricsMixin.snapshot [1, 2, 0, 0, 0, 0, 1] = some snapshot ∧
      run.1.dropLast = earlier ++ .called () :: during ∧ .called () ∉ during ∧
      SnapshotOk Server.sampleConfig (innerEvents earlier) (innerEvents during) snapshot := by
  intro run
  have split : run.1 = run.1.dropLast ++ .returned () [1, 2, 0, 0, 0, 0, 1] :: [] := by
    decide +kernel
  have reached := EventMachine.reaches_of_isSome snapshotSchedule_runs
  have last : (metricsMachine Server.sampleConfig Bool Unit).Reaches (besides Server.waitsApart)
      (run.1.dropLast ++ .returned () [1, 2, 0, 0, 0, 0, 1] :: []) run.2 := by
    rw [← split]
    exact reached
  exact metrics_between last

end MyServer
