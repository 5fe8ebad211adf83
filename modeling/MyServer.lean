import MyServer.EventMachine
import MyServer.Adjacent
import MyServer.TextSearch
import MyServer.FreeListLinear
import MyServer.LogStream
import MyServer.TextSinkHeader
import MyServer.MpscQueue
import MyServer.LogEngineExhaustion
import MyServer.LogEngineRestart
import MyServer.LogEngineAba
import MyServer.LogEngineStartStop
import MyServer.LogEngineShutdown
import MyServer.TokenRegistryAccounting
import MyServer.TokenRegistryPool
import MyServer.TokenRegistryQueries
import MyServer.PublisherRuntime
import MyServer.RegistrationHandle
import MyServer.RegistrationReassign
import MyServer.ServerBackpressure
import MyServer.ServerMetrics
import MyServer.ServerForce
import MyServer.ServerDrain
import MyServer.ServerWakeups
import MyServer.StreamAdapter
import MyServer.TextSinkTimestamp
import MyServer.TextSinkScan
import MyServer.LoggerProcess
import MyServer.LogEngineProgress
import MyServer.ServerPipeline
import MyServer.SimpleMutexQueue
import MyServer.LoggerProcessTreiber
import MyServer.FreeListProgress
import MyServer.MpscQueueWaiting
import MyServer.ServerSnapshot
import MyServer.ServerBuilder
import MyServer.SinkPublisher
import MyServer.ServerQuits
