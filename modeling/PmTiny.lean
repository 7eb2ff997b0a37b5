import PmTiny.Safety.Shutdown
import PmTiny.Safety.Coherence
import PmTiny.Safety.Termination
import PmTiny.Safety.Generations
import PmTiny.Safety.DependencyGate
import PmTiny.Safety.RegistryGraph
import PmTiny.Safety.Answers
import PmTiny.Safety.StartEffect
import PmTiny.Safety.Deletion
import PmTiny.Safety.LogSubscriptions
import PmTiny.Safety.RestartLoss
import PmTiny.Safety.ReplyLimits
import PmTiny.Safety.LogFanOut
import PmTiny.Safety.LogStream
import PmTiny.Safety.LogHistory
import PmTiny.Safety.LogWaits
import PmTiny.Core.RuntimeOperations
import PmTiny.Protocol.Decoding
import PmTiny.Persist.SaveLoad
import PmTiny.Persist.FailedSave
import PmTiny.Loop.PipeWatch
import PmTiny.Loop.SessionTable
import PmTiny.Loop.Responses
import PmTiny.Windows.Readiness
import PmTiny.Windows.Backoff
import PmTiny.Windows.RestartLimit
import PmTiny.Core.ClosureRequests
import PmTiny.Core.BlockedReasons
import PmTiny.Core.GraphBuild
import PmTiny.Daemon.LaunchEnvironment
import PmTiny.Safety.CreateRollback
import PmTiny.Sdk.Flush
import PmTiny.Windows.ProgramNames
import PmTiny.Windows.ReloadStart
import PmTiny.Windows.RestartRequests
import PmTiny.Windows.SaveAtomicity
import PmTiny.Windows.Draining
import PmTiny.Windows.LogFollowers
import PmTiny.Safety.Refusals
import PmTiny.Core.ReadyRecovery
import PmTiny.Core.RestartWindow
import PmTiny.Core.LifecycleDeadlines
import PmTiny.Wire.Forms
import PmTiny.Protocol.SessionWrites
import PmTiny.Core.LogRotation
import PmTiny.Core.ColourSequences
import PmTiny.Daemon.LogLoss
import PmTiny.Daemon.LogFileNames
import PmTiny.Daemon.ConfigLayers
import PmTiny.Daemon.CgroupFs
import PmTiny.Cli.GraphView
import PmTiny.Core.TerminationCalls
import PmTiny.Windows.CommandLine
import PmTiny.Cli.StartGrammar
import PmTiny.Safety.SpawnOutcome
import PmTiny.Safety.SignalWakeup
import PmTiny.Daemon.InstanceLock
import PmTiny.Safety.PersistenceWorker
import PmTiny.Windows.PipeSession
import PmTiny.Safety.TreeWalk
import PmTiny.Safety.ProcessTree
import PmTiny.Safety.ClientResponses
