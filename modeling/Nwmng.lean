import Nwmng.Lib.Execution
import Nwmng.Lib.Fallible
import Nwmng.Cfg.Records
import Nwmng.Cfg.Cfgdb
import Nwmng.Cfg.Moves
import Nwmng.Cfg.Keyed
import Nwmng.Lib.Bytes
import Nwmng.Config.Dcd
import Nwmng.Config.DcdCodec
import Nwmng.Mng.Stat
import Nwmng.Config.Slot
import Nwmng.Config.Host
import Nwmng.Utils.Bitmap
import Nwmng.Config.Callbacks
import Nwmng.Config.States
import Nwmng.Config.Engine
import Nwmng.Config.Spec
import Nwmng.Config.Lawful
import Nwmng.Config.Rounds
import Nwmng.Config.EngineRun
import Nwmng.Config.HostChanges
import Nwmng.Config.Liveness
import Nwmng.Config.Asserts
import Nwmng.Config.Flags
import Nwmng.Lib.Ledger
import Nwmng.Config.Routing
import Nwmng.Mng.Manager
import Nwmng.Mng.Phases
import Nwmng.Mng.Blacklist
import Nwmng.Mng.Cursors
import Nwmng.Mng.KeyRefresh
import Nwmng.Lib.Occupancy
import Nwmng.Config.Conservation
import Nwmng.Lib.Json
import Nwmng.Utils.Numbers
import Nwmng.Cfg.NodeLoad
import Nwmng.Cfg.Supplied
import Nwmng.Cfg.Settings
import Nwmng.Cfg.Reload
import Nwmng.Cfg.Inheritance
import Nwmng.Cfg.NodesFile
import Nwmng.Cfg.Agreement
import Nwmng.Cfg.LoadAgreement
import Nwmng.Mng.LoadFile
import Nwmng.Cfg.FileEdits
import Nwmng.Cfg.ProvFile
import Nwmng.Cfg.ProvRoundTrip
import Nwmng.Mng.Nwk
import Nwmng.Cfg.NodesWrites
import Nwmng.Mng.OpenFile
import Nwmng.Mng.Ddb
import Nwmng.Mng.DdbRuns
import Nwmng.Mng.Adding
import Nwmng.Mng.AddingRuns
import Nwmng.Cfg.Staying
import Nwmng.Mng.Scanning
import Nwmng.Mng.Requests
import Nwmng.Mng.CursorRuns
import Nwmng.Mng.NwkRuns
import Nwmng.Config.DcdBounds
import Nwmng.Config.Exchange
import Nwmng.Config.KeyRounds
import Nwmng.Config.ModelRounds
import Nwmng.Config.SlotRun
import Nwmng.Config.Budget
import Nwmng.Config.ErrorMask
import Nwmng.Config.Progress
import Nwmng.Cfg.TreeFrame
import Nwmng.Cfg.Addresses
import Nwmng.Mng.NewKeys
import Nwmng.Mng.WorkLists
import Nwmng.Lib.Delivery
import Nwmng.Mng.AddressLists
import Nwmng.Mng.Lights
import Nwmng.Cfg.EntryMembers
import Nwmng.Cfg.EntryCheck
import Nwmng.Cfg.FindNode
import Nwmng.Cfg.TxParameters
import Nwmng.Cfg.Clrctl
import Nwmng.Cfg.CfgRuns
import Nwmng.Cfg.FactoryReset
import Nwmng.Cfg.Lodging
import Nwmng.Config.DoneSound
import Nwmng.Config.IteratorPlaces
import Nwmng.Config.IteratorReads
import Nwmng.Config.IteratorRuns
import Nwmng.Mng.RemovalMarks
import Nwmng.Utils.TextNumbers
import Nwmng.Utils.HexBuffers
import Nwmng.Config.GuardTimer
import Nwmng.Mng.StatOps
import Nwmng.Config.Tasks
import Nwmng.Mng.StatRuns
import Nwmng.Mng.References
import Nwmng.Mng.ReferenceRounds
import Nwmng.Mng.ReferenceRuns
import Nwmng.Utils.ErrorCodes
import Nwmng.Utils.Startup
import Nwmng.Utils.StartupMemory
import Nwmng.Utils.StartupFile
import Nwmng.Utils.StartupArgs
import Nwmng.Utils.StartupMerge
import Nwmng.Utils.StartupPersist
import Nwmng.Hal.Bglib
import Nwmng.Lib.Ring
import Nwmng.Lib.Generator
import Nwmng.Lib.LinkedQueue
import Nwmng.Hal.Messages
import Nwmng.Hal.EventLink
import Nwmng.Hal.Security
import Nwmng.Hal.SecureChannel
import Nwmng.Cli.Commands
import Nwmng.Cli.Completion
import Nwmng.Hal.Reframe
import Nwmng.Hal.Daemon
import Nwmng.Hal.Polling
import Nwmng.Hal.DaemonRuns
import Nwmng.Hal.Forwarding
import Nwmng.Hal.Relaying
import Nwmng.Lib.Simulation
import Nwmng.Config.Asking
import Nwmng.Config.Turns
import Nwmng.Config.Phases
import Nwmng.Config.Transparency
import Nwmng.Lib.Determinism
import Nwmng.Config.PromptRun
import Nwmng.Config.Scheduled
import Nwmng.Config.Following
import Nwmng.Config.Unhindered
import Nwmng.Config.RetryOutcome
