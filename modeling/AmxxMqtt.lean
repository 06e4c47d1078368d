import AmxxMqtt.Lib.Transition
import AmxxMqtt.Lib.Gate
import AmxxMqtt.Lib.Log
import AmxxMqtt.Lib.Table
import AmxxMqtt.Lib.Names
import AmxxMqtt.Lib.Locks
import AmxxMqtt.Lib.Lifetimes
import AmxxMqtt.CallbackQueue
import AmxxMqtt.MqttClientMgr
import AmxxMqtt.ConnectOptionMgr
import AmxxMqtt.RehldsFrameHook
import AmxxMqtt.Natives
import AmxxMqtt.NativeReturns
import AmxxMqtt.Rejection
import AmxxMqtt.RequestFrames
import AmxxMqtt.HandleHistory
import AmxxMqtt.HookBalance
import AmxxMqtt.OptionsCapacity
import AmxxMqtt.CallbackDispatcher
import AmxxMqtt.History
import AmxxMqtt.World
import AmxxMqtt.QueueHistory
import AmxxMqtt.ClientHistory
import AmxxMqtt.ForwardHistory
import AmxxMqtt.ForwardOwnership
import AmxxMqtt.Delivery
import AmxxMqtt.Batch
import AmxxMqtt.FrameBudget
import AmxxMqtt.BatchBound
import AmxxMqtt.EventContents
import AmxxMqtt.Unload
import AmxxMqtt.OptionsHistory
import AmxxMqtt.ClientSystem
import AmxxMqtt.ActivationHistory
import AmxxMqtt.Teardown
import AmxxMqtt.DisconnectState
import AmxxMqtt.ClientNotifications
import AmxxMqtt.Threads
import AmxxMqtt.Deadlock
import AmxxMqtt.ThreadClients
import AmxxMqtt.Uninterrupted
import AmxxMqtt.Mirrors
import AmxxMqtt.ClientUses
import AmxxMqtt.ClientLifetimes
import AmxxMqtt.Locations
import AmxxMqtt.DataRaces
import AmxxMqtt.Lib.Refinement
import AmxxMqtt.Lib.Mailbox
import AmxxMqtt.InFlight
import AmxxMqtt.MailboxRefinement
import AmxxMqtt.Lib.Heap
import AmxxMqtt.OptionsMemory
import AmxxMqtt.OptionsRefinement
import AmxxMqtt.InMemory
import AmxxMqtt.Attribution
import AmxxMqtt.Lib.Format
import AmxxMqtt.ErrorLog
import AmxxMqtt.Lib.Potential
import AmxxMqtt.Quiescence
import AmxxMqtt.EngineFactory
import AmxxMqtt.Lib.Backlog
import AmxxMqtt.FrameLoad
import AmxxMqtt.Lib.Family
import AmxxMqtt.ClientFamily
import AmxxMqtt.Stopping
import AmxxMqtt.ClientBodies
import AmxxMqtt.ClientRefinement
import AmxxMqtt.ClientSights
