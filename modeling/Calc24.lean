import Calc24.Net.ByteBuffer
import Calc24.Lib.TransitionSystem
import Calc24.Net.Epoll
import Calc24.Net.EventLoop
import Calc24.Net.TCPConnection
import Calc24.Net.BufferedOutput
import Calc24.App.Decode
import Calc24.App.PackageFraming
import Calc24.Net.TimerSet
import Calc24.App.Server
import Calc24.App.Sending
import Calc24.App.Effects
import Calc24.App.Sequential
import Calc24.App.StatusDesk
import Calc24.App.Reminders
import Calc24.App.ReminderRuns
import Calc24.App.Records
import Calc24.App.Threads
import Calc24.App.Texts
import Calc24.App.Turns
import Calc24.App.Release
import Calc24.App.Broadcast
import Calc24.App.Winner
import Calc24.App.Bystanders
import Calc24.Net.EpollRegistry
import Calc24.Net.Interest
import Calc24.Net.TimerRequests
import Calc24.Lib.Mailbox
import Calc24.Net.OutgoingStream
import Calc24.App.Table
import Calc24.App.TwoDesks
import Calc24.App.Deals
import Calc24.App.Accepting
import Calc24.App.AcceptingRuns
import Calc24.App.Installing
import Calc24.App.Dealing
import Calc24.App.CardsFirst
import Calc24.App.Counting
import Calc24.App.Closing
import Calc24.App.LeftAlone
import Calc24.Net.TimerIds
import Calc24.V1.Receiving
import Calc24.V1.TCPServer
import Calc24.V1.SameHand
import Calc24.App.Broken
import Calc24.Net.TimerPasses
import Calc24.Net.RemovedTimers
import Calc24.Net.RepetitionLimits
import Calc24.Net.FiringTimes
import Calc24.Net.Overdue
import Calc24.App.StablePass
import Calc24.Net.PostedTasks
import Calc24.App.LogRolling
import Calc24.App.LogShutdown
import Calc24.App.LogLine
import Calc24.App.AsyncLog
import Calc24.App.EndToEnd
import Calc24.Lib.CharBuffer
import Calc24.Lib.Mutex
import Calc24.App.BinaryDump
import Calc24.V1.Seating
import Calc24.V1.Departures
import Calc24.Lib.Simulation
import Calc24.App.Chronicle
import Calc24.App.Confinement
import Calc24.App.Lobby
import Calc24.App.Game
import Calc24.Lib.Progress
import Calc24.App.Progress
import Calc24.App.Lifecycle
import Calc24.App.Balance
import Calc24.App.SameCards
import Calc24.App.Intake
import Calc24.App.Retaining
import Calc24.App.Reminded
import Calc24.Lib.Sequencer
import Calc24.V1.Chat
import Calc24.V1.OneOrder
import Calc24.Lib.Monitor
import Calc24.App.Protocol
import Calc24.App.Dialogue
import Calc24.App.Outlets
import Calc24.App.Delivery
import Calc24.App.Relay
import Calc24.App.Handover
