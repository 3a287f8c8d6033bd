import Sentri.Transition.Machine
import Sentri.Transition.Pipe
import Sentri.Transition.Clock
import Sentri.Transition.Retry
import Sentri.Transition.Books
import Sentri.Transition.Objects
import Sentri.Transition.Halting
import Sentri.Text.Basic
import Sentri.Text.Chunks
import Sentri.Text.Replace
import Sentri.Text.Split
import Sentri.Number.Double
import Sentri.Number.Stod
import Sentri.Number.Decimal
import Sentri.Text.JsonString
import Sentri.Text.Stream
import Sentri.LibModule.Message
import Sentri.LibModule.Rule
import Sentri.Core.Messenger
import Sentri.Core.RuleEngine.Basic
import Sentri.Core.RuleEngine.Actions
import Sentri.Core.RuleEngine.Lifecycle
import Sentri.Core.RuleEngine.Messages
import Sentri.Core.RuleEngine.Correctness
import Sentri.Core.RuleEngine.FireLimit
import Sentri.LibModule.MessageHandler
import Sentri.LibModule.FloodProtection
import Sentri.LibModule.Allowance
import Sentri.LibModule.Substitution
import Sentri.Core.Sentri
import Sentri.Core.RuleEngine.Variables
import Sentri.LibModule.Json
import Sentri.LibModule.JsonParser
import Sentri.LibModule.JsonTotal
import Sentri.LibModule.JsonText
import Sentri.LibModule.ConfigLoader
import Sentri.LibModule.RuleLoops
import Sentri.LibModule.Configuration
import Sentri.Core.RuleEngine.RuleIds
import Sentri.Core.RuleEngine.EventIds
import Sentri.Core.RuleEngine.AckQueue
import Sentri.Core.RuleEngine.Settling
import Sentri.Core.Watchdog.Basic
import Sentri.Core.Watchdog.Runs
import Sentri.Core.Watchdog.Mortality
import Sentri.Core.Watchdog.Visits
import Sentri.Core.Watchdog.Checks
import Sentri.Core.Watchdog.Patience
import Sentri.Core.Watchdog.Supervision
import Sentri.Core.Watchdog.Recording
import Sentri.Core.Watchdog.Tending
import Sentri.Core.Queues
import Sentri.Core.Handlers
import Sentri.Core.Identifier
import Sentri.Core.LogFiles
import Sentri.Core.Watchdog.Burial
import Sentri.Core.Watchdog.CriticalMortality
import Sentri.Core.Watchdog.Processes
import Sentri.Core.Watchdog.Frames
import Sentri.Core.Watchdog.Children
import Sentri.Core.Watchdog.Ownership
import Sentri.Core.Watchdog.Threads
import Sentri.Core.Watchdog.Killing
import Sentri.Core.Watchdog.Shutdown
import Sentri.Core.Watchdog.Sessions
import Sentri.Core.Watchdog.Calls
import Sentri.Core.Watchdog.Groups
import Sentri.Core.Interleaving
import Sentri.Core.Announcements
import Sentri.Modules.Mail.Module
import Sentri.Modules.Mail.Attachments
import Sentri.Modules.Sms.Module
import Sentri.Modules.Sms.System
import Sentri.Modules.Protocol
import Sentri.Modules.ActionModules
import Sentri.Modules.Receivers
import Sentri.Modules.Firebase.Module
import Sentri.Modules.Firebase.Token
import Sentri.Modules.NoiseDetection.Module
import Sentri.Modules.NoiseDetection.Recordings
import Sentri.Modules.NoiseDetection.SoundEvents
import Sentri.Modules.NoiseDetection.WavFile
import Sentri.Modules.Temperature.Sensor
import Sentri.Modules.Temperature.Decoding
import Sentri.Modules.Temperature.Polling
import Sentri.Modules.Temperature.Alarm
import Sentri.Modules.Temperature.Delivery
import Sentri.Data.CircularBuffer
import Sentri.Data.Least
import Sentri.Data.Riff
import Sentri.Modules.Video.OutputHandler
import Sentri.Modules.Video.Writers
import Sentri.Modules.Video.Motion
import Sentri.Modules.Video.Images
import Sentri.Modules.Video.Recording
import Sentri.Modules.Video.Engine
import Sentri.Modules.Video.Routes
import Sentri.Modules.Video.Frames
import Sentri.Modules.Video.Attachments
import Sentri.Modules.Video.Files
import Sentri.Modules.Video.Bookkeeping
