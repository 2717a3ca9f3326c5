import Xmppd.CStrings
import Xmppd.FileTree
import Xmppd.LibXml
import Xmppd.Util
import Xmppd.ServerState
import Xmppd.User
import Xmppd.Roster
import Xmppd.Message
import Xmppd.Presence
import Xmppd.Streams
import Xmppd.Auth
import Xmppd.Stanza
import Xmppd.Frames
import Xmppd.EventLoop
import Xmppd.Evolution
import Xmppd.Installation
import Xmppd.AuthGate
import Xmppd.Conflict
import Xmppd.RosterItems
import Xmppd.RosterStore
import Xmppd.Offline
import Xmppd.Coherence
import Xmppd.RosterTraffic
import Xmppd.Grants
import Xmppd.Accounts
import Xmppd.Entries
import Xmppd.Subscriptions
import Xmppd.Silence
import Xmppd.Removal
import Xmppd.SessionTable
import Xmppd.OutputQueue
import Xmppd.Closing
import Xmppd.Chunking
import Xmppd.GoRegistry
import Xmppd.GoXml
import Xmppd.Programs
import Xmppd.GoSession
import Xmppd.GoMessage
import Xmppd.GoPresence
import Xmppd.GoStanza
import Xmppd.GoSender
import Xmppd.XmlReader
import Xmppd.GoRosterFile
import Xmppd.XmlElements
import Xmppd.Namespaces
import Xmppd.GoSerialization
import Xmppd.GoReplies
import Xmppd.ReadModifyWrite
import Xmppd.GoWorld
import Xmppd.GoRosterRace
import Xmppd.GoOfflineRace
import Xmppd.GoDelivery
import Xmppd.GoConflict
import Xmppd.GoReplaced
import Xmppd.GoAuthGate
import Xmppd.Confinement
import Xmppd.Identity
import Xmppd.Passwords
import Xmppd.Phases
import Xmppd.GoReachable
import Xmppd.Unreadable
import Xmppd.LegalItems
import Xmppd.PendingRequests
import Xmppd.TreeBuilding
import Xmppd.GoRegistration
import Xmppd.PaddedNumbers
import Xmppd.GoOfflineOrder
import Xmppd.OfflineDirectory
import Xmppd.MessageFate
import Xmppd.OfflineOrder
import Xmppd.Outputs
import Xmppd.IqAnswers
import Xmppd.Recipients
import Xmppd.ErrorReplies
import Xmppd.BeforeBind
import Xmppd.Scanning
import Xmppd.UserConf
import Xmppd.PlainPayload
import Xmppd.Addresses
import Xmppd.Addressing
import Xmppd.RosterPushes
import Xmppd.KeyedLists
import Xmppd.RosterSets
import Xmppd.GoRosterSets
import Xmppd.KeptRosters
import Xmppd.DistinctItems
import Xmppd.SubscriptionEffects
import Xmppd.Misaddressed
import Xmppd.OnlineContacts
import Xmppd.Base64
import Xmppd.Base64Arrays
import Xmppd.PlainArrays
import Xmppd.AccountCreation
import Xmppd.OwnAccount
import Xmppd.EventPass
import Xmppd.Rounds
import Xmppd.Draining
import Xmppd.GoDecoder
import Xmppd.GoRebind
import Xmppd.Escaping
import Xmppd.GoEscaping
import Xmppd.ExchangeSort
import Xmppd.Filenames
import Xmppd.OfflineNumbers
import Xmppd.Lockstep
import Xmppd.Triples
import Xmppd.RosterFamilies
import Xmppd.GoRosterFamilies
import Xmppd.SubscriptionAgreement
import Xmppd.LastWords
import Xmppd.Announcements
import Xmppd.Notices
import Xmppd.Voices
import Xmppd.Informing
import Xmppd.Availability
import Xmppd.GrantHistory
import Xmppd.Bookkeeping
import Xmppd.Reading
import Xmppd.Monitors
import Xmppd.GoMonitor
import Xmppd.Locking
import Xmppd.GoAnswers
import Xmppd.GoLocks
import Xmppd.GoRegistered
import Xmppd.ServerConf
import Xmppd.SaslText
import Xmppd.Revisions
import Xmppd.DistinctEntries
import Xmppd.Queues
import Xmppd.Mailboxes
import Xmppd.Crashes
import Xmppd.PasswordHistory
