import KoSta.Answers
import KoSta.Client.Authenticate
import KoSta.Client.Calls
import KoSta.Client.DhChecks
import KoSta.Client.Factor
import KoSta.Client.Factoring
import KoSta.Client.Histories
import KoSta.Client.Primality
import KoSta.Client.Receive
import KoSta.Client.Rho
import KoSta.Client.Send
import KoSta.Client.Session
import KoSta.Clocks
import KoSta.Company
import KoSta.Conversation
import KoSta.Crypto.Envelopes
import KoSta.Crypto.Frame
import KoSta.Crypto.Keys
import KoSta.Crypto.SessionCrypto
import KoSta.Delivery
import KoSta.KeyAgreement
import KoSta.Lib.Desk
import KoSta.Lib.Endian
import KoSta.Lib.Knowledge
import KoSta.Lib.Lru
import KoSta.Lib.Lucas
import KoSta.Lib.ModPow
import KoSta.Lib.Presence
import KoSta.Lib.Prog
import KoSta.Lib.Reader
import KoSta.Lib.Refinement
import KoSta.Lib.Rewriting
import KoSta.Lib.Stalling
import KoSta.Lib.System
import KoSta.Link
import KoSta.MsgId
import KoSta.Platform
import KoSta.PublicValue
import KoSta.Rekeying
import KoSta.Senders
import KoSta.Server.Accounts
import KoSta.Server.Authorship
import KoSta.Server.BoundedCache
import KoSta.Server.Checks
import KoSta.Server.Correspondence
import KoSta.Server.Coupling
import KoSta.Server.Database
import KoSta.Server.DialogInfos
import KoSta.Server.Dialogs
import KoSta.Server.Duplicates
import KoSta.Server.Edits
import KoSta.Server.Effects
import KoSta.Server.Encapsulation
import KoSta.Server.Exchanges
import KoSta.Server.Explained
import KoSta.Server.HandleClient
import KoSta.Server.Handlers
import KoSta.Server.Holdings
import KoSta.Server.Interleavings
import KoSta.Server.KeyExchange
import KoSta.Server.Loops
import KoSta.Server.Neighbours
import KoSta.Server.Nonces
import KoSta.Server.OneByOne
import KoSta.Server.Outsiders
import KoSta.Server.Ownership
import KoSta.Server.PrivateDialogs
import KoSta.Server.Quiet
import KoSta.Server.RateLimiter
import KoSta.Server.Receivable
import KoSta.Server.Rejections
import KoSta.Server.Replays
import KoSta.Server.Replies
import KoSta.Server.Responses
import KoSta.Server.Runs
import KoSta.Server.Serial
import KoSta.Server.SerialRuns
import KoSta.Server.SessionCache
import KoSta.Server.SessionUpdates
import KoSta.Server.Standing
import KoSta.Server.Tables
import KoSta.Server.Turn
import KoSta.Server.Unregistered
import KoSta.Server.Verdicts
import KoSta.Server.Watch
import KoSta.Server.Works
import KoSta.Server.World
import KoSta.Service
import KoSta.Statuses
import KoSta.Tl.Canonical
import KoSta.Tl.Constructors
import KoSta.Tl.Layout
import KoSta.Tl.Object
import KoSta.Tl.Roundtrip
import KoSta.Tl.Sizes
import KoSta.Tl.Types
import KoSta.Transport.Abridged
import KoSta.Transport.Chunks
import KoSta.Transport.Frames
import KoSta.Transport.Timeouts
import KoSta.Web.Deliveries
import KoSta.Web.Handlers
import KoSta.Web.History
import KoSta.Web.Logins
import KoSta.Web.Members
import KoSta.Web.Models
import KoSta.Web.Presence
import KoSta.Web.Reads
import KoSta.Web.Recipients
import KoSta.Web.Runs
import KoSta.Web.State
import KoSta.Web.Ws
