import Smink.Cache.Lock
import Smink.Cache.Service
import Smink.Chance.Counts
import Smink.Chance.Draws
import Smink.Db.HouseEdge
import Smink.Db.Schema
import Smink.Deposits.Attribution
import Smink.Deposits.Chain
import Smink.Deposits.Collision
import Smink.Deposits.Credit
import Smink.Deposits.Evidence
import Smink.Deposits.Exactly
import Smink.Deposits.Fate
import Smink.Deposits.Inspect
import Smink.Deposits.Late
import Smink.Deposits.Outage
import Smink.Deposits.Quotes
import Smink.Deposits.SpentOnce
import Smink.Deposits.Watch
import Smink.Engine.Caps
import Smink.Engine.Cursors
import Smink.Engine.Deals
import Smink.Engine.Decided
import Smink.Engine.Edge
import Smink.Engine.Expected
import Smink.Engine.Fair
import Smink.Engine.Games
import Smink.Engine.Layouts
import Smink.Engine.Legal
import Smink.Engine.Number
import Smink.Engine.Resolver
import Smink.Engine.Rng
import Smink.Engine.Rules
import Smink.Engine.Shuffle
import Smink.Engine.Unbiased
import Smink.Gateway.Auth
import Smink.Gateway.Guarded
import Smink.Gateway.Http
import Smink.Gateway.Site
import Smink.House.Casino
import Smink.House.Rounds
import Smink.Play.AllOrNothing
import Smink.Play.Audit
import Smink.Play.Balances
import Smink.Play.BetCount
import Smink.Play.Books
import Smink.Play.Caps
import Smink.Play.Counters
import Smink.Play.Effects
import Smink.Play.Explained
import Smink.Play.Grid
import Smink.Play.Hidden
import Smink.Play.Locked
import Smink.Play.Metered
import Smink.Play.OneRound
import Smink.Play.Orderly
import Smink.Play.Overdraft
import Smink.Play.Reads
import Smink.Play.Refused
import Smink.Play.Reveals
import Smink.Play.Round
import Smink.Play.Sealed
import Smink.Play.Seated
import Smink.Play.Secrecy
import Smink.Play.Separate
import Smink.Play.Serial
import Smink.Play.Service
import Smink.Play.SettledOnce
import Smink.Play.Shown
import Smink.Play.Spared
import Smink.Play.Stranded
import Smink.Play.Turns
import Smink.Play.Verifiable
import Smink.Rpc.Answer
import Smink.Rpc.Channels
import Smink.Rpc.Confined
import Smink.Rpc.Engine
import Smink.Rpc.History
import Smink.Rpc.Hush
import Smink.Rpc.Net
import Smink.Rpc.Recorded
import Smink.Store.Alone
import Smink.Store.Atomic
import Smink.Store.Embed
import Smink.Store.Expiring
import Smink.Store.Pool
import Smink.Store.Prog
import Smink.Store.Serial
import Smink.Store.Simulation
import Smink.Store.Table
import Smink.Worker.Agree
import Smink.Worker.Session
