import RanGame.Storage.Accounting
import RanGame.Storage.SyncWrite
import RanGame.Session.Gaps
import RanGame.Session.Sweep
import RanGame.App.Players
import RanGame.App.SingleWriter
import RanGame.Match.Redis
import RanGame.App.Membership
import RanGame.App.Rollback
import RanGame.App.Resume
import RanGame.Room.Closing
import RanGame.Doudizhu.Turns
import RanGame.Games.Settlement
import RanGame.Games.QuizTimers
import RanGame.Gateway.Link
import RanGame.App.Departure
import RanGame.Transport.WebSocket
import RanGame.Protocol.Merge
import RanGame.Session.FanOut
import RanGame.App.LogicHandler
import RanGame.Storage.ReadYourWrites
import RanGame.Storage.Wal
import RanGame.Storage.Counter
import RanGame.Gateway.Invalidate
import RanGame.Cluster.RedisRegistry
import RanGame.Games.Board
import RanGame.Doudizhu.Tricks
import RanGame.Doudizhu.Secrecy
import RanGame.Cluster.Drain
import RanGame.Router.Dispatch
import RanGame.Storage.Probing
import RanGame.Games.Winners
import RanGame.Actor.Registry
import RanGame.Lib.IndexedHeap
import RanGame.Timer.Scheduler
import RanGame.Transport.RateLimit
