import MarketKill3r.Engine.PlanGeometry
import MarketKill3r.Engine.Stop
import MarketKill3r.Engine.Neutrality
import MarketKill3r.Engine.SmtSoundness
import MarketKill3r.Engine.UnitFree
import MarketKill3r.Engine.LookAhead
import MarketKill3r.Lib.Sys
import MarketKill3r.Lib.Reservation
import MarketKill3r.Lib.UniqueTable
import MarketKill3r.Market.Feeds
import MarketKill3r.Market.Keys
import MarketKill3r.Market.CalendarItems
import MarketKill3r.Signals.Persist
import MarketKill3r.Signals.Drain
import MarketKill3r.Signals.Overlap
import MarketKill3r.Auth.Provenance
import MarketKill3r.Auth.Issue
import MarketKill3r.Auth.SingleUse
import MarketKill3r.Auth.Atomic
import MarketKill3r.Auth.Families
import MarketKill3r.Auth.Mailing
import MarketKill3r.Api.RateLimit
import MarketKill3r.Api.Access
import MarketKill3r.Engine.EventSpec
import MarketKill3r.Engine.Clusters
import MarketKill3r.Engine.DealingRange
import MarketKill3r.Engine.BlockCandles
import MarketKill3r.Engine.Labels
import MarketKill3r.Analysis.Store
import MarketKill3r.Market.Freshness
import MarketKill3r.Engine.Facade
import MarketKill3r.Analysis.Request
import MarketKill3r.Analysis.Outcome
import MarketKill3r.Analysis.Service
import MarketKill3r.Analysis.Narrator
import MarketKill3r.Engine.Sessions
import MarketKill3r.Analysis.Timeframes
import MarketKill3r.Auth.Ended
import MarketKill3r.Analysis.Isolation
