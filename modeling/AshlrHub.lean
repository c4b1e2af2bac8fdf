import AshlrHub.Authority.LedgerTamper
import AshlrHub.Authority.ClampRun
import AshlrHub.Authority.BudgetClamp
import AshlrHub.Authority.ProtectedPaths
import AshlrHub.Records.Commit
import AshlrHub.Resources.PoolBounds
import AshlrHub.Universe.PortfolioControllerRoom
import AshlrHub.Universe.CampaignSessions
import AshlrHub.Fleet.PostMergeSafety
import AshlrHub.Fleet.PostMergeCoverage
import AshlrHub.Fleet.HostMergeUpdatesRun
import AshlrHub.Fleet.QueueLockSafety
import AshlrHub.Authority.LedgerGrowth
import AshlrHub.Fleet.RepoHoldsRun
import AshlrHub.Fleet.QuotaBounds
import AshlrHub.Routing.RankingOrder
import AshlrHub.Routing.Eligibility
import AshlrHub.Resources.PoolPlan
import AshlrHub.Authority.RolloutLadder
import AshlrHub.Authority.ReserveWatchRun
import AshlrHub.Authority.GrantDiffComplete
import AshlrHub.Resources.ObservationRepeat
import AshlrHub.Universe.GitBlobFrames
import AshlrHub.Universe.PaymentBrokerReplay
import AshlrHub.Universe.PortfolioGraph
import AshlrHub.Universe.EliteOrder
import AshlrHub.Universe.IntegrationReady
import AshlrHub.Vision.MissionClosure
import AshlrHub.Resources.SupervisorHeadroom
import AshlrHub.Verse.TurnQueue
import AshlrHub.Fleet.CommitTrailers
import AshlrHub.Fleet.JudgeGate
import AshlrHub.Fleet.SharedStoreReplay
import AshlrHub.Fleet.PostMergeWindow
