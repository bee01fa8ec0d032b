import Hal0.Dispatcher.AdmissionRegistry
import Hal0.Dispatcher.StreamAdmission
import Hal0.Dispatcher.StreamUsage
import Hal0.Dispatcher.SingleFlight
import Hal0.Slots.PreloadAdmit
import Hal0.Slots.LoadLocks
import Hal0.Slots.Eviction
import Hal0.Slots.ArbiterImageMode
import Hal0.Slots.ArbiterLease
import Hal0.Slots.ArbiterRecovery
import Hal0.Slots.ImageDrainRuns
import Hal0.Slots.CrashLoop
import Hal0.Slots.FabricExclusion
import Hal0.Slots.CrossSlotRuns
import Hal0.Slots.RenameRuns
import Hal0.Mcp.ApprovalSharing
import Hal0.Mcp.ApprovalSettlement
import Hal0.Bridge.WatchEnds
import Hal0.Bridge.StartsAdmitted
import Hal0.Bridge.OperatorDecides
import Hal0.Bridge.SkillChangesRuns
import Hal0.Ports.Reallocate
import Hal0.Ports.HarvestFlat
import Hal0.Dispatcher.HealthAware
import Hal0.Slots.ReservationsHold
import Hal0.Registry.DownloadVersions
import Hal0.Registry.PullsApart
import Hal0.Registry.ContentAddressed
import Hal0.Registry.FilesKept
import Hal0.Slots.MergeFlattens
import Hal0.Slots.StackDriftClean
import Hal0.Slots.ArgvCleaned
import Hal0.Slots.ArgvReasoning
import Hal0.Stacks.Converge
import Hal0.Toolloop.TextReplies
import Hal0.Toolloop.Budget
import Hal0.Toolloop.ThinkSplit
import Hal0.Normalize.ChatBodyLaws
import Hal0.Stacks.ImportLaws
import Hal0.Bridge.Output
import Hal0.Bridge.EventWindow
import Hal0.Registry.GgufWindows
import Hal0.Registry.FilesetWhole
import Hal0.Redaction.LiteralsGone
import Hal0.Registry.ModelRowLaws
