import Newide.Foundation.AppendOnly
import Newide.Foundation.Fallible
import Newide.Foundation.Rows
import Newide.Foundation.Runs
import Newide.Foundation.Statements
import Newide.Foundation.Upserts
import Newide.Foundation.Transactions
import Newide.Ownership
import Newide.Recovery
import Newide.Delivery
import Newide.ResumeRounds
import Newide.CouncilOverride
import Newide.ChangesetBinding
import Newide.MailboxInbox
import Newide.ParticipantSessions
import Newide.MailboxWaits
import Newide.StageMarker
import Newide.LeaseFencing
import Newide.JournalReplay
import Newide.SapAdmission
import Newide.Archiving
import Newide.AcceptanceWindow
import Newide.FinishedRuns
import Newide.CouncilRuns
import Newide.WaitRuns
import Newide.WorkspaceRestores
import Newide.MailboxReplies
import Newide.Memory.DeliveryClaim
import Newide.Memory.RecordLock
import Newide.Memory.PersonaHistory
import Newide.Usage.BilledOnce
import Newide.Memory.OrphanSkills
import Newide.Memory.FeedbackOnce
import Newide.Memory.BufferSoundness
import Newide.App.RunSettlement
import Newide.App.RunSubscription
import Newide.Hook.LayerMerge
import Newide.Driver.Attempts
import Newide.Driver.AgentDirLock
import Newide.Hook.EngineRuns
import Newide.Memory.ExtractedOnce
import Newide.Memory.SkillRuns
import Newide.Memory.EvolvedOnce
import Newide.Driver.RoutingRuns
import Newide.Council.Resume
import Newide.Gate.SchedulerRuns
import Newide.Hook.Composites
import Newide.Hook.ClosedConfigs
import Newide.Gate.HttpRunner
import Newide.Gate.PromptRunner
import Newide.Gate.CoverageGate
import Newide.Hook.SafeScope
import Newide.Hook.ConditionGlobs
import Newide.Gate.SarifReports
import Newide.App.TimelineNumbers
import Newide.Usage.DriverViews
import Newide.Usage.PayloadAmounts
import Newide.Memory.PersonaInputHash
import Newide.Driver.StderrLines
import Newide.ExecutionLoop
import Newide.LoopRuns
import Newide.Council.Workspace
import Newide.Driver.DriverReturns
import Newide.Council.SeatResolution
import Newide.Usage.BilledMerge
import Newide.App.DriverActivity
import Newide.TaskHistory
import Newide.Memory.MaintenanceRuns
import Newide.Usage.SessionFiles
