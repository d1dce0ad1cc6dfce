import MockAgents.Spec.ModelIndex
import MockAgents.Spec.TurnNumbering
import MockAgents.Spec.NoLostTurn
import MockAgents.Spec.TenantIsolation
import MockAgents.Spec.PipelineAgreement
import MockAgents.Spec.PipelineSessions
import MockAgents.Spec.PipelineAgents
import MockAgents.Spec.SpendLedger
import MockAgents.Spec.SpendCache
import MockAgents.Spec.Revocation
import MockAgents.Spec.NoLostInteraction
import MockAgents.Spec.StreamReplay
import MockAgents.Spec.RedactedReplay
import MockAgents.Spec.ImportReadable
import MockAgents.Spec.StreamAgreement
import MockAgents.Spec.ResponseTenancy
import MockAgents.Spec.BatchAccounting
import MockAgents.Spec.BatchLifecycle
import MockAgents.Spec.ProviderPaths
import MockAgents.Spec.RenamedFiles
import MockAgents.Spec.WatchedDirectory
import MockAgents.Spec.AgentFiles
import MockAgents.Spec.LogAccounting
import MockAgents.Spec.LogFanOut
import MockAgents.Spec.OutboxOrder
import MockAgents.Spec.RequestCorrelation
import MockAgents.Spec.EventResumption
import MockAgents.Spec.AuditWindow
import MockAgents.Spec.PipelineEdits
import MockAgents.Spec.ToolResponseChoice
import MockAgents.Spec.ReplyDiscipline
import MockAgents.Spec.SchemaConformance
import MockAgents.Spec.ErrorStatus
import MockAgents.Spec.FailFirst
import MockAgents.Server.Capture
import MockAgents.Server.ProbeModel
import MockAgents.Server.QuotaOverrides
import MockAgents.Server.Sso
