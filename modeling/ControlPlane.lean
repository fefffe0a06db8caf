import ControlPlane.RunMachine
import ControlPlane.ThreadPool
import ControlPlane.RecursiveQuery
import ControlPlane.JsText
import ControlPlane.JsValue
import ControlPlane.HttpValidate
import ControlPlane.CircuitBreaker
import ControlPlane.BreakerAttempts
import ControlPlane.DeliveryMachine
import ControlPlane.DeliverySteps
import ControlPlane.DeliveryClaim
import ControlPlane.DeliveryFinality
import ControlPlane.DeliveryBudget
import ControlPlane.DeliveryProbe
import ControlPlane.DeliveryUnsubscribe
import ControlPlane.EnrollmentToken
import ControlPlane.EnrollmentRetention
import ControlPlane.TctParse
import ControlPlane.TctMonitor
import ControlPlane.TctRows
import ControlPlane.TctCustody
import ControlPlane.RevocationRoute
import ControlPlane.RevocationClosure
import ControlPlane.RequestGate
import ControlPlane.AdminAudit
import ControlPlane.AdminRoutes
import ControlPlane.AgentRoute
import ControlPlane.AuditCompleteness
import ControlPlane.RegistrationAtomicity
import ControlPlane.RegistryCustody
import ControlPlane.Idempotency
import ControlPlane.RevocationMachine
import ControlPlane.RevocationAttribution
import ControlPlane.RevocationAnswer
import ControlPlane.RevocationContent
import ControlPlane.LateRevocation
import ControlPlane.ProjectionOrder
import ControlPlane.EventNormalize
import ControlPlane.KeyedReplay
import ControlPlane.SessionMonitor
import ControlPlane.JsNumberText
import ControlPlane.JsonText
import ControlPlane.EventId
import ControlPlane.EventIdentity
import ControlPlane.NamedPool
import ControlPlane.EventIngest
import ControlPlane.EventFanout
import ControlPlane.ProducerIds
import ControlPlane.ProducerIsolation
import ControlPlane.KeyedRows
import ControlPlane.RevocationHistory
import ControlPlane.ApiKeys
import ControlPlane.RevocationRelay
import ControlPlane.IdempotencyAgreement
import ControlPlane.TrustAnchorCache
import ControlPlane.AgentLifecycle
import ControlPlane.ExpiryEvents
import ControlPlane.DeregistrationGrace
import ControlPlane.ManifestCast
import ControlPlane.IpText
import ControlPlane.UrlGuard
import ControlPlane.PrivateAddress
import ControlPlane.MediatedFetch
import ControlPlane.OutboundUrls
import ControlPlane.Exposition
import ControlPlane.MetricsRoute
import ControlPlane.CascadeReach
import ControlPlane.DelegationTree
import ControlPlane.EntryIsolation
import ControlPlane.SessionCompleteness
import ControlPlane.KeyedCells
import ControlPlane.RateLimiter
import ControlPlane.KeyBudgets
import ControlPlane.ClientIp
import ControlPlane.AttemptOutcome
import ControlPlane.DeliverySignatures
import ControlPlane.Utf8Text
import ControlPlane.JsonReader
import ControlPlane.SseText
import ControlPlane.EventStream
import ControlPlane.StreamSlots
import ControlPlane.StreamDelivery
import ControlPlane.StackWalk
import ControlPlane.PayloadWalk
import ControlPlane.EventValidation
import ControlPlane.DoubleRounding
import ControlPlane.ManifestStorage
import ControlPlane.EnrollRegister
import ControlPlane.BreakerHistory
import ControlPlane.FixedWindow
import ControlPlane.RateWindows
import ControlPlane.ConfigNumber
import ControlPlane.RetryBackoff
import ControlPlane.FirstByKey
import ControlPlane.KeyLists
import ControlPlane.LabelSecrecy
import ControlPlane.DelegationIds
import ControlPlane.OffsetPaging
import ControlPlane.ListQueries
import ControlPlane.KeysetPaging
import ControlPlane.TallyTable
import ControlPlane.AuditReview
import ControlPlane.CanonicalForm
import ControlPlane.Utf8Decoder
import ControlPlane.BoundedBody
import ControlPlane.BatchDrain
import ControlPlane.DeliveryWaits
import ControlPlane.DeliveryRecovery
import ControlPlane.DeliveryRequests
import ControlPlane.OutboxRecovery
import ControlPlane.RetentionSweep
import ControlPlane.RetentionDrain
import ControlPlane.RunSimulation
import ControlPlane.IdempotencyRetention
import ControlPlane.CpSeed
import ControlPlane.ProcessBoot
import ControlPlane.AuditAttribution
import ControlPlane.JsonLines
import ControlPlane.ExportRoutes
import ControlPlane.EnrollRoute
import ControlPlane.Shutdown
import ControlPlane.PoolSums
import ControlPlane.IngestLedger
import ControlPlane.UpsertHistory
import ControlPlane.PinnedKeys
import ControlPlane.GrowingPages
import ControlPlane.IssuerWalk
import ControlPlane.RenamedRuns
import ControlPlane.WebhookSecrets
import ControlPlane.ScrapedProcess
