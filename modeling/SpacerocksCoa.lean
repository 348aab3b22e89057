import SpacerocksCoa.TransactionalPrograms
import SpacerocksCoa.VerifiedOrders
import SpacerocksCoa.PaymentWebhooks
import SpacerocksCoa.OrderStateMachine
import SpacerocksCoa.StickyRejections
import SpacerocksCoa.JobRecovery
import SpacerocksCoa.JobFencing
import SpacerocksCoa.DecreasedEvidence
import SpacerocksCoa.ResendEvents
import SpacerocksCoa.HonestRuns
import SpacerocksCoa.StateEventLog
import SpacerocksCoa.DeliveryOrder
import SpacerocksCoa.OutboxLeases
import SpacerocksCoa.OutboxLifecycle
import SpacerocksCoa.DeliveryGuard
import SpacerocksCoa.CheckoutReservations
import SpacerocksCoa.TokenRotation
import SpacerocksCoa.BitcoinCore
import SpacerocksCoa.ChainGrowth
import SpacerocksCoa.CalendarStamping
import SpacerocksCoa.CalendarUpgrades
import SpacerocksCoa.RefundRecognition
import SpacerocksCoa.VerifierAgreement
import SpacerocksCoa.CheckoutUrls
import SpacerocksCoa.StampRecovery
import SpacerocksCoa.MetbullPipeline
import SpacerocksCoa.PackageVerifier
import SpacerocksCoa.Receipts
import SpacerocksCoa.AttemptHistory
import SpacerocksCoa.ZipDirectory
import SpacerocksCoa.JsonText
import SpacerocksCoa.JsonOrder
import SpacerocksCoa.Base64Text
import SpacerocksCoa.IdempotencyKeys
import SpacerocksCoa.ManifestJson
import SpacerocksCoa.SnapshotReplacement
import SpacerocksCoa.SessionStorage
import SpacerocksCoa.ProofStore
import SpacerocksCoa.RepeatedDelivery
import SpacerocksCoa.PendingDownload
import SpacerocksCoa.ManifestSchema
import SpacerocksCoa.StatusContract
import SpacerocksCoa.BatonNeverLost
import SpacerocksCoa.HeaderProofOfWork
import SpacerocksCoa.FreshSearch
import SpacerocksCoa.FileNames
import SpacerocksCoa.TreeTraversal
import SpacerocksCoa.ReadManifests
import SpacerocksCoa.PhotographMetadata
import SpacerocksCoa.CertificatePackages
import SpacerocksCoa.PackageReading
import SpacerocksCoa.PackageVerdict
import SpacerocksCoa.StoredArchives
import SpacerocksCoa.PackageRoundTrip
import SpacerocksCoa.TaskDelivery
import SpacerocksCoa.OfflinePackages
import SpacerocksCoa.KeySessions
import SpacerocksCoa.RateLimits
import SpacerocksCoa.WebhookSignatures
