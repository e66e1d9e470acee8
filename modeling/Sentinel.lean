import Sentinel.Ring.Proofs.EvidenceProofs
import Sentinel.Ring.Proofs.ReclaimProofs
import Sentinel.Ring.Proofs.NextWriteProofs
import Sentinel.Ring.Proofs.ConfigureProofs
import Sentinel.Reservation.Proofs.CheckProofs
import Sentinel.Notifications.Proofs.AlertsProofs
import Sentinel.Recording.Proofs.AllowanceProofs
import Sentinel.Recording.Proofs.PressureProofs
import Sentinel.Storage.Proofs.MigrationsProofs
import Sentinel.Recording.Proofs.CapacityProofs
import Sentinel.Pairing.Proofs.LedgerProofs
import Sentinel.Uvc.Proofs.IdentityProofs
import Sentinel.Uvc.Proofs.DeliveryProofs
import Sentinel.Integrity.Proofs.OutboxProofs
import Sentinel.Monitoring.Proofs.RunMarkerProofs
import Sentinel.Monitoring.Proofs.StorageTickProofs
import Sentinel.Access.Proofs.InvitationCodeProofs
import Sentinel.Webauthn.Proofs.AuthenticatorDataProofs
import Sentinel.Reservation.Proofs.ProcNetProofs
import Sentinel.Notifications.Proofs.StartProofs
import Sentinel.Pairing.Proofs.RenewalsProofs
import Sentinel.Detection.Proofs.SceneProofs
import Sentinel.Detection.Proofs.LossProofs
import Sentinel.Detection.Proofs.CaptureProofs
import Sentinel.Detection.Proofs.EntranceProofs
import Sentinel.Detection.Proofs.GateProofs
import Sentinel.Uvc.Proofs.HealthWriterProofs
import Sentinel.Uvc.Proofs.HealthSinkProofs
import Sentinel.Monitoring.Proofs.DownTimeProofs
import Sentinel.Monitoring.Proofs.AccessProofs
import Sentinel.Monitoring.Proofs.FindingProofs
import Sentinel.Monitoring.Proofs.OfflineProofs
import Sentinel.Ring.Proofs.HorizonProofs
import Sentinel.Ring.Proofs.CoverageProofs
import Sentinel.Continuity.Proofs.AttemptsProofs
import Sentinel.Media.Proofs.SamplingProofs
import Sentinel.Media.Proofs.PipelineProofs
import Sentinel.Detection.Proofs.PolygonProofs
import Sentinel.Detection.Proofs.MjpgProofs
import Sentinel.Detection.Proofs.SchedulerProofs
import Sentinel.Audit.Proofs.CleanupProofs
