import VesselCaller.Accounts.Supersession
import VesselCaller.Accounts.PasswordChange
import VesselCaller.Accounts.AccessDecision
import VesselCaller.Accounts.MfaAttempts
import VesselCaller.Accounts.JoinRequests
import VesselCaller.Platform.Suspension
import VesselCaller.Platform.Idempotency
import VesselCaller.Outbox.Delivery
import VesselCaller.Billing.Settleable
import VesselCaller.Billing.StatusHistory
import VesselCaller.Operations.Inspections
import VesselCaller.Operations.StoredCaptures
import VesselCaller.Client.Acknowledgement
import VesselCaller.Client.Removal
import VesselCaller.Client.AuthBoundary
import VesselCaller.Measurements.Noninterference
import VesselCaller.Measurements.PortalProtocol
import VesselCaller.Measurements.Versioning
import VesselCaller.Measurements.Finality
import VesselCaller.Measurements.CumulativeBilling
import VesselCaller.Closeout.Storage
import VesselCaller.Billing.IssueDates
import VesselCaller.Billing.Reordering
import VesselCaller.Measurements.ChargeRule
import VesselCaller.Measurements.Issuable
import VesselCaller.Operations.Arithmetic
import VesselCaller.Measurements.Arithmetic
import VesselCaller.Measurements.ConfigurationLock
import VesselCaller.Billing.Reopening
import VesselCaller.Closeout.VoyageProgress
import VesselCaller.Closeout.Exactness
import VesselCaller.Closeout.Fingerprint
import VesselCaller.Closeout.RepeatedCalls
import VesselCaller.Closeout.InvoiceGate
import VesselCaller.Closeout.ReadingsForm
import VesselCaller.Closeout.TariffUnits
import VesselCaller.Measurements.LineCoverage
import VesselCaller.Measurements.EvidenceFinalization
import VesselCaller.Legacy.Reconciliation
import VesselCaller.Billing.Numbering
import VesselCaller.Closeout.ChargeAgreement
import VesselCaller.Announcements
import VesselCaller.Operations.Concurrency
import VesselCaller.References
import VesselCaller.Measurements.Acceptance
import VesselCaller.Measurements.Backing
import VesselCaller.Workspace.Gates
