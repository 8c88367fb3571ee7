import VesselCaller.Measurements.Model
import VesselCaller.Billing.Services

/-!
# The tenant: everything the backend keeps about one organization

Every staff request and every portal request first locks the organization row, so
the requests of one organization are served one after another against one state.
`Tenant` is that state: the account scope, and the operational, billing and
measurement tables.

## Main definitions

* `Tenant` — the state;
* `Tenant.changed` — how every plan mutation ends;
* `Tenant.planData`, `Tenant.invoiceData` — the payloads.
-/

namespace VesselCaller

open Lib Accounts Billing Operations Measurements

structure Tenant extends AccountScope where
  settings : OrganizationSettings
  steps : List InvoiceStatusStep
  sequences : List NumberSequence
  calls : List VesselCall
  inspections : List Inspection
  invoices : List Invoice
  agencies : List Agency
  plans : List MeasurementPlan
  portalSessions : List PortalSession

/-- `bump_revision`. -/
def Tenant.bumpRevision (t : Tenant) : Tenant :=
  { t with organization := { t.organization with revision := t.organization.revision + 1 } }

/-- The organization's current revision. -/
def Tenant.revision (t : Tenant) : ℕ := t.organization.revision

@[simp] theorem Tenant.bumpRevision_plans (t : Tenant) : t.bumpRevision.plans = t.plans := rfl

@[simp] theorem Tenant.bumpRevision_invoices (t : Tenant) :
    t.bumpRevision.invoices = t.invoices := rfl

@[simp] theorem Tenant.bumpRevision_steps (t : Tenant) : t.bumpRevision.steps = t.steps := rfl

@[simp] theorem Tenant.bumpRevision_calls (t : Tenant) : t.bumpRevision.calls = t.calls := rfl

@[simp] theorem Tenant.bumpRevision_inspections (t : Tenant) :
    t.bumpRevision.inspections = t.inspections := rfl

@[simp] theorem Tenant.bumpRevision_users (t : Tenant) : t.bumpRevision.users = t.users := rfl

@[simp] theorem Tenant.bumpRevision_settings (t : Tenant) :
    t.bumpRevision.settings = t.settings := rfl

@[simp] theorem Tenant.bumpRevision_revision (t : Tenant) :
    t.bumpRevision.revision = t.revision + 1 := rfl

/-- `invoice_data` over the tenant's users and steps. -/
def Tenant.invoiceData (t : Tenant) (i : Invoice) : InvoiceData :=
  Billing.invoiceData t.users t.steps i

/-- `plan_context` over the tenant's users and calls. -/
def Tenant.planContext (t : Tenant) (p : MeasurementPlan) : PlanContext :=
  Measurements.planContext t.users t.calls p

/-- `plan_data` over the tenant's tables. -/
def Tenant.planData (t : Tenant) (p : MeasurementPlan) : PlanData :=
  Measurements.planData t.users t.calls t.invoices p

/-- Write a plan back. -/
def Tenant.putPlan (t : Tenant) (p : MeasurementPlan) : Tenant :=
  { t with plans := Table.put p t.plans }

/-- The plan with its version advanced. -/
def Measurements.MeasurementPlan.advance (p : MeasurementPlan) : MeasurementPlan :=
  { p with version := p.version + 1 }

/-- `changed`, with which every plan mutation ends. -/
def Tenant.changed (t : Tenant) (plan : MeasurementPlan) : Tenant :=
  (t.putPlan plan.advance).bumpRevision

end VesselCaller
