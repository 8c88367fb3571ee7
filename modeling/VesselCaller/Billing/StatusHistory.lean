import VesselCaller.Billing.Ledger
import VesselCaller.Lib.Trail

/-!
# The status history of an invoice

The workflow step an invoice stands in is stored on the row; how it came there is
stored in its status events, which nothing but the two creation paths and
`transition_invoice` writes.  The events are a *trail* (`Lib.Trail`) from no step at
all to the step the invoice stands in: `reconcile_payment_status` reads them backwards
to find where a reversal goes back to, so a gap would send the invoice astray.

`LogStep` is what a request can do to the events of one invoice; the trail survives it,
and the events of an invoice only grow along a run.

## Main definitions

* `Invoice.Logged` — the events are a trail to the step the invoice stands in;
* `LogStep`, `Histories` — the same, step by step and along a run.
-/

namespace VesselCaller.Billing

open Lib Accounts Operations Measurements

variable {ctx : Ctx} {steps : List InvoiceStatusStep} {i i' : Invoice} {t t' : Tenant}

/-- The events of the invoice lead from no step to the step it stands in. -/
def Invoice.Logged (i : Invoice) : Prop :=
  Trail InvoiceStatusEvent.fromStep InvoiceStatusEvent.toStep none i.events i.currentStatus

/-- What a request does to the log of one invoice: nothing while the invoice stays in its
step, and one event when it moves. -/
inductive LogStep (i i' : Invoice) : Prop where
  | stayed (step : i'.currentStatus = i.currentStatus) (events : i'.events = i.events)
  | moved (e : InvoiceStatusEvent) (source : e.fromStep = i.currentStatus)
      (target : e.toStep = i'.currentStatus) (step : i'.currentStatus ≠ i.currentStatus)
      (events : i'.events = i.events ++ [e])

theorem LogStep.logged (hstep : LogStep i i') (h : i.Logged) : i'.Logged := by
  cases hstep with
  | stayed step events =>
      unfold Invoice.Logged
      rw [step, events]
      exact h
  | moved e source target step events =>
      unfold Invoice.Logged
      rw [events, ← target]
      exact Trail.concat source (target ▸ step) h

theorem LogStep.isPrefix (h : LogStep i i') : i.events <+: i'.events := by
  cases h with
  | stayed _ events => exact events ▸ List.prefix_rfl
  | moved e _ _ _ events => exact events ▸ List.prefix_append _ _

theorem LogStep.events_of_stayed (h : LogStep i i') (hstep : i'.currentStatus = i.currentStatus) :
    i'.events = i.events := by
  cases h with
  | stayed _ events => exact events
  | moved _ _ _ step _ => exact absurd hstep step

/-- The step an invoice stands in is the one its column names. -/
theorem Ledger.currentStep (h : Ledger steps i) (hw : Workflow steps) :
    ∃ s ∈ steps, i.currentStatus = some s.id ∧
      i.currentStatus.bind (Table.get · steps) = some s ∧ i.status = statusOfStep (some s) := by
  obtain ⟨s, hs, hcurrent, hpaid⟩ := h.stands
  have hget : Table.get s.id steps = some s := Table.get_of_mem hw.ids hs
  refine ⟨s, hs, hcurrent, by rw [hcurrent]; exact hget, ?_⟩
  have hlive := h.live
  by_cases hs' : s.isPaid = true
  · simp [statusOfStep, hs', hpaid.mp hs']
  · have hunpaid : i.status ≠ .paid := fun hp => hs' (hpaid.mpr hp)
    cases hstatus : i.status with
    | unpaid => simp [statusOfStep, hs']
    | paid => exact absurd hstatus hunpaid
    | void => exact absurd hstatus hlive

/-- A transition of a live invoice that stands in a step of the workflow is a log step. -/
theorem transitionInvoice_log {step : InvoiceStatusStep} {source : EventSource}
    {actor : Option Id} {note : String} {recorded : Bool} {s : InvoiceStatusStep}
    (hlive : i.status ≠ .void) (hcurrent : i.currentStatus = some s.id)
    (hget : i.currentStatus.bind (Table.get · steps) = some s)
    (h : transitionInvoice ctx steps i (some step) source actor note = .ok (i', recorded)) :
    LogStep i i' := by
  obtain ⟨_, rfl, _⟩ | ⟨_, hmoves, rfl⟩ := transitionInvoice_eq_ok h
  · exact .stayed rfl rfl
  · refine .moved _ ?_ rfl ?_ rfl
    · rw [hget, hcurrent]
      rfl
    · exact fun heq => hmoves ⟨heq.symm, hlive⟩

/-- Moving money is a log step, whatever it does to the payments before. -/
theorem reconcilePaymentStatus_log {source : EventSource} {actor : Option Id}
    {payments : List Payment} (hw : Workflow steps) (h : Ledger steps i)
    (hreconcile : reconcilePaymentStatus ctx steps { i with payments := payments } source actor =
      .ok (i', steps)) : LogStep i i' := by
  obtain ⟨s, _, hcurrent, hget, _⟩ := h.currentStep hw
  -- The log and the step of the invoice are those it had before its payments changed.
  have hsame : LogStep { i with payments := payments } i' → LogStep i i' := by
    rintro (⟨step, events⟩ | ⟨e, source, target, step, events⟩)
    · exact .stayed step events
    · exact .moved e source target step events
  obtain ⟨_, ⟨hvoid, _⟩ | ⟨hlive, _, step, _, _, _, htransition⟩ | ⟨_, _, rfl, _⟩ |
    ⟨hlive, _, step, _, _, _, htransition⟩⟩ := reconcilePaymentStatus_eq_ok hw hreconcile
  · exact absurd hvoid h.live
  · exact hsame (transitionInvoice_log hlive hcurrent hget htransition)
  · exact hsame (.stayed rfl rfl)
  · exact hsame (transitionInvoice_log hlive hcurrent hget htransition)

theorem Settlement.log (hs : Settlement steps i i') (hw : Workflow steps) (h : Ledger steps i) :
    LogStep i i' := by
  cases hs with
  | paid ctx actor payment _ hreconcile => exact reconcilePaymentStatus_log hw h hreconcile
  | reversed ctx actor payment payment' _ _ _ hreconcile =>
      exact reconcilePaymentStatus_log hw h hreconcile
  | moved ctx actor note step hlive _ _ _ htransition =>
      obtain ⟨s, _, hcurrent, hget, _⟩ := h.currentStep hw
      exact transitionInvoice_log hlive hcurrent hget htransition

/-- Both creation paths open the log. -/
theorem Origin.opening {r : Request} (h : Origin r t t' i) : Opening i := by
  cases h with
  | harbour actor ctx op call inspection _ _ hbill => exact hbill.opening
  | disparity p p' a _ _ hissued => exact hissued.opening

theorem Opening.logged {s : Id} (h : Opening i) (hcurrent : i.currentStatus = some s) :
    i.Logged := by
  obtain ⟨e, hevents, hfrom, hto⟩ := h
  unfold Invoice.Logged
  rw [hevents]
  refine ⟨hfrom, ?_, hto⟩
  rw [hto, hcurrent]
  exact Option.some_ne_none s

/-! ## Requests and runs -/

/-- **One request, one invoice.**  An invoice that is there stays there, and the request
is a step of its log. -/
theorem Ledgers.log {sha : Sha256} {r : Request} {a : VesselCaller.Response} (h : Ledgers t)
    (hr : t.handle sha r = .ok (t', a)) (hget : Table.get i.id t.invoices = some i) :
    ∃ i', Table.get i.id t'.invoices = some i' ∧ LogStep i i' := by
  have mem := (Table.mem_of_get hget).1
  cases handle_ledger h.workflow hr with
  | untouched _ invoices => exact ⟨i, invoices ▸ hget, .stayed rfl rfl⟩
  | configured _ invoices => exact ⟨i, invoices ▸ hget, .stayed rfl rfl⟩
  | opened j _ _ _ _ fresh _ _ _ _ invoices =>
      refine ⟨i, ?_, .stayed rfl rfl⟩
      have hne : key j ≠ i.id := fun heq => fresh (Table.mem_keys.mpr ⟨i, mem, heq.symm⟩)
      rw [invoices, Table.get, List.find?_cons_of_neg (by simpa using hne)]
      exact hget
  | settled j j' hj hsettled _ invoices _ =>
      rw [invoices]
      by_cases hk : i.id = j'.id
      · obtain rfl : j = i :=
          Table.eq_of_key_eq h.keys hj mem (hsettled.sameCharge.id.symm.trans hk.symm)
        refine ⟨j', ?_, hsettled.log h.workflow (h.ledger j mem)⟩
        rw [hk] at hget ⊢
        exact Table.get_put_self hget
      · exact ⟨i, (Table.get_put_of_ne hk).trans hget, .stayed rfl rfl⟩

/-- Every invoice has its ledger and its log in order. -/
structure Histories (t : Tenant) : Prop extends Ledgers t where
  logged : ∀ i ∈ t.invoices, i.Logged

theorem Histories.ofInitial (h : t.Initial) : Histories t where
  toLedgers := .ofInitial h
  logged := by simp [h.invoices]

theorem Histories.step {sha : Sha256} {r : Request} {a : VesselCaller.Response}
    (h : Histories t) (hr : t.handle sha r = .ok (t', a)) : Histories t' where
  toLedgers := h.toLedgers.step hr
  logged := by
    cases handle_ledger h.workflow hr with
    | untouched _ invoices => exact invoices ▸ h.logged
    | configured _ invoices => exact invoices ▸ h.logged
    | opened j origin s _ _ _ _ currentStatus _ _ invoices =>
        rw [invoices]
        intro i hi
        obtain rfl | hi := List.mem_cons.mp hi
        · exact origin.opening.logged currentStatus
        · exact h.logged i hi
    | settled j j' hj hsettled _ invoices _ =>
        rw [invoices]
        intro i hi
        obtain rfl | ⟨hi, _⟩ := Table.mem_put hi
        · exact (hsettled.log h.workflow (h.ledger j hj)).logged (h.logged j hj)
        · exact h.logged i hi

theorem Histories.run {sha : Sha256} (h : Histories t) (rs : List Request) :
    Histories (run (Tenant.handle sha) t rs) :=
  run_invariant (fun hs hr => hs.step hr) rs h

/-- Along a run the log of an invoice only grows. -/
theorem Ledgers.log_isPrefix (sha : Sha256) (h : Ledgers t)
    (hget : Table.get i.id t.invoices = some i) (rs : List Request) :
    ∃ i', Table.get i.id (Lib.run (Tenant.handle sha) t rs).invoices = some i' ∧
      i.events <+: i'.events := by
  have hrun : Ledgers (Lib.run (Tenant.handle sha) t rs) ∧
      ∃ i', Table.get i.id (Lib.run (Tenant.handle sha) t rs).invoices = some i' ∧
        i.events <+: i'.events :=
    run_invariant (P := fun s => Ledgers s ∧
      ∃ i', Table.get i.id s.invoices = some i' ∧ i.events <+: i'.events) ?_ rs
      ⟨h, i, hget, List.prefix_rfl⟩
  · exact hrun.2
  · rintro s r s' a ⟨hs, j, hj, hprefix⟩ hok
    have hid : j.id = i.id := (Table.mem_of_get hj).2
    rw [← hid] at hj ⊢
    obtain ⟨j', hj', hstep⟩ := hs.log hok hj
    exact ⟨hs.step hok, j', hj', hprefix.trans hstep.isPrefix⟩

/-- **The status history is a faithful log.**  Of every invoice in every reachable state:
its first event leaves no step, every later one leaves the step the event before it
entered and enters another one, the last one entered the step the invoice stands in, and
its status is the one that step stands for.  A request that leaves the invoice in its
step appends nothing, and no run alters or deletes an event. -/
theorem status_history (sha : Sha256) {t₀ t : Tenant} (h₀ : t₀.Initial) (rs : List Request)
    (ht : run (Tenant.handle sha) t₀ rs = t) {i : Invoice} (hi : i ∈ t.invoices) :
    i.events.head?.map InvoiceStatusEvent.fromStep = some none ∧
    i.events.IsChain (fun e e' => e'.fromStep = e.toStep ∧ e'.toStep ≠ e.toStep) ∧
    i.events.getLast?.map InvoiceStatusEvent.toStep = some i.currentStatus ∧
    i.status = statusOfStep (i.currentStatus.bind (Table.get · t.steps)) ∧
    (∀ r t' a, t.handle sha r = .ok (t', a) → ∃ i', Table.get i.id t'.invoices = some i' ∧
      (i'.currentStatus = i.currentStatus → i'.events = i.events)) ∧
    (∀ rs' : List Request, ∃ i',
      Table.get i.id (run (Tenant.handle sha) t₀ (rs ++ rs')).invoices = some i' ∧
        i.events <+: i'.events) := by
  have hhistories : Histories t := ht ▸ (Histories.ofInitial h₀).run rs
  have hlogged := hhistories.logged i hi
  have hget : Table.get i.id t.invoices = some i := Table.get_of_mem hhistories.keys hi
  obtain ⟨s, _, hcurrent, hstep, hstatus⟩ :=
    (hhistories.ledger i hi).currentStep hhistories.workflow
  have hne : i.events ≠ [] := Trail.ne_nil hlogged (by simp [hcurrent])
  refine ⟨Trail.head? hlogged hne, Trail.isChain hlogged, Trail.getLast? hlogged hne, ?_, ?_, ?_⟩
  · rw [hstep]
    exact hstatus
  · intro r t' a hr
    obtain ⟨i', hget', hlog⟩ := hhistories.toLedgers.log hr hget
    exact ⟨i', hget', hlog.events_of_stayed⟩
  · intro rs'
    rw [run_append, ht]
    exact hhistories.toLedgers.log_isPrefix sha hget rs'

/-- The part payment of the sample history and its reversal leave the invoice in its first
step; the payment of the balance moves it. -/
theorem status_history_paid :
    ∃ t, run (Tenant.handle Sample.sha) Sample.tenant Sample.paid = t ∧
      ∃ i ∈ t.invoices, i.events.length = 2 ∧
        i.events.getLast?.map InvoiceStatusEvent.toStep = some i.currentStatus := by
  have hpaid : ∃ i ∈ (run (Tenant.handle Sample.sha) Sample.tenant Sample.paid).invoices,
      i.events.length = 2 := by decide +kernel
  obtain ⟨i, hi, hlength⟩ := hpaid
  obtain ⟨_, _, hlast, _⟩ := status_history Sample.sha Sample.initial Sample.paid rfl hi
  exact ⟨_, rfl, i, hi, hlength, hlast⟩

end VesselCaller.Billing
