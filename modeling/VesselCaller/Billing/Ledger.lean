import VesselCaller.Frame
import VesselCaller.Billing.Workflow

/-!
# The payment ledger of an invoice

The status of an invoice is stored twice, as the legacy `status` and as the workflow
step it stands in, and both are recomputed from the sum of its standing payments each
time money moves.  `Ledger` is what stays true of one invoice: the standing payments
never exceed the dues, the invoice is paid exactly when they reach them, exactly when
it stands in the paid step, and an idempotency key names one payment at most.

An invoice without positive dues is the exception the code leaves open: it takes no
payment and never becomes paid.

## Main definitions

* `Ledger` — what stays true of one invoice, `Ledgers` — of all of a tenant;
* `Settlement`, `Settles` — what money does to an invoice, and by which request;
* `LedgerStep` — what an accepted request did to the invoices;
* `PaymentsApart` — a payment belongs to one invoice.
-/

namespace VesselCaller.Billing

open Lib Accounts Operations Measurements

variable {ctx : Ctx} {steps steps' : List InvoiceStatusStep} {i i' : Invoice} {t t' : Tenant}
  {actor : Id}

/-! ## What happens to one invoice -/

/-- The payment an accepted payment request appends. -/
structure Payable (i : Invoice) (payment : Payment) : Prop where
  live : i.status ≠ .void
  unpaid : i.status ≠ .paid
  positive : 0 < payment.amount
  covered : payment.amount ≤ i.balance
  standing : payment.reversedAt = none
  fresh : payment.id ∉ Table.keys i.payments
  newKey : i.replayed payment.idempotencyKey = none

/-- What the billing endpoints do to one invoice. -/
inductive Settlement (steps : List InvoiceStatusStep) (i i' : Invoice) : Prop where
  | paid (ctx : Ctx) (actor : Id) (payment : Payment) (h : Payable i payment)
      (reconciled : reconcilePaymentStatus ctx steps
        { i with payments := i.payments ++ [payment] } .payment (some actor) = .ok (i', steps))
  | reversed (ctx : Ctx) (actor : Id) (payment payment' : Payment) (mem : payment ∈ i.payments)
      (standing : payment.reversedAt = none)
      (h : ∃ reason, payment' = { payment with
        reversedAt := some ctx.now, reversedBy := some actor, reversalReason := reason })
      (reconciled : reconcilePaymentStatus ctx steps
        { i with payments := Table.put payment' i.payments } .reversal (some actor) =
          .ok (i', steps))
  | moved (ctx : Ctx) (actor : Id) (note : String) (step : InvoiceStatusStep)
      (live : i.status ≠ .void) (unpaid : i.status ≠ .paid) (mem : step ∈ steps)
      (notPaid : step.isPaid = false)
      (h : transitionInvoice ctx steps i (some step) .manual (some actor) note = .ok (i', true))

/-- The billing operation that settles an invoice names it, by its key or by that of one of its
payments; a new payment has a key that no payment of any invoice has. -/
inductive Settles (t : Tenant) (i i' : Invoice) : Billing.Op → Prop where
  | payment (data : PaymentInput) (header : String) (ctx : Ctx) (actor : Id) (payment : Payment)
      (fresh : payment.id ∉ t.invoices.flatMap fun i => Table.keys i.payments)
      (h : Payable i payment)
      (reconciled : reconcilePaymentStatus ctx t.steps
        { i with payments := i.payments ++ [payment] } .payment (some actor) =
          .ok (i', t.steps)) :
      Settles t i i' (.createPayment i.id data header)
  | reversal (paymentId : Id) (reason : String) (mem : paymentId ∈ Table.keys i.payments)
      (keys : Table.keys i'.payments = Table.keys i.payments) :
      Settles t i i' (.reversePayment paymentId reason)
  | move (statusId : Id) (note : String)
      (keys : Table.keys i'.payments = Table.keys i.payments) :
      Settles t i i' (.transition i.id statusId note)

/-- Where a new invoice comes from: an inspection the request bills, or an assessment
it issues. -/
inductive Origin (r : Request) (t t' : Tenant) (i : Invoice) : Prop where
  | harbour (actor : Id) (ctx : Ctx) (op : Operations.Op) (call : VesselCall)
      (inspection : Inspection) (request : r = .operations actor ctx op)
      (bills : op.bills t ctx = some (call, inspection)) (h : Bill t call inspection i)
  | disparity (p p' : MeasurementPlan) (a : Assessment) (kind : r.kind = .issue p.id a.id)
      (found : Table.get p.id t.plans = some p) (h : Issued t t' p p' a i)

/-- What an accepted request did to the workflow steps and the invoices. -/
inductive LedgerStep (r : Request) (t t' : Tenant) : Prop where
  | untouched (steps : t'.steps = t.steps) (invoices : t'.invoices = t.invoices)
  | configured (h : Configured t.steps t'.steps) (invoices : t'.invoices = t.invoices)
  | opened (i : Invoice) (origin : Origin r t t' i) (s : InvoiceStatusStep) (mem : s ∈ t.steps)
      (isOpen : s.open = true)
      (fresh : i.id ∉ Table.keys t.invoices) (status : i.status = .unpaid)
      (currentStatus : i.currentStatus = some s.id) (payments : i.payments = [])
      (steps : t'.steps = t.steps) (invoices : t'.invoices = i :: t.invoices)
  | settled (i i' : Invoice) (mem : i ∈ t.invoices) (h : Settlement t.steps i i')
      (steps : t'.steps = t.steps) (invoices : t'.invoices = Table.put i' t.invoices)
      (request : ∃ actor ctx op, r = .billing actor ctx op ∧ Settles t i i' op)

/-- Reconciling the status provisions no step. -/
theorem reconcilePaymentStatus_steps {source : EventSource} {by' : Option Id}
    (hw : Workflow steps) (h : reconcilePaymentStatus ctx steps i source by' = .ok (i', steps')) :
    reconcilePaymentStatus ctx steps i source by' = .ok (i', steps) := by
  obtain ⟨rfl, _⟩ := reconcilePaymentStatus_eq_ok hw h
  exact h

/-- A balance that is not nought is positive. -/
theorem Invoice.balance_pos (h : i.balance ≠ 0) : 0 < i.balance :=
  lt_of_le_of_ne (le_max_right _ _) (Ne.symm h)

/-- What an accepted payment does to its invoice. -/
theorem recordPayment_eq_ok {data : PaymentInput} {idempotencyKey : String} {payment : Payment}
    {r : Unit} (hvalid : data.validate = .ok r) (hlive : i.status ≠ .void)
    (hkey : i.replayed idempotencyKey = none) (mem : i ∈ t.invoices) (hw : Workflow t.steps)
    (h : recordPayment t ctx actor i data idempotencyKey = .ok (t', payment, i')) :
    Settlement t.steps i i' ∧ t' = (putInvoice t i').bumpRevision ∧
      ∀ data header, Settles t i i' (.createPayment i.id data header) := by
  simp only [recordPayment, bind_eq_ok, raiseIf_eq_ok, pure_eq_ok, Prod.exists, Prod.mk.injEq,
    not_or, not_lt] at h
  obtain ⟨_, ⟨hunpaid, hbalance⟩, _, hcovered, _, hfresh, _, _, i₁, steps, hreconcile, rfl, rfl,
    rfl⟩ := h
  have hsame := reconcilePaymentStatus_steps hw hreconcile
  obtain ⟨rfl, _⟩ := reconcilePaymentStatus_eq_ok hw hreconcile
  refine ⟨.paid ctx actor _ ?hpayable hsame, rfl, fun data header =>
    .payment data header ctx actor _ hfresh ?hpayable hsame⟩
  refine ⟨hlive, hunpaid, ?_, hcovered, rfl, ?_, hkey⟩
  · cases hamount : data.amount with
    | none => exact Invoice.balance_pos hbalance
    | some a =>
        simp only [PaymentInput.validate, bind_eq_ok, raiseIf_eq_ok, hamount, Option.any_some,
          Bool.or_eq_true, decide_eq_true_eq, not_or, not_lt] at hvalid
        obtain ⟨_, ⟨hone, _⟩, _⟩ := hvalid
        exact lt_of_lt_of_le one_pos hone
  · exact fun hmem => hfresh (List.mem_flatMap.mpr ⟨i, mem, hmem⟩)

/-- `InvoicePaymentsView.post`: a replay, or a payment of one invoice. -/
theorem createPayment_eq_ok {invoiceId : Id} {data : PaymentInput} {header : String}
    {payment : Payment} (hw : Workflow t.steps)
    (h : createPayment t ctx actor invoiceId data header = .ok (t', payment, i')) :
    t' = t ∨ ∃ i ∈ t.invoices, Settlement t.steps i i' ∧ t' = (putInvoice t i').bumpRevision ∧
      Settles t i i' (.createPayment invoiceId data header) := by
  simp only [createPayment, bind_eq_ok, raiseIf_eq_ok] at h
  obtain ⟨_, hvalid, i, hi, _, hlive, h⟩ := h
  obtain ⟨mem, rfl⟩ := getInvoice_eq_ok hi
  split at h
  · simp only [pure_eq_ok, Prod.mk.injEq] at h
    exact .inl h.1.symm
  · rename_i hkey
    obtain ⟨hsettled, ht, hsettles⟩ := recordPayment_eq_ok hvalid hlive hkey mem hw h
    exact .inr ⟨i, mem, hsettled, ht, hsettles data header⟩

/-- `PaymentReversalView.post`: a replay, or a reversal on one invoice. -/
theorem reversePayment_eq_ok {paymentId : Id} {reason : String} {payment : Payment}
    (hw : Workflow t.steps)
    (h : reversePayment t ctx actor paymentId reason = .ok (t', payment, i')) :
    t' = t ∨ ∃ i ∈ t.invoices, Settlement t.steps i i' ∧ t' = (putInvoice t i').bumpRevision ∧
      Settles t i i' (.reversePayment paymentId reason) := by
  simp only [reversePayment, bind_eq_ok, orRaise_eq_ok, Prod.exists] at h
  obtain ⟨_, _, i, payment₀, hfind, h⟩ := h
  obtain ⟨mem, hpayment, hid⟩ := findPayment_eq_some hfind
  split at h
  · simp only [pure_eq_ok, Prod.mk.injEq] at h
    exact .inl h.1.symm
  · rename_i hstanding
    simp only [bind_eq_ok, pure_eq_ok, Prod.exists, Prod.mk.injEq] at h
    obtain ⟨i₁, steps, hreconcile, rfl, _, rfl⟩ := h
    have hsame := reconcilePaymentStatus_steps hw hreconcile
    obtain ⟨rfl, _⟩ := reconcilePaymentStatus_eq_ok hw hreconcile
    have hkeys : Table.keys i₁.payments = Table.keys i.payments := by
      rw [(reconcilePaymentStatus_sameCharge hsame).2]
      exact Table.keys_put _ _
    exact .inr ⟨i, mem, .reversed ctx actor payment₀ _ hpayment (by simpa using hstanding)
      ⟨reason, rfl⟩ hsame, rfl,
      .reversal paymentId reason (Table.mem_keys.mpr ⟨payment₀, hpayment, hid⟩) hkeys⟩

/-- `InvoiceTransitionView.post`: nothing, or one invoice moved. -/
theorem transitionView_eq_ok {invoiceId statusId : Id} {note : String}
    (h : transitionView t ctx actor invoiceId statusId note = .ok (t', i')) :
    t' = t ∨ ∃ i ∈ t.invoices, Settlement t.steps i i' ∧ t' = (putInvoice t i').bumpRevision ∧
      Settles t i i' (.transition invoiceId statusId note) := by
  simp only [transitionView, bind_eq_ok, raiseIf_eq_ok, pure_eq_ok, orRaise_eq_ok, Prod.exists,
    Prod.mk.injEq, not_or] at h
  obtain ⟨_, _, i, hi, _, hlive, _, ⟨hunpaid, _⟩, step, hstep, _, hnotPaid, i₁, recorded,
    htransition, ht, rfl⟩ := h
  obtain ⟨hget, _⟩ := Option.filter_eq_some_iff.mp hstep
  cases recorded with
  | false => exact .inl (by simpa using ht.symm)
  | true =>
      obtain ⟨mem, rfl⟩ := getInvoice_eq_ok hi
      have hkeys : Table.keys i₁.payments = Table.keys i.payments := by
        rw [(transitionInvoice_sameCharge htransition).2]
      exact .inr ⟨i, mem, .moved ctx actor note step hlive hunpaid (Table.mem_of_get hget).1
        (by simpa using hnotPaid) htransition, by simpa using ht.symm, .move statusId note hkeys⟩

/-- **A billing request** leaves the tenant alone, reconfigures the workflow, or
settles one invoice. -/
theorem billing_cases {op : Billing.Op} {response : Billing.Response} (hw : Workflow t.steps)
    (h : op.handle t ctx actor = .ok (t', response)) :
    t' = t ∨ (Configured t.steps t'.steps ∧ ∃ steps, t' = { t with steps := steps }.bumpRevision) ∨
      ∃ i ∈ t.invoices, ∃ i', Settlement t.steps i i' ∧ t' = (putInvoice t i').bumpRevision ∧
        Settles t i i' op := by
  cases op with
  | createPayment invoiceId data header =>
      simp only [Billing.Op.handle, paymentResponse, bind_eq_ok, pure_eq_ok, Prod.exists,
        Prod.mk.injEq] at h
      obtain ⟨_, _, i', hop, rfl, _⟩ := h
      obtain ht | ⟨i, mem, hsettled⟩ := createPayment_eq_ok hw hop
      · exact .inl ht
      · exact .inr (.inr ⟨i, mem, i', hsettled⟩)
  | reversePayment paymentId reason =>
      simp only [Billing.Op.handle, paymentResponse, bind_eq_ok, pure_eq_ok, Prod.exists,
        Prod.mk.injEq] at h
      obtain ⟨_, _, i', hop, rfl, _⟩ := h
      obtain ht | ⟨i, mem, hsettled⟩ := reversePayment_eq_ok hw hop
      · exact .inl ht
      · exact .inr (.inr ⟨i, mem, i', hsettled⟩)
  | transition invoiceId statusId note =>
      simp only [Billing.Op.handle, bind_eq_ok, pure_eq_ok, Prod.exists, Prod.mk.injEq] at h
      obtain ⟨_, i', hop, rfl, _⟩ := h
      obtain ht | ⟨i, mem, hsettled⟩ := transitionView_eq_ok hop
      · exact .inl ht
      · exact .inr (.inr ⟨i, mem, i', hsettled⟩)
  | createStep data =>
      simp only [Billing.Op.handle, bind_eq_ok, pure_eq_ok, Prod.exists, Prod.mk.injEq] at h
      obtain ⟨_, _, hop, rfl, _⟩ := h
      exact .inr (.inl (createStepView_eq_ok hw hop))
  | patchStep stepId data =>
      simp only [Billing.Op.handle, bind_eq_ok, pure_eq_ok, Prod.exists, Prod.mk.injEq] at h
      obtain ⟨_, _, hop, rfl, _⟩ := h
      obtain ⟨ht | ht, hconfigured⟩ := patchStep_eq_ok hw hop
      · exact .inl ht
      · exact .inr (.inl ⟨hconfigured, ht⟩)
  | reorderSteps ids =>
      simp only [Billing.Op.handle, bind_eq_ok, pure_eq_ok, Prod.exists, Prod.mk.injEq] at h
      obtain ⟨_, _, hop, rfl, _⟩ := h
      obtain ⟨_, ht, _, hconfigured⟩ := reorderSteps_eq_ok hw.ids hop
      exact .inr (.inl ⟨hconfigured, _, ht⟩)

/-! ## What a request does to the ledgers -/

/-- A billed inspection opens an invoice in an open step. -/
theorem LedgerStep.ofBilled {r : Request} {t₁ : Tenant} {inspection : Inspection}
    {call : VesselCall} {rate : Decimal 4} {i : Invoice} (hw : Workflow t.steps)
    (origin : Origin r t t' i) (h : Billed ctx t₁ t' inspection call rate i)
    (hsteps : t₁.steps = t.steps) (hinvoices : t₁.invoices = t.invoices) : LedgerStep r t t' := by
  obtain ⟨s, hs, hopen, hi⟩ := h.step
  have hsame : t'.steps = t.steps := by
    have hensure := h.steps
    rw [hsteps, hw.ensureDefaultSteps] at hensure
    exact (Except.ok.inj hensure).symm
  have ht := h.tenant
  refine .opened i origin s (hsame ▸ hs) hopen (hinvoices ▸ h.fresh) (hi ▸ rfl) (hi ▸ rfl)
    (hi ▸ rfl) hsame ?_
  rw [ht, ← hinvoices]
  rfl

/-- An issued assessment adds an invoice to the ledgers. -/
theorem LedgerStep.ofIssued {r : Request} {p p' : MeasurementPlan} {a : Assessment} {i : Invoice}
    (hw : Workflow t.steps) (hkind : r.kind = .issue p.id a.id)
    (found : Table.get p.id t.plans = some p) (h : Issued t t' p p' a i) : LedgerStep r t t' := by
  obtain ⟨s, sequences, hopen, hs, hcurrent, ⟨ctx, hensure⟩, _⟩ := h.step
  rw [hw.ensureDefaultSteps] at hensure
  have hsame : t'.steps = t.steps := (Except.ok.inj hensure).symm
  exact .opened i (.disparity p p' a hkind found h) s (hsame ▸ hs) hopen h.fresh h.status hcurrent
    h.payments hsame h.invoices

/-- **Every accepted request is a ledger step.** -/
theorem handle_ledger {sha : Sha256} {r : Request} {a : VesselCaller.Response}
    (hw : Workflow t.steps) (h : t.handle sha r = .ok (t', a)) : LedgerStep r t t' := by
  cases r with
  | measurements actor ctx op =>
      simp only [Tenant.handle, bind_eq_ok, pure_eq_ok, Prod.exists, Prod.mk.injEq] at h
      obtain ⟨_, _, _, _, hop, rfl, _⟩ := h
      -- Of the measurement requests only the one that issues an assessment writes an invoice.
      obtain ⟨_, hsteps, hinvoices, _⟩ | ⟨p, p', a, i, hkind, found, hissued⟩ := measurements_frame hop
      · exact .untouched hsteps hinvoices
      · exact .ofIssued hw hkind found hissued
  | portal ctx op =>
      simp only [Tenant.handle, bind_eq_ok, pure_eq_ok, Prod.exists, Prod.mk.injEq] at h
      obtain ⟨_, _, hop, rfl, _⟩ := h
      obtain ⟨_, hsteps, hinvoices, _⟩ := portal_frame hop
      exact .untouched hsteps hinvoices
  | operations actor ctx op =>
      simp only [Tenant.handle, bind_eq_ok, pure_eq_ok, Prod.exists, Prod.mk.injEq] at h
      obtain ⟨_, _, _, _, hop, rfl, _⟩ := h
      obtain ⟨hinvoices, hsteps⟩ |
        ⟨call, inspection, i, t₁, _, _, _, hbills, hbill, hbilled, hsteps, hinvoices⟩ :=
        (handle_step hop).bill
      · exact .untouched hsteps hinvoices
      · exact .ofBilled hw (.harbour actor ctx op call inspection rfl hbills hbill) hbilled hsteps
          hinvoices
  | billing actor ctx op =>
      simp only [Tenant.handle, bind_eq_ok, pure_eq_ok, Prod.exists, Prod.mk.injEq] at h
      obtain ⟨_, _, _, _, hop, rfl, _⟩ := h
      obtain rfl | ⟨hconfigured, steps, rfl⟩ | ⟨i, mem, i', hsettled, rfl, hsettles⟩ :=
        billing_cases hw hop
      · exact .untouched rfl rfl
      · exact .configured hconfigured rfl
      · exact .settled i i' mem hsettled rfl rfl ⟨actor, ctx, op, rfl, hsettles⟩
  | organizations actor ctx op =>
      simp only [Tenant.handle, bind_eq_ok, pure_eq_ok, Prod.exists, Prod.mk.injEq] at h
      obtain ⟨_, _, _, _, hop, rfl, _⟩ := h
      have hrecords := organizations_frame hop
      exact .untouched hrecords.steps hrecords.invoices
  | users actor ctx op =>
      simp only [Tenant.handle, bind_eq_ok, pure_eq_ok, Prod.exists, Prod.mk.injEq] at h
      obtain ⟨_, _, _, _, _, rfl, _⟩ := h
      exact .untouched rfl rfl
  | auth ctx op =>
      simp only [Tenant.handle, bind_eq_ok, pure_eq_ok, Prod.exists, Prod.mk.injEq] at h
      obtain ⟨_, _, _, rfl, _⟩ := h
      exact .untouched rfl rfl

/-! ## The invariant of one invoice -/

structure Ledger (steps : List InvoiceStatusStep) (i : Invoice) : Prop where
  live : i.status ≠ .void
  paymentKeys : (Table.keys i.payments).Nodup
  amounts : ∀ q ∈ i.payments, 0 < q.amount
  idempotent : ∀ a ∈ i.payments, ∀ b ∈ i.payments, a.idempotencyKey ≠ "" →
    a.idempotencyKey = b.idempotencyKey → a = b
  bounded : 0 < i.dues → i.currentPaid ≤ i.dues
  settled : 0 < i.dues → (i.status = .paid ↔ i.currentPaid = i.dues)
  idle : i.dues ≤ 0 → i.payments = [] ∧ i.status = .unpaid
  stands : ∃ s ∈ steps, i.currentStatus = some s.id ∧ (s.isPaid = true ↔ i.status = .paid)

/-- A payment that stands adds its amount. -/
theorem Invoice.currentPaid_concat (i : Invoice) {payment : Payment}
    (h : payment.reversedAt = none) :
    Invoice.currentPaid { i with payments := i.payments ++ [payment] } =
      i.currentPaid + payment.amount := by
  simp [Invoice.currentPaid, Payment.standing, h]

/-- What a list of payments adds up to, the reversed ones left out. -/
def standingSum (payments : List Payment) : Decimal 2 :=
  ((payments.filter Payment.standing).map Payment.amount).sum

/-- Reversing a standing payment takes its amount out of the sum. -/
theorem standingSum_put {payments : List Payment} {payment payment' : Payment}
    (hkeys : (Table.keys payments).Nodup) (mem : payment ∈ payments)
    (hid : payment'.id = payment.id) (hstanding : payment.reversedAt = none)
    (hreversed : payment'.reversedAt ≠ none) :
    standingSum (Table.put payment' payments) + payment.amount = standingSum payments := by
  induction payments with
  | nil => simp at mem
  | cons q rest ih =>
      simp only [Table.keys_cons, List.nodup_cons] at hkeys
      have hput : Table.put payment' (q :: rest) =
          (if q.id = payment'.id then payment' else q) :: Table.put payment' rest := rfl
      rw [hput]
      obtain rfl | mem := List.mem_cons.mp mem
      · have hrest : Table.put payment' rest = rest := by
          refine Table.put_of_forall_ne fun b hb hk => hkeys.1 ?_
          exact Table.mem_keys.mpr ⟨b, hb, hk.trans hid⟩
        rw [hrest]
        simp [standingSum, Payment.standing, hid, hstanding, hreversed, add_comm]
      · have hne : q.id ≠ payment'.id := fun hk =>
          hkeys.1 (Table.mem_keys.mpr ⟨payment, mem, (hid.symm.trans hk.symm)⟩)
        have hrest := ih hkeys.2 mem
        simp only [hne, if_false]
        cases hq : q.standing with
        | true =>
            simp only [standingSum, List.filter_cons, hq, if_true, List.map_cons,
              List.sum_cons] at hrest ⊢
            rw [← hrest, add_assoc]
        | false =>
            simp only [standingSum, List.filter_cons, hq, Bool.false_eq_true, if_false] at hrest ⊢
            exact hrest

/-- A step of the workflow an invoice can be transitioned to and the legacy status it
stands for agree with what the invoice has. -/
theorem Ledger.agree (h : Ledger steps i) (hw : Workflow steps) {step : InvoiceStatusStep}
    (mem : step ∈ steps) (hcurrent : i.currentStatus = some step.id) :
    i.status = statusOfStep (some step) := by
  obtain ⟨s, hs, hstands, hpaid⟩ := h.stands
  rw [hstands, Option.some.injEq] at hcurrent
  obtain rfl := Table.eq_of_key_eq hw.ids hs mem hcurrent
  have hlive := h.live
  unfold statusOfStep
  cases hstatus : i.status with
  | void => exact absurd hstatus hlive
  | paid => simp [hpaid.mpr hstatus]
  | unpaid =>
      have hunpaid : s.isPaid ≠ true := fun hp => by simp [hpaid.mp hp] at hstatus
      simp [hunpaid]

/-- What `transitionInvoice` leaves of an invoice in a step of the workflow. -/
theorem Ledger.transition (h : Ledger steps i) (hw : Workflow steps) {payments : List Payment}
    {step : InvoiceStatusStep} (mem : step ∈ steps) {source : EventSource} {by' : Option Id}
    {note : String} {recorded : Bool}
    (htransition : transitionInvoice ctx steps { i with payments := payments } (some step) source
      by' note = .ok (i', recorded)) :
    i'.dues = i.dues ∧ i'.payments = payments ∧ i'.currentStatus = some step.id ∧
      i'.status = statusOfStep (some step) := by
  obtain ⟨hcharge, hpayments⟩ := transitionInvoice_sameCharge htransition
  obtain ⟨hcurrent, hstatus⟩ :=
    transitionInvoice_status htransition fun hcurrent _ => h.agree hw mem hcurrent
  exact ⟨hcharge.dues, hpayments, hcurrent, hstatus⟩

/-- **Reconciliation restores the ledger** from the payments alone. -/
theorem Ledger.reconcile (h : Ledger steps i) (hw : Workflow steps) {payments : List Payment}
    (hdues : 0 < i.dues) (hkeys : (Table.keys payments).Nodup)
    (hamounts : ∀ q ∈ payments, 0 < q.amount)
    (hidempotent : ∀ a ∈ payments, ∀ b ∈ payments, a.idempotencyKey ≠ "" →
      a.idempotencyKey = b.idempotencyKey → a = b)
    (hbounded : standingSum payments ≤ i.dues) {source : EventSource} {by' : Option Id}
    (hreconcile : reconcilePaymentStatus ctx steps { i with payments := payments } source by' =
      .ok (i', steps)) : Ledger steps i' := by
  -- It is enough to know where the invoice ends up standing.
  have hrestore : i'.dues = i.dues → i'.payments = payments → i'.status ≠ .void →
      (i'.status = .paid ↔ standingSum payments = i.dues) →
      (∃ s ∈ steps, i'.currentStatus = some s.id ∧ (s.isPaid = true ↔ i'.status = .paid)) →
      Ledger steps i' := by
    intro hdues' hpayments hlive hpaid hstands
    refine ⟨hlive, hpayments ▸ hkeys, hpayments ▸ hamounts, hpayments ▸ hidempotent, ?_, ?_, ?_,
      hstands⟩
    · intro _
      rw [Invoice.currentPaid, hpayments, hdues']
      exact hbounded
    · intro _
      rw [Invoice.currentPaid, hpayments, hdues']
      exact hpaid
    · intro hnone
      rw [hdues'] at hnone
      exact absurd hdues (not_lt.mpr hnone)
  obtain ⟨_, ⟨hvoid, _⟩ | ⟨_, hcovered, step, hstep, hpaid, recorded, htransition⟩ |
    ⟨_, hlt, rfl, step, hget, hnotPaid⟩ |
    ⟨_, hlt, step, hstep, hopen, recorded, htransition⟩⟩ :=
    reconcilePaymentStatus_eq_ok hw hreconcile
  · exact absurd hvoid h.live
  · obtain ⟨hdues', hpayments, hcurrent, hstatus⟩ := h.transition hw hstep htransition
    have hstatus' : i'.status = .paid := by rw [hstatus, statusOfStep, if_pos hpaid]
    refine hrestore hdues' hpayments (by simp [hstatus']) ?_
      ⟨step, hstep, hcurrent, by simp [hpaid, hstatus']⟩
    exact ⟨fun _ => le_antisymm hbounded hcovered, fun _ => hstatus'⟩
  · obtain ⟨s, hs, hcurrent, hagree⟩ := h.stands
    have hsame : step = s := by
      have hget' : Table.get s.id steps = some step := by simpa [hcurrent] using hget
      exact Option.some.inj (hget'.symm.trans (Table.get_of_mem hw.ids hs))
    subst hsame
    have hunpaid : i.status ≠ .paid := fun hp => by simp [hagree.mpr hp] at hnotPaid
    refine hrestore rfl rfl h.live ?_ ⟨step, hs, hcurrent, hagree⟩
    exact ⟨fun hp => absurd hp hunpaid, fun heq => absurd heq (ne_of_lt hlt)⟩
  · obtain ⟨hdues', hpayments, hcurrent, hstatus⟩ := h.transition hw hstep htransition
    have hnotPaid : step.isPaid = false := by
      simp only [InvoiceStatusStep.open, Bool.and_eq_true, Bool.not_eq_true'] at hopen
      exact hopen.1.2
    have hstatus' : i'.status = .unpaid := by simp [hstatus, statusOfStep, hnotPaid]
    refine hrestore hdues' hpayments (by simp [hstatus']) ?_
      ⟨step, hstep, hcurrent, by simp [hnotPaid, hstatus']⟩
    exact ⟨fun hp => by simp [hstatus'] at hp, fun heq => absurd heq (ne_of_lt hlt)⟩

/-! ## Settlements keep the ledger -/

/-- A balance is what the dues leave open. -/
theorem Ledger.balance (h : Ledger steps i) (hdues : 0 < i.dues) :
    i.balance = i.dues - i.currentPaid := by
  have hbounded := h.bounded hdues
  exact max_eq_left (sub_nonneg.mpr hbounded)

/-- An invoice that can still take money has positive dues. -/
theorem Ledger.dues_pos (h : Ledger steps i) (hbalance : 0 < i.balance) : 0 < i.dues := by
  by_contra hnone
  obtain ⟨hpayments, _⟩ := h.idle (not_lt.mp hnone)
  have hzero : i.balance = 0 := by
    simp [Invoice.balance, Invoice.currentPaid, hpayments, not_lt.mp hnone]
  exact absurd hbalance (by simp [hzero])

/-- A key that is not replayed is new on the invoice. -/
theorem Invoice.replayed_eq_none {k : String} (h : i.replayed k = none) (hk : k ≠ "") :
    ∀ q ∈ i.payments, q.idempotencyKey ≠ k := by
  simp only [Invoice.replayed, hk, if_false, List.find?_eq_none] at h
  intro q hq heq
  exact h q hq (by simpa using heq)

/-- A payment keeps the ledger of its invoice. -/
theorem Ledger.paid (h : Ledger steps i) (hw : Workflow steps) {payment : Payment}
    (hp : Payable i payment)
    (hreconcile : reconcilePaymentStatus ctx steps
      { i with payments := i.payments ++ [payment] } .payment (some actor) = .ok (i', steps)) :
    Ledger steps i' := by
  have hdues := h.dues_pos (lt_of_lt_of_le hp.positive hp.covered)
  have hcovered := hp.covered
  rw [h.balance hdues] at hcovered
  refine h.reconcile hw hdues (Table.nodup_keys_concat h.paymentKeys hp.fresh) ?_ ?_ ?_ hreconcile
  · intro q hq
    obtain hq | hq := List.mem_append.mp hq
    · exact h.amounts q hq
    · exact List.mem_singleton.mp hq ▸ hp.positive
  · intro a ha b hb hne heq
    obtain ha | ha := List.mem_append.mp ha <;> obtain hb | hb := List.mem_append.mp hb
    · exact h.idempotent a ha b hb hne heq
    · rw [List.mem_singleton.mp hb] at heq
      exact absurd heq (Invoice.replayed_eq_none hp.newKey (heq ▸ hne) a ha)
    · rw [List.mem_singleton.mp ha] at heq hne
      exact absurd heq.symm (Invoice.replayed_eq_none hp.newKey hne b hb)
    · rw [List.mem_singleton.mp ha, List.mem_singleton.mp hb]
  · have hsum := i.currentPaid_concat hp.standing
    rw [show standingSum (i.payments ++ [payment]) = i.currentPaid + payment.amount from hsum]
    linarith

/-- A reversal keeps the ledger of its invoice. -/
theorem Ledger.reversed (h : Ledger steps i) (hw : Workflow steps) {payment payment' : Payment}
    {reason : String} (mem : payment ∈ i.payments) (hstanding : payment.reversedAt = none)
    (hpayment : payment' = { payment with
      reversedAt := some ctx.now, reversedBy := some actor, reversalReason := reason })
    (hreconcile : reconcilePaymentStatus ctx steps
      { i with payments := Table.put payment' i.payments } .reversal (some actor) =
        .ok (i', steps)) : Ledger steps i' := by
  have hdues : 0 < i.dues := by
    by_contra hnone
    obtain ⟨hpayments, _⟩ := h.idle (not_lt.mp hnone)
    simp [hpayments] at mem
  have hid : payment'.id = payment.id := by rw [hpayment]
  have hkey : payment'.idempotencyKey = payment.idempotencyKey := by rw [hpayment]
  have hamount : payment'.amount = payment.amount := by rw [hpayment]
  -- Two rows with one key come from two rows with that key.
  have hother : ∀ b ∈ i.payments, b.id ≠ payment'.id →
      payment.idempotencyKey ≠ "" → payment.idempotencyKey ≠ b.idempotencyKey := by
    intro b hb hne hkey hsame
    exact hne (h.idempotent payment mem b hb hkey hsame ▸ hid.symm)
  refine h.reconcile hw hdues (by simpa using h.paymentKeys) ?_ ?_ ?_ hreconcile
  · intro q hq
    obtain rfl | ⟨hq, _⟩ := Table.mem_put hq
    · exact hamount ▸ h.amounts payment mem
    · exact h.amounts q hq
  · intro a ha b hb hne heq
    obtain ha | ⟨ha, hka⟩ := Table.mem_put ha <;> obtain hb | ⟨hb, hkb⟩ := Table.mem_put hb
    · rw [ha, hb]
    · rw [ha, hkey] at heq hne
      exact absurd heq (hother b hb hkb hne)
    · rw [hb, hkey] at heq
      exact absurd heq.symm (hother a ha hka (heq ▸ hne))
    · exact h.idempotent a ha b hb hne heq
  · have hsum := standingSum_put h.paymentKeys mem hid hstanding (by simp [hpayment])
    have hbounded := h.bounded hdues
    have hpositive := h.amounts payment mem
    have hpaid : i.currentPaid = standingSum i.payments := rfl
    linarith

/-- A move to a step that is not the paid one leaves an unpaid invoice unpaid. -/
theorem Ledger.moved (h : Ledger steps i) (hw : Workflow steps) {step : InvoiceStatusStep}
    {note : String} (hunpaid : i.status ≠ .paid) (mem : step ∈ steps)
    (hnotPaid : step.isPaid = false)
    (htransition : transitionInvoice ctx steps i (some step) .manual (some actor) note =
      .ok (i', true)) : Ledger steps i' := by
  obtain ⟨hdues, hpayments, hcurrent, hstatus⟩ := h.transition hw mem htransition
  have hstatus' : i'.status = .unpaid := by simp [hstatus, statusOfStep, hnotPaid]
  have hpaid : i'.currentPaid = i.currentPaid := by simp [Invoice.currentPaid, hpayments]
  refine ⟨by simp [hstatus'], hpayments ▸ h.paymentKeys, hpayments ▸ h.amounts,
    hpayments ▸ h.idempotent, ?_, ?_, ?_, step, mem, hcurrent, by simp [hnotPaid, hstatus']⟩
  · rw [hdues, hpaid]
    exact h.bounded
  · rw [hdues, hpaid]
    intro hpos
    refine ⟨fun hp => by simp [hstatus'] at hp, fun heq => ?_⟩
    exact absurd ((h.settled hpos).mpr heq) hunpaid
  · rw [hdues, hpayments]
    exact fun hnone => ⟨(h.idle hnone).1, hstatus'⟩

/-- Every settlement keeps the ledger of its invoice. -/
theorem Settlement.ledger (hs : Settlement steps i i') (hw : Workflow steps)
    (h : Ledger steps i) : Ledger steps i' := by
  cases hs with
  | paid ctx actor payment hp hreconcile => exact h.paid hw hp hreconcile
  | reversed ctx actor payment payment' mem hstanding hpayment hreconcile =>
      obtain ⟨reason, hpayment⟩ := hpayment
      exact h.reversed hw mem hstanding hpayment hreconcile
  | moved ctx actor note step _ hunpaid mem hnotPaid htransition =>
      exact h.moved hw hunpaid mem hnotPaid htransition

/-- A payment that was reversed is not touched again. -/
theorem Settlement.reversed_stays (hs : Settlement steps i i') (h : Ledger steps i)
    {q : Payment} (hq : q ∈ i.payments) (hreversed : q.reversedAt ≠ none) : q ∈ i'.payments := by
  cases hs with
  | paid ctx actor payment _ hreconcile =>
      rw [(reconcilePaymentStatus_sameCharge hreconcile).2]
      exact List.mem_append_left _ hq
  | reversed ctx actor payment payment' mem hstanding hpayment hreconcile =>
      obtain ⟨reason, rfl⟩ := hpayment
      rw [(reconcilePaymentStatus_sameCharge hreconcile).2]
      refine Table.mem_put_of_ne hq fun hk => hreversed ?_
      rw [Table.eq_of_key_eq h.paymentKeys hq mem hk]
      exact hstanding
  | moved ctx actor note step _ _ _ _ htransition =>
      rw [(transitionInvoice_sameCharge htransition).2]
      exact hq

/-- What an invoice charges for is not touched. -/
theorem Settlement.sameCharge (hs : Settlement steps i i') : SameCharge i i' := by
  cases hs with
  | paid ctx actor payment _ hreconcile =>
      have hcharge := (reconcilePaymentStatus_sameCharge hreconcile).1
      exact ⟨hcharge.id, hcharge.vesselCallId, hcharge.inspectionId, hcharge.purpose,
        hcharge.assessmentId, hcharge.lineItems, hcharge.dues, hcharge.invoiceNo⟩
  | reversed ctx actor payment payment' _ _ _ hreconcile =>
      have hcharge := (reconcilePaymentStatus_sameCharge hreconcile).1
      exact ⟨hcharge.id, hcharge.vesselCallId, hcharge.inspectionId, hcharge.purpose,
        hcharge.assessmentId, hcharge.lineItems, hcharge.dues, hcharge.invoiceNo⟩
  | moved ctx actor note step _ _ _ _ htransition => exact (transitionInvoice_sameCharge htransition).1

/-! ## Runs -/

/-- The workflow is in order and every invoice has its ledger in order. -/
structure Ledgers (t : Tenant) : Prop where
  workflow : Workflow t.steps
  keys : (Table.keys t.invoices).Nodup
  ledger : ∀ i ∈ t.invoices, Ledger t.steps i

/-- A tenant without invoices has its ledgers in order. -/
theorem Ledgers.ofInitial (h : t.Initial) : Ledgers t where
  workflow := by
    obtain ⟨ctx, hsteps⟩ := h.steps
    exact .ofProvisioned hsteps
  keys := by simp [h.invoices]
  ledger := by simp [h.invoices]

/-- A new invoice has an empty ledger. -/
theorem Ledger.opened {s : InvoiceStatusStep} (mem : s ∈ steps) (hopen : s.open = true)
    (hstatus : i.status = .unpaid) (hcurrent : i.currentStatus = some s.id)
    (hpayments : i.payments = []) : Ledger steps i where
  live := by simp [hstatus]
  paymentKeys := by simp [hpayments]
  amounts := by simp [hpayments]
  idempotent := by simp [hpayments]
  bounded := by
    intro hdues
    simpa [Invoice.currentPaid, hpayments] using hdues.le
  settled := by
    intro hdues
    simpa [Invoice.currentPaid, hpayments, hstatus] using ne_of_lt hdues
  idle := fun _ => ⟨hpayments, hstatus⟩
  stands := by
    simp only [InvoiceStatusStep.open, Bool.and_eq_true, Bool.not_eq_true'] at hopen
    exact ⟨s, mem, hcurrent, by simp [hopen.1.2, hstatus]⟩

/-- A change of configuration leaves every invoice standing where it stood. -/
theorem Ledger.configured (h : Ledger steps i) (hkept : StepsKept steps steps') :
    Ledger steps' i where
  live := h.live
  paymentKeys := h.paymentKeys
  amounts := h.amounts
  idempotent := h.idempotent
  bounded := h.bounded
  settled := h.settled
  idle := h.idle
  stands := by
    obtain ⟨s, hs, hcurrent, hpaid⟩ := h.stands
    obtain ⟨s', hs', hid, hsame, -⟩ := hkept s hs
    exact ⟨s', hs', hid ▸ hcurrent, hsame ▸ hpaid⟩

/-- A step keeps the ledgers in order. -/
theorem Ledgers.ledgerStep {r : Request} (h : Ledgers t) (hstep : LedgerStep r t t') :
    Ledgers t' := by
  cases hstep with
  | untouched steps invoices => exact ⟨steps ▸ h.workflow, invoices ▸ h.keys, by
      rw [steps, invoices]; exact h.ledger⟩
  | configured hconfigured invoices =>
      refine ⟨hconfigured.workflow h.workflow, invoices ▸ h.keys, ?_⟩
      rw [invoices]
      exact fun i hi => (h.ledger i hi).configured hconfigured.kept
  | opened i _ s mem isOpen fresh status currentStatus payments steps invoices =>
      refine ⟨steps ▸ h.workflow, ?_, ?_⟩
      · rw [invoices, Table.keys_cons]
        exact List.nodup_cons.mpr ⟨fresh, h.keys⟩
      · rw [steps, invoices]
        intro j hj
        obtain rfl | hj := List.mem_cons.mp hj
        · exact .opened mem isOpen status currentStatus payments
        · exact h.ledger j hj
  | settled i i' mem hsettled steps invoices _ =>
      refine ⟨steps ▸ h.workflow, by rw [invoices, Table.keys_put]; exact h.keys, ?_⟩
      rw [steps, invoices]
      intro j hj
      obtain rfl | ⟨hj, _⟩ := Table.mem_put hj
      · exact hsettled.ledger h.workflow (h.ledger i mem)
      · exact h.ledger j hj

/-- So does an accepted request. -/
theorem Ledgers.step {sha : Sha256} {r : Request} {a : VesselCaller.Response} (h : Ledgers t)
    (hr : t.handle sha r = .ok (t', a)) : Ledgers t' :=
  h.ledgerStep (handle_ledger h.workflow hr)

/-- So does a run. -/
theorem Ledgers.run {sha : Sha256} (h : Ledgers t) (rs : List Request) :
    Ledgers (run (Tenant.handle sha) t rs) :=
  run_invariant (fun hs hr => hs.step hr) rs h

/-- A reversed payment of an invoice stays on it as it is. -/
theorem Ledgers.reversed_stays (sha : Sha256) {invoice : Id} {q : Payment} (h : Ledgers t)
    (hi : ∃ i, Table.get invoice t.invoices = some i ∧ q ∈ i.payments)
    (hreversed : q.reversedAt ≠ none) (rs : List Request) :
    ∃ i, Table.get invoice (Lib.run (Tenant.handle sha) t rs).invoices = some i ∧
      q ∈ i.payments := by
  have hrun : Ledgers (Lib.run (Tenant.handle sha) t rs) ∧
      ∃ i, Table.get invoice (Lib.run (Tenant.handle sha) t rs).invoices = some i ∧
        q ∈ i.payments :=
    run_invariant (P := fun s => Ledgers s ∧
      ∃ i, Table.get invoice s.invoices = some i ∧ q ∈ i.payments) ?_ rs ⟨h, hi⟩
  · exact hrun.2
  · rintro s r s' a ⟨hs, i, hget, hq⟩ hok
    refine ⟨hs.step hok, ?_⟩
    obtain ⟨mem, hid⟩ := Table.mem_of_get hget
    cases handle_ledger hs.workflow hok with
    | untouched _ invoices => exact ⟨i, invoices ▸ hget, hq⟩
    | configured _ invoices => exact ⟨i, invoices ▸ hget, hq⟩
    | opened j _ _ _ _ fresh _ _ _ _ invoices =>
        refine ⟨i, ?_, hq⟩
        have hne : key j ≠ invoice := by
          rintro rfl
          exact fresh (Table.mem_keys.mpr ⟨i, mem, hid⟩)
        rw [invoices, Table.get, List.find?_cons_of_neg (by simpa using hne)]
        exact hget
    | settled j j' hj hsettled _ invoices _ =>
        rw [invoices]
        by_cases hk : invoice = key j'
        · subst hk
          obtain rfl := Table.eq_of_key_eq hs.keys hj mem
            (Eq.trans (Eq.symm hsettled.sameCharge.id) (Eq.symm hid))
          exact ⟨j', Table.get_put_self hget, hsettled.reversed_stays (hs.ledger j mem) hq hreversed⟩
        · exact ⟨i, by rw [Table.get_put_of_ne hk]; exact hget, hq⟩

/-! ## Payments and their invoices -/

/-- The key of a payment names one invoice. -/
def PaymentsApart (t : Tenant) : Prop :=
  ∀ i ∈ t.invoices, ∀ j ∈ t.invoices, ∀ k ∈ Table.keys i.payments, k ∈ Table.keys j.payments →
    i.id = j.id

/-- A payment is an old one of its invoice, or new to all invoices. -/
theorem Settles.payment_keys {op : Billing.Op} (h : Settles t i i' op) {k : Id}
    (hk : k ∈ Table.keys i'.payments) :
    k ∈ Table.keys i.payments ∨ k ∉ t.invoices.flatMap fun i => Table.keys i.payments := by
  cases h with
  | payment data header ctx actor payment fresh _ reconciled =>
      rw [(reconcilePaymentStatus_sameCharge reconciled).2, Table.keys, List.map_append] at hk
      rcases List.mem_append.mp hk with hk | hk
      · exact .inl hk
      · rw [List.map_singleton, List.mem_singleton] at hk
        exact .inr (hk ▸ fresh)
  | reversal _ _ _ keys => exact .inl (keys ▸ hk)
  | move _ _ keys => exact .inl (keys ▸ hk)

/-- An accepted request keeps the payments of the invoices apart. -/
theorem PaymentsApart.step {sha : Sha256} {r : Request} {a : VesselCaller.Response}
    (h : PaymentsApart t) (hw : Workflow t.steps) (hr : t.handle sha r = .ok (t', a)) :
    PaymentsApart t' := by
  unfold PaymentsApart at h ⊢
  cases handle_ledger hw hr with
  | untouched _ invoices => exact invoices ▸ h
  | configured _ invoices => exact invoices ▸ h
  | opened j _ _ _ _ _ _ _ payments _ invoices =>
      have hnone : ∀ k, k ∉ Table.keys j.payments := by
        intro k hk
        rw [payments] at hk
        cases hk
      rw [invoices]
      intro i hi i' hi' k hk hk'
      rcases List.mem_cons.mp hi with rfl | hi
      · exact absurd hk (hnone k)
      rcases List.mem_cons.mp hi' with rfl | hi'
      · exact absurd hk' (hnone k)
      exact h i hi i' hi' k hk hk'
  | settled j j' mem hsettled _ invoices request =>
      obtain ⟨_, _, _, _, hsettles⟩ := request
      have hid : j'.id = j.id := hsettled.sameCharge.id
      -- A payment of the settled invoice that another one has was there before.
      have hother : ∀ b ∈ t.invoices, ∀ k ∈ Table.keys j'.payments, k ∈ Table.keys b.payments →
          j'.id = b.id := by
        intro b hb k hk hkb
        rcases hsettles.payment_keys hk with hold | hfresh
        · exact hid.trans (h j mem b hb k hold hkb)
        · exact absurd (List.mem_flatMap.mpr ⟨b, hb, hkb⟩) hfresh
      rw [invoices]
      intro i hi i' hi' k hk hk'
      rcases Table.mem_put hi with hput | ⟨hold, -⟩ <;>
        rcases Table.mem_put hi' with hput' | ⟨hold', -⟩
      · rw [hput, hput']
      · exact hput ▸ hother i' hold' k (hput ▸ hk) hk'
      · exact hput' ▸ (hother i hold k (hput' ▸ hk') hk).symm
      · exact h i hold i' hold' k hk hk'

/-- A payment is found with the invoice that has it. -/
theorem PaymentsApart.findPayment (h : PaymentsApart t) (hl : Ledgers t) (hi : i ∈ t.invoices)
    {q : Payment} (hq : q ∈ i.payments) : findPayment t.invoices q.id = some (i, q) := by
  have hkeys := (hl.ledger i hi).paymentKeys
  have hsome : (Billing.findPayment t.invoices q.id).isSome = true := by
    rw [Billing.findPayment, List.findSome?_isSome_iff]
    refine ⟨i, hi, ?_⟩
    rw [show Table.get q.id i.payments = some q from Table.get_of_mem hkeys hq]
    rfl
  obtain ⟨⟨i₀, q₀⟩, hfound⟩ := Option.isSome_iff_exists.mp hsome
  obtain ⟨hi₀, hq₀, hid⟩ := findPayment_eq_some hfound
  have hk₀ : q.id ∈ Table.keys i₀.payments := Table.mem_keys.mpr ⟨q₀, hq₀, hid⟩
  have hk : q.id ∈ Table.keys i.payments := Table.mem_keys.mpr ⟨q, hq, rfl⟩
  obtain rfl : i₀ = i := Table.eq_of_key_eq hl.keys hi₀ hi (h i₀ hi₀ i hi q.id hk₀ hk)
  obtain rfl : q₀ = q := Table.eq_of_key_eq hkeys hq₀ hq hid
  exact hfound

/-- A reversal that is accepted leaves the payment reversed on its invoice, whether it was
reversed before or not. -/
theorem reversePayment_reverses {q payment : Payment} {reason : String} (hl : Ledgers t)
    (ha : PaymentsApart t) (hi : i ∈ t.invoices) (hq : q ∈ i.payments)
    (h : reversePayment t ctx actor q.id reason = .ok (t', payment, i')) :
    Table.get i.id t'.invoices = some i' ∧
      ∃ q' ∈ i'.payments, q'.id = q.id ∧ q'.reversedAt ≠ none := by
  have hget : Table.get i.id t.invoices = some i := Table.get_of_mem hl.keys hi
  simp only [reversePayment, bind_eq_ok, ha.findPayment hl hi hq, orRaise_eq_ok,
    Option.some.injEq, exists_eq_left'] at h
  obtain ⟨_, _, h⟩ := h
  split at h
  · rename_i hreversed
    simp only [pure_eq_ok, Prod.mk.injEq] at h
    obtain ⟨rfl, _, rfl⟩ := h
    exact ⟨hget, q, hq, rfl, Option.isSome_iff_ne_none.mp hreversed⟩
  · simp only [bind_eq_ok, pure_eq_ok, Prod.exists, Prod.mk.injEq] at h
    obtain ⟨i₁, steps, hreconcile, rfl, _, rfl⟩ := h
    obtain ⟨hcharge, hpayments⟩ := reconcilePaymentStatus_sameCharge hreconcile
    have hid : i₁.id = i.id := hcharge.id
    constructor
    · rw [← hid] at hget ⊢
      exact Table.get_put_self hget
    · rw [hpayments]
      exact ⟨_, Table.mem_put_self hq rfl, rfl, Option.some_ne_none _⟩

/-- Every payment of a run has one invoice. -/
theorem PaymentsApart.ofRun {sha : Sha256} {t₀ : Tenant} (h₀ : t₀.Initial) (rs : List Request) :
    PaymentsApart (run (Tenant.handle sha) t₀ rs) := by
  have hrun : Ledgers (run (Tenant.handle sha) t₀ rs) ∧
      PaymentsApart (run (Tenant.handle sha) t₀ rs) := by
    refine run_invariant (P := fun t => Ledgers t ∧ PaymentsApart t) ?_ rs ⟨.ofInitial h₀, ?_⟩
    · rintro t r t' a ⟨hledgers, hapart⟩ hr
      exact ⟨hledgers.step hr, hapart.step hledgers.workflow hr⟩
    · simp [PaymentsApart, h₀.invoices]
  exact hrun.2

/-- The money an invoice with positive dues reports as paid is the sum of its standing
payments. -/
theorem Ledger.paidAmount (h : Ledger steps i) (hdues : 0 < i.dues) :
    i.paidAmount = i.currentPaid := by
  simp only [Invoice.paidAmount]
  split
  · rename_i hempty
    simp only [Bool.and_eq_true, List.isEmpty_iff, decide_eq_true_eq] at hempty
    exact ((h.settled hdues).mp hempty.2).symm
  · rfl

/-- What is outstanding are the dues less what was paid. -/
theorem Ledger.outstandingAmount (h : Ledger steps i) (hdues : 0 < i.dues) :
    i.outstandingAmount = i.dues - i.currentPaid := by
  rw [Invoice.outstandingAmount, if_neg h.live, h.paidAmount hdues]
  exact h.balance hdues

/-- **The payment ledger.**  Of every invoice with positive dues in every reachable
state: the standing payments never exceed the dues; the invoice is paid exactly when
they reach the dues and exactly when it stands in the paid step; what it reports as
paid and as outstanding adds up to the dues; an idempotency key names one payment at
most; a reversal that is accepted leaves its payment reversed; and a payment once reversed
stays on the invoice, reversed. -/
theorem payment_ledger (sha : Sha256) {t₀ t : Tenant} (h₀ : t₀.Initial) (rs : List Request)
    (ht : run (Tenant.handle sha) t₀ rs = t) {i : Invoice} (hi : i ∈ t.invoices)
    (hdues : 0 < i.dues) :
    i.currentPaid ≤ i.dues ∧
    (i.status = .paid ↔ i.currentPaid = i.dues) ∧
    (i.status = .paid ↔
      (i.currentStatus.bind (Table.get · t.steps)).any InvoiceStatusStep.isPaid = true) ∧
    (t.invoiceData i).paidAmount = i.currentPaid ∧
    (t.invoiceData i).paidAmount + (t.invoiceData i).outstandingAmount = i.dues ∧
    (∀ a ∈ i.payments, ∀ b ∈ i.payments, a.idempotencyKey ≠ "" →
      a.idempotencyKey = b.idempotencyKey → a = b) ∧
    (∀ q ∈ i.payments, ∀ actor ctx reason t' response,
      t.handle sha (.billing actor ctx (.reversePayment q.id reason)) = .ok (t', response) →
        ∃ i', Table.get i.id t'.invoices = some i' ∧
          ∃ q' ∈ i'.payments, q'.id = q.id ∧ q'.reversedAt ≠ none) ∧
    (∀ q ∈ i.payments, q.reversedAt ≠ none → ∀ rs' : List Request, ∃ i',
      Table.get i.id (run (Tenant.handle sha) t₀ (rs ++ rs')).invoices = some i' ∧
        q ∈ i'.payments ∧ ∀ q' ∈ i'.payments, q'.id = q.id → q'.standing = false) := by
  have hledgers : Ledgers t := ht ▸ (Ledgers.ofInitial h₀).run rs
  have h := hledgers.ledger i hi
  have hapart : PaymentsApart t := ht ▸ .ofRun h₀ rs
  refine ⟨h.bounded hdues, h.settled hdues, ?_, h.paidAmount hdues, ?_, h.idempotent, ?_, ?_⟩
  · obtain ⟨s, hs, hcurrent, hpaid⟩ := h.stands
    have hget : Table.get s.id t.steps = some s := Table.get_of_mem hledgers.workflow.ids hs
    rw [← hpaid, hcurrent, Option.bind_some, hget]
    rfl
  · have hsum : i.paidAmount + i.outstandingAmount = i.dues := by
      rw [h.paidAmount hdues, h.outstandingAmount hdues]
      exact add_sub_cancel _ _
    exact hsum
  · intro q hq actor ctx reason t' response hok
    simp only [Tenant.handle, Billing.Op.handle, paymentResponse, bind_eq_ok, pure_eq_ok,
      Prod.exists, Prod.mk.injEq] at hok
    obtain ⟨_, _, t', _, ⟨_, _, i', hreverse, rfl, _⟩, rfl, _⟩ := hok
    exact ⟨i', reversePayment_reverses hledgers hapart hi hq hreverse⟩
  · intro q hq hreversed rs'
    obtain ⟨i', hget, hq'⟩ := hledgers.reversed_stays sha
      ⟨i, Table.get_of_mem hledgers.keys hi, hq⟩ hreversed rs'
    have hledgers' : Ledgers (run (Tenant.handle sha) t rs') := hledgers.run rs'
    rw [run_append, ht]
    refine ⟨i', hget, hq', fun q' hq'' hid => ?_⟩
    have hkeys := (hledgers'.ledger i' (Table.mem_of_get hget).1).paymentKeys
    rw [Table.eq_of_key_eq hkeys hq'' hq' hid]
    simpa [Payment.standing, Option.isSome_iff_ne_none] using hreversed

/-- A part payment, its replay, its reversal and a payment of the balance, which is then
reversed as well. -/
theorem payment_ledger_paid :
    ∃ t, run (Tenant.handle Sample.sha) Sample.tenant Sample.paid = t ∧
      ∃ i ∈ t.invoices, 0 < i.dues ∧ i.payments.length = 2 ∧ i.status = .paid ∧
        i.currentPaid = i.dues ∧ ∃ q ∈ i.payments, q.standing = true ∧ ∃ t' response,
          t.handle Sample.sha (.billing 1 (Sample.ctx 14) (.reversePayment q.id "Paid twice")) =
            .ok (t', response) ∧
          ∃ i', Table.get i.id t'.invoices = some i' ∧
            ∃ q' ∈ i'.payments, q'.id = q.id ∧ q'.reversedAt ≠ none := by
  have hpaid : ∃ i ∈ (run (Tenant.handle Sample.sha) Sample.tenant Sample.paid).invoices,
      0 < i.dues ∧ i.payments.length = 2 ∧ i.status = .paid ∧ ∃ q ∈ i.payments,
        q.standing = true ∧ ((run (Tenant.handle Sample.sha) Sample.tenant Sample.paid).handle
          Sample.sha (.billing 1 (Sample.ctx 14) (.reversePayment q.id "Paid twice"))).isOk =
            true := by decide +kernel
  obtain ⟨i, hi, hdues, hlength, hstatus, q, hq, hstanding, hok⟩ := hpaid
  obtain ⟨⟨t', response⟩, hok⟩ := isOk_iff.mp hok
  obtain ⟨_, hsettled, _, _, _, _, hreverses, _⟩ :=
    payment_ledger Sample.sha Sample.initial Sample.paid rfl hi hdues
  exact ⟨_, rfl, i, hi, hdues, hlength, hstatus, hsettled.mp hstatus, q, hq, hstanding, t',
    response, hok, hreverses q hq 1 (Sample.ctx 14) "Paid twice" t' response hok⟩

end VesselCaller.Billing
