import VesselCaller.Billing.Ledger
import Mathlib.Data.Fintype.EquivFin

/-!
# Which invoices can be settled

An invoice can be settled when it is paid, or when a payment of its outstanding
balance is accepted and takes it to the paid step.  The payment endpoint refuses a
payment against a balance of zero as *already fully paid*, and nothing but a payment
moves an invoice to the paid step; so an invoice without dues is neither paid nor
payable.  With the ledger invariant this is the only exception: an invoice can be
settled exactly when its dues are positive.

A disparity invoice always has positive dues.  A harbour invoice has them when the
tonnage of the call times the rate of the inspection comes to half a cent or more.

## Main definitions

* `PaysBalance`, `PaidIn` — a payment of the balance, and what it leads to;
* `Settleable` — paid, or payable so;
* `WorthBilling` — the requests that bill something.
-/

namespace VesselCaller.Billing

open Lib Accounts Operations Measurements

variable {ctx : Ctx} {steps : List InvoiceStatusStep} {i i' : Invoice} {t t' : Tenant} {actor : Id}

/-! ## Paying the balance -/

/-- A well-formed request to pay what the invoice reports as outstanding: without an
amount or with exactly that one, under a reference, an idempotency key and a primary
key that are not in use. -/
structure PaysBalance (t : Tenant) (i : Invoice) (ctx : Ctx) (data : PaymentInput)
    (header : String) : Prop where
  valid : data.validate = .ok ()
  amount : data.amount = none ∨ data.amount = some (t.invoiceData i).outstandingAmount
  newId : ctx.uuid 0 ∉ t.invoices.flatMap fun i => Table.keys i.payments
  newReference : data.reference ∉ i.payments.map Payment.reference
  newKey : i.replayed (String.ofList (header.toList.take 128)) = none

/-- The invoice with key `invoice` is paid and stands in a paid step. -/
def PaidIn (t : Tenant) (invoice : Id) : Prop :=
  ∃ i, Table.get invoice t.invoices = some i ∧ i.status = .paid ∧
    (i.currentStatus.bind (Table.get · t.steps)).any InvoiceStatusStep.isPaid = true

/-- The invoice is paid, or every payment of its balance is accepted and pays it. -/
def Settleable (t : Tenant) (i : Invoice) : Prop :=
  i.status = .paid ∨ ∀ ctx actor data header, PaysBalance t i ctx data header →
    ∃ t' response, (Op.createPayment i.id data header).handle t ctx actor = .ok (t', response) ∧
      PaidIn t' i.id

/-- Money that covers the dues takes a live invoice to the paid step. -/
theorem reconcilePaymentStatus_of_covered (hw : Workflow steps) (hlive : i.status ≠ .void)
    (hcovered : i.dues ≤ i.currentPaid) {source : EventSource} (hsource : source ≠ .manual)
    (by' : Option Id) :
    ∃ i', reconcilePaymentStatus ctx steps i source by' = .ok (i', steps) := by
  obtain ⟨s, _, _, hpaid⟩ := hw.paidStep ctx
  obtain ⟨i', recorded, htransition⟩ := exists_transitionInvoice hsource ctx steps i s by' ""
  refine ⟨i', ?_⟩
  simp [reconcilePaymentStatus, hlive, hcovered, hpaid, htransition, bind, Except.bind, pure,
    Except.pure]

theorem Ledger.balance_ne_zero (h : Ledger steps i) (hdues : 0 < i.dues)
    (hunpaid : i.status ≠ .paid) : i.balance ≠ 0 := by
  intro hzero
  rw [h.balance hdues] at hzero
  exact hunpaid ((h.settled hdues).mpr (sub_eq_zero.mp hzero).symm)

/-- Either way of asking for the balance asks for the balance. -/
theorem PaysBalance.amount_eq {data : PaymentInput} {header : String}
    (hp : PaysBalance t i ctx data header) (h : Ledger t.steps i) (hdues : 0 < i.dues) :
    data.amount.getD i.balance = i.balance := by
  rcases hp.amount with hnone | hsome
  · rw [hnone, Option.getD_none]
  · have hshown : (t.invoiceData i).outstandingAmount = i.dues - i.currentPaid :=
      h.outstandingAmount hdues
    rw [hsome, Option.getD_some, hshown, h.balance hdues]

/-- **Paying the balance** of an unpaid invoice with positive dues is accepted. -/
theorem recordPayment_balance {data : PaymentInput} {header : String} (hl : Ledgers t)
    (mem : i ∈ t.invoices) (hdues : 0 < i.dues) (hunpaid : i.status ≠ .paid)
    (hp : PaysBalance t i ctx data header) (actor : Id) (k : String) :
    ∃ t' payment i', recordPayment t ctx actor i data k = .ok (t', payment, i') ∧
      t' = (putInvoice t i').bumpRevision ∧ i'.dues = i.dues ∧ i'.currentPaid = i.dues := by
  have h := hl.ledger i mem
  have hamount := hp.amount_eq h hdues
  have hbalance := h.balance_ne_zero hdues hunpaid
  -- The payment the endpoint records, and the invoice with it.
  let payment : Payment := {
    id := ctx.uuid 0, amount := data.amount.getD i.balance, paidOn := data.paidOn
    method := data.method, reference := data.reference, recordedBy := actor, recordedAt := ctx.now
    reversedAt := none, reversedBy := none, reversalReason := "", idempotencyKey := k }
  have hsum : Invoice.currentPaid { i with payments := i.payments ++ [payment] } = i.dues := by
    rw [i.currentPaid_concat (rfl : payment.reversedAt = none)]
    show i.currentPaid + data.amount.getD i.balance = i.dues
    rw [hamount, h.balance hdues]
    exact add_sub_cancel _ _
  obtain ⟨i', hreconcile⟩ : ∃ i', reconcilePaymentStatus ctx t.steps
      { i with payments := i.payments ++ [payment] } .payment (some actor) = .ok (i', t.steps) := by
    apply reconcilePaymentStatus_of_covered hl.workflow
    · exact h.live
    · exact hsum.ge
    · simp
  obtain ⟨hcharge, hpayments⟩ := reconcilePaymentStatus_sameCharge hreconcile
  refine ⟨_, payment, i', ?_, rfl, hcharge.dues, ?_⟩
  · have hguard : ¬(i.status = .paid ∨ i.balance = 0) := not_or.mpr ⟨hunpaid, hbalance⟩
    have hcovered : ¬(data.amount.getD i.balance > i.balance) := by rw [hamount]; exact lt_irrefl _
    unfold recordPayment
    rw [raiseIf_of_not hguard]
    simp only [bind, Except.bind]
    rw [raiseIf_of_not hcovered, raiseIf_of_not hp.newId, raiseIf_of_not hp.newReference]
    simp only [hreconcile, payment, pure, Except.pure]
  · rw [← hsum, Invoice.currentPaid, hpayments]
    rfl

/-- An invoice the ledger shows as paid is paid in the sense of `PaidIn`. -/
theorem Ledgers.paidIn (hl : Ledgers t) (mem : i ∈ t.invoices) (hdues : 0 < i.dues)
    (hsum : i.currentPaid = i.dues) : PaidIn t i.id := by
  have h := hl.ledger i mem
  have hpaid := (h.settled hdues).mpr hsum
  refine ⟨i, Table.get_of_mem hl.keys mem, hpaid, ?_⟩
  obtain ⟨s, hs, hcurrent, hstep⟩ := h.stands
  have hget : Table.get s.id t.steps = some s := Table.get_of_mem hl.workflow.ids hs
  rw [hcurrent, Option.bind_some, hget]
  exact hstep.mpr hpaid

theorem Ledgers.settleable (hl : Ledgers t) (mem : i ∈ t.invoices) (hdues : 0 < i.dues) :
    Settleable t i := by
  by_cases hunpaid : i.status = .paid
  · exact .inl hunpaid
  right
  intro ctx actor data header hp
  obtain ⟨t', payment, i', hrecord, ht', hdues', hsum⟩ :=
    recordPayment_balance hl mem hdues hunpaid hp actor (String.ofList (header.toList.take 128))
  have hget : Table.get i.id t.invoices = some i := Table.get_of_mem hl.keys mem
  have hcreate : createPayment t ctx actor i.id data header = .ok (t', payment, i') := by
    simp [createPayment, hp.valid, getInvoice, hget, orRaise, raiseIf, (hl.ledger i mem).live,
      hp.newKey, hrecord, bind, Except.bind]
  have hhandle : (Op.createPayment i.id data header).handle t ctx actor =
      .ok (paymentResponse (t', payment, i')) := by
    simp [Op.handle, hcreate, bind, Except.bind, pure, Except.pure]
  refine ⟨t', _, hhandle, ?_⟩
  -- The invoice written back has its ledger in order again, now with the dues paid.
  obtain ⟨hsettled, _, hsettles⟩ := recordPayment_eq_ok hp.valid (hl.ledger i mem).live hp.newKey
    mem hl.workflow hrecord
  have hl' : Ledgers t' := hl.ledgerStep (r := .billing actor ctx (.createPayment i.id data header))
    (.settled i i' mem hsettled (ht' ▸ rfl) (ht' ▸ rfl)
      ⟨actor, ctx, _, rfl, hsettles data header⟩)
  have mem' : i' ∈ t'.invoices := by
    rw [ht']
    exact Table.mem_put_self mem hsettled.sameCharge.id.symm
  rw [← hsettled.sameCharge.id]
  exact hl'.paidIn mem' (hdues' ▸ hdues) (hsum.trans hdues'.symm)

/-! ## Invoices without dues -/

/-- An invoice without dues takes no payment. -/
theorem Ledger.recordPayment_idle (h : Ledger t.steps i) (hdues : i.dues ≤ 0)
    (data : PaymentInput) (k : String) :
    recordPayment t ctx actor i data k = .error (.conflict "This invoice is already fully paid") := by
  obtain ⟨hpayments, _⟩ := h.idle hdues
  have hbalance : i.balance = 0 := by
    simp [Invoice.balance, Invoice.currentPaid, hpayments, hdues]
  simp [recordPayment, raiseIf, hbalance, bind, Except.bind]

/-- **Exactly the invoices with positive dues can be settled.** -/
theorem Ledgers.settleable_iff (hl : Ledgers t) (mem : i ∈ t.invoices) :
    Settleable t i ↔ 0 < i.dues := by
  refine ⟨fun hsettle => ?_, hl.settleable mem⟩
  by_contra hdues
  have h := hl.ledger i mem
  obtain ⟨hpayments, hunpaid⟩ := h.idle (not_lt.mp hdues)
  rcases hsettle with hpaid | hpay
  · simp [hpaid] at hunpaid
  -- A payment without an amount, under a key no payment has, is a payment of the balance.
  obtain ⟨fresh, hfresh⟩ :=
    Infinite.exists_notMem_finset (t.invoices.flatMap fun i => Table.keys i.payments).toFinset
  have hp : PaysBalance t i ⟨0, 0, fun _ => fresh, id⟩
      { paidOn := 0, method := "Transfer", reference := "TRF" } "" := by
    refine ⟨by decide, .inl rfl, ?_, by simp [hpayments], by simp [Invoice.replayed]⟩
    exact fun hmem => hfresh (List.mem_toFinset.mpr hmem)
  obtain ⟨t', response, hok, _⟩ := hpay _ 0 _ _ hp
  have hget : Table.get i.id t.invoices = some i := Table.get_of_mem hl.keys mem
  have hnew : i.replayed "" = none := by simp [Invoice.replayed]
  simp [Op.handle, createPayment, hp.valid, getInvoice, hget, orRaise, raiseIf, h.live, hnew,
    h.recordPayment_idle (not_lt.mp hdues), bind, Except.bind] at hok

/-! ## Runs -/

/-- Whatever inspection the request bills, the tonnage of its call at its rate comes to
half a cent or more. -/
def WorthBilling (t : Tenant) (r : Request) : Prop :=
  ∀ actor ctx op call inspection rate, r = .operations actor ctx op →
    op.bills t ctx = some (call, inspection) →
    rateForInspection inspection t.settings = .ok rate → 10 ^ 5 ≤ 2 * (call.nrt * rate)

theorem money_pos {v : ℤ} (h : 10 ^ 5 ≤ 2 * v) : 0 < money 5 v :=
  (quantize_pos_iff 5 (by linarith)).mpr h

/-- An invoice a request opens has positive dues if the request is worth billing. -/
theorem Origin.dues_pos {r : Request} (h : Origin r t t' i) (hworth : WorthBilling t r) :
    0 < i.dues := by
  cases h with
  | harbour actor ctx op call inspection request bills hbill =>
      obtain ⟨rate, hrate, hdues⟩ := hbill.dues
      rw [hdues]
      exact money_pos (hworth actor ctx op call inspection rate request bills hrate)
  | disparity p p' a _ _ hissued => exact hissued.dues ▸ hissued.positive

/-- Positive dues stay positive, and a request that is worth billing opens no invoice
without them. -/
theorem LedgerStep.dues_pos {r : Request} (h : LedgerStep r t t') (hworth : WorthBilling t r)
    (hdues : ∀ i ∈ t.invoices, 0 < i.dues) : ∀ i ∈ t'.invoices, 0 < i.dues := by
  cases h with
  | untouched _ invoices => exact invoices ▸ hdues
  | configured _ invoices => exact invoices ▸ hdues
  | opened i origin _ _ _ _ _ _ _ _ invoices =>
      rw [invoices]
      intro j hj
      rcases List.mem_cons.mp hj with rfl | hj
      · exact origin.dues_pos hworth
      · exact hdues j hj
  | settled i i' mem hsettled _ invoices _ =>
      rw [invoices]
      intro j hj
      rcases Table.mem_put hj with rfl | ⟨hj, _⟩
      · exact hsettled.sameCharge.dues ▸ hdues i mem
      · exact hdues j hj

/-- **Stuck invoices.**  In every reachable state a live invoice can be settled exactly
when its dues are positive; and after a run in which every billed inspection was worth
billing, every live invoice can be settled. -/
theorem no_stuck_invoice (sha : Sha256) {t₀ t : Tenant} (h₀ : t₀.Initial) (rs : List Request)
    (ht : run (Tenant.handle sha) t₀ rs = t) :
    (∀ i ∈ t.invoices, i.status ≠ .void → (Settleable t i ↔ 0 < i.dues)) ∧
    (Along (Tenant.handle sha) WorthBilling t₀ rs →
      ∀ i ∈ t.invoices, i.status ≠ .void → Settleable t i) := by
  have hl : Ledgers t := ht ▸ (Ledgers.ofInitial h₀).run rs
  refine ⟨fun i hi _ => hl.settleable_iff hi, fun hworth i hi _ => ?_⟩
  have hrun : Ledgers (run (Tenant.handle sha) t₀ rs) ∧
      ∀ i ∈ (run (Tenant.handle sha) t₀ rs).invoices, 0 < i.dues := by
    refine run_invariant_along (P := fun s => Ledgers s ∧ ∀ i ∈ s.invoices, 0 < i.dues) ?_ rs
      hworth ⟨.ofInitial h₀, by simp [h₀.invoices]⟩
    rintro s r s' a ⟨hs, hdues⟩ hr hok
    exact ⟨hs.step hok, (handle_ledger hs.workflow hok).dues_pos hr hdues⟩
  exact hl.settleable hi (hrun.2 i (ht ▸ hi))

/-- A completed dry-cargo inspection of a thousand tons is worth billing. -/
theorem no_stuck_invoice_billed :
    ∃ t, run (Tenant.handle Sample.sha) Sample.tenant Sample.inspected = t ∧
      ∃ i ∈ t.invoices, i.dues = 20000 ∧ Settleable t i := by
  have hinvoice : ∃ i ∈ (run (Tenant.handle Sample.sha) Sample.tenant Sample.inspected).invoices,
      i.dues = 20000 ∧ i.status ≠ .void := by decide +kernel
  have hworth : Along (Tenant.handle Sample.sha) WorthBilling Sample.tenant Sample.inspected := by
    refine ⟨?_, ?_, trivial⟩
    · rintro actor ctx op call inspection rate ⟨⟩ hbills
      simp [Operations.Op.bills] at hbills
    · rintro actor ctx op call inspection rate ⟨⟩ hbills hrate
      have hnrt : (Table.get 10000 (serve (Tenant.handle Sample.sha) Sample.tenant
          Sample.registered).calls).map VesselCall.nrt = some 1000000 := by decide +kernel
      obtain ⟨call', hcall, hnrt⟩ := Option.map_eq_some_iff.mp hnrt
      simp only [Operations.Op.bills, replayed, hcall, Option.bind_some, Option.map_some] at hbills
      obtain ⟨rfl, rfl⟩ : call' = call ∧ draftInspection (Sample.ctx 2) call'
          { callId := some 10000, cargoType := some .dry, completed := true } "" "" =
            inspection := by simpa using hbills
      have hrate : Except.ok 2000 = (Except.ok rate : Result (Decimal 4)) := hrate
      cases hrate
      rw [hnrt]
      decide
  obtain ⟨i, hi, hdues, hlive⟩ := hinvoice
  exact ⟨_, rfl, i, hi, hdues,
    (no_stuck_invoice Sample.sha Sample.initial Sample.inspected rfl).2 hworth i hi hlive⟩

/-- A completed liquid-cargo inspection at a jetty that is not classified is charged at
no rate at all. -/
theorem unrated_inspection_stuck :
    ∃ i ∈ (run (Tenant.handle Sample.sha) Sample.tenant Sample.unrated).invoices,
      i.status ≠ .void ∧
        ¬Settleable (run (Tenant.handle Sample.sha) Sample.tenant Sample.unrated) i := by
  have hinvoice : ∃ i ∈ (run (Tenant.handle Sample.sha) Sample.tenant Sample.unrated).invoices,
      i.status ≠ .void ∧ i.dues = 0 := by decide +kernel
  obtain ⟨i, hi, hlive, hdues⟩ := hinvoice
  have hl : Ledgers (run (Tenant.handle Sample.sha) Sample.tenant Sample.unrated) :=
    (Ledgers.ofInitial Sample.initial).run Sample.unrated
  refine ⟨i, hi, hlive, fun hsettle => ?_⟩
  exact absurd ((hl.settleable_iff hi).mp hsettle) (by rw [hdues]; exact lt_irrefl 0)

end VesselCaller.Billing
