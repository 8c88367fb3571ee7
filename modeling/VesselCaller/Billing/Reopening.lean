import VesselCaller.Billing.StatusHistory

/-!
# Where a reversal takes an invoice back to

A paid invoice whose payment is reversed leaves the paid step.  Its row no longer names the
step it stood in before, so `reconcile_payment_status` looks for it in the status events, from
the last one backwards, and takes the first step that is still open; the workflow may have been
reconfigured since.

`Returns` says where that is.  The last event but the one that entered the paid step is the one
that entered the step the invoice stood in (`Stood`), whatever the history before it; so the
invoice goes back to that step, unless it has been deactivated.

## Main definitions

* `LastEntered`, `NeverEntered` — what the status events say of a step;
* `Returns` — where a reversal takes the invoice back to;
* `Ordinary`, `Stood` — a step that is neither paid nor terminal, and an invoice that stood in
  it;
* `Paying` — the invariant of such an invoice while it is only paid.
-/

namespace VesselCaller.Billing

open Lib Accounts Measurements

variable {ctx : Ctx} {steps steps' : List InvoiceStatusStep} {i i' : Invoice} {t t' : Tenant}

/-! ## Open steps of a history -/

/-- The events entered the step last of the steps that are open. -/
def LastEntered (steps : List InvoiceStatusStep) (events : List InvoiceStatusEvent)
    (step : InvoiceStatusStep) : Prop :=
  step ∈ steps ∧ step.open = true ∧ ∃ before e after, events = before ++ e :: after ∧
    e.toStep = some step.id ∧
    ∀ e' ∈ after, ∀ s ∈ steps, e'.toStep = some s.id → s.open = false

/-- The events entered no step that is open. -/
def NeverEntered (steps : List InvoiceStatusStep) (events : List InvoiceStatusEvent) : Prop :=
  ∀ e ∈ events, ∀ s ∈ steps, e.toStep = some s.id → s.open = false

/-- The default step: the first of the open ones. -/
def IsDefault (steps : List InvoiceStatusStep) (step : InvoiceStatusStep) : Prop :=
  step ∈ steps ∧ step.open = true ∧ ∀ s ∈ steps, s.open = true → step.position ≤ s.position

/-- Where an invoice with these events, which stood in the step with key `stood`, returns to:
to that step where it is active, and otherwise to the open step it entered last, or to the
default one. -/
inductive Returns (steps : List InvoiceStatusStep) (events : List InvoiceStatusEvent) (stood : Id) :
    InvoiceStatusStep → Prop where
  | same (step : InvoiceStatusStep) (mem : step ∈ steps) (id : step.id = stood)
      (active : step.active = true) : Returns steps events stood step
  | earlier (step : InvoiceStatusStep)
      (inactive : ∀ s ∈ steps, s.id = stood → s.active = false)
      (h : LastEntered steps events step) : Returns steps events stood step
  | default (step : InvoiceStatusStep)
      (inactive : ∀ s ∈ steps, s.id = stood → s.active = false)
      (never : NeverEntered steps events) (h : IsDefault steps step) :
      Returns steps events stood step

/-- What `latestOpenStep` looks for in one event. -/
theorem openStep_eq_some (hids : (Table.keys steps).Nodup) {e : InvoiceStatusEvent}
    {step : InvoiceStatusStep} :
    (e.toStep.bind (Table.get · steps)).filter InvoiceStatusStep.open = some step ↔
      step ∈ steps ∧ step.open = true ∧ e.toStep = some step.id := by
  rw [Option.filter_eq_some_iff, Option.bind_eq_some_iff]
  constructor
  · rintro ⟨⟨id, hid, hget⟩, hopen⟩
    obtain ⟨mem, rfl⟩ := Table.mem_of_get hget
    exact ⟨mem, hopen, hid⟩
  · rintro ⟨mem, hopen, hid⟩
    exact ⟨⟨step.id, hid, Table.get_of_mem hids mem⟩, hopen⟩

theorem openStep_eq_none (hids : (Table.keys steps).Nodup) {e : InvoiceStatusEvent} :
    (e.toStep.bind (Table.get · steps)).filter InvoiceStatusStep.open = none ↔
      ∀ s ∈ steps, e.toStep = some s.id → s.open = false := by
  rw [Option.eq_none_iff_forall_ne_some]
  refine forall_congr' fun s => ?_
  rw [ne_eq, openStep_eq_some hids]
  constructor
  · intro h mem hid
    exact Bool.eq_false_iff.mpr fun hopen => h ⟨mem, hopen, hid⟩
  · rintro h ⟨mem, hopen, hid⟩
    rw [h mem hid] at hopen
    cases hopen

theorem latestOpenStep_eq_some_iff (hids : (Table.keys steps).Nodup) {step : InvoiceStatusStep} :
    latestOpenStep steps i = some step ↔ LastEntered steps i.events step := by
  rw [latestOpenStep, List.findSome?_eq_some_iff]
  simp only [openStep_eq_some hids, openStep_eq_none hids]
  constructor
  · rintro ⟨after, e, before, hevents, ⟨mem, hopen, hid⟩, hafter⟩
    refine ⟨mem, hopen, before.reverse, e, after.reverse, ?_, hid, ?_⟩
    · rw [← List.reverse_reverse i.events, hevents]
      simp
    · exact fun e' he' => hafter e' (List.mem_reverse.mp he')
  · rintro ⟨mem, hopen, before, e, after, hevents, hid, hafter⟩
    refine ⟨after.reverse, e, before.reverse, ?_, ⟨mem, hopen, hid⟩, ?_⟩
    · rw [hevents]
      simp
    · exact fun e' he' => hafter e' (List.mem_reverse.mp he')

theorem latestOpenStep_eq_none_iff (hids : (Table.keys steps).Nodup) :
    latestOpenStep steps i = none ↔ NeverEntered steps i.events := by
  rw [latestOpenStep, List.findSome?_eq_none_iff]
  simp only [openStep_eq_none hids, List.mem_reverse]
  rfl

theorem Workflow.exists_default (hw : Workflow steps) (ctx : Ctx) :
    ∃ step, IsDefault steps step ∧ Billing.activeDefaultStep ctx steps = .ok (step, steps) := by
  obtain ⟨step, mem, hopen, hdefault⟩ := hw.activeDefaultStep ctx
  refine ⟨step, ⟨mem, hopen, ?_⟩, hdefault⟩
  intro s hs hsopen
  simp only [Billing.activeDefaultStep, hw.ensureDefaultSteps, bind_eq_ok, orRaise_eq_ok,
    pure_eq_ok, Except.ok.injEq, exists_eq_left', Prod.mk.injEq] at hdefault
  obtain ⟨_, hhead, rfl, -⟩ := hdefault
  have hmem : s ∈ sortBy InvoiceStatusStep.position (steps.filter InvoiceStatusStep.open) :=
    mem_sortBy.mpr (List.mem_filter.mpr ⟨hs, hsopen⟩)
  have hsorted := sortBy_pairwise InvoiceStatusStep.position (steps.filter InvoiceStatusStep.open)
  obtain ⟨rest, hrest⟩ := List.head?_eq_some_iff.mp hhead
  rw [hrest] at hmem hsorted
  rcases List.mem_cons.mp hmem with rfl | hmem
  · exact le_rfl
  · exact List.rel_of_pairwise_cons hsorted hmem

/-! ## Reconciliation -/

/-- An unpaid invoice that is not covered stays in its step. -/
theorem reconcilePaymentStatus_of_unpaid {s : InvoiceStatusStep} (hlive : i.status ≠ .void)
    (hlt : i.currentPaid < i.dues) (hget : i.currentStatus.bind (Table.get · steps) = some s)
    (hunpaid : s.isPaid = false) (source : EventSource) (by' : Option Id) :
    reconcilePaymentStatus ctx steps i source by' = .ok (i, steps) := by
  unfold reconcilePaymentStatus
  rw [if_neg hlive, if_neg (not_le.mpr hlt), hget, Option.any_some, hunpaid]
  rfl

/-- A transition to a step of the workflow goes there. -/
theorem transitionInvoice_current {step : InvoiceStatusStep} {source : EventSource}
    {by' : Option Id} {note : String} {recorded : Bool}
    (h : transitionInvoice ctx steps i (some step) source by' note = .ok (i', recorded)) :
    i'.currentStatus = some step.id := by
  rcases transitionInvoice_eq_ok h with ⟨-, rfl, hcurrent, -⟩ | ⟨-, -, rfl⟩
  · exact hcurrent
  · rfl

/-- A paid invoice that is no longer covered goes to the open step it entered last, or to the
default one. -/
theorem reconcilePaymentStatus_reopens (hw : Workflow steps) {s : InvoiceStatusStep}
    (hlive : i.status ≠ .void) (hlt : i.currentPaid < i.dues)
    (hget : i.currentStatus.bind (Table.get · steps) = some s) (hpaid : s.isPaid = true)
    {source : EventSource} (hsource : source ≠ .manual) (by' : Option Id) :
    ∃ i' step, reconcilePaymentStatus ctx steps i source by' = .ok (i', steps) ∧
      i'.currentStatus = some step.id ∧
      (LastEntered steps i.events step ∨ NeverEntered steps i.events ∧ IsDefault steps step) := by
  unfold reconcilePaymentStatus
  rw [if_neg hlive, if_neg (not_le.mpr hlt), hget, Option.any_some, hpaid]
  cases hlatest : latestOpenStep steps i with
  | some step =>
      obtain ⟨i', recorded, htransition⟩ := exists_transitionInvoice hsource ctx steps i step by' ""
      refine ⟨i', step, ?_, transitionInvoice_current htransition,
        .inl ((latestOpenStep_eq_some_iff hw.ids).mp hlatest)⟩
      simp [htransition, bind, Except.bind, pure, Except.pure]
  | none =>
      obtain ⟨step, hdefault, hstep⟩ := hw.exists_default ctx
      obtain ⟨i', recorded, htransition⟩ := exists_transitionInvoice hsource ctx steps i step by' ""
      refine ⟨i', step, ?_, transitionInvoice_current htransition,
        .inr ⟨(latestOpenStep_eq_none_iff hw.ids).mp hlatest, hdefault⟩⟩
      simp [hstep, htransition, bind, Except.bind, pure, Except.pure]

/-! ## Paying an invoice -/

/-- The request neither moves the invoice by hand nor reverses a payment of it. -/
def OnlyPays (invoice : Id) (t : Tenant) (r : Request) : Prop :=
  ∀ actor ctx op, r = .billing actor ctx op →
    (∀ status note, op ≠ .transition invoice status note) ∧
    ∀ i, Table.get invoice t.invoices = some i → ∀ q ∈ i.payments, ∀ reason,
      op ≠ .reversePayment q.id reason

/-- The invoice stands in the step, or is paid and stood in it before. -/
inductive Stood (stood : Id) (i : Invoice) : Prop where
  | unpaid (status : i.status ≠ .paid) (current : i.currentStatus = some stood)
  | paid (status : i.status = .paid) (before : List InvoiceStatusEvent) (e : InvoiceStatusEvent)
      (events : i.events = before ++ [e])
      (left : before.getLast?.map InvoiceStatusEvent.toStep = some (some stood))
      (entered : e.toStep = i.currentStatus)

/-- The step is one of the workflow, and neither the paid one nor terminal. -/
def Ordinary (steps : List InvoiceStatusStep) (stood : Id) : Prop :=
  ∃ s ∈ steps, s.id = stood ∧ s.isPaid = false ∧ s.isTerminal = false

theorem Ordinary.kept {stood : Id} (h : Ordinary steps stood) (hkept : StepsKept steps steps') :
    Ordinary steps' stood := by
  obtain ⟨s, hs, hid, hpaid, hterminal⟩ := h
  obtain ⟨s', hs', hid', hpaid', hterminal'⟩ := hkept s hs
  exact ⟨s', hs', hid'.trans hid, hpaid'.trans hpaid, hterminal'.trans hterminal⟩

/-- A payment leaves an invoice in its step until it covers the dues, and then takes it out of
that step. -/
theorem Stood.payment {stood : Id} (h : Stood stood i) (hw : Workflow steps)
    (hledger : Ledger steps i) (hlogged : i.Logged) {payment : Payment} {by' : Option Id}
    (hunpaid : i.status ≠ .paid)
    (hreconcile : reconcilePaymentStatus ctx steps
      { i with payments := i.payments ++ [payment] } .payment by' = .ok (i', steps)) :
    Stood stood i' := by
  obtain ⟨hcurrent⟩ | ⟨hpaid, -⟩ := h
  case paid => exact absurd hpaid hunpaid
  rename_i hcurrent
  obtain ⟨s, hs, hstands, hget, hstatus⟩ := hledger.currentStep hw
  have hnotPaid : s.isPaid = false := by
    rw [← Bool.not_eq_true]
    intro hpaid
    apply hunpaid
    rw [hstatus, statusOfStep, if_pos hpaid]
  by_cases hcovered :
      i.dues ≤ Invoice.currentPaid { i with payments := i.payments ++ [payment] }
  · obtain ⟨-, ⟨hvoid, -⟩ | ⟨-, -, step, hstep, hpaid, recorded, htransition⟩ |
      ⟨-, hlt, -⟩ | ⟨-, hlt, -⟩⟩ := reconcilePaymentStatus_eq_ok hw hreconcile
    · exact absurd hvoid hledger.live
    · rcases transitionInvoice_eq_ok htransition with ⟨-, -, hsame, -⟩ | ⟨-, -, rfl⟩
      · -- The invoice does not stand in the paid step already.
        have hid : s.id = step.id := Option.some.inj (hstands.symm.trans hsame)
        rw [Table.eq_of_key_eq hw.ids hs hstep hid, hpaid] at hnotPaid
        cases hnotPaid
      · refine .paid ?_ i.events _ rfl ?_ rfl
        · show statusOfStep (some step) = .paid
          rw [statusOfStep, if_pos hpaid]
        · rw [Trail.getLast? hlogged (Trail.ne_nil hlogged (by simp [hcurrent])), hcurrent]
    · exact absurd hcovered (not_le.mpr hlt)
    · exact absurd hcovered (not_le.mpr hlt)
  · have hlive : Invoice.status { i with payments := i.payments ++ [payment] } ≠ .void :=
      hledger.live
    rw [reconcilePaymentStatus_of_unpaid hlive (not_le.mp hcovered) hget hnotPaid] at hreconcile
    cases hreconcile
    exact .unpaid hunpaid hcurrent

/-- An invoice that stood in an ordinary step and has only been paid since. -/
structure Paying (stood invoice : Id) (t : Tenant) : Prop extends Histories t where
  apart : PaymentsApart t
  ordinary : Ordinary t.steps stood
  found : ∃ i, Table.get invoice t.invoices = some i ∧ 0 < i.dues ∧ Stood stood i

theorem Paying.step {sha : Sha256} {stood invoice : Id} {r : Request} {a : VesselCaller.Response}
    (h : Paying stood invoice t) (hpays : OnlyPays invoice t r)
    (hr : t.handle sha r = .ok (t', a)) : Paying stood invoice t' := by
  have hledger := handle_ledger h.workflow hr
  refine ⟨h.toHistories.step hr, h.apart.step h.workflow hr, ?_, ?_⟩
  · cases hledger with
    | untouched steps _ => exact steps ▸ h.ordinary
    | configured hconfigured _ => exact h.ordinary.kept hconfigured.kept
    | opened _ _ _ _ _ _ _ _ _ steps _ => exact steps ▸ h.ordinary
    | settled _ _ _ _ steps _ _ => exact steps ▸ h.ordinary
  · obtain ⟨i, hget, hdues, hstood⟩ := h.found
    obtain ⟨mem, hid⟩ := Table.mem_of_get hget
    cases hledger with
    | untouched _ invoices => exact ⟨i, invoices ▸ hget, hdues, hstood⟩
    | configured _ invoices => exact ⟨i, invoices ▸ hget, hdues, hstood⟩
    | opened j _ _ _ _ fresh _ _ _ _ invoices =>
        refine ⟨i, ?_, hdues, hstood⟩
        -- An invoice that is opened has a new key.
        have hne : key j ≠ invoice := by
          rintro rfl
          exact fresh (Table.mem_keys.mpr ⟨i, mem, hid⟩)
        rw [invoices, Table.get, List.find?_cons_of_neg (by simpa using hne)]
        exact hget
    | settled j j' hj hsettled _ invoices request =>
        -- Money has moved on this invoice, or on another one.
        by_cases hk : invoice = key j'
        · obtain ⟨actor, ctx, op, rfl, hsettles⟩ := request
          obtain rfl : j = i := Table.eq_of_key_eq h.keys hj mem
            ((hsettled.sameCharge.id.symm.trans hk.symm).trans hid.symm)
          obtain ⟨hmoves, hreverses⟩ := hpays actor ctx op rfl
          have hjid : j.id = invoice := hid
          refine ⟨j', invoices ▸ hk ▸ Table.get_put_self (hk ▸ hget),
            hsettled.sameCharge.dues ▸ hdues, ?_⟩
          cases hsettles with
          | payment data header ctx actor payment _ hpayable reconciled =>
              exact hstood.payment h.workflow (h.ledger j mem) (h.logged j mem) hpayable.unpaid
                reconciled
          | reversal paymentId reason hmem _ =>
              obtain ⟨q, hq, rfl⟩ := Table.mem_keys.mp hmem
              exact absurd rfl (hreverses j hget q hq reason)
          | move status note _ => exact absurd rfl (hjid ▸ hmoves status note)
        · exact ⟨i, by rw [invoices, Table.get_put_of_ne hk]; exact hget, hdues, hstood⟩

theorem Paying.run {sha : Sha256} {stood invoice : Id} (h : Paying stood invoice t)
    {rs : List Request} (hpays : Along (Tenant.handle sha) (OnlyPays invoice) t rs) :
    Paying stood invoice (run (Tenant.handle sha) t rs) :=
  run_invariant_along (fun hs hr hok => hs.step hr hok) rs hpays h

/-! ## Reversing a payment -/

/-- The step an ordinary one is reached from is the last open one that was entered, where it is
active. -/
theorem Returns.of_stood {stood : Id} {step : InvoiceStatusStep} (hw : Workflow steps)
    (hordinary : Ordinary steps stood) (hstood : Stood stood i) (hpaid : i.status = .paid)
    (hledger : Ledger steps i)
    (h : LastEntered steps i.events step ∨ NeverEntered steps i.events ∧ IsDefault steps step) :
    Returns steps i.events stood step := by
  obtain ⟨s, hs, rfl, hnotPaid, hnotTerminal⟩ := hordinary
  have hrow : ∀ s' ∈ steps, s'.id = s.id → s' = s := fun s' hs' hid =>
    Table.eq_of_key_eq hw.ids hs' hs hid
  cases hactive : s.active with
  | false =>
      have hinactive : ∀ s' ∈ steps, s'.id = s.id → s'.active = false := by
        intro s' hs' hid
        rw [hrow s' hs' hid]
        exact hactive
      rcases h with hlast | ⟨hnever, hdefault⟩
      · exact .earlier step hinactive hlast
      · exact .default step hinactive hnever hdefault
  | true =>
      have hopen : s.open = true := by
        rw [InvoiceStatusStep.open, hactive, hnotPaid, hnotTerminal]
        rfl
      cases hstood with
      | unpaid status _ => exact absurd hpaid status
      | paid _ before e events left entered =>
          obtain ⟨p, hp, hcurrent, hispaid⟩ := hledger.stands
          -- The last event entered the paid step, the one before it the step `s`.
          obtain ⟨last, hlast, hto⟩ := Option.map_eq_some_iff.mp left
          obtain ⟨front, rfl⟩ := List.getLast?_eq_some_iff.mp hlast
          have hentered : LastEntered steps i.events s := by
            refine ⟨hs, hopen, front, last, [e], by rw [events]; simp, hto, ?_⟩
            intro e' he' s' hs' hid
            rw [List.mem_singleton.mp he', entered, hcurrent] at hid
            rw [← Table.eq_of_key_eq hw.ids hp hs' (Option.some.inj hid),
              InvoiceStatusStep.open, hispaid.mpr hpaid]
            simp
          have hlatest := (latestOpenStep_eq_some_iff hw.ids).mpr hentered
          have hsame : step = s := by
            rcases h with h | ⟨h, -⟩
            · have hstep := (latestOpenStep_eq_some_iff hw.ids).mpr h
              exact Option.some.inj (hstep.symm.trans hlatest)
            · have hnone := (latestOpenStep_eq_none_iff hw.ids).mpr h
              rw [hnone] at hlatest
              cases hlatest
          exact .same step (hsame ▸ hs) (hsame ▸ rfl) (hsame ▸ hactive)

/-- A reversal of a payment of a paid invoice succeeds, and takes the invoice back. -/
theorem Paying.reversal {stood invoice : Id} (h : Paying stood invoice t)
    (hget : Table.get invoice t.invoices = some i) (hcovered : i.dues ≤ i.currentPaid)
    {q : Payment} (hq : q ∈ i.payments) (hstanding : q.standing = true) (ctx : Ctx) (actor : Id)
    {reason : String} (hreason : 3 ≤ reason.length) :
    ∃ t' response i', (Op.reversePayment q.id reason).handle t ctx actor = .ok (t', response) ∧
      Table.get invoice t'.invoices = some i' ∧
      ∃ step, Returns t.steps i.events stood step ∧ i'.currentStatus = some step.id := by
  obtain ⟨_, hfound, hdues, hstood⟩ := h.found
  obtain rfl : _ = i := Option.some.inj (hfound.symm.trans hget)
  rename_i i
  obtain ⟨mem, hid⟩ := Table.mem_of_get hget
  have hledger := h.ledger i mem
  have hpaid : i.status = .paid :=
    (hledger.settled hdues).mpr (le_antisymm (hledger.bounded hdues) hcovered)
  obtain ⟨p, hp, hcurrent, hispaid⟩ := hledger.stands
  have hstands : i.currentStatus.bind (Table.get · t.steps) = some p := by
    rw [hcurrent]
    exact Table.get_of_mem h.workflow.ids hp
  let reversed : Payment := { q with
    reversedAt := some ctx.now, reversedBy := some actor, reversalReason := reason }
  -- Without the reversed payment the dues are no longer covered.
  have hsum : standingSum (Table.put reversed i.payments) + q.amount = i.currentPaid :=
    standingSum_put hledger.paymentKeys hq rfl (by simpa [Payment.standing] using hstanding)
      (by simp [reversed])
  have hlt : Invoice.currentPaid { i with payments := Table.put reversed i.payments } < i.dues := by
    have hpositive := hledger.amounts q hq
    have hbounded := hledger.bounded hdues
    show standingSum (Table.put reversed i.payments) < i.dues
    linarith
  have hlive : Invoice.status { i with payments := Table.put reversed i.payments } ≠ .void :=
    hledger.live
  have hsource : EventSource.reversal ≠ .manual := by decide
  obtain ⟨i', step, hreconcile, hstep, hreturns⟩ := reconcilePaymentStatus_reopens h.workflow hlive
    hlt hstands (hispaid.mpr hpaid) hsource (some actor)
  have hfind := h.apart.findPayment h.toLedgers mem hq
  have hnotReversed : ¬q.reversedAt.isSome = true := by
    simpa [Payment.standing, Option.isNone_iff_eq_none] using hstanding
  have hreverse : reversePayment t ctx actor q.id reason =
      .ok ((putInvoice t i').bumpRevision, reversed, i') := by
    unfold reversePayment
    rw [raiseIf_of_not (not_lt.mpr hreason), ok_bind, hfind, orRaise_of_some rfl, ok_bind]
    dsimp only
    rw [if_neg hnotReversed, hreconcile]
    rfl
  have hi' : i'.id = i.id := (reconcilePaymentStatus_sameCharge hreconcile).1.id
  refine ⟨_, _, i', by rw [Op.handle, hreverse]; rfl, ?_, step, ?_, hstep⟩
  · show Table.get invoice (Table.put i' t.invoices) = some i'
    have hkey : invoice = key i' := hid.symm.trans hi'.symm
    rw [hkey]
    exact Table.get_put_self (hkey ▸ hget)
  · exact .of_stood h.workflow h.ordinary hstood hpaid hledger hreturns

/-- **Paying and reversing.**  Of an invoice with positive dues that stands in an open step of
any reachable state, when from there on it is neither moved by hand nor has a payment reversed:
it stands in that step while its payments do not reach the dues; and once they do, a reversal
of any of them is accepted and takes it back to that step if it is active, otherwise to the
open step it entered last, and otherwise to the default one. -/
theorem payment_reversal (sha : Sha256) {t₀ t : Tenant} (h₀ : t₀.Initial) (rs : List Request)
    (ht : run (Tenant.handle sha) t₀ rs = t) {i : Invoice} (hi : i ∈ t.invoices)
    (hdues : 0 < i.dues) {s : InvoiceStatusStep} (hs : s ∈ t.steps) (hopen : s.open = true)
    (hstands : i.currentStatus = some s.id) {rs' : List Request}
    (hpays : Along (Tenant.handle sha) (OnlyPays i.id) t rs') :
    ∃ t' i', run (Tenant.handle sha) t rs' = t' ∧ Table.get i.id t'.invoices = some i' ∧
      (i'.currentPaid < i'.dues → i'.currentStatus = some s.id) ∧
      (i'.dues ≤ i'.currentPaid → ∀ q ∈ i'.payments, q.standing = true →
        ∀ ctx actor reason, 3 ≤ reason.length → ∃ t'' response i'',
          (Op.reversePayment q.id reason).handle t' ctx actor = .ok (t'', response) ∧
          Table.get i.id t''.invoices = some i'' ∧
          ∃ step, Returns t'.steps i'.events s.id step ∧ i''.currentStatus = some step.id) := by
  have hhistories : Histories t := ht ▸ (Histories.ofInitial h₀).run rs
  have hapart : PaymentsApart t := ht ▸ .ofRun h₀ rs
  simp only [InvoiceStatusStep.open, Bool.and_eq_true, Bool.not_eq_true'] at hopen
  have hget : Table.get i.id t.invoices = some i := Table.get_of_mem hhistories.keys hi
  have hunpaid : i.status ≠ .paid := by
    intro hpaid
    obtain ⟨p, hp, hcurrent, hispaid⟩ := (hhistories.ledger i hi).stands
    have hsame : p = s := Table.eq_of_key_eq hhistories.workflow.ids hp hs
      (Option.some.inj (hcurrent.symm.trans hstands))
    rw [← hsame, hispaid.mpr hpaid] at hopen
    cases hopen.1.2
  have hpaying : Paying s.id i.id (run (Tenant.handle sha) t rs') := by
    refine Paying.run ⟨hhistories, hapart, ?_, ?_⟩ hpays
    · exact ⟨s, hs, rfl, hopen.1.2, hopen.2⟩
    · exact ⟨i, hget, hdues, .unpaid hunpaid hstands⟩
  obtain ⟨i', hget', hdues', hstood⟩ := hpaying.found
  refine ⟨_, i', rfl, hget', ?_, ?_⟩
  · intro hlt
    cases hstood with
    | unpaid _ current => exact current
    | paid status _ _ _ _ _ =>
        have hledger := hpaying.ledger i' (Table.mem_of_get hget').1
        exact absurd ((hledger.settled hdues').mp status) hlt.ne
  · intro hcovered q hq hstanding ctx actor reason hreason
    exact hpaying.reversal hget' hcovered hq hstanding ctx actor hreason

/-- The sample invoice is paid in two parts. -/
def Sample.parts : List Request := [
  .billing 1 (Sample.ctx 10) (.createPayment 90001
    { amount := some 20000, paidOn := 20458, method := "Transfer", reference := "TRF-1" } "first"),
  .billing 1 (Sample.ctx 11) (.createPayment 90001
    { paidOn := 20459, method := "Transfer", reference := "TRF-2" } "second")]

/-- Reversing the first of the two parts takes the invoice back to the step it stood in. -/
theorem payment_reversal_sample :
    let t := run (Tenant.handle Sample.sha) Sample.tenant Sample.invoiced
    let t' := run (Tenant.handle Sample.sha) t Sample.parts
    ∃ i ∈ t.invoices, ∃ i', Table.get i.id t'.invoices = some i' ∧ i'.status = .paid ∧
      ∃ q ∈ i'.payments, q.standing = true ∧ ∃ t'' response i'',
        (Op.reversePayment q.id "Wrong account").handle t' (Sample.ctx 12) 1 =
          .ok (t'', response) ∧
        Table.get i.id t''.invoices = some i'' ∧ i''.currentStatus = i.currentStatus := by
  intro t t'
  have hinvoice : ∃ i ∈ t.invoices, 0 < i.dues ∧
      ∃ s ∈ t.steps, s.open = true ∧ i.currentStatus = some s.id := by decide +kernel
  obtain ⟨i, hi, hdues, s, hs, hopen, hstands⟩ := hinvoice
  have hpays : Along (Tenant.handle Sample.sha) (OnlyPays i.id) t Sample.parts := by
    have hpayment : ∀ t actor ctx invoice data header,
        OnlyPays i.id t (.billing actor ctx (.createPayment invoice data header)) := by
      rintro t actor ctx invoice data header _ _ _ ⟨⟩
      exact ⟨fun _ _ => Op.noConfusion, fun _ _ _ _ _ => Op.noConfusion⟩
    exact ⟨hpayment _ _ _ _ _ _, hpayment _ _ _ _ _ _, trivial⟩
  obtain ⟨_, i', rfl, hget, -, hreverse⟩ := payment_reversal Sample.sha Sample.initial
    Sample.invoiced rfl hi hdues hs hopen hstands hpays
  have hpaid : ∀ j ∈ t'.invoices, j.status = .paid ∧ j.dues ≤ j.currentPaid ∧
      j.payments.any Payment.standing = true := by decide +kernel
  obtain ⟨hstatus, hcovered, hany⟩ := hpaid i' (Table.mem_of_get hget).1
  obtain ⟨q, hq, hstanding⟩ := List.any_eq_true.mp hany
  obtain ⟨t'', response, i'', hok, hget'', step, hreturns, hcurrent⟩ :=
    hreverse hcovered q hq hstanding (Sample.ctx 12) 1 "Wrong account" (by decide)
  refine ⟨i, hi, i', hget, hstatus, q, hq, hstanding, t'', response, i'', hok, hget'', ?_⟩
  -- No step has been deactivated since.
  have hkept : ∀ s ∈ t.steps, ∃ s' ∈ t'.steps, s'.id = s.id ∧ s'.active = true := by
    decide +kernel
  obtain ⟨s', hs', hid', hactive⟩ := hkept s hs
  cases hreturns with
  | same _ hid _ => rw [hcurrent, hstands, hid]
  | earlier h _ =>
      rw [h s' hs' hid'] at hactive
      cases hactive
  | default h _ _ =>
      rw [h s' hs' hid'] at hactive
      cases hactive

end VesselCaller.Billing
