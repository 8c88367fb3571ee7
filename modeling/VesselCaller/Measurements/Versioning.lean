import VesselCaller.Measurements.Lifecycle

/-!
# Optimistic versioning

Every staff mutation of a plan carries the version its client saw, and `changed`
advances the version of the plan it wrote.  With the requests of one organization
served one after another, this makes the history of a plan linear: `mutations`
counts the accepted requests that changed the plan, the version is always one more
than that count, and a mutation that is accepted carried exactly that number.

Two operations return early, before they look at the version: finalizing what is
already final and issuing what is already invoiced.  `Op.Replays` names them; they
change nothing.

## Main definitions

* `mutates`, `mutations` — the accepted requests that change a plan, counted;
* `Op.carried`, `Op.Replays` — the version a request carries, and when it may repeat itself;
* `WrittenAt`, `Counted` — a mutation at the version it carried, and the version as their
  count.
-/

namespace VesselCaller.Measurements

open Lib Accounts Billing Operations

/-- The plan and the version a versioned staff mutation carries. -/
def Op.carried : Op → Option (Id × ℕ)
  | .patchPlan plan data => some (plan, data.version)
  | .submit plan data => some (plan, data.version)
  | .propose plan data => some (plan, data.version)
  | .approve plan _ data => some (plan, data.version)
  | .finalize plan _ version => some (plan, version)
  | .assess plan data => some (plan, data.version)
  | .issue plan _ version => some (plan, version)
  | _ => none

/-- The operation asks for what has already happened. -/
def Op.Replays (t : Tenant) : Op → Prop
  | .finalize plan reconciliation _ => ∃ p ∈ t.plans, p.id = plan ∧
      ∃ r ∈ p.reconciliations, r.id = reconciliation ∧ r.finalizedAt ≠ none
  | .issue _ assessment _ => ∃ i ∈ t.invoices, i.assessmentId = some assessment
  | _ => False

/-- The request is a lifecycle operation that is accepted and changes the plan or one
of its children. -/
def mutates (sha : Sha256) (plan : Id) (t : Tenant) (r : Request) : Bool :=
  r.isLifecycle &&
    Table.get plan (serve (Tenant.handle sha) t r).plans ≠ Table.get plan t.plans

/-- How many requests of the run changed the plan. -/
def mutations (sha : Sha256) (t : Tenant) (rs : List Request) (plan : Id) : ℕ :=
  countAlong (Tenant.handle sha) (mutates sha plan) t rs

variable {sha : Sha256} {t t' : Tenant} {ctx : Ctx} {actor : Id} {p p' : MeasurementPlan}

/-! ## One request -/

/-- A plan mutation was written at the version it carried. -/
def WrittenAt (t t' : Tenant) (plan : Id) (version : ℕ) : Prop :=
  ∃ p p' : MeasurementPlan, Table.get plan t.plans = some p ∧ p.version = version ∧
    p'.id = p.id ∧ p'.version = p.version ∧ t'.plans = Table.put p'.advance t.plans

theorem WrittenAt.ofChanged {plan : Id} {version : ℕ} (hp : getPlan t plan = .ok p)
    (hversion : p.version = version) (hm : Mutation sha t p p') (ht : t.changed p' = t') :
    WrittenAt t t' plan version := by
  obtain ⟨hid, hkept⟩ := mutation_id hm
  exact ⟨p, p', orRaise_eq_ok.mp hp, hversion, hid, hkept, ht ▸ rfl⟩

/-- After a write the plan stands one version higher. -/
theorem WrittenAt.version {plan : Id} {version : ℕ} (h : WrittenAt t t' plan version) :
    ∃ p, Table.get plan t'.plans = some p ∧ p.version = version + 1 := by
  obtain ⟨p, p', hget, rfl, hid, hkept, hplans⟩ := h
  have hkey : key p'.advance = plan := hid.trans (Table.mem_of_get hget).2
  refine ⟨p'.advance, ?_, congrArg (· + 1) hkept⟩
  rw [hplans, ← hkey]
  exact Table.get_put_self (hkey ▸ hget)

/-- **An accepted versioned mutation** replays what has already happened and changes
nothing, or carried the version of the plan it wrote. -/
theorem Op.handle_versioned {op : Op} {response : Response} {plan : Id} {version : ℕ}
    (hcarried : op.carried = some (plan, version))
    (h : op.handle sha t ctx actor = .ok (t', response)) :
    (t' = t ∧ op.Replays t) ∨ WrittenAt t t' plan version := by
  -- Each service compares the version and then writes the plan once; two of them may replay.
  cases op with
  | patchPlan planId data =>
      obtain ⟨rfl, rfl⟩ : planId = plan ∧ data.version = version := by simpa [carried] using hcarried
      simp only [Op.handle, bind_eq_ok, pure_eq_ok, changedResponse, Prod.mk.injEq] at h
      obtain ⟨_, hvalid, p, hp, p', hp', ht, _⟩ := h
      obtain ⟨hversion, hlive, hpatched⟩ := patchPlan_eq_ok hvalid hp'
      exact .inr (.ofChanged hp hversion (.patched hlive hpatched : Mutation sha _ _ _) ht)
  | submit planId data =>
      obtain ⟨rfl, rfl⟩ : planId = plan ∧ data.version = version := by simpa [carried] using hcarried
      simp only [Op.handle, bind_eq_ok, pure_eq_ok, changedResponse, Prod.mk.injEq] at h
      obtain ⟨_, hvalid, p, hp, p', hp', ht, _⟩ := h
      obtain ⟨hversion, s, hs⟩ := createSubmission_eq_ok hp' (SubmissionInput.lines_of_valid hvalid)
      exact .inr (.ofChanged hp hversion (.submitted s hs : Mutation sha _ _ _) ht)
  | propose planId data =>
      obtain ⟨rfl, rfl⟩ : planId = plan ∧ data.version = version := by simpa [carried] using hcarried
      simp only [Op.handle, bind_eq_ok, pure_eq_ok, changedResponse, Prod.mk.injEq] at h
      obtain ⟨_, hvalid, p, hp, p', hp', ht, _⟩ := h
      obtain ⟨hversion, r, hr⟩ := createReconciliation_eq_ok hvalid hp'
      exact .inr (.ofChanged hp hversion (.proposed actor r hr) ht)
  | approve planId rid data =>
      obtain ⟨rfl, rfl⟩ : planId = plan ∧ data.version = version := by simpa [carried] using hcarried
      simp only [Op.handle, bind_eq_ok, pure_eq_ok, changedResponse, Prod.mk.injEq] at h
      obtain ⟨_, _, p, hp, r, hr, p', hp', ht, _⟩ := h
      obtain ⟨hversion, a, ha⟩ := createApproval_eq_ok hp'
      exact .inr (.ofChanged hp hversion (.approved r a (getReconciliation_eq_ok hr).1 ha) ht)
  | finalize planId rid v =>
      obtain ⟨rfl, rfl⟩ : planId = plan ∧ v = version := by simpa [carried] using hcarried
      simp only [Op.handle, bind_eq_ok, pure_eq_ok, Prod.mk.injEq] at h
      obtain ⟨_, _, p, hp, r, hr, t₁, ht₁, _, _, rfl, _⟩ := h
      obtain ⟨hmem, hid⟩ := getReconciliation_eq_ok hr
      -- Final already: nothing is written, and the version is not compared.
      obtain ⟨hfinal, ht⟩ | ⟨hversion, p', r', hr', ht⟩ := finalizeReconciliation_cases ht₁
      · obtain ⟨hp, hpid⟩ := getPlan_eq_ok hp
        exact .inl ⟨ht, p, hp, hpid, r, hmem, hid, hfinal⟩
      · exact .inr (.ofChanged hp hversion (.finalized ctx actor r r' hmem hr') ht.symm)
  | assess planId data =>
      obtain ⟨rfl, rfl⟩ : planId = plan ∧ data.version = version := by simpa [carried] using hcarried
      simp only [Op.handle, bind_eq_ok, pure_eq_ok, changedResponse, Prod.mk.injEq] at h
      obtain ⟨_, hvalid, p, hp, p', hp', ht, _⟩ := h
      obtain ⟨hversion, a, ha⟩ := createAssessment_eq_ok hvalid hp'
      exact .inr (.ofChanged hp hversion (.assessed a ha : Mutation sha _ _ _) ht)
  | issue planId aid v =>
      obtain ⟨rfl, rfl⟩ : planId = plan ∧ v = version := by simpa [carried] using hcarried
      simp only [Op.handle, bind_eq_ok, pure_eq_ok, Prod.exists, Prod.mk.injEq] at h
      obtain ⟨_, _, p, hp, t₁, i, hi, _, _, rfl, _⟩ := h
      obtain ⟨a, _, rfl, ⟨hinvoice, ht⟩ | ⟨hversion, p', hissued⟩⟩ := issueAssessment_cases hi
      · exact .inl ⟨ht, i, invoiceOf_eq_some hinvoice⟩
      · obtain ⟨hpid, hkept⟩ := mutation_id (.issued t₁ a i hissued : Mutation sha _ _ _)
        exact .inr ⟨p, p', orRaise_eq_ok.mp hp, hversion, hpid, hkept, hissued.plans⟩
  | createPlan data => simp [carried] at hcarried
  | createLink plan participant days token => simp [carried] at hcarried
  | revokeLink plan link => simp [carried] at hcarried
  | addEvidence plan data => simp [carried] at hcarried
  | createAgency data => simp [carried] at hcarried
  | patchAgency agency v data => simp [carried] at hcarried

/-! ## Runs -/

/-- What the version of a plan says about the requests before it: nothing happened to
a plan that does not exist, and a plan was changed once for each version after the
first. -/
def Counted (sha : Sha256) (t₀ : Tenant) (rs : List Request) (plan : Id) : Prop :=
  match Table.get plan (run (Tenant.handle sha) t₀ rs).plans with
  | none => mutations sha t₀ rs plan = 0
  | some p => p.version = 1 + mutations sha t₀ rs plan

theorem mutations_concat (sha : Sha256) (t₀ : Tenant) (rs : List Request) (r : Request)
    (plan : Id) : mutations sha t₀ (rs ++ [r]) plan = mutations sha t₀ rs plan +
      (mutates sha plan (run (Tenant.handle sha) t₀ rs) r).toNat :=
  countAlong_concat _ _ _ _

/-- A request that leaves the plan alone is not counted. -/
theorem mutates_eq_false {plan : Id} {r : Request}
    (h : Table.get plan (serve (Tenant.handle sha) t r).plans = Table.get plan t.plans) :
    mutates sha plan t r = false := by
  simp [mutates, h]

/-- The step: whatever a request did to the plan, the count follows its version. -/
theorem Counted.step {t₀ : Tenant} {rs : List Request} {plan : Id} (r : Request)
    (hkeys : (Table.keys (run (Tenant.handle sha) t₀ rs).plans).Nodup)
    (h : Counted sha t₀ rs plan) : Counted sha t₀ (rs ++ [r]) plan := by
  unfold Counted at h ⊢
  rw [run_concat, mutations_concat]
  generalize ht : run (Tenant.handle sha) t₀ rs = t at h hkeys ⊢
  -- A refused request is rolled back and counts for nothing.
  obtain hsame | ⟨t', a, hok, hserve⟩ := serve_cases (Tenant.handle sha) t r
  · rw [mutates_eq_false (congrArg _ (congrArg Tenant.plans hsame)), hsame]
    exact h
  · cases hget : Table.get plan t.plans with
    | none =>
        rw [hget] at h
        obtain hnone | ⟨p, hp, hnew, hother⟩ := (handle_effect hok).absent hget
        · rw [mutates_eq_false (by rw [hserve, hnone, hget]), hserve, hnone]
          exact h
        -- The plan was created by this request, with version 1.
        · have hcount : mutates sha plan t r = false := by
            simp [mutates, Request.isLifecycle, hother, RequestKind.isLifecycle]
          have h₀ : mutations sha t₀ rs plan = 0 := h
          rw [hcount, hserve, hp]
          simp [h₀, hnew.version]
    | some p =>
        rw [hget] at h
        have hversion : p.version = 1 + mutations sha t₀ rs plan := h
        obtain ⟨p', hget', hstep⟩ := (handle_effect hok).plan hkeys hget
        cases hstep with
        | stayed heq =>
            rw [mutates_eq_false (by rw [hserve, hget', hget, heq]), hserve, hget', heq]
            exact h
        | mutated q hm own hadvanced =>
            have hnext : p'.version = p.version + 1 := by
              rw [hadvanced]
              exact congrArg (· + 1) (mutation_id hm).2
            have hcount : mutates sha plan t r = true := by
              simp only [mutates, Request.isLifecycle, own, hserve, hget', hget, Bool.true_and, ne_eq,
                decide_eq_true_eq, Option.some.injEq]
              rintro rfl
              omega
            rw [hcount, hserve, hget']
            simp only [Bool.toNat_true]
            omega
        | kept hu other =>
            have hcount : mutates sha plan t r = false := by simp [mutates, Request.isLifecycle, other]
            rw [hcount, hserve, hget']
            simp only [Bool.toNat_false, Nat.add_zero]
            exact (upkeep_id hu).2.trans hversion

theorem counted_of_initial {t₀ : Tenant} (h₀ : t₀.Initial) (rs : List Request) (plan : Id) :
    Counted sha t₀ rs plan := by
  induction rs using List.reverseRecOn with
  | nil => simp [Counted, h₀.plans, Table.get, mutations, countAlong]
  | append_singleton rs r ih => exact ih.step r ((PlansInOrder.ofInitial h₀).run rs).keys

/-- **Optimistic versioning loses no update.**  After every run: the version of a plan
is one more than the number of requests that changed it; a versioned staff mutation
that is accepted next carries exactly that version and adds one change, unless it
replays what has already happened; a request that is refused next changes nothing;
and finalizing a finalized reconciliation, or issuing an invoiced assessment, at any
version answers with what is there and changes nothing. -/
theorem optimistic_versioning (sha : Sha256) {t₀ t : Tenant} (h₀ : t₀.Initial)
    (rs : List Request) (ht : run (Tenant.handle sha) t₀ rs = t) :
    (∀ p ∈ t.plans, p.version = 1 + mutations sha t₀ rs p.id) ∧
    (∀ actor ctx op plan version t' a, Op.carried op = some (plan, version) →
      t.handle sha (.measurements actor ctx op) = .ok (t', a) →
        (t' = t ∧ op.Replays t) ∨
        (version = 1 + mutations sha t₀ rs plan ∧
          mutations sha t₀ (rs ++ [.measurements actor ctx op]) plan = version ∧
          ∃ p, Table.get plan t'.plans = some p ∧ p.version = version + 1)) ∧
    (∀ r e, t.handle sha r = .error e → run (Tenant.handle sha) t₀ (rs ++ [r]) = t) ∧
    (∀ p ∈ t.plans, ∀ r ∈ p.reconciliations, r.finalizedAt ≠ none →
      ∀ actor ctx user version, t.authorize ctx actor .measurementsApprove = .ok user →
        1 ≤ version → t.handle sha (.measurements actor ctx (.finalize p.id r.id version)) =
          .ok (t, .measurements (.plan (t.planData p) t.revision))) ∧
    (∀ p ∈ t.plans, ∀ id a, Table.get id p.assessments = some a →
      ∀ invoice, invoiceOf t.invoices id = some invoice →
      ∀ actor ctx user version, t.authorize ctx actor .measurementsBill = .ok user →
        1 ≤ version → t.handle sha (.measurements actor ctx (.issue p.id id version)) =
          .ok (t, .measurements
            (.planInvoice (t.planData p) (t.invoiceData invoice) t.revision))) := by
  have horder : PlansInOrder t := ht ▸ (PlansInOrder.ofInitial h₀).run rs
  -- The version of a plan is one more than the requests that have changed it.
  have hcounted : ∀ plan p, Table.get plan t.plans = some p →
      p.version = 1 + mutations sha t₀ rs plan := by
    intro plan p hp
    have h : Counted sha t₀ rs plan := counted_of_initial h₀ rs plan
    simp only [Counted, ht, hp] at h
    exact h
  refine ⟨?_, ?_, ?_, ?_, ?_⟩
  · intro p hp
    exact hcounted p.id p (Table.get_of_mem horder.keys hp)
  · intro actor ctx op plan version t' a hcarried hok
    have hop := hok
    simp only [Tenant.handle, bind_eq_ok, pure_eq_ok, Prod.exists, Prod.mk.injEq] at hop
    obtain ⟨_, _, t₁, _, hop, rfl, _⟩ := hop
    obtain hreplay | hwritten := Op.handle_versioned hcarried hop
    · exact .inl hreplay
    · refine .inr ?_
      obtain ⟨p, hp, hnext⟩ := hwritten.version
      obtain ⟨q, _, hq, hversion, _⟩ := hwritten
      have hbefore := hcounted plan q hq
      -- The count after the request is that of the run which ends with it.
      have hafter : Counted sha t₀ (rs ++ [.measurements actor ctx op]) plan :=
        counted_of_initial h₀ _ plan
      simp only [Counted, run_concat, ht, serve_of_ok _ hok, hp] at hafter
      exact ⟨by omega, by omega, p, hp, hnext⟩
  · intro r e herror
    rw [run_concat, ht, serve_of_error _ herror]
  · intro p hp r hr hfinal actor ctx user version hauthorized hversion
    have hplan : getPlan t p.id = .ok p := orRaise_eq_ok.mpr (Table.get_of_mem horder.keys hp)
    have hreconciliation : getReconciliation p r.id = .ok r :=
      orRaise_eq_ok.mpr (Table.get_of_mem (horder.lifecycle p hp).keys hr)
    simp [Tenant.handle, hauthorized, Op.permission, Op.handle, versionField, field, hversion,
      hplan, hreconciliation, finalizeReconciliation, Option.isSome_iff_ne_none.mpr hfinal,
      raiseIf, bind, Except.bind, pure, Except.pure]
  · intro p hp id a ha invoice hinvoice actor ctx user version hauthorized hversion
    have hplan : getPlan t p.id = .ok p := orRaise_eq_ok.mpr (Table.get_of_mem horder.keys hp)
    have hkey : a.id = id := (Table.mem_of_get ha).2
    simp [Tenant.handle, hauthorized, Op.permission, Op.handle, versionField, field, hversion,
      hplan, issueAssessment, ha, hkey, hinvoice, orRaise, raiseIf, bind, Except.bind, pure,
      Except.pure]

/-- Six requests changed the invoiced plan, and finalizing it again at its first
version answers with the plan as it stands. -/
theorem optimistic_versioning_invoiced :
    ∃ t, run (Tenant.handle Sample.sha) Sample.tenant Sample.invoiced = t ∧
      ∃ p ∈ t.plans, p.version = 1 + mutations Sample.sha Sample.tenant Sample.invoiced p.id ∧
        p.version = 7 ∧ ∃ r ∈ p.reconciliations,
          t.handle Sample.sha (.measurements 2 (Sample.ctx 10) (.finalize p.id r.id 1)) =
            .ok (t, .measurements (.plan (t.planData p) t.revision)) := by
  have hplan : ∃ p ∈ (run (Tenant.handle Sample.sha) Sample.tenant Sample.invoiced).plans,
      p.version = 7 ∧ ∃ r ∈ p.reconciliations, r.finalizedAt ≠ none := by decide +kernel
  have huser : ∃ user ∈ (run (Tenant.handle Sample.sha) Sample.tenant Sample.invoiced).users,
      (run (Tenant.handle Sample.sha) Sample.tenant Sample.invoiced).authorize (Sample.ctx 10) 2
        .measurementsApprove = .ok user := by decide +kernel
  obtain ⟨p, hp, hseven, r, hr, hfinal⟩ := hplan
  obtain ⟨user, _, huser⟩ := huser
  obtain ⟨hversion, _, _, hfinalize, _⟩ :=
    optimistic_versioning Sample.sha Sample.initial Sample.invoiced rfl
  exact ⟨_, rfl, p, hp, hversion p hp, hseven, r, hr,
    hfinalize p hp r hr hfinal 2 (Sample.ctx 10) user 1 huser le_rfl⟩

end VesselCaller.Measurements
