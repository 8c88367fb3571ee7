import VesselCaller.Billing.Configuration

/-!
# The order of the steps

Two things the position column is trusted with.  `paid` is meant to stand behind every
other active step; a reorder checks that, but a new step is put behind the highest
position and a step can be activated wherever it stands, so `PaidLast` is kept exactly
by the requests that do neither.  And a reorder is meant to go through once its list
is accepted; but it moves the rows one by one under a unique constraint, and goes
through in every order the database may visit them exactly when the table is
`Renumberable`.

## Main definitions

* `PaidLast` — `paid` stands behind every other active step;
* `Configure.KeepsPaidLast`, `Start.Clear` — the requests and starts that keep it so;
* `Renumberable` — the tables on which every accepted order goes through.
-/

namespace VesselCaller.Billing

open Lib Accounts

variable {ctx : Ctx} {steps steps' existing : List InvoiceStatusStep} {t t' : Tenant}
  {ids : List Id}

/-! ## Paid is last -/

/-- One step is paid, it is active, and every other active step stands before it. -/
structure PaidLast (steps : List InvoiceStatusStep) : Prop where
  one : (steps.filter InvoiceStatusStep.isPaid).length = 1
  active : ∀ p ∈ steps, p.isPaid = true → p.active = true
  last : ∀ p ∈ steps, p.isPaid = true → ∀ s ∈ steps, s.active = true → s.id ≠ p.id →
    s.position < p.position

instance (steps : List InvoiceStatusStep) : Decidable (PaidLast steps) :=
  decidable_of_iff ((steps.filter InvoiceStatusStep.isPaid).length = 1 ∧
      (∀ p ∈ steps, p.isPaid = true → p.active = true) ∧
      ∀ p ∈ steps, p.isPaid = true → ∀ s ∈ steps, s.active = true → s.id ≠ p.id →
        s.position < p.position)
    ⟨fun ⟨h₁, h₂, h₃⟩ => ⟨h₁, h₂, h₃⟩, fun h => ⟨h.one, h.active, h.last⟩⟩

/-- The workflow, with an active paid step: what every request keeps. -/
structure Terminated (steps : List InvoiceStatusStep) : Prop where
  workflow : Workflow steps
  active : ∀ p ∈ steps, p.isPaid = true → p.active = true

theorem Terminated.paidLast_iff (h : Terminated steps) : PaidLast steps ↔
    ∀ p ∈ steps, p.isPaid = true → ∀ s ∈ steps, s.active = true → s.id ≠ p.id →
      s.position < p.position := by
  constructor
  · exact PaidLast.last
  · intro hlast
    obtain ⟨paid, hpaid⟩ := h.workflow.filter_isPaid
    exact ⟨by rw [hpaid]; rfl, h.active, hlast⟩

/-- What a request must not do: create an active step, or activate one behind `paid`. -/
def Configure.KeepsPaidLast (t : Tenant) : Configure → Prop
  | .create data => data.active = false
  | .patch stepId data => data.active = some true →
      ∀ s ∈ t.steps, s.id = stepId → s.active = false →
        ∀ p ∈ t.steps, p.isPaid = true → s.position < p.position
  | _ => True

/-- A start without active steps behind `paid`. -/
def Start.Clear : Start → Prop
  | .registered => True
  | .migrated existing => ∀ s ∈ existing, s.active = true → s.code ∈ seededCodes

/-! ### The starts -/

theorem registered_paidLast (h : ensureDefaultSteps ctx [] = .ok steps) :
    Terminated steps ∧ PaidLast steps := by
  have hw := Workflow.ofProvisioned h
  obtain rfl := ensureDefaultSteps_nil h
  have hterminated : Terminated (defaultWorkflowSteps.zipIdx.map fun d =>
      defaultStep (ctx.uuid (1000 + d.2)) d.1) :=
    ⟨hw, by simp [defaultWorkflowSteps, defaultStep]⟩
  exact ⟨hterminated, hterminated.paidLast_iff.mpr (by simp [defaultWorkflowSteps, defaultStep])⟩

theorem migrated_paidLast (hl : Legacy existing) (h : migrate ctx existing = .ok steps) :
    Terminated steps ∧
      (PaidLast steps ↔ ∀ s ∈ existing, s.active = true → s.code ∈ seededCodes) := by
  have hw := Legacy.workflow hl h
  obtain ⟨ht, _, hrows, hkept⟩ := migrate_eq_ok hl h
  have hpaid : ∀ p ∈ steps, p.isPaid = true → p.active = true ∧ p.position = 60 := by
    intro p hp hpaid
    cases hrows p hp with
    | kept s₀ mem same _ hactive hposition =>
        rw [same.isPaid] at hpaid
        have hplace := InvoiceStatusStep.migrated_of_paid ((hl.paidCode s₀ mem).mp hpaid)
        exact ⟨hactive.trans hplace.1, hposition.trans hplace.2⟩
    | created e mem code isPaid _ _ => simp [isPaid] at hpaid
  have hterminated : Terminated steps := ⟨hw, fun p hp hp' => (hpaid p hp hp').1⟩
  refine ⟨hterminated, hterminated.paidLast_iff.trans ⟨?_, ?_⟩⟩
  · intro hlast s₀ mem hactive
    by_contra hadded
    obtain ⟨s, hs, same, _, hs_active, hs_position⟩ := hkept s₀ mem
    have hplace := InvoiceStatusStep.migrated_of_added hadded
    obtain ⟨p, hp, hp'⟩ := hw.exists_paid
    have hunpaid : s.isPaid ≠ true := by
      rw [same.isPaid, ne_eq, hl.paidCode s₀ mem]
      exact fun hcode => hadded (by rw [hcode]; decide)
    -- An added step that is active went behind `paid`, which stands at 60.
    have hne : s.id ≠ p.id := fun hid =>
      hunpaid (Table.eq_of_key_eq hw.ids hs hp hid ▸ hp')
    have hlt := hlast p hp hp' s hs (by rw [hs_active, hplace.1, hactive]) hne
    rw [hs_position, hplace.2, (hpaid p hp hp').2] at hlt
    omega
  · intro hclear p hp hp' s hs hactive hne
    rw [(hpaid p hp hp').2]
    -- Conversely an active step was created, or is `approved` or `paid` itself.
    cases hrows s hs with
    | created e mem code isPaid _ hposition =>
        rw [hposition]
        exact (newSteps_places e mem).2
    | kept s₀ mem same _ hs_active hs_position =>
        rw [hs_active] at hactive
        have hcode : s₀.code ∈ seededCodes := by
          by_contra hadded
          rw [(InvoiceStatusStep.migrated_of_added hadded).1] at hactive
          exact hadded (hclear s₀ mem hactive)
        by_cases hlegacy : s₀.code ∈ legacyCodes
        · simp [InvoiceStatusStep.migrated_of_legacy hlegacy] at hactive
        · have hrest : s₀.code = "approved" ∨ s₀.code = "paid" := by
            simp only [seededCodes, legacyCodes, List.mem_cons, List.not_mem_nil, or_false,
              not_or] at hcode hlegacy
            tauto
          obtain happroved | hpaidCode := hrest
          · rw [hs_position, (InvoiceStatusStep.migrated_of_approved happroved).2]
            decide
          · have hs_paid : s.isPaid = true := by
              rw [same.isPaid]
              exact (hl.paidCode s₀ mem).mpr hpaidCode
            exact absurd (congrArg _ (hw.paid_unique hs hp hs_paid hp')) hne

theorem Start.terminated {start : Start} (hseeded : start.Seeded)
    (h : start.install ctx = .ok steps) :
    Terminated steps ∧ (PaidLast steps ↔ start.Clear) := by
  cases start with
  | registered =>
      obtain ⟨hterminated, hlast⟩ := registered_paidLast h
      exact ⟨hterminated, iff_of_true hlast trivial⟩
  | migrated existing => exact migrated_paidLast hseeded h

/-! ### The requests -/

/-- A step appended behind the others. -/
theorem paidLast_concat (h : Terminated steps) {step : InvoiceStatusStep}
    (hcreate : createStep steps step = .ok steps') (hunpaid : step.isPaid = false)
    (hcode : step.code ≠ "paid") (hbehind : ∀ s ∈ steps, s.position < step.position) :
    Terminated steps' ∧ (PaidLast steps → (PaidLast steps' ↔ step.active = false)) := by
  have hw := h.workflow.concat hcreate hunpaid hcode
  obtain ⟨hid, _, _, rfl⟩ := createStep_eq_ok hcreate
  have hpaid : ∀ p ∈ steps ++ [step], p.isPaid = true → p ∈ steps := by
    intro p hp hp'
    obtain hp | hp := List.mem_append.mp hp
    · exact hp
    · rw [List.mem_singleton.mp hp, hunpaid] at hp'
      cases hp'
  have hterminated : Terminated (steps ++ [step]) :=
    ⟨hw, fun p hp hp' => h.active p (hpaid p hp hp') hp'⟩
  refine ⟨hterminated, fun hlast => hterminated.paidLast_iff.trans ⟨?_, ?_⟩⟩
  · intro hafter
    obtain ⟨p, hp, hp'⟩ := h.workflow.exists_paid
    by_contra hactive
    have hne : step.id ≠ p.id := fun hk => hid (Table.mem_keys.mpr ⟨p, hp, hk.symm⟩)
    have hlt := hafter p (List.mem_append_left _ hp) hp' step (by simp) (by simpa using hactive) hne
    exact absurd hlt (not_lt.mpr (hbehind p hp).le)
  · intro hinactive p hp hp' s hs hactive hne
    obtain hs | hs := List.mem_append.mp hs
    · exact hlast.last p (hpaid p hp hp') hp' s hs hactive hne
    · rw [List.mem_singleton.mp hs, hinactive] at hactive
      cases hactive

theorem le_max?_getD {ns : List ℕ} {n : ℕ} (h : n ∈ ns) : n ≤ ns.max?.getD 0 := by
  cases hmax : ns.max? with
  | none =>
      rw [List.max?_eq_none_iff.mp hmax] at h
      cases h
  | some m => exact (List.max?_eq_some_iff.mp hmax).2 n h

theorem createStepView_paidLast {data : StepInput} {step : InvoiceStatusStep}
    (h : Terminated t.steps) (hok : createStepView t ctx data = .ok (t', step)) :
    Terminated t'.steps ∧ (PaidLast t.steps → (PaidLast t'.steps ↔ data.active = false)) := by
  simp only [createStepView, bind_eq_ok, pure_eq_ok, raiseIf_eq_ok, h.workflow.ensureDefaultSteps,
    Except.ok.injEq, exists_eq_left', not_or, Prod.mk.injEq] at hok
  obtain ⟨_, _, roles, _, _, ⟨_, hcode, _⟩, _, _, _, _, steps, hcreate, rfl, rfl⟩ := hok
  refine paidLast_concat h hcreate rfl hcode fun s hs => ?_
  have hle : s.position ≤ _ := le_max?_getD (List.mem_map_of_mem (f := InvoiceStatusStep.position) hs)
  exact lt_of_le_of_lt hle (Nat.lt_add_of_pos_right (by decide))

theorem patchStep_paidLast {stepId : Id} {data : StepPatch} {step : InvoiceStatusStep}
    (h : Terminated t.steps) (hok : patchStep t stepId data = .ok (t', step)) :
    Terminated t'.steps ∧ (PaidLast t.steps →
      (PaidLast t'.steps ↔ Configure.KeepsPaidLast t (.patch stepId data))) := by
  have hw : Workflow t'.steps := (patchStep_eq_ok h.workflow hok).2.workflow h.workflow
  simp only [patchStep, bind_eq_ok, orRaise_eq_ok, raiseIf_eq_ok] at hok
  obtain ⟨s, hs, _, _, roles, _, _, hprotected, _, _, hok⟩ := hok
  obtain ⟨mem, hid⟩ := Table.mem_of_get hs
  have hrow : ∀ s' ∈ t.steps, s'.id = stepId → s' = s := fun s' hs' hk =>
    Table.eq_of_key_eq h.workflow.ids hs' mem (hk.trans hid.symm)
  -- a patch of the paid step has no active flag
  have hpaidRow : s.isPaid = true → data.active = none := by
    intro hpaid
    by_contra hsome
    exact hprotected ⟨h.workflow.paidProtected s mem hpaid, .inr (Option.isSome_iff_ne_none.mpr hsome)⟩
  split at hok
  · rename_i hsame
    simp only [pure_eq_ok, Prod.mk.injEq] at hok
    obtain ⟨rfl, _⟩ := hok
    refine ⟨h, fun hlast => iff_of_true hlast ?_⟩
    intro hactivate s' hs' hk hinactive
    obtain rfl := hrow s' hs' hk
    have hactive : (s'.patched data roles).active = true := by
      simp [InvoiceStatusStep.patched, hactivate]
    rw [hsame, hinactive] at hactive
    cases hactive
  · simp only [pure_eq_ok, Prod.mk.injEq] at hok
    obtain ⟨rfl, _⟩ := hok
    have hkey : key s = key (s.patched data roles) := rfl
    have hpatched : s.patched data roles ∈ Table.put (s.patched data roles) t.steps :=
      Table.mem_put_self mem hkey
    -- every row stands where it stood
    have hplace : ∀ p ∈ Table.put (s.patched data roles) t.steps, p.isPaid = true →
        ∃ p₀ ∈ t.steps, p₀.isPaid = true ∧ p₀.id = p.id ∧ p₀.position = p.position ∧
          p₀.active = p.active := by
      intro p hp hp'
      obtain rfl | ⟨hp, _⟩ := Table.mem_put hp
      · exact ⟨s, mem, hp', rfl, rfl, by simp [InvoiceStatusStep.patched, hpaidRow hp']⟩
      · exact ⟨p, hp, hp', rfl, rfl, rfl⟩
    have hterminated : Terminated (Table.put (s.patched data roles) t.steps) := by
      refine ⟨hw, fun p hp hp' => ?_⟩
      obtain ⟨p₀, hp₀, hpaid₀, _, _, hactive⟩ := hplace p hp hp'
      exact hactive ▸ h.active p₀ hp₀ hpaid₀
    refine ⟨hterminated, fun hlast => hterminated.paidLast_iff.trans ⟨?_, ?_⟩⟩
    · intro hafter hactivate s' hs' hk hinactive p hp hp'
      obtain rfl := hrow s' hs' hk
      have hne : s'.id ≠ p.id := by
        intro heq
        have hactive := h.active p hp hp'
        rw [← Table.eq_of_key_eq h.workflow.ids hs' hp heq, hinactive] at hactive
        cases hactive
      refine hafter p (Table.mem_put_of_ne hp fun heq => hne heq.symm) hp'
        (s'.patched data roles) hpatched ?_ hne
      simp [InvoiceStatusStep.patched, hactivate]
    · intro hkeeps p hp hp' s' hs' hactive hne
      obtain ⟨p₀, hp₀, hpaid₀, hid₀, hposition₀, _⟩ := hplace p hp hp'
      rw [← hid₀] at hne
      rw [← hposition₀]
      obtain rfl | ⟨hs', _⟩ := Table.mem_put hs'
      · show s.position < p₀.position
        cases hbefore : s.active with
        | true => exact hlast.last p₀ hp₀ hpaid₀ s mem hbefore hne
        | false =>
            refine hkeeps ?_ s mem hid hbefore p₀ hp₀ hpaid₀
            cases hdata : data.active with
            | none => simp [InvoiceStatusStep.patched, hdata, hbefore] at hactive
            | some b =>
                simp only [InvoiceStatusStep.patched, hdata, Option.getD_some] at hactive
                rw [hactive]
      · exact hlast.last p₀ hp₀ hpaid₀ s' hs' hactive hne

/-! ### Reorders -/

/-- The rows in the requested order. -/
theorem map_id_filterMap_get : ∀ {ids : List Id}, (∀ id ∈ ids, id ∈ Table.keys steps) →
    (ids.filterMap (Table.get · steps)).map InvoiceStatusStep.id = ids := by
  intro ids
  induction ids with
  | nil => exact fun _ => rfl
  | cons id ids ih =>
      intro hall
      obtain ⟨hid, hrest⟩ := List.forall_mem_cons.mp hall
      cases hget : Table.get id steps with
      | none => exact absurd hid (Table.get_eq_none_iff.mp hget)
      | some s' =>
          simp only [List.filterMap_cons, hget, List.map_cons, ih hrest]
          exact congrArg (· :: ids) (Table.mem_of_get hget).2

/-- **An accepted list puts `paid` behind the other active steps.** -/
theorem idxOf_lt_of_checkReorder {r : Unit} (hw : Workflow steps)
    (h : checkReorder steps ids = .ok r) {p s : InvoiceStatusStep} (hp : p ∈ steps)
    (hp' : p.isPaid = true) (hs : s ∈ steps) (hactive : s.active = true) (hne : s.id ≠ p.id) :
    ids.idxOf s.id < ids.idxOf p.id := by
  obtain ⟨hnd, hsub, hall⟩ := checkReorder_eq_ok h
  simp only [checkReorder, bind_eq_ok, raiseIf_eq_ok, not_or] at h
  obtain ⟨_, _, _, _, hlast, _⟩ := h
  let ordered := ids.filterMap (Table.get · steps)
  have hids : ordered.map InvoiceStatusStep.id = ids := map_id_filterMap_get hsub
  have hmem : ∀ s' ∈ steps, s' ∈ ordered := fun s' hs' =>
    List.mem_filterMap.mpr ⟨s'.id, hall s'.id (Table.mem_keys.mpr ⟨s', hs', rfl⟩),
      Table.get_of_mem hw.ids hs'⟩
  -- the last active row is the paid one
  obtain ⟨l, hl, hlpaid⟩ : ∃ l, (ordered.filter InvoiceStatusStep.active).getLast? = some l ∧
      l.isPaid = true := by
    cases hl : (ordered.filter InvoiceStatusStep.active).getLast? with
    | none => exact absurd (by rw [hl]; rfl) hlast
    | some l => exact ⟨l, rfl, by simpa [ordered, hl] using hlast⟩
  obtain ⟨init, hinit⟩ := List.getLast?_eq_some_iff.mp hl
  obtain ⟨before, rest, hsplit, hbefore, hrest⟩ := List.filter_eq_append_iff.mp hinit
  obtain ⟨gap, after, rfl, hgap, _, hafter⟩ := List.filter_eq_cons_iff.mp hrest
  have hlmem : l ∈ steps := by
    obtain ⟨id, _, hget⟩ := List.mem_filterMap.mp
      (show l ∈ ordered by rw [hsplit]; simp)
    exact (Table.mem_of_get hget).1
  obtain rfl := hw.paid_unique hlmem hp hlpaid hp'
  have hs_before : s ∈ before := by
    have hs_mem := hmem s hs
    rw [hsplit] at hs_mem
    simp only [List.mem_append, List.mem_cons] at hs_mem
    obtain hs_mem | hs_mem | rfl | hs_mem := hs_mem
    · exact hs_mem
    · exact absurd hactive (hgap s hs_mem)
    · exact absurd rfl hne
    · have hnone : s ∈ after.filter InvoiceStatusStep.active := List.mem_filter.mpr ⟨hs_mem, hactive⟩
      rw [hafter] at hnone
      cases hnone
  have hids' : ids = (before ++ gap).map InvoiceStatusStep.id ++
      l.id :: after.map InvoiceStatusStep.id := by
    rw [← hids, hsplit]
    simp
  have hs_id : s.id ∈ (before ++ gap).map InvoiceStatusStep.id :=
    List.mem_map.mpr ⟨s, List.mem_append_left _ hs_before, rfl⟩
  have hl_id : l.id ∉ (before ++ gap).map InvoiceStatusStep.id := by
    rw [hids'] at hnd
    intro hmem_id
    exact (List.disjoint_of_nodup_append hnd) hmem_id List.mem_cons_self
  rw [hids', List.idxOf_append_of_mem hs_id, List.idxOf_append_of_notMem hl_id,
    List.idxOf_cons_self]
  exact List.idxOf_lt_length_of_mem hs_id

theorem reorderSteps_paidLast {shown : List InvoiceStatusStep} (h : Terminated t.steps)
    (hok : reorderSteps t ctx ids = .ok (t', shown)) :
    Terminated t'.steps ∧ PaidLast t'.steps := by
  obtain ⟨hcheck, rfl, _, hconfigured⟩ := reorderSteps_eq_ok h.workflow.ids hok
  have hterminated : Terminated (repositioned t.steps ids) := by
    refine ⟨hconfigured.workflow h.workflow, fun p hp hp' => ?_⟩
    obtain ⟨p₀, hp₀, rfl⟩ := List.mem_map.mp hp
    exact h.active p₀ hp₀ hp'
  refine ⟨hterminated, hterminated.paidLast_iff.mpr fun p hp hp' s hs hactive hne => ?_⟩
  obtain ⟨p₀, hp₀, rfl⟩ := List.mem_map.mp hp
  obtain ⟨s₀, hs₀, rfl⟩ := List.mem_map.mp hs
  have hlt := idxOf_lt_of_checkReorder h.workflow hcheck hp₀ hp' hs₀ hactive hne
  show (ids.idxOf s₀.id + 1) * 10 < (ids.idxOf p₀.id + 1) * 10
  omega

/-- **What a request does to the order.** -/
theorem configure_paidLast {r : ConfigureRequest} {a : Unit} (h : Terminated t.steps)
    (hok : configure t r = .ok (t', a)) :
    Terminated t'.steps ∧ (PaidLast t.steps → (PaidLast t'.steps ↔ r.2.KeepsPaidLast t)) := by
  obtain ⟨ctx, op⟩ := r
  cases op with
  | ensure =>
      simp only [configure, h.workflow.ensureDefaultSteps, ok_bind, pure_eq_ok,
        Prod.mk.injEq] at hok
      exact ⟨hok.1 ▸ h, fun hlast => iff_of_true (hok.1 ▸ hlast) trivial⟩
  | create data =>
      simp only [configure, bind_eq_ok, pure_eq_ok, Prod.exists, Prod.mk.injEq] at hok
      obtain ⟨_, _, hcreate, rfl, _⟩ := hok
      exact createStepView_paidLast h hcreate
  | patch stepId data =>
      simp only [configure, bind_eq_ok, pure_eq_ok, Prod.exists, Prod.mk.injEq] at hok
      obtain ⟨_, _, hpatch, rfl, _⟩ := hok
      exact patchStep_paidLast h hpatch
  | reorder ids =>
      simp only [configure, bind_eq_ok, pure_eq_ok, Prod.exists, Prod.mk.injEq] at hok
      obtain ⟨_, _, hreorder, rfl, _⟩ := hok
      obtain ⟨hterminated, hlast⟩ := reorderSteps_paidLast h hreorder
      exact ⟨hterminated, fun _ => iff_of_true hlast trivial⟩

/-- **Paid stays last** all along a run exactly when the start has no active step behind it
and no accepted request puts one there. -/
theorem paid_last_iff {start : Start} (hseeded : start.Seeded)
    (h : start.install ctx = .ok t.steps) (rs : List ConfigureRequest) :
    (∀ n, PaidLast (run configure t (rs.take n)).steps) ↔
      start.Clear ∧
        Along configure (fun t r => (configure t r).isOk = true → r.2.KeepsPaidLast t) t rs := by
  obtain ⟨hterminated, hclear⟩ := Start.terminated hseeded h
  rw [← hclear]
  exact forall_take_iff (I := fun t => Terminated t.steps) (P := fun t => PaidLast t.steps)
    (fun hs hr => (configure_paidLast hs hr).1)
    (fun hs hlast hr => (configure_paidLast hs hr).2 hlast) rs hterminated

/-- An administrator adds an active step to the default workflow: it stands behind
`paid`. -/
theorem added_step_behind_paid :
    ¬PaidLast (run configure Sample.tenant (sampleConfiguration.take 2)).steps := by
  decide +kernel

/-- Reordering brings `paid` back behind it. -/
theorem paid_last_iff_sample :
    ¬(∀ n, PaidLast (run configure Sample.tenant (sampleConfiguration.take n)).steps) ∧
      PaidLast (run configure Sample.tenant sampleConfiguration).steps := by
  obtain ⟨ctx, hinstall⟩ := Sample.initial.steps
  have hseeded : Start.Seeded .registered := trivial
  refine ⟨?_, by decide +kernel⟩
  rw [paid_last_iff hseeded hinstall]
  rintro ⟨_, _, hcreate, _⟩
  have hkeeps : true = false := hcreate (by decide +kernel)
  cases hkeeps

/-! ## A reorder goes through -/

/-- Where the step with a key stands. -/
def positionOf (steps : List InvoiceStatusStep) (id : Id) : ℕ :=
  ((Table.get id steps).map InvoiceStatusStep.position).getD 0

/-- The shift and the renumbering stay within a small integer, no two rows are exactly the
shift apart, and no row that is renumbered later stands where an earlier one goes once it
is shifted. -/
structure Renumberable (steps : List InvoiceStatusStep) (ids : List Id) : Prop where
  range : ∀ s ∈ steps, s.position + 10000 ≤ 32767
  apart : ∀ s ∈ steps, ∀ s' ∈ steps, s'.position ≠ s.position + 10000
  length : ids.length * 10 ≤ 32767
  clear : ∀ i j, i < j → (hj : j < ids.length) →
    positionOf steps (ids[j]) + 10000 ≠ (i + 1) * 10

theorem positionOf_of_mem (hnd : (Table.keys steps).Nodup) {s : InvoiceStatusStep}
    (hs : s ∈ steps) : positionOf steps s.id = s.position := by
  have hget : Table.get s.id steps = some s := Table.get_of_mem hnd hs
  simp [positionOf, hget]

theorem positionOf_shifted (hnd : (Table.keys steps).Nodup) {id : Id}
    (hid : id ∈ Table.keys steps) :
    positionOf (steps.map InvoiceStatusStep.shifted) id = positionOf steps id + 10000 := by
  obtain ⟨s, hs, rfl⟩ := Table.mem_keys.mp hid
  have hmem : s.shifted ∈ steps.map InvoiceStatusStep.shifted := List.mem_map.mpr ⟨s, hs, rfl⟩
  have hshifted := positionOf_of_mem (keys_shifted steps ▸ hnd) hmem
  exact hshifted.trans (congrArg (· + 10000) (positionOf_of_mem hnd hs).symm)

/-- The rows in the order of their ranks. -/
def visited (ctx : Ctx) (steps : List InvoiceStatusStep) : List InvoiceStatusStep :=
  sortBy (fun s => ctx.rowRank s.id) steps

/-- The shift goes through in one order of the rows. -/
theorem exists_shiftPositions_iff (hnd : (Table.keys steps).Nodup) :
    (∃ steps', shiftPositions ctx steps = .ok steps') ↔
      (∀ s ∈ steps, s.position + 10000 ≤ 32767) ∧
        (visited ctx steps).Pairwise fun s s' =>
          s.position ≠ s'.position ∧ s'.position ≠ s.position + 10000 := by
  have hwrites : ((visited ctx steps).map fun s => (s.id, s.position + 10000)).map Prod.fst =
      Table.keys (visited ctx steps) := keys_writes _ _
  have hcovers : ∀ row ∈ steps, key row ∈
      ((visited ctx steps).map fun s => (s.id, s.position + 10000)).map Prod.fst := by
    intro row hrow
    rw [hwrites]
    exact Table.mem_keys.mpr ⟨row, mem_sortBy.mpr hrow, rfl⟩
  have hmem : ∀ w ∈ (visited ctx steps).map fun s => (s.id, s.position + 10000),
      w.1 ∈ Table.keys steps := by
    intro w hw
    obtain ⟨s, hs, rfl⟩ := List.mem_map.mp hw
    exact Table.mem_keys.mpr ⟨s, mem_sortBy.mp hs, rfl⟩
  have hold : ∀ s ∈ steps, positionColumn.get s = positionOf steps (key s) := fun s hs =>
    (positionOf_of_mem hnd hs).symm
  rw [shiftPositions, writePositions]
  rw [Column.exists_writeAll_iff_of_covers (nodup_keys_shift ctx hnd) hmem hcovers hold]
  refine and_congr ?_ ?_
  · simp only [List.forall_mem_map, mem_sortBy]
  · rw [Column.Clear, List.pairwise_map]
    refine List.Pairwise.iff_of_mem fun {s s'} _ hs' => ?_
    rw [positionOf_of_mem hnd (mem_sortBy.mp hs')]
    omega

/-- In a list sorted by rank, a row of lower rank comes first. -/
theorem rel_of_rank_lt {α : Type} {rank : α → ℕ} {R : α → α → Prop} {xs : List α}
    (hsorted : xs.Pairwise fun a b => rank a ≤ rank b) (hR : xs.Pairwise R) {a b : α} (ha : a ∈ xs)
    (hb : b ∈ xs) (hlt : rank a < rank b) : R a b := by
  obtain ⟨i, hi, rfl⟩ := List.mem_iff_getElem.mp ha
  obtain ⟨j, hj, rfl⟩ := List.mem_iff_getElem.mp hb
  obtain hij | rfl | hji := lt_trichotomy i j
  · exact List.pairwise_iff_getElem.mp hR i j hi hj hij
  · exact absurd hlt (lt_irrefl _)
  · exact absurd hlt (not_lt.mpr (List.pairwise_iff_getElem.mp hsorted j i hj hi hji))

/-- **The shift goes through in every order** exactly when no two rows are the shift apart
and no row leaves the range. -/
theorem forall_shiftPositions_iff (hnd : (Table.keys steps).Nodup)
    (hpositions : (steps.map InvoiceStatusStep.position).Nodup) :
    (∀ ctx, ∃ steps', shiftPositions ctx steps = .ok steps') ↔
      (∀ s ∈ steps, s.position + 10000 ≤ 32767) ∧
        ∀ s ∈ steps, ∀ s' ∈ steps, s'.position ≠ s.position + 10000 := by
  simp only [exists_shiftPositions_iff hnd]
  constructor
  · intro hall
    refine ⟨(hall ⟨0, 0, id, id⟩).1, fun s hs s' hs' heq => ?_⟩
    -- the database visits the lower of the two rows first
    let lowerFirst : Ctx := ⟨0, 0, id, fun id => if id = s.id then 0 else 1⟩
    have hpairwise := (hall lowerFirst).2
    have hsorted : (visited lowerFirst steps).Pairwise fun a b =>
        lowerFirst.rowRank a.id ≤ lowerFirst.rowRank b.id := List.pairwise_insertionSort _ _
    have hne : s ≠ s' := by
      rintro rfl
      omega
    have hids : s'.id ≠ s.id := fun hk => hne (Table.eq_of_key_eq hnd hs hs' hk.symm)
    have hlt : lowerFirst.rowRank s.id < lowerFirst.rowRank s'.id := by
      simp [lowerFirst, hids]
    exact (rel_of_rank_lt hsorted hpairwise (mem_sortBy.mpr hs) (mem_sortBy.mpr hs') hlt).2 heq
  · rintro ⟨hrange, hapart⟩ ctx
    refine ⟨hrange, ?_⟩
    have hvisited : (visited ctx steps).Nodup :=
      (sortBy_perm _ _).nodup_iff.mpr (List.Nodup.of_map _ hnd)
    refine hvisited.pairwise_of_forall_ne fun s hs s' hs' hne => ⟨fun heq => hne ?_, ?_⟩
    · exact List.inj_on_of_nodup_map hpositions (mem_sortBy.mp hs) (mem_sortBy.mp hs') heq
    · exact hapart s (mem_sortBy.mp hs) s' (mem_sortBy.mp hs')

/-- The renumbering of the shifted rows goes through. -/
theorem exists_renumber_iff (hnd : (Table.keys steps).Nodup) (hids : ids.Nodup)
    (hsub : ∀ id ∈ ids, id ∈ Table.keys steps) (hall : ∀ id ∈ Table.keys steps, id ∈ ids) :
    (∃ steps', renumber (steps.map InvoiceStatusStep.shifted) ids = .ok steps') ↔
      ids.length * 10 ≤ 32767 ∧ ∀ i j, i < j → (hj : j < ids.length) →
        positionOf steps (ids[j]) + 10000 ≠ (i + 1) * 10 := by
  have hkeys := keys_shifted steps
  have hold : ∀ s ∈ steps.map InvoiceStatusStep.shifted, positionColumn.get s =
      positionOf (steps.map InvoiceStatusStep.shifted) (key s) := fun s hs =>
    (positionOf_of_mem (hkeys ▸ hnd) hs).symm
  have hcovers : ∀ row ∈ steps.map InvoiceStatusStep.shifted, key row ∈
      (ids.zipIdx.map fun e => (e.1, (e.2 + 1) * 10)).map Prod.fst := by
    intro row hrow
    rw [keys_renumber]
    exact hall _ (hkeys ▸ Table.mem_keys.mpr ⟨row, hrow, rfl⟩)
  have hmem : ∀ w ∈ ids.zipIdx.map fun e => (e.1, (e.2 + 1) * 10),
      w.1 ∈ Table.keys (steps.map InvoiceStatusStep.shifted) := by
    intro w hw
    obtain ⟨e, he, rfl⟩ := List.mem_map.mp hw
    rw [hkeys]
    exact hsub e.1 (List.fst_mem_of_mem_zipIdx he)
  -- The batch goes through when its values fit the column and none is held by a row still to be
  -- moved.
  rw [renumber, writePositions]
  rw [Column.exists_writeAll_iff_of_covers (by rwa [keys_renumber]) hmem hcovers hold]
  refine and_congr ?_ ?_
  · simp only [List.forall_mem_map]
    constructor
    · intro hle
      cases hlast : ids.length with
      | zero => omega
      | succ n =>
          have hn : n < ids.length := by omega
          exact hle (ids[n], n) (List.mk_mem_zipIdx_iff_getElem?.mpr (List.getElem?_eq_getElem hn))
    · intro hle e he
      have hlt := List.snd_lt_of_mem_zipIdx he
      omega
  · rw [Column.Clear, List.pairwise_map, List.pairwise_iff_getElem]
    simp only [List.length_zipIdx, List.getElem_zipIdx, Nat.zero_add]
    constructor
    · intro hclear i j hij hj
      rw [← positionOf_shifted hnd (hsub _ (List.getElem_mem hj))]
      exact (hclear i j (hij.trans hj) hj hij).2
    · intro hclear i j _ hj hij
      refine ⟨by omega, ?_⟩
      rw [positionOf_shifted hnd (hsub _ (List.getElem_mem hj))]
      exact hclear i j hij hj

/-- The rows a reorder shows, in the requested order. -/
theorem shown_repositioned (hids : ids.Nodup)
    (hsub : ∀ id ∈ ids, id ∈ Table.keys steps) :
    (ids.filterMap (Table.get · (repositioned steps ids))).map InvoiceStatusStep.id = ids ∧
      (ids.filterMap (Table.get · (repositioned steps ids))).map InvoiceStatusStep.position =
        (List.range ids.length).map fun i => (i + 1) * 10 := by
  have hkeys : Table.keys (repositioned steps ids) = Table.keys steps := by
    rw [Table.keys, repositioned, List.map_map]
    rfl
  have hshown : (ids.filterMap (Table.get · (repositioned steps ids))).map InvoiceStatusStep.id =
      ids := map_id_filterMap_get fun id hid => hkeys ▸ hsub id hid
  refine ⟨hshown, ?_⟩
  have hplace : ∀ s ∈ ids.filterMap (Table.get · (repositioned steps ids)),
      s.position = (ids.idxOf s.id + 1) * 10 := by
    intro s hs
    obtain ⟨id, _, hget⟩ := List.mem_filterMap.mp hs
    obtain ⟨s₀, _, rfl⟩ := List.mem_map.mp (Table.mem_of_get hget).1
    rfl
  have hmap : (ids.filterMap (Table.get · (repositioned steps ids))).map
      (fun s => (ids.idxOf s.id + 1) * 10) = ids.map fun id => (ids.idxOf id + 1) * 10 := by
    have hboth := congrArg (List.map fun id => (ids.idxOf id + 1) * 10) hshown
    rwa [List.map_map] at hboth
  rw [List.map_congr_left hplace, hmap]
  refine List.ext_getElem (by simp) fun i hi _ => ?_
  simp only [List.getElem_map, List.getElem_range]
  rw [hids.idxOf_getElem]

/-- **A reorder goes through** in every order the database may visit the rows, and leaves
them at 10, 20, 30, … in the requested order, exactly when the table is renumberable. -/
theorem reorder_succeeds_iff (hnd : (Table.keys t.steps).Nodup)
    (hpositions : (t.steps.map InvoiceStatusStep.position).Nodup)
    (hcheck : checkReorder t.steps ids = .ok ⟨⟩) :
    (∀ ctx, ∃ t' shown, reorderSteps t ctx ids = .ok (t', shown) ∧
      t'.steps = repositioned t.steps ids ∧ shown.map InvoiceStatusStep.id = ids ∧
      shown.map InvoiceStatusStep.position = (List.range ids.length).map fun i => (i + 1) * 10) ↔
      Renumberable t.steps ids := by
  obtain ⟨hids, hsub, hall⟩ := checkReorder_eq_ok hcheck
  have hshift := forall_shiftPositions_iff hnd hpositions
  have hrenumber := exists_renumber_iff hnd hids hsub hall
  constructor
  · intro hsucceeds
    have hsteps : ∀ ctx, ∃ steps₁, shiftPositions ctx t.steps = .ok steps₁ ∧
        ∃ steps₂, renumber steps₁ ids = .ok steps₂ := by
      intro ctx
      obtain ⟨t', shown, hok, _⟩ := hsucceeds ctx
      simp only [reorderSteps, bind_eq_ok] at hok
      obtain ⟨_, _, steps₁, hshifted, steps₂, hrenumbered, _⟩ := hok
      exact ⟨steps₁, hshifted, steps₂, hrenumbered⟩
    obtain ⟨hrange, hapart⟩ := hshift.mp fun ctx =>
      (hsteps ctx).imp fun steps₁ h => h.1
    obtain ⟨steps₁, hshifted, hrenumbered⟩ := hsteps ⟨0, 0, id, id⟩
    obtain rfl := shiftPositions_eq_ok hnd hshifted
    obtain ⟨hlength, hclear⟩ := hrenumber.mp hrenumbered
    exact ⟨hrange, hapart, hlength, hclear⟩
  · rintro ⟨hrange, hapart, hlength, hclear⟩ ctx
    obtain ⟨steps₁, hshifted⟩ := hshift.mpr ⟨hrange, hapart⟩ ctx
    obtain rfl := shiftPositions_eq_ok hnd hshifted
    obtain ⟨steps₂, hrenumbered⟩ := hrenumber.mpr ⟨hlength, hclear⟩
    have hok : reorderSteps t ctx ids = .ok ({ t with steps := steps₂ }.bumpRevision,
        ids.filterMap (Table.get · steps₂)) := by
      rw [reorderSteps, hcheck, ok_bind, hshifted, ok_bind, hrenumbered]
      rfl
    obtain ⟨_, ht, hshown, _⟩ := reorderSteps_eq_ok hnd hok
    obtain rfl : steps₂ = repositioned t.steps ids := congrArg Tenant.steps ht
    obtain ⟨hkeys, hplaces⟩ := shown_repositioned hids hsub
    exact ⟨_, _, hok, rfl, hkeys, hplaces⟩

/-- A seeded table with one step an administrator added: it stands behind `paid`. -/
def seededTable : List InvoiceStatusStep :=
  [("draft", "Draft"), ("submitted", "Submitted"), ("under-review", "Under Review"),
    ("approved", "Approved"), ("paid", "Paid"), ("stamp-duty", "Stamp Duty")].zipIdx.map fun e =>
    { id := 1 + e.2
      code := e.1.1
      label := e.1.2
      position := (e.2 + 1) * 10
      active := true
      notifyOnEntry := false
      notificationRoles := []
      isPaid := e.1.1 = "paid"
      isTerminal := e.1.1 = "paid"
      isProtected := e.1.1 = "paid" }

/-- The table once the migration has put `paid` at 60 and the added step at 10060. -/
def migratedTenant : Tenant :=
  { Sample.tenant with steps := ((migrate (Sample.ctx 0) seededTable).toOption).getD [] }

/-- The steps of `migratedTenant`, `paid` last. -/
def paidLastIds : List Id := [1000, 1001, 1002, 1003, 4, 6, 1, 2, 3, 5]

/-- The list is accepted, but the shift writes 10060 while the added step still holds it. -/
theorem migrated_reorder_fails :
    migrate (Sample.ctx 0) seededTable = .ok migratedTenant.steps ∧
      checkReorder migratedTenant.steps paidLastIds = .ok ⟨⟩ ∧
      reorderSteps migratedTenant (Sample.ctx 1) paidLastIds =
        .error (.integrity "billing_unique_invoice_status_position") := by
  have hcheck : checkReorder migratedTenant.steps paidLastIds = .ok ⟨⟩ := by decide +kernel
  have hshift : shiftPositions (Sample.ctx 1) migratedTenant.steps =
      .error (.integrity "billing_unique_invoice_status_position") := by decide +kernel
  refine ⟨by decide +kernel, hcheck, ?_⟩
  rw [reorderSteps, hcheck, ok_bind, hshift]
  rfl

/-- The default workflow can be reordered. -/
theorem reorder_succeeds_sample : ∃ t' shown,
    reorderSteps Sample.tenant (Sample.ctx 1) [1004, 1000, 1001, 1002, 1003, 1005] =
      .ok (t', shown) ∧
      shown.map InvoiceStatusStep.position = [10, 20, 30, 40, 50, 60] := by
  have hrenumberable : Renumberable Sample.tenant.steps [1004, 1000, 1001, 1002, 1003, 1005] := by
    refine ⟨by decide +kernel, by decide +kernel, by decide, fun i j hij hj => ?_⟩
    simp only [List.length_cons, List.length_nil] at hj
    omega
  obtain ⟨t', shown, hok, _, _, hplaces⟩ := (reorder_succeeds_iff (by decide +kernel)
    (by decide +kernel) (by decide +kernel)).mpr hrenumberable (Sample.ctx 1)
  exact ⟨t', shown, hok, hplaces⟩

end VesselCaller.Billing
