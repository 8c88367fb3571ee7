import VesselCaller.Billing.Inversion
import VesselCaller.Billing.Views

/-!
# The workflow configuration over time

Registration provisions the six default steps; administrators then add, edit and
reorder steps.  `Workflow` survives all of it: the paid step is protected, so it is
never renamed or deactivated, and an edit never closes the last open step.

`Configured` is what the rest of the billing model needs to know about such a change:
no step disappears, and none becomes paid, unpaid or terminal.

## Main definitions

* `StepsKept`, `Configured` — what a change of the configuration leaves to the rest of billing;
* `Relabelled`, `repositioned` — the rows of a reorder.
-/

namespace VesselCaller.Billing

open Lib Accounts

variable {ctx : Ctx} {steps steps' : List InvoiceStatusStep} {t t' : Tenant}

/-! ## Provisioning -/

theorem nodup_keys_of_ensureDefaultSteps (h : ensureDefaultSteps ctx steps = .ok steps')
    (hnd : (Table.keys steps).Nodup) : (Table.keys steps').Nodup := by
  refine foldlM_invariant (fun s : List InvoiceStatusStep => (Table.keys s).Nodup) ?_ hnd h
  intro s d s' hs hstep
  unfold ensureDefaultStep at hstep
  split at hstep
  · exact pure_eq_ok.mp hstep ▸ hs
  · obtain ⟨hid, _, _, rfl⟩ := createStep_eq_ok hstep
    exact Table.nodup_keys_concat hs hid

/-- Provisioning an empty workflow leaves the defaults. -/
theorem ensureDefaultSteps_nil (h : ensureDefaultSteps ctx [] = .ok steps) :
    steps = defaultWorkflowSteps.zipIdx.map fun d => defaultStep (ctx.uuid (1000 + d.2)) d.1 := by
  simp [ensureDefaultSteps, defaultWorkflowSteps, ensureDefaultStep, defaultStep, createStep,
    bind_eq_ok] at h
  obtain ⟨_, _, _, _, _, h⟩ := h
  simpa [raiseIf, defaultWorkflowSteps, defaultStep] using h.symm

/-- **The provisioned workflow.** -/
theorem Workflow.ofProvisioned (h : Billing.ensureDefaultSteps ctx [] = .ok steps) :
    Workflow steps := by
  have hids := nodup_keys_of_ensureDefaultSteps h List.nodup_nil
  obtain rfl := ensureDefaultSteps_nil h
  refine ⟨hids, ?_, ?_, ?_, ?_, ?_, ?_⟩ <;>
    simp [defaultWorkflowSteps, defaultStep, InvoiceStatusStep.open]

/-! ## Configuration -/

/-- No step disappears, and none becomes paid, unpaid or terminal. -/
def StepsKept (steps steps' : List InvoiceStatusStep) : Prop :=
  ∀ s ∈ steps, ∃ s' ∈ steps',
    s'.id = s.id ∧ s'.isPaid = s.isPaid ∧ s'.isTerminal = s.isTerminal

theorem StepsKept.refl (steps : List InvoiceStatusStep) : StepsKept steps steps :=
  fun s hs => ⟨s, hs, rfl, rfl, rfl⟩

/-- A change of configuration that keeps the workflow in order. -/
structure Configured (steps steps' : List InvoiceStatusStep) : Prop where
  workflow : Workflow steps → Workflow steps'
  kept : StepsKept steps steps'

/-- Adding an unpaid step under a code of its own. -/
theorem Workflow.concat (hw : Workflow steps) {step : InvoiceStatusStep}
    (h : createStep steps step = .ok steps') (hunpaid : step.isPaid = false)
    (hcode : step.code ≠ "paid") : Workflow steps' := by
  obtain ⟨hid, hfresh, hposition, rfl⟩ := createStep_eq_ok h
  refine ⟨Table.nodup_keys_concat hw.ids hid, ?_, ?_, ?_, ?_, ?_, ?_⟩
  · rw [List.map_append]
    exact List.nodup_append'.mpr ⟨hw.codes, List.nodup_singleton _, by simpa using hfresh⟩
  · rw [List.map_append]
    exact List.nodup_append'.mpr ⟨hw.positions, List.nodup_singleton _, by simpa using hposition⟩
  · intro d hd
    rw [List.map_append]
    exact List.mem_append_left _ (hw.defaults d hd)
  · intro s hs
    obtain hs | hs := List.mem_append.mp hs
    · exact hw.paidCode s hs
    · obtain rfl := List.mem_singleton.mp hs
      simp [hunpaid, hcode]
  · intro s hs hpaid
    obtain hs | hs := List.mem_append.mp hs
    · exact hw.paidProtected s hs hpaid
    · obtain rfl := List.mem_singleton.mp hs
      simp [hunpaid] at hpaid
  · obtain ⟨s, hs, hopen⟩ := hw.someOpen
    exact ⟨s, List.mem_append_left _ hs, hopen⟩

theorem createStepView_eq_ok {data : StepInput} {step : InvoiceStatusStep}
    (hw : Workflow t.steps) (h : createStepView t ctx data = .ok (t', step)) :
    Configured t.steps t'.steps ∧ ∃ steps, t' = { t with steps := steps }.bumpRevision := by
  simp only [createStepView, bind_eq_ok, pure_eq_ok, raiseIf_eq_ok, hw.ensureDefaultSteps,
    Except.ok.injEq, exists_eq_left', not_or, Prod.mk.injEq] at h
  obtain ⟨_, _, roles, _, _, ⟨_, hcode, _⟩, _, _, _, _, steps, hcreate, rfl, rfl⟩ := h
  obtain ⟨_, _, _, rfl⟩ := createStep_eq_ok hcreate
  refine ⟨⟨fun hw => hw.concat hcreate rfl hcode, ?_⟩, _, rfl⟩
  exact fun s hs => ⟨s, List.mem_append_left _ hs, rfl, rfl, rfl⟩

/-- A step written back under its own key, code, position and flags. -/
structure Relabelled (s s' : InvoiceStatusStep) : Prop where
  id : s'.id = s.id
  code : s'.code = s.code
  isPaid : s'.isPaid = s.isPaid
  isProtected : s'.isProtected = s.isProtected

/-- Mapping every step to a relabelled one keeps everything but positions and
openness. -/
theorem Workflow.map (hw : Workflow steps) (f : InvoiceStatusStep → InvoiceStatusStep)
    (hf : ∀ s ∈ steps, Relabelled s (f s))
    (hpositions : ((steps.map f).map InvoiceStatusStep.position).Nodup)
    (hopen : ∃ s ∈ steps.map f, s.open = true) : Workflow (steps.map f) := by
  have hids : Table.keys (steps.map f) = Table.keys steps := by
    rw [Table.keys, List.map_map]
    exact List.map_congr_left fun s hs => (hf s hs).id
  have hcodes : (steps.map f).map InvoiceStatusStep.code = steps.map InvoiceStatusStep.code := by
    rw [List.map_map]
    exact List.map_congr_left fun s hs => (hf s hs).code
  refine ⟨hids ▸ hw.ids, hcodes ▸ hw.codes, hpositions, hcodes ▸ hw.defaults, ?_, ?_, hopen⟩
  · intro s hs
    obtain ⟨s₀, hs₀, rfl⟩ := List.mem_map.mp hs
    rw [(hf s₀ hs₀).isPaid, (hf s₀ hs₀).code]
    exact hw.paidCode s₀ hs₀
  · intro s hs hpaid
    obtain ⟨s₀, hs₀, rfl⟩ := List.mem_map.mp hs
    rw [(hf s₀ hs₀).isPaid] at hpaid
    rw [(hf s₀ hs₀).isProtected]
    exact hw.paidProtected s₀ hs₀ hpaid

/-- Patching leaves an open step: the patched one or another. -/
theorem exists_open_put {step : InvoiceStatusStep} {data : StepPatch} {roles : List Role}
    (hw : Workflow steps) (mem : step ∈ steps)
    (hguard : ¬(step.open = true ∧ data.active = some false ∧
      steps.any (fun s => s.id ≠ step.id && s.open) = false)) :
    ∃ s ∈ Table.put (step.patched data roles) steps, s.open = true := by
  have hother : ∀ s ∈ steps, s.id ≠ step.id → s.open = true →
      ∃ s ∈ Table.put (step.patched data roles) steps, s.open = true :=
    fun s hs hne hopen => ⟨s, Table.mem_put_of_ne hs hne, hopen⟩
  obtain ⟨s, hs, hopen⟩ := hw.someOpen
  by_cases hne : s.id = step.id
  · obtain rfl := Table.eq_of_key_eq hw.ids hs mem hne
    by_cases hclose : data.active = some false
    · have hany : steps.any (fun s' => s'.id ≠ s.id && s'.open) = true := by
        by_contra hnone
        exact hguard ⟨hopen, hclose, by simpa using hnone⟩
      obtain ⟨s', hs', hs'open⟩ := List.any_eq_true.mp hany
      simp only [ne_eq, decide_not, Bool.and_eq_true, Bool.not_eq_true', decide_eq_false_iff_not]
        at hs'open
      exact hother s' hs' hs'open.1 hs'open.2
    · refine ⟨s.patched data roles, Table.mem_put_self hs rfl, ?_⟩
      simp only [InvoiceStatusStep.open, Bool.and_eq_true] at hopen
      have hactive : data.active.getD s.active = true := by
        cases hdata : data.active with
        | none => exact hopen.1.1
        | some b =>
            cases b with
            | false => exact absurd hdata hclose
            | true => rfl
      simp only [InvoiceStatusStep.open, InvoiceStatusStep.patched, hactive, hopen.1.2, hopen.2,
        Bool.and_self]
  · exact hother s hs hne hopen

theorem patchStep_eq_ok {stepId : Id} {data : StepPatch} {step : InvoiceStatusStep}
    (hw : Workflow t.steps) (h : patchStep t stepId data = .ok (t', step)) :
    (t' = t ∨ ∃ steps, t' = { t with steps := steps }.bumpRevision) ∧
      Configured t.steps t'.steps := by
  simp only [patchStep, bind_eq_ok, orRaise_eq_ok, raiseIf_eq_ok] at h
  obtain ⟨s, hs, _, _, roles, _, _, _, _, hguard, h⟩ := h
  obtain ⟨mem, _⟩ := Table.mem_of_get hs
  split at h
  · simp only [pure_eq_ok, Prod.mk.injEq] at h
    obtain ⟨rfl, _⟩ := h
    exact ⟨.inl rfl, id, .refl _⟩
  · simp only [pure_eq_ok, Prod.mk.injEq] at h
    obtain ⟨rfl, _⟩ := h
    -- A patch keeps key, code and flags of its row.
    have hrow : ∀ s₀ ∈ t.steps, Relabelled s₀
        (if s₀.id = s.id then s.patched data roles else s₀) := by
      intro s₀ hs₀
      by_cases hk : s₀.id = s.id
      · obtain rfl := Table.eq_of_key_eq hw.ids hs₀ mem hk
        simp only [if_true]
        exact ⟨rfl, rfl, rfl, rfl⟩
      · simp only [hk, if_false]
        exact ⟨rfl, rfl, rfl, rfl⟩
    refine ⟨.inr ⟨_, rfl⟩, fun hw => ?_, ?_⟩
    · refine hw.map (fun s₀ => if s₀.id = s.id then s.patched data roles else s₀) hrow ?_
        (exists_open_put hw mem hguard)
      have hpositions : (t.steps.map fun s₀ => if s₀.id = s.id then s.patched data roles
          else s₀).map InvoiceStatusStep.position = t.steps.map InvoiceStatusStep.position := by
        rw [List.map_map]
        refine List.map_congr_left fun s₀ hs₀ => ?_
        by_cases hk : s₀.id = s.id
        · obtain rfl := Table.eq_of_key_eq hw.ids hs₀ mem hk
          simp [InvoiceStatusStep.patched]
        · simp [hk]
      exact hpositions ▸ hw.positions
    · intro s₀ hs₀
      refine ⟨_, List.mem_map.mpr ⟨s₀, hs₀, rfl⟩, (hrow s₀ hs₀).id, (hrow s₀ hs₀).isPaid, ?_⟩
      show (if s₀.id = s.id then s.patched data roles else s₀).isTerminal = s₀.isTerminal
      by_cases hk : s₀.id = s.id
      · obtain rfl := Table.eq_of_key_eq hw.ids hs₀ mem hk
        rw [if_pos rfl]
        rfl
      · rw [if_neg hk]

/-! ## Reordering -/

theorem keys_writes (f : InvoiceStatusStep → ℕ) (steps : List InvoiceStatusStep) :
    (steps.map fun s => (s.id, f s)).map Prod.fst = Table.keys steps := by
  rw [List.map_map]
  rfl

/-- The writes of the shift name every step once, in the order of their ranks. -/
theorem nodup_keys_shift (ctx : Ctx) (hnd : (Table.keys steps).Nodup) :
    (((sortBy (fun s => ctx.rowRank s.id) steps).map fun s =>
      (s.id, s.position + 10000)).map Prod.fst).Nodup := by
  rw [keys_writes]
  exact ((sortBy_perm _ steps).map _).nodup_iff.mpr hnd

/-- The step once it is out of the way. -/
def InvoiceStatusStep.shifted (s : InvoiceStatusStep) : InvoiceStatusStep :=
  { s with position := s.position + 10000 }

theorem keys_shifted (steps : List InvoiceStatusStep) :
    Table.keys (steps.map InvoiceStatusStep.shifted) = Table.keys steps := by
  rw [Table.keys, List.map_map]
  rfl

theorem shiftPositions_eq_ok (hnd : (Table.keys steps).Nodup)
    (h : shiftPositions ctx steps = .ok steps') :
    steps' = steps.map InvoiceStatusStep.shifted := by
  rw [Column.writeAll_eq_ok h]
  refine List.map_congr_left fun s hs => ?_
  have hmem : (key s, s.position + 10000) ∈
      (sortBy (fun s => ctx.rowRank s.id) steps).map fun s => (s.id, s.position + 10000) :=
    List.mem_map.mpr ⟨s, mem_sortBy.mpr hs, rfl⟩
  exact Column.assign_of_mem (nodup_keys_shift ctx hnd) hmem

/-- The writes of the renumbering name every step once, in the requested order. -/
theorem keys_renumber (ids : List Id) :
    (ids.zipIdx.map fun e => (e.1, (e.2 + 1) * 10)).map Prod.fst = ids := by
  rw [List.map_map]
  exact List.zipIdx_map_fst 0 ids

theorem mem_renumber {ids : List Id} {id : Id} (h : id ∈ ids) :
    (id, (ids.idxOf id + 1) * 10) ∈ ids.zipIdx.map fun e => (e.1, (e.2 + 1) * 10) := by
  refine List.mem_map.mpr ⟨(id, ids.idxOf id), ?_, rfl⟩
  have hlt := List.idxOf_lt_length_of_mem h
  exact List.mk_mem_zipIdx_iff_getElem?.mpr
    (by rw [List.getElem?_eq_getElem hlt, List.getElem_idxOf hlt])

/-- Every step at the position its key has in `ids`: 10, 20, …. -/
def repositioned (steps : List InvoiceStatusStep) (ids : List Id) : List InvoiceStatusStep :=
  steps.map fun s => { s with position := (ids.idxOf s.id + 1) * 10 }

theorem renumber_eq_ok {ids : List Id} (hids : ids.Nodup)
    (hall : ∀ id, id ∈ Table.keys steps → id ∈ ids) (h : renumber steps ids = .ok steps') :
    steps' = repositioned steps ids := by
  rw [Column.writeAll_eq_ok h]
  refine List.map_congr_left fun s hs => ?_
  exact Column.assign_of_mem (by rwa [keys_renumber])
    (mem_renumber (hall s.id (Table.mem_keys.mpr ⟨s, hs, rfl⟩)))

theorem checkReorder_eq_ok {ids : List Id} {r : Unit} (h : checkReorder steps ids = .ok r) :
    ids.Nodup ∧ (∀ id, id ∈ ids → id ∈ Table.keys steps) ∧
      ∀ id, id ∈ Table.keys steps → id ∈ ids := by
  simp only [checkReorder, bind_eq_ok, raiseIf_eq_ok, not_or, not_not] at h
  obtain ⟨_, _, _, hids, _⟩ := h
  exact hids

theorem reorderSteps_eq_ok {ids : List Id} {shown : List InvoiceStatusStep}
    (hnd : (Table.keys t.steps).Nodup) (h : reorderSteps t ctx ids = .ok (t', shown)) :
    checkReorder t.steps ids = .ok ⟨⟩ ∧
      t' = { t with steps := repositioned t.steps ids }.bumpRevision ∧
      shown = ids.filterMap (Table.get · t'.steps) ∧ Configured t.steps t'.steps := by
  simp only [reorderSteps, bind_eq_ok, pure_eq_ok, Prod.mk.injEq] at h
  obtain ⟨_, hcheck, steps₁, hshift, steps₂, hrenumber, rfl, hshown⟩ := h
  obtain ⟨hids, _, hall⟩ := checkReorder_eq_ok hcheck
  obtain rfl := shiftPositions_eq_ok hnd hshift
  have hrepositioned : steps₂ = repositioned t.steps ids := by
    rw [renumber_eq_ok hids (keys_shifted t.steps ▸ hall) hrenumber, repositioned, repositioned, List.map_map]
    rfl
  subst hrepositioned
  refine ⟨hcheck, rfl, hshown.symm, fun hw => ?_, ?_⟩
  · refine hw.map _ (fun _ _ => ⟨rfl, rfl, rfl, rfl⟩) ?_ ?_
    · rw [List.map_map]
      refine List.Nodup.map_on ?_ (List.Nodup.of_map _ hw.ids)
      intro s hs s' hs' heq
      simp only [Function.comp_apply] at heq
      have hidx : ids.idxOf s.id = ids.idxOf s'.id := by omega
      have hid : s.id = s'.id :=
        (List.idxOf_inj (hall s.id (Table.mem_keys.mpr ⟨s, hs, rfl⟩))).mp hidx
      exact Table.eq_of_key_eq hw.ids hs hs' hid
    · obtain ⟨s, hs, hopen⟩ := hw.someOpen
      exact ⟨_, List.mem_map.mpr ⟨s, hs, rfl⟩, hopen⟩
  · intro s hs
    exact ⟨_, List.mem_map.mpr ⟨s, hs, rfl⟩, rfl, rfl, rfl⟩

end VesselCaller.Billing
