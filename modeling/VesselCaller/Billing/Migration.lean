import VesselCaller.Billing.Workflow

/-!
# The director review migration

Databases older than the present workflow were seeded with five steps (`draft`,
`submitted`, `under-review`, `approved` and `paid`) and may hold steps administrators
added.  `installDirectorReviewWorkflow` moves all of them out of the way, retires the
first three, adds the four review stages that are missing and puts `approved` and `paid`
behind these.  The steps administrators added stay where the move put them, far behind
`paid`.

## Main definitions

* `installDirectorReviewWorkflow`, `migrate` — the migration;
* `Legacy` — the tables it may find;
* `Tracks`, `InvoiceStatusStep.migrated` — a row, followed through the migration.
-/

namespace VesselCaller.Billing

open Lib Accounts

variable {ctx : Ctx} {existing steps steps' : List InvoiceStatusStep}

/-- `NEW_STEPS` of the migration. -/
def newSteps : List (String × String × ℕ) :=
  [("pending-director-finance-review", "Pending Director of Finance Review", 10),
   ("pending-audit-review", "Pending Audit Review", 20),
   ("pending-md-review", "Pending MD Review", 30),
   ("pending-accounts-review", "Pending Accounts Review", 40)]

/-- `LEGACY_CODES`. -/
def legacyCodes : List String := ["draft", "submitted", "under-review"]

/-- Give the step the organization had under a code a place. -/
def placeStep (existing steps : List InvoiceStatusStep) (code : String) (active : Bool)
    (position : ℕ) : Result (List InvoiceStatusStep) :=
  match existing.find? fun s => s.code = code with
  | some step =>
      writePositions (steps.map fun s => if s.id = step.id then { s with active := active } else s)
        [(step.id, position)]
  | none => pure steps

/-- The row the migration creates for a new step. -/
def newStep (ctx : Ctx) (e : (String × String × ℕ) × ℕ) : InvoiceStatusStep where
  id := ctx.uuid (1000 + e.2)
  code := e.1.1
  label := e.1.2.1
  position := e.1.2.2
  active := true
  notifyOnEntry := false
  notificationRoles := []
  isPaid := false
  isTerminal := false
  isProtected := false

/-- One `get_or_create` of the migration.  A step that was there keeps the label and the
position it has. -/
def installStep (ctx : Ctx) (steps : List InvoiceStatusStep)
    (e : (String × String × ℕ) × ℕ) : Result (List InvoiceStatusStep) :=
  if e.1.1 ∈ steps.map InvoiceStatusStep.code then pure steps else createStep steps (newStep ctx e)

/-- `install_director_review_workflow`, for the steps of one organization. -/
def installDirectorReviewWorkflow (ctx : Ctx) (existing : List InvoiceStatusStep) :
    Result (List InvoiceStatusStep) := do
  let steps ← shiftPositions ctx existing
  let steps ← legacyCodes.zipIdx.foldlM (fun steps e =>
    placeStep existing steps e.1 false (900 + (e.2 + 1) * 10)) steps
  let steps ← newSteps.zipIdx.foldlM (installStep ctx) steps
  let steps ← placeStep existing steps "approved" true 50
  placeStep existing steps "paid" true 60

/-- `configure_existing_status_notifications`, which the next migration runs. -/
def configureExistingStatusNotifications (steps : List InvoiceStatusStep) :
    List InvoiceStatusStep :=
  steps.map fun s => { s with
    notifyOnEntry := !s.isPaid
    notificationRoles := if s.isPaid then [] else [.admin, .finance] }

/-- The two migrations of a table. -/
def migrate (ctx : Ctx) (existing : List InvoiceStatusStep) : Result (List InvoiceStatusStep) := do
  let steps ← installDirectorReviewWorkflow ctx existing
  return configureExistingStatusNotifications steps

/-! ## The table before -/

/-- The codes an organization was seeded with. -/
def seededCodes : List String := ["draft", "submitted", "under-review", "approved", "paid"]

/-- A table as the earlier releases leave it: seeded, under the table's constraints, with
`paid` as its one paid, protected and terminal step. -/
structure Legacy (steps : List InvoiceStatusStep) : Prop where
  ids : (Table.keys steps).Nodup
  codes : (steps.map InvoiceStatusStep.code).Nodup
  positions : (steps.map InvoiceStatusStep.position).Nodup
  seeded : ∀ code ∈ seededCodes, code ∈ steps.map InvoiceStatusStep.code
  paidCode : ∀ s ∈ steps, s.isPaid = true ↔ s.code = "paid"
  paidProtected : ∀ s ∈ steps, s.isPaid = true → s.isProtected = true
  terminal : ∀ s ∈ steps, s.isTerminal = true → s.isPaid = true

/-- The rows of `existing` are still there, and keys, codes and positions are unique. -/
structure Tracks (existing steps : List InvoiceStatusStep) : Prop where
  ids : (Table.keys steps).Nodup
  codes : (steps.map InvoiceStatusStep.code).Nodup
  positions : (steps.map InvoiceStatusStep.position).Nodup
  kept : ∀ s ∈ existing, ∃ s' ∈ steps, s'.id = s.id ∧ s'.code = s.code

theorem Tracks.refl (h : Legacy steps) : Tracks steps steps :=
  ⟨h.ids, h.codes, h.positions, fun s hs => ⟨s, hs, rfl, rfl⟩⟩

/-- A table of tracked rows names a step by its key exactly where it names it by its
code. -/
theorem Tracks.id_eq_iff (h : Tracks existing steps) {step s : InvoiceStatusStep}
    (hstep : step ∈ existing) (hs : s ∈ steps) : s.id = step.id ↔ s.code = step.code := by
  obtain ⟨s', hs', hid, hcode⟩ := h.kept step hstep
  constructor
  · intro heq
    rw [Table.eq_of_key_eq h.ids hs hs' (heq.trans hid.symm), hcode]
  · intro heq
    rw [List.inj_on_of_nodup_map h.codes hs hs' (heq.trans hcode.symm), hid]

/-- A change that keeps keys and codes, and the positions unique. -/
theorem Tracks.map (h : Tracks existing steps) {f : InvoiceStatusStep → InvoiceStatusStep}
    (hid : ∀ s, (f s).id = s.id) (hcode : ∀ s, (f s).code = s.code)
    (hpositions : ((steps.map f).map InvoiceStatusStep.position).Nodup) :
    Tracks existing (steps.map f) := by
  refine ⟨?_, ?_, hpositions, ?_⟩
  · have hkeys : Table.keys (steps.map f) = Table.keys steps := by
      rw [Table.keys, List.map_map]
      exact List.map_congr_left fun s _ => hid s
    rw [hkeys]
    exact h.ids
  · have hcodes : (steps.map f).map InvoiceStatusStep.code = steps.map InvoiceStatusStep.code := by
      rw [List.map_map]
      exact List.map_congr_left fun s _ => hcode s
    rw [hcodes]
    exact h.codes
  · intro s hs
    obtain ⟨s', hs', hid', hcode'⟩ := h.kept s hs
    exact ⟨f s', List.mem_map.mpr ⟨s', hs', rfl⟩, (hid s').trans hid', (hcode s').trans hcode'⟩

/-! ## One place at a time -/

/-- The row with a code, put in its place. -/
def InvoiceStatusStep.placed (code : String) (active : Bool) (position : ℕ)
    (s : InvoiceStatusStep) : InvoiceStatusStep :=
  if s.code = code then { s with active := active, position := position } else s

@[simp] theorem InvoiceStatusStep.placed_id (code : String) (active : Bool) (position : ℕ)
    (s : InvoiceStatusStep) : (s.placed code active position).id = s.id := by
  unfold placed
  split <;> rfl

@[simp] theorem InvoiceStatusStep.placed_code (code : String) (active : Bool) (position : ℕ)
    (s : InvoiceStatusStep) : (s.placed code active position).code = s.code := by
  unfold placed
  split <;> rfl

theorem placeStep_eq_ok {code : String} {active : Bool} {position : ℕ}
    (ht : Tracks existing steps) (hcode : code ∈ existing.map InvoiceStatusStep.code)
    (h : placeStep existing steps code active position = .ok steps') :
    steps' = steps.map (InvoiceStatusStep.placed code active position) ∧
      Tracks existing steps' := by
  have hrows : steps' = steps.map (InvoiceStatusStep.placed code active position) ∧
      (steps'.map InvoiceStatusStep.position).Nodup := by
    unfold placeStep at h
    split at h
    · rename_i step hfind
      have mem := List.mem_of_find?_eq_some hfind
      have hstep : step.code = code := by simpa using List.find?_some hfind
      let marked := steps.map fun s => if s.id = step.id then { s with active := active } else s
      -- Marking a row active or not touches neither keys nor positions.
      have hmarked : Table.keys marked = Table.keys steps ∧
          marked.map InvoiceStatusStep.position = steps.map InvoiceStatusStep.position := by
        constructor
        · rw [Table.keys, List.map_map]
          refine List.map_congr_left fun s _ => ?_
          show (if s.id = step.id then { s with active := active } else s).id = s.id
          split <;> rfl
        · rw [List.map_map]
          refine List.map_congr_left fun s _ => ?_
          show (if s.id = step.id then { s with active := active } else s).position = s.position
          split <;> rfl
      constructor
      · rw [Column.writeAll_eq_ok h, List.map_map]
        refine List.map_congr_left fun s hs => ?_
        have haligned := ht.id_eq_iff mem hs
        rw [hstep] at haligned
        show (if (if s.id = step.id then { s with active := active } else s).id = step.id then
          { (if s.id = step.id then { s with active := active } else s) with position := position }
          else (if s.id = step.id then { s with active := active } else s)) = _
        unfold InvoiceStatusStep.placed
        by_cases hk : s.id = step.id
        · simp [hk, haligned.mp hk]
        · simp [hk, mt haligned.mpr hk]
      · refine Column.nodup_of_writeAll (c := positionColumn) ?_ ?_ h
        · exact hmarked.1 ▸ ht.ids
        · show (marked.map InvoiceStatusStep.position).Nodup
          rw [hmarked.2]
          exact ht.positions
    · rename_i hnone
      -- The row is looked up under a code that some row has.
      obtain ⟨s, hs, rfl⟩ := List.mem_map.mp hcode
      exact absurd (List.find?_eq_none.mp hnone s hs) (by simp)
  obtain ⟨rfl, hpositions⟩ := hrows
  exact ⟨rfl, ht.map (fun s => s.placed_id ..) (fun s => s.placed_code ..) hpositions⟩

/-! ## The new stages -/

/-- The stages that are missing are appended. -/
theorem installSteps_eq_ok : ∀ {es : List ((String × String × ℕ) × ℕ)}
    {steps steps' : List InvoiceStatusStep}, Tracks existing steps →
    es.foldlM (installStep ctx) steps = .ok steps' →
    Tracks existing steps' ∧ (∀ e ∈ es, e.1.1 ∈ steps'.map InvoiceStatusStep.code) ∧
      ∃ created, steps' = steps ++ created ∧ ∀ s ∈ created, ∃ e ∈ es, s = newStep ctx e := by
  intro es
  induction es with
  | nil =>
      intro steps steps' ht h
      simp only [List.foldlM_nil, pure_eq_ok] at h
      subst h
      exact ⟨ht, by simp, [], by simp, by simp⟩
  | cons e es ih =>
      intro steps steps' ht h
      simp only [List.foldlM_cons, bind_eq_ok] at h
      obtain ⟨steps₁, hinstall, hrest⟩ := h
      -- after its own round the stage is there
      have hround : Tracks existing steps₁ ∧ e.1.1 ∈ steps₁.map InvoiceStatusStep.code ∧
          ∃ created, steps₁ = steps ++ created ∧ ∀ s ∈ created, s = newStep ctx e := by
        unfold installStep at hinstall
        split at hinstall
        · rename_i hthere
          simp only [pure_eq_ok] at hinstall
          subst hinstall
          exact ⟨ht, hthere, [], by simp, by simp⟩
        · obtain ⟨hid, hcode, hposition, rfl⟩ := createStep_eq_ok hinstall
          refine ⟨⟨Table.nodup_keys_concat ht.ids hid, ?_, ?_, ?_⟩, by simp [newStep],
            [newStep ctx e], rfl, by simp⟩
          · rw [List.map_append]
            exact List.nodup_append'.mpr
              ⟨ht.codes, List.nodup_singleton _, by simpa using hcode⟩
          · rw [List.map_append]
            exact List.nodup_append'.mpr
              ⟨ht.positions, List.nodup_singleton _, by simpa using hposition⟩
          · intro s hs
            obtain ⟨s', hs', hsame⟩ := ht.kept s hs
            exact ⟨s', List.mem_append_left _ hs', hsame⟩
      obtain ⟨ht₁, hthere, created₁, rfl, hcreated₁⟩ := hround
      obtain ⟨ht', hall, created, rfl, hcreated⟩ := ih ht₁ hrest
      refine ⟨ht', ?_, created₁ ++ created, by simp, ?_⟩
      · refine List.forall_mem_cons.mpr ⟨?_, hall⟩
        rw [List.map_append]
        exact List.mem_append_left _ hthere
      · intro s hs
        obtain hs | hs := List.mem_append.mp hs
        · exact ⟨e, List.mem_cons_self, hcreated₁ s hs⟩
        · obtain ⟨e', he', heq⟩ := hcreated s hs
          exact ⟨e', List.mem_cons_of_mem _ he', heq⟩

/-! ## The table after -/

/-- Where the migration puts a row. -/
def InvoiceStatusStep.migrated (s : InvoiceStatusStep) : InvoiceStatusStep :=
  ((((s.shifted.placed "draft" false 910).placed "submitted" false 920).placed
    "under-review" false 930).placed "approved" true 50).placed "paid" true 60

theorem installDirectorReviewWorkflow_eq_ok (hl : Legacy existing)
    (h : installDirectorReviewWorkflow ctx existing = .ok steps) :
    Tracks existing steps ∧ (∀ e ∈ newSteps, e.1 ∈ steps.map InvoiceStatusStep.code) ∧
      ∃ created, steps = existing.map InvoiceStatusStep.migrated ++ created ∧
        ∀ s ∈ created, ∃ e ∈ newSteps.zipIdx, s = newStep ctx e := by
  simp only [installDirectorReviewWorkflow, legacyCodes, List.zipIdx_cons, List.zipIdx_nil,
    List.foldlM_cons, List.foldlM_nil, bind_eq_ok, pure_eq_ok] at h
  obtain ⟨steps₀, hshift, steps₃, ⟨steps₁, hdraft, steps₂, hsubmitted, _, hreview, rfl⟩, steps₄,
    hinstall, steps₅, happroved, hpaid⟩ := h
  have hseeded := hl.seeded
  simp only [seededCodes, List.forall_mem_cons] at hseeded
  obtain ⟨hdraftCode, hsubmittedCode, hreviewCode, happrovedCode, hpaidCode, _⟩ := hseeded
  have hpositions₀ := Column.nodup_of_writeAll (c := positionColumn) hl.ids hl.positions hshift
  obtain rfl := shiftPositions_eq_ok hl.ids hshift
  have ht₀ := (Tracks.refl hl).map (f := InvoiceStatusStep.shifted) (fun _ => rfl) (fun _ => rfl) hpositions₀
  obtain ⟨rfl, ht₁⟩ := placeStep_eq_ok ht₀ hdraftCode hdraft
  obtain ⟨rfl, ht₂⟩ := placeStep_eq_ok ht₁ hsubmittedCode hsubmitted
  obtain ⟨rfl, ht₃⟩ := placeStep_eq_ok ht₂ hreviewCode hreview
  obtain ⟨ht₄, hall, created, rfl, hcreated⟩ := installSteps_eq_ok ht₃ hinstall
  obtain ⟨rfl, ht₅⟩ := placeStep_eq_ok ht₄ happrovedCode happroved
  obtain ⟨rfl, ht₆⟩ := placeStep_eq_ok ht₅ hpaidCode hpaid
  -- the stages the migration creates have codes of their own
  have hsame : ∀ s ∈ created,
      (s.placed "approved" true 50).placed "paid" true 60 = s := by
    intro s hs
    obtain ⟨e, he, rfl⟩ := hcreated s hs
    have hne : e.1.1 ≠ "approved" ∧ e.1.1 ≠ "paid" := by
      have hcodes : ∀ e ∈ newSteps.zipIdx, e.1.1 ≠ "approved" ∧ e.1.1 ≠ "paid" := by decide
      exact hcodes e he
    simp [InvoiceStatusStep.placed, newStep, hne.1, hne.2]
  refine ⟨ht₆, ?_, created, ?_, hcreated⟩
  · intro e he
    obtain ⟨k, hk⟩ : ∃ k, (e, k) ∈ newSteps.zipIdx := by
      obtain ⟨k, hk, rfl⟩ := List.mem_iff_getElem.mp he
      exact ⟨k, List.mk_mem_zipIdx_iff_getElem?.mpr (List.getElem?_eq_getElem hk)⟩
    obtain ⟨s, hs, hcode⟩ := List.mem_map.mp (hall _ hk)
    exact List.mem_map.mpr ⟨_, List.mem_map.mpr ⟨_, List.mem_map.mpr ⟨s, hs, rfl⟩, rfl⟩,
      by simpa using hcode⟩
  · simp only [List.map_append, List.map_map]
    congr 1
    conv_rhs => rw [← List.map_id created]
    exact List.map_congr_left hsame

/-! ## Where a row ends up -/

namespace InvoiceStatusStep

variable {code : String} {active : Bool} {position : ℕ} {s : InvoiceStatusStep}

@[simp] theorem placed_isPaid : (s.placed code active position).isPaid = s.isPaid := by
  unfold placed
  split <;> rfl

@[simp] theorem placed_isTerminal : (s.placed code active position).isTerminal = s.isTerminal := by
  unfold placed
  split <;> rfl

@[simp] theorem placed_isProtected :
    (s.placed code active position).isProtected = s.isProtected := by
  unfold placed
  split <;> rfl

/-- The migration changes only the active flag and the position of a row. -/
theorem migrated_relabelled (s : InvoiceStatusStep) : Relabelled s s.migrated := by
  constructor <;> simp [migrated, shifted]

theorem migrated_isTerminal (s : InvoiceStatusStep) : s.migrated.isTerminal = s.isTerminal := by
  simp [migrated, shifted]

theorem migrated_of_paid (h : s.code = "paid") :
    s.migrated.active = true ∧ s.migrated.position = 60 := by
  simp [migrated, placed, shifted, h]

theorem migrated_of_approved (h : s.code = "approved") :
    s.migrated.active = true ∧ s.migrated.position = 50 := by
  simp [migrated, placed, shifted, h]

theorem migrated_of_legacy (h : s.code ∈ legacyCodes) : s.migrated.active = false := by
  simp only [legacyCodes, List.mem_cons, List.not_mem_nil, or_false] at h
  obtain h | h | h := h <;> simp [migrated, placed, shifted, h]

/-- A step an administrator added keeps its flag and stays out of the way. -/
theorem migrated_of_added (h : s.code ∉ seededCodes) :
    s.migrated.active = s.active ∧ s.migrated.position = s.position + 10000 := by
  simp only [seededCodes, List.mem_cons, List.not_mem_nil, or_false, not_or] at h
  obtain ⟨h₁, h₂, h₃, h₄, h₅⟩ := h
  simp [migrated, placed, shifted, h₁, h₂, h₃, h₄, h₅]

end InvoiceStatusStep

/-- The rows of a migrated table. -/
inductive MigratedRow (existing : List InvoiceStatusStep) (s : InvoiceStatusStep) :
    Prop where
  | kept (s₀ : InvoiceStatusStep) (mem : s₀ ∈ existing) (same : Relabelled s₀ s)
      (isTerminal : s.isTerminal = s₀.isTerminal) (active : s.active = s₀.migrated.active)
      (position : s.position = s₀.migrated.position)
  | created (e : (String × String × ℕ) × ℕ) (mem : e ∈ newSteps.zipIdx) (code : s.code = e.1.1)
      (isPaid : s.isPaid = false) (active : s.active = true) (position : s.position = e.1.2.2)

theorem newSteps_places : ∀ e ∈ newSteps.zipIdx, e.1.1 ≠ "paid" ∧ e.1.2.2 < 60 := by decide

/-- What `migrate` leaves of a seeded table. -/
theorem migrate_eq_ok (hl : Legacy existing) (h : migrate ctx existing = .ok steps) :
    Tracks existing steps ∧ (∀ d ∈ defaultWorkflowSteps, d.1 ∈ steps.map InvoiceStatusStep.code) ∧
      (∀ s ∈ steps, MigratedRow existing s) ∧
      ∀ s₀ ∈ existing, ∃ s ∈ steps, Relabelled s₀ s ∧ s.isTerminal = s₀.isTerminal ∧
        s.active = s₀.migrated.active ∧ s.position = s₀.migrated.position := by
  simp only [migrate, bind_eq_ok, pure_eq_ok] at h
  obtain ⟨steps₀, hinstall, rfl⟩ := h
  obtain ⟨ht, hnew, created, hrows, hcreated⟩ := installDirectorReviewWorkflow_eq_ok hl hinstall
  have hkept : ∀ s₀ ∈ existing, s₀.migrated ∈ steps₀ := by
    intro s₀ hs₀
    rw [hrows]
    exact List.mem_append_left _ (List.mem_map.mpr ⟨s₀, hs₀, rfl⟩)
  refine ⟨?_, ?_, ?_, ?_⟩
  · refine ht.map (fun _ => rfl) (fun _ => rfl) ?_
    rw [List.map_map]
    exact ht.positions
  · have hcodes : (configureExistingStatusNotifications steps₀).map InvoiceStatusStep.code =
        steps₀.map InvoiceStatusStep.code := by
      rw [configureExistingStatusNotifications, List.map_map]
      rfl
    rw [hcodes]
    have hseeded : ∀ code ∈ seededCodes, code ∈ steps₀.map InvoiceStatusStep.code := by
      intro code hcode
      obtain ⟨s₀, hs₀, rfl⟩ := List.mem_map.mp (hl.seeded code hcode)
      exact List.mem_map.mpr ⟨_, hkept s₀ hs₀, (InvoiceStatusStep.migrated_relabelled s₀).code⟩
    -- A default step was seeded, or is one of the new ones.
    have hsplit : ∀ d ∈ defaultWorkflowSteps,
        (∃ e ∈ newSteps, e.1 = d.1) ∨ d.1 ∈ seededCodes := by decide
    intro d hd
    obtain ⟨e, he, heq⟩ | hcode := hsplit d hd
    · exact heq ▸ hnew e he
    · exact hseeded d.1 hcode
  · intro s hs
    obtain ⟨s₁, hs₁, rfl⟩ := List.mem_map.mp hs
    rw [hrows] at hs₁
    obtain hs₁ | hs₁ := List.mem_append.mp hs₁
    · obtain ⟨s₀, hs₀, rfl⟩ := List.mem_map.mp hs₁
      have hsame := InvoiceStatusStep.migrated_relabelled s₀
      exact .kept s₀ hs₀ ⟨hsame.id, hsame.code, hsame.isPaid, hsame.isProtected⟩
        s₀.migrated_isTerminal rfl rfl
    · obtain ⟨e, he, rfl⟩ := hcreated s₁ hs₁
      exact .created e he rfl rfl rfl rfl
  · intro s₀ hs₀
    have hsame := InvoiceStatusStep.migrated_relabelled s₀
    exact ⟨_, List.mem_map.mpr ⟨_, hkept s₀ hs₀, rfl⟩,
      ⟨hsame.id, hsame.code, hsame.isPaid, hsame.isProtected⟩, s₀.migrated_isTerminal, rfl, rfl⟩

/-- **A migrated table is a workflow.** -/
theorem Legacy.workflow (hl : Legacy existing) (h : migrate ctx existing = .ok steps) :
    Workflow steps := by
  obtain ⟨ht, hdefaults, hrows, hkept⟩ := migrate_eq_ok hl h
  refine ⟨ht.ids, ht.codes, ht.positions, hdefaults, ?_, ?_, ?_⟩
  · intro s hs
    cases hrows s hs with
    | kept s₀ mem same _ _ _ =>
        rw [same.isPaid, same.code]
        exact hl.paidCode s₀ mem
    | created e mem code isPaid _ _ =>
        simp [isPaid, code, (newSteps_places e mem).1]
  · intro s hs hpaid
    cases hrows s hs with
    | kept s₀ mem same _ _ _ =>
        rw [same.isPaid] at hpaid
        rw [same.isProtected]
        exact hl.paidProtected s₀ mem hpaid
    | created e mem code isPaid _ _ => simp [isPaid] at hpaid
  · -- the migration opens `approved`
    obtain ⟨s₀, hs₀, hcode⟩ := List.mem_map.mp (hl.seeded "approved" (by decide))
    obtain ⟨s, hs, same, hterminal, hactive, _⟩ := hkept s₀ hs₀
    have hunpaid : s₀.isPaid = false := by
      have hne : s₀.code ≠ "paid" := by rw [hcode]; decide
      simpa using mt (hl.paidCode s₀ hs₀).mp hne
    have hnotTerminal : s₀.isTerminal = false := by
      simpa [hunpaid] using mt (hl.terminal s₀ hs₀)
    refine ⟨s, hs, ?_⟩
    simp [InvoiceStatusStep.open, hactive, (InvoiceStatusStep.migrated_of_approved hcode).1,
      same.isPaid, hunpaid, hterminal, hnotTerminal]

end VesselCaller.Billing
