import VesselCaller.Measurements.EvidenceUploads
import VesselCaller.Measurements.Inversion
import VesselCaller.System

/-!
# Evidence is finalized once

A file of a plan has one row, however often its upload is finalized and whatever becomes
of the requests, and a request that finds the row answers with it.  A request that fails
writes no row.  Whether it leaves the copy of its upload in the store depends on where it
fails: `Uncompensated` lists the failures after the copy that nothing undoes.

## Main definitions

* `FilesOnce`, `HasEvidence` — a file has at most one row, or has one;
* `Posted`, `Retries` — an accepted request, and one that finds the row;
* `LeavesCopy`, `LeavesNothing` — what a failed request leaves in the store.
-/

namespace VesselCaller.Measurements

open Lib Accounts Storage

variable {services : Services} {a a' : Archive} {r : EvidencePost} {t : Tenant}
  {plan : MeasurementPlan} {e : Evidence} {d : EvidenceRequest}

/-! ## Files -/

/-- What identifies a file within a plan. -/
def Evidence.file (e : Evidence) : String × String × String × ℕ :=
  (e.checksum, e.fileName, e.contentType, e.size)

def EvidenceRequest.file (d : EvidenceRequest) : String × String × String × ℕ :=
  (d.checksum, d.fileName, d.contentType, d.size)

/-- The lookup of the handler compares files. -/
theorem sameFile_iff : sameFile d e = true ↔ e.file = d.file := by
  simp [sameFile, Evidence.file, EvidenceRequest.file, and_assoc]

/-- No plan has two rows of a file. -/
def FilesOnce (t : Tenant) : Prop := ∀ p ∈ t.plans, (p.evidence.map Evidence.file).Nodup

instance (t : Tenant) : Decidable (FilesOnce t) :=
  inferInstanceAs (Decidable (∀ p ∈ t.plans, (p.evidence.map Evidence.file).Nodup))

/-- The row is one of the plan's. -/
def HasEvidence (t : Tenant) (planId : Id) (e : Evidence) : Prop :=
  ∃ plan, Table.get planId t.plans = some plan ∧ e ∈ plan.evidence

/-! ## What a request did -/

/-- A refusal takes the place of any error of the check. -/
theorem refuseContent_eq_ok {check : Except Raised Unit} {refusal : Raised} {u : Unit} :
    refuseContent check refusal = .ok u ↔ check = .ok u := by
  cases check <;> simp [refuseContent]

/-- The request reaches the promotion of its upload. -/
structure Admitted (services : Services) (a : Archive) (r : EvidencePost)
    (plan : MeasurementPlan) : Prop where
  found : Table.get r.planId a.tenant.plans = some plan
  valid : r.data.validate = .ok ()
  area : inUploads a.tenant plan r.data.source = true
  new : plan.evidence.find? (sameFile r.data) = none
  metadata : ∃ m, objectMetadata services r.hazards.metadata a.objects r.data.source = .ok m ∧
    metadataMatches m r.data = true
  content : validateInvoiceAttachment services r.hazards.validation a.objects r.data.source
    r.data.contentType r.data.size = .ok ()

/-- The upload is let on to its promotion exactly when it is admitted. -/
theorem admitUpload_eq_none_iff :
    admitUpload services a r = .ok (plan, none) ↔ Admitted services a r plan := by
  simp only [admitUpload, bind_eq_ok, mapError_eq_ok, raiseIf_eq_ok, getPlan, orRaise_eq_ok,
    Bool.not_eq_false]
  constructor
  · rintro ⟨plan', hfound, _, hvalid, _, harea, h⟩
    split at h
    · simp at h
    · rename_i hnew
      simp only [bind_eq_ok, raiseIf_eq_ok, refuseContent_eq_ok, pure_eq_ok,
        Prod.mk.injEq, and_true, Bool.not_eq_false] at h
      obtain ⟨m, hm, _, hmatches, _, hcontent, rfl⟩ := h
      exact ⟨hfound, hvalid, harea, hnew, ⟨m, hm, hmatches⟩, hcontent⟩
  · rintro ⟨hfound, hvalid, harea, hnew, ⟨m, hm, hmatches⟩, hcontent⟩
    refine ⟨plan, hfound, (), hvalid, (), harea, ?_⟩
    simp only [hnew, bind_eq_ok, raiseIf_eq_ok, refuseContent_eq_ok, pure_eq_ok,
      and_true, Bool.not_eq_false]
    exact ⟨m, hm, (), hmatches, (), hcontent⟩

/-- A file that has a row is answered with it. -/
theorem admitUpload_eq_some_iff :
    admitUpload services a r = .ok (plan, some e) ↔
      Table.get r.planId a.tenant.plans = some plan ∧ r.data.validate = .ok () ∧
      inUploads a.tenant plan r.data.source = true ∧
      plan.evidence.find? (sameFile r.data) = some e := by
  simp only [admitUpload, bind_eq_ok, mapError_eq_ok, raiseIf_eq_ok, getPlan, orRaise_eq_ok,
    Bool.not_eq_false]
  constructor
  · rintro ⟨plan', hfound, _, hvalid, _, harea, h⟩
    split at h
    · rename_i existing hexisting
      simp only [pure_eq_ok, Prod.mk.injEq, Option.some.injEq] at h
      obtain ⟨rfl, rfl⟩ := h
      exact ⟨hfound, hvalid, harea, hexisting⟩
    · simp [bind_eq_ok, map_eq_ok] at h
  · rintro ⟨hfound, hvalid, harea, hexisting⟩
    refine ⟨plan, hfound, (), hvalid, (), harea, ?_⟩
    simp only [hexisting, pure_eq_ok]

/-- The row can be inserted. -/
structure Insertable (t : Tenant) (r : EvidencePost) (destination : String) : Prop where
  accepted : r.hazards.insert = none
  newId : r.ctx.uuid 0 ∉ t.plans.flatMap fun p => Table.keys p.evidence
  newKey : destination ∉ t.plans.flatMap fun p => p.evidence.map Evidence.objectKey

/-- The row is written exactly when nothing stands in its way. -/
theorem createEvidence_isOk_iff {destination : String} :
    (createEvidence t plan r destination).isOk = true ↔ Insertable t r destination := by
  simp only [isOk_iff, createEvidence, bind_eq_ok, raiseSome_eq_ok, raiseIf_eq_ok, pure_eq_ok]
  constructor
  · rintro ⟨_, _, hinsert, _, hid, _, hkey, _⟩
    exact ⟨hinsert, hid, hkey⟩
  · rintro ⟨hinsert, hid, hkey⟩
    exact ⟨_, (), hinsert, (), hid, (), hkey, rfl⟩

/-- The row that is written is of the file, under the key of its copy. -/
theorem createEvidence_eq_ok {destination : String} {plan' : MeasurementPlan}
    (h : createEvidence t plan r destination = .ok (plan', e)) :
    e.file = r.data.file ∧ e.objectKey = destination ∧
      plan' = { plan with evidence := plan.evidence ++ [e] } := by
  simp only [createEvidence, bind_eq_ok, raiseSome_eq_ok, raiseIf_eq_ok, pure_eq_ok,
    Prod.mk.injEq] at h
  obtain ⟨_, _, _, _, _, _, rfl, rfl⟩ := h
  exact ⟨rfl, rfl, rfl⟩

/-- What is compensated for has failed. -/
theorem compensate_ne_ok {α : Type} {h : Hazards} {objects : Objects} {destination : String}
    {e : Raised} {x : α} : (compensate h objects destination e : Except Raised α × Objects).1 ≠
      .ok x := by
  unfold compensate deleteObject
  split
  · simp
  · simp

/-- A copy that was recorded has its row. -/
theorem recordCopy_eq_ok {destination : String} {promoted : Option Metadata} {objects : Objects}
    {recorded : MeasurementPlan × Evidence}
    (h : (recordCopy services t plan r destination promoted objects).1 = .ok recorded) :
    createEvidence t plan r destination = .ok recorded := by
  unfold recordCopy at h
  split at h
  · exact absurd h compensate_ne_ok
  · split at h
    · split at h
      · exact absurd h compensate_ne_ok
      · cases h
    · split at h
      · exact absurd h compensate_ne_ok
      · rename_i hcreated
        split at h
        · cases h
        · rw [hcreated]
          exact h

/-- What a request answered and what it left. -/
inductive Posted (a : Archive) (r : EvidencePost) : Except Raised Evidence → Archive → Prop where
  | failed (e : Raised) (objects : Objects) : Posted a r (.error e) { a with objects := objects }
  | found (plan : MeasurementPlan) (e : Evidence)
      (found : Table.get r.planId a.tenant.plans = some plan) (valid : r.data.validate = .ok ())
      (existing : plan.evidence.find? (sameFile r.data) = some e) : Posted a r (.ok e) a
  | recorded (plan : MeasurementPlan) (e : Evidence) (objects : Objects) (destination : String)
      (found : Table.get r.planId a.tenant.plans = some plan) (valid : r.data.validate = .ok ())
      (new : plan.evidence.find? (sameFile r.data) = none)
      (created : createEvidence a.tenant plan r destination =
        .ok ({ plan with evidence := plan.evidence ++ [e] }, e)) :
      Posted a r (.ok e) {
        tenant := a.tenant.putPlan { plan with evidence := plan.evidence ++ [e] }
        objects := objects
        cleanups := r.data.source :: a.cleanups }

/-- **Every request** fails, finds the row of its file, or records it. -/
theorem postEvidence_posted (services : Services) (a : Archive) (r : EvidencePost) :
    Posted a r (postEvidence services a r).1 (postEvidence services a r).2 := by
  unfold postEvidence
  split
  · exact .failed _ a.objects
  · rename_i plan existing hadmitted
    obtain ⟨hfound, hvalid, _, hexisting⟩ := admitUpload_eq_some_iff.mp hadmitted
    split
    · exact .failed _ a.objects
    · exact .found plan existing hfound hvalid hexisting
  · rename_i plan hadmitted
    have hadmitted := admitUpload_eq_none_iff.mp hadmitted
    simp only
    split
    · exact .failed _ _
    · split
      · exact .failed _ _
      · rename_i plan' e objects hrecorded
        split
        · exact .failed _ _
        · have hcreated := recordCopy_eq_ok (congrArg Prod.fst hrecorded)
          obtain ⟨_, _, rfl⟩ := createEvidence_eq_ok hcreated
          exact .recorded plan e objects _ hadmitted.found hadmitted.valid hadmitted.new hcreated

/-! ## Rows over a run -/

/-- No request writes a second row of a file. -/
theorem FilesOnce.posted {answer : Except Raised Evidence} (h : FilesOnce a.tenant)
    (hp : Posted a r answer a') : FilesOnce a'.tenant := by
  cases hp with
  | failed e objects => exact h
  | found plan e found valid existing => exact h
  | recorded plan e objects destination found valid new created =>
      obtain ⟨file, _, _⟩ := createEvidence_eq_ok created
      intro p hp
      obtain rfl | ⟨hp, _⟩ := Table.mem_put hp
      · rw [List.map_append, List.map_singleton, ← List.concat_eq_append]
        refine (h plan (Table.mem_of_get found).1).concat ?_
        intro hmem
        obtain ⟨e', he', hsame⟩ := List.mem_map.mp hmem
        exact List.find?_eq_none.mp new e' he' (sameFile_iff.mpr (hsame.trans file))
      · exact h p hp

/-- No request removes a row. -/
theorem HasEvidence.posted {answer : Except Raised Evidence} {planId : Id}
    (h : HasEvidence a.tenant planId e) (hp : Posted a r answer a') :
    HasEvidence a'.tenant planId e := by
  cases hp with
  | failed e objects => exact h
  | found plan e found valid existing => exact h
  | recorded plan e' objects destination found valid new created =>
      obtain ⟨p, hp, he⟩ := h
      obtain ⟨_, hid⟩ := Table.mem_of_get found
      by_cases hsame : planId = r.planId
      · subst hsame
        obtain rfl : p = plan := Option.some.inj (hp.symm.trans found)
        refine ⟨{ p with evidence := p.evidence ++ [e'] }, ?_, List.mem_append_left _ he⟩
        have hkey : key { p with evidence := p.evidence ++ [e'] } = r.planId := hid
        rw [← hkey]
        exact Table.get_put_self (hkey ▸ found)
      · refine ⟨p, ?_, he⟩
        rw [← hp]
        exact Table.get_put_of_ne fun heq => hsame (heq.trans hid)

variable {event : ArchiveEvent} {answer : Option (Except Raised Evidence)}

/-- An event is a request, or leaves the tenant alone. -/
theorem handle_tenant (h : a.handle services event = .ok (a', answer)) :
    (∃ r answer, Posted a r answer a') ∨ a'.tenant = a.tenant := by
  cases event with
  | upload o =>
      simp only [Archive.handle] at h
      split at h <;> (cases h; exact .inr rfl)
  | finalize r =>
      simp only [Archive.handle] at h
      cases h
      exact .inl ⟨r, _, postEvidence_posted services a r⟩
  | cleanUp source fault =>
      simp only [Archive.handle] at h
      split at h <;> (cases h; exact .inr rfl)

/-- No run writes a second row of a file. -/
theorem FilesOnce.run (h : FilesOnce a.tenant) (events : List ArchiveEvent) :
    FilesOnce (run (Archive.handle services) a events).tenant := by
  refine run_invariant (P := fun a : Archive => FilesOnce a.tenant) ?_ events h
  intro a event a' answer h hevent
  obtain ⟨r, answer, hposted⟩ | hsame := handle_tenant hevent
  · exact h.posted hposted
  · rwa [hsame]

/-- No run removes a row. -/
theorem HasEvidence.run {planId : Id} (h : HasEvidence a.tenant planId e)
    (events : List ArchiveEvent) :
    HasEvidence (run (Archive.handle services) a events).tenant planId e := by
  refine run_invariant (P := fun a : Archive => HasEvidence a.tenant planId e) ?_ events h
  intro a event a' answer h hevent
  obtain ⟨r, answer, hposted⟩ | hsame := handle_tenant hevent
  · exact h.posted hposted
  · rwa [hsame]

/-- A request for the file of a row: the store does not matter, nor does what the calls
would meet that it does not come to. -/
structure Retries (t : Tenant) (r : EvidencePost) (planId : Id) (e : Evidence) : Prop where
  plan : r.planId = planId
  file : e.file = r.data.file
  valid : r.data.validate = .ok ()
  area : ∀ plan, Table.get planId t.plans = some plan → inUploads t plan r.data.source = true
  commit : r.hazards.commit = none

/-- **A retry is answered with the row.** -/
theorem postEvidence_of_retries {planId : Id} (hfiles : FilesOnce a.tenant)
    (hrow : HasEvidence a.tenant planId e) (h : Retries a.tenant r planId e) :
    postEvidence services a r = (.ok e, a) := by
  obtain ⟨plan, hplan, he⟩ := hrow
  have hexisting : plan.evidence.find? (sameFile r.data) = some e := by
    cases hfind : plan.evidence.find? (sameFile r.data) with
    | none => exact absurd (sameFile_iff.mpr h.file) (List.find?_eq_none.mp hfind e he)
    | some e' =>
        have hfile : e'.file = e.file := (sameFile_iff.mp (List.find?_some hfind)).trans h.file.symm
        exact congrArg some (List.inj_on_of_nodup_map (hfiles plan (Table.mem_of_get hplan).1)
          (List.mem_of_find?_eq_some hfind) he hfile)
  have hadmitted : admitUpload services a r = .ok (plan, some e) :=
    admitUpload_eq_some_iff.mpr ⟨h.plan ▸ hplan, h.valid, h.area plan hplan, hexisting⟩
  simp only [postEvidence, hadmitted, h.commit]

/-! ## What a failure leaves -/

/-- The copy that a promotion makes. -/
def copyOf (o : StoredObject) (destination : String) : StoredObject := { o with key := destination }

/-- The areas of a plan share no keys. -/
theorem not_areaKeys_prefix (t : Tenant) (plan : MeasurementPlan) (name : String) :
    ¬(areaKeys t plan "uploads").toList <+: (areaKeys t plan "evidence" ++ name).toList := by
  have huploads : "uploads".toList = ['u', 'p', 'l', 'o', 'a', 'd', 's'] := by decide
  have hevidence : "evidence".toList = ['e', 'v', 'i', 'd', 'e', 'n', 'c', 'e'] := by decide
  unfold areaKeys
  generalize "organizations/" ++ uuidHex t.organization.id ++ "/measurements/" ++
    uuidHex plan.id ++ "/" = base
  simp only [String.toList_append, List.append_assoc, List.prefix_append_right_inj]
  rw [huploads, hevidence]
  intro h
  exact absurd (List.cons_prefix_cons.mp h).1 (by decide)

/-- The key of the copy is no key of an upload. -/
theorem source_ne_destination {source : String} (h : inUploads t plan source = true) :
    source ≠ r.destination services t plan := by
  rintro rfl
  simp only [inUploads, Bool.and_eq_true, List.isPrefixOf_iff_prefix] at h
  exact not_areaKeys_prefix t plan _ h.1

/-- Interference touches the upload only. -/
theorem mem_keys_interfere {h : Hazards} {source k : String} {objects : Objects}
    (hne : k ≠ source) : k ∈ Table.keys (h.interfere source objects) ↔ k ∈ Table.keys objects := by
  unfold Hazards.interfere
  split
  · rfl
  · simp [mem_keys_remove, hne]
  · simp [mem_keys_store, hne]

section Promotion

variable {p : Promotion} {objects : Objects} {source destination : String} {o : StoredObject}

/-- A copy is described as its original was. -/
theorem objectMetadata_copy (services : Services) (o : StoredObject) (objects : Objects)
    (destination : String) :
    objectMetadata services none (store (copyOf o destination) objects) destination =
      .ok (some ((copyOf o destination).metadata services)) := by
  have hget : Table.get destination (store (copyOf o destination) objects) =
      some (copyOf o destination) := get_store (copyOf o destination) objects
  simp [objectMetadata, hget]

/-- A copy that is read back is the promoted object. -/
theorem promoteObject_of_copied (hget : Table.get source objects = some o) (hcopy : p.copy = none)
    (hread : p.readBack = none) (hfresh : destination ∉ Table.keys objects) :
    promoteObject services p objects source destination =
      (.ok (some ((copyOf o destination).metadata services)),
        store (copyOf o destination) objects) := by
  have hmetadata := objectMetadata_copy services o objects destination
  unfold copyOf at hmetadata ⊢
  simp only [promoteObject, hget, hcopy, hread, hmetadata, if_neg hfresh]
  split <;> rfl

/-- A copy that cannot be read back is removed again where there is a client to do it. -/
theorem promoteObject_of_unread {e : Raised} (hget : Table.get source objects = some o)
    (hcopy : p.copy = none) (hread : p.readBack = some e)
    (hfresh : destination ∉ Table.keys objects) :
    promoteObject services p objects source destination =
      if services.client = true then
        undoPromotion p (store (copyOf o destination) objects) destination
      else (.error e, store (copyOf o destination) objects) := by
  unfold copyOf
  simp only [promoteObject, hget, hcopy, hread, objectMetadata, if_neg hfresh]
  split <;> simp_all

/-- The copy stays only when its removal fails. -/
theorem mem_keys_undoPromotion : destination ∈ Table.keys (undoPromotion p objects destination).2 ↔
    destination ∈ Table.keys objects ∧ p.undo ≠ none := by
  unfold undoPromotion deleteObject
  split
  · simp_all
  · simp_all [mem_keys_remove]

/-- Without a copy there is nothing to remove. -/
theorem promoteObject_of_uncopied (h : ∀ o, Table.get source objects = some o → p.copy ≠ none)
    (hfresh : destination ∉ Table.keys objects) :
    destination ∉ Table.keys (promoteObject services p objects source destination).2 := by
  cases hget : Table.get source objects with
  | none =>
      simp only [promoteObject, hget]
      split
      · exact fun hmem => hfresh (mem_keys_undoPromotion.mp hmem).1
      · exact hfresh
  | some o =>
      obtain ⟨e, hcopy⟩ := Option.ne_none_iff_exists'.mp (h o hget)
      simp only [promoteObject, hget, hcopy, if_neg hfresh]
      split
      · exact fun hmem => hfresh (mem_keys_undoPromotion.mp hmem).1
      · exact hfresh

/-- The copy stays only when the compensation fails. -/
theorem mem_keys_compensate {α : Type} {h : Hazards} {e : Raised} :
    destination ∈ Table.keys (compensate h objects destination e : Except Raised α × Objects).2 ↔
      destination ∈ Table.keys objects ∧ h.compensation ≠ none := by
  unfold compensate deleteObject
  cases hc : h.compensation with
  | some e' => simp
  | none => simp [mem_keys_remove]

/-- The ways in which a request fails after its promotion and keeps the copy. -/
inductive Kept (services : Services) (t : Tenant) (r : EvidencePost) (destination : String)
    (promoted : Option Metadata) (objects : Objects) : Prop where
  | mismatched (differs : metadataMatches promoted r.data = false)
      (stays : r.hazards.compensation ≠ none)
  | refused (matches' : metadataMatches promoted r.data = true) (e : Raised)
      (check : validateInvoiceAttachment services r.hazards.recheck objects destination
        r.data.contentType r.data.size = .error e)
      (stays : e.isValueOrOs = true → r.hazards.compensation ≠ none)
  | uninserted (matches' : metadataMatches promoted r.data = true)
      (check : validateInvoiceAttachment services r.hazards.recheck objects destination
        r.data.contentType r.data.size = .ok ())
      (refused : ¬Insertable t r destination) (stays : r.hazards.compensation ≠ none)
  | unrecorded (matches' : metadataMatches promoted r.data = true)
      (check : validateInvoiceAttachment services r.hazards.recheck objects destination
        r.data.contentType r.data.size = .ok ())
      (inserted : Insertable t r destination)
      (fails : r.hazards.audit ≠ none ∨ r.hazards.commit ≠ none)

/-- What is left of the copy if the commit of the recorded row fails too. -/
def KeptCopy (r : EvidencePost) (destination : String)
    (recorded : Except Raised (MeasurementPlan × Evidence) × Objects) : Prop :=
  (recorded.1.isOk = true → r.hazards.commit ≠ none) ∧ destination ∈ Table.keys recorded.2

/-- A failed request keeps its copy exactly when the compensation fails. -/
theorem keptCopy_compensate {e : Raised} (hmem : destination ∈ Table.keys objects) :
    KeptCopy r destination (compensate r.hazards objects destination e) ↔
      r.hazards.compensation ≠ none := by
  have hfails : (compensate r.hazards objects destination e :
      Except Raised (MeasurementPlan × Evidence) × Objects).1.isOk = true →
        r.hazards.commit ≠ none := by
    intro hok
    obtain ⟨x, hx⟩ := isOk_iff.mp hok
    exact absurd hx compensate_ne_ok
  unfold KeptCopy
  rw [mem_keys_compensate, and_iff_right hfails, and_iff_right hmem]

/-- When a copy that was made is kept though its row is not. -/
theorem keptCopy_recordCopy_iff {promoted : Option Metadata}
    (hmem : destination ∈ Table.keys objects) :
    KeptCopy r destination (recordCopy services t plan r destination promoted objects) ↔
      Kept services t r destination promoted objects := by
  -- Along the source: the metadata, the re-check, the row, and last the audit entry and the
  -- commit.
  cases hmatches : metadataMatches promoted r.data with
  | false =>
      simp only [recordCopy, hmatches, if_true]
      rw [keptCopy_compensate hmem]
      constructor
      · exact .mismatched hmatches
      · intro h
        cases h with
        | mismatched _ stays => exact stays
        | refused h | uninserted h | unrecorded h => rw [hmatches] at h; contradiction
  | true =>
      cases hcheck : validateInvoiceAttachment services r.hazards.recheck objects destination
          r.data.contentType r.data.size with
      | error e =>
          have hkept : KeptCopy r destination
              (recordCopy services t plan r destination promoted objects) ↔
              (e.isValueOrOs = true → r.hazards.compensation ≠ none) := by
            simp only [recordCopy, hmatches, hcheck, Bool.true_eq_false, if_false]
            split
            · rename_i hcaught
              rw [keptCopy_compensate hmem, imp_iff_right hcaught]
            · rename_i huncaught
              exact iff_of_true ⟨fun hok => absurd hok Bool.false_ne_true, hmem⟩
                fun hcaught => absurd hcaught huncaught
          rw [hkept]
          constructor
          · exact .refused hmatches e hcheck
          · intro h
            cases h with
            | mismatched differs => rw [hmatches] at differs; contradiction
            | refused _ e' check stays => exact Except.error.inj (check.symm.trans hcheck) ▸ stays
            | uninserted _ check | unrecorded _ check => rw [hcheck] at check; contradiction
      | ok u =>
          cases hcreated : createEvidence t plan r destination with
          | error e =>
              -- The row was refused, so the constraints do not admit it.
              have hrefused : ¬Insertable t r destination := by
                have hiff : (createEvidence t plan r destination).isOk = true ↔
                    Insertable t r destination := createEvidence_isOk_iff
                rw [← hiff, hcreated]
                exact Bool.false_ne_true
              simp only [recordCopy, hmatches, hcheck, hcreated, Bool.true_eq_false, if_false]
              rw [keptCopy_compensate hmem]
              constructor
              · exact .uninserted hmatches hcheck hrefused
              · intro h
                cases h with
                | mismatched differs => rw [hmatches] at differs; contradiction
                | refused _ e' check => rw [hcheck] at check; contradiction
                | uninserted _ _ _ stays => exact stays
                | unrecorded _ _ inserted => exact absurd inserted hrefused
          | ok recorded =>
              have hinserted : Insertable t r destination :=
                createEvidence_isOk_iff.mp (isOk_iff.mpr ⟨recorded, hcreated⟩)
              have hkept : KeptCopy r destination
                  (recordCopy services t plan r destination promoted objects) ↔
                  r.hazards.audit ≠ none ∨ r.hazards.commit ≠ none := by
                simp only [recordCopy, hmatches, hcheck, hcreated, Bool.true_eq_false, if_false]
                cases haudit : r.hazards.audit with
                | some e =>
                    exact iff_of_true ⟨fun hok => absurd hok Bool.false_ne_true, hmem⟩
                      (.inl (Option.some_ne_none e))
                | none =>
                    simp only [KeptCopy, ne_eq, not_true_eq_false, false_or]
                    exact ⟨fun h => h.1 rfl, fun h => ⟨fun _ => h, hmem⟩⟩
              rw [hkept]
              constructor
              · exact .unrecorded hmatches hcheck hinserted
              · intro h
                cases h with
                | mismatched differs => rw [hmatches] at differs; contradiction
                | refused _ e' check => rw [hcheck] at check; contradiction
                | uninserted _ _ refused => exact absurd hinserted refused
                | unrecorded _ _ _ fails => exact fails

/-- Nothing after the promotion brings an object back. -/
theorem not_keptCopy_of_not_mem {promoted : Option Metadata}
    (h : destination ∉ Table.keys objects) :
    ¬KeptCopy r destination (recordCopy services t plan r destination promoted objects) := by
  have hcompensate : ∀ e, destination ∉ Table.keys (compensate r.hazards objects destination e :
      Except Raised (MeasurementPlan × Evidence) × Objects).2 :=
    fun e hmem => h (mem_keys_compensate.mp hmem).1
  rintro ⟨-, hmem⟩
  unfold recordCopy at hmem
  split at hmem
  · exact hcompensate _ hmem
  · split at hmem
    · split at hmem
      · exact hcompensate _ hmem
      · exact h hmem
    · split at hmem
      · exact hcompensate _ hmem
      · split at hmem <;> exact h hmem

end Promotion

/-! ## What a request leaves -/

/-- The upload is copied: the request is admitted, and what lies under the key of the
upload then, `o`, is copied under a key that is not taken. -/
structure Copies (services : Services) (a : Archive) (r : EvidencePost) (plan : MeasurementPlan)
    (o : StoredObject) : Prop where
  admitted : Admitted services a r plan
  upload : Table.get r.data.source (r.hazards.interfere r.data.source a.objects) = some o
  copied : r.hazards.promotion.copy = none
  fresh : r.destination services a.tenant plan ∉ Table.keys a.objects

/-- The store with the copy. -/
def EvidencePost.copied (services : Services) (a : Archive) (r : EvidencePost)
    (plan : MeasurementPlan) (o : StoredObject) : Objects :=
  store (copyOf o (r.destination services a.tenant plan))
    (r.hazards.interfere r.data.source a.objects)

/-- **The failures that nothing undoes**: the copy is made and cannot be read back, or it
is read back and the request fails later on. -/
inductive Uncompensated (services : Services) (a : Archive) (r : EvidencePost) : Prop where
  | unread (plan : MeasurementPlan) (o : StoredObject) (copies : Copies services a r plan o)
      (fails : r.hazards.promotion.readBack ≠ none)
      (stays : services.client = true →
        r.hazards.promotion.undo ≠ none ∧ r.hazards.compensation ≠ none)
  | kept (plan : MeasurementPlan) (o : StoredObject) (copies : Copies services a r plan o)
      (reads : r.hazards.promotion.readBack = none)
      (kept : Kept services a.tenant r (r.destination services a.tenant plan)
        (some ((copyOf o (r.destination services a.tenant plan)).metadata services))
        (r.copied services a plan o))

/-- The request fails, and its copy is in the store where none was before. -/
def LeavesCopy (services : Services) (a : Archive) (r : EvidencePost) : Prop :=
  (postEvidence services a r).1.isOk = false ∧
    ∃ plan, Table.get r.planId a.tenant.plans = some plan ∧
      r.destination services a.tenant plan ∈ Table.keys (postEvidence services a r).2.objects ∧
      r.destination services a.tenant plan ∉ Table.keys a.objects

/-- What lies under the key of the copy after a promotion that did not raise. -/
theorem postEvidence_of_promoted {promoted : Option Metadata} {objects : Objects}
    (hadmitted : Admitted services a r plan)
    (hpromoted : promoteObject services r.hazards.promotion
      (r.hazards.interfere r.data.source a.objects) r.data.source
      (r.destination services a.tenant plan) = (.ok promoted, objects)) :
    ((postEvidence services a r).1.isOk = false ∧
      r.destination services a.tenant plan ∈ Table.keys (postEvidence services a r).2.objects) ↔
    KeptCopy r (r.destination services a.tenant plan)
      (recordCopy services a.tenant plan r (r.destination services a.tenant plan) promoted
        objects) := by
  simp only [postEvidence, admitUpload_eq_none_iff.mpr hadmitted, hpromoted]
  cases hrecorded : recordCopy services a.tenant plan r (r.destination services a.tenant plan)
      promoted objects with
  | mk result objects' =>
      cases result with
      | error e =>
          simp only [KeptCopy]
          exact and_congr_left fun _ => iff_of_true rfl fun hok => absurd hok Bool.false_ne_true
      | ok recorded =>
          cases hcommit : r.hazards.commit with
          | some e =>
              simp only [KeptCopy, hcommit]
              exact and_congr_left fun _ => iff_of_true rfl fun _ => Option.some_ne_none e
          | none =>
              refine iff_of_false (fun h => absurd h.1.symm Bool.false_ne_true) fun h => ?_
              exact h.1 rfl hcommit

/-- The destination is still free after the interference. -/
theorem Copies.not_mem_interfere {o : StoredObject} (h : Copies services a r plan o) :
    r.destination services a.tenant plan ∉
      Table.keys (r.hazards.interfere r.data.source a.objects) := by
  rw [mem_keys_interfere (source_ne_destination h.admitted.area).symm]
  exact h.fresh

/-- **What the promotion leads to**: the request fails and leaves its copy exactly if the
failure is one of those that nothing undoes. -/
theorem Copies.leaves_iff {o : StoredObject} (h : Copies services a r plan o) :
    ((postEvidence services a r).1.isOk = false ∧
      r.destination services a.tenant plan ∈ Table.keys (postEvidence services a r).2.objects) ↔
    (r.hazards.promotion.readBack ≠ none ∧ (services.client = true →
      r.hazards.promotion.undo ≠ none ∧ r.hazards.compensation ≠ none)) ∨
    (r.hazards.promotion.readBack = none ∧ Kept services a.tenant r
      (r.destination services a.tenant plan)
      (some ((copyOf o (r.destination services a.tenant plan)).metadata services))
      (r.copied services a plan o)) := by
  -- The copy is stored at this point, whether or not it can be read back.
  have hstored : r.destination services a.tenant plan ∈ Table.keys (r.copied services a plan o) :=
    mem_keys_store.mpr (.inl rfl)
  cases hread : r.hazards.promotion.readBack with
  | none =>
      have hpromoted := @promoteObject_of_copied services _ _ _ _ _ h.upload h.copied hread
        h.not_mem_interfere
      rw [postEvidence_of_promoted h.admitted hpromoted]
      simp only [ne_eq, not_true_eq_false, false_and, false_or, true_and]
      exact keptCopy_recordCopy_iff hstored
  | some e =>
      have hpromoted := @promoteObject_of_unread services _ _ _ _ _ _ h.upload h.copied hread
        h.not_mem_interfere
      simp only [ne_eq, reduceCtorEq, not_false_eq_true, true_and, false_and, or_false]
      -- Without a client the error is raised as it is; with one the destination is deleted first.
      cases hclient : services.client with
      | false =>
          rw [hclient, if_neg Bool.false_ne_true] at hpromoted
          simp only [postEvidence, admitUpload_eq_none_iff.mpr h.admitted, hpromoted]
          exact iff_of_true ⟨rfl, hstored⟩ fun hfalse => absurd hfalse Bool.false_ne_true
      | true =>
          rw [hclient, if_pos rfl] at hpromoted
          rw [postEvidence_of_promoted h.admitted hpromoted, imp_iff_right rfl]
          by_cases hundo : r.hazards.promotion.undo = none
          · refine iff_of_false (not_keptCopy_of_not_mem ?_) fun hkept => hkept.1 hundo
            exact fun hmem => (mem_keys_undoPromotion.mp hmem).2 hundo
          · refine (keptCopy_recordCopy_iff
              (mem_keys_undoPromotion.mpr ⟨hstored, hundo⟩)).trans ?_
            rw [and_iff_right hundo]
            constructor
            · intro hkept
              cases hkept with
              | mismatched _ stays => exact stays
              | refused h | uninserted h | unrecorded h => exact absurd h Bool.false_ne_true
            · exact .mismatched rfl

/-- A request whose copy passes and whose row is created is answered as the audit and the
transaction let it. -/
theorem Copies.posted {o : StoredObject} {plan' : MeasurementPlan} (h : Copies services a r plan o)
    (hread : r.hazards.promotion.readBack = none)
    (hmatches : metadataMatches
      (some ((copyOf o (r.destination services a.tenant plan)).metadata services)) r.data = true)
    (hcheck : validateInvoiceAttachment services r.hazards.recheck (r.copied services a plan o)
      (r.destination services a.tenant plan) r.data.contentType r.data.size = .ok ())
    (hcreated : createEvidence a.tenant plan r (r.destination services a.tenant plan) =
      .ok (plan', e)) :
    postEvidence services a r =
      match r.hazards.audit.or r.hazards.commit with
      | some fault => (.error fault, { a with objects := r.copied services a plan o })
      | none => (.ok e, {
          tenant := a.tenant.putPlan plan'
          objects := r.copied services a plan o
          cleanups := r.data.source :: a.cleanups }) := by
  have hpromoted := @promoteObject_of_copied services _ _ _ _ _ h.upload h.copied hread
    h.not_mem_interfere
  unfold EvidencePost.copied at hcheck ⊢
  simp only [postEvidence, admitUpload_eq_none_iff.mpr h.admitted, hpromoted, recordCopy, hmatches,
    hcheck, hcreated, Bool.true_eq_false, if_false]
  cases r.hazards.audit with
  | some fault => rfl
  | none => cases r.hazards.commit <;> rfl

/-- A request that copies nothing leaves no copy. -/
theorem not_mem_of_not_copies (hfound : Table.get r.planId a.tenant.plans = some plan)
    (hfresh : r.destination services a.tenant plan ∉ Table.keys a.objects)
    (h : ∀ o, ¬Copies services a r plan o) :
    ¬((postEvidence services a r).1.isOk = false ∧
      r.destination services a.tenant plan ∈ Table.keys (postEvidence services a r).2.objects) := by
  rintro ⟨hfails, hmem⟩
  have hsame : (postEvidence services a r).2.objects ≠ a.objects := by
    intro hobjects
    exact hfresh (hobjects ▸ hmem)
  cases hadmit : admitUpload services a r with
  | error e => exact hsame (by simp only [postEvidence, hadmit])
  | ok admitted =>
      obtain ⟨plan', existing⟩ := admitted
      cases existing with
      | some e =>
          refine hsame ?_
          simp only [postEvidence, hadmit]
          split <;> rfl
      | none =>
          have hadmitted := admitUpload_eq_none_iff.mp hadmit
          obtain rfl : plan = plan' := Option.some.inj (hfound.symm.trans hadmitted.found)
          have hclear : r.destination services a.tenant plan ∉
              Table.keys (r.hazards.interfere r.data.source a.objects) := by
            rw [mem_keys_interfere (source_ne_destination hadmitted.area).symm]
            exact hfresh
          have huncopied := @promoteObject_of_uncopied services r.hazards.promotion _ _ _
            (fun o hget hcopy => h o ⟨hadmitted, hget, hcopy, hfresh⟩) hclear
          cases hpromoted : promoteObject services r.hazards.promotion
              (r.hazards.interfere r.data.source a.objects) r.data.source
              (r.destination services a.tenant plan) with
          | mk result objects =>
              rw [hpromoted] at huncopied
              cases result with
              | error e =>
                  simp only [postEvidence, hadmit, hpromoted] at hmem
                  exact huncopied hmem
              | ok promoted =>
                  exact not_keptCopy_of_not_mem huncopied
                    ((postEvidence_of_promoted hadmitted hpromoted).mp ⟨hfails, hmem⟩)

/-- **A request leaves its copy behind exactly if it meets a failure that nothing undoes.** -/
theorem leavesCopy_iff : LeavesCopy services a r ↔ Uncompensated services a r := by
  constructor
  · rintro ⟨hfails, plan, hfound, hmem, hfresh⟩
    by_cases hcopies : ∃ o, Copies services a r plan o
    · obtain ⟨o, hcopies⟩ := hcopies
      rcases hcopies.leaves_iff.mp ⟨hfails, hmem⟩ with ⟨hread, hstays⟩ | ⟨hread, hkept⟩
      · exact .unread plan o hcopies hread hstays
      · exact .kept plan o hcopies hread hkept
    · exact absurd ⟨hfails, hmem⟩ (not_mem_of_not_copies hfound hfresh (not_exists.mp hcopies))
  · intro h
    cases h with
    | unread plan o copies fails stays =>
        obtain ⟨hfails, hmem⟩ := copies.leaves_iff.mpr (.inl ⟨fails, stays⟩)
        exact ⟨hfails, plan, copies.admitted.found, hmem, copies.fresh⟩
    | kept plan o copies reads kept =>
        obtain ⟨hfails, hmem⟩ := copies.leaves_iff.mpr (.inr ⟨reads, kept⟩)
        exact ⟨hfails, plan, copies.admitted.found, hmem, copies.fresh⟩

/-- A request that fails leaves neither a row nor its copy. -/
def LeavesNothing (services : Services) (a : Archive) (r : EvidencePost) : Prop :=
  (postEvidence services a r).1.isOk = false →
    (postEvidence services a r).2.tenant = a.tenant ∧
    ∀ plan, Table.get r.planId a.tenant.plans = some plan →
      r.destination services a.tenant plan ∈ Table.keys (postEvidence services a r).2.objects →
      r.destination services a.tenant plan ∈ Table.keys a.objects

/-- A failed request leaves nothing exactly when it does not fail beyond compensation. -/
theorem leavesNothing_iff : LeavesNothing services a r ↔ ¬Uncompensated services a r := by
  rw [← leavesCopy_iff]
  constructor
  · rintro h ⟨hfails, plan, hfound, hmem, hfresh⟩
    exact hfresh ((h hfails).2 plan hfound hmem)
  · intro h hfails
    refine ⟨?_, fun plan hfound hmem => ?_⟩
    · have hposted := postEvidence_posted services a r
      generalize postEvidence services a r = posted at hposted hfails ⊢
      obtain ⟨answer, a'⟩ := posted
      cases hposted with
      | failed e objects => rfl
      | found plan e found valid existing => exact absurd hfails.symm Bool.false_ne_true
      | recorded plan e objects destination found valid new created =>
          exact absurd hfails.symm Bool.false_ne_true
    · by_contra hfresh
      exact h ⟨hfails, plan, hfound, hmem, hfresh⟩

/-- **Finalizing evidence.**  In every run of uploads, requests and clean-ups: a plan has
one row for a file; a later request for the file of a row is answered with that row, be
the upload there or not; and the requests that fail leave neither a row nor a copy exactly
if none of them meets a failure that nothing undoes. -/
theorem evidence_finalized (services : Services) (a : Archive) (hfiles : FilesOnce a.tenant)
    (events : List ArchiveEvent) :
    FilesOnce (run (Archive.handle services) a events).tenant ∧
    (∀ planId e, HasEvidence (run (Archive.handle services) a events).tenant planId e →
      ∀ later r, Retries (run (Archive.handle services) a (events ++ later)).tenant r planId e →
        postEvidence services (run (Archive.handle services) a (events ++ later)) r =
          (.ok e, run (Archive.handle services) a (events ++ later))) ∧
    (Along (Archive.handle services)
        (fun a event => ∀ r, event = .finalize r → LeavesNothing services a r) a events ↔
      Along (Archive.handle services)
        (fun a event => ∀ r, event = .finalize r → ¬Uncompensated services a r) a events) := by
  refine ⟨hfiles.run events, fun planId e hrow later r hretries => ?_, ?_⟩
  · refine postEvidence_of_retries (hfiles.run _) ?_ hretries
    rw [run_append]
    exact hrow.run later
  · refine along_congr (fun a event => ?_) events a
    exact forall_congr' fun r => forall_congr' fun _ => leavesNothing_iff

/-! ## An uploaded report -/

namespace Upload

/-- Eight bytes, `%PDF-1.7`. -/
def report : List UInt8 := [37, 80, 68, 70, 45, 49, 46, 55]

def reportDigest : String := "86edbaa24831badfa0a8b04bb410141e2ee4182b6d0014493fe262a7a331c20b"

def bucket : Services where
  client := true
  sha256 := fun content => if content = report then reportDigest else ""
  verify := fun _ => some .osError
  image := fun _ => .error .osError
  isAlnum := Char.isAlphanum

/-- The plan 20000 before any evidence of it. -/
def tenant : Tenant := run (Tenant.handle Sample.sha) Sample.tenant Sample.planned

def uploadKey : String :=
  "organizations/" ++ uuidHex tenant.organization.id ++ "/measurements/" ++ uuidHex 20000 ++
    "/uploads/" ++ uuidHex 77 ++ "-survey.pdf"

/-- The report is uploaded. -/
def archive : Archive where
  tenant := tenant
  objects := [⟨uploadKey, report, "application/pdf", "8"⟩]
  cleanups := []

def post (hazards : Hazards) : EvidencePost where
  ctx := Sample.ctx 3
  actor := 1
  planId := 20000
  data := ⟨"survey.pdf", "application/pdf", 8, "sha256:" ++ reportDigest, some uploadKey⟩
  hazards := hazards

/-- The audit row of the first request cannot be written; the second request goes through,
and its upload is removed. -/
def finalized : List ArchiveEvent := [
  .finalize (post { audit := some (.other "OperationalError") }),
  .finalize { post {} with ctx := Sample.ctx 4 },
  .cleanUp uploadKey none]

/-- The archive after these. -/
def closed : Archive := run (Archive.handle bucket) archive finalized

/-- The sample has its plan. -/
theorem planned : (Table.get 20000 tenant.plans).isSome = true := by decide

/-- The row of the second request. -/
def row : Evidence where
  id := 40000
  objectKey := { post {} with ctx := Sample.ctx 4 }.destination bucket tenant
    ((Table.get 20000 tenant.plans).get planned)
  fileName := "survey.pdf"
  contentType := "application/pdf"
  size := 8
  checksum := "sha256:" ++ reportDigest
  uploadedBy := 1
  createdAt := 1767225604

/-- What was uploaded. -/
def upload : StoredObject := ⟨uploadKey, report, "application/pdf", "8"⟩

/-- The plan it is for. -/
def surveyed : MeasurementPlan := (Table.get 20000 tenant.plans).get planned

/-- The plan of the sample, looked up. -/
theorem found : Table.get 20000 tenant.plans = some surveyed := (Option.some_get planned).symm

/-- The request of the sample is valid. -/
theorem valid (hazards : Hazards) : (post hazards).data.validate = .ok () := by
  show EvidenceRequest.validate
    ⟨"survey.pdf", "application/pdf", 8, "sha256:" ++ reportDigest, some uploadKey⟩ = .ok ()
  decide +kernel

/-- The upload lies in the area of its plan. -/
theorem area : inUploads tenant surveyed uploadKey = true := by decide +kernel

/-- The upload is described as the request says. -/
theorem matches_upload : metadataMatches (some (upload.metadata bucket)) (post {}).data = true := by
  decide

/-- The copy of the upload is described as the upload. -/
theorem metadata_copy (destination : String) :
    (copyOf upload destination).metadata bucket = upload.metadata bucket := by
  rw [StoredObject.metadata, StoredObject.metadata, copyOf]

/-- The report is a document of its type. -/
theorem content_upload : validateContent bucket report "application/pdf" = .ok () := by
  decide

/-- The report passes the checks wherever it is stored. -/
theorem checked {objects : Objects} {k : String} {o : StoredObject}
    (hget : Table.get k objects = some o) (hcontent : o.content = report) :
    validateInvoiceAttachment bucket none objects k "application/pdf" 8 = .ok () := by
  have hfile : ¬(("application/pdf" ≠ "application/pdf" ∧
      allowedImages.lookup "application/pdf" = none) ∨ ¬(1 ≤ 8 ∧ 8 ≤ maxSize)) := by decide
  rw [validateInvoiceAttachment, raiseIf_of_not hfile, ok_bind, raiseSome, ok_bind,
    orRaise_of_some hget, ok_bind, hcontent]
  exact content_upload

/-- The row of the sample, where the insertion goes through. -/
theorem created {r : EvidencePost} (hinsert : r.hazards.insert = none) (destination : String) :
    let e : Evidence := ⟨r.ctx.uuid 0, destination, r.data.fileName, r.data.contentType,
      r.data.size, r.data.checksum, r.actor, r.ctx.now⟩
    createEvidence tenant surveyed r destination =
      .ok ({ surveyed with evidence := surveyed.evidence ++ [e] }, e) := by
  have hids : (tenant.plans.flatMap fun p => Table.keys p.evidence) = [] := by decide
  have hkeys : (tenant.plans.flatMap fun p => p.evidence.map Evidence.objectKey) = [] := by
    decide
  rw [createEvidence, hinsert, raiseSome, ok_bind, hids, hkeys, raiseIf_of_not List.not_mem_nil,
    ok_bind, raiseIf_of_not List.not_mem_nil, ok_bind]
  rfl

section Requests

variable {objects : Objects} {cleanups : List String} {r : EvidencePost}

/-- The requests copy the upload under keys of their own. -/
theorem copies (hget : Table.get uploadKey objects = some upload) (hplan : r.planId = 20000)
    (hdata : r.data = (post {}).data) (hmetadata : r.hazards.metadata = none)
    (hvalidation : r.hazards.validation = none) (hinterference : r.hazards.interference = none)
    (hcopy : r.hazards.promotion.copy = none)
    (hfresh : r.destination bucket tenant surveyed ∉ Table.keys objects) :
    Copies bucket ⟨tenant, objects, cleanups⟩ r surveyed upload := by
  have hsource : r.data.source = uploadKey := by
    rw [hdata]
    rfl
  have hnone : surveyed.evidence = [] := by decide
  have hinterfere : r.hazards.interfere uploadKey objects = objects := by
    rw [Hazards.interfere, hinterference]
  refine ⟨⟨hplan ▸ found, hdata ▸ valid {}, hsource ▸ area, ?_,
    ⟨some (upload.metadata bucket), ?_, hdata ▸ matches_upload⟩, ?_⟩, ?_, hcopy, hfresh⟩
  · rw [hnone, List.find?_nil]
  · rw [hsource, hmetadata, objectMetadata, hget]
    rfl
  · rw [hsource, hvalidation, hdata]
    exact checked hget rfl
  · rw [hsource, hinterfere]
    exact hget

/-- A request of the sample is answered as its audit lets it. -/
theorem posted
    (hcopies : Copies bucket ⟨tenant, objects, cleanups⟩ r surveyed upload)
    (hdata : r.data = (post {}).data) (hinterference : r.hazards.interference = none)
    (hread : r.hazards.promotion.readBack = none) (hrecheck : r.hazards.recheck = none)
    (hinsert : r.hazards.insert = none) (hcommit : r.hazards.commit = none) :
    let destination := r.destination bucket tenant surveyed
    let copied := store (copyOf upload destination) objects
    let e : Evidence := ⟨r.ctx.uuid 0, destination, "survey.pdf", "application/pdf", 8,
      "sha256:" ++ reportDigest, r.actor, r.ctx.now⟩
    postEvidence bucket ⟨tenant, objects, cleanups⟩ r =
      match r.hazards.audit with
      | some fault => (.error fault, ⟨tenant, copied, cleanups⟩)
      | none => (.ok e, ⟨tenant.putPlan { surveyed with evidence := surveyed.evidence ++ [e] },
          copied, uploadKey :: cleanups⟩) := by
  have hcopied : r.copied bucket ⟨tenant, objects, cleanups⟩ surveyed upload =
      store (copyOf upload (r.destination bucket tenant surveyed)) objects := by
    rw [EvidencePost.copied, Hazards.interfere, hinterference]
  have hget' := get_store (copyOf upload (r.destination bucket tenant surveyed)) objects
  have hmatches : metadataMatches (some ((copyOf upload
      (r.destination bucket tenant surveyed)).metadata bucket)) r.data = true := by
    rw [metadata_copy, hdata, matches_upload]
  have hcheck : validateInvoiceAttachment bucket r.hazards.recheck
      (r.copied bucket ⟨tenant, objects, cleanups⟩ surveyed upload)
      (r.destination bucket tenant surveyed) r.data.contentType r.data.size = .ok () := by
    rw [hrecheck, hcopied, hdata]
    exact checked hget' rfl
  rw [hcopies.posted hread hmatches hcheck (created hinsert _), hcommit, Option.or_none, hcopied,
    hdata]
  rfl

end Requests

/-- The key of a copy of the upload. -/
def copyKey (n : ℕ) : String :=
  { post {} with ctx := Sample.ctx n }.destination bucket tenant surveyed

/-- Two requests copy to two keys. -/
theorem copyKey_ne : copyKey 4 ≠ copyKey 3 := by
  intro h
  have huuid : uuidHex ((Sample.ctx 4).uuid 30) ++ "-" = uuidHex ((Sample.ctx 3).uuid 30) ++ "-" :=
    (String.append_left_inj _).mp ((String.append_right_inj _).mp h)
  exact absurd ((String.append_left_inj _).mp huuid) (by decide)

/-- A copy is never the upload. -/
theorem uploadKey_ne (n : ℕ) : uploadKey ≠ copyKey n := source_ne_destination area

/-- The first request fails, and its copy stays. -/
theorem rejected : postEvidence bucket archive (post { audit := some (.other "OperationalError") }) =
    (.error (.other "OperationalError"),
      { archive with objects := store (copyOf upload (copyKey 3)) [upload] }) := by
  have hget : Table.get uploadKey [upload] = some upload := by simp [Table.get, upload, key]
  have hfresh : copyKey 3 ∉ Table.keys [upload] := by
    rw [Table.keys_cons, Table.keys_nil, List.mem_singleton]
    exact (uploadKey_ne 3).symm
  exact posted (copies hget rfl rfl rfl rfl rfl rfl hfresh) rfl rfl rfl rfl rfl rfl

/-- The second request goes through. -/
theorem accepted : postEvidence bucket
    { archive with objects := store (copyOf upload (copyKey 3)) [upload] }
    { post {} with ctx := Sample.ctx 4 } =
      (.ok row, {
        tenant := tenant.putPlan { surveyed with evidence := surveyed.evidence ++ [row] }
        objects := store (copyOf upload (copyKey 4)) (store (copyOf upload (copyKey 3)) [upload])
        cleanups := [uploadKey] }) := by
  have hget : Table.get uploadKey (store (copyOf upload (copyKey 3)) [upload]) = some upload := by
    simp [Table.get, store, remove, copyOf, upload, key, uploadKey_ne, (uploadKey_ne _).symm]
  have hfresh : copyKey 4 ∉ Table.keys (store (copyOf upload (copyKey 3)) [upload]) := by
    rw [mem_keys_store, Table.keys_cons, Table.keys_nil, List.mem_singleton, not_or]
    exact ⟨copyKey_ne, (uploadKey_ne 4).symm⟩
  exact posted (copies hget rfl rfl rfl rfl rfl rfl hfresh) rfl rfl rfl rfl rfl rfl

/-- The upload is gone, its two copies stay, and one of them has a row. -/
theorem closed_eq : closed = {
    tenant := tenant.putPlan { surveyed with evidence := surveyed.evidence ++ [row] }
    objects := remove uploadKey
      (store (copyOf upload (copyKey 4)) (store (copyOf upload (copyKey 3)) [upload]))
    cleanups := [] } := by
  have hfirst : serve (Archive.handle bucket) archive
      (.finalize (post { audit := some (.other "OperationalError") })) =
        { archive with objects := store (copyOf upload (copyKey 3)) [upload] } :=
    (serve_of_ok _ rfl).trans (congrArg Prod.snd rejected)
  have hsecond : serve (Archive.handle bucket)
      { archive with objects := store (copyOf upload (copyKey 3)) [upload] }
      (.finalize { post {} with ctx := Sample.ctx 4 }) = _ :=
    (serve_of_ok _ rfl).trans (congrArg Prod.snd accepted)
  rw [closed, finalized, run_cons, hfirst, run_cons, hsecond, run_cons, run_nil]
  refine @serve_of_ok _ _ _ _ _ _ _ _ none ?_
  rw [Archive.handle, if_pos List.mem_cons_self, List.erase_cons_head]
  rfl

/-- The plan with the row of the report. -/
theorem recorded : Table.get 20000 closed.tenant.plans =
    some { surveyed with evidence := surveyed.evidence ++ [row] } := by
  have hid : surveyed.id = 20000 := (Table.mem_of_get found).2
  have hget : Table.get surveyed.id tenant.plans = some surveyed := by rw [hid, found]
  rw [closed_eq, ← hid]
  exact Table.get_put_self (a := { surveyed with evidence := surveyed.evidence ++ [row] }) hget

/-- The row is of the file that is posted. -/
theorem row_file : row.file = (post {}).data.file := rfl

end Upload

/-- The second request is sent again after its upload is gone, and answered with its row. -/
theorem evidence_finalized_retried :
    Upload.uploadKey ∉ Table.keys Upload.closed.objects ∧
    (postEvidence Upload.bucket Upload.closed { Upload.post {} with ctx := Sample.ctx 5 }).1 =
      .ok Upload.row := by
  obtain ⟨-, hretry, -⟩ := evidence_finalized Upload.bucket Upload.archive (by decide)
    Upload.finalized
  have hrow : HasEvidence Upload.closed.tenant 20000 Upload.row :=
    ⟨_, Upload.recorded, List.mem_append_right _ List.mem_cons_self⟩
  have hlast := hretry 20000 Upload.row hrow [] { Upload.post {} with ctx := Sample.ctx 5 }
  rw [List.append_nil] at hlast
  have harea : ∀ plan, Table.get 20000 Upload.closed.tenant.plans = some plan →
      inUploads Upload.closed.tenant plan Upload.uploadKey = true := by
    intro plan hplan
    obtain rfl : _ = plan := Option.some.inj (Upload.recorded.symm.trans hplan)
    rw [Upload.closed_eq]
    exact Upload.area
  have hretries : Retries Upload.closed.tenant { Upload.post {} with ctx := Sample.ctx 5 } 20000
      Upload.row := {
    plan := rfl
    file := Upload.row_file
    valid := Upload.valid {}
    area := harea
    commit := rfl }
  refine ⟨?_, congrArg Prod.fst (hlast hretries)⟩
  rw [Upload.closed_eq]
  exact fun hmem => (mem_keys_remove.mp hmem).2 rfl

/-- The audit row cannot be written: the request fails without a row, and the copy of its
upload stays in the store. -/
theorem audit_failure_keeps_copy :
    (postEvidence Upload.bucket Upload.archive
      (Upload.post { audit := some (.other "OperationalError") })).1 =
        .error (.other "OperationalError") ∧
    ¬LeavesNothing Upload.bucket Upload.archive
      (Upload.post { audit := some (.other "OperationalError") }) := by
  refine ⟨congrArg Prod.fst Upload.rejected, fun h => ?_⟩
  rw [LeavesNothing, Upload.rejected] at h
  obtain ⟨-, hclean⟩ := h rfl
  have hkept := hclean Upload.surveyed Upload.found (mem_keys_store.mpr (.inl rfl))
  have hupload : Upload.copyKey 3 = Upload.uploadKey := List.mem_singleton.mp hkept
  exact Upload.uploadKey_ne 3 hupload.symm

end VesselCaller.Measurements
