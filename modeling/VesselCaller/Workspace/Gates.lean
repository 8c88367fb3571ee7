import VesselCaller.Measurements.Acceptance
import VesselCaller.Measurements.Backing
import VesselCaller.Workspace.Payload

/-!
# The gates of the reconciliation workspace

`MeasurementWorkspace` shows a plan and lets the member open a form where the plan is ready for
it.  The gates are computed in the browser, from the plan as it was sent; the server checks the
request by what it has stored.

* `Page` — the plan shown and the session it is shown in, with the values the component derives;
* `Form` — what a form sends, and `Form.Complete`, its entries taken by themselves;
* `Form.Admitted` — what the page does not compute: whether an assessment can be charged;
* `Page.offers` — the buttons: where the page lets a form be opened and submitted;
* `page_gates` — a complete form is accepted exactly when it is offered and admitted;
* `checklist_decides` — the checklist of the finalization is the server's.

Issuing an invoice is not among the forms: whether prior invoices still sum up as assessed is not
in the payload (`billable_iff_shown`).
-/

namespace VesselCaller.Workspace

open Lib Accounts Billing Operations Measurements

/-! ## The session -/

/-- `effective_permissions`, which the session payload carries. -/
def effectivePermissions (s : AccountScope) (now : Instant) (actor : Id) : List Permission :=
  match Table.get actor s.users with
  | none => []
  | some user =>
      if user.isActive s.organization = false ∨ s.organization.kind ≠ .customer ∨
          mfaEnrollmentRequired s user now = true then []
      else user.role.permissions

variable {sha : Sha256} {t : Tenant} {ctx : Ctx} {actor : Id} {p : MeasurementPlan} (w : Wire)

/-- The session says of every permission what the endpoints will. -/
theorem mem_effectivePermissions {permission : Permission} :
    permission ∈ effectivePermissions t.toAccountScope ctx.now actor ↔
      (t.authorize ctx actor permission).isOk = true := by
  simp only [effectivePermissions, Tenant.authorize, requirePermission,
    lockActiveCustomerIdentity, isOk_bind, bind_eq_ok, isOk_pure, raiseIf_eq_ok, orRaise_eq_ok,
    pure_eq_ok]
  cases hget : Table.get actor t.users with
  | none => simp
  | some user =>
      by_cases hactive : user.isActive t.organization = true
      · have hstatus : user.status = .active ∧ t.organization.accessStatus = .active := by
          simp only [User.isActive, Organization.isAccessActive, Bool.and_eq_true,
            decide_eq_true_eq] at hactive
          exact ⟨hactive.1.1, hactive.2⟩
        by_cases hmfa : mfaEnrollmentRequired t.toAccountScope user ctx.now = true
        · simp [hmfa]
        · simp [hactive, hmfa, hstatus]
      · simp [hactive]

/-! ## The page -/

structure Page where
  plan : Closeout.MeasurementPlan
  userId : Option String
  permissions : List Permission

namespace Page

variable (page : Page)

/-- `can`. -/
def can (permission : Permission) : Bool := permission ∈ page.permissions

def returns : List Closeout.Submission := Closeout.latestReturns page.plan

def final : Option Closeout.Reconciliation := Closeout.latestReconciliation page.plan (some .final)

def draft : Option Closeout.Reconciliation := Closeout.latestReconciliation page.plan (some .draft)

def cancelled : Bool := page.plan.status = .cancelled

def missingReturns : List Closeout.Participant :=
  page.plan.participants.filter fun party =>
    party.requiredSubmission && !page.returns.any (·.participantId = party.id)

def canManage : Bool := page.can .measurementsManage && !page.cancelled

def billingReady : Bool := page.final.isSome && !page.draft.isSome && !page.cancelled

def finalizeIssues : List String :=
  match page.draft with
  | some draft => Closeout.finalizationIssues page.plan draft page.userId
  | none => []

end Page

/-- The page a member has of a stored plan. -/
def Wire.page (t : Tenant) (ctx : Ctx) (actor : Id) (p : MeasurementPlan) : Page where
  plan := w.received t p
  userId := some (w.id actor)
  permissions := effectivePermissions t.toAccountScope ctx.now actor

/-! ## The forms -/

/-- The entries of `ScheduleForm`. -/
structure Schedule where
  title : String
  scheduledAt : Instant
  endsAt : Option Instant
  location : String
  leadSurveyor : String
  notes : String

/-- What the forms of the page send, next to the plan and its version. -/
inductive Form where
  | schedule (entries : Schedule)
  | cancel (reason : String)
  | recordReturn (entries : SubmissionInput)
  | proposal (entries : ReconciliationInput)
  | approval (reconciliation : Id) (entries : ApprovalInput)
  | finalize (reconciliation : Id)
  | assess (entries : AssessmentInput)

def Schedule.patch (s : Schedule) (version : ℕ) : PlanPatch where
  version := version
  title := some s.title
  scheduledAt := some s.scheduledAt
  endsAt := some s.endsAt
  location := some s.location
  leadSurveyor := some s.leadSurveyor
  notes := some s.notes

/-- `{ status: "cancelled", reason }`. -/
def cancellation (reason : String) (version : ℕ) : PlanPatch where
  version := version
  cancelled := true
  reason := some reason

/-- The request of a form that was opened on the plan as it is stored. -/
def Form.op (p : MeasurementPlan) : Form → Measurements.Op
  | .schedule entries => .patchPlan p.id (entries.patch p.version)
  | .cancel reason => .patchPlan p.id (cancellation reason p.version)
  | .recordReturn entries => .submit p.id { entries with version := p.version }
  | .proposal entries => .propose p.id { entries with version := p.version }
  | .approval rid entries => .approve p.id rid { entries with version := p.version }
  | .finalize rid => .finalize p.id rid p.version
  | .assess entries => .assess p.id { entries with version := p.version }

/-- The entries are complete.  A finalized reconciliation is answered as it stands, so that one
is not finalized again. -/
def Form.Complete (t : Tenant) (ctx : Ctx) (p : MeasurementPlan) : Form → Prop
  | .schedule entries => PatchEntries p (entries.patch p.version)
  | .cancel reason => charField 10000 false reason = true
  | .recordReturn entries => ReturnEntries t ctx p { entries with version := p.version }
  | .proposal entries => ProposalEntries t ctx p { entries with version := p.version }
  | .approval _ entries => ApprovalEntries t ctx p { entries with version := p.version }
  | .finalize rid => ∀ r ∈ p.reconciliations, r.id = rid → r.finalizedAt = none
  | .assess entries => AssessmentEntries t ctx p { entries with version := p.version }

/-- What decides on a form besides its button.  Of an assessment the page knows neither the
charges nor what was issued before: whether the lines can be charged is found out by the server,
against the reconciliation the form names.  Every other form is decided by its button. -/
def Form.Admitted (t : Tenant) (p : MeasurementPlan) : Form → Prop
  | .assess entries => ∀ r ∈ p.reconciliations, r.id = entries.reconciliationId →
      Chargeable t p { entries with version := p.version } r
  | _ => True

/-- The buttons that open a form and submit it.  Acknowledgement and finalization are of the
draft that is shown, an assessment is of the final reconciliation that is shown. -/
def Page.offers (page : Page) : Form → Bool
  | .schedule _ => page.canManage
  | .cancel _ => page.canManage && !page.final.isSome
  | .recordReturn _ => page.canManage && (!page.final.isSome || page.draft.isSome)
  | .proposal _ => page.canManage && !page.returns.isEmpty && page.missingReturns.isEmpty
  | .approval rid _ => page.canManage && page.draft.any fun draft =>
      draft.id = w.id rid && !Closeout.reconciliationStale page.plan draft
  | .finalize rid => page.can .measurementsApprove && !page.cancelled &&
      page.finalizeIssues.isEmpty && page.draft.any (·.id = w.id rid)
  | .assess entries => page.can .measurementsBill && page.billingReady &&
      page.final.any (·.id = w.id entries.reconciliationId)

/-! ## Joined keys -/

/-- Texts that were joined by a comma can be told apart again. -/
theorem intercalate_comma_injective {xs ys : List String}
    (hxs : ∀ x ∈ xs, x ≠ "" ∧ ',' ∉ x.toList) (hys : ∀ y ∈ ys, y ≠ "" ∧ ',' ∉ y.toList)
    (h : ",".intercalate xs = ",".intercalate ys) : xs = ys := by
  have hsplit : ∀ {zs : List String}, (∀ z ∈ zs, z ≠ "" ∧ ',' ∉ z.toList) → zs ≠ [] →
      (",".intercalate zs).toList.splitOn ',' = zs.map String.toList := by
    intro zs hzs hne
    rw [String.toList_intercalate]
    refine List.splitOn_intercalate ',' (fun l hl => ?_) (by simpa using hne)
    obtain ⟨z, hz, rfl⟩ := List.mem_map.mp hl
    exact (hzs z hz).2
  -- The empty list is joined to what only the empty text is joined to.
  have hempty : ∀ {zs : List String}, (∀ z ∈ zs, z ≠ "" ∧ ',' ∉ z.toList) →
      ",".intercalate zs = "" → zs = [] := by
    intro zs hzs hjoin
    by_contra hne
    have hone := hsplit hzs hne
    rw [hjoin] at hone
    obtain ⟨z, rfl⟩ : ∃ z, zs = [z] := by
      refine List.length_eq_one_iff.mp ?_
      have hlength := congrArg List.length hone
      rw [List.length_map] at hlength
      exact hlength.symm
    exact (hzs z List.mem_cons_self).1 (by simpa using hjoin)
  by_cases hnil : xs = []
  · subst hnil
    exact (hempty hys h.symm).symm
  · by_cases hnil' : ys = []
    · subst hnil'
      exact hempty hxs h
    · have hlists : xs.map String.toList = ys.map String.toList := by
        rw [← hsplit hxs hnil, ← hsplit hys hnil', h]
      exact (List.map_injective_iff.mpr fun _ _ => String.toList_inj.mp) hlists

/-- Two lists of texts are sorted alike where they have the same texts. -/
theorem sortTexts_eq_iff {xs ys : List String} :
    Closeout.sortTexts xs = Closeout.sortTexts ys ↔ xs.Perm ys := by
  constructor
  · intro h
    have hsorted := List.perm_insertionSort (· ≤ ·) xs
    rw [show xs.insertionSort (· ≤ ·) = ys.insertionSort (· ≤ ·) from h] at hsorted
    exact hsorted.symm.trans (List.perm_insertionSort (· ≤ ·) ys)
  · intro h
    have hperm : (Closeout.sortTexts xs).Perm (Closeout.sortTexts ys) :=
      (List.perm_insertionSort _ xs).trans (h.trans (List.perm_insertionSort _ ys).symm)
    exact hperm.eq_of_pairwise (fun a b _ _ hab hba => le_antisymm hab hba)
      (List.pairwise_insertionSort _ xs) (List.pairwise_insertionSort _ ys)

/-- Sorted and joined, keys say which rows there are. -/
theorem joined_eq_iff {ks ks' : List Id} :
    ",".intercalate (Closeout.sortTexts (ks.map w.id)) =
        ",".intercalate (Closeout.sortTexts (ks'.map w.id)) ↔ ks.Perm ks' := by
  have htexts : ∀ ks : List Id, ∀ x ∈ Closeout.sortTexts (ks.map w.id),
      x ≠ "" ∧ ',' ∉ x.toList := by
    intro ks x hx
    obtain ⟨k, _, rfl⟩ := List.mem_map.mp ((List.mem_insertionSort _).mp hx)
    exact ⟨w.id_ne k, w.id_comma k⟩
  constructor
  · intro h
    have hsorted := intercalate_comma_injective (htexts ks) (htexts ks') h
    exact (List.map_perm_map_iff w.id_injective).mp (sortTexts_eq_iff.mp hsorted)
  · intro h
    rw [sortTexts_eq_iff.mpr (h.map w.id)]

/-! ## What the page derives -/

/-- Of reconciliations in the order of their revisions the last one is kept. -/
theorem foldl_takeReconciliation {rs : List Closeout.Reconciliation}
    (h : rs.Pairwise fun a b => a.revision < b.revision) :
    rs.foldl Closeout.takeReconciliation none = rs.getLast? := by
  induction rs using List.reverseRecOn with
  | nil => rfl
  | append_singleton rs r ih =>
      obtain ⟨hrs, _, hbefore⟩ := List.pairwise_append.mp h
      rw [List.foldl_append, ih hrs, List.getLast?_concat]
      cases hlast : rs.getLast? with
      | none => rfl
      | some kept =>
          have hlt := hbefore kept (List.mem_of_getLast? hlast) r List.mem_cons_self
          simp [Closeout.takeReconciliation, hlt]

/-- Where at most one row satisfies a predicate, the last one to do so is that row. -/
theorem getLast?_filter_eq_some_iff {α : Type} {f : α → Bool} {xs : List α}
    (h : ∀ a ∈ xs, ∀ b ∈ xs, f a = true → f b = true → a = b) {a : α} :
    (xs.filter f).getLast? = some a ↔ a ∈ xs ∧ f a = true := by
  constructor
  · intro hlast
    exact List.mem_filter.mp (List.mem_of_getLast? hlast)
  · rintro ⟨ha, hfa⟩
    have hmem : a ∈ xs.filter f := List.mem_filter.mpr ⟨ha, hfa⟩
    obtain ⟨b, hb⟩ := Option.ne_none_iff_exists'.mp fun hnone =>
      List.ne_nil_of_mem hmem (List.getLast?_eq_none_iff.mp hnone)
    obtain ⟨hbmem, hfb⟩ := List.mem_filter.mp (List.mem_of_getLast? hb)
    rw [hb, h b hbmem a ha hfb hfa]

/-- The reconciliation that is shown of a status there is one of. -/
theorem latestReconciliation_received (h : Lifecycle p) {status : ReconciliationStatus}
    (hunique : ∀ r ∈ p.reconciliations, ∀ r' ∈ p.reconciliations,
      r.status = status → r'.status = status → r = r') {x : Closeout.Reconciliation} :
    Closeout.latestReconciliation (w.received t p) (some status) = some x ↔
      ∃ r ∈ p.reconciliations, r.status = status ∧ w.receivedReconciliation t p r = x := by
  have hsorted : p.reconciliations.Pairwise fun a b => a.revision < b.revision := by
    have hrange : (p.reconciliations.map Reconciliation.revision).Pairwise (· < ·) := by
      rw [h.revisions]
      exact List.pairwise_lt_range'
    exact List.pairwise_map.mp hrange
  have hfilter : (w.received t p).reconciliations.filter
      (fun r => (some status).all (r.status = ·)) =
        (p.reconciliations.filter fun r => r.status = status).map
          (w.receivedReconciliation t p) := by
    rw [received_reconciliations w h, List.filter_map]
    rfl
  have hrevisions : ((p.reconciliations.filter fun r => r.status = status).map
      (w.receivedReconciliation t p)).Pairwise fun a b => a.revision < b.revision :=
    List.pairwise_map.mpr ((hsorted.filter _).imp fun hlt => Int.ofNat_lt.mpr hlt)
  have honly : ∀ a ∈ p.reconciliations, ∀ b ∈ p.reconciliations,
      decide (a.status = status) = true → decide (b.status = status) = true → a = b :=
    fun a ha b hb hsa hsb => hunique a ha b hb (of_decide_eq_true hsa) (of_decide_eq_true hsb)
  rw [Closeout.latestReconciliation, hfilter, foldl_takeReconciliation hrevisions,
    List.getLast?_map, Option.map_eq_some_iff]
  simp only [getLast?_filter_eq_some_iff honly, decide_eq_true_eq, and_assoc]

section Shown

variable (h : Lifecycle p)

include h

/-- The draft of the page is the draft of the plan. -/
theorem page_draft_iff {x : Closeout.Reconciliation} :
    (w.page t ctx actor p).draft = some x ↔
      ∃ r ∈ p.reconciliations, r.status = .draft ∧ w.receivedReconciliation t p r = x := by
  refine latestReconciliation_received w h fun r hr r' hr' hdraft hdraft' => ?_
  have hlast := h.getLast?_of_draft hr hdraft
  rw [h.getLast?_of_draft hr' hdraft'] at hlast
  exact (Option.some_inj.mp hlast).symm

/-- The final reconciliation of the page is that of the plan. -/
theorem page_final_iff {x : Closeout.Reconciliation} :
    (w.page t ctx actor p).final = some x ↔
      ∃ r ∈ p.reconciliations, r.status = .final ∧ w.receivedReconciliation t p r = x :=
  latestReconciliation_received w h fun r hr r' hr' => h.finalUnique r hr r' hr'

end Shown

/-! ## The checklist -/

section Checklist

variable (h : Emitted t) (hb : PlansBacked sha t) (hp : p ∈ t.plans)

include h hb hp

/-- The returns a reconciliation is sent with are those it links. -/
theorem submissionIds_perm {r : Reconciliation} (hr : r ∈ p.reconciliations) :
    ((p.submissions.filter fun s => s.id ∈ r.submissions).map Submission.id).Perm
      r.submissions := by
  have hkeys := h.submissionKeys hp
  apply (List.perm_ext_iff_of_nodup ?_ ((hb.plans p hp).backed r hr).distinct).mpr
  · intro id
    simp only [List.mem_map, List.mem_filter, decide_eq_true_eq]
    constructor
    · rintro ⟨s, ⟨_, hlinked⟩, rfl⟩
      exact hlinked
    · intro hlinked
      obtain ⟨s, hs, rfl⟩ := Table.mem_keys.mp
        (((h.references.plans p hp).reconciliations r hr).submissions id hlinked)
      exact ⟨s, ⟨hs, hlinked⟩, rfl⟩
  · exact hkeys.sublist (List.filter_sublist.map _)

/-- **The browser takes a reconciliation for stale when its fingerprint is not current.** -/
theorem reconciliationStale_iff (hsha : Function.Injective sha.source) {r : Reconciliation}
    (hr : r ∈ p.reconciliations) :
    Closeout.reconciliationStale (w.received t p) (w.receivedReconciliation t p r) = true ↔
      r.inputFingerprint ≠ sourceFingerprint sha p (latestSubmissions p) := by
  have hlatest : ((Closeout.latestReturns (w.received t p)).map Closeout.Submission.id).Perm
      (((latestSubmissions p).map Submission.id).map w.id) := by
    have hperm := (h.latestReturns_perm w hp).map Closeout.Submission.id
    rw [List.map_map] at hperm ⊢
    exact hperm
  have hsorted := sortTexts_eq_iff.mpr hlatest
  have hlinked := submissionIds_perm h hb hp hr
  have hjoined : ",".intercalate (Closeout.sortTexts
        ((Closeout.latestReturns (w.received t p)).map Closeout.Submission.id)) =
      ",".intercalate (Closeout.sortTexts (w.receivedReconciliation t p r).submissionIds) ↔
        r.submissions.Perm ((latestSubmissions p).map Submission.id) := by
    rw [hsorted]
    refine (joined_eq_iff w).trans ⟨fun hperm => ?_, fun hperm => ?_⟩
    · exact hlinked.symm.trans hperm.symm
    · exact hperm.symm.trans hlinked.symm
  have hunsent : (w.receivedReconciliation t p r).stale.getD false = false := rfl
  rw [Ne, ((hb.plans p hp).backed r hr).current_iff hsha, ← hjoined]
  simp only [Closeout.reconciliationStale, hunsent, Bool.false_or, decide_eq_true_eq, ne_eq]

/-- The page calls a reconciliation current where its fingerprint is. -/
theorem reconciliationStale_eq_false (hsha : Function.Injective sha.source) {r : Reconciliation}
    (hr : r ∈ p.reconciliations) :
    Closeout.reconciliationStale (w.received t p) (w.receivedReconciliation t p r) = false ↔
      r.inputFingerprint = sourceFingerprint sha p (latestSubmissions p) := by
  rw [← Bool.not_eq_true, reconciliationStale_iff w h hb hp hsha hr, not_not]

end Checklist

/-- The last decision of a participant, on both sides. -/
theorem decisionOf_received {r : Reconciliation} {participant : Id} {decision : Decision} :
    Closeout.decisionOf (w.receivedReconciliation t p r) (w.id participant) = some decision ↔
      ∃ a ∈ latestApprovals r, a.participantId = participant ∧ a.decision = decision := by
  have hlast : lastByKey Closeout.Approval.participantId
      (w.receivedReconciliation t p r).approvals =
        (latestApprovals r).map fun a => w.approval (approvalData t.users a) := by
    show lastByKey _ ((r.approvals.map (approvalData t.users)).map w.approval) = _
    have hkey : ∀ a : Approval,
        (w.approval (approvalData t.users a)).participantId = w.id a.participantId := fun _ => rfl
    rw [List.map_map]
    exact lastByKey_map_of_injective w.id_injective hkey r.approvals
  rw [Closeout.decisionOf, hlast, List.find?_map, Option.map_map, Option.map_eq_some_iff]
  constructor
  · rintro ⟨a, hfind, hdecision⟩
    have hkey := List.find?_some hfind
    simp only [Function.comp_apply, decide_eq_true_eq] at hkey
    exact ⟨a, List.mem_of_find?_eq_some hfind, w.id_injective hkey, hdecision⟩
  · rintro ⟨a, ha, rfl, rfl⟩
    have hfound : ((latestApprovals r).find?
        ((fun x : Closeout.Approval => decide (x.participantId = w.id a.participantId)) ∘
          fun a => w.approval (approvalData t.users a))).isSome = true :=
      List.find?_isSome.mpr ⟨a, ha, decide_eq_true rfl⟩
    obtain ⟨b, hb⟩ := Option.isSome_iff_exists.mp hfound
    have hkey := List.find?_some hb
    simp only [Function.comp_apply, decide_eq_true_eq] at hkey
    have hsame : b = a := List.inj_on_of_nodup_map (nodup_map_lastByKey _ _)
      (List.mem_of_find?_eq_some hb) ha (w.id_injective hkey)
    exact ⟨b, hb, by rw [hsame]; rfl⟩

/-- A party has decided: it does not dispute, and agrees where it has to. -/
theorem decisionIssue_eq_none {recon : Closeout.Reconciliation} {party : Closeout.Participant} :
    Closeout.decisionIssue recon party = none ↔
      Closeout.decisionOf recon party.id ≠ some .disputed ∧
        (party.requiredApproval = true → Closeout.decisionOf recon party.id = some .agreed) := by
  unfold Closeout.decisionIssue
  split
  · rename_i hdisputed
    simp [hdisputed]
  · rename_i hundisputed
    split
    · rename_i hmissing
      simp [hmissing.1, hmissing.2]
    · rename_i hpresent
      simp only [not_and, not_not] at hpresent
      simp only [ne_eq, hundisputed, not_false_eq_true, true_and, true_iff]
      exact hpresent

section Issues

variable (h : Emitted t) (hb : PlansBacked sha t) (hp : p ∈ t.plans)

include h hp

/-- No participant raises an issue when the server takes the reconciliation for acknowledged. -/
theorem acknowledged_iff {r : Reconciliation} (hr : r ∈ p.reconciliations) :
    (w.received t p).participants.filterMap
        (Closeout.decisionIssue (w.receivedReconciliation t p r)) = [] ↔ Acknowledged p r := by
  rw [received_participants, List.filterMap_map, List.filterMap_eq_nil_iff]
  constructor
  · intro hnone
    have hparty : ∀ q ∈ p.participants, _ := fun q hq =>
      decisionIssue_eq_none.mp (hnone q (mem_sortBy.mpr hq))
    refine ⟨fun a ha hdisputed => ?_, fun q hq hrequired => ?_⟩
    · have happroval := mem_of_mem_lastByKey ha
      obtain ⟨q, hq, hid⟩ := Table.mem_keys.mp
        (((h.references.plans p hp).reconciliations r hr).participants a happroval)
      exact (hparty q hq).1 ((decisionOf_received w).mpr ⟨a, ha, hid.symm, hdisputed⟩)
    · exact (decisionOf_received w).mp ((hparty q hq).2 hrequired)
  · intro hack q hq
    refine decisionIssue_eq_none.mpr ⟨fun hdisputed => ?_, fun hrequired => ?_⟩
    · obtain ⟨a, ha, _, hdecision⟩ := (decisionOf_received w).mp hdisputed
      exact hack.undisputed a ha hdecision
    · exact (decisionOf_received w).mpr (hack.agreed q (mem_sortBy.mp hq) hrequired)

include hb

/-- **The checklist is empty when nothing but the permission is left to check.** -/
theorem finalizationIssues_eq_nil (hsha : Function.Injective sha.source) {r : Reconciliation}
    (hr : r ∈ p.reconciliations) :
    Closeout.finalizationIssues (w.received t p) (w.receivedReconciliation t p r)
        (some (w.id actor)) = [] ↔
      r.inputFingerprint = sourceFingerprint sha p (latestSubmissions p) ∧
        r.createdBy ≠ actor ∧ Acknowledged p r := by
  have hpreparer : some (w.receivedReconciliation t p r).createdBy.id = some (w.id actor) ↔
      r.createdBy = actor := by
    rw [Option.some_inj]
    exact w.id_injective.eq_iff
  have hstale := reconciliationStale_iff w h hb hp hsha hr
  simp only [Closeout.finalizationIssues, hpreparer, List.append_eq_nil_iff, ite_eq_right_iff,
    List.cons_ne_nil, imp_false, acknowledged_iff w h hp hr, hstale, ne_eq, not_not, and_assoc]

end Issues

/-! ## The gates -/

/-- A request is accepted where its endpoint lets the member in and its handler goes through. -/
theorem handle_isOk {op : Measurements.Op} :
    (t.handle sha (.measurements actor ctx op)).isOk = true ↔
      (t.authorize ctx actor op.permission).isOk = true ∧
        (Op.handle sha t ctx actor op).isOk = true := by
  rw [Tenant.handle, isOk_bind]
  constructor
  · rintro ⟨user, huser, hok⟩
    exact ⟨isOk_iff.mpr ⟨user, huser⟩, isOk_bind_pure.mp hok⟩
  · rintro ⟨hauthorized, hok⟩
    obtain ⟨user, huser⟩ := isOk_iff.mp hauthorized
    exact ⟨user, huser, isOk_bind_pure.mpr hok⟩

/-- The page allows what the server permits. -/
theorem can_iff {permission : Permission} : (w.page t ctx actor p).can permission = true ↔
    (t.authorize ctx actor permission).isOk = true :=
  decide_eq_true_iff.trans mem_effectivePermissions

/-- The page shows a cancelled plan as one. -/
theorem cancelled_iff : (w.page t ctx actor p).cancelled = true ↔ p.status = .cancelled :=
  decide_eq_true_iff

/-- The page lets a plan be managed by who may, while it is not cancelled. -/
theorem canManage_iff : (w.page t ctx actor p).canManage = true ↔
    (t.authorize ctx actor .measurementsManage).isOk = true ∧ p.status ≠ .cancelled := by
  rw [Page.canManage, Bool.and_eq_true, can_iff, Bool.not_eq_true', ← Bool.not_eq_true,
    cancelled_iff]

section Shown

variable (h : Lifecycle p)

include h

/-- The page has a draft where the plan has one. -/
theorem draft_isSome_iff : (w.page t ctx actor p).draft.isSome = true ↔
    ∃ r ∈ p.reconciliations, r.status = .draft := by
  simp only [Option.isSome_iff_exists, page_draft_iff w h]
  exact ⟨fun ⟨_, r, hr, hdraft, _⟩ => ⟨r, hr, hdraft⟩, fun ⟨r, hr, hdraft⟩ =>
    ⟨_, r, hr, hdraft, rfl⟩⟩

/-- The page has a final reconciliation where the plan has one. -/
theorem final_isSome_iff : (w.page t ctx actor p).final.isSome = true ↔
    ∃ r ∈ p.reconciliations, r.status = .final := by
  simp only [Option.isSome_iff_exists, page_final_iff w h]
  exact ⟨fun ⟨_, r, hr, hfinal, _⟩ => ⟨r, hr, hfinal⟩, fun ⟨r, hr, hfinal⟩ =>
    ⟨_, r, hr, hfinal, rfl⟩⟩

/-- A final reconciliation is the latest unless a draft was proposed after it. -/
theorem getLast?_of_final {r : Reconciliation} (hr : r ∈ p.reconciliations)
    (hfinal : r.status = .final) :
    p.reconciliations.getLast? = some r ↔ ∀ d ∈ p.reconciliations, d.status ≠ .draft := by
  constructor
  · intro hlast d hd hdraft
    rw [h.getLast?_of_draft hd hdraft] at hlast
    rw [Option.some_inj.mp hlast, hfinal] at hdraft
    cases hdraft
  · intro hnone
    obtain ⟨l, hl⟩ := Option.ne_none_iff_exists'.mp fun hempty =>
      List.ne_nil_of_mem hr (List.getLast?_eq_none_iff.mp hempty)
    have hmem := List.mem_of_getLast? hl
    have hstatus : l.status = .final := by
      cases hs : l.status with
      | draft => exact absurd hs (hnone l hmem)
      | final => rfl
      | superseded => exact absurd hs (h.lastCurrent l hl)
    rw [hl, h.finalUnique l hmem r hr hstatus hfinal]

/-- Returns are taken while no reconciliation is final, and while a draft amends it. -/
theorem takes_returns_iff :
    (∀ r, p.latestReconciliation = some r → r.status ≠ .final) ↔
      (∃ r ∈ p.reconciliations, r.status = .final) →
        ∃ r ∈ p.reconciliations, r.status = .draft := by
  rw [h.latestReconciliation]
  constructor
  · rintro hopen ⟨r, hr, hfinal⟩
    by_contra hnone
    refine hopen r ((getLast?_of_final h hr hfinal).mpr fun d hd hdraft => ?_) hfinal
    exact hnone ⟨d, hd, hdraft⟩
  · intro hamended r hlast hfinal
    obtain ⟨d, hd, hdraft⟩ := hamended ⟨r, List.mem_of_getLast? hlast, hfinal⟩
    exact (getLast?_of_final h (List.mem_of_getLast? hlast) hfinal).mp hlast d hd hdraft

end Shown

/-- Nothing was finalized where no reconciliation is final. -/
theorem nothing_final_iff (h : Lifecycle p) (hb : PlanBacked sha p) :
    (∀ r ∈ p.reconciliations, r.finalizedAt = none) ↔
      ¬∃ r ∈ p.reconciliations, r.status = .final := by
  constructor
  · rintro hnone ⟨r, hr, hfinal⟩
    exact h.finalClosed r hr hfinal (hnone r hr)
  · intro hnone r hr
    by_contra hfinalized
    exact hnone (hb.closed ⟨r, hr, hfinalized⟩)

/-- The reconciliation of a key is found in its plan. -/
theorem getReconciliation_iff (h : Lifecycle p) {rid : Id} {r : Reconciliation} :
    getReconciliation p rid = .ok r ↔ r ∈ p.reconciliations ∧ r.id = rid := by
  refine ⟨getReconciliation_eq_ok, ?_⟩
  rintro ⟨hr, rfl⟩
  exact orRaise_of_some (Table.get_of_mem h.keys hr)

/-- Any draft is the latest reconciliation, so what is left to check is its fingerprint. -/
theorem ensureCurrentDraft_iff (h : Lifecycle p) {r : Reconciliation}
    (hr : r ∈ p.reconciliations) : ensureCurrentDraft sha p r = .ok () ↔
      r.status = .draft ∧ r.inputFingerprint = sourceFingerprint sha p (latestSubmissions p) := by
  rw [ensureCurrentDraft_eq_ok]
  constructor
  · rintro ⟨hdraft, _, hcurrent⟩
    exact ⟨hdraft, hcurrent⟩
  · rintro ⟨hdraft, hcurrent⟩
    refine ⟨hdraft, ?_, hcurrent⟩
    rw [h.latestReconciliation, h.getLast?_of_draft hr hdraft]
    rfl

/-- A reconciliation is billable where it is final and no draft is open. -/
theorem ensureBillableFinal_iff (h : Lifecycle p) {r : Reconciliation}
    (hr : r ∈ p.reconciliations) : ensureBillableFinal p r = .ok () ↔
      r.status = .final ∧ ∀ d ∈ p.reconciliations, d.status ≠ .draft := by
  rw [ensureBillableFinal_eq_ok, h.latestReconciliation]
  refine and_congr_right fun hfinal => ?_
  rw [← getLast?_of_final h hr hfinal]
  constructor
  · intro hlast
    obtain ⟨l, hl, hid⟩ := Option.map_eq_some_iff.mp hlast
    rw [hl, Table.eq_of_key_eq h.keys (List.mem_of_getLast? hl) hr hid]
  · intro hlast
    rw [hlast]
    rfl

section Gates

variable (h : Emitted t) (hb : PlansBacked sha t) (hp : p ∈ t.plans)

include h hp

/-- A stored plan is found by its key. -/
theorem getPlan_of_mem : getPlan t p.id = .ok p :=
  orRaise_of_some (Table.get_of_mem h.references.covered.plans.keys hp)

/-- The participants the page counts as returned are those the server does. -/
theorem returned_iff (q : Participant) :
    (w.page t ctx actor p).returns.any (fun s => s.participantId = w.id q.id) = true ↔
      ∃ s ∈ latestSubmissions p, s.participantId = q.id := by
  have hperm := h.latestReturns_perm w hp
  rw [List.any_eq_true]
  constructor
  · rintro ⟨x, hx, hid⟩
    obtain ⟨s, hs, rfl⟩ := List.mem_map.mp (hperm.mem_iff.mp hx)
    exact ⟨s, hs, w.id_injective (of_decide_eq_true hid)⟩
  · rintro ⟨s, hs, hid⟩
    exact ⟨w.receivedReturn t s, hperm.mem_iff.mpr (List.mem_map_of_mem hs),
      decide_eq_true (congrArg w.id hid)⟩

/-- The page has no returns where the plan has no latest ones. -/
theorem returns_isEmpty_iff :
    (w.page t ctx actor p).returns.isEmpty = true ↔ latestSubmissions p = [] := by
  have hlength := (h.latestReturns_perm w hp).length_eq
  rw [List.length_map] at hlength
  rw [List.isEmpty_iff, ← List.length_eq_zero_iff, ← List.length_eq_zero_iff, ← hlength]
  rfl

/-- The page misses no return where every party that has to has reported. -/
theorem missingReturns_isEmpty_iff :
    (w.page t ctx actor p).missingReturns.isEmpty = true ↔
      ∀ q ∈ p.participants, q.requiredSubmission = true →
        ∃ s ∈ latestSubmissions p, s.participantId = q.id := by
  rw [List.isEmpty_iff, Page.missingReturns, List.filter_eq_nil_iff]
  constructor
  · intro hnone q hq hrequired
    have hparty := hnone (w.participant q) (List.mem_map_of_mem (mem_sortBy.mpr hq))
    have hany : (w.page t ctx actor p).returns.any
        (fun s => s.participantId = w.id q.id) = true := by
      simpa [Wire.participant, hrequired] using hparty
    exact (returned_iff w h hp q).mp hany
  · intro hreturned x hx
    obtain ⟨q, hq, rfl⟩ := List.mem_map.mp hx
    simp only [Wire.participant, Bool.and_eq_true, Bool.not_eq_true', not_and,
      Bool.not_eq_false]
    intro hrequired
    exact (returned_iff w h hp q).mpr (hreturned q (mem_sortBy.mp hq) hrequired)

include hb

/-- The plan is cancelled where the page offers it. -/
theorem cancel_gate {reason : String} (hreason : charField 10000 false reason = true) :
    (Op.handle sha t ctx actor (Form.op p (.cancel reason))).isOk = true ↔
      p.status ≠ .cancelled ∧ ¬(w.page t ctx actor p).final.isSome = true := by
  have hbacked := hb.plans p hp
  have hvalid : (cancellation reason p.version).validate = .ok () := by
    simp [PlanPatch.validate, cancellation, versionField, bind_eq_ok, hreason, hbacked.version]
  have hentries : PatchEntries p (cancellation reason p.version) :=
    ⟨hvalid, rfl, rfl, rfl, fun _ => by simp [cancellation], hbacked.ends⟩
  rw [Form.op, patchPlan_handle_isOk (getPlan_of_mem h hp) hentries,
    final_isSome_iff w (h.lifecycle hp), ← nothing_final_iff (h.lifecycle hp) hbacked]
  exact and_congr_right fun _ => ⟨fun hopen => hopen rfl, fun hopen _ => hopen⟩

/-- The draft that is shown is the only one to acknowledge. -/
theorem approval_gate (hsha : Function.Injective sha.source) {rid : Id} :
    (∃ r, getReconciliation p rid = .ok r ∧ ensureCurrentDraft sha p r = .ok ()) ↔
      ∃ x, (w.page t ctx actor p).draft = some x ∧ x.id = w.id rid ∧
        Closeout.reconciliationStale (w.received t p) x = false := by
  have hlife := h.lifecycle hp
  constructor
  · rintro ⟨r, hr, hcurrent⟩
    obtain ⟨hmem, rfl⟩ := getReconciliation_eq_ok hr
    obtain ⟨hdraft, hfresh⟩ := (ensureCurrentDraft_iff hlife hmem).mp hcurrent
    exact ⟨_, (page_draft_iff w hlife).mpr ⟨r, hmem, hdraft, rfl⟩, rfl,
      (reconciliationStale_eq_false w h hb hp hsha hmem).mpr hfresh⟩
  · rintro ⟨x, hx, hid, hfresh⟩
    obtain ⟨r, hmem, hdraft, rfl⟩ := (page_draft_iff w hlife).mp hx
    have hcurrent := (reconciliationStale_eq_false w h hb hp hsha hmem).mp hfresh
    exact ⟨r, (getReconciliation_iff hlife).mpr ⟨hmem, w.id_injective hid⟩,
      (ensureCurrentDraft_iff hlife hmem).mpr ⟨hdraft, hcurrent⟩⟩

/-- The checklist is that of the draft that is shown. -/
theorem finalize_gate (hsha : Function.Injective sha.source) {rid : Id} :
    (∃ r, getReconciliation p rid = .ok r ∧ ensureCurrentDraft sha p r = .ok () ∧
        r.createdBy ≠ actor ∧ Acknowledged p r) ↔
      (w.page t ctx actor p).finalizeIssues.isEmpty = true ∧
        ∃ x, (w.page t ctx actor p).draft = some x ∧ x.id = w.id rid := by
  have hlife := h.lifecycle hp
  constructor
  · rintro ⟨r, hr, hcurrent, hpreparer, hacknowledged⟩
    obtain ⟨hmem, rfl⟩ := getReconciliation_eq_ok hr
    obtain ⟨hdraft, hfresh⟩ := (ensureCurrentDraft_iff hlife hmem).mp hcurrent
    have hshown : (w.page t ctx actor p).draft = some (w.receivedReconciliation t p r) :=
      (page_draft_iff w hlife).mpr ⟨r, hmem, hdraft, rfl⟩
    refine ⟨?_, _, hshown, rfl⟩
    rw [List.isEmpty_iff, Page.finalizeIssues, hshown]
    exact (finalizationIssues_eq_nil w h hb hp hsha hmem).mpr ⟨hfresh, hpreparer, hacknowledged⟩
  · rintro ⟨hissues, x, hx, hid⟩
    rw [List.isEmpty_iff, Page.finalizeIssues, hx] at hissues
    obtain ⟨r, hmem, hdraft, rfl⟩ := (page_draft_iff w hlife).mp hx
    obtain ⟨hfresh, hpreparer, hacknowledged⟩ :=
      (finalizationIssues_eq_nil w h hb hp hsha hmem).mp hissues
    exact ⟨r, (getReconciliation_iff hlife).mpr ⟨hmem, w.id_injective hid⟩,
      (ensureCurrentDraft_iff hlife hmem).mpr ⟨hdraft, hfresh⟩, hpreparer, hacknowledged⟩

omit hb in
/-- The final reconciliation that is shown is billed unless a draft amends it, where it can be
charged. -/
theorem assess_gate {rid : Id} {C : Reconciliation → Prop} :
    (∃ r, getReconciliation p rid = .ok r ∧ ensureBillableFinal p r = .ok () ∧ C r) ↔
      (¬(w.page t ctx actor p).draft.isSome = true ∧
        ∃ x, (w.page t ctx actor p).final = some x ∧ x.id = w.id rid) ∧
      ∀ r ∈ p.reconciliations, r.id = rid → C r := by
  have hlife := h.lifecycle hp
  rw [draft_isSome_iff w hlife]
  constructor
  · rintro ⟨r, hr, hbillable, hcharged⟩
    obtain ⟨hmem, rfl⟩ := getReconciliation_eq_ok hr
    obtain ⟨hfinal, hnone⟩ := (ensureBillableFinal_iff hlife hmem).mp hbillable
    refine ⟨⟨?_, _, (page_final_iff w hlife).mpr ⟨r, hmem, hfinal, rfl⟩, rfl⟩, ?_⟩
    · rintro ⟨d, hd, hdraft⟩
      exact hnone d hd hdraft
    · intro q hq hid
      rw [Table.eq_of_key_eq hlife.keys hq hmem hid]
      exact hcharged
  · rintro ⟨⟨hnone, x, hx, hid⟩, hcharged⟩
    obtain ⟨r, hmem, hfinal, rfl⟩ := (page_final_iff w hlife).mp hx
    have hrid : r.id = rid := w.id_injective hid
    refine ⟨r, (getReconciliation_iff hlife).mpr ⟨hmem, hrid⟩,
      (ensureBillableFinal_iff hlife hmem).mpr ⟨hfinal, fun d hd hdraft => ?_⟩,
      hcharged r hmem hrid⟩
    exact hnone ⟨d, hd, hdraft⟩

end Gates

/-- The digest of the sample tells its sources apart. -/
theorem sample_source_injective : Function.Injective Sample.sha.source := fun _ _ h => by
  injection h

/-- **The page offers what the server accepts.**  In every reachable tenant, a complete form of
the reconciliation workspace, sent at the version of the plan it shows, is accepted exactly when
the button it is sent with is there and enabled; of an assessment the server asks in addition
that it can be charged. -/
theorem page_gates (hsha : Function.Injective sha.source) {t₀ : Tenant} (h₀ : t₀.Initial)
    (rs : List Request) (ht : Lib.run (Tenant.handle sha) t₀ rs = t) (hp : p ∈ t.plans)
    (form : Form) (hform : form.Complete t ctx p) :
    (t.handle sha (.measurements actor ctx (form.op p))).isOk = true ↔
      (w.page t ctx actor p).offers w form = true ∧ form.Admitted t p := by
  have h : Emitted t := ht ▸ (Emitted.ofInitial h₀).run rs
  have hb : PlansBacked sha t := ht ▸ (PlansBacked.ofInitial h₀).run rs
  have hconfigured : Configured t := ht ▸ (Configured.ofInitial h₀).requests rs
  have hplan := getPlan_of_mem h hp
  have hlife := h.lifecycle hp
  have hbacked := hb.plans p hp
  rw [handle_isOk]
  cases form with
  | schedule entries =>
      -- No schedule cancels, so that the reconciliations are not looked at.
      rw [and_iff_left (show (Form.schedule entries).Admitted t p from trivial), Page.offers,
        canManage_iff, Form.op, patchPlan_handle_isOk hplan hform]
      exact and_congr_right fun _ => ⟨And.left, fun hlive =>
        ⟨hlive, fun hcancelled => absurd hcancelled Bool.false_ne_true⟩⟩
  | cancel reason =>
      rw [and_iff_left (show (Form.cancel reason).Admitted t p from trivial), Page.offers,
        Bool.and_eq_true, canManage_iff, cancel_gate w h hb hp hform, and_assoc,
        Bool.not_eq_true', ← Bool.not_eq_true]
      rfl
  | recordReturn entries =>
      -- Next to a final revision the server asks for a draft that amends it.
      rw [and_iff_left (show (Form.recordReturn entries).Admitted t p from trivial), Page.offers,
        Bool.and_eq_true, canManage_iff, Form.op, submit_handle_isOk hplan hform,
        takes_returns_iff hlife, and_assoc, Bool.or_eq_true, Bool.not_eq_true',
        ← Bool.not_eq_true, final_isSome_iff w hlife, draft_isSome_iff w hlife,
        ← imp_iff_not_or]
      rfl
  | proposal entries =>
      rw [and_iff_left (show (Form.proposal entries).Admitted t p from trivial), Page.offers,
        Bool.and_eq_true, Bool.and_eq_true, canManage_iff, Form.op,
        propose_handle_isOk hplan hform, Bool.not_eq_true', ← Bool.not_eq_true,
        returns_isEmpty_iff w h hp, missingReturns_isEmpty_iff w h hp, and_assoc, and_assoc]
      rfl
  | approval rid entries =>
      rw [and_iff_left (show (Form.approval rid entries).Admitted t p from trivial), Page.offers,
        Bool.and_eq_true, canManage_iff, Form.op, approve_handle_isOk hplan hform,
        approval_gate w h hb hp hsha, Option.any_eq_true, and_assoc]
      simp only [Bool.and_eq_true, decide_eq_true_eq, Bool.not_eq_true']
      rfl
  | finalize rid =>
      have happrovals := fun r hr => (hbacked.backed r hr).approvals
      rw [and_iff_left (show (Form.finalize rid).Admitted t p from trivial), Page.offers,
        Bool.and_eq_true, Bool.and_eq_true, Bool.and_eq_true, can_iff, Form.op,
        finalize_handle_isOk hplan hbacked.version hform happrovals,
        finalize_gate w h hb hp hsha, Option.any_eq_true, Bool.not_eq_true', ← Bool.not_eq_true,
        cancelled_iff, and_assoc, and_assoc]
      simp only [decide_eq_true_eq]
      rfl
  | assess entries =>
      rw [Form.Admitted, Page.offers, Bool.and_eq_true, Bool.and_eq_true, can_iff, Form.op,
        assess_handle_isOk hplan hform hconfigured hp, assess_gate w h hp, Option.any_eq_true,
        Page.billingReady, Bool.and_eq_true, Bool.and_eq_true, Bool.not_eq_true',
        Bool.not_eq_true', ← Bool.not_eq_true, ← Bool.not_eq_true, cancelled_iff]
      simp only [decide_eq_true_eq]
      -- A final revision that is named is one that is shown.
      constructor
      · rintro ⟨hcan, hlive, ⟨hnone, x, hx, hid⟩, hcharged⟩
        exact ⟨⟨⟨hcan, ⟨by rw [hx]; rfl, hnone⟩, hlive⟩, x, hx, hid⟩, hcharged⟩
      · rintro ⟨⟨⟨hcan, ⟨_, hnone⟩, hlive⟩, x, hx, hid⟩, hcharged⟩
        exact ⟨hcan, hlive, ⟨hnone, x, hx, hid⟩, hcharged⟩

/-- The disparity of the sample, to be charged at 2.50 a tonne. -/
def Sample.disparity : AssessmentInput where
  version := 5
  reconciliationId := 50000
  payer := "Terminal"
  currency := "USD"
  policy := .manifestDisparity
  tariffReference := "Tariff 2026"
  reason := "Disparity"
  openingChargesReference := "None"
  lines := [⟨20200, ⟨false, 25000⟩, ⟨false, 0⟩, .threshold, none, ⟨false, 0⟩⟩]

/-- It is assessed by the button, which is there, and can be charged. -/
theorem page_gates_assessed :
    ∃ t, Lib.run (Tenant.handle Sample.sha) Sample.tenant Sample.finalized = t ∧
      ∃ p ∈ t.plans, p.id = 20000 ∧
        (t.handle Sample.sha (.measurements 1 (Sample.ctx 8)
          (Form.op p (.assess Sample.disparity)))).isOk = true ∧
        (sampleWire.page t (Sample.ctx 8) 1 p).offers sampleWire (.assess Sample.disparity) = true ∧
        Form.Admitted t p (.assess Sample.disparity) := by
  have hplan : ∃ p ∈ (Lib.run (Tenant.handle Sample.sha) Sample.tenant Sample.finalized).plans,
      p.id = 20000 ∧ { Sample.disparity with version := p.version }.validate = .ok () ∧
      validateLines p (Sample.disparity.lines.map AssessmentLineInput.fields) = .ok () ∧
      (Sample.ctx 8).uuid 0 ∉ (Lib.run (Tenant.handle Sample.sha) Sample.tenant
        Sample.finalized).plans.flatMap (fun q => Table.keys q.assessments) ∧
      ((Lib.run (Tenant.handle Sample.sha) Sample.tenant Sample.finalized).handle Sample.sha
        (.measurements 1 (Sample.ctx 8) (Form.op p (.assess Sample.disparity)))).isOk = true := by
    decide +kernel
  obtain ⟨p, hp, hid, hvalid, hlines, hfresh, hok⟩ := hplan
  have hform : (Form.assess Sample.disparity).Complete _ (Sample.ctx 8) p :=
    ⟨hvalid, rfl, hlines, hfresh⟩
  obtain ⟨hoffered, hadmitted⟩ := (page_gates sampleWire sample_source_injective Sample.initial
    Sample.finalized rfl hp (.assess Sample.disparity) hform).mp hok
  exact ⟨_, rfl, p, hp, hid, hok, hoffered, hadmitted⟩

/-- **The checklist of the browser decides what the server decides.**  Of every draft of a plan
that is not cancelled, shown to a member who may approve: it is stale in the browser exactly when
its fingerprint is not that of the plan, the returns compared are the latest on both sides, and
its checklist is empty exactly when its finalization is accepted. -/
theorem checklist_decides (hsha : Function.Injective sha.source) {t₀ : Tenant} (h₀ : t₀.Initial)
    (rs : List Request) (ht : Lib.run (Tenant.handle sha) t₀ rs = t) (hp : p ∈ t.plans)
    {r : Reconciliation} (hr : r ∈ p.reconciliations) (hdraft : r.status = .draft)
    (hlive : p.status ≠ .cancelled)
    (hcan : (t.authorize ctx actor .measurementsApprove).isOk = true) :
    (Closeout.reconciliationStale (w.received t p) (w.receivedReconciliation t p r) = true ↔
      r.inputFingerprint ≠ sourceFingerprint sha p (latestSubmissions p)) ∧
    (Closeout.latestReturns (w.received t p)).Perm
      ((latestSubmissions p).map (w.receivedReturn t)) ∧
    (Closeout.finalizationIssues (w.received t p) (w.receivedReconciliation t p r)
        (some (w.id actor)) = [] ↔
      (t.handle sha (.measurements actor ctx (.finalize p.id r.id p.version))).isOk = true) := by
  have h : Emitted t := ht ▸ (Emitted.ofInitial h₀).run rs
  have hb : PlansBacked sha t := ht ▸ (PlansBacked.ofInitial h₀).run rs
  have hlife := h.lifecycle hp
  have hbacked := hb.plans p hp
  have hopen : ∀ r' ∈ p.reconciliations, r'.id = r.id → r'.finalizedAt = none := by
    intro r' hr' hid
    rw [Table.eq_of_key_eq hlife.keys hr' hr hid]
    exact hlife.draftOpen r hr hdraft
  refine ⟨reconciliationStale_iff w h hb hp hsha hr, h.latestReturns_perm w hp, ?_⟩
  rw [finalizationIssues_eq_nil w h hb hp hsha hr, handle_isOk, finalize_handle_isOk
    (getPlan_of_mem h hp) hbacked.version hopen fun r hr => (hbacked.backed r hr).approvals]
  constructor
  · rintro ⟨hfresh, hpreparer, hacknowledged⟩
    exact ⟨hcan, hlive, r, (getReconciliation_iff hlife).mpr ⟨hr, rfl⟩,
      (ensureCurrentDraft_iff hlife hr).mpr ⟨hdraft, hfresh⟩, hpreparer, hacknowledged⟩
  · rintro ⟨_, _, q, hq, hcurrent, hpreparer, hacknowledged⟩
    obtain ⟨hmem, hid⟩ := getReconciliation_eq_ok hq
    obtain rfl := Table.eq_of_key_eq hlife.keys hmem hr hid
    exact ⟨((ensureCurrentDraft_iff hlife hr).mp hcurrent).2, hpreparer, hacknowledged⟩

/-- The checklist of the sample's proposal, for the second administrator. -/
theorem checklist_decides_proposed :
    ∃ t, Lib.run (Tenant.handle Sample.sha) Sample.tenant Sample.proposed = t ∧
      ∃ p ∈ t.plans, ∃ r ∈ p.reconciliations, r.id = 50000 ∧
        (Closeout.finalizationIssues (sampleWire.received t p)
            (sampleWire.receivedReconciliation t p r) (some (sampleWire.id 2)) = [] ↔
          (t.handle Sample.sha
            (.measurements 2 (Sample.ctx 6) (.finalize p.id r.id p.version))).isOk = true) := by
  have hproposed : (((Table.get 20000 (Lib.run (Tenant.handle Sample.sha) Sample.tenant
      Sample.proposed).plans).bind fun p => (Table.get 50000 p.reconciliations).map
        fun r => (p.status, r.status)) = some (.inProgress, .draft)) ∧
      ((Lib.run (Tenant.handle Sample.sha) Sample.tenant Sample.proposed).authorize
        (Sample.ctx 6) 2 .measurementsApprove).isOk = true := by decide +kernel
  obtain ⟨hplan, hcan⟩ := hproposed
  obtain ⟨p, hp, hr⟩ := Option.bind_eq_some_iff.mp hplan
  obtain ⟨r, hr, hstatus⟩ := Option.map_eq_some_iff.mp hr
  obtain ⟨hlive, hdraft⟩ := Prod.mk.inj hstatus
  obtain ⟨hmem, hid⟩ := Table.mem_of_get hr
  obtain ⟨_, _, hdecides⟩ := checklist_decides sampleWire sample_source_injective Sample.initial
    Sample.proposed rfl (Table.mem_of_get hp).1 hmem hdraft (by rw [hlive]; decide) hcan
  exact ⟨_, rfl, p, (Table.mem_of_get hp).1, r, hmem, hid, hdecides⟩

end VesselCaller.Workspace
