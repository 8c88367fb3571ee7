import VesselCaller.Frame
import VesselCaller.Measurements.Lifecycle

/-!
# What a request can do to links and returns

The inversion of `Tenant.handle` as far as the agency links and the submissions of a
plan are concerned.  A first portal submission is inverted exactly: `GuestReady` is
everything it checks, and under it the portal writes `withReturn`.  All other requests
are seen from outside: they leave links and submissions alone, append a staff
submission, create a link or revoke one.

## Main definitions

* `GuestReady` — everything a first submission is checked for;
* `LinkChange`, `LinkStep` — what a request did to a link, and to a plan's links and returns;
* `LinkOrigin` — where a link comes from.
-/

namespace VesselCaller.Measurements

open Lib Accounts Billing Operations

variable {sha : Sha256} {t t' : Tenant} {ctx : Ctx} {p p' : MeasurementPlan}
  {link link' : AgencyLink} {data : GuestSubmission}

/-! ## A first portal submission -/

/-- The return a portal submission records for the participant. -/
def GuestSubmission.toReturn (data : GuestSubmission) (t : Tenant) (ctx : Ctx)
    (p : MeasurementPlan) (q : Participant) : Submission where
  id := ctx.uuid 0
  participantId := q.id
  revision := 1
  observedAt := data.observedAt
  sourceReference := data.sourceReference
  notes := data.notes
  reason := ""
  recordedBy := none
  recordedAt := ctx.now
  representative := data.representative
  snapshot := ⟨t.planContext p, q, p.lines⟩
  source := .agencyLink
  evidence := []
  lines := data.lines

/-- The link once it names its submission. -/
def AgencyLink.usedBy (link : AgencyLink) (sha : Sha256) (data : GuestSubmission)
    (submission : Id) : AgencyLink :=
  { link with
    submissionId := some submission
    requestId := data.requestId
    requestDigest := sha.body data }

/-- The plan with the return of a link. -/
def MeasurementPlan.withReturn (p : MeasurementPlan) (s : Submission) (link : AgencyLink) :
    MeasurementPlan :=
  { p with
    submissions := p.submissions ++ [s]
    status := .inProgress
    links := Table.put link p.links }

/-- What the first submission of a link is checked for. -/
structure GuestReady (sha : Sha256) (t : Tenant) (ctx : Ctx) (p : MeasurementPlan)
    (link : AgencyLink) (data : GuestSubmission) (q : Participant) : Prop where
  opened : assertOpen t p = .ok ()
  shown : data.inputFingerprint = link.inputFingerprint
  fingerprint : portalFingerprint sha t p = link.inputFingerprint
  first : p.submissionsOf link.participantId = []
  participant : participantFor p link.participantId = .ok q
  lines : validateLines p (data.lines.map SubmissionLine.fields) = .ok ()
  fresh : ctx.uuid 0 ∉ t.plans.flatMap fun p => Table.keys p.submissions

theorem assertOpen_eq_ok {r : Unit} : assertOpen t p = .ok r ↔ p.status ≠ .cancelled ∧
    (Table.get p.vesselCallId t.calls).any (fun c => c.status = .cancelled) = false ∧
    p.latestReconciliation.any (fun r => r.status = .final) = false := by
  simp only [assertOpen, raiseIf_eq_ok, not_or, Bool.not_eq_true, ne_eq]

theorem validateEvidence_nil {es : List Evidence} :
    validateEvidence p [] false = .ok es ↔ es = [] := by
  simp only [validateEvidence, bind_eq_ok, raiseIf_eq_ok, pure_eq_ok]
  simp [eq_comm]

theorem submissionsOf_concat {s : Submission} {q : Id} (hs : s.participantId = q)
    (hp : p.submissionsOf q = []) :
    ({ p with submissions := p.submissions ++ [s], status := .inProgress } :
      MeasurementPlan).submissionsOf q = [s] := by
  rw [MeasurementPlan.submissionsOf] at hp ⊢
  rw [List.filter_append, hp]
  simp [hs]

/-- `create_submission` for a link whose participant has not reported yet. -/
theorem createSubmission_guest {p₁ : MeasurementPlan} (hopen : assertOpen t p = .ok ())
    (hfirst : p.submissionsOf link.participantId = []) :
    createSubmission t ctx none p (data.toInput p link) = .ok p₁ ↔
      ∃ q, participantFor p link.participantId = .ok q ∧
        validateLines p (data.lines.map SubmissionLine.fields) = .ok () ∧
        (ctx.uuid 0 ∉ t.plans.flatMap fun p => Table.keys p.submissions) ∧
        p₁ = { p with
          submissions := p.submissions ++ [data.toReturn t ctx p q], status := .inProgress } := by
  obtain ⟨hlive, _, hfinal⟩ := assertOpen_eq_ok.mp hopen
  -- Without an earlier return there is no revision to count from and no reason to give.
  have hreturn : ∀ q, participantFor p link.participantId = .ok q →
      (sortBy Submission.revision (p.submissionsOf q.id)).getLast? = none := by
    intro q hq
    have hid : q.id = link.participantId := (participantFor_eq_ok hq).2
    rw [hid, hfirst]
    rfl
  simp only [createSubmission, bind_eq_ok, raiseIf_eq_ok, pure_eq_ok, checkVersion_eq_ok,
    insertKey_eq_ok, GuestSubmission.toInput, validateEvidence_nil]
  constructor
  · rintro ⟨_, _, _, _, q, hq, _, _, _, hlines, _, rfl, _, hfresh, rfl⟩
    refine ⟨q, hq, hlines, hfresh, ?_⟩
    rw [hreturn q hq]
    rfl
  · rintro ⟨q, hq, hlines, hfresh, rfl⟩
    refine ⟨(), ⟨trivial, hlive⟩, (), by simp [hfinal], q, hq, (), ?_, (), hlines, [], rfl, (), hfresh,
      ?_⟩
    · rw [hreturn q hq]
      simp
    · rw [hreturn q hq]
      rfl

/-- **The first submission of a link**, exactly. -/
theorem guestSubmission_iff : guestSubmission sha t ctx p link data = .ok (p', link') ↔
    ∃ q, GuestReady sha t ctx p link data q ∧ link' = link.usedBy sha data (ctx.uuid 0) ∧
      p' = p.withReturn (data.toReturn t ctx p q) link' := by
  have hnamed : ∀ q, participantFor p link.participantId = .ok q →
      p.submissionsOf link.participantId = [] →
      ((sortBy Submission.revision (({ p with
        submissions := p.submissions ++ [data.toReturn t ctx p q], status := .inProgress } :
        MeasurementPlan).submissionsOf link.participantId)).getLast?).map Submission.id =
          some (ctx.uuid 0) := by
    intro q hq hfirst
    rw [submissionsOf_concat (participantFor_eq_ok hq).2 hfirst]
    rfl
  simp only [guestSubmission, bind_eq_ok, raiseIf_eq_ok, pure_eq_ok, Prod.mk.injEq, not_or,
    not_not, ne_eq]
  constructor
  · rintro ⟨_, hopen, _, ⟨hshown, hfingerprint⟩, _, hfirst, p₁, hcreate, rfl, rfl⟩
    obtain ⟨q, hq, hlines, hfresh, rfl⟩ := (createSubmission_guest hopen hfirst).mp hcreate
    refine ⟨q, ⟨hopen, hshown, hfingerprint, hfirst, hq, hlines, hfresh⟩, ?_, rfl⟩
    rw [hnamed q hq hfirst]
    rfl
  · rintro ⟨q, h, rfl, rfl⟩
    refine ⟨(), h.opened, (), ⟨h.shown, h.fingerprint⟩, (), h.first, _,
      (createSubmission_guest h.opened h.first).mpr ⟨q, h.participant, h.lines, h.fresh, rfl⟩, ?_⟩
    rw [hnamed q h.participant h.first]
    exact ⟨rfl, rfl⟩

/-- The plan after the first submission of a link. -/
def GuestSubmission.record (data : GuestSubmission) (sha : Sha256) (t : Tenant) (ctx : Ctx)
    (p : MeasurementPlan) (link : AgencyLink) (q : Participant) : MeasurementPlan :=
  p.withReturn (data.toReturn t ctx p q) (link.usedBy sha data (ctx.uuid 0))

/-- **A portal submission**, as far as the state is concerned. -/
theorem portalSubmit_iff {nonce : String} {a : VesselCaller.Response} :
    t.handle sha (.portal ctx (.submit nonce data)) = .ok (t', a) ↔
      data.validate = .ok () ∧ ∃ p link,
        getContext sha t ctx.now data.contextId nonce = .ok (p, link) ∧
        (link.submissionId.isSome = true ∧
          link.requestId = data.requestId ∧ link.requestDigest = sha.body data ∧ t' = t ∧
          a = .measurements (.context (contextData sha t data.contextId p link)) ∨
        link.submissionId = none ∧ ∃ q, GuestReady sha t ctx p link data q ∧
          t' = t.changed (data.record sha t ctx p link q) ∧
          a = .measurements (.context (contextData sha t' data.contextId
            (data.record sha t ctx p link q).advance (link.usedBy sha data (ctx.uuid 0))))) := by
  simp only [Tenant.handle, PortalOp.handle, portalSubmission, bind_eq_ok, pure_eq_ok,
    Prod.exists, Prod.mk.injEq]
  constructor
  · rintro ⟨_, _, ⟨_, _, ⟨_, hvalid, p, link, hcontext, h⟩, rfl, rfl⟩, rfl, rfl⟩
    refine ⟨hvalid, p, link, hcontext, ?_⟩
    split at h
    · rename_i hused
      simp only [bind_eq_ok, raiseIf_eq_ok, pure_eq_ok, Prod.mk.injEq, not_or, not_not,
        ne_eq] at h
      obtain ⟨_, ⟨hid, hdigest⟩, rfl, rfl⟩ := h
      exact .inl ⟨hused, hid, hdigest, rfl, rfl⟩
    · rename_i hunused
      simp only [bind_eq_ok, pure_eq_ok, Prod.exists, Prod.mk.injEq] at h
      obtain ⟨p', link', hguest, rfl, rfl⟩ := h
      obtain ⟨q, hready, rfl, rfl⟩ := guestSubmission_iff.mp hguest
      rw [Option.not_isSome_iff_eq_none] at hunused
      exact .inr ⟨hunused, q, hready, rfl, rfl⟩
  · rintro ⟨hvalid, p, link, hcontext, ⟨hused, hid, hdigest, rfl, rfl⟩ | ⟨hunused, q, hready, rfl,
      rfl⟩⟩
    · refine ⟨_, _, ⟨_, _, ⟨(), hvalid, p, link, hcontext, ?_⟩, rfl, rfl⟩, rfl, rfl⟩
      rw [if_pos hused, raiseIf_of_not (by simp [hid, hdigest])]
      rfl
    · refine ⟨_, _, ⟨_, _, ⟨(), hvalid, p, link, hcontext, ?_⟩, rfl, rfl⟩, rfl, rfl⟩
      rw [if_neg (by simp [hunused]), guestSubmission_iff.mpr ⟨q, hready, rfl, rfl⟩]
      rfl

/-! ## All requests -/

/-- The links of a plan with those of a participant revoked. -/
def revokeLinks (now : Instant) (participant : Id) (links : List AgencyLink) : List AgencyLink :=
  links.map fun l =>
    if l.participantId = participant ∧ l.revokedAt = none then { l with revokedAt := some now }
    else l

/-- What a request did to the links and the submissions of one plan. -/
inductive LinkChange (sha : Sha256) (r : Request) (t : Tenant) (p p' : MeasurementPlan) :
    Prop where
  | none (links : p'.links = p.links) (submissions : p'.submissions = p.submissions)
  | staff (s : Submission) (source : s.source = .staff)
      (fresh : s.id ∉ t.plans.flatMap fun p => Table.keys p.submissions)
      (links : p'.links = p.links) (submissions : p'.submissions = p.submissions ++ [s])
  | guest (ctx : Ctx) (nonce : String) (data : GuestSubmission) (link : AgencyLink)
      (q : Participant) (request : r = .portal ctx (.submit nonce data))
      (context : getContext sha t ctx.now data.contextId nonce = .ok (p, link))
      (unused : link.submissionId = .none) (ready : GuestReady sha t ctx p link data q)
      (plan : p' = (data.record sha t ctx p link q).advance)
  | created (now : Instant) (link : AgencyLink) (unused : link.submissionId = .none)
      (live : link.revokedAt = .none) (first : p.submissionsOf link.participantId = [])
      (fresh : link.id ∉ t.plans.flatMap fun p => Table.keys p.links)
      (links : p'.links = revokeLinks now link.participantId p.links ++ [link])
      (submissions : p'.submissions = p.submissions)
  | revoked (now : Instant) (link : AgencyLink) (found : Table.get link.id p.links = some link)
      (links : p'.links = Table.put { link with revokedAt := some now } p.links)
      (submissions : p'.submissions = p.submissions)

/-- What a request did to the links and the submissions of all plans. -/
inductive LinkStep (sha : Sha256) (r : Request) (t t' : Tenant) : Prop where
  | quiet (plans : t'.plans = t.plans)
  | added (p : MeasurementPlan) (new : New t p) (plans : t'.plans = t.plans ++ [p])
  | wrote (p p' : MeasurementPlan) (mem : p ∈ t.plans) (plans : t'.plans = Table.put p' t.plans)
      (id : p'.id = p.id) (h : LinkChange sha r t p p')

variable {r : Request} {actor : Id}

/-- A plan written by `changed` with its links and submissions as they were. -/
theorem LinkStep.ofChanged (mem : p ∈ t.plans) (id : p'.id = p.id) (links : p'.links = p.links)
    (submissions : p'.submissions = p.submissions) : LinkStep sha r t (t.changed p') :=
  .wrote p p'.advance mem rfl id (.none links submissions)

theorem measurements_links {op : Op} {response : Response}
    (h : op.handle sha t ctx actor = .ok (t', response)) : LinkStep sha r t t' := by
  cases op with
  | createPlan data =>
      simp only [Op.handle, createPlan, bind_eq_ok, pure_eq_ok, Prod.mk.injEq] at h
      obtain ⟨_, hvalid, _, _, _, _, p, hp, rfl, _⟩ := h
      exact .added p (newPlan_eq_ok hvalid hp).1 rfl
  | patchPlan planId data =>
      simp only [Op.handle, bind_eq_ok, pure_eq_ok, changedResponse, Prod.mk.injEq] at h
      obtain ⟨_, hvalid, p, hp, p', hp', rfl, _⟩ := h
      obtain ⟨_, _, hpatched⟩ := patchPlan_eq_ok hvalid hp'
      exact .ofChanged (getPlan_eq_ok hp).1 hpatched.id hpatched.links hpatched.submissions
  | submit planId data =>
      simp only [Op.handle, createSubmission, bind_eq_ok, pure_eq_ok, changedResponse,
        insertKey_eq_ok, Prod.mk.injEq] at h
      obtain ⟨_, _, p, hp, p', ⟨_, _, _, _, _, _, _, _, _, _, _, _, _, hfresh, rfl⟩, rfl, _⟩ := h
      exact .wrote p _ (getPlan_eq_ok hp).1 rfl rfl (.staff _ rfl hfresh rfl rfl)
  | propose planId data =>
      simp only [Op.handle, bind_eq_ok, pure_eq_ok, changedResponse, Prod.mk.injEq] at h
      obtain ⟨_, hvalid, p, hp, p', hp', rfl, _⟩ := h
      obtain ⟨_, _, hr⟩ := createReconciliation_eq_ok hvalid hp'
      rw [hr.plan]
      exact .ofChanged (getPlan_eq_ok hp).1 rfl rfl rfl
  | approve planId rid data =>
      simp only [Op.handle, bind_eq_ok, pure_eq_ok, changedResponse, Prod.mk.injEq] at h
      obtain ⟨_, _, p, hp, _, _, p', hp', rfl, _⟩ := h
      obtain ⟨_, _, ha⟩ := createApproval_eq_ok hp'
      rw [ha.plan]
      exact .ofChanged (getPlan_eq_ok hp).1 rfl rfl rfl
  | finalize planId rid version =>
      simp only [Op.handle, bind_eq_ok, pure_eq_ok, Prod.mk.injEq] at h
      obtain ⟨_, _, p, hp, _, _, t₁, ht₁, _, _, rfl, _⟩ := h
      obtain ⟨_, rfl⟩ | ⟨_, p', r', hr', rfl⟩ := finalizeReconciliation_cases ht₁
      · exact .quiet rfl
      · rw [hr'.plan]
        exact .ofChanged (getPlan_eq_ok hp).1 rfl rfl rfl
  | assess planId data =>
      simp only [Op.handle, bind_eq_ok, pure_eq_ok, changedResponse, Prod.mk.injEq] at h
      obtain ⟨_, hvalid, p, hp, p', hp', rfl, _⟩ := h
      obtain ⟨_, _, ha⟩ := createAssessment_eq_ok hvalid hp'
      rw [ha.plan]
      exact .ofChanged (getPlan_eq_ok hp).1 rfl rfl rfl
  | issue planId assessmentId version =>
      simp only [Op.handle, bind_eq_ok, pure_eq_ok, Prod.exists, Prod.mk.injEq] at h
      obtain ⟨_, _, p, hp, t₁, i, hi, _, _, rfl, _⟩ := h
      obtain ⟨a, _, _, ⟨_, rfl⟩ | ⟨_, p', hissued⟩⟩ := issueAssessment_cases hi
      · exact .quiet rfl
      · refine .wrote p p'.advance (getPlan_eq_ok hp).1 hissued.plans ?_ ?_
        · rw [hissued.plan]; rfl
        · rw [hissued.plan]; exact .none rfl rfl
  | createLink planId participant days token =>
      simp only [Op.handle, createAgencyLink, bind_eq_ok, raiseIf_eq_ok, pure_eq_ok, insertKey_eq_ok,
        Prod.exists, Prod.mk.injEq, not_not, ne_eq] at h
      obtain ⟨_, _, p, hp, p', link, ⟨_, _, q, hq, _, hfirst, _, hfresh, _, _, rfl, hlink⟩, rfl, _⟩ := h
      refine .wrote p _ (getPlan_eq_ok hp).1 rfl rfl (.created ctx.now link ?_ ?_ ?_ ?_ ?_ rfl)
      · rw [← hlink]
      · rw [← hlink]
      · rw [← hlink]
        exact hfirst
      · rw [← hlink]
        exact hfresh
      · rw [← hlink]
        rfl
  | revokeLink planId linkId =>
      simp only [Op.handle, revokeAgencyLink, bind_eq_ok, orRaise_eq_ok, pure_eq_ok,
        Prod.mk.injEq] at h
      obtain ⟨p, hp, p', ⟨link, hlink, hp'⟩, rfl, _⟩ := h
      have hid : link.id = linkId := (Table.mem_of_get hlink).2
      split at hp'
      · obtain rfl := pure_eq_ok.mp hp'
        exact .wrote p p (getPlan_eq_ok hp).1 rfl rfl (.none rfl rfl)
      · obtain rfl := pure_eq_ok.mp hp'
        exact .wrote p _ (getPlan_eq_ok hp).1 rfl rfl
          (.revoked ctx.now link (hid ▸ hlink) rfl rfl)
  | addEvidence planId data =>
      simp only [Op.handle, bind_eq_ok, pure_eq_ok, Prod.exists, Prod.mk.injEq] at h
      obtain ⟨p, hp, _, _, p', e, hp', rfl, _⟩ := h
      obtain ⟨es, rfl⟩ := addEvidence_eq_ok hp'
      exact .wrote p _ (getPlan_eq_ok hp).1 rfl rfl (.none rfl rfl)
  | createAgency data =>
      simp only [Op.handle, createAgency, bind_eq_ok, pure_eq_ok, Prod.exists, Prod.mk.injEq] at h
      obtain ⟨_, _, ⟨_, _, _, _, _, _, _, _, rfl, _⟩, rfl, _⟩ := h
      exact .quiet rfl
  | patchAgency agencyId version data =>
      simp only [Op.handle, patchAgency, bind_eq_ok, pure_eq_ok, Prod.exists, Prod.mk.injEq] at h
      obtain ⟨_, _, ⟨_, _, _, _, _, _, _, _, _, _, rfl, _⟩, rfl, _⟩ := h
      exact .quiet rfl

/-- **Every accepted request is a link step.** -/
theorem handle_links {a : VesselCaller.Response} (h : t.handle sha r = .ok (t', a)) :
    LinkStep sha r t t' := by
  cases r with
  | measurements actor ctx op =>
      simp only [Tenant.handle, bind_eq_ok, pure_eq_ok, Prod.exists, Prod.mk.injEq] at h
      obtain ⟨_, _, _, _, hop, rfl, _⟩ := h
      exact measurements_links hop
  | portal ctx op =>
      cases op with
      | exchange token nonce fresh =>
          simp only [Tenant.handle, PortalOp.handle, portalExchange, bind_eq_ok, pure_eq_ok,
            Prod.exists, Prod.mk.injEq] at h
          obtain ⟨_, _, ⟨_, _, ⟨_, _, _, _, _, h⟩, rfl, _⟩, rfl, _⟩ := h
          split at h
          · simp only [bind_eq_ok, pure_eq_ok, Prod.mk.injEq] at h
            obtain ⟨_, _, _, _, _, _, rfl, _⟩ := h
            exact .quiet rfl
          · simp only [bind_eq_ok, pure_eq_ok, Prod.mk.injEq] at h
            obtain ⟨_, _, rfl, _⟩ := h
            exact .quiet rfl
      | submit nonce data =>
          obtain ⟨_, p, link, hcontext, ⟨_, _, _, rfl, _⟩ | ⟨hunused, q, hready, rfl, _⟩⟩ :=
            portalSubmit_iff.mp h
          · exact .quiet rfl
          · exact .wrote p _ (getContext_eq_ok hcontext).1 rfl rfl
              (.guest ctx nonce data link q rfl hcontext hunused hready rfl)
  | operations actor ctx op =>
      simp only [Tenant.handle, bind_eq_ok, pure_eq_ok, Prod.exists, Prod.mk.injEq] at h
      obtain ⟨_, _, _, _, hop, rfl, _⟩ := h
      exact .quiet (operations_frame hop).2
  | billing actor ctx op =>
      simp only [Tenant.handle, bind_eq_ok, pure_eq_ok, Prod.exists, Prod.mk.injEq] at h
      obtain ⟨_, _, _, _, hop, rfl, _⟩ := h
      exact .quiet (billing_frame hop).1.2
  | organizations actor ctx op =>
      simp only [Tenant.handle, bind_eq_ok, pure_eq_ok, Prod.exists, Prod.mk.injEq] at h
      obtain ⟨_, _, _, _, hop, rfl, _⟩ := h
      exact .quiet (organizations_frame hop).plans
  | users actor ctx op =>
      simp only [Tenant.handle, bind_eq_ok, pure_eq_ok, Prod.exists, Prod.mk.injEq] at h
      obtain ⟨_, _, _, _, _, rfl, _⟩ := h
      exact .quiet rfl
  | auth ctx op =>
      simp only [Tenant.handle, bind_eq_ok, pure_eq_ok, Prod.exists, Prod.mk.injEq] at h
      obtain ⟨_, _, _, rfl, _⟩ := h
      exact .quiet rfl

/-! ## Rows of links and submissions -/

/-- Where a link of the plan comes from: it was there, and at most its revocation or its
submission is new; or it was created, and is the only live link of its participant. -/
inductive LinkOrigin (t : Tenant) (p p' : MeasurementPlan) (l' : AgencyLink) : Prop where
  | kept (l : AgencyLink) (mem : l ∈ p.links) (id : l'.id = l.id)
      (participant : l'.participantId = l.participantId)
      (live : l'.revokedAt = .none → l.revokedAt = .none)
      (submission : l'.submissionId = l.submissionId ∨ ∃ s ∈ p'.submissions,
        l'.submissionId = some s.id ∧ s.participantId = l'.participantId ∧ s.source = .agencyLink)
  | created (unused : l'.submissionId = .none)
      (fresh : l'.id ∉ t.plans.flatMap fun p => Table.keys p.links)
      (only : ∀ l ∈ p'.links, l.participantId = l'.participantId → l.revokedAt = .none →
        l.id = l'.id)

theorem LinkOrigin.ofMem {l : AgencyLink} (h : l ∈ p.links) : LinkOrigin t p p' l :=
  .kept l h rfl rfl id (.inl rfl)

theorem LinkChange.origin (h : LinkChange sha r t p p') {l' : AgencyLink} (hl' : l' ∈ p'.links) :
    LinkOrigin t p p' l' := by
  cases h with
  | none links _ => exact .ofMem (links ▸ hl')
  | staff s _ _ links _ => exact .ofMem (links ▸ hl')
  | guest ctx nonce data link q _ context _ ready plan =>
      have hq : q.id = link.participantId := (participantFor_eq_ok ready.participant).2
      subst plan
      obtain rfl | ⟨hl', _⟩ := Table.mem_put hl'
      · refine .kept link (getContext_eq_ok context).2 rfl rfl id (.inr ⟨data.toReturn t ctx p q, ?_,
          rfl, hq, rfl⟩)
        exact List.mem_append_right _ (List.mem_singleton_self _)
      · exact .ofMem hl'
  | created now link unused live first fresh links _ =>
      -- Every other live link of the participant has just been revoked.
      have hrevoked : ∀ l ∈ revokeLinks now link.participantId p.links,
          l.participantId = link.participantId → l.revokedAt ≠ .none := by
        intro l hl hparticipant hnone
        obtain ⟨l₀, _, rfl⟩ := List.mem_map.mp hl
        by_cases hlive : l₀.participantId = link.participantId ∧ l₀.revokedAt = .none
        · simp [hlive] at hnone
        · rw [if_neg hlive] at hparticipant hnone
          exact hlive ⟨hparticipant, hnone⟩
      rw [links] at hl'
      obtain hl' | hl' := List.mem_append.mp hl'
      · obtain ⟨l₀, hl₀, rfl⟩ := List.mem_map.mp hl'
        split
        · exact .kept l₀ hl₀ rfl rfl (fun hnone => absurd hnone (Option.some_ne_none now)) (.inl rfl)
        · exact .ofMem hl₀
      · rw [List.mem_singleton.mp hl']
        refine .created unused fresh fun l hl hparticipant hlive => ?_
        rw [links] at hl
        obtain hl | hl := List.mem_append.mp hl
        · exact absurd hlive (hrevoked l hl hparticipant)
        · rw [List.mem_singleton.mp hl]
  | revoked now link found links _ =>
      rw [links] at hl'
      obtain rfl | ⟨hl', _⟩ := Table.mem_put hl'
      · exact .kept link (Table.mem_of_get found).1 rfl rfl
          (fun hnone => absurd hnone (Option.some_ne_none now)) (.inl rfl)
      · exact .ofMem hl'

/-- A link that names a submission goes on naming it. -/
theorem LinkChange.used (h : LinkChange sha r t p p') (hkeys : (Table.keys p.links).Nodup)
    {l : AgencyLink} {sid : Id} (hl : l ∈ p.links) (hused : l.submissionId = some sid) :
    ∃ l' ∈ p'.links, l'.id = l.id ∧ l'.participantId = l.participantId ∧
      l'.submissionId = some sid ∧ l'.requestId = l.requestId ∧
      l'.requestDigest = l.requestDigest := by
  cases h with
  | none links _ => exact ⟨l, links ▸ hl, rfl, rfl, hused, rfl, rfl⟩
  | staff s _ _ links _ => exact ⟨l, links ▸ hl, rfl, rfl, hused, rfl, rfl⟩
  | guest ctx nonce data link q _ context unused _ plan =>
      subst plan
      have hne : l.id ≠ link.id := by
        intro heq
        rw [Table.eq_of_key_eq hkeys hl (getContext_eq_ok context).2 heq, unused] at hused
        cases hused
      exact ⟨l, Table.mem_put_of_ne hl hne, rfl, rfl, hused, rfl, rfl⟩
  | created now link _ _ _ _ links _ =>
      rw [links]
      refine ⟨_, List.mem_append_left _ (List.mem_map_of_mem hl), ?_⟩
      split
      · exact ⟨rfl, rfl, hused, rfl, rfl⟩
      · exact ⟨rfl, rfl, hused, rfl, rfl⟩
  | revoked now link found links _ =>
      rw [links]
      by_cases heq : l.id = link.id
      · obtain rfl := Table.eq_of_key_eq hkeys hl (Table.mem_of_get found).1 heq
        exact ⟨{ l with revokedAt := some now }, Table.mem_put_self hl rfl, rfl, rfl, hused, rfl, rfl⟩
      · exact ⟨l, Table.mem_put_of_ne hl heq, rfl, rfl, hused, rfl, rfl⟩

/-- The keys of the links stay unique. -/
theorem LinkChange.linkKeys (h : LinkChange sha r t p p') (mem : p ∈ t.plans)
    (hkeys : (Table.keys p.links).Nodup) : (Table.keys p'.links).Nodup := by
  cases h with
  | none links _ => rwa [links]
  | staff s _ _ links _ => rwa [links]
  | guest ctx nonce data link q _ _ _ _ plan =>
      subst plan
      show (Table.keys (Table.put _ p.links)).Nodup
      rwa [Table.keys_put]
  | created now link _ _ _ fresh links _ =>
      have hsame : Table.keys (revokeLinks now link.participantId p.links) =
          Table.keys p.links := by
        simp only [Table.keys, revokeLinks, List.map_map]
        refine List.map_congr_left fun l _ => ?_
        rw [Function.comp_apply]
        split <;> rfl
      rw [links]
      refine Table.nodup_keys_concat (hsame ▸ hkeys) ?_
      rw [hsame]
      exact fun hmem => fresh (List.mem_flatMap.mpr ⟨p, mem, hmem⟩)
  | revoked now link _ links _ => rwa [links, Table.keys_put]

/-- A submission of the plan was there, or is new: a staff submission, or the first one
of its participant. -/
theorem LinkChange.submission (h : LinkChange sha r t p p') {s' : Submission}
    (hs' : s' ∈ p'.submissions) : s' ∈ p.submissions ∨
      s'.source = .staff ∨ p.submissionsOf s'.participantId = [] ∧
        ∀ s ∈ p'.submissions, s.participantId = s'.participantId → s = s' := by
  cases h with
  | none _ submissions => exact .inl (submissions ▸ hs')
  | staff s source _ _ submissions =>
      rw [submissions] at hs'
      obtain hs' | hs' := List.mem_append.mp hs'
      · exact .inl hs'
      · exact .inr (.inl (List.mem_singleton.mp hs' ▸ source))
  | guest ctx nonce data link q _ _ _ ready plan =>
      have hq : q.id = link.participantId := (participantFor_eq_ok ready.participant).2
      subst plan
      obtain hs' | hs' := List.mem_append.mp hs'
      · exact .inl hs'
      · rw [List.mem_singleton.mp hs']
        have hfirst : p.submissionsOf q.id = [] := hq ▸ ready.first
        refine .inr (.inr ⟨hfirst, fun s hs hparticipant => ?_⟩)
        obtain hs | hs := List.mem_append.mp hs
        · have hnone : s ∈ p.submissionsOf link.participantId :=
            List.mem_filter.mpr ⟨hs, decide_eq_true (hparticipant.trans hq)⟩
          rw [ready.first] at hnone
          cases hnone
        · exact List.mem_singleton.mp hs
  | created _ _ _ _ _ _ _ submissions => exact .inl (submissions ▸ hs')
  | revoked _ _ _ _ submissions => exact .inl (submissions ▸ hs')

/-- At most one submission is appended, under a new key. -/
theorem LinkChange.submissions (h : LinkChange sha r t p p') :
    p'.submissions = p.submissions ∨ ∃ s, p'.submissions = p.submissions ++ [s] ∧
      s.id ∉ t.plans.flatMap fun p => Table.keys p.submissions := by
  cases h with
  | none _ submissions => exact .inl submissions
  | staff s _ fresh _ submissions => exact .inr ⟨s, submissions, fresh⟩
  | guest ctx nonce data link q _ _ _ ready plan =>
      exact .inr ⟨data.toReturn t ctx p q, by rw [plan]; rfl, ready.fresh⟩
  | created _ _ _ _ _ _ _ submissions => exact .inl submissions
  | revoked _ _ _ _ submissions => exact .inl submissions

theorem LinkChange.mem_submissions (h : LinkChange sha r t p p') {s : Submission}
    (hs : s ∈ p.submissions) : s ∈ p'.submissions := by
  obtain hsame | ⟨_, hmore, _⟩ := h.submissions
  · rwa [hsame]
  · rw [hmore]
    exact List.mem_append_left _ hs

end VesselCaller.Measurements
