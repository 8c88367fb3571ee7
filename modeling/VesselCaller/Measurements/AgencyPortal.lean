import VesselCaller.Measurements.Links

/-!
# The agency portal as a protocol

Staff create and revoke links, agencies exchange tokens and submit, responses get lost
and requests are repeated, and staff submit on behalf of participants — in any order.
This file shows what holds in all of them: a link leads to at most one submission, a
participant gets at most one submission through the portal and has at most one live
link, and a used link answers its own request again and refuses every other.

First submissions of different participants do not disturb each other: a portal
submission leaves everything alone that another one is checked for.

## Main definitions

* `LinksInOrder`, `PortalTables` — the invariants of the links and of the tables;
* `comesThrough`, `leadsToReturn` — a submission through a link, and one that makes a return;
* `Answered` — the link names the submission that answers a request.
-/

namespace VesselCaller.Measurements

open Lib Accounts Billing Operations

variable {sha : Sha256} {t t' : Tenant} {ctx : Ctx} {p p' : MeasurementPlan}
  {r : Request} {a : VesselCaller.Response}

/-! ## The tables -/

/-- The links and submissions of a plan are in order. -/
structure LinksInOrder (p : MeasurementPlan) : Prop where
  keys : (Table.keys p.links).Nodup
  submissionKeys : (Table.keys p.submissions).Nodup
  live : ∀ l ∈ p.links, ∀ l' ∈ p.links, l.participantId = l'.participantId →
    l.revokedAt = none → l'.revokedAt = none → l.id = l'.id
  named : ∀ l ∈ p.links, ∀ sid, l.submissionId = some sid → ∃ s ∈ p.submissions, s.id = sid ∧
    s.participantId = l.participantId ∧ s.source = .agencyLink
  once : ∀ s ∈ p.submissions, ∀ s' ∈ p.submissions, s.participantId = s'.participantId →
    s.source = .agencyLink → s'.source = .agencyLink → s = s'

theorem New.linksInOrder (h : New t p) : LinksInOrder p where
  keys := by simp [h.links]
  submissionKeys := by simp [h.submissions]
  live := by simp [h.links]
  named := by simp [h.links]
  once := by simp [h.submissions]

theorem LinkChange.linksInOrder (h : LinkChange sha r t p p') (mem : p ∈ t.plans)
    (hp : LinksInOrder p) : LinksInOrder p' where
  keys := h.linkKeys mem hp.keys
  submissionKeys := by
    obtain hsame | ⟨s, hmore, hfresh⟩ := h.submissions
    · rw [hsame]
      exact hp.submissionKeys
    · rw [hmore]
      refine Table.nodup_keys_concat hp.submissionKeys fun hmem => hfresh ?_
      exact List.mem_flatMap.mpr ⟨p, mem, hmem⟩
  live := by
    intro l₁ hl₁ l₂ hl₂ hparticipant hlive₁ hlive₂
    -- Two live links of a participant are both old, or one of them was just created alone.
    cases h.origin hl₁ with
    | created _ _ only => exact (only l₂ hl₂ hparticipant.symm hlive₂).symm
    | kept k₁ mem₁ id₁ participant₁ live₁ _ =>
        cases h.origin hl₂ with
        | created _ _ only => exact only l₁ hl₁ hparticipant hlive₁
        | kept k₂ mem₂ id₂ participant₂ live₂ _ =>
            rw [id₁, id₂]
            refine hp.live k₁ mem₁ k₂ mem₂ ?_ (live₁ hlive₁) (live₂ hlive₂)
            rw [← participant₁, ← participant₂, hparticipant]
  named := by
    intro l' hl' sid hsid
    cases h.origin hl' with
    | created unused _ _ => rw [unused] at hsid; cases hsid
    | kept l mem' _ participant _ submission =>
        obtain hsame | ⟨s, hs, hnamed, howner, hsource⟩ := submission
        · obtain ⟨s, hs, hid, howner, hsource⟩ := hp.named l mem' sid (hsame ▸ hsid)
          exact ⟨s, h.mem_submissions hs, hid, howner.trans participant.symm, hsource⟩
        · rw [hnamed, Option.some.injEq] at hsid
          exact ⟨s, hs, hsid, howner, hsource⟩
  once := by
    intro s₁ hs₁ s₂ hs₂ hparticipant hsource₁ hsource₂
    -- A portal submission that is new is the only one of its participant.
    have hnew : ∀ {s s' : Submission}, s ∈ p'.submissions → s' ∈ p'.submissions →
        s.participantId = s'.participantId → s.source = .agencyLink →
        s ∉ p.submissions → s' = s := by
      intro s s' hs hs' hsame hsource hold
      obtain hmem | hstaff | ⟨_, honly⟩ := h.submission hs
      · exact absurd hmem hold
      · rw [hstaff] at hsource; cases hsource
      · exact honly s' hs' hsame.symm
    by_cases hold₁ : s₁ ∈ p.submissions
    · by_cases hold₂ : s₂ ∈ p.submissions
      · exact hp.once s₁ hold₁ s₂ hold₂ hparticipant hsource₁ hsource₂
      · exact hnew hs₂ hs₁ hparticipant.symm hsource₂ hold₂
    · exact (hnew hs₁ hs₂ hparticipant hsource₁ hold₁).symm

/-- The links of all plans have keys of their own. -/
structure PortalTables (t : Tenant) : Prop where
  plans : PlansInOrder t
  order : ∀ p ∈ t.plans, LinksInOrder p
  links : ∀ p ∈ t.plans, ∀ p' ∈ t.plans, ∀ l ∈ p.links, ∀ l' ∈ p'.links, l.id = l'.id →
    p.id = p'.id

theorem PortalTables.ofInitial (h : t.Initial) : PortalTables t where
  plans := .ofInitial h
  order := by simp [h.plans]
  links := by simp [h.plans]

/-- Two rows of one link key are the same row of the same plan. -/
theorem PortalTables.unique (h : PortalTables t) {l l' : AgencyLink} (hp : p ∈ t.plans)
    (hp' : p' ∈ t.plans) (hl : l ∈ p.links) (hl' : l' ∈ p'.links) (hid : l.id = l'.id) :
    p = p' ∧ l = l' := by
  obtain rfl := Table.eq_of_key_eq h.plans.keys hp hp' (h.links p hp p' hp' l hl l' hl' hid)
  exact ⟨rfl, Table.eq_of_key_eq (h.order p hp).keys hl hl' hid⟩

theorem PortalTables.step (h : PortalTables t) (hr : t.handle sha r = .ok (t', a)) :
    PortalTables t' := by
  cases handle_links hr with
  | quiet plans =>
      exact ⟨h.plans.step hr, plans ▸ h.order, plans ▸ h.links⟩
  | added q new plans =>
      refine ⟨h.plans.step hr, ?_, ?_⟩
      · rw [plans]
        intro p hp
        obtain hp | hp := List.mem_append.mp hp
        · exact h.order p hp
        · rw [List.mem_singleton.mp hp]
          exact new.linksInOrder
      · -- A new plan has no links.
        have hold : ∀ p ∈ t'.plans, ∀ l ∈ p.links, p ∈ t.plans := by
          rw [plans]
          intro p hp l hl
          obtain hp | hp := List.mem_append.mp hp
          · exact hp
          · rw [List.mem_singleton.mp hp, new.links] at hl
            cases hl
        intro p hp p' hp' l hl l' hl' hid
        exact h.links p (hold p hp l hl) p' (hold p' hp' l' hl') l hl l' hl' hid
  | wrote q q' mem plans hid hchange =>
      refine ⟨h.plans.step hr, ?_, ?_⟩
      · rw [plans]
        intro p hp
        obtain rfl | ⟨hp, _⟩ := Table.mem_put hp
        · exact hchange.linksInOrder mem (h.order q mem)
        · exact h.order p hp
      · -- A link of the written plan is an old one of it, or its key is new.
        have hwritten : ∀ p ∈ t.plans, ∀ l ∈ p.links, ∀ l' ∈ q'.links, l.id = l'.id →
            p.id = q'.id := by
          intro p hp l hl l' hl' hkey
          cases hchange.origin hl' with
          | kept k hk hkid _ _ _ => rw [hid, h.links p hp q mem l hl k hk (hkey.trans hkid)]
          | created _ fresh _ =>
              refine absurd (List.mem_flatMap.mpr ⟨p, hp, ?_⟩) fresh
              rw [← hkey]
              exact Table.mem_keys.mpr ⟨l, hl, rfl⟩
        rw [plans]
        intro p₁ hp₁ p₂ hp₂ l hl l' hl' hkey
        obtain rfl | ⟨hold₁, _⟩ := Table.mem_put hp₁
        · obtain rfl | ⟨hold₂, _⟩ := Table.mem_put hp₂
          · rfl
          · exact (hwritten p₂ hold₂ l' hl' l hl hkey.symm).symm
        · obtain rfl | ⟨hold₂, _⟩ := Table.mem_put hp₂
          · exact hwritten p₁ hold₁ l hl l' hl' hkey
          · exact h.links p₁ hold₁ p₂ hold₂ l hl l' hl' hkey

theorem PortalTables.run (h : PortalTables t) (rs : List Request) :
    PortalTables (run (Tenant.handle sha) t rs) :=
  run_invariant (fun hs hr => hs.step hr) rs h

/-! ## Used links -/

/-- The link names the submission, which answers the request. -/
def Answered (plan link : Id) (requestId : String) (digest : RequestDigest) (s : Submission)
    (t : Tenant) : Prop :=
  ∃ p ∈ t.plans, p.id = plan ∧ s ∈ p.submissions ∧ ∃ l ∈ p.links, l.id = link ∧
    l.submissionId = some s.id ∧ l.requestId = requestId ∧ l.requestDigest = digest

variable {plan link : Id} {requestId : String} {digest : RequestDigest} {s : Submission}

theorem Answered.step (h : Answered plan link requestId digest s t) (ht : PortalTables t)
    (hr : t.handle sha r = .ok (t', a)) : Answered plan link requestId digest s t' := by
  obtain ⟨p, hp, hid, hs, l, hl, hlid, hsid, hrequest, hdigest⟩ := h
  cases handle_links hr with
  | quiet plans => exact ⟨p, plans ▸ hp, hid, hs, l, hl, hlid, hsid, hrequest, hdigest⟩
  | added q new plans =>
      exact ⟨p, plans ▸ List.mem_append_left _ hp, hid, hs, l, hl, hlid, hsid, hrequest, hdigest⟩
  | wrote q q' mem plans hq' hchange =>
      rw [Answered, plans]
      by_cases hpq : p.id = q.id
      · obtain rfl := Table.eq_of_key_eq ht.plans.keys hp mem hpq
        obtain ⟨l', hl', hid', _, hused, hrequest', hdigest'⟩ :=
          hchange.used (ht.order p hp).keys hl hsid
        exact ⟨q', Table.mem_put_self hp hq'.symm, hq'.trans hid, hchange.mem_submissions hs, l', hl',
          hid'.trans hlid, hused, hrequest'.trans hrequest, hdigest'.trans hdigest⟩
      · have hne : key p ≠ key q' := fun heq => hpq (heq.trans hq')
        exact ⟨p, Table.mem_put_of_ne hp hne, hid, hs, l, hl, hlid, hsid, hrequest, hdigest⟩

theorem Answered.run (h : Answered plan link requestId digest s t) (ht : PortalTables t)
    (rs : List Request) : Answered plan link requestId digest s (run (Tenant.handle sha) t rs) := by
  refine (run_invariant (P := fun t => PortalTables t ∧ Answered plan link requestId digest s t)
    ?_ rs ⟨ht, h⟩).2
  rintro t₁ r t₂ a ⟨ht₁, h₁⟩ hr
  exact ⟨ht₁.step hr, h₁.step ht₁ hr⟩

/-- A used link shows its own submission. -/
theorem ownReport_of_used {contextId : Id} {l : AgencyLink} (hp : LinksInOrder p)
    (hs : s ∈ p.submissions) (hsid : l.submissionId = some s.id) :
    (contextData sha t contextId p l).ownReport = some (reportData p true s) := by
  have hget : Table.get s.id p.submissions = some s := Table.get_of_mem hp.submissionKeys hs
  show (l.submissionId.bind (Table.get · p.submissions)).map (reportData p true) = _
  rw [hsid, Option.bind_some, hget]
  rfl

/-- An accepted portal submission leaves its link with the answer to its request. -/
theorem Answered.ofAccepted {nonce : String} {data : GuestSubmission} {l : AgencyLink}
    (ht : PortalTables t) (hcontext : getContext sha t ctx.now data.contextId nonce = .ok (p, l))
    (hr : t.handle sha (.portal ctx (.submit nonce data)) = .ok (t', a)) :
    ∃ s p' c, Answered p.id l.id data.requestId (sha.body data) s t' ∧ p' ∈ t'.plans ∧
      p'.id = p.id ∧ p'.participants = p.participants ∧ a = .measurements (.context c) ∧
      c.ownReport = some (reportData p' true s) := by
  obtain ⟨hp, hl⟩ := getContext_eq_ok hcontext
  obtain ⟨_, q, k, hcontext', hcases⟩ := portalSubmit_iff.mp hr
  rw [hcontext, Except.ok.injEq, Prod.mk.injEq] at hcontext'
  obtain ⟨rfl, rfl⟩ := hcontext'
  obtain ⟨hused, hid, hdigest, rfl, ha⟩ | ⟨_, w, hready, rfl, ha⟩ := hcases
  · obtain ⟨sid, hsid⟩ := Option.isSome_iff_exists.mp hused
    obtain ⟨s, hs, rfl, _, _⟩ := (ht.order p hp).named l hl sid hsid
    exact ⟨s, p, _, ⟨p, hp, rfl, hs, l, hl, rfl, hsid, hid, hdigest⟩, hp, rfl, rfl, ha,
      ownReport_of_used (ht.order p hp) hs hsid⟩
  · have hp' : (data.record sha t ctx p l w).advance ∈
        (t.changed (data.record sha t ctx p l w)).plans := Table.mem_put_self hp rfl
    have hs : data.toReturn t ctx p w ∈ (data.record sha t ctx p l w).advance.submissions :=
      List.mem_append_right _ (List.mem_singleton_self _)
    have hl' : l.usedBy sha data (ctx.uuid 0) ∈ (data.record sha t ctx p l w).advance.links :=
      Table.mem_put_self hl rfl
    exact ⟨data.toReturn t ctx p w, _, _, ⟨_, hp', rfl, hs, _, hl', rfl, rfl, rfl, rfl⟩, hp', rfl, rfl,
      ha, ownReport_of_used ((ht.step hr).order _ hp') hs rfl⟩

/-! ## One return for every link -/

/-- The keys of all returns. -/
def returns (t : Tenant) : List Id := t.plans.flatMap fun p => Table.keys p.submissions

/-- The request is a portal submission in a session of the link. -/
def comesThrough (sha : Sha256) (link : Id) (t : Tenant) : Request → Bool
  | .portal ctx (.submit nonce data) =>
      match getContext sha t ctx.now data.contextId nonce with
      | .ok (_, l) => l.id = link
      | .error _ => false
  | _ => false

/-- The request comes through the link and leaves other returns than it found. -/
def leadsToReturn (sha : Sha256) (link : Id) (t : Tenant) (r : Request) : Bool :=
  comesThrough sha link t r && decide (returns (serve (Tenant.handle sha) t r) ≠ returns t)

/-- The link names a return. -/
def Used (link : Id) (t : Tenant) : Prop :=
  ∃ plan requestId digest s, Answered plan link requestId digest s t

/-- A request that leads to a return finds its link unused and leaves it used. -/
theorem used_of_leadsToReturn (ht : PortalTables t) (hleads : leadsToReturn sha link t r = true)
    (hr : t.handle sha r = .ok (t', a)) : ¬Used link t ∧ Used link t' := by
  rw [leadsToReturn, Bool.and_eq_true, decide_eq_true_eq, serve_of_ok _ hr] at hleads
  obtain ⟨hthrough, hreturns⟩ := hleads
  unfold comesThrough at hthrough
  split at hthrough
  · rename_i ctx nonce data
    split at hthrough
    · rename_i p l hcontext
      obtain rfl : l.id = link := by simpa using hthrough
      obtain ⟨hp, hl⟩ := getContext_eq_ok hcontext
      obtain ⟨s, _, _, hanswered, _⟩ := Answered.ofAccepted ht hcontext hr
      refine ⟨?_, _, _, _, s, hanswered⟩
      rintro ⟨plan, requestId, digest, s', p', hp', _, _, l', hl', hid, hused, _⟩
      obtain ⟨rfl, rfl⟩ := ht.unique hp' hp hl' hl hid
      -- A used link only answers again.
      obtain ⟨_, q, k, hcontext', ⟨_, _, _, rfl, _⟩ | ⟨hunused, _⟩⟩ := portalSubmit_iff.mp hr
      · exact hreturns rfl
      · rw [hcontext, Except.ok.injEq, Prod.mk.injEq] at hcontext'
        rw [hcontext'.2, hunused] at hused
        cases hused
    · cases hthrough
  · cases hthrough

theorem leadsToReturn_of_error {e : ApiError} (hr : t.handle sha r = .error e) :
    leadsToReturn sha link t r = false := by
  rw [leadsToReturn, serve_of_error _ hr]
  simp

/-- **At most one request of a run leads to a return through the link**, and one that
does leaves it used. -/
theorem PortalTables.leadsToReturn_once {t₀ : Tenant} (h₀ : PortalTables t₀) (link : Id)
    (rs : List Request) :
    countAlong (Tenant.handle sha) (leadsToReturn sha link) t₀ rs ≤ 1 := by
  refine countAlong_le_one (I := PortalTables) (P := Used link) (fun ht hr => ht.step hr) ?_
    leadsToReturn_of_error (fun ht hleads hr => used_of_leadsToReturn ht hleads hr) h₀ rs
  rintro t r t' a ht ⟨plan, requestId, digest, s, hanswered⟩ hr
  exact ⟨plan, requestId, digest, s, hanswered.step ht hr⟩

/-- A participant gets at most one return through the portal. -/
theorem LinksInOrder.length_portal (h : LinksInOrder p) (q : Id) :
    ((p.submissionsOf q).filter fun s => s.source = .agencyLink).length ≤ 1 := by
  have hnodup : p.submissions.Nodup := List.Nodup.of_map _ h.submissionKeys
  refine length_le_one_of_forall_eq ((hnodup.filter _).filter _) fun s hs s' hs' => ?_
  simp only [MeasurementPlan.submissionsOf, List.mem_filter, decide_eq_true_eq] at hs hs'
  exact h.once s hs.1.1 s' hs'.1.1 (hs.1.2.trans hs'.1.2.symm) hs.2 hs'.2

/-- A participant has at most one link that is not revoked. -/
theorem LinksInOrder.length_live (h : LinksInOrder p) (q : Id) :
    (p.links.filter fun l => l.participantId = q ∧ l.revokedAt = none).length ≤ 1 := by
  have hnodup : p.links.Nodup := List.Nodup.of_map _ h.keys
  refine length_le_one_of_forall_eq (hnodup.filter _) fun l hl l' hl' => ?_
  simp only [List.mem_filter, decide_eq_true_eq] at hl hl'
  obtain ⟨hl, howner, hlive⟩ := hl
  obtain ⟨hl', howner', hlive'⟩ := hl'
  exact Table.eq_of_key_eq h.keys hl hl'
    (h.live l hl l' hl' (howner.trans howner'.symm) hlive hlive')

/-! ## Repeated requests -/

/-- What the portal does with a request that reaches a used link: the recorded body is
answered with the recorded return, any other is refused. -/
theorem Answered.again {nonce : String} {data : GuestSubmission} {l : AgencyLink}
    {body : GuestSubmission} (hsha : Function.Injective sha.body) (ht : PortalTables t)
    (h : Answered plan link body.requestId (sha.body body) s t) (hbody : body.validate = .ok ())
    (hcontext : getContext sha t ctx.now data.contextId nonce = .ok (p, l)) (hlink : l.id = link) :
    (data = body → ∃ c, t.handle sha (.portal ctx (.submit nonce data)) =
      .ok (t, .measurements (.context c)) ∧ c.ownReport = some (reportData p true s)) ∧
    (data ≠ body → ∃ e, t.handle sha (.portal ctx (.submit nonce data)) = .error e) := by
  obtain ⟨hp, hl⟩ := getContext_eq_ok hcontext
  obtain ⟨p', hp', _, hs, l', hl', hid, hused, hrequest, hdigest⟩ := h
  obtain ⟨rfl, rfl⟩ := ht.unique hp' hp hl' hl (hid.trans hlink.symm)
  constructor
  · rintro rfl
    refine ⟨contextData sha t data.contextId p' l', portalSubmit_iff.mpr ⟨hbody, p', l', hcontext,
      .inl ⟨?_, hrequest, hdigest, rfl, rfl⟩⟩, ownReport_of_used (ht.order p' hp) hs hused⟩
    rw [hused]
    rfl
  · intro hne
    cases hr : t.handle sha (.portal ctx (.submit nonce data)) with
    | error e => exact ⟨e, rfl⟩
    | ok answer =>
        exfalso
        obtain ⟨_, q, k, hcontext', hcases⟩ := portalSubmit_iff.mp hr
        rw [hcontext, Except.ok.injEq, Prod.mk.injEq] at hcontext'
        obtain ⟨rfl, rfl⟩ := hcontext'
        obtain ⟨_, _, hdigest', _⟩ | ⟨hunused, _⟩ := hcases
        · exact hne (hsha (hdigest'.symm.trans hdigest))
        · rw [hunused] at hused
          cases hused

end VesselCaller.Measurements
