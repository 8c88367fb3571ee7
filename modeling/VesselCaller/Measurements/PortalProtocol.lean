import VesselCaller.Measurements.AgencyPortal
import VesselCaller.Measurements.Finality

/-!
# Portal submissions commute

Several agencies have the form of one plan open and submit in some order.  Every
submission advances the version of the plan and changes its status, but neither is
among the things a portal submission is checked for: `getContext_record` and
`GuestReady.record` say that whatever another participant's form was checked for is
still as it was.  So all of them succeed in every order, and the readings they leave
differ in their order only.

The file ends with the protocol as a whole.

## Main definitions

* `Form` — an open form, with the request it makes;
* `Reporting` — forms of different participants, each of which would be accepted;
* `readings`, `latestReadings` — the returns as they are shown.
-/

namespace VesselCaller.Measurements

open Lib Accounts Billing Operations

variable {sha : Sha256} {t t' : Tenant} {ctx : Ctx} {p p' : MeasurementPlan}
  {l k : AgencyLink} {data : GuestSubmission} {q : Participant}

/-! ## The session of a form -/

theorem findLink_eq_some (ht : PortalTables t) {id : Id} :
    findLink t.plans id = some (p, l) ↔ p ∈ t.plans ∧ l ∈ p.links ∧ l.id = id := by
  have hfound : ∀ {p l}, findLink t.plans id = some (p, l) →
      p ∈ t.plans ∧ l ∈ p.links ∧ l.id = id := by
    intro p l h
    obtain ⟨p', hp', hlink⟩ := List.exists_of_findSome?_eq_some h
    obtain ⟨l', hl', heq⟩ := Option.map_eq_some_iff.mp hlink
    obtain ⟨rfl, rfl⟩ := Prod.mk.inj heq
    exact ⟨hp', Table.mem_of_get hl'⟩
  refine ⟨hfound, ?_⟩
  rintro ⟨hp, hl, hid⟩
  -- Some link of that key is found, and there is only one.
  cases h : findLink t.plans id with
  | none =>
      have hget : Table.get id p.links = some l := hid ▸ Table.get_of_mem (ht.order p hp).keys hl
      have hnone := List.findSome?_eq_none_iff.mp h p hp
      rw [hget] at hnone
      cases hnone
  | some found =>
      obtain ⟨hp', hl', hid'⟩ := hfound h
      obtain ⟨rfl, rfl⟩ := ht.unique hp' hp hl' hl (hid'.trans hid.symm)
      rfl

/-- The session of a form leads to the link it was opened with. -/
theorem getContext_iff (ht : PortalTables t) {now : Instant} {contextId : Id} {nonce : String} :
    getContext sha t now contextId nonce = .ok (p, l) ↔
      (∃ s, (if nonce = "" then none else t.portalSessions.find? fun s =>
          s.id = contextId && s.browserDigest = sha.text nonce && now < s.expiresAt) = some s ∧
        s.linkId = l.id) ∧
      (t.organization.kind = .customer ∧ t.organization.accessStatus = .active) ∧
      (l.revokedAt = none ∧ now < l.expiresAt) ∧ p ∈ t.plans ∧ l ∈ p.links := by
  simp only [getContext, lockedLink, bind_eq_ok, orRaise_eq_ok, raiseIf_eq_ok, pure_eq_ok,
    Option.bind_some, Prod.exists, not_or, not_not, ne_eq, Bool.not_eq_true, not_le,
    Option.isSome_eq_false_iff, Option.isNone_iff_eq_none]
  constructor
  · rintro ⟨s, hs, p', l', hfound, _, horganization, _, hvalid, heq⟩
    obtain ⟨rfl, rfl⟩ := Prod.mk.inj heq
    obtain ⟨hp, hl, hid⟩ := (findLink_eq_some ht).mp hfound
    exact ⟨⟨s, hs, hid.symm⟩, horganization, hvalid, hp, hl⟩
  · rintro ⟨⟨s, hs, hid⟩, horganization, hvalid, hp, hl⟩
    exact ⟨s, hs, p, l, (findLink_eq_some ht).mpr ⟨hp, hl, hid.symm⟩, (), horganization, (), hvalid,
      rfl⟩

/-! ## One submission beside another form -/

/-- The session of another participant's form leads to the same link, on the plan as the
submission left it. -/
theorem getContext_record {now : Instant} {contextId : Id} {nonce : String} (ht : PortalTables t)
    (ht' : PortalTables (t.changed (data.record sha t ctx p l q))) (hne : k.id ≠ l.id)
    (hcontext : getContext sha t now contextId nonce = .ok (p, k)) :
    getContext sha (t.changed (data.record sha t ctx p l q)) now contextId nonce =
      .ok ((data.record sha t ctx p l q).advance, k) := by
  obtain ⟨hsession, horganization, hvalid, hp, hk⟩ := (getContext_iff ht).mp hcontext
  refine (getContext_iff ht').mpr ⟨hsession, horganization, hvalid, ?_, ?_⟩
  · exact Table.mem_put_self hp rfl
  · exact Table.mem_put_of_ne hk hne

theorem portalFingerprint_record :
    portalFingerprint sha (t.changed (data.record sha t ctx p l q))
      (data.record sha t ctx p l q).advance = portalFingerprint sha t p := rfl

/-- What another participant's form is checked for is as it was. -/
theorem GuestReady.record {ctx' : Ctx} {data' : GuestSubmission} {q' : Participant}
    (h : GuestReady sha t ctx p l data q) (h' : GuestReady sha t ctx' p k data' q')
    (hp : p ∈ t.plans) (hne : k.participantId ≠ l.participantId)
    (hkey : ctx'.uuid 0 ≠ ctx.uuid 0) :
    GuestReady sha (t.changed (data.record sha t ctx p l q)) ctx'
      (data.record sha t ctx p l q).advance k data' q' where
  opened := by
    obtain ⟨_, hcall, hfinal⟩ := assertOpen_eq_ok.mp h'.opened
    exact assertOpen_eq_ok.mpr ⟨by simp [GuestSubmission.record, MeasurementPlan.withReturn,
      MeasurementPlan.advance], hcall, hfinal⟩
  shown := h'.shown
  fingerprint := h'.fingerprint
  first := by
    have howner : (data.toReturn t ctx p q).participantId ≠ k.participantId := by
      show q.id ≠ k.participantId
      rw [(participantFor_eq_ok h.participant).2]
      exact hne.symm
    show (p.submissions ++ [data.toReturn t ctx p q]).filter _ = []
    rw [List.filter_append, List.filter_singleton, decide_eq_false howner]
    exact List.append_eq_nil_iff.mpr ⟨h'.first, rfl⟩
  participant := h'.participant
  lines := h'.lines
  fresh := by
    intro hmem
    obtain ⟨p', hp', hkey'⟩ := List.mem_flatMap.mp hmem
    obtain rfl | ⟨hp', _⟩ := Table.mem_put hp'
    · -- The keys of the written plan are the old ones and the one just drawn.
      have hkeys : ctx'.uuid 0 ∈ Table.keys (p.submissions ++ [data.toReturn t ctx p q]) := hkey'
      rw [Table.keys_append, List.mem_append] at hkeys
      obtain hold | hnew := hkeys
      · exact h'.fresh (List.mem_flatMap.mpr ⟨p, hp, hold⟩)
      · exact hkey (List.mem_singleton.mp hnew)
    · exact h'.fresh (List.mem_flatMap.mpr ⟨p', hp', hkey'⟩)

/-! ## Open forms -/

/-- The submission of a form. -/
structure Form where
  ctx : Ctx
  nonce : String
  data : GuestSubmission

variable {f g : Form} {fs : List Form} {plan : Id}

namespace Form

def request (f : Form) : Request := .portal f.ctx (.submit f.nonce f.data)

/-- The plan and the link of the session. -/
def context (sha : Sha256) (t : Tenant) (f : Form) : Result (MeasurementPlan × AgencyLink) :=
  getContext sha t f.ctx.now f.data.contextId f.nonce

/-- The link of the session, when it is one of the plan. -/
def link (sha : Sha256) (plan : Id) (t : Tenant) (f : Form) : Option AgencyLink :=
  match f.context sha t with
  | .ok (p, l) => if p.id = plan then some l else none
  | .error _ => none

/-- The reading a form adds: none when its link is used and it only repeats its
request. -/
def reading (sha : Sha256) (plan : Id) (t : Tenant) (f : Form) : Option SubmissionData :=
  (f.link sha plan t).bind fun l =>
    if l.submissionId.isSome then none
    else some {
      id := f.ctx.uuid 0
      participantId := l.participantId
      revision := 1
      observedAt := f.data.observedAt
      sourceReference := f.data.sourceReference
      notes := f.data.notes
      reason := ""
      recordedBy := ⟨.agency l.participantId, f.data.representative⟩
      source := .agencyLink
      representative := f.data.representative
      recordedAt := f.ctx.now
      lines := f.data.lines
      evidenceIds := [] }

theorem link_eq_some : f.link sha plan t = some l ↔
    ∃ p, f.context sha t = .ok (p, l) ∧ p.id = plan := by
  unfold link
  cases h : f.context sha t with
  | error e => simp
  | ok c =>
      obtain ⟨p, l'⟩ := c
      by_cases hid : p.id = plan
      · simp [hid]
      · simp [hid]

end Form

/-- What a submission in a form does, and what it leaves of another participant's form. -/
theorem Form.beside {a : VesselCaller.Response} (ht : PortalTables t)
    (hf : t.handle sha f.request = .ok (t', a)) (hl : f.link sha plan t = some l)
    (hk : g.link sha plan t = some k) (hne : k.participantId ≠ l.participantId)
    (hkey : g.ctx.uuid 0 ≠ f.ctx.uuid 0) (hg : (t.handle sha g.request).isOk = true) :
    g.link sha plan t' = some k ∧ (t'.handle sha g.request).isOk = true := by
  obtain ⟨p, hcontext, hid⟩ := Form.link_eq_some.mp hl
  obtain ⟨p', hcontext', hid'⟩ := Form.link_eq_some.mp hk
  have hp := (getContext_eq_ok hcontext).1
  obtain rfl : p' = p :=
    Table.eq_of_key_eq ht.plans.keys (getContext_eq_ok hcontext').1 hp (hid'.trans hid.symm)
  have hlinks : k.id ≠ l.id := by
    intro heq
    obtain rfl := (ht.unique hp hp (getContext_eq_ok hcontext').2 (getContext_eq_ok hcontext).2
      heq).2
    exact hne rfl
  obtain ⟨_, c, m, hc, ⟨_, _, _, rfl, _⟩ | ⟨_, q, hready, rfl, _⟩⟩ := portalSubmit_iff.mp hf
  · exact ⟨hk, hg⟩
  · obtain ⟨rfl, rfl⟩ := Prod.mk.inj (Except.ok.inj (hcontext.symm.trans hc))
    have hafter := getContext_record ht (ht.step hf) hlinks hcontext'
    refine ⟨Form.link_eq_some.mpr ⟨_, hafter, hid⟩, ?_⟩
    obtain ⟨t₂, a₂, hg⟩ := exists_of_isOk hg
    obtain ⟨hvalid, c', m', hc', hcases⟩ := portalSubmit_iff.mp hg
    obtain ⟨rfl, rfl⟩ := Prod.mk.inj (Except.ok.inj (hcontext'.symm.trans hc'))
    -- A repeated request is answered again, a first submission is ready as it was.
    obtain ⟨hused, hrequest, hdigest, _, _⟩ | ⟨hunused, q', hready', _, _⟩ := hcases
    · rw [Form.request, portalSubmit_iff.mpr ⟨hvalid, _, _, hafter, .inl ⟨hused, hrequest, hdigest,
        rfl, rfl⟩⟩]
      rfl
    · rw [Form.request, portalSubmit_iff.mpr ⟨hvalid, _, _, hafter, .inr ⟨hunused, q',
        hready.record hready' hp hne hkey, rfl, rfl⟩⟩]
      rfl

/-- Forms of different participants on one plan, each of which would be accepted. -/
structure Reporting (sha : Sha256) (plan : Id) (t : Tenant) (fs : List Form) : Prop where
  accepted : ∀ f ∈ fs, (f.link sha plan t).isSome = true ∧ (t.handle sha f.request).isOk = true
  participants : (fs.map fun f => (f.link sha plan t).map AgencyLink.participantId).Nodup
  keys : (fs.map fun f => f.ctx.uuid 0).Nodup

theorem Reporting.perm {fs' : List Form} (h : Reporting sha plan t fs) (hperm : fs'.Perm fs) :
    Reporting sha plan t fs' where
  accepted := fun f hf => h.accepted f (hperm.mem_iff.mp hf)
  participants := (hperm.map _).nodup_iff.mpr h.participants
  keys := (hperm.map _).nodup_iff.mpr h.keys

/-- Serving one of the forms leaves the others acceptable, with the links they had. -/
theorem Reporting.step {a : VesselCaller.Response} (h : Reporting sha plan t (f :: fs))
    (ht : PortalTables t) (hf : t.handle sha f.request = .ok (t', a)) :
    Reporting sha plan t' fs ∧ ∀ g ∈ fs, g.link sha plan t' = g.link sha plan t := by
  obtain ⟨hdiffer, hparticipants⟩ := List.nodup_cons.mp h.participants
  obtain ⟨hdraws, hkeys⟩ := List.nodup_cons.mp h.keys
  obtain ⟨l, hl⟩ := Option.isSome_iff_exists.mp (h.accepted f List.mem_cons_self).1
  have hrest : ∀ g ∈ fs, (g.link sha plan t).isSome = true ∧
      g.link sha plan t' = g.link sha plan t ∧ (t'.handle sha g.request).isOk = true := by
    intro g hg
    obtain ⟨hsome, hok⟩ := h.accepted g (List.mem_cons_of_mem f hg)
    obtain ⟨k, hk⟩ := Option.isSome_iff_exists.mp hsome
    have hne : k.participantId ≠ l.participantId := by
      intro heq
      refine hdiffer (List.mem_map.mpr ⟨g, hg, ?_⟩)
      show (g.link sha plan t).map _ = (f.link sha plan t).map _
      rw [hk, hl, Option.map_some, Option.map_some, heq]
    have hkey : g.ctx.uuid 0 ≠ f.ctx.uuid 0 := fun heq =>
      hdraws (List.mem_map.mpr ⟨g, hg, heq⟩)
    obtain ⟨hk', hok'⟩ := Form.beside ht hf hl hk hne hkey hok
    exact ⟨hsome, hk'.trans hk.symm, hok'⟩
  refine ⟨⟨?_, ?_, hkeys⟩, fun g hg => (hrest g hg).2.1⟩
  · intro g hg
    obtain ⟨hsome, hlink, hok⟩ := hrest g hg
    exact ⟨hlink ▸ hsome, hok⟩
  · rw [List.map_congr_left fun g hg => by rw [(hrest g hg).2.1]]
    exact hparticipants

/-! ## Readings -/

/-- The returns of a plan as they are shown. -/
def readings (t : Tenant) (p : MeasurementPlan) : List SubmissionData :=
  p.submissions.map (submissionData t.users)

/-- The plan in the state a form leaves: its readings with that of the form, and what was
shown of it as it was. -/
theorem Form.adds {a : VesselCaller.Response} (hf : t.handle sha f.request = .ok (t', a))
    (hl : f.link sha plan t = some l) (ht : PortalTables t) (hp : p ∈ t.plans)
    (hid : p.id = plan) :
    ∃ p' ∈ t'.plans, p'.id = plan ∧ t'.users = t.users ∧
      readings t' p' = readings t p ++ (f.reading sha plan t).toList ∧
      portalFingerprint sha t' p' = portalFingerprint sha t p := by
  obtain ⟨p₁, hcontext, hid₁⟩ := Form.link_eq_some.mp hl
  obtain rfl : p₁ = p :=
    Table.eq_of_key_eq ht.plans.keys (getContext_eq_ok hcontext).1 hp (hid₁.trans hid.symm)
  obtain ⟨_, c, m, hc, hcases⟩ := portalSubmit_iff.mp hf
  obtain ⟨rfl, rfl⟩ := Prod.mk.inj (Except.ok.inj (hcontext.symm.trans hc))
  obtain ⟨hused, _, _, rfl, _⟩ | ⟨hunused, q, hready, rfl, _⟩ := hcases
  · refine ⟨p₁, hp, hid, rfl, ?_, rfl⟩
    simp [Form.reading, hl, hused]
  · have hq : q.id = l.participantId := (participantFor_eq_ok hready.participant).2
    refine ⟨_, Table.mem_put_self hp rfl, hid, rfl, ?_, portalFingerprint_record⟩
    show (p₁.submissions ++ [f.data.toReturn t f.ctx p₁ q]).map (submissionData t.users) = _
    rw [List.map_append, Form.reading, hl, Option.bind_some, hunused]
    simp only [readings, List.map_cons, List.map_nil, Option.isSome_none, Bool.false_eq_true,
      if_false, Option.toList_some, submissionData, GuestSubmission.toReturn, hq]

/-- The form is accepted, and the plan is shown as at `t`. -/
def Undisputed (sha : Sha256) (plan : Id) (fingerprint : Digest) (t : Tenant) (r : Request) :
    Prop :=
  (t.handle sha r).isOk = true ∧
    ∀ p ∈ t.plans, p.id = plan → portalFingerprint sha t p = fingerprint

/-- **All forms succeed**, in the order given, and leave their readings. -/
theorem Reporting.run :
    ∀ {fs : List Form} {t : Tenant} {p : MeasurementPlan}, Reporting sha plan t fs →
      PortalTables t → p ∈ t.plans → p.id = plan →
      Along (Tenant.handle sha) (Undisputed sha plan (portalFingerprint sha t p)) t
        (fs.map Form.request) ∧
      ∃ p' ∈ (Lib.run (Tenant.handle sha) t (fs.map Form.request)).plans, p'.id = plan ∧
        readings (Lib.run (Tenant.handle sha) t (fs.map Form.request)) p' =
          readings t p ++ fs.filterMap (Form.reading sha plan t) ∧
        portalFingerprint sha (Lib.run (Tenant.handle sha) t (fs.map Form.request)) p' =
          portalFingerprint sha t p := by
  intro fs
  induction fs with
  | nil =>
      intro t p _ _ hp hid
      exact ⟨trivial, p, hp, hid, by simp, rfl⟩
  | cons f fs ih =>
      intro t p h ht hp hid
      obtain ⟨hlink, hok⟩ := h.accepted f List.mem_cons_self
      obtain ⟨l, hl⟩ := Option.isSome_iff_exists.mp hlink
      obtain ⟨a, hf⟩ := exists_ok_serve _ hok
      obtain ⟨hrest, hlinks⟩ := h.step ht hf
      obtain ⟨p₁, hp₁, hid₁, husers, hadded, hshown⟩ := Form.adds hf hl ht hp hid
      obtain ⟨halong, p', hp', hid', hreadings, hfingerprint⟩ := ih hrest (ht.step hf) hp₁ hid₁
      rw [List.map_cons, run_cons]
      refine ⟨⟨⟨hok, ?_⟩, hshown ▸ halong⟩, p', hp', hid', ?_, hfingerprint.trans hshown⟩
      · intro p₂ hp₂ hid₂
        rw [Table.eq_of_key_eq ht.plans.keys hp₂ hp (hid₂.trans hid.symm)]
      · have hsame : fs.filterMap (Form.reading sha plan (serve (Tenant.handle sha) t f.request)) =
            fs.filterMap (Form.reading sha plan t) := by
          refine List.filterMap_congr fun g hg => ?_
          rw [Form.reading, Form.reading, hlinks g hg]
        rw [hreadings, hadded, hsame, List.append_assoc, List.filterMap_cons]
        cases Form.reading sha plan t f <;> rfl

/-- The latest reading of every participant. -/
def latestReadings (t : Tenant) (p : MeasurementPlan) : List SubmissionData :=
  (latestSubmissions p).map (submissionData t.users)

theorem mem_latestSubmissions_iff (h : Lifecycle p) {s : Submission} :
    s ∈ latestSubmissions p ↔ s ∈ p.submissions ∧
      ∀ s' ∈ p.submissions, s'.participantId = s.participantId → s'.revision ≤ s.revision := by
  have hsorted : (sortBy Submission.revision p.submissions).Pairwise
      fun a b => a.revision ≤ b.revision := by
    have htotal : Std.Total fun a b : Submission => a.revision ≤ b.revision :=
      ⟨fun a b => Nat.le_total _ _⟩
    have htrans : IsTrans Submission fun a b => a.revision ≤ b.revision :=
      ⟨fun a b c => Nat.le_trans⟩
    exact List.pairwise_insertionSort _ _
  have hgreatest : ∀ {a}, a ∈ latestSubmissions p → ∀ b ∈ p.submissions,
      b.participantId = a.participantId → b.revision ≤ a.revision := by
    intro a ha b hb hsame
    exact le_of_mem_lastByKey hsorted (mem_sortBy.mp ha) (mem_sortBy.mpr hb) hsame
  constructor
  · intro hs
    exact ⟨mem_of_mem_latestSubmissions hs, hgreatest hs⟩
  · rintro ⟨hs, hmax⟩
    obtain ⟨b, hb, hsame⟩ := exists_mem_latestSubmissions hs
    have hmem := mem_of_mem_latestSubmissions hb
    -- The revisions of a participant are numbered, so the greatest is one return.
    have hrevision : b.revision = s.revision :=
      Nat.le_antisymm (hmax b hmem hsame) (hgreatest hb s hs hsame.symm)
    have hof : ∀ {c}, c ∈ p.submissions → c.participantId = s.participantId →
        c ∈ p.submissionsOf s.participantId := fun hc howner =>
      List.mem_filter.mpr ⟨hc, decide_eq_true howner⟩
    have heq : b = s := List.inj_on_of_nodup_map (h.returns s.participantId).nodup
      (hof hmem hsame) (hof hs rfl) hrevision
    exact heq ▸ hb

theorem mem_latestReadings_iff (h : Lifecycle p) {x : SubmissionData} :
    x ∈ latestReadings t p ↔ x ∈ readings t p ∧
      ∀ y ∈ readings t p, y.participantId = x.participantId → y.revision ≤ x.revision := by
  simp only [latestReadings, readings, List.mem_map]
  constructor
  · rintro ⟨s, hs, rfl⟩
    obtain ⟨hmem, hmax⟩ := (mem_latestSubmissions_iff h).mp hs
    refine ⟨⟨s, hmem, rfl⟩, ?_⟩
    rintro _ ⟨s', hs', rfl⟩ hsame
    exact hmax s' hs' hsame
  · rintro ⟨⟨s, hs, rfl⟩, hmax⟩
    refine ⟨s, (mem_latestSubmissions_iff h).mpr ⟨hs, fun s' hs' hsame => ?_⟩, rfl⟩
    exact hmax _ ⟨s', hs', rfl⟩ hsame

/-- **Portal submissions of different participants commute.** -/
theorem Reporting.commute {fs' : List Form} (h : Reporting sha plan t fs) (ht : PortalTables t)
    (hp : p ∈ t.plans) (hid : p.id = plan) (hperm : fs'.Perm fs) :
    Along (Tenant.handle sha) (Undisputed sha plan (portalFingerprint sha t p)) t
      (fs'.map Form.request) ∧
    ∃ p₁ ∈ (Lib.run (Tenant.handle sha) t (fs.map Form.request)).plans, p₁.id = plan ∧
    ∃ p₂ ∈ (Lib.run (Tenant.handle sha) t (fs'.map Form.request)).plans, p₂.id = plan ∧
      portalFingerprint sha (Lib.run (Tenant.handle sha) t (fs'.map Form.request)) p₂ =
        portalFingerprint sha t p ∧
      ∀ x, x ∈ latestReadings (Lib.run (Tenant.handle sha) t (fs'.map Form.request)) p₂ ↔
        x ∈ latestReadings (Lib.run (Tenant.handle sha) t (fs.map Form.request)) p₁ := by
  obtain ⟨_, p₁, hp₁, hid₁, hreadings₁, _⟩ := h.run ht hp hid
  obtain ⟨halong, p₂, hp₂, hid₂, hreadings₂, hshown⟩ := (h.perm hperm).run ht hp hid
  refine ⟨halong, p₁, hp₁, hid₁, p₂, hp₂, hid₂, hshown, fun x => ?_⟩
  have hsame : ∀ y, y ∈ readings (Lib.run (Tenant.handle sha) t (fs'.map Form.request)) p₂ ↔
      y ∈ readings (Lib.run (Tenant.handle sha) t (fs.map Form.request)) p₁ := by
    intro y
    rw [hreadings₁, hreadings₂]
    exact ((hperm.filterMap _).append_left _).mem_iff
  rw [mem_latestReadings_iff ((ht.run _).plans.lifecycle p₂ hp₂),
    mem_latestReadings_iff ((ht.run _).plans.lifecycle p₁ hp₁), hsame x]
  simp only [hsame]

/-! ## The protocol -/

/-- **The agency portal protocol.**  In every run of staff and agencies: a link leads to at
most one return; a participant gets at most one return through the portal and has at most
one link that is not revoked; once a request was accepted on a link, the same body is
answered with the same own report and changes nothing whenever the link is still valid,
while every other body is refused; and forms of different participants on one plan, each
acceptable, succeed in every order, leave the same latest readings and the same
fingerprint. -/
theorem agency_portal_protocol {sha : Sha256} (hsha : Function.Injective sha.body)
    {t₀ t : Tenant} (h₀ : t₀.Initial) {rs : List Request}
    (ht : t = run (Tenant.handle sha) t₀ rs) :
    (∀ link, countAlong (Tenant.handle sha) (leadsToReturn sha link) t₀ rs ≤ 1) ∧
    (∀ p ∈ t.plans, ∀ q,
      ((p.submissionsOf q).filter fun s => s.source = .agencyLink).length ≤ 1 ∧
      (p.links.filter fun l => l.participantId = q ∧ l.revokedAt = none).length ≤ 1) ∧
    (∀ {ctx nonce data p l t₁ a}, getContext sha t ctx.now data.contextId nonce = .ok (p, l) →
      t.handle sha (.portal ctx (.submit nonce data)) = .ok (t₁, a) →
      ∃ c, a = .measurements (.context c) ∧ c.ownReport.isSome = true ∧
        ∀ (rs' : List Request) {t₂ ctx₂ nonce₂ data₂ p₂ l₂},
          t₂ = run (Tenant.handle sha) t₁ rs' →
          getContext sha t₂ ctx₂.now data₂.contextId nonce₂ = .ok (p₂, l₂) → l₂.id = l.id →
          (data₂ = data → ∃ c₂, t₂.handle sha (.portal ctx₂ (.submit nonce₂ data₂)) =
            .ok (t₂, .measurements (.context c₂)) ∧ c₂.ownReport = c.ownReport) ∧
          (data₂ ≠ data → ∃ e, t₂.handle sha (.portal ctx₂ (.submit nonce₂ data₂)) =
            .error e)) ∧
    ∀ {plan p} {fs fs' : List Form}, p ∈ t.plans → p.id = plan → Reporting sha plan t fs → fs'.Perm fs →
      Along (Tenant.handle sha) (Undisputed sha plan (portalFingerprint sha t p)) t
        (fs'.map Form.request) ∧
      ∃ p₁ ∈ (run (Tenant.handle sha) t (fs.map Form.request)).plans, p₁.id = plan ∧
      ∃ p₂ ∈ (run (Tenant.handle sha) t (fs'.map Form.request)).plans, p₂.id = plan ∧
        portalFingerprint sha (run (Tenant.handle sha) t (fs'.map Form.request)) p₂ =
          portalFingerprint sha t p ∧
        ∀ x, x ∈ latestReadings (run (Tenant.handle sha) t (fs'.map Form.request)) p₂ ↔
          x ∈ latestReadings (run (Tenant.handle sha) t (fs.map Form.request)) p₁ := by
  have horder : PortalTables t := ht ▸ (PortalTables.ofInitial h₀).run rs
  refine ⟨fun link => (PortalTables.ofInitial h₀).leadsToReturn_once link rs,
    fun p hp q => ⟨(horder.order p hp).length_portal q, (horder.order p hp).length_live q⟩, ?_,
    fun hp hid hforms hperm => hforms.commute horder hp hid hperm⟩
  intro ctx nonce data p l t₁ a hcontext hr
  obtain ⟨s, p', c, hanswered, hp', hid', _, rfl, hreport⟩ := Answered.ofAccepted horder hcontext hr
  refine ⟨c, rfl, by rw [hreport]; rfl, ?_⟩
  intro rs' t₂ ctx₂ nonce₂ data₂ p₂ l₂ ht₂ hcontext₂ hlink
  have horder₁ := horder.step hr
  have horder₂ : PortalTables t₂ := ht₂ ▸ horder₁.run rs'
  have hanswered₂ : Answered p.id l.id data.requestId (sha.body data) s t₂ :=
    ht₂ ▸ hanswered.run horder₁ rs'
  obtain ⟨hsame, hother⟩ := hanswered₂.again hsha horder₂ (portalSubmit_iff.mp hr).1 hcontext₂ hlink
  refine ⟨fun hdata => ?_, hother⟩
  -- The report names the participant, whom the plan keeps once it has a link.
  have hparticipants : p₂.participants = p'.participants := by
    have hlocked : Locked p' := by
      obtain ⟨p₁, hp₁, hid₁, _, k, hk, _⟩ := hanswered
      obtain rfl := Table.eq_of_key_eq horder₁.plans.keys hp₁ hp' (hid₁.trans hid'.symm)
      exact .inl (List.ne_nil_of_mem hk)
    obtain ⟨p₃, hget, _, hkept⟩ := horder₁.plans.structure_locked hp' hlocked rs'
    rw [← ht₂] at hget
    obtain ⟨hp₃, hid₃⟩ := Table.mem_of_get hget
    obtain ⟨p₁, hp₁, hid₁, _, k, hk, hkid, _⟩ := hanswered₂
    obtain ⟨hp₂, hl₂⟩ := getContext_eq_ok hcontext₂
    obtain ⟨rfl, _⟩ := horder₂.unique hp₁ hp₂ hk hl₂ (hkid.trans hlink.symm)
    rw [← hkept, Table.eq_of_key_eq horder₂.plans.keys hp₂ hp₃ (hid₁.trans (hid'.symm.trans hid₃.symm))]
  obtain ⟨c₂, hok, hreport₂⟩ := hsame hdata
  refine ⟨c₂, hok, ?_⟩
  rw [hreport₂, hreport, reportData, reportData, hparticipants]

/-- The plan of two participants, each with its form open. -/
def Sample.formsOpen : Tenant := run (Tenant.handle Sample.sha) Sample.tenant Sample.linked

/-- A form of that plan in the session given, with what its link shows. -/
def Sample.form (n : ℕ) (session link : Id) (browser : String) (quantity : Decimal 3) : Form where
  ctx := Sample.ctx n
  nonce := browser
  data := {
    contextId := session
    requestId := "request-" ++ browser
    inputFingerprint := ((findLink Sample.formsOpen.plans link).map
      fun found => found.2.inputFingerprint).getD (.hex "")
    representative := "Manager"
    observedAt := 1767310000
    sourceReference := "LOG-1"
    notes := ""
    lines := [⟨20200, .reported, some quantity, ""⟩] }

/-- The forms of the terminal and of the surveyor. -/
def Sample.forms : List Form := [
  Sample.form 7 50000 30000 "terminal-browser" 1200000,
  Sample.form 8 60000 40000 "surveyor-browser" 1150000]

theorem Sample.forms_reporting : Reporting Sample.sha 20000 Sample.formsOpen Sample.forms where
  accepted := by decide +kernel
  participants := by decide +kernel
  keys := by decide +kernel

/-- The terminal's form is accepted and answered again, refused under another request key,
and succeeds before and after the surveyor's. -/
theorem agency_portal_protocol_sample :
    let f := Sample.form 7 50000 30000 "terminal-browser" 1200000
    let other := { f.data with requestId := "another" }
    (∃ t₁ c c₂, Sample.formsOpen.handle Sample.sha f.request = .ok (t₁, .measurements (.context c)) ∧
      t₁.handle Sample.sha f.request = .ok (t₁, .measurements (.context c₂)) ∧
      c₂.ownReport = c.ownReport ∧ c.ownReport.isSome = true ∧
      ∃ e, t₁.handle Sample.sha (.portal f.ctx (.submit f.nonce other)) = .error e) ∧
    ∃ p ∈ Sample.formsOpen.plans, p.id = 20000 ∧
      Along (Tenant.handle Sample.sha) (Undisputed Sample.sha 20000
        (portalFingerprint Sample.sha Sample.formsOpen p)) Sample.formsOpen
        (Sample.forms.reverse.map Form.request) := by
  intro f other
  have hsha : Function.Injective Sample.sha.body := fun b b' h => RequestDigest.body.inj h
  obtain ⟨_, _, hagain, hcommute⟩ := agency_portal_protocol hsha Sample.initial
    (rfl : Sample.formsOpen = run (Tenant.handle Sample.sha) Sample.tenant Sample.linked)
  obtain ⟨hlink, hok⟩ := Sample.forms_reporting.accepted f List.mem_cons_self
  obtain ⟨l, hl⟩ := Option.isSome_iff_exists.mp hlink
  obtain ⟨p, hcontext, hid⟩ := Form.link_eq_some.mp hl
  obtain ⟨t₁, a, hr⟩ := exists_of_isOk hok
  refine ⟨?_, p, (getContext_eq_ok hcontext).1, hid,
    (hcommute (getContext_eq_ok hcontext).1 hid Sample.forms_reporting
      (List.reverse_perm _)).1⟩
  obtain ⟨c, rfl, hreport, hlater⟩ := hagain hcontext hr
  -- The session is still there, and leads to the link it led to.
  have hafter : ((f.link Sample.sha 20000 (serve (Tenant.handle Sample.sha) Sample.formsOpen
      f.request)).map AgencyLink.id) = (f.link Sample.sha 20000 Sample.formsOpen).map
        AgencyLink.id := by decide +kernel
  rw [serve_of_ok _ hr, hl] at hafter
  obtain ⟨l₂, hl₂, hid₂⟩ := Option.map_eq_some_iff.mp hafter
  obtain ⟨p₂, hcontext₂, _⟩ := Form.link_eq_some.mp hl₂
  obtain ⟨c₂, hsame, hsameReport⟩ := (hlater [] rfl hcontext₂ hid₂).1 rfl
  refine ⟨t₁, c, c₂, hr, hsame, hsameReport, hreport, ?_⟩
  have hrequest : other.requestId ≠ f.data.requestId := by decide
  exact (@hlater [] _ f.ctx f.nonce other _ _ rfl hcontext₂ hid₂).2 fun h => hrequest (congrArg _ h)

end VesselCaller.Measurements
