import VesselCaller.Accounts.Members
import VesselCaller.Billing.Numbering
import VesselCaller.Lib.Numerals
import VesselCaller.Operations.StoredCaptures

/-!
# Which requests announce what they change

The client polls `StateView` with the revision it has seen, and is told "unchanged" as long
as the organization still has it.  So a request that changes anything `StateView` returns has
to raise the revision.  `Silent` lists the requests that change what an administrator sees
without doing so, each with the state in which it does: nothing else goes unannounced.

A request announces, or it leaves the same view (`SameView`).  Both are read off the
inversions of the handlers.

## Main definitions

* `shown` — what `StateView` returns, and `SameView` — two tenants that show the same;
* `Silent` — the requests that change it unannounced, by request and state;
* `Heralds` — a step that raises the revision or shows nothing new.
-/

namespace VesselCaller

open Lib Accounts Billing Operations Measurements

variable {sha : Sha256} {t t' : Tenant} {view ctx : Ctx} {viewer : User} {actor : Id}

/-- What `StateView` returns to a viewer that has seen nothing yet, the revision apart. -/
def shown (view : Ctx) (viewer : User) (t : Tenant) : Result (Option StateData) := do
  let (_, data) ← stateView t view viewer none
  return data.map fun data => { data with rev := 0 }

/-- The revision went up, and no poll at the old one is told that nothing changed. -/
def Announced (t t' : Tenant) : Prop :=
  t.revision < t'.revision ∧
    ∀ ctx user t₂, stateView t' ctx user (some (toString t.revision)) ≠ .ok (t₂, none)

/-- The requests about calls, inspections, plans, invoices, payments, workflow steps,
settings, the organization and its members, and those of a member about its own profile and
its first password. -/
def Listed : Request → Prop
  | .auth _ (.putProfile ..) => True
  | .auth _ (.verifyEmail ..) => True
  | .auth _ (.completeTemporaryPassword ..) => True
  | .auth .. => False
  | _ => True

/-- The requests that change what an administrator sees and leave the revision alone, if
they are accepted. -/
inductive Silent (t : Tenant) : Request → Prop where
  | logoDeleted (actor : Id) (ctx : Ctx) (stored : t.organization.logoObjectKey ≠ "") :
      Silent t (.organizations actor ctx .deleteLogo)
  | mfaReset (actor : Id) (ctx : Ctx) (u : User) (found : Table.get u.id t.users = some u)
      (differs : u.mfaEnabled = true ∨ u.mfaGraceEndsAt ≠ some (ctx.now + mfaGrace)) :
      Silent t (.users actor ctx (.resetMfa u.id))
  | profile (ctx : Ctx) (session : Id) (data : ProfileInput) (u : User)
      (own : authenticate t.toAccountScope ctx.now session = .ok u)
      (differs : data.name.getD u.name ≠ u.name ∨
        ∃ email, data.newEmail u = some email ∧ email ≠ u.pendingEmail) :
      Silent t (.auth ctx (.putProfile session data))
  | emailChanged (ctx : Ctx) (raw : String) (reserved : Bool) (s : AccountScope)
      (token : ActionToken) (u : User)
      (consumed : consumeActionToken t.toAccountScope ctx raw .verifyEmail true =
        some (s, token, u))
      (named : token.metadata.pendingEmail ≠ "")
      (differs : u.email ≠ token.metadata.pendingEmail ∨ u.pendingEmail ≠ "" ∨
        u.emailVerifiedAt = none) :
      Silent t (.auth ctx (.verifyEmail raw reserved))
  | temporaryPassword (ctx : Ctx) (raw : String) (password : NewPassword) :
      Silent t (.auth ctx (.completeTemporaryPassword raw password))

/-! ## The view -/

/-- `StateView` returns the same of both states, the revision apart. -/
structure SameView (t t' : Tenant) : Prop where
  organization : organizationData t'.organization = organizationData t.organization
  members : ∀ now, t'.users.map (userData t'.toAccountScope now) =
    t.users.map (userData t.toAccountScope now)
  settings : t'.settings = t.settings
  calls : t'.calls = t.calls
  inspections : t'.inspections = t.inspections
  invoices : t'.invoices = t.invoices
  steps : t'.steps = t.steps

/-- Nothing done shows nothing new. -/
theorem SameView.refl (t : Tenant) : SameView t t :=
  ⟨rfl, fun _ => rfl, rfl, rfl, rfl, rfl, rfl⟩

/-- The member with a key, as the administrator sees it. -/
theorem find?_userData (s : AccountScope) (now : Instant) (id : Id) :
    (s.users.map (userData s now)).find? (fun d => d.id = id) =
      (Table.get id s.users).map (userData s now) := by
  rw [List.find?_map]
  rfl

/-- The name of an actor is seen among the members. -/
theorem actorData_eq_of_members {s s' : AccountScope} {now : Instant}
    (h : s'.users.map (userData s' now) = s.users.map (userData s now)) (id : Id) :
    actorData s'.users id = actorData s.users id := by
  have hfind := find?_userData s' now id
  rw [h, find?_userData] at hfind
  have hname := congrArg (fun d : Option UserData => (d.map UserData.name).getD "") hfind
  simp only [Option.map_map] at hname
  exact congrArg (ActorData.mk (.user id)) hname.symm

/-- The same view is shown the same. -/
theorem SameView.shown (h : SameView t t') (view : Ctx) (viewer : User) :
    shown view viewer t' = shown view viewer t := by
  have hactors : actorData t'.users = actorData t.users := by
    funext id
    exact actorData_eq_of_members (h.members 0) id
  have hinvoices (steps : List InvoiceStatusStep) :
      Billing.invoiceData t'.users steps = Billing.invoiceData t.users steps := by
    funext i
    simp only [Billing.invoiceData, hactors]
  simp only [VesselCaller.shown, stateView, h.steps, h.inspections, h.invoices, h.settings,
    h.calls, h.organization]
  cases ensureDefaultSteps view t.steps with
  | error e => rfl
  | ok steps =>
      simp only [ok_bind, reduceCtorEq, if_false, bind_assoc, pure_bind, Option.map_some,
        h.members view.now]
      unfold Tenant.invoiceData
      rw [hinvoices]

/-- What an administrator is shown of a state that can be served. -/
theorem shown_eq_ok (view : Ctx) (ht : InspectionsInOrder t) (hviewer : viewer.role = .admin) :
    ∃ data, shown view viewer t = .ok (some data) ∧
      data.org = organizationData t.organization ∧
      data.members = t.users.map (userData t.toAccountScope view.now) := by
  obtain ⟨inspections, hinspections⟩ := mapM_ok_of_forall fun i hi => (ht.shown i hi).1
  have hsteps : ensureDefaultSteps view t.steps = .ok t.steps :=
    ht.calls.ledgers.workflow.ensureDefaultSteps view
  simp only [shown, stateView, hsteps, ok_bind, hviewer, if_true, reduceCtorEq, if_false,
    hinspections, pure_bind, Option.map_some]
  exact ⟨_, rfl, rfl, rfl⟩

/-- A request that changes the logo, or a member as the administrator sees it, is seen. -/
theorem shown_ne (ht : InspectionsInOrder t) (ht' : InspectionsInOrder t')
    (hviewer : viewer.role = .admin)
    (h : organizationData t'.organization ≠ organizationData t.organization ∨
      ∃ id, (Table.get id t'.users).map (userData t'.toAccountScope view.now) ≠
        (Table.get id t.users).map (userData t.toAccountScope view.now)) :
    shown view viewer t' ≠ shown view viewer t := by
  obtain ⟨data, hdata, horg, hmembers⟩ := shown_eq_ok view ht hviewer
  obtain ⟨data', hdata', horg', hmembers'⟩ := shown_eq_ok view ht' hviewer
  rw [hdata, hdata']
  intro heq
  obtain rfl : data' = data := Option.some.inj (Except.ok.inj heq)
  rcases h with horganization | ⟨id, hmember⟩
  · exact horganization (horg'.symm.trans horg)
  · refine hmember ?_
    rw [← find?_userData, ← find?_userData, ← hmembers', ← hmembers]

/-- A poll at another revision is answered with the state. -/
theorem announced_of_lt (h : t.revision < t'.revision) : Announced t t' := by
  refine ⟨h, fun ctx user t₂ heq => ?_⟩
  have hne : ¬ some (toString t.revision) = some (toString t'.revision) := by
    intro hsome
    have hrevision : t.revision = t'.revision := toString_inj (Option.some.inj hsome)
    omega
  simp only [stateView, bind_eq_ok] at heq
  obtain ⟨steps, _, heq⟩ := heq
  rw [if_neg (by exact hne)] at heq
  simp only [bind_eq_ok, pure_eq_ok, Prod.mk.injEq, reduceCtorEq, and_false, exists_false] at heq

/-! ## What the requests announce -/

/-- The revision went up, or the view is the same. -/
def Heralds (t t' : Tenant) : Prop := t.revision < t'.revision ∨ SameView t t'

/-- Nothing done needs no announcement. -/
theorem Heralds.refl (t : Tenant) : Heralds t t := .inr (.refl t)

/-- Neither does a tenant that is the same. -/
theorem Heralds.ofEq (h : t' = t) : Heralds t t' := h ▸ .refl t

/-- What ends with `bump_revision` raises the revision. -/
theorem Heralds.ofBump {t₁ : Tenant} (h : t' = t₁.bumpRevision) (h₁ : t₁.revision = t.revision) :
    Heralds t t' := by
  have hrevision := congrArg Tenant.revision h
  rw [Tenant.bumpRevision_revision, h₁] at hrevision
  exact .inl (hrevision ▸ Nat.lt_succ_self _)

/-- A bumped revision announces what is done to the accounts. -/
theorem Heralds.ofScopeBump {s' s₁ : AccountScope} (h : s' = s₁.bumpRevision)
    (h₁ : s₁.organization.revision = t.organization.revision) :
    Heralds t { t with toAccountScope := s' } := by
  refine .inl ?_
  show t.organization.revision < s'.organization.revision
  rw [h, ← h₁]
  exact Nat.lt_succ_self _

/-- A user is shown alike while kind, access and grants are the same. -/
theorem userData_congr {s s' : AccountScope} (hkind : s'.organization.kind = s.organization.kind)
    (haccess : s'.organization.accessStatus = s.organization.accessStatus)
    (hgrants : s'.platformGrants = s.platformGrants) (now : Instant) :
    userData s' now = userData s now := by
  funext u
  simp only [userData, User.isActive, Organization.isAccessActive, mfaEnrollmentRequired,
    activePlatformGrant, hkind, haccess, hgrants]

/-- Tokens, challenges, sessions, recovery codes, invitations, links and join requests are
not seen. -/
theorem SameView.ofScope {s' : AccountScope} (horganization : s'.organization = t.organization)
    (hgrants : s'.platformGrants = t.platformGrants) (husers : s'.users = t.users) :
    SameView t { t with toAccountScope := s' } := by
  refine ⟨congrArg organizationData horganization, fun now => ?_, rfl, rfl, rfl, rfl, rfl⟩
  show s'.users.map (userData s' now) = _
  rw [husers, userData_congr (by rw [horganization]) (by rw [horganization]) hgrants]

/-- A member written over is not seen if it looks the same. -/
theorem SameView.ofUser {s' : AccountScope} {u : User} (u' : User)
    (hkeys : (Table.keys t.users).Nodup) (found : Table.get u.id t.users = some u)
    (hid : u'.id = u.id) (horganization : s'.organization = t.organization)
    (hgrants : s'.platformGrants = t.platformGrants) (husers : s'.users = Table.put u' t.users)
    (hsame : ∀ now, userData t.toAccountScope now u' = userData t.toAccountScope now u) :
    SameView t { t with toAccountScope := s' } := by
  refine ⟨congrArg organizationData horganization, fun now => ?_, rfl, rfl, rfl, rfl, rfl⟩
  show s'.users.map (userData s' now) = _
  rw [husers, userData_congr (by rw [horganization]) (by rw [horganization]) hgrants]
  exact map_put hkeys (Table.mem_of_get found).1 hid (hsame now)

/-- Accepted operations are announced. -/
theorem operations_heralds {op : Operations.Op} {response : Operations.Response}
    (h : op.handle t ctx = .ok (t', response)) : Heralds t t' := by
  cases handle_step h with
  | callCreated _ _ _ _ tenant => exact .ofBump tenant rfl
  | callPatched _ _ _ _ _ _ _ _ tenant => exact .ofBump tenant rfl
  | callCancelled _ _ _ _ _ _ _ _ _ _ tenant => exact .ofBump tenant rfl
  | cancelReplayed _ _ _ _ _ _ _ tenant => exact .ofEq tenant
  | creationReplayed _ _ _ _ _ _ tenant => exact .ofEq tenant
  | drafted _ _ _ _ _ _ _ _ _ tenant => exact .ofBump tenant rfl
  | draftedAndBilled _ _ _ _ _ _ _ _ _ _ hbilled =>
      -- The draft and its bill raise the revision once each.
      have hdrafted : t.revision < _ := Nat.lt_succ_self t.revision
      obtain hlt | hsame := Heralds.ofBump hbilled.tenant rfl
      · exact .inl (hdrafted.trans hlt)
      · exact .inl (hdrafted.trans_le (congrArg Tenant.revision hbilled.tenant ▸ Nat.le_succ _))
  | draftedInvoiced _ _ _ _ _ _ _ _ _ _ _ _ tenant => exact .ofBump tenant rfl
  | inspectionPatched _ _ _ _ _ _ _ _ _ _ tenant => exact .ofBump tenant rfl
  | finalizationReplayed _ _ _ _ _ _ _ _ _ _ tenant => exact .ofEq tenant
  | billed _ _ _ _ _ _ _ hbilled => exact .ofBump hbilled.tenant rfl

/-- So is accepted billing. -/
theorem billing_heralds (hw : Workflow t.steps) {op : Billing.Op} {response : Billing.Response}
    (h : op.handle t ctx actor = .ok (t', response)) : Heralds t t' := by
  obtain hsame | ⟨_, steps, hconfigured⟩ | ⟨_, _, _, _, hsettled, _⟩ := billing_cases hw h
  · exact .ofEq hsame
  · exact .ofBump hconfigured rfl
  · exact .ofBump hsettled rfl

/-- Where nothing of the view is touched, the view is the same. -/
theorem Undisturbed.sameView (h : Undisturbed t t') : SameView t t' := by
  obtain ⟨hsite, hsteps, hinvoices, _⟩ := h
  have hkind := congrArg Organization.kind hsite.organization
  have haccess := congrArg Organization.accessStatus hsite.organization
  have hgrants := congrArg AccountScope.platformGrants hsite.tables
  have horganization := congrArg organizationData hsite.organization
  refine ⟨horganization, fun now => ?_, hsite.settings, hsite.calls, hsite.inspections, hinvoices,
    hsteps⟩
  rw [hsite.users, userData_congr hkind haccess hgrants]

/-- Measurements show nothing in the state but what they issue, and that is announced. -/
theorem measurements_heralds {op : Measurements.Op} {response : Measurements.Response}
    (h : op.handle sha t ctx actor = .ok (t', response)) : Heralds t t' := by
  obtain hsame | ⟨_, _, _, _, _, _, hissued⟩ := measurements_frame h
  · exact .inr hsame.sameView
  · obtain ⟨_, _, _, _, _, _, htenant⟩ := hissued.step
    exact .ofBump htenant rfl

/-- The organization is announced, silent requests apart. -/
theorem organizations_heralds {op : Organizations.Op} {response : Organizations.Response}
    (h : op.handle t = .ok (t', response)) (hloud : ¬Silent t (.organizations actor ctx op)) :
    Heralds t t' := by
  cases op with
  | putOrganization data =>
      simp only [Organizations.Op.handle, Organizations.putOrganization, bind_eq_ok, pure_eq_ok,
        Prod.mk.injEq] at h
      obtain ⟨_, ⟨_, _, _, _, rfl⟩, rfl, _⟩ := h
      exact .ofBump rfl rfl
  | putLogo data =>
      simp only [Organizations.Op.handle, Organizations.putLogo, bind_eq_ok, pure_eq_ok,
        Prod.mk.injEq] at h
      obtain ⟨_, ⟨_, _, _, _, rfl⟩, rfl, _⟩ := h
      exact .ofBump rfl rfl
  | putSettings data =>
      simp only [Organizations.Op.handle, Organizations.putSettings, bind_eq_ok, pure_eq_ok,
        Prod.mk.injEq] at h
      obtain ⟨_, ⟨_, _, rfl⟩, rfl, _⟩ := h
      exact .ofBump rfl rfl
  | deleteLogo =>
      simp only [Organizations.Op.handle, pure_eq_ok, Prod.mk.injEq] at h
      obtain ⟨rfl, _⟩ := h
      have hnone : t.organization.logoObjectKey = "" := by
        by_contra hstored
        exact hloud (.logoDeleted actor ctx hstored)
      refine .inr ⟨?_, fun now => ?_, rfl, rfl, rfl, rfl, rfl⟩
      · show organizationData { t.organization with logoObjectKey := "" } = _
        rw [← hnone]
      · exact congrArg (t.users.map ·) (userData_congr rfl rfl rfl now)

/-- A member whose second factor is off and whose grace period is the one a reset would
start looks the same after the reset. -/
theorem userData_withoutMfa {s : AccountScope} {u : User} (hoff : u.mfaEnabled = false)
    (hgrace : u.mfaGraceEndsAt = some (ctx.now + mfaGrace)) (now : Instant) :
    userData s now (u.withoutMfa ctx) = userData s now u := by
  have henabled : (u.withoutMfa ctx).mfaEnabled = u.mfaEnabled := by
    rw [hoff]
    rfl
  have hgraceEnds : (u.withoutMfa ctx).mfaGraceEndsAt = u.mfaGraceEndsAt := hgrace.symm
  simp only [userData, mfaEnrollmentRequired, henabled, hgraceEnds]
  rfl

/-- A reset that changes what the members see of the user is loud, any other is unseen. -/
theorem resetMfa_heralds {userId : Id} {s' : AccountScope} {response : Accounts.Response}
    (hkeys : (Table.keys t.users).Nodup)
    (h : UserOp.handle t.toAccountScope ctx actor (.resetMfa userId) = .ok (s', response))
    (hloud : ¬Silent t (.users actor ctx (.resetMfa userId))) :
    Heralds t { t with toAccountScope := s' } := by
  simp only [UserOp.handle, Accounts.resetMfa, bind_eq_ok, pure_eq_ok, Prod.exists,
    Prod.mk.injEq] at h
  obtain ⟨_, _, ⟨u, hu, _, _, rfl, _⟩, rfl, _⟩ := h
  obtain ⟨found, rfl⟩ := getUser_eq_ok hu
  have hsame : u.mfaEnabled = false ∧ u.mfaGraceEndsAt = some (ctx.now + mfaGrace) := by
    by_contra hdiffers
    rw [not_and_or, Bool.not_eq_false] at hdiffers
    exact hloud (.mfaReset actor ctx u found hdiffers)
  exact .inr (.ofUser (u.withoutMfa ctx) hkeys found rfl rfl rfl rfl
    (userData_withoutMfa hsame.1 hsame.2))

/-- A review announces itself when it decides; a request that was decided the same way before is
answered as it stands. -/
theorem reviewJoinRequest_heralds {requestId : Id} {approve : Option Role} {reserved : Bool}
    {s' : AccountScope} {request : OrganizationJoinRequest}
    (h : Accounts.reviewJoinRequest t.toAccountScope ctx actor requestId approve reserved =
      .ok (s', request)) : Heralds t { t with toAccountScope := s' } := by
  simp only [Accounts.reviewJoinRequest, bind_eq_ok] at h
  obtain ⟨_, _, _, _, h⟩ := h
  split at h
  · simp only [bind_eq_ok, pure_eq_ok, Prod.mk.injEq] at h
    obtain ⟨_, _, rfl, _⟩ := h
    exact .refl t
  · split at h
    · simp only [pure_eq_ok, Prod.mk.injEq] at h
      obtain ⟨rfl, _⟩ := h
      exact .refl t
    · simp only [bind_eq_ok] at h
      obtain ⟨_, _, h⟩ := h
      split at h
      · simp only [bind_eq_ok, pure_eq_ok, Prod.mk.injEq] at h
        obtain ⟨_, _, _, _, s₁, hs₁, rfl, _⟩ := h
        obtain ⟨_, _, rfl⟩ := insertUser_eq_ok hs₁
        exact .ofScopeBump rfl rfl
      · simp only [pure_eq_ok, Prod.mk.injEq] at h
        obtain ⟨rfl, _⟩ := h
        exact .ofScopeBump rfl rfl

/-- The administration of users is announced, silent requests apart. -/
theorem users_heralds {op : UserOp} {s' : AccountScope} {response : Accounts.Response}
    (hkeys : (Table.keys t.users).Nodup)
    (h : op.handle t.toAccountScope ctx actor = .ok (s', response))
    (hloud : ¬Silent t (.users actor ctx op)) : Heralds t { t with toAccountScope := s' } := by
  cases op with
  | patchUser userId data =>
      simp only [UserOp.handle, Accounts.patchUser, bind_eq_ok, pure_eq_ok, Prod.exists,
        Prod.mk.injEq] at h
      obtain ⟨_, _, ⟨_, _, _, _, _, _, _, _, rfl, _⟩, rfl, _⟩ := h
      refine .ofScopeBump rfl ?_
      split <;> rfl
  | removeUser userId =>
      simp only [UserOp.handle, Accounts.removeUser, bind_eq_ok, pure_eq_ok, Prod.mk.injEq] at h
      obtain ⟨_, ⟨_, _, _, _, _, _, _, _, rfl⟩, rfl, _⟩ := h
      exact .ofScopeBump rfl rfl
  | provision data =>
      simp only [UserOp.handle, provisionTemporaryUser, bind_eq_ok, pure_eq_ok, Prod.exists,
        Prod.mk.injEq] at h
      obtain ⟨_, _, ⟨_, _, _, _, _, _, _, _, s₁, hs₁, rfl, _⟩, rfl, _⟩ := h
      obtain ⟨_, _, rfl⟩ := insertUser_eq_ok hs₁
      exact .ofScopeBump rfl rfl
  | regenerate userId temporaryPassword =>
      simp only [UserOp.handle, regenerateTemporaryPassword, bind_eq_ok, pure_eq_ok, Prod.exists,
        Prod.mk.injEq] at h
      obtain ⟨_, _, ⟨_, _, _, _, _, _, _, _, rfl, _⟩, rfl, _⟩ := h
      exact .ofScopeBump rfl rfl
  | dispatchReset userId raw =>
      simp only [UserOp.handle, dispatchPasswordReset, bind_eq_ok, pure_eq_ok, Prod.exists,
        Prod.mk.injEq] at h
      obtain ⟨_, ⟨_, _, _, _, _, _, htoken, rfl⟩, rfl, _⟩ := h
      obtain ⟨_, _, _, _, rfl⟩ := issueActionToken_eq_ok htoken
      -- Tokens and mails are nothing the state shows.
      exact .inr (.ofScope rfl rfl rfl)
  | resetMfa userId => exact resetMfa_heralds hkeys h hloud
  | invite name email role reserved raw =>
      simp only [UserOp.handle, createInvitation, insertInvitation, bind_eq_ok, pure_eq_ok,
        Prod.exists, Prod.mk.injEq] at h
      obtain ⟨_, _, ⟨_, _, _, _, _, ⟨_, _, _, _, rfl⟩, rfl, _⟩, rfl, _⟩ := h
      exact .ofScopeBump rfl rfl
  | resendInvitation invitationId reserved raw =>
      simp only [UserOp.handle, Accounts.resendInvitation, bind_eq_ok, pure_eq_ok, Prod.exists,
        Prod.mk.injEq] at h
      obtain ⟨_, _, ⟨_, _, _, _, _, _, rfl, _⟩, rfl, _⟩ := h
      exact .inr (.ofScope rfl rfl rfl)
  | revokeInvitation invitationId =>
      simp only [UserOp.handle, Accounts.revokeInvitation, bind_eq_ok, pure_eq_ok,
        Prod.mk.injEq] at h
      obtain ⟨_, ⟨_, _, rfl⟩, rfl, _⟩ := h
      exact .inr (.ofScope rfl rfl rfl)
  | createSignupLink expiresInDays raw =>
      simp only [UserOp.handle, Accounts.createSignupLink, bind_eq_ok, pure_eq_ok, Prod.exists,
        Prod.mk.injEq] at h
      obtain ⟨_, _, ⟨_, _, _, _, _, _, _, _, rfl, _⟩, rfl, _⟩ := h
      exact .ofScopeBump rfl rfl
  | revokeSignupLink linkId =>
      simp only [UserOp.handle, Accounts.revokeSignupLink, bind_eq_ok, pure_eq_ok,
        Prod.mk.injEq] at h
      obtain ⟨_, ⟨_, _, h⟩, rfl, _⟩ := h
      split at h <;> simp only [pure_eq_ok] at h <;> subst h
      · exact .inr (.ofScope rfl rfl rfl)
      · exact .ofScopeBump rfl rfl
  | reviewJoinRequest requestId approve reserved =>
      simp only [UserOp.handle, bind_eq_ok, Prod.exists] at h
      obtain ⟨s₁, request, hreview, h⟩ := h
      obtain rfl : s' = s₁ := by
        split at h
        all_goals
          simp only [pure_eq_ok, Prod.mk.injEq] at h
          exact h.1.symm
      exact reviewJoinRequest_heralds hreview

/-- An edited profile is announced, unless it is silent. -/
theorem putProfile_heralds {session : Id} {data : ProfileInput} {s' : AccountScope}
    {response : Accounts.Response} (hkeys : (Table.keys t.users).Nodup)
    (h : putProfile t.toAccountScope ctx session data = .ok (s', response))
    (hloud : ¬Silent t (.auth ctx (.putProfile session data))) :
    Heralds t { t with toAccountScope := s' } := by
  simp only [putProfile, putProfileOf, bind_eq_ok] at h
  obtain ⟨u, hu, _, _, _, _, h⟩ := h
  obtain ⟨found, _⟩ := authenticate_eq_ok hu
  have hname : data.name.getD u.name = u.name := by
    by_contra hdiffers
    exact hloud (.profile ctx session data u hu (.inl hdiffers))
  have hemail (email : String) (hnew : data.newEmail u = some email) : email = u.pendingEmail := by
    by_contra hdiffers
    exact hloud (.profile ctx session data u hu (.inr ⟨email, hnew, hdiffers⟩))
  rw [hname] at h
  split at h
  · simp only [pure_eq_ok, Prod.mk.injEq] at h
    obtain ⟨rfl, _⟩ := h
    exact .inr (.ofUser u hkeys found rfl rfl rfl rfl fun _ => rfl)
  · rename_i email hnew
    simp only [bind_eq_ok, pure_eq_ok, Prod.exists, Prod.mk.injEq] at h
    obtain ⟨_, _, _, _, s₁, token, htoken, rfl, _⟩ := h
    obtain ⟨_, _, _, _, rfl⟩ := issueActionToken_eq_ok htoken
    obtain rfl := hemail email hnew
    exact .inr (.ofUser u hkeys found rfl rfl rfl rfl fun _ => rfl)

/-- An address that is proven again looks the same. -/
theorem userData_withEmail {s : AccountScope} {u : User} {email : String} (hemail : u.email = email)
    (hpending : u.pendingEmail = "") (hverified : u.emailVerifiedAt ≠ none) (now : Instant) :
    userData s now (u.withEmail ctx email) = userData s now u := by
  have hsome : u.emailVerifiedAt.isSome = true := Option.isSome_iff_ne_none.mpr hverified
  subst hemail
  simp only [userData, hpending, hsome]
  rfl

/-- A proven address is announced, unless it is silent. -/
theorem verifyEmail_heralds {raw : String} {reserved : Bool} {s' : AccountScope}
    {response : Accounts.Response} (hkeys : (Table.keys t.users).Nodup)
    (h : verifyEmail t.toAccountScope ctx raw reserved = .ok (s', response))
    (hloud : ¬Silent t (.auth ctx (.verifyEmail raw reserved))) :
    Heralds t { t with toAccountScope := s' } := by
  simp only [verifyEmail, bind_eq_ok, orRaise_eq_ok, Prod.exists] at h
  obtain ⟨s₁, token, u, hconsumed, h⟩ := h
  obtain ⟨_, hc, _⟩ := consumeActionToken_eq_some hconsumed
  split at h
  · rename_i hnamed
    simp only [bind_eq_ok, pure_eq_ok, Prod.mk.injEq] at h
    obtain ⟨_, _, rfl, _⟩ := h
    have hsame : u.email = token.metadata.pendingEmail ∧ u.pendingEmail = "" ∧
        u.emailVerifiedAt ≠ none := by
      by_contra hdiffers
      rw [not_and_or, not_and_or, not_not] at hdiffers
      exact hloud (.emailChanged ctx raw reserved s₁ token u hconsumed hnamed hdiffers)
    obtain rfl := hc.scope
    exact .inr (.ofUser (u.withEmail ctx token.metadata.pendingEmail) hkeys hc.found rfl rfl rfl
      rfl (userData_withEmail hsame.1 hsame.2.1 hsame.2.2))
  · simp only [pure_eq_ok, Prod.mk.injEq] at h
    obtain ⟨rfl, _⟩ := h
    obtain rfl := hc.scope
    exact .ofScopeBump rfl rfl

/-- **A listed request that is not silent announces what it changes.** -/
theorem handle_heralds (hw : Workflow t.steps) (hkeys : (Table.keys t.users).Nodup) {r : Request}
    {a : Response} (hlisted : Listed r) (h : t.handle sha r = .ok (t', a))
    (hloud : ¬Silent t r) : Heralds t t' := by
  cases r with
  | measurements actor ctx op =>
      simp only [Tenant.handle, bind_eq_ok, pure_eq_ok, Prod.exists, Prod.mk.injEq] at h
      obtain ⟨_, _, _, _, hop, rfl, _⟩ := h
      exact measurements_heralds hop
  | portal ctx op =>
      simp only [Tenant.handle, bind_eq_ok, pure_eq_ok, Prod.exists, Prod.mk.injEq] at h
      obtain ⟨_, _, hop, rfl, _⟩ := h
      exact .inr (portal_frame hop).sameView
  | operations actor ctx op =>
      simp only [Tenant.handle, bind_eq_ok, pure_eq_ok, Prod.exists, Prod.mk.injEq] at h
      obtain ⟨_, _, _, _, hop, rfl, _⟩ := h
      exact operations_heralds hop
  | billing actor ctx op =>
      simp only [Tenant.handle, bind_eq_ok, pure_eq_ok, Prod.exists, Prod.mk.injEq] at h
      obtain ⟨_, _, _, _, hop, rfl, _⟩ := h
      exact billing_heralds hw hop
  | organizations actor ctx op =>
      simp only [Tenant.handle, bind_eq_ok, pure_eq_ok, Prod.exists, Prod.mk.injEq] at h
      obtain ⟨_, _, _, _, hop, rfl, _⟩ := h
      exact organizations_heralds hop hloud
  | users actor ctx op =>
      simp only [Tenant.handle, bind_eq_ok, pure_eq_ok, Prod.exists, Prod.mk.injEq] at h
      obtain ⟨_, _, _, _, hop, rfl, _⟩ := h
      exact users_heralds hkeys hop hloud
  | auth ctx op =>
      simp only [Tenant.handle, bind_eq_ok, pure_eq_ok, Prod.exists, Prod.mk.injEq] at h
      obtain ⟨_, _, hop, rfl, _⟩ := h
      cases op with
      | putProfile session data => exact putProfile_heralds hkeys hop hloud
      | verifyEmail raw reserved => exact verifyEmail_heralds hkeys hop hloud
      | completeTemporaryPassword raw password =>
          exact absurd (.temporaryPassword ctx raw password) hloud
      | _ => exact hlisted.elim

/-! ## What goes unannounced -/

/-- The administrator sees another logo, or sees a member differently. -/
def Seen (now : Instant) (t t' : Tenant) : Prop :=
  organizationData t'.organization ≠ organizationData t.organization ∨
    ∃ id, (Table.get id t'.users).map (userData t'.toAccountScope now) ≠
      (Table.get id t.users).map (userData t.toAccountScope now)

/-- A member that is written over and looks different is seen. -/
theorem seen_of_user {now : Instant} {s' : AccountScope} {u u' : User}
    (found : Table.get u.id t.users = some u) (hget : Table.get u.id s'.users = some u')
    (h : userData s' now u' ≠ userData t.toAccountScope now u) :
    Seen now t { t with toAccountScope := s' } := by
  refine .inr ⟨u.id, ?_⟩
  show (Table.get u.id s'.users).map (userData s' now) ≠ _
  rw [hget, found]
  exact fun heq => h (Option.some.inj heq)

/-- Opening a session leaves the organization. -/
theorem openSession_organization {s s' : AccountScope} {u : User} {inactive : ApiError}
    {response : Accounts.Response} (h : openSession s ctx u inactive = .ok (s', response)) :
    s'.organization = s.organization := by
  unfold openSession at h
  split at h
  · simp only [startMfaChallenge, bind_eq_ok, pure_eq_ok, Prod.exists, Prod.mk.injEq] at h
    obtain ⟨_, _, ⟨_, _, _, _, rfl, _⟩, rfl, _⟩ := h
    rfl
  · simp only [startSession, bind_eq_ok, pure_eq_ok, Prod.mk.injEq] at h
    obtain ⟨_, ⟨_, _, _, _, rfl⟩, rfl, _⟩ := h
    rfl

/-- The first sign-in ends the duty to change the password, and leaves the organization. -/
theorem completeFirstSignIn_seen {raw : String} {password : NewPassword} {s s' : AccountScope}
    {response : Accounts.Response}
    (h : completeFirstSignIn s ctx raw password = .ok (s', response)) :
    s'.organization = s.organization ∧ ∃ u u', Table.get u.id s.users = some u ∧
      Table.get u.id s'.users = some u' ∧
      u.passwordChangeRequired = true ∧ u'.passwordChangeRequired = false := by
  simp only [completeFirstSignIn, bind_eq_ok, Prod.exists] at h
  obtain ⟨s₁, _, hservice, h⟩ := h
  obtain ⟨token, u, hc, rfl⟩ := completeTemporaryPassword_eq_ok hservice
  have hrequired : u.passwordChangeRequired = true := by
    have havailable := hc.available
    simp only [temporaryIdentityAvailable, Bool.and_eq_true] at havailable
    exact havailable.1.2
  have hget : Table.get u.id s₁.users = some (u.withChosenPassword ctx password.raw) := by
    rw [hc.scope]
    exact Table.get_put_self (a := u.withChosenPassword ctx password.raw) hc.found
  refine ⟨?_, u, ?_⟩
  · rw [openSession_organization h, hc.scope]
    rfl
  · obtain ⟨u', hu', hrow⟩ := (openSession_eq_ok hget h).user hget
    refine ⟨u', hc.found, hu', hrequired, ?_⟩
    rcases hrow with rfl | ⟨_, rfl⟩
    · rfl
    · rfl

/-- **A silent request** changes what is seen, and the revision stays. -/
theorem silent_seen {r : Request} {a : Response} (hsilent : Silent t r)
    (h : t.handle sha r = .ok (t', a)) (now : Instant) :
    t'.revision = t.revision ∧ Seen now t t' := by
  cases hsilent with
  | logoDeleted actor ctx stored =>
      simp only [Tenant.handle, Organizations.Op.handle, bind_eq_ok, pure_eq_ok, Prod.exists,
        Prod.mk.injEq] at h
      obtain ⟨_, _, _, _, ⟨rfl, _⟩, rfl, _⟩ := h
      -- The revision is as it was, but the logo that was shown is gone.
      refine ⟨rfl, .inl fun heq => ?_⟩
      have hlogo := congrArg OrganizationData.logo heq
      rw [organizationData, organizationData, if_neg stored] at hlogo
      exact absurd hlogo (by simp [Organizations.deleteLogo])
  | mfaReset actor ctx u found differs =>
      simp only [Tenant.handle, UserOp.handle, Accounts.resetMfa, bind_eq_ok, pure_eq_ok,
        Prod.exists, Prod.mk.injEq] at h
      obtain ⟨_, _, _, _, ⟨_, _, ⟨u', hu, _, _, rfl, _⟩, rfl, _⟩, rfl, _⟩ := h
      obtain ⟨found', _⟩ := getUser_eq_ok hu
      obtain rfl : u' = u := Option.some.inj ((orRaise_eq_ok.mp hu).symm.trans found)
      -- The row of the user is shown, and one of its fields has changed.
      refine ⟨rfl, seen_of_user found
        (Table.get_put_self (a := u'.withoutMfa ctx) found) fun heq => ?_⟩
      rcases differs with henabled | hgrace
      · have hoff := congrArg UserData.mfaEnabled heq
        exact absurd (hoff.trans henabled) (by simp [userData, User.withoutMfa, User.mfaEnabled])
      · exact hgrace (congrArg UserData.mfaGraceEndsAt heq).symm
  | profile ctx session data u own differs =>
      simp only [Tenant.handle, AuthOp.handle, putProfile, putProfileOf, bind_eq_ok, pure_eq_ok,
        Prod.exists, Prod.mk.injEq] at h
      obtain ⟨_, _, ⟨u', hu, _, _, _, _, h⟩, rfl, _⟩ := h
      obtain rfl : u' = u := Except.ok.inj (hu.symm.trans own)
      obtain ⟨found, _⟩ := authenticate_eq_ok own
      split at h
      · rename_i hnone
        simp only [pure_eq_ok, Prod.mk.injEq] at h
        obtain ⟨rfl, _⟩ := h
        refine ⟨rfl, seen_of_user found (Table.get_put_self
          (a := { u' with name := data.name.getD u'.name }) found) fun heq => ?_⟩
        rcases differs with hname | ⟨email, hemail, _⟩
        · exact hname (congrArg UserData.name heq)
        · exact absurd (hemail.symm.trans hnone) (Option.some_ne_none email)
      · rename_i email hnew
        simp only [bind_eq_ok, pure_eq_ok, Prod.exists, Prod.mk.injEq] at h
        obtain ⟨_, _, _, _, s₁, token, htoken, rfl, _⟩ := h
        obtain ⟨_, _, _, _, rfl⟩ := issueActionToken_eq_ok htoken
        refine ⟨rfl, seen_of_user found (Table.get_put_self
          (a := { u' with name := data.name.getD u'.name, pendingEmail := email }) found)
          fun heq => ?_⟩
        rcases differs with hname | ⟨email', hemail, hdiffers⟩
        · exact hname (congrArg UserData.name heq)
        · obtain rfl : email' = email := Option.some.inj (hemail.symm.trans hnew)
          exact hdiffers (congrArg UserData.pendingEmail heq)
  | emailChanged ctx raw reserved s token u consumed named differs =>
      simp only [Tenant.handle, AuthOp.handle, verifyEmail, bind_eq_ok, orRaise_eq_ok, pure_eq_ok,
        Prod.exists, Prod.mk.injEq] at h
      obtain ⟨_, _, ⟨s₁, token', u', hconsumed, h⟩, rfl, _⟩ := h
      rw [consumed] at hconsumed
      simp only [Option.some.injEq, Prod.mk.injEq] at hconsumed
      obtain ⟨rfl, rfl, rfl⟩ := hconsumed
      obtain ⟨_, hc, _⟩ := consumeActionToken_eq_some consumed
      rw [if_pos named] at h
      simp only [bind_eq_ok, pure_eq_ok, Prod.mk.injEq] at h
      obtain ⟨_, _, rfl, _⟩ := h
      obtain rfl := hc.scope
      refine ⟨rfl, seen_of_user hc.found (Table.get_put_self
        (a := u.withEmail ctx token.metadata.pendingEmail) hc.found) fun heq => ?_⟩
      rcases differs with hemail | hpending | hunverified
      · exact hemail (congrArg UserData.email heq).symm
      · exact hpending (congrArg UserData.pendingEmail heq).symm
      · have hverified := congrArg UserData.emailVerified heq
        simp [userData, User.withEmail, hunverified] at hverified
  | temporaryPassword ctx raw password =>
      simp only [Tenant.handle, AuthOp.handle, bind_eq_ok, pure_eq_ok, Prod.exists,
        Prod.mk.injEq] at h
      obtain ⟨s', _, hop, rfl, _⟩ := h
      obtain ⟨horganization, u, u', found, hget, hrequired, hchosen⟩ :=
        completeFirstSignIn_seen hop
      refine ⟨congrArg Organization.revision horganization, seen_of_user found hget fun heq => ?_⟩
      have hsame := congrArg UserData.passwordChangeRequired heq
      exact absurd (hsame.symm.trans hchosen) (by simp [userData, hrequired])

/-! ## Runs -/

/-- The accepted request `r` announces what it changes for the viewer. -/
def Complete (sha : Sha256) (view : Ctx) (viewer : User) (t : Tenant) (r : Request) : Prop :=
  ∀ t' a, t.handle sha r = .ok (t', a) → shown view viewer t' ≠ shown view viewer t →
    Announced t t'

/-- What the step uses of the tables: they can be served, and the members have their keys. -/
structure Served (t : Tenant) : Prop where
  inspections : InspectionsInOrder t
  accounts : AccountTables t.toAccountScope

/-- An accepted request keeps the tenant served. -/
theorem Served.step (h : Served t) {r : Request} {a : Response}
    (hr : t.handle sha r = .ok (t', a)) : Served t' :=
  ⟨h.inspections.step hr, h.accounts.step (handle_accounts hr)⟩

/-- **One step.** -/
theorem complete_iff (ht : Served t) (hviewer : viewer.role = .admin) {r : Request} {a : Response}
    (hlisted : Listed r) (h : t.handle sha r = .ok (t', a)) :
    (shown view viewer t' ≠ shown view viewer t → Announced t t') ↔ ¬Silent t r := by
  constructor
  · intro hcomplete hsilent
    obtain ⟨hrevision, hseen⟩ := silent_seen hsilent h view.now
    have hne := shown_ne ht.inspections (ht.step h).inspections hviewer hseen
    exact absurd (hcomplete hne).1 (hrevision ▸ lt_irrefl _)
  · intro hloud hne
    obtain hlt | hsame :=
      handle_heralds ht.inspections.calls.ledgers.workflow ht.accounts.users hlisted h hloud
    · exact announced_of_lt hlt
    · exact absurd (hsame.shown view viewer) hne

/-- **Which requests are complete**: after every run, a listed request that is accepted
raises the revision if it changes what an administrator is shown, unless it is silent; and
all those of a run do exactly if none is silent. -/
theorem revision_completeness (hi : t.Initial) (htables : AccountTables t.toAccountScope)
    (hviewer : viewer.role = .admin) (view : Ctx) (rs : List Request) :
    (∀ r t' a, Listed r → (run (Tenant.handle sha) t rs).handle sha r = .ok (t', a) →
      ((shown view viewer t' ≠ shown view viewer (run (Tenant.handle sha) t rs) →
        Announced (run (Tenant.handle sha) t rs) t') ↔
      ¬Silent (run (Tenant.handle sha) t rs) r)) ∧
    (Along (Tenant.handle sha) (fun t r => Listed r → Complete sha view viewer t r) t rs ↔
      Along (Tenant.handle sha)
        (fun t r => Listed r → (t.handle sha r).isOk = true → ¬Silent t r) t rs) := by
  have hserved : Served t := ⟨.ofInitial hi, htables⟩
  constructor
  · intro r t' a hlisted h
    exact complete_iff (run_invariant (fun h hr => Served.step h hr) rs hserved) hviewer hlisted h
  · refine along_congr_of_invariant (fun h hr => Served.step h hr) (fun r ht => ?_) rs hserved
    refine forall_congr' fun hlisted => ?_
    constructor
    · intro hcomplete hok
      obtain ⟨⟨t', a⟩, h⟩ := isOk_iff.mp hok
      exact (complete_iff ht hviewer hlisted h).mp (hcomplete t' a h)
    · intro hloud t' a h
      exact (complete_iff ht hviewer hlisted h).mpr (hloud (isOk_iff.mpr ⟨_, h⟩))

/-- The organization has a logo. -/
def Sample.withLogo : List Request := [.organizations 1 (Sample.ctx 1) (.putLogo {
  ownUpload := true, destination := "organizations/1/logo.png", storage := none })]

/-- The first administrator takes the logo away: it is gone, and the second one is told that
nothing changed since. -/
theorem logo_removed_unannounced :
    let t := run (Tenant.handle Sample.sha) Sample.tenant Sample.withLogo
    ∃ t' a, t.handle Sample.sha (.organizations 1 (Sample.ctx 2) .deleteLogo) = .ok (t', a) ∧
      shown (Sample.ctx 3) (Sample.admin 2 "bola") t' ≠
        shown (Sample.ctx 3) (Sample.admin 2 "bola") t ∧
      ¬Announced t t' ∧
      stateView t' (Sample.ctx 3) (Sample.admin 2 "bola") (some (toString t.revision)) =
        .ok (t', none) := by
  intro t
  have hserved : Served t := run_invariant (fun h hr => Served.step h hr) Sample.withLogo
    ⟨.ofInitial Sample.initial, sample_accountTables⟩
  obtain ⟨⟨t', a⟩, h⟩ := isOk_iff.mp (by decide :
    (t.handle Sample.sha (.organizations 1 (Sample.ctx 2) .deleteLogo)).isOk = true)
  have hsilent : Silent t (.organizations 1 (Sample.ctx 2) .deleteLogo) :=
    .logoDeleted 1 (Sample.ctx 2) (by decide)
  obtain ⟨hrevision, hseen⟩ := silent_seen hsilent h (Sample.ctx 3).now
  have hserved' : Served t' := hserved.step h
  refine ⟨t', a, h, shown_ne hserved.inspections hserved'.inspections rfl hseen,
    fun hannounced => absurd hannounced.1 (hrevision ▸ lt_irrefl _), ?_⟩
  have hsteps := hserved'.inspections.calls.ledgers.workflow.ensureDefaultSteps (Sample.ctx 3)
  simp only [stateView, hsteps, ok_bind, hrevision]
  rfl

/-- The logo is put up with an announcement and taken away without one. -/
theorem revision_completeness_logo :
    let rs := Sample.withLogo ++ [.organizations 1 (Sample.ctx 2) .deleteLogo]
    Along (Tenant.handle Sample.sha)
      (fun t r => Listed r → Complete Sample.sha (Sample.ctx 3) (Sample.admin 2 "bola") t r)
      Sample.tenant Sample.withLogo ∧
    ¬Along (Tenant.handle Sample.sha)
      (fun t r => Listed r → Complete Sample.sha (Sample.ctx 3) (Sample.admin 2 "bola") t r)
      Sample.tenant rs := by
  intro rs
  have hiff := fun rs => (@revision_completeness Sample.sha _ _ Sample.initial sample_accountTables
    (rfl : (Sample.admin 2 "bola").role = .admin) (Sample.ctx 3) rs).2
  constructor
  · rw [hiff]
    refine ⟨fun _ _ hsilent => ?_, trivial⟩
    cases hsilent
  · rw [hiff]
    rintro ⟨_, hloud, _⟩
    exact hloud trivial (by decide) (.logoDeleted 1 (Sample.ctx 2) (by decide))

end VesselCaller
