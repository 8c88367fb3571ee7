import VesselCaller.Accounts.Effect

/-!
# What a request can do to the papers of an organization

Recovery codes, invitations, sign-up links and join requests do not decide who can sign
in at the moment, so `AccountStep` passes over them.  `PaperStep` is their inversion:
what an accepted request did to these four tables, with everything the view checked.
Where only some rows matter later, a step says where such a row comes from: an unused
code or a pending invitation was there before, or the request drew it.

## Main definitions

* `SamePapers` — the four tables are as they were;
* `CodesFrom`, `InvitationsFrom` — rows that were there, or were drawn by the request;
* `PaperStep` — what an accepted request did to the papers, and `handle_papers`, which says
  there is no more.
-/

namespace VesselCaller.Accounts

open Lib

variable {sha : Measurements.Sha256} {t t' : Tenant} {s s₁ s' : AccountScope} {ctx : Ctx} {actor : Id}

/-- The same papers. -/
structure SamePapers (s s' : AccountScope) : Prop where
  recoveryCodes : s'.recoveryCodes = s.recoveryCodes
  invitations : s'.invitations = s.invitations
  signupLinks : s'.signupLinks = s.signupLinks
  joinRequests : s'.joinRequests = s.joinRequests

/-- Nothing done leaves the papers. -/
theorem SamePapers.refl (s : AccountScope) : SamePapers s s := ⟨rfl, rfl, rfl, rfl⟩

/-- Two steps that leave the papers, in a row. -/
theorem SamePapers.trans (h : SamePapers s s₁) (h' : SamePapers s₁ s') : SamePapers s s' :=
  ⟨h'.recoveryCodes.trans h.recoveryCodes, h'.invitations.trans h.invitations,
    h'.signupLinks.trans h.signupLinks, h'.joinRequests.trans h.joinRequests⟩

/-- The recovery codes a request draws. -/
def drawnCodes : Request → List PasswordHash
  | .auth _ (.confirmMfa _ _ _ codes) => codes
  | .auth _ (.regenerateRecoveryCodes _ _ _ codes) => codes
  | _ => []

/-- The raw invitation token a request draws. -/
def drawnInvitation : Request → Option String
  | .users _ _ (.invite _ _ _ _ raw) => some raw
  | .users _ _ (.resendInvitation _ _ raw) => some raw
  | _ => none

/-- The raw verification token of a join request that a request draws. -/
def drawnVerification : Request → Option String
  | .auth _ (.submitJoinRequest _ _ _ _ verification) => some verification
  | _ => none

/-- Every unused code was there before, or was drawn. -/
def CodesFrom (drawn : List PasswordHash) (codes codes' : List MFARecoveryCode) : Prop :=
  ∀ c ∈ codes', c.usedAt = none → c ∈ codes ∨ c.code ∈ drawn

/-- Every pending invitation has the token of one that was pending before, or a drawn one. -/
def InvitationsFrom (drawn : Option String) (invitations invitations' : List Invitation) : Prop :=
  ∀ i ∈ invitations', i.status = .pending →
    (∃ i₀ ∈ invitations, i₀.status = .pending ∧ i₀.tokenHash = i.tokenHash) ∨
      ∃ raw, drawn = some raw ∧ i.tokenHash = tokenHash raw

/-- The join request as `submit_join_request` inserts it. -/
structure Submitted (r : Request) (ctx : Ctx) (s : AccountScope) (q : OrganizationJoinRequest) :
    Prop where
  id : q.id = ctx.uuid 0
  status : q.status = .unverified
  passwordHash : q.passwordHash = none
  user : q.user = none
  fresh : q.id ∉ Table.keys s.joinRequests
  closed : ∀ p ∈ (expireJoinRequests s ctx q.email).joinRequests, p.email = q.email →
    p.isOpen = false
  hash : ∃ raw, drawnVerification r = some raw ∧ q.verificationTokenHash = some (tokenHash raw)
  freshHash : q.verificationTokenHash ∉ (expireJoinRequests s ctx q.email).joinRequests.map
    OrganizationJoinRequest.verificationTokenHash

/-- The join request once its address is proven. -/
def OrganizationJoinRequest.verified (q : OrganizationJoinRequest) (ctx : Ctx) (password : String) :
    OrganizationJoinRequest :=
  { q with
    status := .pending
    emailVerifiedAt := some ctx.now
    passwordHash := some (makePassword (ctx.uuid 20) password)
    verificationTokenHash := none }

/-- The actor is an Admin of the organization who may sign in. -/
def ActiveAdmin (s : AccountScope) (actor : Id) : Prop :=
  ∃ admin, Table.get actor s.users = some admin ∧ admin.role = .admin ∧
    admin.isActive s.organization = true

/-- What `review_join_request` makes of a pending request: an account and an approval with the
role that was given, or a rejection. -/
inductive Decided (ctx : Ctx) (actor : Id) (approve : Option Role) (s s' : AccountScope)
    (q : OrganizationJoinRequest) : OrganizationJoinRequest → Prop where
  | approved (role : Role) (given : approve = some role) (password : PasswordHash)
      (verifiedAt : Instant) (chosen : q.passwordHash = some password)
      (fresh : ctx.uuid 0 ∉ Table.keys s.users)
      (users : s'.users = s.users ++
        [verifiedMember ctx q.name q.email role password verifiedAt]) :
      Decided ctx actor approve s s' q { q.reviewed ctx actor with
        status := .approved, role := some role, user := some (ctx.uuid 0) }
  | rejected (users : s'.users = s.users) :
      Decided ctx actor approve s s' q { q.reviewed ctx actor with status := .rejected }

/-- What an accepted request did to the papers. -/
inductive PaperStep (r : Request) (s s' : AccountScope) : Prop where
  | idle (same : SamePapers s s')
  | recovery (codes : List MFARecoveryCode) (h : CodesFrom (drawnCodes r) s.recoveryCodes codes)
      (same : SamePapers { s with recoveryCodes := codes } s')
  | invited (invitations : List Invitation)
      (h : InvitationsFrom (drawnInvitation r) s.invitations invitations)
      (same : SamePapers { s with invitations := invitations } s')
  | linked (links : List OrganizationSignupLink) (same : SamePapers { s with signupLinks := links } s')
  | expired (ctx : Ctx) (email : String) (same : SamePapers (expireJoinRequests s ctx email) s')
  | submitted (ctx : Ctx) (q : OrganizationJoinRequest) (h : Submitted r ctx s q)
      (same : SamePapers { s with
        joinRequests := q :: (expireJoinRequests s ctx q.email).joinRequests } s')
  | verified (ctx : Ctx) (raw : String) (password : NewPassword)
      (request : r = .auth ctx (.verifyJoinRequest raw password)) (q : OrganizationJoinRequest)
      (mem : q ∈ s.joinRequests) (unverified : q.status = .unverified)
      (hash : q.verificationTokenHash = some (tokenHash raw)) (link : OrganizationSignupLink)
      (found : Table.get q.signupLink s.signupLinks = some link)
      (active : link.active ctx.now = true)
      (same : SamePapers { s with
        joinRequests := Table.put (q.verified ctx password.raw) s.joinRequests } s')
  | decided (ctx : Ctx) (actor : Id) (approve : Option Role) (reserved : Bool)
      (q q' : OrganizationJoinRequest)
      (request : r = .users actor ctx (.reviewJoinRequest q.id approve reserved))
      (admin : ActiveAdmin s actor) (found : Table.get q.id s.joinRequests = some q)
      (pending : q.status = .pending) (h : Decided ctx actor approve s s' q q')
      (same : SamePapers { s with joinRequests := Table.put q' s.joinRequests } s')

/-! ## Services that leave the papers alone -/

/-- Starting a session touches no paper. -/
theorem startSession_papers {u : User} {inactive : ApiError}
    (h : startSession s ctx u inactive = .ok s') : SamePapers s s' := by
  simp only [startSession, bind_eq_ok, pure_eq_ok] at h
  obtain ⟨_, _, _, _, rfl⟩ := h
  exact ⟨rfl, rfl, rfl, rfl⟩

/-- Neither does opening one, with or without a second factor. -/
theorem openSession_papers {u : User} {inactive : ApiError} {a : Response}
    (h : openSession s ctx u inactive = .ok (s', a)) : SamePapers s s' := by
  unfold openSession at h
  split at h
  · simp only [startMfaChallenge, bind_eq_ok, pure_eq_ok, Prod.exists, Prod.mk.injEq] at h
    obtain ⟨_, _, ⟨_, _, _, _, rfl, _⟩, rfl, _⟩ := h
    exact ⟨rfl, rfl, rfl, rfl⟩
  · simp only [bind_eq_ok, pure_eq_ok, Prod.mk.injEq] at h
    obtain ⟨_, hs₁, rfl, _⟩ := h
    exact startSession_papers hs₁

/-- A sign-in touches no paper, whatever it is answered. -/
theorem continueLogin_papers {selected : User} {email password raw : String} {current : Option Id}
    {a : Response} (h : continueLogin s ctx selected email password raw current = .ok (s', a)) :
    SamePapers s s' := by
  simp only [continueLogin, bind_eq_ok] at h
  obtain ⟨challenge, hchallenge, h⟩ := h
  cases challenge with
  | some challenge =>
      obtain ⟨s₁, token⟩ := challenge
      obtain ⟨_, _, _, _, _, _, rfl⟩ := temporaryPasswordChallenge_eq_ok hchallenge
      simp only [pure_eq_ok, Prod.mk.injEq] at h
      exact h.1 ▸ ⟨rfl, rfl, rfl, rfl⟩
  | none =>
      simp only [bind_eq_ok] at h
      obtain ⟨_, _, _, _, _, _, h⟩ := h
      exact openSession_papers h

/-- A new account comes without papers. -/
theorem insertUser_papers {u : User} (h : insertUser s u = .ok s') : SamePapers s s' := by
  obtain ⟨_, _, rfl⟩ := insertUser_eq_ok h
  exact ⟨rfl, rfl, rfl, rfl⟩

/-! ## Recovery codes -/

/-- The recovery codes that are generated are the drawn ones. -/
theorem generateRecoveryCodes_from (s : AccountScope) (userId : Id) (codes : List PasswordHash) :
    CodesFrom codes s.recoveryCodes (generateRecoveryCodes s userId codes).recoveryCodes := by
  intro c hc _
  obtain hold | hnew := List.mem_append.mp hc
  · exact .inl (List.mem_of_mem_filter hold)
  · obtain ⟨code, hcode, rfl⟩ := List.mem_map.mp hnew
    exact .inr hcode

/-- A recovery code that is used adds none. -/
theorem useRecoveryCode_from {userId : Id} {raw : String}
    (h : useRecoveryCode s ctx userId raw = some s') :
    ∃ codes, CodesFrom [] s.recoveryCodes codes ∧ s' = { s with recoveryCodes := codes } := by
  unfold useRecoveryCode at h
  dsimp only at h
  split at h
  · obtain rfl := Option.some.inj h
    refine ⟨_, ?_, rfl⟩
    intro c hc hunused
    obtain ⟨n, hn, hget⟩ := List.mem_iff_getElem.mp hc
    rw [List.getElem_modify] at hget
    split at hget
    · rw [← hget] at hunused
      cases hunused
    · exact .inl (hget ▸ List.getElem_mem _)
  · cases h

/-- Judging a code may use up a recovery code, and touches nothing else. -/
theorem judgeMfaAttempt_papers {c : MFAChallenge} {u : User} {attempt : MfaAttempt}
    {verdict : Except ApiError Response}
    (h : judgeMfaAttempt s ctx c u attempt = .ok (s', verdict)) :
    ∃ codes, CodesFrom [] s.recoveryCodes codes ∧
      SamePapers { s with recoveryCodes := codes } s' := by
  have hkept : CodesFrom [] s.recoveryCodes s.recoveryCodes := fun c hc _ => .inl hc
  unfold judgeMfaAttempt at h
  dsimp only at h
  split at h
  · simp only [pure_eq_ok, Prod.mk.injEq] at h
    exact ⟨_, hkept, h.1 ▸ .refl _⟩
  · split at h
    · simp only [pure_eq_ok, Prod.mk.injEq] at h
      exact ⟨_, hkept, h.1 ▸ .refl _⟩
    · rename_i s₁ hs₁
      obtain ⟨codes, hcodes, rfl⟩ : ∃ codes, CodesFrom [] s.recoveryCodes codes ∧
          s₁ = { s with recoveryCodes := codes } := by
        split at hs₁
        · exact ⟨_, hkept, (Option.some.inj hs₁).symm⟩
        · exact useRecoveryCode_from hs₁
      split at h
      · rename_i s₂ hstart
        simp only [pure_eq_ok, Prod.mk.injEq] at h
        have hpapers := startSession_papers hstart
        exact ⟨codes, hcodes, h.1 ▸
          ⟨hpapers.recoveryCodes, hpapers.invitations, hpapers.signupLinks, hpapers.joinRequests⟩⟩
      · split at h
        · simp only [pure_eq_ok, Prod.mk.injEq] at h
          exact ⟨codes, hcodes, h.1 ▸ ⟨rfl, rfl, rfl, rfl⟩⟩
        · cases h

/-- A second factor opens no paper. -/
theorem verifyMfa_papers {attempt : MfaAttempt} {a : Response} {r : Request}
    (h : verifyMfa s ctx attempt = .ok (s', a)) : PaperStep r s s' := by
  simp only [verifyMfa, bind_eq_ok, Prod.exists] at h
  obtain ⟨_, _, c, _, _, _, _, _, _, _, u, _, s₁, verdict, hjudge, h⟩ := h
  obtain ⟨codes, hcodes, hpapers⟩ := judgeMfaAttempt_papers hjudge
  have hstep : PaperStep r s s₁ := by
    refine .recovery codes (fun c hc hunused => ?_)
      ⟨hpapers.recoveryCodes, hpapers.invitations, hpapers.signupLinks, hpapers.joinRequests⟩
    obtain hold | hnone := hcodes c hc hunused
    · exact .inl hold
    · cases hnone
  cases verdict with
  | ok response => exact (Prod.mk.inj (pure_eq_ok.mp h)).1 ▸ hstep
  | error e =>
      simp only [bind_eq_ok, pure_eq_ok, Prod.mk.injEq] at h
      obtain ⟨_, _, hs₁, _⟩ := h
      exact hs₁ ▸ hstep

/-! ## Invitations -/

/-- Revoking opens no invitation. -/
theorem revokeInvitations_from (s : AccountScope) (ctx : Ctx) (email : String)
    (drawn : Option String) :
    InvitationsFrom drawn s.invitations (revokeInvitations s ctx email).invitations := by
  intro i hi hpending
  obtain ⟨i₀, hi₀, rfl⟩ := List.mem_map.mp hi
  split at hpending
  · cases hpending
  · rename_i hkept
    rw [if_neg hkept]
    exact .inl ⟨i₀, hi₀, hpending, rfl⟩

/-- Writing an invitation over one with its key. -/
theorem putInvitation_from {i : Invitation} {drawn : Option String}
    (h : i.status = .pending → ∃ raw, drawn = some raw ∧ i.tokenHash = tokenHash raw) :
    InvitationsFrom drawn s.invitations (Table.put i s.invitations) := by
  intro j hj hpending
  obtain rfl | ⟨hold, _⟩ := Table.mem_put hj
  · exact .inr (h hpending)
  · exact .inl ⟨j, hold, hpending, rfl⟩

/-- An invitation is opened under the drawn value. -/
theorem createInvitation_papers {name email : String} {role : Role} {reserved : Bool} {raw : String}
    {i : Invitation} (h : createInvitation s ctx actor name email role reserved raw = .ok (s', i)) :
    PaperStep (.users actor ctx (.invite name email role reserved raw)) s s' := by
  simp only [createInvitation, insertInvitation, bind_eq_ok, pure_eq_ok, Prod.mk.injEq] at h
  obtain ⟨_, _, _, _, _, ⟨_, _, _, _, rfl⟩, rfl, _⟩ := h
  refine .invited _ ?_ ⟨rfl, rfl, rfl, rfl⟩
  intro j hj hpending
  obtain rfl | hj := List.mem_cons.mp hj
  · exact .inr ⟨raw, rfl, rfl⟩
  · exact revokeInvitations_from s ctx email _ j hj hpending

/-- An accepted invitation is closed. -/
theorem acceptInvitation_papers {raw : String} {name : Option String} {password : NewPassword}
    {reserved : Bool} {r : Request}
    (h : acceptInvitation s ctx raw name password reserved = .ok s') : PaperStep r s s' := by
  simp only [acceptInvitation, bind_eq_ok, pure_eq_ok] at h
  obtain ⟨_, _, _, _, invitation, _, _, _, _, _, s₁, hs₁, rfl⟩ := h
  have hpapers := insertUser_papers hs₁
  refine .invited (Table.put { invitation with
    status := .accepted, acceptedAt := some ctx.now } s.invitations) ?_ ?_
  · exact putInvitation_from fun hpending => by cases hpending
  · refine ⟨hpapers.recoveryCodes, ?_, hpapers.signupLinks, hpapers.joinRequests⟩
    show Table.put _ s₁.invitations = Table.put _ s.invitations
    rw [hpapers.invitations]

/-! ## Join requests -/

/-- A join request is filed by a link that is open. -/
theorem submitJoinRequest_papers {raw name email : String} {reserved : Bool} {verification : String}
    {q : Option OrganizationJoinRequest}
    (h : submitJoinRequest s ctx raw name email reserved verification = .ok (s', q)) :
    PaperStep (.auth ctx (.submitJoinRequest raw name email reserved verification)) s s' := by
  simp only [submitJoinRequest, bind_eq_ok] at h
  obtain ⟨_, _, link, _, h⟩ := h
  split at h
  · exact .idle ((Prod.mk.inj (pure_eq_ok.mp h)).1 ▸ .refl _)
  · split at h
    · obtain ⟨rfl, _⟩ := Prod.mk.inj (pure_eq_ok.mp h)
      exact .expired ctx email (.refl _)
    · rename_i hclosed
      simp only [bind_eq_ok, raiseIf_eq_ok, pure_eq_ok, Prod.mk.injEq] at h
      obtain ⟨_, hid, _, hhash, rfl, _⟩ := h
      refine .submitted ctx _ ⟨rfl, rfl, rfl, rfl, ?_, ?_, ⟨verification, rfl, rfl⟩, hhash⟩
        ⟨rfl, rfl, rfl, rfl⟩
      · have hkeys : Table.keys (expireJoinRequests s ctx email).joinRequests =
            Table.keys s.joinRequests := by
          simp only [Table.keys, expireJoinRequests, List.map_map]
          refine List.map_congr_left fun q _ => ?_
          rw [Function.comp_apply]
          split <;> rfl
        rw [← hkeys]
        exact hid
      · intro p hp hemail
        rw [List.any_eq_true] at hclosed
        by_contra hopen
        exact hclosed ⟨p, hp, by simp [hemail, hopen]⟩

/-- A proven address makes a join request pending. -/
theorem verifyJoinRequest_papers {raw : String} {password : NewPassword}
    (h : verifyJoinRequest s ctx raw password = .ok s') :
    PaperStep (.auth ctx (.verifyJoinRequest raw password)) s s' := by
  simp only [verifyJoinRequest, bind_eq_ok, orRaise_eq_ok, raiseIf_eq_ok, pure_eq_ok, not_or,
    Bool.not_eq_false] at h
  obtain ⟨_, _, q, hq, _, _, link, hlink, _, ⟨hactive, _⟩, rfl⟩ := h
  have hfind := List.find?_some hq
  simp only [Bool.and_eq_true, decide_eq_true_eq] at hfind
  exact .verified ctx raw password rfl q (List.mem_of_find?_eq_some hq) hfind.2 hfind.1 link hlink
    hactive ⟨rfl, rfl, rfl, rfl⟩

/-- The services of this file let an active Admin through. -/
theorem requireJoinAdmin_eq_ok {detail : String} (h : requireJoinAdmin s actor detail = .ok ()) :
    ActiveAdmin s actor := by
  simp only [requireJoinAdmin, bind_eq_ok, orRaise_eq_ok, raiseIf_eq_ok, not_or, not_not,
    Bool.not_eq_false] at h
  obtain ⟨_, _, admin, hadmin, hrole, hactive⟩ := h
  exact ⟨admin, hadmin, hrole, hactive⟩

/-- A review closes a join request. -/
theorem reviewJoinRequest_papers {requestId : Id} {approve : Option Role} {reserved : Bool}
    {q₁ : OrganizationJoinRequest}
    (h : reviewJoinRequest s ctx actor requestId approve reserved = .ok (s', q₁)) :
    PaperStep (.users actor ctx (.reviewJoinRequest requestId approve reserved)) s s' := by
  simp only [reviewJoinRequest, bind_eq_ok, orRaise_eq_ok] at h
  obtain ⟨_, hrequired, q, hq, h⟩ := h
  have hadmin := requireJoinAdmin_eq_ok hrequired
  obtain rfl : q.id = requestId := (Table.mem_of_get hq).2
  split at h
  · simp only [bind_eq_ok, pure_eq_ok, Prod.mk.injEq] at h
    obtain ⟨_, _, rfl, _⟩ := h
    exact .idle (.refl _)
  · split at h
    · exact .idle ((Prod.mk.inj (pure_eq_ok.mp h)).1 ▸ .refl _)
    · simp only [bind_eq_ok, orRaise_eq_ok] at h
      obtain ⟨verifiedAt, hverified, h⟩ := h
      have hpending : q.status = .pending := by
        simpa using (Option.filter_eq_some_iff.mp hverified).2
      split at h
      · simp only [bind_eq_ok, orRaise_eq_ok, pure_eq_ok, Prod.mk.injEq] at h
        obtain ⟨_, _, password, hpassword, s₁, hs₁, rfl, _⟩ := h
        obtain ⟨fresh, _, rfl⟩ := insertUser_eq_ok hs₁
        exact .decided ctx actor _ reserved q _ rfl hadmin hq hpending
          (.approved _ rfl password verifiedAt hpassword fresh rfl) ⟨rfl, rfl, rfl, rfl⟩
      · simp only [pure_eq_ok, Prod.mk.injEq] at h
        obtain ⟨rfl, _⟩ := h
        exact .decided ctx actor _ reserved q _ rfl hadmin hq hpending (.rejected rfl)
          ⟨rfl, rfl, rfl, rfl⟩

/-! ## All requests -/

/-- Recovery codes that are drawn anew. -/
theorem generateRecoveryCodes_papers (userId : Id) {codes : List PasswordHash} {r : Request}
    (hdrawn : ∀ code ∈ codes, code ∈ drawnCodes r)
    (h : SamePapers (generateRecoveryCodes s userId codes) s') : PaperStep r s s' := by
  refine .recovery _ (fun c hc hunused => ?_) h
  obtain hold | hnew := generateRecoveryCodes_from s userId codes c hc hunused
  · exact .inl hold
  · exact .inr (hdrawn _ hnew)

/-- What the administration of users does to the papers. -/
theorem userOp_papers {op : UserOp} {a : Response} (h : op.handle s ctx actor = .ok (s', a)) :
    PaperStep (.users actor ctx op) s s' := by
  cases op with
  | patchUser userId data =>
      simp only [UserOp.handle, patchUser, bind_eq_ok, pure_eq_ok, Prod.exists, Prod.mk.injEq] at h
      obtain ⟨_, _, ⟨_, _, _, _, _, _, _, _, rfl, _⟩, rfl, _⟩ := h
      refine .idle ⟨?_, ?_, ?_, ?_⟩
      all_goals
        simp only [AccountScope.bumpRevision]
        split <;> rfl
  | removeUser userId =>
      simp only [UserOp.handle, removeUser, bind_eq_ok, pure_eq_ok, Prod.mk.injEq] at h
      obtain ⟨_, ⟨_, _, _, _, _, _, _, _, rfl⟩, rfl, _⟩ := h
      exact .idle ⟨rfl, rfl, rfl, rfl⟩
  | provision data =>
      simp only [UserOp.handle, provisionTemporaryUser, bind_eq_ok, pure_eq_ok, Prod.exists,
        Prod.mk.injEq] at h
      obtain ⟨_, _, ⟨_, _, _, _, _, _, _, _, s₁, hs₁, rfl, _⟩, rfl, _⟩ := h
      obtain ⟨_, _, rfl⟩ := insertUser_eq_ok hs₁
      exact .invited _ (revokeInvitations_from s ctx data.email _) ⟨rfl, rfl, rfl, rfl⟩
  | regenerate userId raw =>
      simp only [UserOp.handle, regenerateTemporaryPassword, bind_eq_ok, pure_eq_ok, Prod.exists,
        Prod.mk.injEq] at h
      obtain ⟨_, _, ⟨_, _, _, _, _, _, _, _, rfl, _⟩, rfl, _⟩ := h
      exact .idle ⟨rfl, rfl, rfl, rfl⟩
  | dispatchReset userId raw =>
      simp only [UserOp.handle, dispatchPasswordReset, bind_eq_ok, pure_eq_ok, Prod.exists,
        Prod.mk.injEq] at h
      obtain ⟨_, ⟨_, _, _, _, _, _, htoken, rfl⟩, rfl, _⟩ := h
      obtain ⟨_, _, _, _, rfl⟩ := issueActionToken_eq_ok htoken
      exact .idle ⟨rfl, rfl, rfl, rfl⟩
  | resetMfa userId =>
      simp only [UserOp.handle, resetMfa, bind_eq_ok, pure_eq_ok, Prod.exists, Prod.mk.injEq] at h
      obtain ⟨_, _, ⟨u, _, _, _, rfl, _⟩, rfl, _⟩ := h
      exact generateRecoveryCodes_papers (s := s) u.id (fun code hcode => by cases hcode)
        ⟨rfl, rfl, rfl, rfl⟩
  | invite name email role reserved raw =>
      simp only [UserOp.handle, bind_eq_ok, pure_eq_ok, Prod.exists, Prod.mk.injEq] at h
      obtain ⟨_, _, hop, rfl, _⟩ := h
      exact createInvitation_papers hop
  | resendInvitation invitationId reserved raw =>
      simp only [UserOp.handle, resendInvitation, bind_eq_ok, pure_eq_ok, Prod.exists,
        Prod.mk.injEq] at h
      obtain ⟨_, _, ⟨_, _, i, _, _, _, rfl, _⟩, rfl, _⟩ := h
      exact .invited _ (putInvitation_from fun _ => ⟨raw, rfl, rfl⟩) ⟨rfl, rfl, rfl, rfl⟩
  | revokeInvitation invitationId =>
      simp only [UserOp.handle, revokeInvitation, bind_eq_ok, pure_eq_ok, Prod.mk.injEq] at h
      obtain ⟨_, ⟨_, _, rfl⟩, rfl, _⟩ := h
      exact .invited _ (putInvitation_from fun hpending => by cases hpending)
        ⟨rfl, rfl, rfl, rfl⟩
  | createSignupLink expiresInDays raw =>
      simp only [UserOp.handle, createSignupLink, bind_eq_ok, pure_eq_ok, Prod.exists,
        Prod.mk.injEq] at h
      obtain ⟨_, _, ⟨_, _, _, _, _, _, _, _, rfl, _⟩, rfl, _⟩ := h
      exact .linked _ ⟨rfl, rfl, rfl, rfl⟩
  | revokeSignupLink linkId =>
      simp only [UserOp.handle, revokeSignupLink, bind_eq_ok, pure_eq_ok, Prod.mk.injEq] at h
      obtain ⟨_, ⟨link, _, hlink⟩, rfl, _⟩ := h
      split at hlink
      · exact .idle (pure_eq_ok.mp hlink ▸ .refl _)
      · obtain rfl := pure_eq_ok.mp hlink
        exact .linked _ ⟨rfl, rfl, rfl, rfl⟩
  | reviewJoinRequest requestId approve reserved =>
      simp only [UserOp.handle, bind_eq_ok, Prod.exists] at h
      obtain ⟨_, _, hop, h⟩ := h
      split at h <;>
        · obtain ⟨rfl, _⟩ := Prod.mk.inj (pure_eq_ok.mp h)
          exact reviewJoinRequest_papers hop

section Mails

variable {a : Response}

/-- A proven address touches no paper. -/
theorem verifyEmail_papers {raw : String} {reserved : Bool}
    (h : verifyEmail s ctx raw reserved = .ok (s', a)) : SamePapers s s' := by
  simp only [verifyEmail, bind_eq_ok, orRaise_eq_ok, Prod.exists] at h
  obtain ⟨s₁, used, u, hconsumed, h⟩ := h
  obtain ⟨token, hc, _⟩ := consumeActionToken_eq_some hconsumed
  rw [hc.scope] at h
  split at h
  · simp only [bind_eq_ok, pure_eq_ok, Prod.mk.injEq] at h
    obtain ⟨_, _, rfl, _⟩ := h
    exact ⟨rfl, rfl, rfl, rfl⟩
  · exact (Prod.mk.inj (pure_eq_ok.mp h)).1 ▸ ⟨rfl, rfl, rfl, rfl⟩

/-- Mails that are asked for write tokens, or nothing at all. -/
theorem resendVerification_papers {email raw : String} {throttled : Bool}
    (h : resendVerification s ctx email raw throttled = .ok (s', a)) : SamePapers s s' := by
  simp only [resendVerification] at h
  split at h
  · exact (Prod.mk.inj (pure_eq_ok.mp h)).1 ▸ .refl _
  · split at h
    · exact (Prod.mk.inj (pure_eq_ok.mp h)).1 ▸ .refl _
    · simp only [bind_eq_ok, pure_eq_ok, Prod.exists, Prod.mk.injEq] at h
      obtain ⟨_, _, htoken, rfl, _⟩ := h
      obtain ⟨_, _, _, _, rfl⟩ := issueActionToken_eq_ok htoken
      exact ⟨rfl, rfl, rfl, rfl⟩

/-- A mail to reset the password touches no paper. -/
theorem forgotPassword_papers {email raw : String} {throttled : Bool}
    (h : forgotPassword s ctx email raw throttled = .ok (s', a)) : SamePapers s s' := by
  simp only [forgotPassword] at h
  split at h
  · exact (Prod.mk.inj (pure_eq_ok.mp h)).1 ▸ .refl _
  · split at h
    · exact (Prod.mk.inj (pure_eq_ok.mp h)).1 ▸ .refl _
    · simp only [bind_eq_ok, pure_eq_ok, Prod.exists, Prod.mk.injEq] at h
      obtain ⟨_, _, htoken, rfl, _⟩ := h
      obtain ⟨_, _, _, _, rfl⟩ := issueActionToken_eq_ok htoken
      exact ⟨rfl, rfl, rfl, rfl⟩

/-- An edited profile touches no paper. -/
theorem putProfile_papers {session : Id} {data : ProfileInput}
    (h : putProfile s ctx session data = .ok (s', a)) : SamePapers s s' := by
  simp only [putProfile, putProfileOf, bind_eq_ok] at h
  obtain ⟨u, _, _, _, _, _, h⟩ := h
  split at h
  · exact (Prod.mk.inj (pure_eq_ok.mp h)).1 ▸ ⟨rfl, rfl, rfl, rfl⟩
  · simp only [bind_eq_ok, pure_eq_ok, Prod.exists, Prod.mk.injEq] at h
    obtain ⟨_, _, _, _, _, _, htoken, rfl, _⟩ := h
    obtain ⟨_, _, _, _, rfl⟩ := issueActionToken_eq_ok htoken
    exact ⟨rfl, rfl, rfl, rfl⟩

/-- The first sign-in spends a token and opens a session. -/
theorem completeFirstSignIn_papers {raw : String} {password : NewPassword}
    (h : completeFirstSignIn s ctx raw password = .ok (s', a)) : SamePapers s s' := by
  simp only [completeFirstSignIn, bind_eq_ok, Prod.exists] at h
  obtain ⟨s₁, u', hservice, h⟩ := h
  obtain ⟨token, u, hc, _⟩ := completeTemporaryPassword_eq_ok hservice
  have hsame : SamePapers s s₁ := by
    rw [hc.scope]
    exact ⟨rfl, rfl, rfl, rfl⟩
  exact hsame.trans (openSession_papers h)

end Mails

/-- The requests around a session are paper steps, most of them idle. -/
theorem authOp_papers {op : AuthOp} {a : Response} (h : op.handle s ctx = .ok (s', a)) :
    PaperStep (.auth ctx op) s s' := by
  cases op with
  | verifyEmail raw reserved => exact .idle (verifyEmail_papers h)
  | resendVerification email raw throttled => exact .idle (resendVerification_papers h)
  | login email password raw current throttled =>
      simp only [AuthOp.handle, login, bind_eq_ok] at h
      obtain ⟨_, _, selected, _, _, _, h⟩ := h
      exact .idle (continueLogin_papers h)
  | lateLogin selected email password raw current => exact .idle (continueLogin_papers h)
  | completeTemporaryPassword raw password => exact .idle (completeFirstSignIn_papers h)
  | verifyMfa attempt => exact verifyMfa_papers h
  | forgotPassword email raw throttled => exact .idle (forgotPassword_papers h)
  | resetPassword raw password =>
      simp only [AuthOp.handle, resetPassword, bind_eq_ok, orRaise_eq_ok, pure_eq_ok, Prod.exists,
        Prod.mk.injEq] at h
      obtain ⟨_, _, s₁, used, u, hconsumed, _, _, _, _, rfl, _⟩ := h
      obtain ⟨token, hc, _⟩ := consumeActionToken_eq_some hconsumed
      rw [hc.scope]
      exact .idle ⟨rfl, rfl, rfl, rfl⟩
  | acceptInvitation raw name password reserved =>
      simp only [AuthOp.handle, bind_eq_ok, pure_eq_ok, Prod.mk.injEq] at h
      obtain ⟨_, hop, rfl, _⟩ := h
      exact acceptInvitation_papers hop
  | submitJoinRequest raw name email reserved verification =>
      simp only [AuthOp.handle, bind_eq_ok, pure_eq_ok, Prod.exists, Prod.mk.injEq] at h
      obtain ⟨_, _, hop, rfl, _⟩ := h
      exact submitJoinRequest_papers hop
  | verifyJoinRequest raw password =>
      simp only [AuthOp.handle, bind_eq_ok, pure_eq_ok, Prod.mk.injEq] at h
      obtain ⟨_, hop, rfl, _⟩ := h
      exact verifyJoinRequest_papers hop
  | changePassword session currentPassword password recentMfa =>
      simp only [AuthOp.handle, changePassword, changePasswordOf, rotateCurrentSession, bind_eq_ok,
        pure_eq_ok, Prod.mk.injEq] at h
      obtain ⟨u, _, _, _, _, _, _, _, _, ⟨_, _, rfl⟩, rfl, _⟩ := h
      exact .idle ⟨rfl, rfl, rfl, rfl⟩
  | putProfile session data => exact .idle (putProfile_papers h)
  | confirmMfa session secret valid codes =>
      simp only [AuthOp.handle, confirmMfa, confirmMfaOf, bind_eq_ok, pure_eq_ok, Prod.mk.injEq] at h
      obtain ⟨u, _, _, _, rfl, _⟩ := h
      exact generateRecoveryCodes_papers u.id (fun _ hcode => hcode) ⟨rfl, rfl, rfl, rfl⟩
  | regenerateRecoveryCodes session valid recentMfa codes =>
      simp only [AuthOp.handle, regenerateRecoveryCodes, regenerateRecoveryCodesOf, bind_eq_ok,
        pure_eq_ok, Prod.mk.injEq] at h
      obtain ⟨u, _, _, _, _, _, rfl, _⟩ := h
      exact generateRecoveryCodes_papers u.id (fun _ hcode => hcode) ⟨rfl, rfl, rfl, rfl⟩
  | disableMfa session totp password =>
      simp only [AuthOp.handle, disableMfa, disableMfaOf, bind_eq_ok, pure_eq_ok, Prod.mk.injEq] at h
      obtain ⟨u, _, _, _, _, _, _, _, rfl, _⟩ := h
      exact generateRecoveryCodes_papers u.id (fun code hcode => by cases hcode)
        ⟨rfl, rfl, rfl, rfl⟩
  | logout session =>
      simp only [AuthOp.handle, bind_eq_ok, pure_eq_ok, Prod.mk.injEq] at h
      obtain ⟨_, _, rfl, _⟩ := h
      exact .idle ⟨rfl, rfl, rfl, rfl⟩
  | revokeSession session other =>
      simp only [AuthOp.handle, bind_eq_ok, pure_eq_ok, Prod.mk.injEq] at h
      obtain ⟨_, _, _, _, rfl, _⟩ := h
      exact .idle ⟨rfl, rfl, rfl, rfl⟩
  | signOutEverywhere session =>
      simp only [AuthOp.handle, bind_eq_ok, pure_eq_ok, Prod.mk.injEq] at h
      obtain ⟨_, _, rfl, _⟩ := h
      exact .idle ⟨rfl, rfl, rfl, rfl⟩

/-- Requests of the other parts of the program leave the papers. -/
theorem samePapers_ofSameScope (h : SameScope t t') :
    SamePapers t.toAccountScope t'.toAccountScope := by
  rw [h.tables]
  exact ⟨rfl, rfl, rfl, rfl⟩

/-- **Every accepted request is a paper step.** -/
theorem handle_papers {r : Request} {a : VesselCaller.Response} (h : t.handle sha r = .ok (t', a)) :
    PaperStep r t.toAccountScope t'.toAccountScope := by
  cases r with
  | users actor ctx op =>
      simp only [Tenant.handle, bind_eq_ok, pure_eq_ok, Prod.exists, Prod.mk.injEq] at h
      obtain ⟨_, _, _, _, hop, rfl, _⟩ := h
      exact userOp_papers hop
  | auth ctx op =>
      simp only [Tenant.handle, bind_eq_ok, pure_eq_ok, Prod.exists, Prod.mk.injEq] at h
      obtain ⟨_, _, hop, rfl, _⟩ := h
      exact authOp_papers hop
  | organizations actor ctx op =>
      simp only [Tenant.handle, bind_eq_ok, pure_eq_ok, Prod.exists, Prod.mk.injEq] at h
      obtain ⟨_, _, _, _, hop, rfl, _⟩ := h
      cases op with
      | putOrganization data =>
          simp only [Organizations.Op.handle, Organizations.putOrganization, bind_eq_ok, pure_eq_ok,
            Prod.mk.injEq] at hop
          obtain ⟨_, ⟨_, _, _, _, rfl⟩, rfl, _⟩ := hop
          exact .idle ⟨rfl, rfl, rfl, rfl⟩
      | putLogo data =>
          simp only [Organizations.Op.handle, Organizations.putLogo, bind_eq_ok, pure_eq_ok,
            Prod.mk.injEq] at hop
          obtain ⟨_, ⟨_, _, _, _, rfl⟩, rfl, _⟩ := hop
          exact .idle ⟨rfl, rfl, rfl, rfl⟩
      | deleteLogo =>
          simp only [Organizations.Op.handle, pure_eq_ok, Prod.mk.injEq] at hop
          exact .idle (hop.1 ▸ ⟨rfl, rfl, rfl, rfl⟩)
      | putSettings data =>
          simp only [Organizations.Op.handle, Organizations.putSettings, bind_eq_ok, pure_eq_ok,
            Prod.mk.injEq] at hop
          obtain ⟨_, ⟨_, _, rfl⟩, rfl, _⟩ := hop
          exact .idle ⟨rfl, rfl, rfl, rfl⟩
  | measurements actor ctx op =>
      simp only [Tenant.handle, bind_eq_ok, pure_eq_ok, Prod.exists, Prod.mk.injEq] at h
      obtain ⟨_, _, _, _, hop, rfl, _⟩ := h
      exact .idle (samePapers_ofSameScope (measurements_sameScope hop))
  | portal ctx op =>
      simp only [Tenant.handle, bind_eq_ok, pure_eq_ok, Prod.exists, Prod.mk.injEq] at h
      obtain ⟨_, _, hop, rfl, _⟩ := h
      exact .idle (samePapers_ofSameScope (portal_frame hop).1.toSameScope)
  | operations actor ctx op =>
      simp only [Tenant.handle, bind_eq_ok, pure_eq_ok, Prod.exists, Prod.mk.injEq] at h
      obtain ⟨_, _, _, _, hop, rfl, _⟩ := h
      exact .idle (samePapers_ofSameScope (operations_frame hop).1)
  | billing actor ctx op =>
      simp only [Tenant.handle, bind_eq_ok, pure_eq_ok, Prod.exists, Prod.mk.injEq] at h
      obtain ⟨_, _, _, _, hop, rfl, _⟩ := h
      exact .idle (samePapers_ofSameScope (billing_frame hop).1.1)

end VesselCaller.Accounts
