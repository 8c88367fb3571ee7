import VesselCaller.Accounts.Papers
import VesselCaller.Accounts.Supersession
import VesselCaller.Platform.Views

/-!
# The capabilities of an organization

Whoever signs in or joins presents a capability: a session, an action token, an MFA
challenge, a recovery code or an invitation.  A capability is *live* while some row would
still be accepted for it.  `handle_issues` says of every event where the live rows after it
come from: they were live before, or the event drew them; and sessions, tokens and
challenges are drawn in an organization that is not suspended only.

## Main definitions

* `Capability`, `Live` — what is presented, and whether it would be accepted;
* `Draws` — what an event draws at random;
* `Issues` — what is live after an event was live before, or was drawn by it.
-/

namespace VesselCaller.Platform

open Lib Accounts

variable {sha : Measurements.Sha256} {t t' : Tenant} {s s₁ s' : AccountScope} {ctx : Ctx}
  {actor : Id} {e : Event} {a : Answer} {d : Draws}

/-- What a browser or a link presents. -/
inductive Capability where
  | session (key : Id)
  | token (raw : String)
  | challenge (id : Id)
  | recoveryCode (user : Id) (code : String)
  | invitation (raw : String)
  deriving DecidableEq, Repr

/-- Some row would still be accepted for the capability. -/
def Live (s : AccountScope) : Capability → Prop
  | .session key => ∃ k ∈ s.sessions, k.sessionKey = key ∧ k.revokedAt = none
  | .token raw => ∃ token ∈ s.tokens, token.tokenHash = tokenHash raw ∧ token.usedAt = none
  | .challenge id => ∃ c ∈ s.challenges, c.id = id ∧ c.usedAt = none
  | .recoveryCode user code => ∃ c ∈ s.recoveryCodes,
      c.userId = user ∧ c.usedAt = none ∧ c.code.check code.toUpper = true
  | .invitation raw => ∃ i ∈ s.invitations, i.tokenHash = tokenHash raw ∧ i.status = .pending

instance (s : AccountScope) : ∀ c, Decidable (Live s c)
  | .session key => inferInstanceAs (Decidable (∃ k ∈ s.sessions, k.sessionKey = key ∧ _))
  | .token raw => inferInstanceAs (Decidable (∃ token ∈ s.tokens, token.tokenHash = tokenHash raw ∧ _))
  | .challenge id => inferInstanceAs (Decidable (∃ c ∈ s.challenges, c.id = id ∧ _))
  | .recoveryCode user _ => inferInstanceAs (Decidable (∃ c ∈ s.recoveryCodes, c.userId = user ∧ _))
  | .invitation raw => inferInstanceAs (Decidable (∃ i ∈ s.invitations, i.tokenHash = tokenHash raw ∧ _))

/-- What an event draws at random for the capabilities it creates. -/
structure Draws where
  session : Option Id := none
  token : Option String := none
  challenge : Option Id := none
  recoveryCodes : List PasswordHash := []
  invitation : Option String := none

/-- The draws match the capability. -/
def Draws.grants (d : Draws) : Capability → Prop
  | .session key => d.session = some key
  | .token raw => d.token = some raw
  | .challenge id => d.challenge = some id
  | .recoveryCode _ code => ∃ c ∈ d.recoveryCodes, c.check code.toUpper = true
  | .invitation raw => d.invitation = some raw

instance (d : Draws) : ∀ c, Decidable (d.grants c)
  | .session key => inferInstanceAs (Decidable (d.session = some key))
  | .token raw => inferInstanceAs (Decidable (d.token = some raw))
  | .challenge id => inferInstanceAs (Decidable (d.challenge = some id))
  | .recoveryCode _ code => inferInstanceAs (Decidable (∃ c ∈ d.recoveryCodes, c.check code.toUpper = true))
  | .invitation raw => inferInstanceAs (Decidable (d.invitation = some raw))

/-- The key of the session a request draws. -/
def drawnSession : Request → Option Id
  | .auth ctx _ => some (ctx.uuid 12)
  | _ => none

/-- What an event draws. -/
def Event.draws : Event → Draws
  | .request r => {
      session := drawnSession r
      token := drawnToken r
      challenge := drawnChallenge r
      recoveryCodes := drawnCodes r
      invitation := drawnInvitation r }
  | .inFlight ctx (.changePassword ..) => { session := some (ctx.uuid 12) }
  | .inFlight _ (.putProfile _ data) => { token := some data.token }
  | .inFlight _ (.confirmMfa _ _ _ _ codes) => { recoveryCodes := codes }
  | .inFlight _ (.regenerateRecoveryCodes _ _ _ codes) => { recoveryCodes := codes }
  | .inFlight _ (.forgotPassword _ raw) => { token := some raw }
  | .inFlight _ (.resendVerification _ raw) => { token := some raw }
  | .inFlight .. => {}
  | .system _ _ (.inviteAdmin _ _ _ raw) => { invitation := some raw }
  | .system _ _ (.resendAdminInvitation _ raw) => { invitation := some raw }
  | .system _ _ (.resetAdminPassword _ _ raw) => { token := some raw }
  | .system .. => {}

/-! ## Where live rows come from -/

/-- Every session was there before, no less live, or was drawn. -/
def SessionsFrom (s : AccountScope) (drawn : Option Id) (sessions : List UserSession) : Prop :=
  ∀ k ∈ sessions, (∃ k₀ ∈ s.sessions, k₀.sessionKey = k.sessionKey ∧
      (k.revokedAt = none → k₀.revokedAt = none)) ∨
    drawn = some k.sessionKey ∧ s.organization.accessStatus ≠ .suspended

/-- Every token was there before, no less live, or was drawn. -/
def TokensFrom (s : AccountScope) (drawn : Option String) (tokens : List ActionToken) : Prop :=
  ∀ token ∈ tokens, (∃ token₀ ∈ s.tokens, token₀.tokenHash = token.tokenHash ∧
      (token.usedAt = none → token₀.usedAt = none)) ∨
    (∃ raw, drawn = some raw ∧ token.tokenHash = tokenHash raw) ∧
      s.organization.accessStatus ≠ .suspended

/-- Every challenge was there before, no less live, or was drawn. -/
def ChallengesFrom (s : AccountScope) (drawn : Option Id) (challenges : List MFAChallenge) :
    Prop :=
  ∀ c ∈ challenges, (∃ c₀ ∈ s.challenges, c₀.id = c.id ∧
      (c.usedAt = none → c₀.usedAt = none)) ∨
    drawn = some c.id ∧ s.organization.accessStatus ≠ .suspended

/-- Where the live rows after an event come from. -/
structure Issues (d : Draws) (s s' : AccountScope) : Prop where
  session : SessionsFrom s d.session s'.sessions
  token : TokensFrom s d.token s'.tokens
  challenge : ChallengesFrom s d.challenge s'.challenges
  recoveryCode : CodesFrom d.recoveryCodes s.recoveryCodes s'.recoveryCodes
  invitation : InvitationsFrom d.invitation s.invitations s'.invitations

/-- **What is live after an event was live before it, or the event drew it.** -/
theorem Issues.live (h : Issues d s s') {c : Capability} (hc : Live s' c) :
    Live s c ∨ d.grants c := by
  cases c with
  | session key =>
      obtain ⟨k, hk, rfl, hlive⟩ := hc
      rcases h.session k hk with ⟨k₀, hk₀, hkey, hlive₀⟩ | ⟨hdrawn, _⟩
      · exact .inl ⟨k₀, hk₀, hkey, hlive₀ hlive⟩
      · exact .inr hdrawn
  | token raw =>
      obtain ⟨token, htoken, hhash, hunused⟩ := hc
      rcases h.token token htoken with ⟨token₀, htoken₀, hhash₀, hunused₀⟩ | ⟨⟨raw', hdrawn, hhash'⟩, _⟩
      · exact .inl ⟨token₀, htoken₀, hhash₀.trans hhash, hunused₀ hunused⟩
      · obtain rfl := tokenHash_injective (hhash.symm.trans hhash')
        exact .inr hdrawn
  | challenge id =>
      obtain ⟨c, hc, rfl, hunused⟩ := hc
      rcases h.challenge c hc with ⟨c₀, hc₀, hid, hunused₀⟩ | ⟨hdrawn, _⟩
      · exact .inl ⟨c₀, hc₀, hid, hunused₀ hunused⟩
      · exact .inr hdrawn
  | recoveryCode user code =>
      obtain ⟨c, hc, huser, hunused, hcheck⟩ := hc
      rcases h.recoveryCode c hc hunused with hold | hdrawn
      · exact .inl ⟨c, hold, huser, hunused, hcheck⟩
      · exact .inr ⟨c.code, hdrawn, hcheck⟩
  | invitation raw =>
      obtain ⟨i, hi, hhash, hpending⟩ := hc
      rcases h.invitation i hi hpending with ⟨i₀, hi₀, hpending₀, hhash₀⟩ | ⟨raw', hdrawn, hhash'⟩
      · exact .inl ⟨i₀, hi₀, hhash₀.trans hhash, hpending₀⟩
      · obtain rfl := tokenHash_injective (hhash.symm.trans hhash')
        exact .inr hdrawn

/-! ## Requests of members and visitors -/

/-- A session that is live after a request was live before, or was drawn for it. -/
theorem request_sessions {r : Request} {a : Response} (hstep : AccountStep r a s s') :
    SessionsFrom s (drawnSession r) s'.sessions := by
  intro k hk
  cases hstep.session hk with
  | kept k₀ mem key _ live =>
      refine .inl ⟨k₀, mem, key.symm, fun hlive => ?_⟩
      rwa [live hlive] at hlive
  | login ctx op request _ _ u _ active _ _ _ key =>
      rw [request, key]
      exact .inr ⟨rfl, Organization.not_suspended_of_active (User.isActive_active active)⟩
  | completed ctx raw password request token u s₁ h _ _ key =>
      rw [request, key]
      have hactive := temporaryIdentityAvailable_active h.available
      exact .inr ⟨rfl, Organization.not_suspended_of_active hactive⟩
  | mfa ctx attempt request _ _ _ _ _ u _ _ active _ _ key =>
      rw [request, key]
      exact .inr ⟨rfl, Organization.not_suspended_of_active (User.isActive_active active)⟩
  | changed ctx session _ _ _ request u _ active _ _ _ _ key =>
      rw [request, key]
      exact .inr ⟨rfl, Organization.not_suspended_of_active (User.isActive_active active)⟩

/-- A token that is open after a request was open before, or was drawn for it. -/
theorem request_tokens {r : Request} {a : Response} (hstep : AccountStep r a s s') :
    TokensFrom s (drawnToken r) s'.tokens := by
  intro token htoken
  cases hstep.token htoken with
  | kept token₀ mem hash _ _ same =>
      refine .inl ⟨token₀, mem, hash.symm, fun hunused => ?_⟩
      rwa [same hunused] at hunused
  | issued u _ _ raw draws hash _ notSuspended => exact .inr ⟨⟨raw, draws, hash⟩, notSuspended⟩
  | emailRequested _ _ raw draws hash u _ active =>
      exact .inr ⟨⟨raw, draws, hash⟩,
        Organization.not_suspended_of_active (User.isActive_active active)⟩
  | temporary ctx op request _ raw _ draws hash u h =>
      rw [request]
      have hactive := temporaryIdentityAvailable_active h.available
      exact .inr ⟨⟨raw, draws, hash⟩, Organization.not_suspended_of_active hactive⟩

/-- A challenge that is open after a request was open before, or was drawn for it. -/
theorem request_challenges {r : Request} {a : Response} (hstep : AccountStep r a s s') :
    ChallengesFrom s (drawnChallenge r) s'.challenges := by
  intro c hc
  cases hstep.challenge hc with
  | kept c₀ mem id _ _ _ unused => exact .inl ⟨c₀, mem, id.symm, unused⟩
  | login ctx op request _ _ u _ active _ _ id =>
      rw [request, id]
      exact .inr ⟨rfl, Organization.not_suspended_of_active (User.isActive_active active)⟩
  | completed ctx raw password request token u s₁ h _ id =>
      rw [request, id]
      have hactive := temporaryIdentityAvailable_active h.available
      exact .inr ⟨rfl, Organization.not_suspended_of_active hactive⟩

/-- The same recovery codes. -/
theorem codesFrom_refl (drawn : List PasswordHash) (codes : List MFARecoveryCode) :
    CodesFrom drawn codes codes := fun _ hc _ => .inl hc

/-- The same invitations. -/
theorem invitationsFrom_refl (drawn : Option String) (invitations : List Invitation) :
    InvitationsFrom drawn invitations invitations := fun i hi hpending => .inl ⟨i, hi, hpending, rfl⟩

/-- A recovery code or an invitation was there before a request, or was drawn for it. -/
theorem request_papers {r : Request} (hstep : PaperStep r s s') :
    CodesFrom (drawnCodes r) s.recoveryCodes s'.recoveryCodes ∧
      InvitationsFrom (drawnInvitation r) s.invitations s'.invitations := by
  cases hstep with
  | recovery codes h same =>
      rw [same.recoveryCodes, same.invitations]
      exact ⟨h, invitationsFrom_refl _ _⟩
  | invited invitations h same =>
      rw [same.recoveryCodes, same.invitations]
      exact ⟨codesFrom_refl _ _, h⟩
  | idle same | linked _ same | expired _ _ same | submitted _ _ _ same
  | verified _ _ _ _ _ _ _ _ _ _ _ same | decided _ _ _ _ _ _ _ _ _ _ _ same =>
      rw [same.recoveryCodes, same.invitations]
      exact ⟨codesFrom_refl _ _, invitationsFrom_refl _ _⟩

/-- What a request of the organization issues. -/
theorem request_issues {r : Request} {a : Response} (h : t.handle sha r = .ok (t', a)) :
    Issues (Event.request r).draws t.toAccountScope t'.toAccountScope where
  session := request_sessions (handle_accounts h)
  token := request_tokens (handle_accounts h)
  challenge := request_challenges (handle_accounts h)
  recoveryCode := (request_papers (handle_papers h)).1
  invitation := (request_papers (handle_papers h)).2

/-! ## Requests in flight -/

/-- Revoking opens no session. -/
theorem sessionsFrom_ofRevokes {drawn : Option Id} {sessions : List UserSession}
    (h : Revokes s.sessions sessions) : SessionsFrom s drawn sessions := by
  intro k hk
  obtain ⟨k₀, hk₀, hkey, _, hlive⟩ := h.mem hk
  refine .inl ⟨k₀, hk₀, hkey.symm, fun hunrevoked => ?_⟩
  rwa [hlive hunrevoked] at hunrevoked

/-- The same tokens. -/
theorem tokensFrom_refl (drawn : Option String) : TokensFrom s drawn s.tokens :=
  fun token htoken => .inl ⟨token, htoken, rfl, id⟩

/-- The same challenges. -/
theorem challengesFrom_refl (drawn : Option Id) : ChallengesFrom s drawn s.challenges :=
  fun c hc => .inl ⟨c, hc, rfl, id⟩

/-- The one token more is the drawn one. -/
theorem tokensFrom_withToken {raw : String} {token : ActionToken} (new : NewToken ctx s raw token) :
    TokensFrom s (some raw) (s.withToken token).tokens := by
  intro token' htoken'
  obtain hold | rfl := mem_withToken htoken'
  · exact .inl ⟨token', hold, rfl, id⟩
  · exact .inr ⟨⟨raw, rfl, new.hash⟩, new.notSuspended⟩

/-- Nothing is issued. -/
theorem Issues.refl (d : Draws) (s : AccountScope) : Issues d s s where
  session := sessionsFrom_ofRevokes (.refl s.sessions)
  token := tokensFrom_refl d.token
  challenge := challengesFrom_refl d.challenge
  recoveryCode := codesFrom_refl _ _
  invitation := invitationsFrom_refl _ _

/-- Sessions are revoked, and the users and the organization rewritten. -/
theorem Issues.ofRevokes {organization : Organization} {users : List User}
    {sessions : List UserSession} (h : Revokes s.sessions sessions) :
    Issues d s { s with organization := organization, users := users, sessions := sessions } :=
  { Issues.refl d s with session := sessionsFrom_ofRevokes h }

/-- A step that issues a token, and edits users and the organization besides. -/
theorem Issues.ofNewToken {users : List User} {organization : Organization} {raw : String}
    {token : ActionToken} (new : NewToken ctx s raw token) (draws : d.token = some raw) :
    Issues d s { s.withToken token with users := users, organization := organization } where
  session := sessionsFrom_ofRevokes (.refl s.sessions)
  token := draws ▸ tokensFrom_withToken new
  challenge := challengesFrom_refl d.challenge
  recoveryCode := codesFrom_refl _ _
  invitation := invitationsFrom_refl _ _

/-- An identity is locked only in an active organization. -/
theorem lockActiveCustomerIdentity_active {userId : Id} {u : User}
    (h : lockActiveCustomerIdentity s userId = .ok u) : s.organization.accessStatus = .active := by
  simp only [lockActiveCustomerIdentity, bind_eq_ok, raiseIf_eq_ok, not_or, not_not] at h
  obtain ⟨_, ⟨_, hactive⟩, _⟩ := h
  exact hactive

/-- A changed password issues the session it goes on with. -/
theorem changePasswordOf_issues {u : User} {session : Id} {currentPassword : String}
    {password : NewPassword} {recentMfa : Bool} {response : Accounts.Response}
    (hactive : s.organization.accessStatus = .active) (hd : d.session = some (ctx.uuid 12))
    (h : changePasswordOf s ctx u session currentPassword password recentMfa =
      .ok (s', response)) : Issues d s s' := by
  simp only [changePasswordOf, rotateCurrentSession, bind_eq_ok, pure_eq_ok, Prod.mk.injEq] at h
  obtain ⟨_, _, _, _, _, _, _, ⟨_, _, rfl⟩, rfl, _⟩ := h
  refine { Issues.refl d s with session := fun k hk => ?_ }
  obtain hk | hk := List.mem_append.mp hk
  · exact sessionsFrom_ofRevokes (revokeSessions_revokes s ctx u.id (some session)) k
      (List.mem_of_mem_filter hk)
  · rw [List.mem_singleton.mp hk]
    exact .inr ⟨hd, Organization.not_suspended_of_active hactive⟩

/-- An edited profile issues at most the link to the new address. -/
theorem putProfileOf_issues {u : User} {data : ProfileInput} {response : Accounts.Response}
    (hd : d.token = some data.token) (h : putProfileOf s ctx u data = .ok (s', response)) :
    Issues d s s' := by
  simp only [putProfileOf, bind_eq_ok] at h
  obtain ⟨_, _, _, _, h⟩ := h
  split at h
  · obtain ⟨rfl, _⟩ := Prod.mk.inj (pure_eq_ok.mp h)
    exact .ofRevokes (.refl s.sessions)
  · simp only [bind_eq_ok, pure_eq_ok, Prod.exists, Prod.mk.injEq] at h
    obtain ⟨_, _, _, _, _, _, htoken, rfl, _⟩ := h
    obtain ⟨new, _, _, _, rfl⟩ := issueActionToken_eq_ok htoken
    exact .ofNewToken new hd

/-- A mail that was asked for issues its own token. -/
theorem issueToSelected_issues {userId : Id} {kind : TokenKind} {hours : ℕ} {raw : String}
    {pending : Bool} {response response' : Accounts.Response} (hd : d.token = some raw)
    (h : issueToSelected s ctx userId kind hours raw pending response = .ok (s', response')) :
    Issues d s s' := by
  unfold issueToSelected at h
  split at h
  · simp only [bind_eq_ok, pure_eq_ok, Prod.exists, Prod.mk.injEq] at h
    obtain ⟨_, _, _, _, htoken, rfl, _⟩ := h
    obtain ⟨new, _, _, _, rfl⟩ := issueActionToken_eq_ok htoken
    exact .ofNewToken new hd
  · obtain ⟨rfl, _⟩ := Prod.mk.inj (pure_eq_ok.mp h)
    exact .refl d s

/-- A member rewrites its second factor: sessions are revoked and codes drawn. -/
theorem ownMfa_issues {u : User} {userId session : Id} {codes : List PasswordHash}
    (hcodes : ∀ code ∈ codes, code ∈ d.recoveryCodes) :
    Issues d s (revokeSessions (generateRecoveryCodes (putUser s u) userId codes) ctx userId
      (some session)) where
  session := sessionsFrom_ofRevokes (revokeSessions_revokes s ctx userId (some session))
  token := tokensFrom_refl d.token
  challenge := challengesFrom_refl d.challenge
  recoveryCode c hc hunused := (generateRecoveryCodes_from s userId codes c hc hunused).imp id
    (hcodes _)
  invitation := invitationsFrom_refl _ _

/-- What the late half of a request issues. -/
theorem inFlight_issues {op : InFlightOp} {response : Accounts.Response}
    (h : op.handle s ctx = .ok (s', response)) : Issues (Event.inFlight ctx op).draws s s' := by
  cases op with
  | changePassword userId session currentPassword password recentMfa =>
      simp only [InFlightOp.handle, bind_eq_ok] at h
      obtain ⟨u, hu, h⟩ := h
      exact changePasswordOf_issues (lockActiveCustomerIdentity_active hu) rfl h
  | putProfile userId data =>
      simp only [InFlightOp.handle, bind_eq_ok] at h
      obtain ⟨u, _, h⟩ := h
      exact putProfileOf_issues rfl h
  | confirmMfa userId session secret valid codes =>
      simp only [InFlightOp.handle, confirmMfaOf, bind_eq_ok, pure_eq_ok, Prod.mk.injEq] at h
      obtain ⟨u, _, _, _, _, _, rfl, _⟩ := h
      exact ownMfa_issues fun _ hcode => hcode
  | regenerateRecoveryCodes userId valid recentMfa codes =>
      simp only [InFlightOp.handle, regenerateRecoveryCodesOf, bind_eq_ok, pure_eq_ok,
        Prod.mk.injEq] at h
      obtain ⟨u, _, _, _, _, _, rfl, _⟩ := h
      exact { Issues.refl _ s with recoveryCode := generateRecoveryCodes_from s u.id codes }
  | disableMfa userId session totp password =>
      simp only [InFlightOp.handle, disableMfaOf, bind_eq_ok, pure_eq_ok, Prod.mk.injEq] at h
      obtain ⟨u, _, _, _, _, _, _, _, rfl, _⟩ := h
      exact ownMfa_issues fun _ hcode => absurd hcode List.not_mem_nil
  | logout userId session =>
      simp only [InFlightOp.handle, bind_eq_ok, pure_eq_ok, Prod.mk.injEq] at h
      obtain ⟨_, _, rfl, _⟩ := h
      exact .ofRevokes (endCurrentSession_revokes s ctx (some session))
  | signOutEverywhere userId session =>
      simp only [InFlightOp.handle, bind_eq_ok, pure_eq_ok, Prod.mk.injEq] at h
      obtain ⟨u, _, rfl, _⟩ := h
      exact .ofRevokes ((revokeSessions_revokes s ctx u.id none).trans
        (endCurrentSession_revokes _ ctx (some session)))
  | forgotPassword userId raw => exact issueToSelected_issues rfl h
  | resendVerification userId raw => exact issueToSelected_issues rfl h

/-! ## System administration -/

/-- An accepted suspension finds the organization suspended, or suspends it. -/
theorem suspend_eq_ok {data : LifecycleInput} (h : suspend s ctx data = .ok s') :
    s.organization.accessStatus = .suspended ∧ s' = s ∨
      s.organization.accessStatus = .active ∧ s' = suspendedScope s ctx := by
  simp only [suspend, bind_eq_ok] at h
  obtain ⟨_, _, _, _, h⟩ := h
  split at h
  · rename_i hsuspended
    exact .inl ⟨hsuspended, (pure_eq_ok.mp h).symm⟩
  · rename_i hnot
    simp only [suspendCustomerOrganization, bind_eq_ok] at h
    obtain ⟨_, _, _, _, h⟩ := h
    rw [if_neg hnot] at h
    simp only [bind_eq_ok, raiseIf_eq_ok, pure_eq_ok, not_not] at h
    obtain ⟨_, hactive, rfl⟩ := h
    exact .inr ⟨hactive, rfl⟩

/-- A suspension issues nothing. -/
theorem suspendedScope_issues (d : Draws) (s : AccountScope) (ctx : Ctx) :
    Issues d s (suspendedScope s ctx) where
  session := by
    refine sessionsFrom_ofRevokes ⟨_, fun k => ?_, rfl⟩
    split
    · exact .inr ⟨ctx.now, rfl⟩
    · exact .inl rfl
  token token htoken := tokensFrom_refl d.token token (List.mem_of_mem_filter htoken)
  challenge c hc := challengesFrom_refl d.challenge c (List.mem_of_mem_filter hc)
  recoveryCode c hc := absurd hc List.not_mem_nil
  invitation i hi hpending := by
    obtain ⟨i₀, hi₀, rfl⟩ := List.mem_map.mp hi
    split at hpending
    · cases hpending
    · rename_i hnot
      exact absurd hpending hnot

/-- Reactivating makes a suspended organization active, and does nothing else. -/
theorem reactivate_eq_ok {data : LifecycleInput} (h : reactivate s data = .ok s') :
    s' = s ∨ s.organization.accessStatus = .suspended ∧ s' = withAccessStatus s .active := by
  simp only [reactivate, bind_eq_ok] at h
  obtain ⟨_, _, _, _, h⟩ := h
  split at h
  · exact .inl (pure_eq_ok.mp h).symm
  · rename_i hnot
    simp only [reactivateCustomerOrganization, bind_eq_ok] at h
    obtain ⟨_, _, _, _, h⟩ := h
    rw [if_neg hnot] at h
    simp only [bind_eq_ok, raiseIf_eq_ok, pure_eq_ok, not_not] at h
    obtain ⟨_, hsuspended, rfl⟩ := h
    exact .inr ⟨hsuspended, rfl⟩

/-- What the platform's administration issues. -/
theorem system_issues {op : SystemOp} {response : SystemResponse}
    (h : op.handle s ctx actor = .ok (s', response)) :
    Issues (Event.system actor ctx op).draws s s' := by
  -- An invitation to an administrator and a password reset issue a capability; the rest only
  -- revoke.
  cases op with
  | suspend data =>
      simp only [SystemOp.handle, bind_eq_ok, pure_eq_ok, Prod.mk.injEq] at h
      obtain ⟨_, hop, rfl, _⟩ := h
      obtain ⟨_, rfl⟩ | ⟨_, rfl⟩ := suspend_eq_ok hop
      · exact .refl _ _
      · exact suspendedScope_issues _ s ctx
  | reactivate data =>
      simp only [SystemOp.handle, bind_eq_ok, pure_eq_ok, Prod.mk.injEq] at h
      obtain ⟨_, hop, rfl, _⟩ := h
      obtain rfl | ⟨_, rfl⟩ := reactivate_eq_ok hop
      · exact .refl _ _
      · exact .ofRevokes (.refl s.sessions)
  | approve data =>
      simp only [SystemOp.handle, approve, approveCustomerOrganization, bind_eq_ok, pure_eq_ok,
        Prod.mk.injEq] at h
      obtain ⟨_, ⟨_, _, _, _, _, _, _, _, _, _, _, _, rfl⟩, rfl, _⟩ := h
      exact .ofRevokes (.refl s.sessions)
  | inviteAdmin name email reserved raw =>
      simp only [SystemOp.handle, inviteAdmin, createAdminInvitation, insertInvitation, bind_eq_ok,
        pure_eq_ok, Prod.exists, Prod.mk.injEq] at h
      obtain ⟨_, _, ⟨_, _, _, _, _, _, _, _, _, ⟨_, _, _, _, rfl⟩, rfl, _⟩, rfl, _⟩ := h
      refine { Issues.refl _ s with invitation := fun i hi hpending => ?_ }
      obtain rfl | hi := List.mem_cons.mp hi
      · exact .inr ⟨raw, rfl, rfl⟩
      · exact .inl ⟨i, hi, hpending, rfl⟩
  | resendAdminInvitation invitationId raw =>
      simp only [SystemOp.handle, resendAdminInvitation, bind_eq_ok, pure_eq_ok, Prod.exists,
        Prod.mk.injEq] at h
      obtain ⟨_, _, ⟨_, _, _, _, i, _, _, _, rfl, _⟩, rfl, _⟩ := h
      exact { Issues.refl _ s with
        invitation := putInvitation_from fun _ => ⟨raw, rfl, rfl⟩ }
  | revokeAdminInvitation invitationId =>
      simp only [SystemOp.handle, revokeAdminInvitation, bind_eq_ok, pure_eq_ok, Prod.exists,
        Prod.mk.injEq] at h
      obtain ⟨_, _, ⟨_, _, i, _, rfl, _⟩, rfl, _⟩ := h
      exact { Issues.refl _ s with
        invitation := putInvitation_from fun hpending => by cases hpending }
  | resetAdminPassword userId reason raw =>
      simp only [SystemOp.handle, resetAdminPassword, bind_eq_ok, pure_eq_ok, Prod.exists,
        Prod.mk.injEq] at h
      obtain ⟨_, ⟨_, _, _, _, _, _, _, _, _, _, htoken, rfl⟩, rfl, _⟩ := h
      obtain ⟨new, _, _, _, rfl⟩ := issueActionToken_eq_ok htoken
      exact .ofNewToken new rfl
  | resetAdminMfa userId reason =>
      simp only [SystemOp.handle, resetAdminMfa, bind_eq_ok, pure_eq_ok, Prod.exists,
        Prod.mk.injEq] at h
      obtain ⟨_, _, ⟨_, _, _, _, _, _, u, _, rfl, _⟩, rfl, _⟩ := h
      exact {
        session := sessionsFrom_ofRevokes (revokeSessions_revokes s ctx u.id none)
        token := tokensFrom_refl _
        challenge := fun c hc => challengesFrom_refl _ c (List.mem_of_mem_filter hc)
        recoveryCode := generateRecoveryCodes_from s u.id []
        invitation := invitationsFrom_refl _ _ }

/-- **Every event issues what it draws, and nothing else.** -/
theorem handle_issues (h : handle sha t e = .ok (t', a)) :
    Issues e.draws t.toAccountScope t'.toAccountScope := by
  cases e with
  | request r =>
      simp only [handle, bind_eq_ok, pure_eq_ok, Prod.exists, Prod.mk.injEq] at h
      obtain ⟨_, _, hr, rfl, _⟩ := h
      exact request_issues hr
  | inFlight ctx op =>
      simp only [handle, bind_eq_ok, pure_eq_ok, Prod.exists, Prod.mk.injEq] at h
      obtain ⟨_, _, hop, rfl, _⟩ := h
      exact inFlight_issues hop
  | system actor ctx op =>
      simp only [handle, bind_eq_ok, pure_eq_ok, Prod.exists, Prod.mk.injEq] at h
      obtain ⟨_, _, hop, rfl, _⟩ := h
      exact system_issues hop

end VesselCaller.Platform
