import VesselCaller.Accounts.Auth

/-!
# What the account services do

One lemma for each service of the account applications.  The account scope has five
tables that decide who can sign in: users, action tokens, MFA challenges, sessions and
platform grants.  `SameAccounts` compares two scopes on these; recovery codes,
invitations, sign-up links, join requests and the organization's profile are paper to
it.  `Revokes` says that a table of sessions lost some of its sessions and nothing else.

## Main definitions

* `SameAccounts`, `Revokes` — two scopes alike, and sessions that were only revoked;
* `SessionStarted`, `ChallengeStarted`, `Opened` — the ends of a sign-in;
* `NewToken`, `Consumed`, `Completed` — the life of a token.
-/

namespace VesselCaller.Accounts

open Lib

variable {ctx : Ctx} {s s' : AccountScope}

/-- The same accounts, under an organization that is open to the same extent. -/
structure SameAccounts (s s' : AccountScope) : Prop where
  kind : s'.organization.kind = s.organization.kind
  access : s'.organization.accessStatus = s.organization.accessStatus
  users : s'.users = s.users
  tokens : s'.tokens = s.tokens
  challenges : s'.challenges = s.challenges
  sessions : s'.sessions = s.sessions
  platformGrants : s'.platformGrants = s.platformGrants

/-- Nothing done leaves the accounts. -/
theorem SameAccounts.refl (s : AccountScope) : SameAccounts s s :=
  ⟨rfl, rfl, rfl, rfl, rfl, rfl, rfl⟩

/-! ## Sessions -/

/-- Some of the sessions were revoked. -/
def Revokes (ks ks' : List UserSession) : Prop :=
  ∃ f : UserSession → UserSession,
    (∀ k, f k = k ∨ ∃ now, f k = { k with revokedAt := some now }) ∧ ks' = ks.map f

/-- Nothing done revokes nothing. -/
theorem Revokes.refl (ks : List UserSession) : Revokes ks ks :=
  ⟨id, fun _ => .inl rfl, (List.map_id ks).symm⟩

/-- Two rounds of revoking make one. -/
theorem Revokes.trans {ks₁ ks₂ ks₃ : List UserSession} (h₁ : Revokes ks₁ ks₂)
    (h₂ : Revokes ks₂ ks₃) : Revokes ks₁ ks₃ := by
  obtain ⟨f, hf, rfl⟩ := h₁
  obtain ⟨g, hg, rfl⟩ := h₂
  refine ⟨g ∘ f, fun k => ?_, List.map_map⟩
  rw [Function.comp_apply]
  obtain hf | ⟨now, hf⟩ := hf k <;> obtain hg | ⟨now', hg⟩ := hg (f k)
  · exact .inl (hg.trans hf)
  · exact .inr ⟨now', by rw [hg, hf]⟩
  · exact .inr ⟨now, hg.trans hf⟩
  · exact .inr ⟨now', by rw [hg, hf]⟩

/-- After revoking, a session is an old one, and unchanged where it is not revoked. -/
theorem Revokes.mem {ks ks' : List UserSession} (h : Revokes ks ks') {k' : UserSession}
    (hk' : k' ∈ ks') : ∃ k ∈ ks, k'.sessionKey = k.sessionKey ∧ k'.userId = k.userId ∧
      (k'.revokedAt = none → k' = k) := by
  obtain ⟨f, hf, rfl⟩ := h
  obtain ⟨k, hk, rfl⟩ := List.mem_map.mp hk'
  refine ⟨k, hk, ?_⟩
  obtain hf | ⟨now, hf⟩ := hf k
  · rw [hf]
    exact ⟨rfl, rfl, fun _ => rfl⟩
  · rw [hf]
    exact ⟨rfl, rfl, fun hnone => absurd hnone (Option.some_ne_none now)⟩

/-- Revoking keeps the rows of the sessions. -/
theorem Revokes.keys {ks ks' : List UserSession} (h : Revokes ks ks') :
    Table.keys ks' = Table.keys ks := by
  obtain ⟨f, hf, rfl⟩ := h
  simp only [Table.keys, List.map_map]
  refine List.map_congr_left fun k _ => ?_
  rw [Function.comp_apply]
  obtain hf | ⟨now, hf⟩ := hf k
  · rw [hf]
  · rw [hf]
    rfl

/-- `revoke_sessions` does nothing but revoke. -/
theorem revokeSessions_revokes (s : AccountScope) (ctx : Ctx) (userId : Id) (keep : Option Id) :
    Revokes s.sessions (revokeSessions s ctx userId keep).sessions := by
  refine ⟨_, fun k => ?_, rfl⟩
  split
  · exact .inr ⟨ctx.now, rfl⟩
  · exact .inl rfl

/-- Signing in elsewhere ends the session one has. -/
theorem endCurrentSession_revokes (s : AccountScope) (ctx : Ctx) (current : Option Id) :
    Revokes s.sessions (endCurrentSession s ctx current).sessions := by
  refine ⟨_, fun k => ?_, rfl⟩
  split
  · exact .inr ⟨ctx.now, rfl⟩
  · exact .inl rfl

/-- What is left unrevoked of the user is the session that was spared. -/
theorem revokeSessions_spared {userId : Id} {keep : Option Id} {k : UserSession}
    (hk : k ∈ (revokeSessions s ctx userId keep).sessions) (huser : k.userId = userId)
    (hlive : k.revokedAt = none) : some k.sessionKey = keep := by
  obtain ⟨k₀, _, rfl⟩ := List.mem_map.mp hk
  by_contra hne
  by_cases hrevoke : k₀.userId = userId ∧ k₀.revokedAt = none ∧ some k₀.sessionKey ≠ keep
  · simp [hrevoke] at hlive
  · rw [if_neg hrevoke] at huser hlive hne
    exact hrevoke ⟨huser, hlive, hne⟩

/-- The account that is locked is the one asked for, and is active. -/
theorem lockActiveAccount_eq_some {userId : Id} {u : User}
    (h : lockActiveAccount s userId = some u) :
    Table.get u.id s.users = some u ∧ u.id = userId ∧ u.isActive s.organization = true := by
  obtain ⟨hget, hactive⟩ := Option.filter_eq_some_iff.mp h
  obtain rfl : u.id = userId := (Table.mem_of_get hget).2
  exact ⟨hget, rfl, hactive⟩

/-- An authenticated request comes from an active account with a usable session. -/
theorem authenticate_eq_ok {now : Instant} {session : Id} {u : User}
    (h : authenticate s now session = .ok u) :
    Table.get u.id s.users = some u ∧ u.isActive s.organization = true ∧
      ∃ k ∈ s.sessions, k.sessionKey = session ∧ k.userId = u.id ∧ k.usable now = true := by
  simp only [authenticate, bind_eq_ok, orRaise_eq_ok] at h
  obtain ⟨k, hk, hu⟩ := h
  obtain ⟨hget, husable⟩ := Option.filter_eq_some_iff.mp hk
  obtain ⟨hmem, hkey⟩ := Table.mem_of_get hget
  obtain ⟨hfound, hid, hactive⟩ := lockActiveAccount_eq_some hu
  exact ⟨hfound, hactive, k, hmem, hkey, hid.symm, husable⟩

/-- A session was started for the account `u`. -/
structure SessionStarted (ctx : Ctx) (s s' : AccountScope) (u : User) : Prop where
  found : Table.get u.id s.users = some u
  active : u.isActive s.organization = true
  approved : u.loginIdentityApproved s.organization = true
  fresh : ctx.uuid 12 ∉ Table.keys s.sessions
  same : SameAccounts { s with
    users := Table.put { u with lastLogin := some ctx.now } s.users
    sessions := s.sessions ++ [{
      sessionKey := ctx.uuid 12
      userId := u.id
      absoluteExpiresAt := ctx.now + sessionAbsoluteAge
      revokedAt := none }] } s'

/-- A session is started for a stored account that is active. -/
theorem startSession_eq_ok {u : User} {inactive : ApiError}
    (found : Table.get u.id s.users = some u) (h : startSession s ctx u inactive = .ok s') :
    SessionStarted ctx s s' u := by
  simp only [startSession, bind_eq_ok, raiseIf_eq_ok, pure_eq_ok, not_or, Bool.not_eq_false] at h
  obtain ⟨_, ⟨hactive, happroved⟩, _, hfresh, rfl⟩ := h
  exact ⟨found, hactive, happroved, hfresh, ⟨rfl, rfl, rfl, rfl, rfl, rfl, rfl⟩⟩

/-- The challenges of a scope without the unused ones of a user. -/
def AccountScope.otherChallenges (s : AccountScope) (userId : Id) : List MFAChallenge :=
  s.challenges.filter fun c => !(c.userId = userId && c.usedAt.isNone)

/-- An MFA challenge was left for the account `u`. -/
structure ChallengeStarted (ctx : Ctx) (s s' : AccountScope) (u : User) : Prop where
  found : Table.get u.id s.users = some u
  active : u.isActive s.organization = true
  approved : u.loginIdentityApproved s.organization = true
  enabled : u.mfaEnabled = true
  fresh : ctx.uuid 11 ∉ Table.keys (s.otherChallenges u.id)
  same : SameAccounts { s with
    challenges := s.otherChallenges u.id ++ [{
      id := ctx.uuid 11
      userId := u.id
      expiresAt := ctx.now + 300
      attempts := 0
      usedAt := none }] } s'

/-- A challenge is started for a stored account that is active. -/
theorem startMfaChallenge_eq_ok {u : User} {inactive : ApiError} {c : MFAChallenge}
    (found : Table.get u.id s.users = some u)
    (h : startMfaChallenge s ctx u inactive = .ok (s', c)) :
    ChallengeStarted ctx s s' u ∧ c.id = ctx.uuid 11 := by
  simp only [startMfaChallenge, bind_eq_ok, raiseIf_eq_ok, pure_eq_ok, not_or,
    Bool.not_eq_false, Prod.mk.injEq] at h
  obtain ⟨_, ⟨hactive, happroved, henabled⟩, _, hfresh, rfl, rfl⟩ := h
  exact ⟨⟨found, hactive, happroved, henabled, hfresh, ⟨rfl, rfl, rfl, rfl, rfl, rfl, rfl⟩⟩, rfl⟩

/-- How a proven sign-in goes on: with a session, or with a challenge if the account has a
second factor. -/
inductive Opened (ctx : Ctx) (s s' : AccountScope) (u : User) (a : Response) : Prop where
  | session (h : SessionStarted ctx s s' u)
  | challenge (h : ChallengeStarted ctx s s' u) (response : a = .mfaRequired (ctx.uuid 11))

/-- With a second factor a challenge is opened, without one a session. -/
theorem openSession_eq_ok {u : User} {inactive : ApiError} {a : Response}
    (found : Table.get u.id s.users = some u)
    (h : openSession s ctx u inactive = .ok (s', a)) : Opened ctx s s' u a := by
  unfold openSession at h
  split at h
  · simp only [bind_eq_ok, pure_eq_ok, Prod.exists, Prod.mk.injEq] at h
    obtain ⟨s₁, c, hc, rfl, rfl⟩ := h
    obtain ⟨hstarted, hid⟩ := startMfaChallenge_eq_ok found hc
    exact .challenge hstarted (congrArg _ hid)
  · simp only [bind_eq_ok, pure_eq_ok, Prod.mk.injEq] at h
    obtain ⟨s₁, hs₁, rfl, _⟩ := h
    exact .session (startSession_eq_ok found hs₁)

/-! ## Action tokens -/

/-- The tokens of a scope without the unused ones of a user and a kind, and a new one. -/
def AccountScope.withToken (s : AccountScope) (token : ActionToken) : AccountScope :=
  { s with tokens := (dropTokens s token.userId token.kind).tokens ++ [token] }

/-- The token is new to the table, unused, and was drawn by the request. -/
structure NewToken (ctx : Ctx) (s : AccountScope) (raw : String) (token : ActionToken) :
    Prop where
  id : token.id = ctx.uuid 10
  hash : token.tokenHash = tokenHash raw
  unused : token.usedAt = none
  fresh : token.id ∉ Table.keys (dropTokens s token.userId token.kind).tokens
  freshHash : token.tokenHash ∉
    (dropTokens s token.userId token.kind).tokens.map ActionToken.tokenHash
  notSuspended : s.organization.accessStatus ≠ .suspended

/-- Tokens are neither issued nor consumed in a suspended organization. -/
theorem Organization.not_suspended_of_opensTokens {o : Organization} {pending : Bool}
    (h : o.opensTokens pending = true) : o.accessStatus ≠ .suspended := by
  intro hsuspended
  simp [Organization.opensTokens, hsuspended] at h

/-- A temporary password is good only in an active organization. -/
theorem temporaryIdentityAvailable_active {o : Organization} {u : User} {now : Instant}
    (h : temporaryIdentityAvailable o u now = true) : o.accessStatus = .active := by
  simp only [temporaryIdentityAvailable, Organization.isAccessActive, Bool.and_eq_true,
    decide_eq_true_eq] at h
  exact h.1.1.1.1.1.2

/-- An account is active only in an active organization. -/
theorem User.isActive_active {o : Organization} {u : User} (h : u.isActive o = true) :
    o.accessStatus = .active := by
  simp only [User.isActive, Organization.isAccessActive, Bool.and_eq_true,
    decide_eq_true_eq] at h
  exact h.2

/-- An active organization is not suspended. -/
theorem Organization.not_suspended_of_active {o : Organization} (h : o.accessStatus = .active) :
    o.accessStatus ≠ .suspended := by
  rw [h]
  decide

/-- A token is inserted under a new key and a new digest. -/
theorem insertToken_eq_ok {token : ActionToken} (h : insertToken s token = .ok s') :
    token.id ∉ Table.keys s.tokens ∧ token.tokenHash ∉ s.tokens.map ActionToken.tokenHash ∧
      s' = { s with tokens := s.tokens ++ [token] } := by
  simp only [insertToken, bind_eq_ok, raiseIf_eq_ok, pure_eq_ok] at h
  obtain ⟨_, hid, _, hhash, rfl⟩ := h
  exact ⟨hid, hhash, rfl⟩

/-- A token is issued to an account it is looked up for. -/
theorem issueActionToken_eq_ok {userId : Id} {kind : TokenKind} {hours : ℕ} {raw : String}
    {metadata : TokenMetadata} {pending : Bool} {token : ActionToken}
    (h : issueActionToken s ctx userId kind hours raw metadata pending = .ok (s', token)) :
    NewToken ctx s raw token ∧ token.userId = userId ∧ token.kind = kind ∧
      token.metadata = metadata ∧ s' = s.withToken token := by
  simp only [issueActionToken, bind_eq_ok, raiseIf_eq_ok, pure_eq_ok, Prod.mk.injEq] at h
  obtain ⟨_, hopens, s₁, hs₁, rfl, rfl⟩ := h
  obtain ⟨hid, hhash, rfl⟩ := insertToken_eq_ok hs₁
  have hnot := Organization.not_suspended_of_opensTokens (Bool.not_eq_false _ ▸ hopens)
  exact ⟨⟨rfl, rfl, rfl, hid, hhash, hnot⟩, rfl, rfl, rfl, rfl⟩

/-- A token was consumed for the account `u`. -/
structure Consumed (ctx : Ctx) (s s' : AccountScope) (raw : String) (kind : TokenKind)
    (token : ActionToken) (u : User) : Prop where
  mem : token ∈ s.tokens
  hash : token.tokenHash = tokenHash raw
  kind : token.kind = kind
  unused : token.usedAt = none
  timely : ctx.now < token.expiresAt
  found : Table.get u.id s.users = some u
  owner : token.userId = u.id
  notStaff : u.isStaff = false
  notSuperuser : u.isSuperuser = false
  scope : s' = { s with tokens := Table.put { token with usedAt := some ctx.now } s.tokens }

/-- A token is used up by the account it was issued to. -/
theorem consumeActionToken_eq_some {raw : String} {kind : TokenKind} {pending : Bool}
    {used : ActionToken} {u : User}
    (h : consumeActionToken s ctx raw kind pending = some (s', used, u)) :
    ∃ token, Consumed ctx s s' raw kind token u ∧ used.metadata = token.metadata := by
  simp only [consumeActionToken, Option.bind_eq_bind, Option.bind_eq_some_iff] at h
  obtain ⟨token, htoken, user, huser, h⟩ := h
  split at h
  · rename_i hguard
    simp only [Option.pure_def, Option.some.injEq, Prod.mk.injEq] at h
    obtain ⟨rfl, rfl, rfl⟩ := h
    simp only [Bool.and_eq_true, decide_eq_true_eq, Bool.not_eq_true'] at hguard
    obtain ⟨⟨⟨_, htimely⟩, hstaff⟩, hsuper⟩ := hguard
    have hfind := List.find?_some htoken
    simp only [Bool.and_eq_true, decide_eq_true_eq, ActionToken.unused,
      Option.isNone_iff_eq_none] at hfind
    obtain ⟨⟨hhash, hkind⟩, hunused⟩ := hfind
    have hid : user.id = token.userId := (Table.mem_of_get huser).2
    exact ⟨token, ⟨List.mem_of_find?_eq_some htoken, hhash, hkind, hunused, htimely, hid ▸ huser,
      hid.symm, hstaff, hsuper, rfl⟩, rfl⟩
  · simp at h

/-! ## Temporary passwords -/

/-- The account awaits its first password and `password` is its temporary one. -/
structure TemporaryProven (ctx : Ctx) (s : AccountScope) (u : User) (password : String) :
    Prop where
  found : u ∈ s.users
  available : temporaryIdentityAvailable s.organization u ctx.now = true
  proven : u.password.check password = true

/-- The challenge of a temporary password is a token of its account. -/
theorem temporaryPasswordChallenge_eq_ok {email password raw : String} {token : ActionToken}
    (h : temporaryPasswordChallenge s ctx email password raw = .ok (some (s', token))) :
    ∃ u, TemporaryProven ctx s u password ∧ NewToken ctx s raw token ∧ token.userId = u.id ∧
      token.kind = .temporaryPasswordChange ∧
      token.metadata = { credentialVersion := some u.password } ∧ s' = s.withToken token := by
  unfold temporaryPasswordChallenge at h
  split at h
  · simp at h
  · rename_i u hu
    split at h
    · simp at h
    · split at h
      · rename_i hguard
        simp only [bind_eq_ok, pure_eq_ok, Option.some.injEq, Prod.mk.injEq] at h
        obtain ⟨s₁, hs₁, rfl, rfl⟩ := h
        obtain ⟨hid, hhash, rfl⟩ := insertToken_eq_ok hs₁
        simp only [Bool.and_eq_true] at hguard
        have hactive := temporaryIdentityAvailable_active hguard.1
        exact ⟨u, ⟨List.mem_of_find?_eq_some hu, hguard.1, hguard.2⟩,
          ⟨rfl, rfl, rfl, hid, hhash, Organization.not_suspended_of_active hactive⟩,
          rfl, rfl, rfl, rfl⟩
      · simp at h

/-- The account once its temporary password is replaced, and the scope with it. -/
def AccountScope.withChosen (s : AccountScope) (ctx : Ctx) (u : User) (raw : String) :
    AccountScope :=
  revokeSessions (useTokens (putUser s (u.withChosenPassword ctx raw)) ctx u.id
    fun t => t.kind = .temporaryPasswordChange) ctx u.id none

/-- A temporary password was replaced by the password `chosen`. -/
structure Completed (ctx : Ctx) (s s' : AccountScope) (raw chosen : String)
    (token : ActionToken) (u : User) : Prop where
  mem : token ∈ s.tokens
  hash : token.tokenHash = tokenHash raw
  kind : token.kind = .temporaryPasswordChange
  unused : token.usedAt = none
  timely : ctx.now < token.expiresAt
  found : Table.get u.id s.users = some u
  owner : token.userId = u.id
  available : temporaryIdentityAvailable s.organization u ctx.now = true
  credential : token.metadata.credentialVersion = some u.password
  scope : s' = s.withChosen ctx u chosen

/-- A temporary password is replaced by who holds the challenge. -/
theorem completeTemporaryPassword_eq_ok {raw : String} {password : NewPassword} {u' : User}
    (h : completeTemporaryPassword s ctx raw password = .ok (s', u')) :
    ∃ token u, Completed ctx s s' raw password.raw token u ∧
      u' = u.withChosenPassword ctx password.raw := by
  simp only [completeTemporaryPassword, bind_eq_ok, orRaise_eq_ok, raiseIf_eq_ok, pure_eq_ok,
    not_or, not_le, not_not, Bool.not_eq_false, ne_eq, Prod.mk.injEq] at h
  obtain ⟨token, htoken, _, _, u, hu, _, ⟨htimely, havailable, hcredential⟩, _, _, _, _, rfl,
    rfl⟩ := h
  have hfind := List.find?_some htoken
  simp only [Bool.and_eq_true, decide_eq_true_eq, ActionToken.unused,
    Option.isNone_iff_eq_none] at hfind
  obtain ⟨⟨hhash, hkind⟩, hunused⟩ := hfind
  have hid : u.id = token.userId := (Table.mem_of_get hu).2
  exact ⟨token, u, ⟨List.mem_of_find?_eq_some htoken, hhash, hkind, hunused, htimely, hid ▸ hu,
    hid.symm, havailable, hcredential, rfl⟩, rfl⟩

/-! ## Members -/

/-- An account is inserted under a new key and a new address. -/
theorem insertUser_eq_ok {u : User} (h : insertUser s u = .ok s') :
    u.id ∉ Table.keys s.users ∧ u.email ∉ s.users.map User.email ∧
      s' = { s with users := s.users ++ [u] } := by
  simp only [insertUser, bind_eq_ok, raiseIf_eq_ok, pure_eq_ok] at h
  obtain ⟨_, hid, _, hemail, rfl⟩ := h
  exact ⟨hid, hemail, rfl⟩

/-- The account that is found has the key that was asked for. -/
theorem getUser_eq_ok {userId : Id} {u : User} (h : getUser s userId = .ok u) :
    Table.get u.id s.users = some u ∧ u.id = userId := by
  have hget : Table.get userId s.users = some u := orRaise_eq_ok.mp h
  obtain rfl : u.id = userId := (Table.mem_of_get hget).2
  exact ⟨hget, rfl⟩

end VesselCaller.Accounts
