import VesselCaller.Accounts.Members

/-!
# Where tokens, challenges and sessions come from

A session, an MFA challenge or an unused action token that is there after a request was
there before it, or the request made it.  The three inductive types of this file say
how: `SessionOrigin`, `ChallengeOrigin` and `TokenOrigin` name the request that made the
row and what had been proven to it.  Along a run every row can thus be traced back to
the request it came from.

## Main definitions

* `SessionOrigin`, `ChallengeOrigin`, `TokenOrigin` — where a row was made, and on what proof.
-/

namespace VesselCaller.Accounts

open Lib

variable {s s' : AccountScope} {ctx : Ctx} {r : Request} {a : VesselCaller.Response}

/-! ## Sessions -/

/-- Where a session comes from. -/
inductive SessionOrigin (r : Request) (s s' : AccountScope) (k : UserSession) : Prop where
  | kept (k₀ : UserSession) (mem : k₀ ∈ s.sessions) (key : k.sessionKey = k₀.sessionKey)
      (user : k.userId = k₀.userId) (live : k.revokedAt = none → k = k₀)
  | login (ctx : Ctx) (op : AuthOp) (request : r = .auth ctx op) (password : String)
      (offers : op.offers = some password) (u : User) (found : Table.get u.id s.users = some u)
      (active : u.isActive s.organization = true) (proven : u.password.check password = true)
      (fresh : k.sessionKey ∉ Table.keys s.sessions) (user : k.userId = u.id)
      (key : k.sessionKey = ctx.uuid 12)
  | completed (ctx : Ctx) (raw : String) (password : NewPassword)
      (request : r = .auth ctx (.completeTemporaryPassword raw password)) (token : ActionToken)
      (u : User) (s₁ : AccountScope) (h : Completed ctx s s₁ raw password.raw token u)
      (settled : (Table.get u.id s'.users).map User.passwordChangeRequired = some false)
      (user : k.userId = u.id) (key : k.sessionKey = ctx.uuid 12)
  | mfa (ctx : Ctx) (attempt : MfaAttempt) (request : r = .auth ctx (.verifyMfa attempt))
      (c : MFAChallenge) (found : Table.get attempt.challenge s.challenges = some c)
      (unused : c.usedAt = none) (timely : ctx.now < c.expiresAt) (budget : c.attempts < 5)
      (u : User) (owner : c.userId = u.id) (row : Table.get u.id s.users = some u)
      (active : u.isActive s.organization = true)
      (fresh : k.sessionKey ∉ Table.keys s.sessions) (user : k.userId = u.id)
      (key : k.sessionKey = ctx.uuid 12)
  | changed (ctx : Ctx) (session : Id) (currentPassword : String) (password : NewPassword)
      (recentMfa : Bool)
      (request : r = .auth ctx (.changePassword session currentPassword password recentMfa))
      (u : User) (found : Table.get u.id s.users = some u)
      (active : u.isActive s.organization = true) (k₀ : UserSession) (mem : k₀ ∈ s.sessions)
      (own : k₀.sessionKey = session ∧ k₀.userId = u.id ∧ k₀.usable ctx.now = true)
      (fresh : k.sessionKey ∉ Table.keys s.sessions) (key : k.sessionKey = ctx.uuid 12)
      (user : k.userId = u.id)

theorem SessionOrigin.ofMem {k : UserSession} (hk : k ∈ s.sessions) : SessionOrigin r s s' k :=
  .kept k hk rfl rfl fun _ => rfl

theorem SessionOrigin.ofRevokes {sessions : List UserSession} {k : UserSession}
    (h : Revokes s.sessions sessions) (hk : k ∈ sessions) : SessionOrigin r s s' k := by
  obtain ⟨k₀, hk₀, hkey, huser, hlive⟩ := h.mem hk
  exact .kept k₀ hk₀ hkey huser hlive

/-- A session after a sign-in is the new one, or was there before it. -/
theorem SessionStarted.mem {u : User} {k : UserSession} (hs : SessionStarted ctx s s' u)
    (hk : k ∈ s'.sessions) :
    k ∈ s.sessions ∨ k.sessionKey = ctx.uuid 12 ∧ k.userId = u.id := by
  rw [hs.same.sessions] at hk
  obtain hk | hk := List.mem_append.mp hk
  · exact .inl hk
  · rw [List.mem_singleton.mp hk]
    exact .inr ⟨rfl, rfl⟩

/-- Once it has replaced its temporary password an account awaits no password change. -/
theorem Completed.settled {s₁ : AccountScope} {raw chosen : String} {token : ActionToken}
    {u : User} {a : Response} (hc : Completed ctx s s₁ raw chosen token u)
    (ho : Opened ctx s₁ s' (u.withChosenPassword ctx chosen) a) :
    (Table.get u.id s'.users).map User.passwordChangeRequired = some false := by
  have hget : Table.get u.id s₁.users = some (u.withChosenPassword ctx chosen) := by
    rw [hc.scope]
    exact Table.get_put_self (a := u.withChosenPassword ctx chosen) hc.found
  obtain ⟨u', hu', rfl | ⟨_, rfl⟩⟩ := ho.user hget
  · rw [hu']
    rfl
  · rw [hu']
    rfl

/-- **Every session has an origin.** -/
theorem AccountStep.session (hstep : AccountStep r a s s') {k : UserSession}
    (hk : k ∈ s'.sessions) : SessionOrigin r s s' k := by
  cases hstep with
  | idle same => exact .ofMem (same.sessions ▸ hk)
  | revoked sessions hrevokes same =>
      rw [same.sessions] at hk
      exact .ofRevokes hrevokes hk
  | rewritten _ _ _ _ sessions hrevokes same =>
      rw [same.sessions] at hk
      exact .ofRevokes hrevokes hk
  | added _ _ _ same => exact .ofMem (same.sessions ▸ hk)
  | issued _ _ _ _ _ _ _ _ _ same => exact .ofMem (same.sessions ▸ hk)
  | emailRequested _ _ _ _ _ _ _ _ _ _ _ _ _ _ _ same => exact .ofMem (same.sessions ▸ hk)
  | regenerated actor ctx u raw _ _ _ same =>
      rw [same.sessions] at hk
      exact .ofRevokes (revokeSessions_revokes _ ctx u.id none) hk
  | emailChanged _ _ _ _ _ _ s₁ hc _ same =>
      rw [same.sessions, putUser, hc.scope] at hk
      exact .ofMem hk
  | emailVerified _ _ _ _ _ _ s₁ hc _ same =>
      rw [same.sessions, putUser, hc.scope] at hk
      exact .ofMem hk
  | temporaryProven _ _ _ _ _ _ _ _ _ _ _ _ _ _ sessions hrevokes same =>
      rw [same.sessions] at hk
      exact .ofRevokes hrevokes hk
  | signedIn ctx op request password offers u proven _ _ ho =>
      cases ho with
      | session hs =>
          -- The session was there, or it is the one this login has started.
          obtain hk | ⟨hkey, huser⟩ := hs.mem hk
          · exact .ofMem hk
          · exact .login ctx op request password offers u hs.found hs.active proven
              (hkey ▸ hs.fresh) huser hkey
      | challenge hs _ => exact .ofMem (hs.same.sessions ▸ hk)
  | completed ctx raw password request token u s₁ hc _ _ ho =>
      -- What the completion has left are sessions it has revoked.
      have hold : ∀ k ∈ s₁.sessions, SessionOrigin r s s' k := by
        rw [hc.scope]
        intro k hk
        exact .ofRevokes (revokeSessions_revokes _ ctx u.id none) hk
      have hsettled := hc.settled ho
      cases ho with
      | session hs =>
          obtain hk | ⟨hkey, huser⟩ := hs.mem hk
          · exact hold k hk
          · exact .completed ctx raw password request token u s₁ hc hsettled huser hkey
      | challenge hs _ => exact hold k (hs.same.sessions ▸ hk)
  | attempted _ _ _ _ _ _ _ _ same => exact .ofMem (same.sessions ▸ hk)
  | mfaPassed ctx attempt request c found unused timely budget u owner _ _ hs =>
      obtain hk | ⟨hkey, huser⟩ := hs.mem hk
      · exact .ofMem hk
      · exact .mfa ctx attempt request c found unused timely budget u owner hs.found hs.active
          (hkey ▸ hs.fresh) huser hkey
  | passwordReset ctx _ _ _ _ u _ s₁ hc _ _ same =>
      rw [same.sessions] at hk
      have hsame : s₁.sessions = s.sessions := by rw [hc.scope]
      exact .ofRevokes (hsame ▸ revokeSessions_revokes _ ctx u.id none) hk
  | passwordChanged ctx session cp password rm request u found active k₀ mem own fresh k' row same =>
      rw [same.sessions] at hk
      -- A session that was spared, or the one under the new key.
      obtain hk | hk := List.mem_append.mp hk
      · exact .ofRevokes (revokeSessions_revokes s ctx u.id (some session))
          (List.mem_of_mem_filter hk)
      · rw [List.mem_singleton.mp hk]
        exact .changed ctx session cp password rm request u found active k₀ mem own
          (row.1 ▸ fresh) row.1 row.2

/-! ## Challenges -/

/-- Where an MFA challenge comes from. -/
inductive ChallengeOrigin (r : Request) (a : VesselCaller.Response) (s s' : AccountScope)
    (c : MFAChallenge) : Prop where
  | kept (c₀ : MFAChallenge) (mem : c₀ ∈ s.challenges) (id : c.id = c₀.id)
      (user : c.userId = c₀.userId) (expiresAt : c.expiresAt = c₀.expiresAt)
      (attempts : c₀.attempts ≤ c.attempts) (unused : c.usedAt = none → c₀.usedAt = none)
  | login (ctx : Ctx) (op : AuthOp) (request : r = .auth ctx op) (password : String)
      (offers : op.offers = some password) (u : User) (found : Table.get u.id s.users = some u)
      (active : u.isActive s.organization = true) (proven : u.password.check password = true)
      (response : a = .accounts (.mfaRequired c.id)) (id : c.id = ctx.uuid 11)
      (user : c.userId = u.id)
  | completed (ctx : Ctx) (raw : String) (password : NewPassword)
      (request : r = .auth ctx (.completeTemporaryPassword raw password)) (token : ActionToken)
      (u : User) (s₁ : AccountScope) (h : Completed ctx s s₁ raw password.raw token u)
      (settled : (Table.get u.id s'.users).map User.passwordChangeRequired = some false)
      (id : c.id = ctx.uuid 11) (user : c.userId = u.id)

theorem ChallengeOrigin.ofMem {c : MFAChallenge} (hc : c ∈ s.challenges) :
    ChallengeOrigin r a s s' c :=
  .kept c hc rfl rfl rfl le_rfl id

theorem ChallengeStarted.mem {u : User} {c : MFAChallenge} (hs : ChallengeStarted ctx s s' u)
    (hc : c ∈ s'.challenges) :
    c ∈ s.challenges ∨ c.id = ctx.uuid 11 ∧ c.userId = u.id := by
  rw [hs.same.challenges] at hc
  obtain hc | hc := List.mem_append.mp hc
  · exact .inl (List.mem_of_mem_filter hc)
  · rw [List.mem_singleton.mp hc]
    exact .inr ⟨rfl, rfl⟩

theorem ChallengeOrigin.ofPut {c c₀ c' : MFAChallenge} (mem : c₀ ∈ s.challenges)
    (row : c'.id = c₀.id ∧ c'.userId = c₀.userId ∧ c'.expiresAt = c₀.expiresAt ∧
      c'.attempts = c₀.attempts + 1) (unused : c'.usedAt = none → c₀.usedAt = none)
    (hc : c ∈ Table.put c' s.challenges) : ChallengeOrigin r a s s' c := by
  obtain rfl | ⟨hc, _⟩ := Table.mem_put hc
  · exact .kept c₀ mem row.1 row.2.1 row.2.2.1 (by omega) unused
  · exact .ofMem hc

/-- **Every challenge has an origin.** -/
theorem AccountStep.challenge (hstep : AccountStep r a s s') {c : MFAChallenge}
    (hc : c ∈ s'.challenges) : ChallengeOrigin r a s s' c := by
  cases hstep with
  | idle same => exact .ofMem (same.challenges ▸ hc)
  | revoked _ _ same => exact .ofMem (same.challenges ▸ hc)
  | rewritten _ _ _ _ _ _ same => exact .ofMem (same.challenges ▸ hc)
  | added _ _ _ same => exact .ofMem (same.challenges ▸ hc)
  | issued _ _ _ _ _ _ _ _ _ same => exact .ofMem (same.challenges ▸ hc)
  | emailRequested _ _ _ _ _ _ _ _ _ _ _ _ _ _ _ same => exact .ofMem (same.challenges ▸ hc)
  | regenerated actor ctx u raw _ _ _ same =>
      rw [same.challenges] at hc
      -- A new temporary password uses the challenges of the account up and leaves the others.
      obtain ⟨c₀, hc₀, rfl⟩ := List.mem_map.mp hc
      split
      · rename_i hused
        exact .kept c₀ hc₀ rfl rfl rfl le_rfl fun _ => hused.2
      · exact .ofMem hc₀
  | emailChanged _ _ _ _ _ _ s₁ hconsumed _ same =>
      rw [same.challenges, putUser, hconsumed.scope] at hc
      exact .ofMem hc
  | emailVerified _ _ _ _ _ _ s₁ hconsumed _ same =>
      rw [same.challenges, putUser, hconsumed.scope] at hc
      exact .ofMem hc
  | temporaryProven _ _ _ _ _ _ _ _ _ _ _ _ _ _ _ _ same => exact .ofMem (same.challenges ▸ hc)
  | signedIn ctx op request password offers u proven a' response ho =>
      cases ho with
      | session hs => exact .ofMem (hs.same.challenges ▸ hc)
      | challenge hs hresponse =>
          obtain hc | ⟨hid, huser⟩ := hs.mem hc
          · exact .ofMem hc
          · exact .login ctx op request password offers u hs.found hs.active proven
              (by rw [response, hresponse, hid]) hid huser
  | completed ctx raw password request token u s₁ hcompleted _ _ ho =>
      have hsame : s₁.challenges = s.challenges := by rw [hcompleted.scope]; rfl
      have hsettled := hcompleted.settled ho
      cases ho with
      | session hs => exact .ofMem (hsame ▸ hs.same.challenges ▸ hc)
      | challenge hs _ =>
          obtain hc | ⟨hid, huser⟩ := hs.mem hc
          · exact .ofMem (hsame ▸ hc)
          · exact .completed ctx raw password request token u s₁ hcompleted hsettled hid huser
  | attempted ctx attempt _ c₀ c' mem row unused same =>
      rw [same.challenges] at hc
      exact .ofPut mem row (fun _ => unused) hc
  | mfaPassed ctx attempt _ c₀ found unused _ _ u _ c' row hs =>
      rw [hs.same.challenges] at hc
      refine .ofPut (Table.mem_of_get found).1 ?_ (fun _ => unused) hc
      rw [row]
      exact ⟨rfl, rfl, rfl, rfl⟩
  | passwordReset ctx _ _ _ _ u _ s₁ hconsumed _ _ same =>
      rw [same.challenges] at hc
      have hsame : s₁.challenges = s.challenges := by rw [hconsumed.scope]
      exact .ofMem (hsame ▸ hc)
  | passwordChanged _ _ _ _ _ _ _ _ _ _ _ _ _ _ _ same => exact .ofMem (same.challenges ▸ hc)

/-! ## Action tokens -/

/-- Where an action token comes from. -/
inductive TokenOrigin (r : Request) (s : AccountScope) (token : ActionToken) : Prop where
  | kept (token₀ : ActionToken) (mem : token₀ ∈ s.tokens) (hash : token.tokenHash = token₀.tokenHash)
      (user : token.userId = token₀.userId) (kind : token.kind = token₀.kind)
      (unused : token.usedAt = none → token = token₀)
  | issued (u : User) (mem : u ∈ s.users) (owner : token.userId = u.id) (raw : String)
      (draws : drawnToken r = some raw) (hash : token.tokenHash = tokenHash raw)
      (h : Issuance u token) (notSuspended : s.organization.accessStatus ≠ .suspended)
  | emailRequested (email : String) (named : email ≠ "") (raw : String)
      (draws : drawnToken r = some raw) (hash : token.tokenHash = tokenHash raw) (u : User)
      (found : Table.get u.id s.users = some u) (active : u.isActive s.organization = true)
      (owner : token.userId = u.id) (kind : token.kind = .verifyEmail)
      (metadata : token.metadata = { pendingEmail := email })
  | temporary (ctx : Ctx) (op : AuthOp) (request : r = .auth ctx op) (password raw : String)
      (offers : op.offers = some password) (draws : op.draws = some raw)
      (hash : token.tokenHash = tokenHash raw) (u : User) (h : TemporaryProven ctx s u password)
      (owner : token.userId = u.id) (kind : token.kind = .temporaryPasswordChange)
      (metadata : token.metadata = { credentialVersion := some u.password })

theorem TokenOrigin.ofMem {token : ActionToken} (h : token ∈ s.tokens) : TokenOrigin r s token :=
  .kept token h rfl rfl rfl fun _ => rfl

/-- A token of a scope with a new token. -/
theorem mem_withToken {token token' : ActionToken} (h : token' ∈ (s.withToken token).tokens) :
    token' ∈ s.tokens ∨ token' = token := by
  obtain h | h := List.mem_append.mp h
  · exact .inl (List.mem_of_mem_filter h)
  · exact .inr (List.mem_singleton.mp h)

theorem TokenOrigin.ofUsed {u : User} {userId : Id} {which : ActionToken → Bool}
    {token : ActionToken} (h : token ∈ (useTokens (putUser s u) ctx userId which).tokens) :
    TokenOrigin r s token := by
  obtain ⟨token₀, hmem, rfl⟩ := List.mem_map.mp h
  split
  · exact .kept token₀ hmem rfl rfl rfl fun hnone => absurd hnone (Option.some_ne_none _)
  · exact .ofMem hmem

theorem TokenOrigin.ofConsumed {raw : String} {kind : TokenKind} {token token' : ActionToken}
    {u : User} (hc : Consumed ctx s s' raw kind token u) (h : token' ∈ s'.tokens) :
    TokenOrigin r s token' := by
  rw [hc.scope] at h
  obtain rfl | ⟨h, _⟩ := Table.mem_put h
  · exact .kept token hc.mem rfl rfl rfl fun hnone => absurd hnone (Option.some_ne_none _)
  · exact .ofMem h

/-- **Every token has an origin.** -/
theorem AccountStep.token (hstep : AccountStep r a s s') {token : ActionToken}
    (htoken : token ∈ s'.tokens) : TokenOrigin r s token := by
  cases hstep with
  | idle same => exact .ofMem (same.tokens ▸ htoken)
  | revoked _ _ same => exact .ofMem (same.tokens ▸ htoken)
  | rewritten _ _ _ _ _ _ same => exact .ofMem (same.tokens ▸ htoken)
  | added _ _ _ same => exact .ofMem (same.tokens ▸ htoken)
  | issued u mem ctx raw draws token' new owner h same =>
      rw [same.tokens] at htoken
      obtain hold | rfl := mem_withToken htoken
      · exact .ofMem hold
      · exact .issued u mem owner raw draws new.hash h new.notSuspended
  | emailRequested _ ctx data request u found active _ email named token' new owner kind metadata
      same =>
      rw [same.tokens] at htoken
      obtain hold | rfl := mem_withToken htoken
      · exact .ofMem hold
      · exact .emailRequested email named data.token (by rw [request]; rfl) new.hash u found active
          owner kind metadata
  | regenerated actor ctx u raw _ _ _ same =>
      rw [same.tokens] at htoken
      exact .ofUsed (u := u.withTemporaryPassword ctx raw) htoken
  | emailChanged _ _ _ _ _ _ s₁ hc _ same =>
      rw [same.tokens] at htoken
      exact .ofConsumed hc htoken
  | emailVerified _ _ _ _ _ _ s₁ hc _ same =>
      rw [same.tokens] at htoken
      exact .ofConsumed hc htoken
  | temporaryProven ctx op request password raw offers draws u h token' new owner kind metadata _ _
      same =>
      rw [same.tokens] at htoken
      obtain hold | rfl := mem_withToken htoken
      · exact .ofMem hold
      · exact .temporary ctx op request password raw offers draws new.hash u h owner kind metadata
  | signedIn _ _ _ _ _ _ _ _ _ ho =>
      cases ho with
      | session hs => exact .ofMem (hs.same.tokens ▸ htoken)
      | challenge hs _ => exact .ofMem (hs.same.tokens ▸ htoken)
  | completed ctx raw password _ _ u s₁ hc _ _ ho =>
      have hold : ∀ token ∈ s₁.tokens, TokenOrigin r s token := by
        rw [hc.scope]
        intro token htoken
        exact .ofUsed (u := u.withChosenPassword ctx password.raw) htoken
      cases ho with
      | session hs => exact hold token (hs.same.tokens ▸ htoken)
      | challenge hs _ => exact hold token (hs.same.tokens ▸ htoken)
  | attempted _ _ _ _ _ _ _ _ same => exact .ofMem (same.tokens ▸ htoken)
  | mfaPassed _ _ _ _ _ _ _ _ _ _ _ _ hs => exact .ofMem (hs.same.tokens ▸ htoken)
  | passwordReset _ _ _ _ _ _ _ s₁ hc _ _ same =>
      rw [same.tokens] at htoken
      exact .ofConsumed hc htoken
  | passwordChanged _ _ _ _ _ _ _ _ _ _ _ _ _ _ _ same => exact .ofMem (same.tokens ▸ htoken)

end VesselCaller.Accounts
