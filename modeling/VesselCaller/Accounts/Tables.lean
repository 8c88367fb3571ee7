import VesselCaller.Accounts.Effect

/-!
# The account tables as the database keeps them

Primary keys and token hashes are unique, and a token, a challenge or a session belongs
to a user that exists.  `AccountTables` states these constraints; every request keeps
them, so a run from a scope that meets them only reaches scopes that do.

## Main definitions

* `AccountTables` — the constraints, and `AccountTables.run`, which keeps them in every run.
-/

namespace VesselCaller.Accounts

open Lib

variable {sha : Measurements.Sha256} {t t' : Tenant} {s s' : AccountScope} {ctx : Ctx}

/-- The primary-key, unique and foreign-key constraints of the account tables. -/
structure AccountTables (s : AccountScope) : Prop where
  users : (Table.keys s.users).Nodup
  tokens : (Table.keys s.tokens).Nodup
  hashes : (s.tokens.map ActionToken.tokenHash).Nodup
  challenges : (Table.keys s.challenges).Nodup
  sessions : (Table.keys s.sessions).Nodup
  tokenOwner : ∀ token ∈ s.tokens, token.userId ∈ Table.keys s.users
  challengeOwner : ∀ c ∈ s.challenges, c.userId ∈ Table.keys s.users
  sessionOwner : ∀ k ∈ s.sessions, k.userId ∈ Table.keys s.users

namespace AccountTables

/-- The tables are told by the accounts. -/
theorem congr (h : AccountTables s) (hsame : SameAccounts s s') : AccountTables s' where
  users := hsame.users ▸ h.users
  tokens := hsame.tokens ▸ h.tokens
  hashes := hsame.tokens ▸ h.hashes
  challenges := hsame.challenges ▸ h.challenges
  sessions := hsame.sessions ▸ h.sessions
  tokenOwner := by
    rw [hsame.tokens, hsame.users]
    exact h.tokenOwner
  challengeOwner := by
    rw [hsame.challenges, hsame.users]
    exact h.challengeOwner
  sessionOwner := by
    rw [hsame.sessions, hsame.users]
    exact h.sessionOwner

/-- Writing users changes no key. -/
theorem withUsers {users : List User} (h : AccountTables s)
    (hkeys : Table.keys users = Table.keys s.users) : AccountTables { s with users := users } where
  users := hkeys ▸ h.users
  tokens := h.tokens
  hashes := h.hashes
  challenges := h.challenges
  sessions := h.sessions
  tokenOwner := by
    rw [hkeys]
    exact h.tokenOwner
  challengeOwner := by
    rw [hkeys]
    exact h.challengeOwner
  sessionOwner := by
    rw [hkeys]
    exact h.sessionOwner

/-- An edited account keeps the tables. -/
theorem put (h : AccountTables s) (u : User) : AccountTables (putUser s u) :=
  h.withUsers (Table.keys_put u s.users)

/-- Revoked sessions keep the tables. -/
theorem revokes {sessions : List UserSession} (h : AccountTables s)
    (hrevokes : Revokes s.sessions sessions) : AccountTables { s with sessions := sessions } where
  users := h.users
  tokens := h.tokens
  hashes := h.hashes
  challenges := h.challenges
  sessions := by
    rw [hrevokes.keys]
    exact h.sessions
  tokenOwner := h.tokenOwner
  challengeOwner := h.challengeOwner
  sessionOwner := by
    intro k hk
    obtain ⟨k₀, hk₀, _, huser, _⟩ := hrevokes.mem hk
    exact huser ▸ h.sessionOwner k₀ hk₀

/-- A new account keeps the tables. -/
theorem append (h : AccountTables s) {u : User} (fresh : u.id ∉ Table.keys s.users) :
    AccountTables { s with users := s.users ++ [u] } where
  users := Table.nodup_keys_concat h.users fresh
  tokens := h.tokens
  hashes := h.hashes
  challenges := h.challenges
  sessions := h.sessions
  tokenOwner token htoken := by
    rw [Table.keys_append]
    exact List.mem_append_left _ (h.tokenOwner token htoken)
  challengeOwner c hc := by
    rw [Table.keys_append]
    exact List.mem_append_left _ (h.challengeOwner c hc)
  sessionOwner k hk := by
    rw [Table.keys_append]
    exact List.mem_append_left _ (h.sessionOwner k hk)

/-- Tokens that are rewritten in place keep their keys, hashes and owners. -/
theorem mapTokens (h : AccountTables s) {f : ActionToken → ActionToken}
    (hf : ∀ token ∈ s.tokens, (f token).id = token.id ∧ (f token).tokenHash = token.tokenHash ∧
      (f token).userId = token.userId) :
    AccountTables { s with tokens := s.tokens.map f } where
  users := h.users
  tokens := by
    have hkeys : Table.keys (s.tokens.map f) = Table.keys s.tokens := by
      simp only [Table.keys, List.map_map]
      exact List.map_congr_left fun token htoken => (hf token htoken).1
    exact hkeys ▸ h.tokens
  hashes := by
    have hhashes : (s.tokens.map f).map ActionToken.tokenHash =
        s.tokens.map ActionToken.tokenHash := by
      rw [List.map_map]
      exact List.map_congr_left fun token htoken => (hf token htoken).2.1
    exact hhashes ▸ h.hashes
  challenges := h.challenges
  sessions := h.sessions
  tokenOwner := by
    intro token htoken
    obtain ⟨token₀, htoken₀, rfl⟩ := List.mem_map.mp htoken
    exact (hf token₀ htoken₀).2.2 ▸ h.tokenOwner token₀ htoken₀
  challengeOwner := h.challengeOwner
  sessionOwner := h.sessionOwner

/-- Used tokens keep the tables. -/
theorem used (h : AccountTables s) (ctx : Ctx) (userId : Id) (which : ActionToken → Bool) :
    AccountTables (useTokens s ctx userId which) := by
  refine h.mapTokens fun token _ => ?_
  split <;> exact ⟨rfl, rfl, rfl⟩

/-- A consumed token keeps the tables. -/
theorem consumed (h : AccountTables s) {raw : String} {kind : TokenKind} {token : ActionToken}
    {u : User} (hc : Consumed ctx s s' raw kind token u) : AccountTables s' := by
  rw [hc.scope]
  refine h.mapTokens fun token' htoken' => ?_
  by_cases hk : key token' = key { token with usedAt := some ctx.now }
  · obtain rfl := Table.eq_of_key_eq h.tokens htoken' hc.mem hk
    rw [if_pos hk]
    exact ⟨rfl, rfl, rfl⟩
  · rw [if_neg hk]
    exact ⟨rfl, rfl, rfl⟩

/-- A new token keeps the tables. -/
theorem withToken (h : AccountTables s) {raw : String} {token : ActionToken}
    (new : NewToken ctx s raw token) (owner : token.userId ∈ Table.keys s.users) :
    AccountTables (s.withToken token) where
  users := h.users
  tokens := by
    refine Table.nodup_keys_concat ?_ new.fresh
    exact h.tokens.sublist (List.filter_sublist.map _)
  hashes := by
    rw [AccountScope.withToken, List.map_append]
    refine List.nodup_append'.mpr ⟨?_, List.nodup_singleton _, by simpa using new.freshHash⟩
    exact h.hashes.sublist (List.filter_sublist.map _)
  challenges := h.challenges
  sessions := h.sessions
  tokenOwner := by
    intro token' htoken'
    obtain htoken' | htoken' := List.mem_append.mp htoken'
    · exact h.tokenOwner token' (List.mem_of_mem_filter htoken')
    · rw [List.mem_singleton.mp htoken']
      exact owner
  challengeOwner := h.challengeOwner
  sessionOwner := h.sessionOwner

/-- Challenges that keep their keys and accounts keep the tables. -/
theorem mapChallenges (h : AccountTables s) {f : MFAChallenge → MFAChallenge}
    (hf : ∀ c ∈ s.challenges, (f c).id = c.id ∧ (f c).userId = c.userId) :
    AccountTables { s with challenges := s.challenges.map f } where
  users := h.users
  tokens := h.tokens
  hashes := h.hashes
  challenges := by
    have hkeys : Table.keys (s.challenges.map f) = Table.keys s.challenges := by
      simp only [Table.keys, List.map_map]
      exact List.map_congr_left fun c hc => (hf c hc).1
    exact hkeys ▸ h.challenges
  sessions := h.sessions
  tokenOwner := h.tokenOwner
  challengeOwner := by
    intro c hc
    obtain ⟨c₀, hc₀, rfl⟩ := List.mem_map.mp hc
    exact (hf c₀ hc₀).2 ▸ h.challengeOwner c₀ hc₀
  sessionOwner := h.sessionOwner

/-- An edited challenge keeps the tables. -/
theorem putChallenge (h : AccountTables s) {c c' : MFAChallenge} (mem : c ∈ s.challenges)
    (hid : c'.id = c.id) (huser : c'.userId = c.userId) :
    AccountTables { s with challenges := Table.put c' s.challenges } := by
  refine h.mapChallenges fun c₀ hc₀ => ?_
  by_cases hk : key c₀ = key c'
  · obtain rfl := Table.eq_of_key_eq h.challenges hc₀ mem (hk.trans hid)
    rw [if_pos hk]
    exact ⟨hid, huser⟩
  · rw [if_neg hk]
    exact ⟨rfl, rfl⟩

/-- One more session, whatever becomes of the others. -/
theorem concatSession (h : AccountTables s) {sessions : List UserSession} {k : UserSession}
    (hkeys : (Table.keys sessions).Nodup) (fresh : k.sessionKey ∉ Table.keys sessions)
    (howner : ∀ k ∈ sessions, k.userId ∈ Table.keys s.users)
    (owner : k.userId ∈ Table.keys s.users) :
    AccountTables { s with sessions := sessions ++ [k] } where
  users := h.users
  tokens := h.tokens
  hashes := h.hashes
  challenges := h.challenges
  sessions := Table.nodup_keys_concat hkeys fresh
  tokenOwner := h.tokenOwner
  challengeOwner := h.challengeOwner
  sessionOwner := by
    intro k' hk'
    obtain hk' | hk' := List.mem_append.mp hk'
    · exact howner k' hk'
    · rw [List.mem_singleton.mp hk']
      exact owner

/-- A started session keeps the tables. -/
theorem sessionStarted (h : AccountTables s) {u : User} (hs : SessionStarted ctx s s' u) :
    AccountTables s' := by
  refine congr ?_ hs.same
  have hput := h.put { u with lastLogin := some ctx.now }
  refine hput.concatSession (k := ⟨ctx.uuid 12, u.id, _, none⟩) h.sessions hs.fresh ?_ ?_
  · intro k hk
    rw [putUser, Table.keys_put]
    exact h.sessionOwner k hk
  · rw [putUser, Table.keys_put]
    exact Table.mem_keys.mpr ⟨u, (Table.mem_of_get hs.found).1, rfl⟩

/-- A started challenge keeps the tables. -/
theorem challengeStarted (h : AccountTables s) {u : User} (hs : ChallengeStarted ctx s s' u) :
    AccountTables s' := by
  refine congr ?_ hs.same
  exact {
    users := h.users
    tokens := h.tokens
    hashes := h.hashes
    challenges :=
      Table.nodup_keys_concat (h.challenges.sublist (List.filter_sublist.map _)) hs.fresh
    sessions := h.sessions
    tokenOwner := h.tokenOwner
    challengeOwner := by
      intro c hc
      obtain hc | hc := List.mem_append.mp hc
      · exact h.challengeOwner c (List.mem_of_mem_filter hc)
      · rw [List.mem_singleton.mp hc]
        exact Table.mem_keys.mpr ⟨u, (Table.mem_of_get hs.found).1, rfl⟩
    sessionOwner := h.sessionOwner }

/-- Whichever of the two is opened. -/
theorem opened (h : AccountTables s) {u : User} {a : Response} (ho : Opened ctx s s' u a) :
    AccountTables s' := by
  cases ho with
  | session hs => exact h.sessionStarted hs
  | challenge hs _ => exact h.challengeStarted hs

/-- A chosen password keeps the tables. -/
theorem chosen (h : AccountTables s) (ctx : Ctx) (u : User) (raw : String) :
    AccountTables (s.withChosen ctx u raw) :=
  ((h.put _).used ctx u.id _).revokes (revokeSessions_revokes _ ctx u.id none)

/-- A temporary password keeps the tables. -/
theorem temporary (h : AccountTables s) (ctx : Ctx) (u : User) (raw : String) :
    AccountTables (s.withTemporary ctx u raw) := by
  refine revokes (mapChallenges ((h.put _).used ctx u.id _) fun c _ => ?_)
    (revokeSessions_revokes _ ctx u.id none)
  split <;> exact ⟨rfl, rfl⟩

/-- **Every request keeps the constraints.** -/
theorem step {r : Request} {a : VesselCaller.Response} (h : AccountTables s)
    (hstep : AccountStep r a s s') : AccountTables s' := by
  cases hstep with
  | idle same => exact h.congr same
  | revoked sessions hrevokes same => exact (h.revokes hrevokes).congr same
  | rewritten u u' _ _ sessions hrevokes same => exact ((h.put u').revokes hrevokes).congr same
  | added u fresh _ same => exact (h.append fresh).congr same
  | issued u mem ctx raw _ token new owner _ same =>
      refine (h.withToken new ?_).congr same
      exact Table.mem_keys.mpr ⟨u, mem, owner.symm⟩
  | emailRequested session ctx data _ u found _ name email _ token new owner _ _ same =>
      refine ((h.withToken new ?_).put _).congr same
      exact Table.mem_keys.mpr ⟨u, (Table.mem_of_get found).1, owner.symm⟩
  | regenerated actor ctx u raw _ _ _ same => exact (h.temporary ctx u raw).congr same
  | emailChanged ctx raw reserved _ token u s₁ hc _ same => exact ((h.consumed hc).put _).congr same
  | emailVerified ctx raw reserved _ token u s₁ hc _ same =>
      exact ((h.consumed hc).put _).congr same
  | temporaryProven ctx op _ password raw _ _ u hproven token new owner _ _ sessions hrevokes same =>
      refine ((h.withToken new ?_).revokes hrevokes).congr same
      exact Table.mem_keys.mpr ⟨u, hproven.found, owner.symm⟩
  | signedIn ctx op _ password _ u _ a' _ ho => exact h.opened ho
  | completed ctx raw password _ token u s₁ hc a' _ ho =>
      have h₁ : AccountTables s₁ := hc.scope ▸ h.chosen ctx u password.raw
      exact h₁.opened ho
  | attempted ctx attempt _ c c' mem row _ same =>
      exact (h.putChallenge mem row.1 row.2.1).congr same
  | mfaPassed ctx attempt _ c found _ _ _ u _ c' row hs =>
      refine (h.putChallenge (Table.mem_of_get found).1 ?_ ?_).sessionStarted hs
      · rw [row]
      · rw [row]
  | passwordReset ctx raw password _ token u u' s₁ hc _ _ same =>
      exact (((h.consumed hc).put u').revokes (revokeSessions_revokes _ ctx u.id none)).congr same
  | passwordChanged ctx session _ password _ _ u found _ k mem own fresh k' row same =>
      have hrevokes := revokeSessions_revokes s ctx u.id (some session)
      have hput := h.put (u.withPassword ctx password.raw)
      -- The session that changes the password goes on under a key nobody has.
      refine (hput.concatSession ?_ ?_ ?_ ?_).congr same
      · exact ((h.revokes hrevokes).sessions).sublist (List.filter_sublist.map _)
      · rw [row.1]
        intro hmem
        have hsub := (List.filter_sublist.map key).subset hmem
        exact fresh (hrevokes.keys ▸ hsub)
      · intro k hk
        rw [putUser, Table.keys_put]
        exact (h.revokes hrevokes).sessionOwner k (List.mem_of_mem_filter hk)
      · rw [putUser, Table.keys_put, row.2]
        exact Table.mem_keys.mpr ⟨u, (Table.mem_of_get found).1, rfl⟩

/-- The tables keep their constraints in every run. -/
theorem run (h : AccountTables t.toAccountScope) (rs : List Request) :
    AccountTables (run (Tenant.handle sha) t rs).toAccountScope := by
  refine run_invariant (P := fun t : Tenant => AccountTables t.toAccountScope) ?_ rs h
  intro t₁ r t₂ a h₁ hr
  exact h₁.step (handle_accounts hr)

end AccountTables

/-- The sample organization meets the constraints. -/
theorem sample_accountTables : AccountTables Sample.tenant.toAccountScope where
  users := by decide
  tokens := by decide
  hashes := by decide
  challenges := by decide
  sessions := by decide
  tokenOwner := by decide
  challengeOwner := by decide
  sessionOwner := by decide

end VesselCaller.Accounts
