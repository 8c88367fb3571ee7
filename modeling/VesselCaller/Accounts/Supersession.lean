import VesselCaller.Accounts.TemporaryPasswords

/-!
# What a new temporary password supersedes

Drawing a temporary password again uses up every token and challenge of the account and
replaces its password.  A used row is never opened again, and a token or a password
that nobody draws or chooses again never comes back: three invariants, one for each kind
of secret, whose conclusions are about the requests that would present it.

## Main definitions

* `TokenRefused`, `ChallengeRefused`, `PasswordRefused` — what no request gets any further
  with;
* `Spent`, `OwnToken`, `OtherPassword` — the three invariants;
* `Superseded` — everything an earlier temporary password had opened is refused.
-/

namespace VesselCaller.Accounts

open Lib

variable {sha : Measurements.Sha256} {t t' : Tenant} {s s' : AccountScope} {ctx : Ctx}
  {r : Request} {a : VesselCaller.Response} {id : Id} {raw p : String}

/-! ## Refusals -/

/-- The raw token a request presents. -/
def redeems : Request → Option String
  | .auth _ (.verifyEmail raw _) => some raw
  | .auth _ (.completeTemporaryPassword raw _) => some raw
  | .auth _ (.resetPassword raw _) => some raw
  | _ => none

/-- No request is accepted with the token. -/
def TokenRefused (sha : Measurements.Sha256) (t : Tenant) (raw : String) : Prop :=
  ∀ r, redeems r = some raw → (t.handle sha r).isOk = false

/-- No verification is accepted with the challenge. -/
def ChallengeRefused (sha : Measurements.Sha256) (t : Tenant) (challenge : Id) : Prop :=
  ∀ ctx attempt, attempt.challenge = challenge →
    (t.handle sha (.auth ctx (.verifyMfa attempt))).isOk = false

/-- The request gave the account no session, no challenge and no password-change token. -/
def OpensNothing (id : Id) (s s' : AccountScope) : Prop :=
  (∀ k ∈ s'.sessions, k.userId = id → k.sessionKey ∈ Table.keys s.sessions) ∧
    (∀ c ∈ s'.challenges, c.userId = id → c.id ∈ Table.keys s.challenges) ∧
    ∀ token ∈ s'.tokens, token.userId = id → token.kind = .temporaryPasswordChange →
      token.tokenHash ∈ s.tokens.map ActionToken.tokenHash

/-- The password opens nothing for the account. -/
def PasswordRefused (sha : Measurements.Sha256) (t : Tenant) (id : Id) (p : String) : Prop :=
  ∀ r t' a, offeredPassword r = some p → t.handle sha r = .ok (t', a) →
    OpensNothing id t.toAccountScope t'.toAccountScope

/-! ## Tokens -/

theorem tokenHash_injective : Function.Injective tokenHash := fun _ _ h => h

/-- A request that is accepted with a token found it unused. -/
theorem redeems_unused (hredeems : redeems r = some raw) (hr : t.handle sha r = .ok (t', a)) :
    ∃ token ∈ t.tokens, token.tokenHash = tokenHash raw ∧ token.usedAt = none := by
  unfold redeems at hredeems
  split at hredeems
  · obtain rfl := Option.some.inj hredeems
    simp only [Tenant.handle, AuthOp.handle, verifyEmail, bind_eq_ok, orRaise_eq_ok,
      Prod.exists] at hr
    obtain ⟨_, _, ⟨_, _, _, hconsumed, _⟩, _⟩ := hr
    obtain ⟨token, hc, _⟩ := consumeActionToken_eq_some hconsumed
    exact ⟨token, hc.mem, hc.hash, hc.unused⟩
  · obtain rfl := Option.some.inj hredeems
    simp only [Tenant.handle, AuthOp.handle, completeFirstSignIn, bind_eq_ok, Prod.exists] at hr
    obtain ⟨_, _, ⟨_, _, hservice, _⟩, _⟩ := hr
    obtain ⟨token, _, hc, _⟩ := completeTemporaryPassword_eq_ok hservice
    exact ⟨token, hc.mem, hc.hash, hc.unused⟩
  · obtain rfl := Option.some.inj hredeems
    simp only [Tenant.handle, AuthOp.handle, resetPassword, bind_eq_ok, orRaise_eq_ok,
      Prod.exists] at hr
    obtain ⟨_, _, ⟨_, _, _, _, _, hconsumed, _⟩, _⟩ := hr
    obtain ⟨token, hc, _⟩ := consumeActionToken_eq_some hconsumed
    exact ⟨token, hc.mem, hc.hash, hc.unused⟩
  · cases hredeems

/-- Every row of the raw token is used. -/
def Spent (raw : String) (s : AccountScope) : Prop :=
  ∀ token ∈ s.tokens, token.tokenHash = tokenHash raw → token.usedAt ≠ none

theorem Spent.refused (h : Spent raw t.toAccountScope) : TokenRefused sha t raw := by
  intro r hredeems
  cases hr : t.handle sha r with
  | error e => rfl
  | ok answer =>
      obtain ⟨token, hmem, hhash, hunused⟩ := redeems_unused hredeems hr
      exact absurd hunused (h token hmem hhash)

/-- A token that the request did not draw is a row that was there, with the same owner. -/
theorem AccountStep.undrawn (hstep : AccountStep r a s s') {token : ActionToken}
    (htoken : token ∈ s'.tokens) (hhash : token.tokenHash = tokenHash raw)
    (hdraws : drawnToken r ≠ some raw) : ∃ token₀ ∈ s.tokens,
      token₀.tokenHash = tokenHash raw ∧ token.userId = token₀.userId ∧
        (token.usedAt = none → token = token₀) := by
  have hnot : ∀ raw', drawnToken r = some raw' → token.tokenHash ≠ tokenHash raw' := by
    intro raw' hdrawn hhash'
    obtain rfl := tokenHash_injective (hhash.symm.trans hhash')
    exact hdraws hdrawn
  cases hstep.token htoken with
  | kept token₀ mem hash user _ same => exact ⟨token₀, mem, hash ▸ hhash, user, same⟩
  | issued _ _ _ raw' draws hash _ => exact absurd hash (hnot raw' draws)
  | emailRequested _ _ raw' draws hash _ _ _ _ _ _ => exact absurd hash (hnot raw' draws)
  | temporary ctx op request _ raw' _ draws hash _ _ _ _ _ =>
      refine absurd hash (hnot raw' ?_)
      rw [request]
      exact draws

theorem Spent.step (h : Spent raw s) (hstep : AccountStep r a s s')
    (hdraws : drawnToken r ≠ some raw) : Spent raw s' := by
  intro token htoken hhash hunused
  obtain ⟨token₀, hmem, hhash₀, _, hsame⟩ := hstep.undrawn htoken hhash hdraws
  obtain rfl := hsame hunused
  exact h token hmem hhash₀ hunused

theorem Spent.run (h : Spent raw t.toAccountScope) {rs : List Request}
    (hdraws : ∀ r ∈ rs, drawnToken r ≠ some raw) :
    Spent raw (run (Tenant.handle sha) t rs).toAccountScope := by
  refine run_invariant_along (P := fun t : Tenant => Spent raw t.toAccountScope)
    (C := fun _ r => drawnToken r ≠ some raw) ?_ rs (along_of_forall t hdraws) h
  intro t₁ r t₂ a h₁ hr hok
  exact h₁.step (handle_accounts hok) hr

/-- Every row of the raw token is the account's. -/
def OwnToken (id : Id) (raw : String) (s : AccountScope) : Prop :=
  ∀ token ∈ s.tokens, token.tokenHash = tokenHash raw → token.userId = id

theorem OwnToken.ofMem (h : AccountTables s) {token : ActionToken} (mem : token ∈ s.tokens)
    (hash : token.tokenHash = tokenHash raw) : OwnToken token.userId raw s := by
  intro token' mem' hash'
  rw [List.inj_on_of_nodup_map h.hashes mem' mem (hash'.trans hash.symm)]

theorem OwnToken.run (h : OwnToken id raw t.toAccountScope) {rs : List Request}
    (hdraws : ∀ r ∈ rs, drawnToken r ≠ some raw) :
    OwnToken id raw (run (Tenant.handle sha) t rs).toAccountScope := by
  refine run_invariant_along (P := fun t : Tenant => OwnToken id raw t.toAccountScope)
    (C := fun _ r => drawnToken r ≠ some raw) ?_ rs (along_of_forall t hdraws) h
  intro t₁ r t₂ a h₁ hr hok token htoken hhash
  obtain ⟨token₀, hmem, hhash₀, howner, _⟩ := (handle_accounts hok).undrawn htoken hhash hr
  rw [howner]
  exact h₁ token₀ hmem hhash₀

/-! ## Passwords -/

/-- The account has another password. -/
structure OtherPassword (id : Id) (p : String) (s : AccountScope) : Prop where
  tables : AccountTables s
  user : ∃ u, Table.get id s.users = some u ∧ u.password.check p = false

/-- The request, if it is accepted, does not make the password the account's. -/
def NotChosen (sha : Measurements.Sha256) (id : Id) (p : String) (t : Tenant) (r : Request) :
    Prop :=
  (t.handle sha r).isOk = true → setsPassword t.toAccountScope r ≠ some (id, p)

theorem OtherPassword.run (h : OtherPassword id p t.toAccountScope) {rs : List Request}
    (hnot : Along (Tenant.handle sha) (NotChosen sha id p) t rs) :
    OtherPassword id p (run (Tenant.handle sha) t rs).toAccountScope := by
  refine run_invariant_along (P := fun t : Tenant => OtherPassword id p t.toAccountScope) ?_ rs
    hnot h
  intro t₁ r t₂ a h₁ hr hok
  have hstep := handle_accounts hok
  obtain ⟨u, hu, hother⟩ := h₁.user
  obtain ⟨u', hu', huser⟩ := hstep.user hu
  refine ⟨h₁.tables.step hstep, u', hu', huser.password h₁.tables hother ?_⟩
  have hid : u.id = id := (Table.mem_of_get hu).2
  rw [hid]
  refine hr ?_
  rw [hok]
  rfl

theorem OtherPassword.refused (h : OtherPassword id p t.toAccountScope) :
    PasswordRefused sha t id p := by
  intro r t' a hoffers hr
  obtain ⟨u, hu, hother⟩ := h.user
  have hstep := handle_accounts hr
  -- Whoever proved the password is not this account.
  have hproven : ∀ {w : User} {password : String}, Table.get w.id t.users = some w →
      w.password.check password = true → offeredPassword r = some password → w.id ≠ id := by
    rintro w password hw hcheck hoffers' rfl
    rw [hu] at hw
    rw [hoffers, Option.some.injEq] at hoffers'
    rw [← Option.some.inj hw, ← hoffers', hother] at hcheck
    exact Bool.false_ne_true hcheck
  refine ⟨fun k hk hown => ?_, fun c hc hown => ?_, fun token htoken hown hkind => ?_⟩
  · cases hstep.session hk with
    | kept k₀ mem key _ _ => exact Table.mem_keys.mpr ⟨k₀, mem, key.symm⟩
    | login ctx op request password offers w found _ proven _ user =>
        exact absurd (user ▸ hown) (hproven found proven (by rw [request]; exact offers))
    | completed _ _ _ request => rw [request] at hoffers; cases hoffers
    | mfa _ _ request => rw [request] at hoffers; cases hoffers
    | changed _ _ _ _ _ request => rw [request] at hoffers; cases hoffers
  · cases hstep.challenge hc with
    | kept c₀ mem id _ _ _ _ => exact Table.mem_keys.mpr ⟨c₀, mem, id.symm⟩
    | login ctx op request password offers w found _ proven _ _ user =>
        exact absurd (user ▸ hown) (hproven found proven (by rw [request]; exact offers))
    | completed _ _ _ request => rw [request] at hoffers; cases hoffers
  · cases hstep.token htoken with
    | kept token₀ mem hash _ _ _ => exact List.mem_map.mpr ⟨token₀, mem, hash.symm⟩
    | issued _ _ _ _ _ _ hissuance => exact absurd hkind hissuance.kind_ne
    | emailRequested _ _ _ _ _ _ _ _ _ hverify _ => rw [hkind] at hverify; cases hverify
    | temporary ctx op request password raw offers draws hash w hw owner _ _ =>
        refine absurd (owner ▸ hown) (hproven ?_ hw.proven (by rw [request]; exact offers))
        exact Table.get_of_mem h.tables.users hw.found

/-! ## The two requests of an administrator -/

theorem provision_eq_ok {actor : Id} {data : ProvisionInput}
    (h : t.handle sha (.users actor ctx (.provision data)) = .ok (t', a)) :
    ctx.uuid 0 ∉ Table.keys t.users ∧ SameAccounts
      { t.toAccountScope with users := t.users ++ [provisionedUser ctx data] }
      t'.toAccountScope := by
  simp only [Tenant.handle, UserOp.handle, bind_eq_ok, pure_eq_ok, Prod.exists,
    Prod.mk.injEq] at h
  obtain ⟨_, _, _, _, ⟨_, _, hservice, rfl, _⟩, rfl, _⟩ := h
  exact provisionTemporaryUser_eq_ok hservice

theorem regenerate_eq_ok {actor userId : Id}
    (h : t.handle sha (.users actor ctx (.regenerate userId raw)) = .ok (t', a)) :
    ∃ u, u.id = userId ∧ Table.get u.id t.users = some u ∧ u.passwordChangeRequired = true ∧
      SameAccounts (t.toAccountScope.withTemporary ctx u raw) t'.toAccountScope := by
  simp only [Tenant.handle, UserOp.handle, bind_eq_ok, pure_eq_ok, Prod.exists,
    Prod.mk.injEq] at h
  obtain ⟨_, _, _, _, ⟨_, _, hservice, rfl, _⟩, rfl, _⟩ := h
  exact regenerateTemporaryPassword_eq_ok hservice

/-- A new account has no rows of its own but the user. -/
structure Provisioned (id : Id) (s : AccountScope) : Prop where
  tables : AccountTables s
  user : ∃ u, Table.get id s.users = some u ∧ u.passwordChangeRequired = true
  tokens : ∀ token ∈ s.tokens, token.userId ≠ id
  signIn : NoSignIn id s

theorem Provisioned.ofAccepted {actor : Id} {data : ProvisionInput}
    (htables : AccountTables t.toAccountScope)
    (h : t.handle sha (.users actor ctx (.provision data)) = .ok (t', a)) :
    Provisioned (ctx.uuid 0) t'.toAccountScope := by
  obtain ⟨hfresh, hsame⟩ := provision_eq_ok h
  have hother : ∀ {userId : Id}, userId ∈ Table.keys t.users → userId ≠ ctx.uuid 0 := by
    rintro _ hmem rfl
    exact hfresh hmem
  refine ⟨htables.step (handle_accounts h), ⟨provisionedUser ctx data, ?_, rfl⟩, ?_, ?_, ?_⟩
  · rw [hsame.users, Table.get, List.find?_append]
    have hnone : Table.get (ctx.uuid 0) t.users = none := Table.get_eq_none_iff.mpr hfresh
    rw [Table.get] at hnone
    rw [hnone]
    simp [provisionedUser, key]
  · rw [hsame.tokens]
    exact fun token htoken => hother (htables.tokenOwner token htoken)
  · rw [hsame.sessions]
    exact fun k hk => hother (htables.sessionOwner k hk)
  · rw [hsame.challenges]
    exact fun c hc => hother (htables.challengeOwner c hc)

theorem Provisioned.restricted (h : Provisioned id s) : Restricted id s := by
  obtain ⟨u, hu, _⟩ := h.user
  exact ⟨h.tables, u, hu, fun _ => h.signIn⟩

theorem Provisioned.bound (h : Provisioned id t.toAccountScope) :
    Bound sha t id [] t.toAccountScope :=
  ⟨h.tables, fun token htoken howner => absurd howner (h.tokens token htoken)⟩

theorem Provisioned.completedOnce (h : Provisioned id s) : CompletedOnce id 0 s := by
  obtain ⟨u, hu, hpending⟩ := h.user
  refine ⟨h.tables, u, hu, ?_⟩
  rw [hpending]
  decide

/-- Every token of the account is used once a temporary password was drawn again. -/
theorem OwnToken.spent {u : User} (h : OwnToken u.id raw s) {p : String}
    (hsame : SameAccounts (s.withTemporary ctx u p) s') : Spent raw s' := by
  rw [Spent, hsame.tokens]
  intro token htoken hhash hunused
  obtain ⟨token₀, hmem, rfl⟩ := List.mem_map.mp htoken
  by_cases hused : token₀.userId = u.id ∧ token₀.unused = true ∧ true = true
  · simp [hused] at hunused
  · rw [if_neg hused] at hhash hunused
    refine hused ⟨h token₀ hmem hhash, ?_, rfl⟩
    rw [ActionToken.unused, hunused]
    rfl

/-- An account that awaits its password has awaited it ever since it was provisioned. -/
theorem Restricted.noSignIn_before (h : Restricted id t.toAccountScope) {rs : List Request}
    {u : User} (hu : Table.get id (Lib.run (Tenant.handle sha) t rs).users = some u)
    (hpending : u.passwordChangeRequired = true) : NoSignIn id t.toAccountScope := by
  obtain ⟨u₀, hu₀, hnone⟩ := h.user
  refine hnone ?_
  by_contra hsettled
  rw [Bool.not_eq_true] at hsettled
  have hrun : ∃ u, Table.get id (Lib.run (Tenant.handle sha) t rs).users = some u ∧
      u.passwordChangeRequired = false := by
    refine run_invariant (P := fun t : Tenant => ∃ u, Table.get id t.users = some u ∧
      u.passwordChangeRequired = false) ?_ rs ⟨u₀, hu₀, hsettled⟩
    rintro t₁ r t₂ a ⟨u₁, hu₁, h₁⟩ hr
    obtain ⟨u₂, hu₂, huser⟩ := (handle_accounts hr).user hu₁
    exact ⟨u₂, hu₂, huser.settled h₁⟩
  obtain ⟨u', hu', hsettled'⟩ := hrun
  rw [hu] at hu'
  rw [Option.some.inj hu', hsettled'] at hpending
  exact Bool.false_ne_true hpending

/-! ## The protocol -/

/-- What a temporary password drawn after the history `rs` has put an end to, after any
further requests `rs'`. -/
structure Superseded (sha : Measurements.Sha256) (id : Id) (t : Tenant) (rs : List Request)
    (raw : String) (t' : Tenant) (rs' : List Request) : Prop where
  tokens : ∀ before after earlier, rs = before ++ after →
    (∃ token ∈ (run (Tenant.handle sha) t before).tokens,
      token.userId = id ∧ token.tokenHash = tokenHash earlier) →
    (∀ r ∈ after ++ rs', drawnToken r ≠ some earlier) →
    TokenRefused sha (run (Tenant.handle sha) t' rs') earlier
  challenges : ∀ before after, rs = before ++ after →
    ∀ c ∈ (run (Tenant.handle sha) t before).challenges, c.userId = id →
      ChallengeRefused sha (run (Tenant.handle sha) t' rs') c.id
  passwords : ∀ p, p ≠ raw → Along (Tenant.handle sha) (NotChosen sha id p) t' rs' →
    PasswordRefused sha (run (Tenant.handle sha) t' rs') id p

theorem Provisioned.superseded {actor : Id} {rs : List Request} {t₁ : Tenant}
    (h : Provisioned id t.toAccountScope)
    (hr : (run (Tenant.handle sha) t rs).handle sha (.users actor ctx (.regenerate id raw)) =
      .ok (t₁, a)) (rs' : List Request) : Superseded sha id t rs raw t₁ rs' := by
  obtain ⟨u, rfl, hu, hpending, hsame⟩ := regenerate_eq_ok hr
  refine ⟨?_, ?_, ?_⟩
  · rintro before after earlier rfl ⟨token, hmem, howner, hhash⟩ hdraws
    have hown := OwnToken.ofMem (h.tables.run before) hmem hhash
    rw [howner] at hown
    have hown' : OwnToken u.id earlier
        (run (Tenant.handle sha) t (before ++ after)).toAccountScope := by
      rw [run_append]
      exact hown.run fun r hr => hdraws r (List.mem_append_left _ hr)
    exact ((hown'.spent hsame).run fun r hr => hdraws r (List.mem_append_right _ hr)).refused
  · -- There is none: the account has awaited its password all along.
    rintro before after rfl c hc howner
    rw [run_append] at hu
    have hnone := (h.restricted.run before).noSignIn_before hu hpending
    exact absurd howner (hnone.2 c hc)
  · intro p hp hnot
    refine (OtherPassword.run ⟨(h.tables.run rs).step (handle_accounts hr), ?_⟩ hnot).refused
    refine ⟨u.withTemporaryPassword ctx raw, ?_, (makePassword_check _ _ _).mpr hp.symm⟩
    rw [hsame.users]
    exact Table.get_put_self (a := u.withTemporaryPassword ctx raw) hu

/-- **The temporary-password protocol.**  Whatever is requested after an account was
provisioned: it has neither a session nor a challenge while it awaits its first password
change; a completion spends an unused, unexpired token that was issued against the
temporary password the account still has; at most one completion is accepted; and a
temporary password that is drawn again ends every earlier token and challenge of the
account, and every other password, unless a later request makes that password the
account's. -/
theorem temporary_password_protocol (sha : Measurements.Sha256) {t t₁ : Tenant} {actor : Id}
    {ctx : Ctx} {data : ProvisionInput} {a : VesselCaller.Response}
    (htables : AccountTables t.toAccountScope)
    (hprovision : t.handle sha (.users actor ctx (.provision data)) = .ok (t₁, a))
    (rs : List Request) :
    let id := ctx.uuid 0
    let t₂ := run (Tenant.handle sha) t₁ rs
    (∃ u, Table.get id t₂.users = some u ∧
      (u.passwordChangeRequired = true → NoSignIn id t₂.toAccountScope)) ∧
    (∀ r t₃ a₃, completes t₂.toAccountScope r = some id → t₂.handle sha r = .ok (t₃, a₃) →
      ∃ ctx₃ raw password u, r = .auth ctx₃ (.completeTemporaryPassword raw password) ∧
        Table.get id t₂.users = some u ∧ ∃ token ∈ t₂.tokens, token.userId = id ∧
          token.tokenHash = tokenHash raw ∧ token.usedAt = none ∧ ctx₃.now < token.expiresAt ∧
          IssuedAgainst sha t₁ id rs token u.password) ∧
    completions sha id t₁ rs ≤ 1 ∧
    ∀ actor₃ ctx₃ raw t₃ a₃, t₂.handle sha (.users actor₃ ctx₃ (.regenerate id raw)) =
      .ok (t₃, a₃) → ∀ rs', Superseded sha id t₁ rs raw t₃ rs' := by
  intro id t₂
  have hnew : Provisioned id t₁.toAccountScope := .ofAccepted htables hprovision
  refine ⟨(hnew.restricted.run rs).user, ?_, ?_, ?_⟩
  · intro r t₃ a₃ hcompletes hr
    have hbound : Bound sha t₁ id rs t₂.toAccountScope := hnew.bound.run rs
    obtain ⟨ctx₃, raw, password, token, u, s₁, _, rfl, hid, hc, _⟩ :=
      completed_of_accepted hbound.tables hcompletes hr
    have howner : token.userId = id := hc.owner.trans hid
    obtain ⟨credential, hcredential, hissued⟩ :=
      hbound.tokens token hc.mem howner hc.kind hc.unused
    rw [hc.credential, Option.some.injEq] at hcredential
    exact ⟨ctx₃, raw, password, u, rfl, hid ▸ hc.found, token, hc.mem, howner, hc.hash, hc.unused,
      hc.timely, hcredential ▸ hissued⟩
  · have honce : CompletedOnce id (completions sha id t₁ rs) t₂.toAccountScope :=
      hnew.completedOnce.run rs
    obtain ⟨u, _, hn⟩ := honce.user
    exact (Nat.le_add_right _ _).trans hn
  · intro actor₃ ctx₃ raw t₃ a₃ hr rs'
    exact hnew.superseded hr rs'

/-- The administrator draws another temporary password after the member's first login. -/
theorem temporary_password_protocol_regenerated :
    let t₁ := serve (Tenant.handle Sample.sha) Sample.tenant Sample.provision
    let t₂ := run (Tenant.handle Sample.sha) t₁ [Sample.firstLogin]
    t₂.tokens.map (fun token => (token.userId, token.tokenHash)) = [(10000, "token-1")] ∧
      Superseded Sample.sha 10000 t₁ [Sample.firstLogin] "Zt9wSecondaA7!"
        (serve (Tenant.handle Sample.sha) t₂ Sample.regenerate) Sample.chosenAgain := by
  intro t₁ t₂
  obtain ⟨a, hprovision⟩ : ∃ a, Sample.tenant.handle Sample.sha Sample.provision = .ok (t₁, a) :=
    exists_ok_serve _ (by decide +kernel)
  obtain ⟨a', hregenerate⟩ : ∃ a, t₂.handle Sample.sha Sample.regenerate =
      .ok (serve (Tenant.handle Sample.sha) t₂ Sample.regenerate, a) :=
    exists_ok_serve _ (by decide +kernel)
  refine ⟨by decide +kernel, ?_⟩
  exact (temporary_password_protocol Sample.sha sample_accountTables hprovision
    [Sample.firstLogin]).2.2.2 1 (Sample.ctx 3) _ _ a' hregenerate Sample.chosenAgain

/-- The member may choose an earlier temporary password for its own: it was provisioned
with one, got another, replaced that by the first one, and signs in with it. -/
theorem temporary_password_chosen_again :
    let t₂ := run (Tenant.handle Sample.sha) Sample.tenant
      [Sample.provision, Sample.firstLogin, Sample.regenerate]
    (Table.get 10000 t₂.users).map User.password = some (makePassword 30020 "Zt9wSecondaA7!") ∧
      ¬PasswordRefused Sample.sha (run (Tenant.handle Sample.sha) t₂ Sample.chosenAgain) 10000
        "kQ4vFirstaA7!" := by
  intro t₂
  refine ⟨by decide +kernel, fun hrefused => ?_⟩
  let t₃ := run (Tenant.handle Sample.sha) t₂ Sample.chosenAgain
  let login : Request := .auth (Sample.ctx 6) (.login "chidi" "kQ4vFirstaA7!" "token-3" none false)
  obtain ⟨a, hlogin⟩ : ∃ a, t₃.handle Sample.sha login =
      .ok (serve (Tenant.handle Sample.sha) t₃ login, a) :=
    exists_ok_serve _ (by decide +kernel)
  have hnone := (hrefused login _ a rfl hlogin).1
  revert hnone
  decide +kernel

end VesselCaller.Accounts
