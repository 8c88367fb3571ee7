import VesselCaller.Accounts.Origins

/-!
# The access decision of an administrator

An administrator suspends or removes a member.  `VerifyEmailView` makes its user active
whatever the status is, so the decision stands exactly as long as no verification link
for the first address of the member opens.

Two facts about verification links decide when that is.  A user has at most one open
link, since issuing one drops the other; and a link that names no new address is open
only while the user's address is unproven, since the proof uses the one link up.
`VerificationLinks` is that invariant.  A member whose address was proven before the
decision has no such link and is never sent one again: `ShutOut`.

## Main definitions

* `revokesAccess`, `restoresAccess` — the requests of an administrator that decide on a member;
* `User.pastVerification` — no verification link can make the user active any more;
* `VerificationLinks` — the invariant of the open links;
* `ShutOut` — the member is not active, and no link opens for it.
-/

namespace VesselCaller.Accounts

open Lib

variable {sha : Measurements.Sha256} {t t' t₀ t₁ : Tenant} {s s' : AccountScope} {ctx : Ctx}
  {r : Request} {a : VesselCaller.Response} {id : Id}

/-! ## Decisions -/

/-- The member the request suspends or removes. -/
def revokesAccess : Request → Option Id
  | .users _ _ (.patchUser userId data) =>
      if data.status = some .suspended then some userId else none
  | .users _ _ (.removeUser userId) => some userId
  | _ => none

/-- The member the request makes active by an administrator's patch. -/
def restoresAccess : Request → Option Id
  | .users _ _ (.patchUser userId data) =>
      if data.status = some .active then some userId else none
  | _ => none

/-- No verification link for a first address opens for the user. -/
def User.pastVerification (u : User) : Bool :=
  u.emailVerifiedAt.isSome || u.isStaff || u.isSuperuser

theorem User.pastVerification_iff {u : User} : u.pastVerification = true ↔
    u.emailVerifiedAt ≠ none ∨ u.isStaff = true ∨ u.isSuperuser = true := by
  simp [User.pastVerification, Option.isSome_iff_ne_none, or_assoc]

/-! ## Verification links -/

/-- The token is an open verification link of the user. -/
def ActionToken.Verifies (token : ActionToken) (id : Id) : Prop :=
  token.userId = id ∧ token.kind = .verifyEmail ∧ token.usedAt = none

theorem Opened.tokens {u : User} {a : Response} (ho : Opened ctx s s' u a) :
    s'.tokens = s.tokens := by
  cases ho with
  | session hs => exact hs.same.tokens
  | challenge hs _ => exact hs.same.tokens

/-- A consumed token is not open any more. -/
theorem Consumed.open_mem {raw : String} {kind : TokenKind} {token token' : ActionToken}
    {u : User} (hc : Consumed ctx s s' raw kind token u) (htoken' : token' ∈ s'.tokens)
    (hopen : token'.usedAt = none) : token' ∈ s.tokens ∧ token'.id ≠ token.id := by
  rw [hc.scope] at htoken'
  obtain rfl | hold := Table.mem_put htoken'
  · cases hopen
  · exact hold

theorem useTokens_open_mem {u : User} {userId : Id} {which : ActionToken → Bool}
    {token : ActionToken} (htoken : token ∈ (useTokens (putUser s u) ctx userId which).tokens)
    (hopen : token.usedAt = none) : token ∈ s.tokens := by
  obtain ⟨token₀, hmem, rfl⟩ := List.mem_map.mp htoken
  split at hopen
  · cases hopen
  · rename_i hkept
    rw [if_neg hkept]
    exact hmem

/-- An open token after a request was open before it, unless the request issued one and
dropped the others of its user and kind. -/
theorem AccountStep.openTokens (hstep : AccountStep r a s s') :
    (∀ token ∈ s'.tokens, token.usedAt = none → token ∈ s.tokens) ∨
      ∃ token, s'.tokens = (s.withToken token).tokens := by
  cases hstep with
  | idle same => exact .inl fun token htoken _ => same.tokens ▸ htoken
  | revoked _ _ same => exact .inl fun token htoken _ => same.tokens ▸ htoken
  | rewritten _ _ _ _ _ _ same => exact .inl fun token htoken _ => same.tokens ▸ htoken
  | added _ _ _ same => exact .inl fun token htoken _ => same.tokens ▸ htoken
  | issued _ _ _ _ _ token _ _ _ same => exact .inr ⟨token, same.tokens⟩
  | emailRequested _ _ _ _ _ _ _ _ _ _ token _ _ _ _ same => exact .inr ⟨token, same.tokens⟩
  | regenerated _ ctx u raw _ _ _ same =>
      rw [same.tokens]
      exact .inl fun token => useTokens_open_mem (u := u.withTemporaryPassword ctx raw)
  | emailChanged _ _ _ _ _ _ s₁ hc _ same =>
      rw [same.tokens]
      exact .inl fun token htoken hopen => (hc.open_mem htoken hopen).1
  | emailVerified _ _ _ _ _ _ s₁ hc _ same =>
      rw [same.tokens]
      exact .inl fun token htoken hopen => (hc.open_mem htoken hopen).1
  | temporaryProven _ _ _ _ _ _ _ _ _ token _ _ _ _ _ _ same => exact .inr ⟨token, same.tokens⟩
  | signedIn _ _ _ _ _ _ _ _ _ ho =>
      rw [ho.tokens]
      exact .inl fun token htoken _ => htoken
  | completed ctx _ password _ _ u s₁ hc _ _ ho =>
      rw [ho.tokens, hc.scope]
      exact .inl fun token => useTokens_open_mem (u := u.withChosenPassword ctx password.raw)
  | attempted _ _ _ _ _ _ _ _ same => exact .inl fun token htoken _ => same.tokens ▸ htoken
  | mfaPassed _ _ _ _ _ _ _ _ _ _ _ _ hs =>
      exact .inl fun token htoken _ => hs.same.tokens ▸ htoken
  | passwordReset _ _ _ _ _ _ _ s₁ hc _ _ same =>
      rw [same.tokens]
      exact .inl fun token htoken hopen => (hc.open_mem htoken hopen).1
  | passwordChanged _ _ _ _ _ _ _ _ _ _ _ _ _ _ _ same =>
      exact .inl fun token htoken _ => same.tokens ▸ htoken

/-- The address of a user changes its standing only in a verification. -/
theorem UserStep.emailVerifiedAt {u u' : User} (h : UserStep r s u u')
    (customer : s.organization.kind = .customer) : u'.emailVerifiedAt = u.emailVerifiedAt ∨
      u'.emailVerifiedAt ≠ none ∧
        ∃ ctx raw reserved, r = .auth ctx (.verifyEmail raw reserved) := by
  cases h with
  | same row => exact .inl (row ▸ rfl)
  | rewritten h =>
      cases h with
      | patched _ _ _ _ row => exact .inl (row ▸ rfl)
      | removed _ _ _ row => exact .inl (row ▸ rfl)
      | profile _ row => exact .inl (row ▸ rfl)
      | mfa _ _ _ row => exact .inl (row ▸ rfl)
  | emailRequested _ _ row => exact .inl (row ▸ rfl)
  | regenerated _ _ _ _ _ row => exact .inl (row ▸ rfl)
  | emailChanged ctx _ row raw reserved request =>
      exact .inr ⟨row ▸ Option.some_ne_none _, ctx, raw, reserved, request⟩
  | emailVerified ctx raw reserved request _ _ _ _ row =>
      exact .inr ⟨row ▸ Option.some_ne_none _, ctx, raw, reserved, request⟩
  | signedIn _ row => exact .inl (row ▸ rfl)
  | completed _ _ _ _ _ _ _ _ row => exact .inl (row ▸ rfl)
  | passwordReset _ _ _ _ _ _ _ _ row =>
      obtain row | ⟨hplatform, _⟩ := row
      · exact .inl (row ▸ rfl)
      · rw [customer] at hplatform
        cases hplatform
  | passwordChanged _ _ _ _ _ _ _ _ _ _ row => exact .inl (row ▸ rfl)

theorem AccountStep.kind (hstep : AccountStep r a s s') :
    s'.organization.kind = s.organization.kind := by
  have hopened : ∀ {ctx : Ctx} {s₁ : AccountScope} {u : User} {a : Response},
      Opened ctx s₁ s' u a → s'.organization.kind = s₁.organization.kind := by
    intro ctx s₁ u a ho
    cases ho with
    | session hs => exact hs.same.kind
    | challenge hs _ => exact hs.same.kind
  cases hstep with
  | idle same => exact same.kind
  | revoked _ _ same => exact same.kind
  | rewritten _ _ _ _ _ _ same => exact same.kind
  | added _ _ _ same => exact same.kind
  | issued _ _ _ _ _ _ _ _ _ same => exact same.kind
  | emailRequested _ _ _ _ _ _ _ _ _ _ _ _ _ _ _ same => exact same.kind
  | regenerated _ _ _ _ _ _ _ same => exact same.kind
  | emailChanged _ _ _ _ _ _ _ hc _ same => rw [same.kind, putUser, hc.scope]
  | emailVerified _ _ _ _ _ _ _ hc _ same => rw [same.kind, putUser, hc.scope]
  | temporaryProven _ _ _ _ _ _ _ _ _ _ _ _ _ _ _ _ same => exact same.kind
  | signedIn _ _ _ _ _ _ _ _ _ ho => exact hopened ho
  | completed _ _ _ _ _ _ _ hc _ _ ho =>
      rw [hopened ho, hc.scope]
      rfl
  | attempted _ _ _ _ _ _ _ _ same => exact same.kind
  | mfaPassed _ _ _ _ _ _ _ _ _ _ _ _ hs => exact hs.same.kind
  | passwordReset _ _ _ _ _ _ _ _ hc _ _ same =>
      rw [same.kind, revokeSessions, putUser, hc.scope]
  | passwordChanged _ _ _ _ _ _ _ _ _ _ _ _ _ _ _ same => exact same.kind

/-- What an accepted verification did. -/
theorem verifyEmail_consumed {raw : String} {reserved : Bool}
    (h : t.handle sha (.auth ctx (.verifyEmail raw reserved)) = .ok (t', a)) :
    ∃ token u u' s₁, Consumed ctx t.toAccountScope s₁ raw .verifyEmail token u ∧ u'.id = u.id ∧
      SameAccounts (putUser s₁ u') t'.toAccountScope := by
  simp only [Tenant.handle, AuthOp.handle, verifyEmail, bind_eq_ok, orRaise_eq_ok, pure_eq_ok,
    Prod.exists, Prod.mk.injEq] at h
  obtain ⟨s', response, ⟨s₁, used, u, hconsumed, h⟩, rfl, _⟩ := h
  obtain ⟨token, hc, _⟩ := consumeActionToken_eq_some hconsumed
  split at h
  · simp only [bind_eq_ok, raiseIf_eq_ok, pure_eq_ok, Prod.mk.injEq] at h
    obtain ⟨_, _, rfl, _⟩ := h
    exact ⟨token, u, u.withEmail ctx used.metadata.pendingEmail, s₁, hc, rfl, .refl _⟩
  · simp only [pure_eq_ok, Prod.mk.injEq] at h
    obtain ⟨rfl, _⟩ := h
    exact ⟨token, u, u.verified ctx, s₁, hc, rfl, ⟨rfl, rfl, rfl, rfl, rfl, rfl, rfl⟩⟩

/-- What holds of the verification links of a customer organization. -/
structure VerificationLinks (s : AccountScope) : Prop where
  customer : s.organization.kind = .customer
  one : ∀ {id token token'}, token ∈ s.tokens → token' ∈ s.tokens → ActionToken.Verifies token id →
    token'.Verifies id → token = token'
  unnamed : ∀ {id token u}, token ∈ s.tokens → ActionToken.Verifies token id →
    token.metadata.pendingEmail = "" → Table.get id s.users = some u → u.emailVerifiedAt = none

namespace VerificationLinks

/-- Issuing a link drops the other open link of the user. -/
theorem one_step (h : VerificationLinks s) (hstep : AccountStep r a s s') {token token' : ActionToken}
    (htoken : token ∈ s'.tokens) (htoken' : token' ∈ s'.tokens) (hopens : token.Verifies id)
    (hopens' : token'.Verifies id) : token = token' := by
  obtain hkept | ⟨new, hnew⟩ := hstep.openTokens
  · exact h.one (hkept token htoken hopens.2.2) (hkept token' htoken' hopens'.2.2) hopens hopens'
  · -- Of the two at most one is not the new link, and then it was dropped.
    have hdropped : ∀ {token : ActionToken}, new.Verifies id → token.Verifies id →
        token ∈ (dropTokens s new.userId new.kind).tokens → False := by
      intro token hnew htoken hmem
      have hfilter := (List.mem_filter.mp hmem).2
      rw [hnew.1, hnew.2.1] at hfilter
      simp [htoken.1, htoken.2.1, ActionToken.unused, htoken.2.2] at hfilter
    rw [hnew] at htoken htoken'
    obtain hold | hold := List.mem_append.mp htoken <;>
      obtain hold' | hold' := List.mem_append.mp htoken'
    · exact h.one (List.mem_of_mem_filter hold) (List.mem_of_mem_filter hold') hopens hopens'
    · obtain rfl := List.mem_singleton.mp hold'
      exact (hdropped hopens' hopens hold).elim
    · obtain rfl := List.mem_singleton.mp hold
      exact (hdropped hopens hopens' hold').elim
    · rw [List.mem_singleton.mp hold, List.mem_singleton.mp hold']

/-- While a link of the user is open the standing of its address is what it was. -/
theorem emailVerifiedAt_eq (h : VerificationLinks t.toAccountScope)
    (hr : t.handle sha r = .ok (t', a)) {token : ActionToken} (htoken : token ∈ t'.tokens)
    (hopens : token.Verifies id) {u u' : User} (hu : Table.get id t.users = some u)
    (hu' : Table.get id t'.users = some u') : u'.emailVerifiedAt = u.emailVerifiedAt := by
  obtain ⟨u₁, hget, huser⟩ := (handle_accounts hr).user hu
  obtain rfl : u₁ = u' := Option.some.inj (hget.symm.trans hu')
  obtain hsame | ⟨_, ctx, raw, reserved, rfl⟩ := huser.emailVerifiedAt h.customer
  · exact hsame
  · obtain ⟨spent, w, w', s₁, hc, hid, same⟩ := verifyEmail_consumed hr
    rw [same.users, putUser, hc.scope] at hu'
    obtain ⟨u₂, hget₂, hrow⟩ := get_putUser hu hc.found hid
    obtain rfl : u₂ = u₁ := Option.some.inj (hget₂.symm.trans hu')
    obtain rfl | ⟨rfl, rfl⟩ := hrow
    · rfl
    · -- The link was the user's only one, and it is used up.
      rw [same.tokens] at htoken
      obtain ⟨hold, hne⟩ := hc.open_mem htoken hopens.2.2
      have hspent : spent.Verifies id :=
        ⟨hc.owner.trans (Table.mem_of_get hu).2, hc.kind, hc.unused⟩
      exact absurd (congrArg ActionToken.id (h.one hold hc.mem hopens hspent)) hne

theorem step (h : VerificationLinks t.toAccountScope) (htables : AccountTables t.toAccountScope)
    (hr : t.handle sha r = .ok (t', a)) : VerificationLinks t'.toAccountScope := by
  have hstep := handle_accounts hr
  refine ⟨hstep.kind.trans h.customer, fun htoken htoken' => h.one_step hstep htoken htoken', ?_⟩
  intro id token u' htoken hopens hunnamed hu'
  cases hstep.token htoken with
  | kept token₀ mem _ _ _ same =>
      obtain rfl := same hopens.2.2
      obtain ⟨u, hmem, hkey⟩ := Table.mem_keys.mp (htables.tokenOwner token mem)
      have hu : Table.get id t.users = some u := by
        rw [← hopens.1, ← hkey]
        exact Table.get_of_mem htables.users hmem
      rw [h.emailVerifiedAt_eq hr htoken hopens hu hu']
      exact h.unnamed mem hopens hunnamed hu
  | issued u mem owner _ _ _ hissuance =>
      have hu : Table.get id t.users = some u := by
        rw [← hopens.1, owner]
        exact Table.get_of_mem htables.users mem
      rw [h.emailVerifiedAt_eq hr htoken hopens hu hu']
      cases hissuance with
      | reset kind _ _ =>
          rw [hopens.2.1] at kind
          cases kind
      | verification _ _ unverified => exact unverified
  | emailRequested email named _ _ _ _ _ _ _ _ metadata =>
      rw [metadata] at hunnamed
      exact absurd hunnamed named
  | temporary _ _ _ _ _ _ _ _ _ _ _ kind _ =>
      rw [hopens.2.1] at kind
      cases kind

theorem run (sha : Measurements.Sha256) (htables : AccountTables t.toAccountScope)
    (h : VerificationLinks t.toAccountScope) (rs : List Request) :
    AccountTables (run (Tenant.handle sha) t rs).toAccountScope ∧
      VerificationLinks (run (Tenant.handle sha) t rs).toAccountScope := by
  refine run_invariant (P := fun t : Tenant =>
    AccountTables t.toAccountScope ∧ VerificationLinks t.toAccountScope) ?_ rs ⟨htables, h⟩
  rintro t₁ r t₂ a ⟨h₁, hlinks⟩ hr
  exact ⟨h₁.step (handle_accounts hr), hlinks.step h₁ hr⟩

end VerificationLinks

/-! ## Members that stay shut out -/

/-- The member is not active, and no verification link for a first address opens for it. -/
structure ShutOut (id : Id) (s : AccountScope) : Prop where
  tables : AccountTables s
  links : VerificationLinks s
  user : ∃ u, Table.get id s.users = some u ∧ u.status ≠ .active ∧ u.pastVerification = true

/-- One request leaves the member out, unless it is an administrator's patch. -/
theorem UserStep.shutOut {u u' : User} (h : UserStep r s u u') (hlinks : VerificationLinks s)
    (hstatus : u.status ≠ .active) (hpast : u.pastVerification = true)
    (hrestores : restoresAccess r ≠ some u.id) :
    u'.status ≠ .active ∧ u'.pastVerification = true := by
  cases h with
  | same row => exact row ▸ ⟨hstatus, hpast⟩
  | rewritten h =>
      cases h with
      | patched actor ctx data request row _ _ =>
          refine ⟨?_, row ▸ hpast⟩
          rw [row, User.patched]
          cases hdata : data.status with
          | none => exact hstatus
          | some status =>
              rintro rfl
              rw [request] at hrestores
              simp [restoresAccess, hdata] at hrestores
      | removed actor ctx _ row _ => exact row ▸ ⟨by simp [User.removed], hpast⟩
      | profile _ row => exact row ▸ ⟨hstatus, hpast⟩
      | mfa _ _ _ row => exact row ▸ ⟨hstatus, hpast⟩
  | emailRequested _ _ row => exact row ▸ ⟨hstatus, hpast⟩
  | regenerated _ _ _ _ _ row => exact row ▸ ⟨hstatus, hpast⟩
  | emailChanged ctx _ row => exact row ▸ ⟨hstatus, by simp [User.pastVerification, User.withEmail]⟩
  | emailVerified ctx raw _ _ token _ hc unnamed _ =>
      -- The account is no staff account, so its address is proven; such a link is not open.
      have hverified : u.emailVerifiedAt ≠ none := by
        simpa [User.pastVerification_iff, hc.notStaff, hc.notSuperuser] using hpast
      exact absurd (hlinks.unnamed hc.mem ⟨hc.owner, hc.kind, hc.unused⟩ unnamed hc.found) hverified
  | signedIn _ row => exact row ▸ ⟨hstatus, hpast⟩
  | completed _ _ _ _ _ _ _ _ row => exact row ▸ ⟨hstatus, hpast⟩
  | passwordReset _ _ _ _ _ _ _ _ row =>
      obtain row | ⟨hplatform, _⟩ := row
      · exact row ▸ ⟨hstatus, hpast⟩
      · rw [hlinks.customer] at hplatform
        cases hplatform
  | passwordChanged _ _ _ _ _ _ _ _ _ _ row => exact row ▸ ⟨hstatus, hpast⟩

theorem ShutOut.step (h : ShutOut id t.toAccountScope) (hr : t.handle sha r = .ok (t', a))
    (hrestores : restoresAccess r ≠ some id) : ShutOut id t'.toAccountScope := by
  have hstep := handle_accounts hr
  obtain ⟨u, hu, hstatus, hpast⟩ := h.user
  obtain ⟨u', hu', huser⟩ := hstep.user hu
  have hid : u.id = id := (Table.mem_of_get hu).2
  exact ⟨h.tables.step hstep, h.links.step h.tables hr, u', hu',
    huser.shutOut h.links hstatus hpast (hid ▸ hrestores)⟩

theorem ShutOut.run (sha : Measurements.Sha256) (h : ShutOut id t.toAccountScope)
    {rs : List Request} (hrestores : ∀ r ∈ rs, restoresAccess r ≠ some id) :
    ShutOut id (run (Tenant.handle sha) t rs).toAccountScope := by
  refine run_invariant_along (P := fun t : Tenant => ShutOut id t.toAccountScope)
    (C := fun _ r => restoresAccess r ≠ some id) ?_ rs (along_of_forall t hrestores) h
  intro t₁ r t₂ a h₁ hr hok
  exact h₁.step hok hr

/-- What an accepted decision did to its member. -/
theorem decided_eq_ok (hrevokes : revokesAccess r = some id) (hr : t.handle sha r = .ok (t', a)) :
    ∃ u u', Table.get id t.users = some u ∧ u'.id = u.id ∧ u'.status ≠ .active ∧
      u'.pastVerification = u.pastVerification ∧ t'.users = Table.put u' t.users := by
  unfold revokesAccess at hrevokes
  split at hrevokes
  · rename_i actor ctx userId data
    split at hrevokes
    · rename_i hdata
      obtain rfl := Option.some.inj hrevokes
      simp only [Tenant.handle, UserOp.handle, patchUser, bind_eq_ok, pure_eq_ok, Prod.exists,
        Prod.mk.injEq] at hr
      obtain ⟨_, _, s', response, ⟨s₁, _, ⟨_, _, u, hu, _, _, _, _, rfl, _⟩, rfl, _⟩, rfl, _⟩ := hr
      obtain ⟨found, rfl⟩ := getUser_eq_ok hu
      refine ⟨u, u.patched data, found, rfl, ?_, rfl, ?_⟩
      · simp [User.patched, hdata]
      · simp only [AccountScope.bumpRevision]
        split <;> rfl
    · cases hrevokes
  · rename_i actor ctx userId
    obtain rfl := Option.some.inj hrevokes
    simp only [Tenant.handle, UserOp.handle, removeUser, bind_eq_ok, pure_eq_ok, Prod.exists,
      Prod.mk.injEq] at hr
    obtain ⟨_, _, s', response, ⟨s₁, ⟨u, hu, _, _, _, _, _, _, rfl⟩, rfl, _⟩, rfl, _⟩ := hr
    obtain ⟨found, rfl⟩ := getUser_eq_ok hu
    exact ⟨u, u.removed ctx, found, rfl, by simp [User.removed], rfl, rfl⟩
  · cases hrevokes

/-- A decision on a member past its verification shuts it out. -/
theorem ShutOut.ofDecision (htables : AccountTables t.toAccountScope)
    (hlinks : VerificationLinks t.toAccountScope) (hrevokes : revokesAccess r = some id)
    (hr : t.handle sha r = .ok (t', a))
    (hpast : ∀ u, Table.get id t.users = some u → u.pastVerification = true) :
    ShutOut id t'.toAccountScope := by
  obtain ⟨u, u', hu, hid, hstatus, hsame, husers⟩ := decided_eq_ok hrevokes hr
  refine ⟨htables.step (handle_accounts hr), hlinks.step htables hr, u', ?_, hstatus, ?_⟩
  · have hkey : u'.id = id := hid.trans (Table.mem_of_get hu).2
    rw [husers, ← hkey]
    refine Table.get_put_self (b := u) ?_
    show Table.get u'.id t.users = some u
    rw [hkey]
    exact hu
  · rw [hsame]
    exact hpast u hu

/-- **The decision on a verified member is final.**  An administrator suspends or removes a
member whose address is proven, or a staff account.  No sequence of requests of whatever
kind makes it active again, an administrator's own patch apart.

A request is one step of these runs.  The late `resendVerification` of `Accounts.InFlight`,
which selects the account before the decision and writes its token after it, is two half
requests, and not in them. -/
theorem access_decision_final (sha : Measurements.Sha256) {t : Tenant}
    (htables : AccountTables t.toAccountScope) (hlinks : VerificationLinks t.toAccountScope)
    (past : List Request) {r : Request} {id : Id} (hdecides : revokesAccess r = some id)
    (haccepted : ((run (Tenant.handle sha) t past).handle sha r).isOk = true)
    (hverified : ∀ u, Table.get id (run (Tenant.handle sha) t past).users = some u →
      u.emailVerifiedAt ≠ none ∨ u.isStaff = true ∨ u.isSuperuser = true)
    {rs : List Request} (hrestores : ∀ r ∈ rs, restoresAccess r ≠ some id) :
    ∃ u, Table.get id (run (Tenant.handle sha) t (past ++ r :: rs)).users = some u ∧
      u.status ≠ .active := by
  obtain ⟨hpastTables, hpastLinks⟩ := hlinks.run sha htables past
  obtain ⟨a, hr⟩ := exists_ok_serve _ haccepted
  have hdecided := ShutOut.ofDecision hpastTables hpastLinks hdecides hr fun u hu =>
    User.pastVerification_iff.mpr (hverified u hu)
  rw [run_append, run_cons]
  obtain ⟨u, hu, hstatus, _⟩ := (hdecided.run sha hrestores).user
  exact ⟨u, hu, hstatus⟩

/-- The sample organization has no verification link. -/
theorem sample_verificationLinks : VerificationLinks Sample.tenant.toAccountScope where
  customer := by decide
  one := fun htoken => by simp [Sample.tenant] at htoken
  unnamed := fun htoken => by simp [Sample.tenant] at htoken

/-- The second administrator, whose address is proven, is suspended: asking for a link and
presenting it leads nowhere. -/
theorem access_decision_final_verified :
    ∃ u, Table.get 2 (run (Tenant.handle Sample.sha) Sample.tenant ([] ++
      .users 1 (Sample.ctx 1) (.patchUser 2 { status := some .suspended }) :: [
        .auth (Sample.ctx 2) (.resendVerification "bola" "link-1" false),
        .auth (Sample.ctx 3) (.verifyEmail "link-1" false)])).users = some u ∧
      u.status ≠ .active := by
  refine access_decision_final Sample.sha sample_accountTables sample_verificationLinks []
    (by decide) (by decide +kernel) ?_ (by decide)
  intro u hu
  have hsome : some (Sample.admin 2 "bola") = some u := hu
  rw [← Option.some.inj hsome]
  exact .inl (by decide)

/-- A provisioned member has not proven its address.  It is suspended, asks for a link
itself, presents it and is active again. -/
theorem suspended_member_reactivated :
    ∃ past r rs, revokesAccess r = some 10000 ∧
      ((run (Tenant.handle Sample.sha) Sample.tenant past).handle Sample.sha r).isOk = true ∧
      (∀ r ∈ rs, restoresAccess r ≠ some 10000) ∧
      (Table.get 10000 (run (Tenant.handle Sample.sha) Sample.tenant
        (past ++ r :: rs)).users).map User.status = some .active := by
  refine ⟨[Sample.provision],
    .users 1 (Sample.ctx 2) (.patchUser 10000 { status := some .suspended }), [
      .auth (Sample.ctx 3) (.resendVerification "chidi" "link-1" false),
      .auth (Sample.ctx 4) (.verifyEmail "link-1" false)], ?_, ?_, ?_, ?_⟩
  · decide
  · decide +kernel
  · decide
  · decide +kernel

end VesselCaller.Accounts
