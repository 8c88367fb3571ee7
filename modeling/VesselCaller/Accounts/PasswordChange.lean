import VesselCaller.Accounts.TemporaryPasswords

/-!
# What a changed password ends

A reset or a change of the password revokes the account's sessions; the session that
changes the password goes on under a new key.  From there on every session of the
account can be traced back: to that session, to a login that proved the password the
account had by then, or to such a login through the MFA challenge it was answered with.

Neither request closes the challenges the old password has opened, so this holds only
where none of them was open.

## Main definitions

* `Proves` — the requests that present the password stored at the time;
* `Opens`, `LeftByLogin` — the session and the challenge such a request leaves;
* `Earned` — a session of the run that goes back to the new password;
* `Renewed` — what holds of the account from the change on.
-/

namespace VesselCaller.Accounts

open Lib

variable {sha : Measurements.Sha256} {t t' : Tenant} {s s' : AccountScope} {ctx : Ctx}
  {r : Request} {a : VesselCaller.Response} {id : Id}

/-- The context a request comes with. -/
def requestCtx : Request → Ctx
  | .measurements _ ctx _ => ctx
  | .portal ctx _ => ctx
  | .operations _ ctx _ => ctx
  | .billing _ ctx _ => ctx
  | .organizations _ ctx _ => ctx
  | .users _ ctx _ => ctx
  | .auth ctx _ => ctx

/-- The account whose password a request resets or changes. -/
def replacesPassword (s : AccountScope) : Request → Option Id
  | .auth _ (.resetPassword raw _) => tokenOwner s raw .resetPassword
  | .auth _ (.changePassword session _ _ _) =>
      (Table.get session s.sessions).map UserSession.userId
  | _ => none

/-- The key under which the session that changes a password goes on. -/
def continues : Request → Option Id
  | .auth ctx (.changePassword _ _ _ _) => some (ctx.uuid 12)
  | _ => none

/-- A challenge that a right code would still meet. -/
def MFAChallenge.isOpen (c : MFAChallenge) (now : Instant) : Prop :=
  c.usedAt = none ∧ now < c.expiresAt ∧ c.attempts < 5

instance (c : MFAChallenge) (now : Instant) : Decidable (c.isOpen now) :=
  inferInstanceAs (Decidable (_ ∧ _ ∧ _))

/-! ## Sessions that a proven password has earned -/

/-- The request is accepted with the answer `a` and proves the password the account has. -/
def Proves (sha : Measurements.Sha256) (t : Tenant) (id : Id) (r : Request)
    (a : VesselCaller.Response) : Prop :=
  ∃ t' password u, t.handle sha r = .ok (t', a) ∧ offeredPassword r = some password ∧
    Table.get id t.users = some u ∧ u.password.check password = true

/-- The challenge was left by a login of the history that proved the account's password. -/
def LeftByLogin (sha : Measurements.Sha256) (t : Tenant) (id : Id) (past : List Request)
    (challenge : Id) : Prop :=
  ∃ before login after, past = before ++ login :: after ∧
    Proves sha (run (Tenant.handle sha) t before) id login (.accounts (.mfaRequired challenge))

/-- The request opens the session `key` of the account: nobody had it before, the account has
it afterwards. -/
def Opens (sha : Measurements.Sha256) (t : Tenant) (id : Id) (r : Request) (key : Id) : Prop :=
  key ∉ Table.keys t.sessions ∧
    ∃ k ∈ (serve (Tenant.handle sha) t r).sessions, k.sessionKey = key ∧ k.userId = id

/-- What the session `key` owes its being there to, after the history: it goes on from the
session `kept` of the state the history starts from, or a request of the history opened it on
the strength of the password the account had by then, and it has been there ever since. -/
inductive Earned (sha : Measurements.Sha256) (t : Tenant) (id : Id) (kept : Option Id) :
    List Request → Id → Prop
  | kept {key : Id} (h : kept = some key) : Earned sha t id kept [] key
  | stays {past : List Request} {r : Request} {key : Id} (h : Earned sha t id kept past key)
      (before : key ∈ Table.keys (run (Tenant.handle sha) t past).sessions)
      (after : key ∈ Table.keys (run (Tenant.handle sha) t (past ++ [r])).sessions) :
      Earned sha t id kept (past ++ [r]) key
  | login {past : List Request} {r : Request} {a : VesselCaller.Response} {key : Id}
      (h : Proves sha (run (Tenant.handle sha) t past) id r a)
      (opens : Opens sha (run (Tenant.handle sha) t past) id r key) :
      Earned sha t id kept (past ++ [r]) key
  | mfa {past : List Request} {ctx : Ctx} {attempt : MfaAttempt} {key : Id}
      (h : LeftByLogin sha t id past attempt.challenge)
      (opens : Opens sha (run (Tenant.handle sha) t past) id (.auth ctx (.verifyMfa attempt)) key) :
      Earned sha t id kept (past ++ [.auth ctx (.verifyMfa attempt)]) key
  | rotated {past : List Request} {ctx : Ctx} {session : Id} {current : String}
      {password : NewPassword} {recentMfa : Bool} {key : Id}
      (h : Earned sha t id kept past session)
      (opens : Opens sha (run (Tenant.handle sha) t past) id
        (.auth ctx (.changePassword session current password recentMfa)) key) :
      Earned sha t id kept
        (past ++ [.auth ctx (.changePassword session current password recentMfa)]) key

theorem LeftByLogin.concat {past : List Request} {challenge : Id}
    (h : LeftByLogin sha t id past challenge) (r : Request) :
    LeftByLogin sha t id (past ++ [r]) challenge := by
  obtain ⟨before, login, after, rfl, hproves⟩ := h
  exact ⟨before, login, after ++ [r], by simp, hproves⟩

theorem concat_eq_singleton {α : Type} {past : List α} {x y : α} (h : past ++ [x] = [y]) :
    past = [] ∧ x = y := by
  obtain ⟨hpast, hlast⟩ := List.append_inj' (show past ++ [x] = [] ++ [y] from h) rfl
  exact ⟨hpast, (List.cons.inj hlast).1⟩

/-- Nothing is earned yet when nothing has been requested. -/
theorem Earned.not_nil {past : List Request} {key : Id} (h : Earned sha t id none past key) :
    past ≠ [] := by
  cases h with
  | kept h => cases h
  | stays _ _ _ => simp
  | login _ _ => simp
  | mfa _ _ => simp
  | rotated _ _ => simp

/-- The first request that earns a session without one to go on from is a login. -/
theorem Earned.one {key : Id} (h : Earned sha t id none [r] key) : ∃ a, Proves sha t id r a := by
  generalize hpast : [r] = past at h
  cases h with
  | kept h => cases h
  | stays h _ _ => exact absurd (concat_eq_singleton hpast.symm).1 h.not_nil
  | login h _ =>
      obtain ⟨rfl, rfl⟩ := concat_eq_singleton hpast.symm
      exact ⟨_, h⟩
  | mfa h _ =>
      obtain ⟨rfl, rfl⟩ := concat_eq_singleton hpast.symm
      obtain ⟨before, _, _, hnil, _⟩ := h
      simp at hnil
  | rotated h _ => exact absurd (concat_eq_singleton hpast.symm).1 h.not_nil

/-- What the history after a change of the password at `now` has left of the account. -/
structure Renewed (sha : Measurements.Sha256) (t : Tenant) (id : Id) (kept : Option Id)
    (now : Instant) (past : List Request) (s : AccountScope) : Prop where
  tables : AccountTables s
  settled : ∃ u, Table.get id s.users = some u ∧ u.passwordChangeRequired = false
  challenges : ∀ c ∈ s.challenges, c.userId = id → c.isOpen now →
    LeftByLogin sha t id past c.id
  sessions : ∀ k ∈ s.sessions, k.userId = id → k.revokedAt = none →
    Earned sha t id kept past k.sessionKey

theorem Renewed.refused {kept : Option Id} {now : Instant} {past : List Request} {e : ApiError}
    (h : Renewed sha t id kept now past (run (Tenant.handle sha) t past).toAccountScope)
    (hr : (run (Tenant.handle sha) t past).handle sha r = .error e) :
    Renewed sha t id kept now (past ++ [r])
      (run (Tenant.handle sha) t past).toAccountScope where
  tables := h.tables
  settled := h.settled
  challenges := fun c hc howner hopen => (h.challenges c hc howner hopen).concat r
  sessions := by
    intro k hk howner hlive
    have hkey : k.sessionKey ∈ Table.keys (run (Tenant.handle sha) t past).sessions :=
      Table.mem_keys.mpr ⟨k, hk, rfl⟩
    refine .stays (h.sessions k hk howner hlive) hkey ?_
    rw [run_concat, serve_of_error _ hr]
    exact hkey

/-- A completion is not for an account that has chosen its password. -/
theorem Renewed.notCompleted {kept : Option Id} {now : Instant} {past : List Request}
    {s₁ : AccountScope} {raw chosen : String} {token : ActionToken} {u : User}
    (h : Renewed sha t id kept now past s) (hc : Completed ctx s s₁ raw chosen token u) :
    u.id ≠ id := by
  rintro rfl
  obtain ⟨w, hw, hsettled⟩ := h.settled
  rw [hc.found, Option.some.injEq] at hw
  rw [← hw, hc.pending] at hsettled
  exact Bool.false_ne_true hsettled.symm

theorem Renewed.accepted {kept : Option Id} {now : Instant} {past : List Request} {t₁ : Tenant}
    (h : Renewed sha t id kept now past (run (Tenant.handle sha) t past).toAccountScope)
    (hnow : now ≤ (requestCtx r).now)
    (hr : (run (Tenant.handle sha) t past).handle sha r = .ok (t₁, a)) :
    Renewed sha t id kept now (past ++ [r]) t₁.toAccountScope := by
  have hstep := handle_accounts hr
  obtain ⟨u, hu, hsettled⟩ := h.settled
  obtain ⟨u', hu', huser⟩ := hstep.user hu
  refine ⟨h.tables.step hstep, ⟨u', hu', huser.settled hsettled⟩, ?_, ?_⟩
  · intro c hc howner hopen
    cases hstep.challenge hc with
    | kept c₀ mem hid user expiresAt attempts unused =>
        have hopen₀ : c₀.isOpen now :=
          ⟨unused hopen.1, expiresAt ▸ hopen.2.1, attempts.trans_lt hopen.2.2⟩
        rw [hid]
        exact (h.challenges c₀ mem (user ▸ howner) hopen₀).concat r
    | login ctx op request password offers w found _ proven response _ user =>
        refine ⟨past, r, [], rfl, t₁, password, w, response ▸ hr, ?_, ?_, proven⟩
        · rw [request]
          exact offers
        · rw [← howner, user]
          exact found
    | completed _ _ _ _ _ w _ hcompleted _ _ user =>
        exact absurd (user ▸ howner) (h.notCompleted hcompleted)
  · intro k hk howner hlive
    have hserve : serve (Tenant.handle sha) (run (Tenant.handle sha) t past) r = t₁ :=
      serve_of_ok _ hr
    -- A session with a fresh key is one this request has opened.
    have hopens (hfresh : k.sessionKey ∉ Table.keys (run (Tenant.handle sha) t past).sessions) :
        Opens sha (run (Tenant.handle sha) t past) id r k.sessionKey :=
      ⟨hfresh, k, hserve.symm ▸ hk, rfl, howner⟩
    cases hstep.session hk with
    | kept k₀ mem _ _ live =>
        obtain rfl := live hlive
        refine .stays (h.sessions k mem howner hlive) (Table.mem_keys.mpr ⟨k, mem, rfl⟩) ?_
        rw [run_concat, hserve]
        exact Table.mem_keys.mpr ⟨k, hk, rfl⟩
    | login ctx op request password offers w found _ proven fresh user =>
        refine .login ⟨t₁, password, w, hr, ?_, ?_, proven⟩ (hopens fresh)
        · rw [request]
          exact offers
        · rw [← howner, user]
          exact found
    | completed _ _ _ _ _ w _ hcompleted _ user =>
        exact absurd (user ▸ howner) (h.notCompleted hcompleted)
    | mfa ctx attempt request c found unused timely budget w owner _ _ fresh user =>
        subst request
        have hc := Table.mem_of_get found
        have hid : c.id = attempt.challenge := hc.2
        have hopen : c.isOpen now := ⟨unused, hnow.trans_lt timely, budget⟩
        exact .mfa (hid ▸ h.challenges c hc.1 (by rw [owner, ← user, howner]) hopen)
          (hopens fresh)
    | changed ctx session current password recentMfa request w _ _ k₀ mem own fresh _ user =>
        subst request
        obtain ⟨rfl, huser, husable⟩ := own
        refine .rotated (h.sessions k₀ mem (by rw [huser, ← user, howner]) ?_) (hopens fresh)
        simp only [UserSession.usable, Bool.and_eq_true, Option.isNone_iff_eq_none] at husable
        exact husable.1

theorem Renewed.run {kept : Option Id} {now : Instant}
    (h : Renewed sha t id kept now [] t.toAccountScope) {rs : List Request}
    (hclock : ∀ r ∈ rs, now ≤ (requestCtx r).now) :
    Renewed sha t id kept now rs (run (Tenant.handle sha) t rs).toAccountScope := by
  refine run_history (P := fun past (t' : Tenant) => (∀ r ∈ past, now ≤ (requestCtx r).now) →
    Renewed sha t id kept now past t'.toAccountScope) (fun _ => h) ?_ ?_ rs hclock
  · intro past r e hpast hr hclock
    exact (hpast fun r' hr' => hclock r' (List.mem_append_left _ hr')).refused hr
  · intro past r t₁ a hpast hr hclock
    exact (hpast fun r' hr' => hclock r' (List.mem_append_left _ hr')).accepted
      (hclock r (List.mem_append_right _ List.mem_cons_self)) hr

/-! ## The change itself -/

theorem PasswordReset.renewed {raw chosen : String} {u : User}
    (hreset : PasswordReset ctx s t.toAccountScope raw chosen u) (h : AccountTables t.toAccountScope)
    (hclosed : ∀ c ∈ s.challenges, c.userId = u.id → ¬c.isOpen ctx.now) :
    Renewed sha t u.id none ctx.now [] t.toAccountScope := by
  obtain ⟨⟨token, s₁, hconsumed, u', row, same⟩, settled⟩ := hreset
  have hsame : s₁.challenges = s.challenges := by rw [hconsumed.scope]
  have hu' : u'.id = u.id ∧ u'.passwordChangeRequired = false := by
    obtain rfl | ⟨_, rfl⟩ := row <;> exact ⟨rfl, settled⟩
  refine ⟨h, ⟨u', ?_, hu'.2⟩, ?_, ?_⟩
  · rw [same.users, ← hu'.1]
    refine Table.get_put_self (a := u') (b := u) ?_
    show Table.get u'.id s₁.users = some u
    rw [hconsumed.scope, hu'.1]
    exact hconsumed.found
  · rw [same.challenges]
    exact fun c hc howner hopen => absurd hopen (hclosed c (hsame ▸ hc) howner)
  · rw [same.sessions]
    intro k hk howner hlive
    exact absurd (revokeSessions_spared hk howner hlive) (Option.some_ne_none _)

theorem PasswordChanged.renewed {session : Id} {chosen : String} {u : User}
    (hchanged : PasswordChanged ctx s t.toAccountScope session chosen u)
    (h : AccountTables t.toAccountScope)
    (hclosed : ∀ c ∈ s.challenges, c.userId = u.id → ¬c.isOpen ctx.now) :
    Renewed sha t u.id (some (ctx.uuid 12)) ctx.now [] t.toAccountScope := by
  obtain ⟨found, active, _, _, k', row, same⟩ := hchanged
  refine ⟨h, ⟨u.withPassword ctx chosen, ?_, User.isActive_settled active⟩, ?_, ?_⟩
  · rw [same.users]
    exact Table.get_put_self (a := u.withPassword ctx chosen) found
  · rw [same.challenges]
    exact fun c hc howner hopen => absurd hopen (hclosed c hc howner)
  · rw [same.sessions]
    intro k hk howner hlive
    obtain hk | hk := List.mem_append.mp hk
    · -- The only session that was spared has been deleted.
      obtain ⟨hmem, hother⟩ := List.mem_filter.mp hk
      have hspared := Option.some.inj (revokeSessions_spared hmem howner hlive)
      simp [hspared, howner] at hother
    · rw [List.mem_singleton.mp hk]
      exact .kept (congrArg some row.1.symm)

/-- **A changed password ends what the old one has opened**, if no challenge of the account
was open when it changed.  Whatever is requested afterwards, a session of the account that
is not revoked was earned by a login that proved the password of its own time, directly
or through the challenge it was answered with, or goes on from the session that changed
the password. -/
theorem changed_password_ends_logins (sha : Measurements.Sha256) {t t₁ : Tenant} {r : Request}
    {a : VesselCaller.Response} {id : Id} (htables : AccountTables t.toAccountScope)
    (hid : replacesPassword t.toAccountScope r = some id) (hr : t.handle sha r = .ok (t₁, a))
    (hclosed : ∀ c ∈ t.challenges, c.userId = id → ¬c.isOpen (requestCtx r).now)
    {rs : List Request} (hclock : ∀ r' ∈ rs, (requestCtx r).now ≤ (requestCtx r').now) :
    ∀ k ∈ (run (Tenant.handle sha) t₁ rs).sessions, k.userId = id → k.revokedAt = none →
      Earned sha t₁ id (continues r) rs k.sessionKey := by
  have htables₁ := htables.step (handle_accounts hr)
  suffices hrenewed : Renewed sha t₁ id (continues r) (requestCtx r).now [] t₁.toAccountScope from
    (hrenewed.run hclock).sessions
  unfold replacesPassword at hid
  split at hid
  · rename_i ctx raw password
    simp only [Tenant.handle, AuthOp.handle, bind_eq_ok, pure_eq_ok, Prod.exists,
      Prod.mk.injEq] at hr
    obtain ⟨_, _, hservice, rfl, _⟩ := hr
    obtain ⟨u, hreset⟩ := resetPassword_eq_ok hservice
    obtain ⟨token, _, hconsumed, _⟩ := hreset.consumed
    have howner := tokenOwner_of_mem htables hconsumed.mem hconsumed.hash hconsumed.unused
    rw [hconsumed.kind, hid, hconsumed.owner, Option.some.injEq] at howner
    subst howner
    exact hreset.renewed htables₁ hclosed
  · rename_i ctx session current password recentMfa
    simp only [Tenant.handle, AuthOp.handle, bind_eq_ok, pure_eq_ok, Prod.exists,
      Prod.mk.injEq] at hr
    obtain ⟨_, _, hservice, rfl, _⟩ := hr
    obtain ⟨u, hchanged⟩ := changePassword_eq_ok hservice
    obtain ⟨k, hk, hkey, howner, _⟩ := hchanged.own
    have hget : Table.get session t.sessions = some k := hkey ▸ Table.get_of_mem htables.sessions hk
    rw [hget, Option.map_some, howner, Option.some.injEq] at hid
    subst hid
    exact hchanged.renewed htables₁ hclosed
  · cases hid

/-- After a reset the administrator signs in with the new password and the second factor. -/
theorem changed_password_ends_logins_reset :
    let t := run (Tenant.handle Sample.sha) Sample.tenant Sample.enrolled
    let t₁ := serve (Tenant.handle Sample.sha) t Sample.reset
    let rs : List Request := [
      .auth (Sample.ctx 6) (.login "ada" "staple tugboat 99" "" none false),
      Sample.verify 7 60011]
    ((run (Tenant.handle Sample.sha) t₁ rs).sessions.map fun k => (k.sessionKey, k.revokedAt)) =
      [(10012, some (Sample.ctx 5).now), (70012, none)] ∧
      Earned Sample.sha t₁ 1 none rs 70012 := by
  intro t t₁ rs
  have htables : AccountTables t.toAccountScope := sample_accountTables.run Sample.enrolled
  obtain ⟨a, hreset⟩ : ∃ a, t.handle Sample.sha Sample.reset = .ok (t₁, a) :=
    exists_ok_serve _ (by decide +kernel)
  have hsession : (⟨70012, 1, (Sample.ctx 7).now + sessionAbsoluteAge, none⟩ : UserSession) ∈
      (run (Tenant.handle Sample.sha) t₁ rs).sessions := by decide +kernel
  have hid : replacesPassword t.toAccountScope Sample.reset = some 1 := by decide +kernel
  have hclosed : ∀ c ∈ t.challenges, c.userId = 1 → ¬c.isOpen (requestCtx Sample.reset).now := by
    decide +kernel
  refine ⟨by decide +kernel, ?_⟩
  exact changed_password_ends_logins Sample.sha htables hid hreset hclosed (by decide +kernel) _
    hsession rfl rfl

/-- A login that proved the old password is answered with a challenge, the password is
reset, and the challenge still opens a session. -/
theorem old_login_outlives_reset :
    let t := run (Tenant.handle Sample.sha) Sample.tenant (Sample.enrolled ++ [Sample.oldLogin])
    let t₁ := serve (Tenant.handle Sample.sha) t Sample.reset
    let rs := [Sample.verify 6 40011]
    replacesPassword t.toAccountScope Sample.reset = some 1 ∧
      (t.handle Sample.sha Sample.reset).isOk = true ∧
      ¬∀ k ∈ (run (Tenant.handle Sample.sha) t₁ rs).sessions, k.userId = 1 →
        k.revokedAt = none →
        Earned Sample.sha t₁ 1 (continues Sample.reset) rs k.sessionKey := by
  intro t t₁ rs
  refine ⟨by decide +kernel, by decide +kernel, fun hall => ?_⟩
  have hsession : (⟨60012, 1, (Sample.ctx 6).now + sessionAbsoluteAge, none⟩ : UserSession) ∈
      (run (Tenant.handle Sample.sha) t₁ rs).sessions := by decide +kernel
  obtain ⟨_, _, _, _, _, hoffers, _⟩ := (hall _ hsession rfl rfl).one
  cases hoffers

end VesselCaller.Accounts
