import VesselCaller.Accounts.TemporaryPasswords

/-!
# Counting the attempts at a second factor

`MFAVerifyView` counts an attempt before it looks at the code, in a transaction of its
own, so that the count outlives the error it answers with.  The dispatcher of the view
wraps the whole request in a transaction when the browser carries a customer's session,
and rolls it back when the answer is an error.

`judgedUser` is the account whose code a request gets to check, `findsWrong` says that
the check fails.  The count goes up exactly when no customer's session is carried; and
in a run of such requests a challenge is good for five checks.

## Main definitions

* `Judged` — an attempt whose code is looked at;
* `wrongCode`, `findsWrong` — the attempts that ought to count;
* `Counts` — the count goes up; `ChecksCounted` — at most five checks, and none uncounted.
-/

namespace VesselCaller.Accounts

open Lib

variable {sha : Measurements.Sha256} {t t' : Tenant} {s s' : AccountScope} {ctx : Ctx}
  {attempt : MfaAttempt} {c : MFAChallenge} {u : User}

/-! ## Which codes are checked -/

/-- The account whose code the request checks, once every guard before the check is passed. -/
def judgedUser (s : AccountScope) (ctx : Ctx) (attempt : MfaAttempt) : Option User :=
  if attempt.throttled || attempt.blocked || s.organization.accessStatus ≠ .active then none
  else
    ((Table.get attempt.challenge s.challenges).filter fun c =>
      c.usedAt.isNone && decide (ctx.now < c.expiresAt) && decide (c.attempts < 5)).bind fun c =>
    (Table.get c.userId s.users).filter fun u => u.isActive s.organization

/-- The code is neither the account's TOTP code nor one of its recovery codes. -/
def wrongCode (s : AccountScope) (ctx : Ctx) (attempt : MfaAttempt) (u : User) : Bool :=
  !verifyTotp u attempt.totp && (useRecoveryCode s ctx u.id attempt.code).isNone

/-- The request checks a code against the challenge. -/
def evaluatesCode (challenge : Id) (t : Tenant) : Request → Bool
  | .auth ctx (.verifyMfa attempt) =>
      attempt.challenge = challenge && (judgedUser t.toAccountScope ctx attempt).isSome
  | _ => false

/-- The request checks a code against the challenge and finds it wrong. -/
def findsWrong (challenge : Id) (t : Tenant) : Request → Bool
  | .auth ctx (.verifyMfa attempt) =>
      attempt.challenge = challenge &&
        (judgedUser t.toAccountScope ctx attempt).any (wrongCode t.toAccountScope ctx attempt)
  | _ => false

/-- The browser of the verification request carries a customer's session. -/
def carriesCustomerSession : Request → Bool
  | .auth _ (.verifyMfa attempt) => attempt.customerSession
  | _ => false

/-- The stored count of a challenge. -/
def storedAttempts (challenge : Id) (s : AccountScope) : Option ℕ :=
  (Table.get challenge s.challenges).map MFAChallenge.attempts

/-- A request that gets as far as the check of its code. -/
structure Judged (s : AccountScope) (ctx : Ctx) (attempt : MfaAttempt) (c : MFAChallenge)
    (u : User) : Prop where
  unthrottled : attempt.throttled = false
  unblocked : attempt.blocked = false
  access : s.organization.accessStatus = .active
  found : Table.get attempt.challenge s.challenges = some c
  unused : c.usedAt = none
  timely : ctx.now < c.expiresAt
  budget : c.attempts < 5
  user : Table.get c.userId s.users = some u
  active : u.isActive s.organization = true

theorem judgedUser_eq_some : judgedUser s ctx attempt = some u ↔ ∃ c, Judged s ctx attempt c u := by
  unfold judgedUser
  constructor
  · intro h
    split at h
    · cases h
    · rename_i hopen
      simp only [Bool.or_eq_true, decide_eq_true_eq, not_or, Bool.not_eq_true, not_not] at hopen
      obtain ⟨c, hc, hu⟩ := Option.bind_eq_some_iff.mp h
      obtain ⟨hfound, hguard⟩ := Option.filter_eq_some_iff.mp hc
      obtain ⟨huser, hactive⟩ := Option.filter_eq_some_iff.mp hu
      simp only [Bool.and_eq_true, Option.isNone_iff_eq_none, decide_eq_true_eq] at hguard
      exact ⟨c, hopen.1.1, hopen.1.2, hopen.2, hfound, hguard.1.1, hguard.1.2, hguard.2, huser,
        hactive⟩
  · rintro ⟨c, h⟩
    rw [if_neg (by simp [h.unthrottled, h.unblocked, h.access])]
    refine Option.bind_eq_some_iff.mpr ⟨c, ?_, ?_⟩
    · exact Option.filter_eq_some_iff.mpr ⟨h.found, by simp [h.unused, h.timely, h.budget]⟩
    · exact Option.filter_eq_some_iff.mpr ⟨h.user, h.active⟩

namespace Judged

/-- The challenge with this attempt counted, and the scope with it. -/
def counted (c : MFAChallenge) : MFAChallenge := { c with attempts := c.attempts + 1 }

/-- The view counts the attempt, and judges the code after it. -/
theorem verifyMfa_eq (h : Judged s ctx attempt c u) : verifyMfa s ctx attempt = (do
    match ← judgeMfaAttempt { s with challenges := Table.put (counted c) s.challenges } ctx
      (counted c) u attempt with
    | (s, .ok response) => return (s, response)
    | (s, .error e) => do
        raiseIf (attempt.customerSession = true) e
        return (s, .failed e)) := by
  have hopen : (Table.get attempt.challenge s.challenges).filter (fun c => c.usedAt.isNone) =
      some c := Option.filter_eq_some_iff.mpr ⟨h.found, by simp [h.unused]⟩
  have hbudget : ¬(c.expiresAt ≤ ctx.now ∨ 5 ≤ c.attempts) :=
    not_or.mpr ⟨not_le.mpr h.timely, not_le.mpr h.budget⟩
  rw [verifyMfa, raiseIf_of_not (by simp [h.unthrottled]), ok_bind, orRaise_of_some hopen, ok_bind,
    raiseIf_of_not (by simp [h.access]), ok_bind, raiseIf_of_not hbudget, ok_bind,
    raiseIf_of_not (by simp [h.unblocked]), ok_bind]
  dsimp only
  rw [orRaise_of_some (a := u) h.user, ok_bind]
  rfl

/-- A wrong code: the count goes up, and the answer is an error.  A customer's transaction
takes both back. -/
theorem verifyMfa_wrong (h : Judged s ctx attempt c u)
    (hwrong : wrongCode s ctx attempt u = true) : verifyMfa s ctx attempt =
      if attempt.customerSession then .error (.unauthorized "Invalid authentication code")
      else .ok ({ s with challenges := Table.put (counted c) s.challenges },
        .failed (.unauthorized "Invalid authentication code")) := by
  simp only [wrongCode, Bool.and_eq_true, Bool.not_eq_true', Option.isNone_iff_eq_none] at hwrong
  have hjudge : judgeMfaAttempt { s with challenges := Table.put (counted c) s.challenges } ctx
      (counted c) u attempt =
      .ok ({ s with challenges := Table.put (counted c) s.challenges },
        .error (.unauthorized "Invalid authentication code")) := by
    have hrecovery : useRecoveryCode { s with challenges := Table.put (counted c) s.challenges } ctx
        u.id attempt.code = none := by
      have hnone := hwrong.2
      unfold useRecoveryCode at hnone ⊢
      dsimp only at hnone ⊢
      split at hnone
      · cases hnone
      · rfl
    unfold judgeMfaAttempt
    simp only [h.active, hwrong.1, hrecovery]
    rfl
  rw [h.verifyMfa_eq, hjudge, ok_bind]
  cases attempt.customerSession with
  | false => rfl
  | true => rfl

/-- Whatever the check says, the count goes up where no customer's session is carried. -/
theorem verifyMfa_counted (h : Judged s ctx attempt c u) (hcustomer : attempt.customerSession = false)
    (hfresh : ctx.uuid 12 ∉ Table.keys s.sessions) : ∃ s' a c', verifyMfa s ctx attempt = .ok (s', a) ∧
      s'.challenges = Table.put c' s.challenges ∧ c'.id = c.id ∧ c'.attempts = c.attempts + 1 := by
  obtain ⟨s', verdict, c', hjudge, hchallenges, hid, hattempts⟩ : ∃ s' verdict c',
      judgeMfaAttempt { s with challenges := Table.put (counted c) s.challenges } ctx (counted c) u
        attempt = .ok (s', verdict) ∧ s'.challenges = Table.put c' s.challenges ∧ c'.id = c.id ∧
      c'.attempts = c.attempts + 1 := by
    unfold judgeMfaAttempt
    simp only [h.active]
    rw [if_neg (by simp)]
    split
    · exact ⟨_, _, counted c, rfl, rfl, rfl, rfl⟩
    · rename_i s₁ hs₁
      obtain ⟨codes, rfl⟩ : ∃ codes, s₁ = { s with
          challenges := Table.put (counted c) s.challenges, recoveryCodes := codes } := by
        split at hs₁
        · exact ⟨s.recoveryCodes, (Option.some.inj hs₁).symm⟩
        · unfold useRecoveryCode at hs₁
          dsimp only at hs₁
          split at hs₁
          · exact ⟨_, (Option.some.inj hs₁).symm⟩
          · cases hs₁
      have hput := Table.put_put (a := { counted c with usedAt := some ctx.now }) (b := counted c)
        rfl s.challenges
      by_cases happroved : u.loginIdentityApproved s.organization = true
      · rw [startSession, raiseIf_of_not (by simp [h.active, happroved]), ok_bind,
          raiseIf_of_not hfresh, ok_bind]
        exact ⟨_, _, { counted c with usedAt := some ctx.now }, rfl, hput, rfl, rfl⟩
      · rw [startSession, raiseIf_of_pos (by simp [happroved]), error_bind]
        exact ⟨_, _, { counted c with usedAt := some ctx.now }, rfl, hput, rfl, rfl⟩
  rw [h.verifyMfa_eq, hjudge, ok_bind]
  cases verdict with
  | ok response => exact ⟨s', response, c', rfl, hchallenges, hid, hattempts⟩
  | error e =>
      dsimp only
      rw [raiseIf_of_not (by simp [hcustomer]), ok_bind]
      exact ⟨s', .failed e, c', rfl, hchallenges, hid, hattempts⟩

end Judged

/-! ## Durable counts -/

theorem evaluatesCode_eq_true {challenge : Id} {r : Request}
    (h : evaluatesCode challenge t r = true) : ∃ ctx attempt c u,
      r = .auth ctx (.verifyMfa attempt) ∧ attempt.challenge = challenge ∧
        Judged t.toAccountScope ctx attempt c u := by
  unfold evaluatesCode at h
  split at h
  · rename_i ctx attempt
    simp only [Bool.and_eq_true, decide_eq_true_eq] at h
    obtain ⟨u, hu⟩ := Option.isSome_iff_exists.mp h.2
    obtain ⟨c, hc⟩ := judgedUser_eq_some.mp hu
    exact ⟨ctx, attempt, c, u, rfl, h.1, hc⟩
  · cases h

theorem findsWrong_eq_true {challenge : Id} {r : Request} (h : findsWrong challenge t r = true) :
    ∃ ctx attempt c u, r = .auth ctx (.verifyMfa attempt) ∧ attempt.challenge = challenge ∧
      Judged t.toAccountScope ctx attempt c u ∧
      wrongCode t.toAccountScope ctx attempt u = true := by
  unfold findsWrong at h
  split at h
  · rename_i ctx attempt
    simp only [Bool.and_eq_true, decide_eq_true_eq] at h
    obtain ⟨u, hu, hwrong⟩ := (Option.any_eq_true _ _).mp h.2
    obtain ⟨c, hc⟩ := judgedUser_eq_some.mp hu
    exact ⟨ctx, attempt, c, u, rfl, h.1, hc, hwrong⟩
  · cases h

/-- The count goes up. -/
def Counts (sha : Measurements.Sha256) (challenge : Id) (t : Tenant) (r : Request) : Prop :=
  ∃ n, storedAttempts challenge t.toAccountScope = some n ∧
    storedAttempts challenge (serve (Tenant.handle sha) t r).toAccountScope = some (n + 1)

theorem storedAttempts_put {challenge : Id} {c' : MFAChallenge} (hid : c'.id = challenge)
    (found : Table.get challenge s.challenges = some c)
    (hs' : s'.challenges = Table.put c' s.challenges) :
    storedAttempts challenge s' = some c'.attempts := by
  subst hid
  have hself : Table.get c'.id (Table.put c' s.challenges) = some c' := Table.get_put_self found
  rw [storedAttempts, hs', hself]
  rfl

theorem findsWrong_counts_iff {challenge : Id} {r : Request} (h : findsWrong challenge t r = true) :
    Counts sha challenge t r ↔ carriesCustomerSession r = false := by
  obtain ⟨ctx, attempt, c, u, rfl, rfl, hjudged, hwrong⟩ := findsWrong_eq_true h
  have hhandle := hjudged.verifyMfa_wrong hwrong
  have hstored : storedAttempts attempt.challenge t.toAccountScope = some c.attempts := by
    rw [storedAttempts, hjudged.found]
    rfl
  constructor
  · rintro ⟨n, hn, hcounted⟩
    by_contra hcustomer
    have hcarries : attempt.customerSession = true := by
      simpa [carriesCustomerSession] using hcustomer
    rw [hcarries, if_pos rfl] at hhandle
    have hrefused : t.handle sha (.auth ctx (.verifyMfa attempt)) =
        .error (.unauthorized "Invalid authentication code") := by
      rw [Tenant.handle, AuthOp.handle, hhandle]
      rfl
    rw [serve_of_error _ hrefused, hn, Option.some.injEq] at hcounted
    omega
  · intro hcustomer
    have hcarries : attempt.customerSession = false := hcustomer
    rw [hcarries, if_neg Bool.false_ne_true] at hhandle
    have hid : c.id = attempt.challenge := (Table.mem_of_get hjudged.found).2
    obtain ⟨t', a, hr, hscope⟩ : ∃ t' a, t.handle sha (.auth ctx (.verifyMfa attempt)) = .ok (t', a) ∧
        t'.challenges = Table.put (Judged.counted c) t.challenges := by
      rw [Tenant.handle, AuthOp.handle, hhandle]
      exact ⟨_, _, rfl, rfl⟩
    refine ⟨c.attempts, hstored, ?_⟩
    rw [serve_of_ok _ hr]
    have hcounted : (Judged.counted c).id = attempt.challenge := hid
    exact storedAttempts_put hcounted hjudged.found hscope

/-- Django's session store hands out keys that are not in use. -/
def drawsFreshSession (t : Tenant) : Request → Bool
  | .auth ctx _ => decide (ctx.uuid 12 ∉ Table.keys t.sessions)
  | _ => true

/-- At most five checks, and no fewer counted attempts than checks. -/
structure ChecksCounted (challenge : Id) (n : ℕ) (s : AccountScope) : Prop where
  budget : n ≤ 5
  counted : ∀ c, Table.get challenge s.challenges = some c → n ≤ c.attempts

theorem ChecksCounted.kept {challenge : Id} {n : ℕ} {r : Request} {a : VesselCaller.Response}
    (h : ChecksCounted challenge n t.toAccountScope) (htables : AccountTables t.toAccountScope)
    (hdraws : drawnChallenge r ≠ some challenge) (hr : t.handle sha r = .ok (t', a)) :
    ChecksCounted challenge n t'.toAccountScope := by
  refine ⟨h.budget, fun c hc => ?_⟩
  obtain ⟨hmem, hkey⟩ := Table.mem_of_get hc
  have hid : c.id = challenge := hkey
  cases (handle_accounts hr).challenge hmem with
  | kept c₀ mem id _ _ attempts _ =>
      have hget : Table.get challenge t.challenges = some c₀ := by
        rw [← hid, id]
        exact Table.get_of_mem htables.challenges mem
      exact (h.counted c₀ hget).trans attempts
  | login ctx op request _ _ _ _ _ _ _ id _ =>
      rw [request, ← hid, id] at hdraws
      exact absurd rfl hdraws
  | completed ctx _ _ request _ _ _ _ _ id _ =>
      rw [request, ← hid, id] at hdraws
      exact absurd rfl hdraws

theorem ChecksCounted.step {challenge : Id} {n : ℕ} {r : Request}
    (h : ChecksCounted challenge n t.toAccountScope) (htables : AccountTables t.toAccountScope)
    (hdraws : drawnChallenge r ≠ some challenge) (hcustomer : carriesCustomerSession r = false)
    (hfresh : drawsFreshSession t r = true) :
    ChecksCounted challenge (n + (evaluatesCode challenge t r).toNat)
      (serve (Tenant.handle sha) t r).toAccountScope := by
  cases hchecks : evaluatesCode challenge t r with
  | false =>
      obtain hsame | ⟨t', a, hr, hsame⟩ := serve_cases (Tenant.handle sha) t r
      · rw [hsame]
        exact h
      · rw [hsame]
        exact h.kept htables hdraws hr
  | true =>
      obtain ⟨ctx, attempt, c, u, rfl, rfl, hjudged⟩ := evaluatesCode_eq_true hchecks
      have hkey : ctx.uuid 12 ∉ Table.keys t.sessions := by
        simpa [drawsFreshSession] using hfresh
      obtain ⟨s', a, c', hhandle, hchallenges, hid, hattempts⟩ :=
        hjudged.verifyMfa_counted hcustomer hkey
      obtain ⟨t', a', hr, hscope⟩ : ∃ t' a', t.handle sha (.auth ctx (.verifyMfa attempt)) =
          .ok (t', a') ∧ t'.toAccountScope = s' := by
        rw [Tenant.handle, AuthOp.handle, hhandle]
        exact ⟨_, _, rfl, rfl⟩
      rw [serve_of_ok _ hr, hscope]
      have hn := h.counted c hjudged.found
      have hbudget := hjudged.budget
      rw [Bool.toNat_true]
      refine ⟨by omega, fun c₁ hc₁ => ?_⟩
      have hchallenge : c'.id = attempt.challenge := hid.trans (Table.mem_of_get hjudged.found).2
      have hstored := storedAttempts_put hchallenge hjudged.found hchallenges
      rw [storedAttempts, hc₁, Option.map_some, Option.some.injEq] at hstored
      omega

/-- **The attempts at a second factor are counted.**  A wrong code raises the stored count of
its challenge by one exactly if the browser carries no customer's session.  In a run of
such requests, in which no challenge is drawn under the key of another, at most five codes
are ever checked against a challenge, whatever the failure counter of the cache says. -/
theorem mfa_failures_counted (sha : Measurements.Sha256) (challenge : Id) :
    (∀ t r, findsWrong challenge t r = true →
      (Counts sha challenge t r ↔ carriesCustomerSession r = false)) ∧
    ∀ t rs, AccountTables t.toAccountScope → (∀ r ∈ rs, carriesCustomerSession r = false) →
      (∀ r ∈ rs, drawnChallenge r ≠ some challenge) →
      Along (Tenant.handle sha) (fun t r => drawsFreshSession t r = true) t rs →
      countAlong (Tenant.handle sha) (evaluatesCode challenge) t rs ≤ 5 := by
  refine ⟨fun t r h => findsWrong_counts_iff h, fun t rs htables hcustomer hdraws hfresh => ?_⟩
  have halong : Along (Tenant.handle sha) (fun t r => (carriesCustomerSession r = false ∧
      drawnChallenge r ≠ some challenge) ∧ drawsFreshSession t r = true) t rs :=
    along_and (along_of_forall t fun r hr => ⟨hcustomer r hr, hdraws r hr⟩) hfresh
  have hrun := run_count_along
    (P := fun n (t : Tenant) => AccountTables t.toAccountScope ∧
      ChecksCounted challenge n t.toAccountScope) (C := evaluatesCode challenge) ?_ rs halong
    ⟨htables, Nat.zero_le 5, fun c _ => Nat.zero_le c.attempts⟩
  · rw [Nat.zero_add] at hrun
    exact hrun.2.budget
  · rintro n t₁ r ⟨h₁, hcounted⟩ ⟨⟨hr, hdrawn⟩, hkey⟩
    exact ⟨h₁.run [r], hcounted.step h₁ hdrawn hr hkey⟩

/-- The administrator 1 has a second factor, and a login left the challenge 40011. -/
def challenged : Tenant :=
  run (Tenant.handle Sample.sha) Sample.tenant (Sample.enrolled ++ [Sample.oldLogin])

/-- A wrong code for that challenge, in the `n`-th request. -/
def guess (n : ℕ) (customerSession : Bool) : Request := .auth (Sample.ctx n) (.verifyMfa
  { challenge := 40011, code := "000000", totp := false, throttled := false,
    blocked := false, customerSession := customerSession })

/-- Of six wrong codes from an anonymous browser five are checked, and counted. -/
theorem mfa_failures_counted_anonymous :
    Counts Sample.sha 40011 challenged (guess 5 false) ∧
      countAlong (Tenant.handle Sample.sha) (evaluatesCode 40011) challenged
        ((List.range 6).map fun n => guess (5 + n) false) ≤ 5 := by
  have hmain := mfa_failures_counted Sample.sha 40011
  refine ⟨(hmain.1 challenged (guess 5 false) (by decide +kernel)).mpr rfl, ?_⟩
  refine hmain.2 challenged _ (sample_accountTables.run _) ?_ ?_ ?_
  · decide +kernel
  · decide +kernel
  · decide +kernel

/-- From a browser with a customer's session six wrong codes are checked, and the stored count
is still zero. -/
theorem mfa_failures_uncounted :
    let rs := (List.range 6).map fun n => guess (5 + n) true
    (∀ r ∈ rs, findsWrong 40011 challenged r = true) ∧
      countAlong (Tenant.handle Sample.sha) (evaluatesCode 40011) challenged rs = 6 ∧
      storedAttempts 40011 (run (Tenant.handle Sample.sha) challenged rs).toAccountScope =
        some 0 := by
  refine ⟨?_, ?_, ?_⟩
  · decide +kernel
  · decide +kernel
  · decide +kernel

end VesselCaller.Accounts
