import VesselCaller.Platform.Capabilities

/-!
# Suspending an organization

A suspension leaves nothing live.  What is not live comes back to life only if an event draws
it again, which no reactivation does, so every capability of the organization is refused from
the suspension on; and as long as the suspension lasts no session, action token or challenge
is created.

## Main definitions

* `Refused` — whatever presents the capability is refused;
* `OpensNone` — nothing was opened.
-/

namespace VesselCaller.Platform

open Lib Accounts

variable {sha : Measurements.Sha256} {t t' : Tenant} {s s' : AccountScope} {ctx : Ctx}
  {actor : Id} {e : Event} {a : Answer} {d : Draws}

/-- The capability is not accepted: not by the session check, which every request of a
signed-in member passes, and not by the requests that present a token, a code or an
invitation. -/
def Refused (sha : Measurements.Sha256) (t : Tenant) : Capability → Prop
  | .session key => ∀ now, (authenticate t.toAccountScope now key).isOk = false
  | .token raw => TokenRefused sha t raw
  | .challenge id => ChallengeRefused sha t id
  | .recoveryCode user code => ∀ ctx, useRecoveryCode t.toAccountScope ctx user code = none
  | .invitation raw => ∀ ctx name password reserved,
      (t.handle sha (.auth ctx (.acceptInvitation raw name password reserved))).isOk = false

/-- A check that is passed on a live row only fails where there is none. -/
theorem isOk_eq_false {α : Type} {x : Result α} {P : Prop} (h : ∀ {y}, x = .ok y → P)
    (hnot : ¬P) : x.isOk = false := by
  cases hx : x with
  | error e => rfl
  | ok y => exact absurd (h hx) hnot

theorem authenticate_live {now : Instant} {key : Id} {u : User}
    (h : authenticate s now key = .ok u) : Live s (.session key) := by
  obtain ⟨_, _, k, hk, hkey, _, husable⟩ := authenticate_eq_ok h
  simp only [UserSession.usable, Bool.and_eq_true, Option.isNone_iff_eq_none] at husable
  exact ⟨k, hk, hkey, husable.1⟩

theorem verifyMfa_live {attempt : MfaAttempt} {answer : AccountScope × Accounts.Response}
    (h : verifyMfa s ctx attempt = .ok answer) : Live s (.challenge attempt.challenge) := by
  simp only [verifyMfa, bind_eq_ok, orRaise_eq_ok] at h
  obtain ⟨_, _, c, hc, _⟩ := h
  obtain ⟨hfound, hunused⟩ := Option.filter_eq_some_iff.mp hc
  obtain ⟨hmem, hid⟩ := Table.mem_of_get hfound
  exact ⟨c, hmem, hid, Option.isNone_iff_eq_none.mp hunused⟩

theorem useRecoveryCode_live {user : Id} {code : String}
    (h : useRecoveryCode s ctx user code = some s') : Live s (.recoveryCode user code) := by
  unfold useRecoveryCode at h
  extract_lets matching at h
  split at h
  · rename_i i hi
    obtain ⟨hlt, hmatch, _⟩ := List.findIdx?_eq_some_iff_getElem.mp hi
    simp only [matching, Bool.and_eq_true, decide_eq_true_eq,
      Option.isNone_iff_eq_none] at hmatch
    exact ⟨_, List.getElem_mem hlt, hmatch.1.1, hmatch.1.2, hmatch.2⟩
  · cases h

theorem acceptInvitation_live {raw : String} {name : Option String} {password : NewPassword}
    {reserved : Bool} (h : acceptInvitation s ctx raw name password reserved = .ok s') :
    Live s (.invitation raw) := by
  simp only [acceptInvitation, bind_eq_ok, orRaise_eq_ok] at h
  obtain ⟨_, _, _, _, i, hi, _⟩ := h
  have hfind := List.find?_some hi
  simp only [Bool.and_eq_true, decide_eq_true_eq] at hfind
  exact ⟨i, List.mem_of_find?_eq_some hi, hfind⟩

/-- **What is not live is refused.** -/
theorem refused_of_not_live {c : Capability} (h : ¬Live t.toAccountScope c) : Refused sha t c := by
  cases c with
  | session key => exact fun now => isOk_eq_false authenticate_live h
  | token raw => exact Spent.refused fun token htoken hhash hunused => h ⟨token, htoken, hhash, hunused⟩
  | challenge id =>
      rintro ctx attempt rfl
      refine isOk_eq_false (P := Live t.toAccountScope (.challenge attempt.challenge)) ?_ h
      intro answer hanswer
      simp only [Tenant.handle, AuthOp.handle, bind_eq_ok] at hanswer
      obtain ⟨_, hverify, _⟩ := hanswer
      exact verifyMfa_live hverify
  | recoveryCode user code =>
      intro ctx
      refine Option.eq_none_iff_forall_ne_some.mpr fun s' hused => ?_
      exact h (useRecoveryCode_live hused)
  | invitation raw =>
      intro ctx name password reserved
      refine isOk_eq_false (P := Live t.toAccountScope (.invitation raw)) ?_ h
      intro answer hanswer
      simp only [Tenant.handle, AuthOp.handle, bind_eq_ok] at hanswer
      obtain ⟨_, ⟨_, haccept, _⟩, _⟩ := hanswer
      exact acceptInvitation_live haccept

/-- **A suspension leaves nothing live.** -/
theorem suspendedScope_not_live (s : AccountScope) (ctx : Ctx) (c : Capability) :
    ¬Live (suspendedScope s ctx) c := by
  cases c with
  | session key =>
      rintro ⟨k, hk, _, hlive⟩
      obtain ⟨k₀, _, rfl⟩ := List.mem_map.mp hk
      split at hlive
      · cases hlive
      · rename_i hrevoked
        exact hrevoked hlive
  | token raw =>
      rintro ⟨token, htoken, _, hunused⟩
      have hused := List.of_mem_filter htoken
      rw [hunused] at hused
      cases hused
  | challenge id =>
      rintro ⟨c, hc, _, hunused⟩
      have hused := List.of_mem_filter hc
      rw [hunused] at hused
      cases hused
  | recoveryCode user code =>
      rintro ⟨c, hc, _⟩
      exact List.not_mem_nil hc
  | invitation raw =>
      rintro ⟨i, hi, _, hpending⟩
      obtain ⟨i₀, _, rfl⟩ := List.mem_map.mp hi
      split at hpending
      · cases hpending
      · rename_i hnot
        exact hnot hpending

/-- No session, action token or challenge was created. -/
structure OpensNone (s s' : AccountScope) : Prop where
  sessions : ∀ k ∈ s'.sessions, k.sessionKey ∈ Table.keys s.sessions
  tokens : ∀ token ∈ s'.tokens, token.tokenHash ∈ s.tokens.map ActionToken.tokenHash
  challenges : ∀ c ∈ s'.challenges, c.id ∈ Table.keys s.challenges

theorem Issues.opensNone (h : Issues d s s') (hsuspended : s.organization.accessStatus = .suspended) :
    OpensNone s s' where
  sessions k hk := by
    rcases h.session k hk with ⟨k₀, hk₀, hkey, _⟩ | ⟨_, hnot⟩
    · exact Table.mem_keys.mpr ⟨k₀, hk₀, hkey⟩
    · exact absurd hsuspended hnot
  tokens token htoken := by
    rcases h.token token htoken with ⟨token₀, htoken₀, hhash, _⟩ | ⟨_, hnot⟩
    · exact List.mem_map.mpr ⟨token₀, htoken₀, hhash⟩
    · exact absurd hsuspended hnot
  challenges c hc := by
    rcases h.challenge c hc with ⟨c₀, hc₀, hid, _⟩ | ⟨_, hnot⟩
    · exact Table.mem_keys.mpr ⟨c₀, hc₀, hid⟩
    · exact absurd hsuspended hnot

/-- **Suspending an organization kills its capabilities for good.**  After a suspension has
taken effect, whatever happens next, reactivations included, no session, action token, MFA
challenge, recovery code or invitation is accepted that is not drawn anew after it; and in a
suspended organization no event creates a session, an action token or a challenge. -/
theorem suspension_final (sha : Measurements.Sha256) {t t₁ : Tenant} {actor : Id} {ctx : Ctx}
    {data : LifecycleInput} {a : Answer} (hnot : t.organization.accessStatus ≠ .suspended)
    (hsuspend : handle sha t (.system actor ctx (.suspend data)) = .ok (t₁, a)) :
    t₁.organization.accessStatus = .suspended ∧
    (∀ (c : Capability) (es : List Event), (∀ e ∈ es, ¬e.draws.grants c) →
      Refused sha (run (handle sha) t₁ es) c) ∧
    ∀ t₂ e t₃ a₃, t₂.organization.accessStatus = .suspended →
      handle sha t₂ e = .ok (t₃, a₃) → OpensNone t₂.toAccountScope t₃.toAccountScope := by
  simp only [handle, SystemOp.handle, bind_eq_ok, pure_eq_ok, Prod.exists, Prod.mk.injEq] at hsuspend
  obtain ⟨_, _, ⟨s₁, hop, rfl, _⟩, rfl, _⟩ := hsuspend
  obtain ⟨hsuspended, _⟩ | ⟨_, rfl⟩ := suspend_eq_ok hop
  · exact absurd hsuspended hnot
  refine ⟨rfl, fun c es hdraws => ?_, fun t₂ e t₃ a₃ hsuspended h => ?_⟩
  · refine refused_of_not_live ?_
    let t₁ : Tenant := { t with toAccountScope := suspendedScope t.toAccountScope ctx }
    have hnone : ¬Live t₁.toAccountScope c := suspendedScope_not_live t.toAccountScope ctx c
    exact run_not_live (fun t : Tenant => Live t.toAccountScope) (fun e => e.draws.grants)
      (fun h hlive => (handle_issues h).live hlive) hdraws hnone
  · exact (handle_issues h).opensNone hsuspended

/-- The administrator 1 has signed in, has invited a colleague and has forgotten the password. -/
def invited : Tenant := run (Tenant.handle Sample.sha) Sample.tenant [
  .auth (Sample.ctx 1) (.login "ada" "correct horse battery" "" none false),
  .users 1 (Sample.ctx 2) (.invite "Efe" "efe" .finance false "invitation-1"),
  .auth (Sample.ctx 3) (.forgotPassword "ada" "reset-1" false)]

def suspension : Event := .system 99 (Sample.ctx 4) (.suspend ⟨"Dues are unpaid", 2⟩)

/-- The organization is reactivated, and the administrator signs in again. -/
def reactivation : List Event := [
  .system 99 (Sample.ctx 5) (.reactivate ⟨"Dues are paid", 3⟩),
  .request (.auth (Sample.ctx 6) (.login "ada" "correct horse battery" "" none false))]

/-- The session, the reset link and the invitation from before the suspension stay refused
when the organization is active again and has issued a new session. -/
theorem suspension_final_reactivated :
    let t₁ := serve (handle Sample.sha) invited suspension
    let t₂ := run (handle Sample.sha) t₁ reactivation
    t₂.organization.accessStatus = .active ∧ Live t₂.toAccountScope (.session 60012) ∧
      ∀ c ∈ [.session 10012, .token "reset-1", .invitation "invitation-1"],
        Live invited.toAccountScope c ∧ Refused Sample.sha t₂ c := by
  intro t₁ t₂
  obtain ⟨a, hsuspend⟩ : ∃ a, handle Sample.sha invited suspension = .ok (t₁, a) :=
    exists_ok_serve _ (by decide +kernel)
  have hfinal := suspension_final Sample.sha (by decide +kernel) hsuspend
  refine ⟨by decide +kernel, by decide +kernel, fun c hc => ⟨?_, ?_⟩⟩
  · revert hc c
    decide +kernel
  · refine hfinal.2.1 c reactivation ?_
    revert hc c
    decide +kernel

end VesselCaller.Platform
