import VesselCaller.Accounts.Tables

/-!
# What a request can do to one member

`UserStep` is `AccountStep` seen from one user row, and `AccountStep.user` the passage
from the one to the other.  The last administrator cannot be lost: the guard of
`UserDetailView` counts the administrators that can sign in, and no other request takes
one away, so an organization that has such an administrator always has one.

## Main definitions

* `UserStep` — what a request did to one user row, and what had been proven for it;
* `HasUsableAdmin` — the organization has an administrator that can sign in.
-/

namespace VesselCaller.Accounts

open Lib

variable {sha : Measurements.Sha256} {t t' : Tenant} {s s' : AccountScope} {ctx : Ctx}
  {r : Request} {a : VesselCaller.Response}

/-- What an accepted request did to one user. -/
inductive UserStep (r : Request) (s : AccountScope) (u u' : User) : Prop where
  | same (row : u' = u)
  | rewritten (h : Rewrite r s u u')
  | emailRequested (name email : String) (row : u' = { u with name := name, pendingEmail := email })
  | regenerated (actor : Id) (ctx : Ctx) (raw : String)
      (request : r = .users actor ctx (.regenerate u.id raw))
      (pending : u.passwordChangeRequired = true) (row : u' = u.withTemporaryPassword ctx raw)
  | emailChanged (ctx : Ctx) (email : String) (row : u' = u.withEmail ctx email) (raw : String)
      (reserved : Bool) (request : r = .auth ctx (.verifyEmail raw reserved))
  | emailVerified (ctx : Ctx) (raw : String) (reserved : Bool)
      (request : r = .auth ctx (.verifyEmail raw reserved)) (token : ActionToken)
      (s₁ : AccountScope) (h : Consumed ctx s s₁ raw .verifyEmail token u)
      (unnamed : token.metadata.pendingEmail = "") (row : u' = u.verified ctx)
  | signedIn (at' : Instant) (row : u' = { u with lastLogin := some at' })
  | completed (ctx : Ctx) (raw : String) (password : NewPassword)
      (request : r = .auth ctx (.completeTemporaryPassword raw password)) (token : ActionToken)
      (s₁ : AccountScope) (h : Completed ctx s s₁ raw password.raw token u)
      (lastLogin : Option Instant)
      (row : u' = { u.withChosenPassword ctx password.raw with lastLogin := lastLogin })
  | passwordReset (ctx : Ctx) (raw : String) (password : NewPassword)
      (request : r = .auth ctx (.resetPassword raw password)) (token : ActionToken)
      (s₁ : AccountScope) (h : Consumed ctx s s₁ raw .resetPassword token u)
      (settled : u.passwordChangeRequired = false)
      (row : u' = u.withPassword ctx password.raw ∨
        s.organization.kind = .platform ∧ u' = { u.withPassword ctx password.raw with
          status := .active, emailVerifiedAt := some ctx.now, mfaGraceEndsAt := some ctx.now })
  | passwordChanged (ctx : Ctx) (session : Id) (currentPassword : String) (password : NewPassword)
      (recentMfa : Bool)
      (request : r = .auth ctx (.changePassword session currentPassword password recentMfa))
      (active : u.isActive s.organization = true) (k : UserSession) (mem : k ∈ s.sessions)
      (own : k.sessionKey = session ∧ k.userId = u.id) (row : u' = u.withPassword ctx password.raw)

/-- A table in which one row was written over, seen from a row. -/
theorem get_putUser {users : List User} {id : Id} {u w n : User}
    (hu : Table.get id users = some u) (hw : Table.get w.id users = some w) (hid : n.id = w.id) :
    ∃ u', Table.get id (Table.put n users) = some u' ∧ (u' = u ∨ u = w ∧ u' = n) := by
  by_cases hk : id = n.id
  · subst hk
    have huw : u = w := by
      rw [hid, hw] at hu
      exact (Option.some.inj hu).symm
    exact ⟨n, Table.get_put_self hu, .inr ⟨huw, rfl⟩⟩
  · exact ⟨u, (Table.get_put_of_ne hk).trans hu, .inl rfl⟩

theorem SessionStarted.user {u w : User} {id : Id} (hs : SessionStarted ctx s s' w)
    (hu : Table.get id s.users = some u) : ∃ u', Table.get id s'.users = some u' ∧
      (u' = u ∨ u = w ∧ u' = { w with lastLogin := some ctx.now }) := by
  rw [hs.same.users]
  exact get_putUser hu hs.found rfl

theorem Opened.user {u w : User} {id : Id} {a : Response} (ho : Opened ctx s s' w a)
    (hu : Table.get id s.users = some u) : ∃ u', Table.get id s'.users = some u' ∧
      (u' = u ∨ u = w ∧ u' = { w with lastLogin := some ctx.now }) := by
  cases ho with
  | session hs => exact hs.user hu
  | challenge hs _ => exact ⟨u, hs.same.users ▸ hu, .inl rfl⟩

/-- The first sign-in of an account: the chosen password is written, then the session. -/
theorem Completed.user {raw : String} {password : NewPassword} {token : ActionToken} {w u : User}
    {s₁ : AccountScope} {response : Response} {id : Id}
    (request : r = .auth ctx (.completeTemporaryPassword raw password))
    (hc : Completed ctx s s₁ raw password.raw token w)
    (ho : Opened ctx s₁ s' (w.withChosenPassword ctx password.raw) response)
    (hu : Table.get id s.users = some u) :
    ∃ u', Table.get id s'.users = some u' ∧ UserStep r s u u' := by
  have hid : u.id = id := (Table.mem_of_get hu).2
  obtain ⟨u₁, hget₁, hrow₁⟩ :
      ∃ u₁, Table.get id s₁.users = some u₁ ∧
        (u₁ = u ∨ u = w ∧ u₁ = w.withChosenPassword ctx password.raw) := by
    rw [hc.scope]
    exact get_putUser hu hc.found rfl
  obtain ⟨u', hget, hrow⟩ := ho.user hget₁
  refine ⟨u', hget, ?_⟩
  obtain rfl | ⟨rfl, rfl⟩ := hrow₁
  · -- The session of another user writes no row of this one.
    obtain rfl | ⟨hsame, _⟩ := hrow
    · exact .same rfl
    · have hw : u₁ = w := by
        have hget' : Table.get w.id s.users = some u₁ := by
          rw [show w.id = id by rw [← hid, hsame]; rfl]
          exact hu
        rw [hc.found] at hget'
        exact (Option.some.inj hget').symm
      subst hw
      have hchosen : u₁.passwordChangeRequired = false := by rw [hsame]; rfl
      have hpending : u₁.passwordChangeRequired = true := by
        have havailable := hc.available
        simp only [temporaryIdentityAvailable, Bool.and_eq_true] at havailable
        exact havailable.1.2
      rw [hchosen] at hpending
      exact absurd hpending Bool.false_ne_true
  · obtain rfl | ⟨_, rfl⟩ := hrow
    · exact .completed ctx raw password request token s₁ hc _ rfl
    · exact .completed ctx raw password request token s₁ hc _ rfl

/-- A reset writes the new password into the row of its token's user. -/
theorem Consumed.reset_user {raw : String} {password : NewPassword} {token : ActionToken}
    {w w' u : User} {s₁ : AccountScope} {id : Id}
    (request : r = .auth ctx (.resetPassword raw password))
    (hc : Consumed ctx s s₁ raw .resetPassword token w) (settled : w.passwordChangeRequired = false)
    (row : w' = w.withPassword ctx password.raw ∨
      s.organization.kind = .platform ∧ w' = { w.withPassword ctx password.raw with
        status := .active, emailVerifiedAt := some ctx.now, mfaGraceEndsAt := some ctx.now })
    (hu : Table.get id s.users = some u) :
    ∃ u', Table.get id (Table.put w' s₁.users) = some u' ∧ UserStep r s u u' := by
  have hw' : w'.id = w.id := by
    obtain rfl | ⟨_, rfl⟩ := row <;> rfl
  rw [hc.scope]
  obtain ⟨u', hget, hrow | ⟨hrow, hrow'⟩⟩ := get_putUser hu hc.found hw'
  · exact ⟨u', hget, .same hrow⟩
  · subst hrow hrow'
    exact ⟨_, hget, .passwordReset ctx raw password request token s₁ hc settled row⟩

/-- **One request, one user.**  A user that is there stays there. -/
theorem AccountStep.user (hstep : AccountStep r a s s') {id : Id} {u : User}
    (hu : Table.get id s.users = some u) :
    ∃ u', Table.get id s'.users = some u' ∧ UserStep r s u u' := by
  cases hstep with
  | idle same => exact ⟨u, same.users ▸ hu, .same rfl⟩
  | revoked _ _ same => exact ⟨u, same.users ▸ hu, .same rfl⟩
  | rewritten w w' found hw _ _ same =>
      have hw' : w'.id = w.id := by
        cases hw with
        | patched _ _ _ _ row => rw [row]; rfl
        | removed _ _ _ row => rw [row]; rfl
        | profile _ row => rw [row]
        | mfa _ _ _ row => rw [row]
      rw [same.users]
      -- The written row is that of the user, or of another member.
      obtain ⟨u', hget, hrow | ⟨hrow, hrow'⟩⟩ := get_putUser hu found hw'
      · exact ⟨u', hget, .same hrow⟩
      · subst hrow hrow'
        exact ⟨_, hget, .rewritten hw⟩
  | added w fresh _ same =>
      refine ⟨u, ?_, .same rfl⟩
      -- A new member does not hide the rows before it.
      rw [same.users, Table.get, List.find?_append]
      exact Option.or_eq_some_iff.mpr (.inl hu)
  | issued _ _ _ _ _ _ _ _ _ same => exact ⟨u, same.users ▸ hu, .same rfl⟩
  | emailRequested _ _ _ _ w found _ name email _ _ _ _ _ _ same =>
      rw [same.users]
      obtain ⟨u', hget, hrow | ⟨rfl, rfl⟩⟩ :=
        get_putUser (n := { w with name := name, pendingEmail := email }) hu found rfl
      · exact ⟨u', hget, .same hrow⟩
      · exact ⟨_, hget, .emailRequested name email rfl⟩
  | regenerated actor ctx w raw request found pending same =>
      rw [same.users]
      obtain ⟨u', hget, hrow | ⟨rfl, rfl⟩⟩ :=
        get_putUser (n := w.withTemporaryPassword ctx raw) hu found rfl
      · exact ⟨u', hget, .same hrow⟩
      · exact ⟨_, hget, .regenerated actor ctx raw request pending rfl⟩
  | emailChanged ctx raw reserved request token w s₁ hc _ same =>
      rw [same.users, putUser, hc.scope]
      obtain ⟨u', hget, hrow | ⟨rfl, rfl⟩⟩ :=
        get_putUser (n := w.withEmail ctx token.metadata.pendingEmail) hu hc.found rfl
      · exact ⟨u', hget, .same hrow⟩
      · exact ⟨_, hget, .emailChanged ctx _ rfl raw reserved request⟩
  | emailVerified ctx raw reserved request token w s₁ hc unnamed same =>
      rw [same.users, putUser, hc.scope]
      obtain ⟨u', hget, hrow | ⟨rfl, rfl⟩⟩ := get_putUser (n := w.verified ctx) hu hc.found rfl
      · exact ⟨u', hget, .same hrow⟩
      · exact ⟨_, hget, .emailVerified ctx raw reserved request token s₁ hc unnamed rfl⟩
  | temporaryProven _ _ _ _ _ _ _ _ _ _ _ _ _ _ _ _ same => exact ⟨u, same.users ▸ hu, .same rfl⟩
  | signedIn ctx _ _ _ _ w _ _ _ ho =>
      obtain ⟨u', hget, hrow | ⟨rfl, rfl⟩⟩ := ho.user hu
      · exact ⟨u', hget, .same hrow⟩
      · exact ⟨_, hget, .signedIn ctx.now rfl⟩
  | completed ctx raw password request token w s₁ hc _ _ ho => exact hc.user request ho hu
  | attempted _ _ _ _ _ _ _ _ same => exact ⟨u, same.users ▸ hu, .same rfl⟩
  | mfaPassed ctx _ _ _ _ _ _ _ w _ _ _ hs =>
      obtain ⟨u', hget, hrow | ⟨rfl, rfl⟩⟩ := hs.user hu
      · exact ⟨u', hget, .same hrow⟩
      · exact ⟨_, hget, .signedIn ctx.now rfl⟩
  | passwordReset ctx raw password request token w w' s₁ hc settled row same =>
      rw [same.users]
      exact hc.reset_user request settled row hu
  | passwordChanged ctx session cp password rm request w found active k mem own _ _ _ same =>
      rw [same.users]
      obtain ⟨u', hget, hrow | ⟨rfl, rfl⟩⟩ :=
        get_putUser (n := w.withPassword ctx password.raw) hu found rfl
      · exact ⟨u', hget, .same hrow⟩
      · exact ⟨_, hget, .passwordChanged ctx session cp password rm request active k mem
          ⟨own.1, own.2.1⟩ rfl⟩

/-! ## The last administrator -/

/-- The member a request patches or removes. -/
def decidesOn : Request → Option Id
  | .users _ _ (.patchUser userId _) => some userId
  | .users _ _ (.removeUser userId) => some userId
  | _ => none

theorem User.usableAdmin_iff {u : User} : u.usableAdmin = true ↔
    u.role = .admin ∧ u.status = .active ∧ u.passwordChangeRequired = false := by
  simp [User.usableAdmin, and_assoc]

/-- An administrator that can sign in still can, unless an administrator decided on it
while there was another one. -/
theorem UserStep.usableAdmin {u u' : User} (h : UserStep r s u u') (hu : u.usableAdmin = true) :
    u'.usableAdmin = true ∨ decidesOn r = some u.id ∧ lastAdmin s u = false := by
  obtain ⟨hrole, hstatus, hsettled⟩ := User.usableAdmin_iff.mp hu
  cases h with
  | same row => exact .inl (row ▸ hu)
  | rewritten h =>
      cases h with
      | patched actor ctx data request row _ guarded =>
          cases hlast : lastAdmin s u with
          | false => exact .inr ⟨by rw [request]; rfl, rfl⟩
          | true =>
              obtain ⟨hrole', hstatus'⟩ := guarded hlast
              rw [row]
              exact .inl (User.usableAdmin_iff.mpr ⟨hrole', hstatus', hsettled⟩)
      | removed actor ctx request _ guarded => exact .inr ⟨by rw [request]; rfl, guarded⟩
      | profile _ row => exact .inl (row ▸ hu)
      | mfa _ _ _ row => exact .inl (row ▸ hu)
  | emailRequested _ _ row => exact .inl (row ▸ hu)
  | regenerated _ _ _ _ pending _ => simp [hsettled] at pending
  | emailChanged _ _ row => exact .inl (row ▸ hu)
  | emailVerified ctx _ _ _ _ _ _ _ row =>
      rw [row]
      exact .inl (User.usableAdmin_iff.mpr ⟨hrole, rfl, hsettled⟩)
  | signedIn _ row => exact .inl (row ▸ hu)
  | completed ctx _ password _ _ _ _ _ row =>
      rw [row]
      exact .inl (User.usableAdmin_iff.mpr ⟨hrole, hstatus, rfl⟩)
  | passwordReset ctx _ password _ _ _ _ _ row =>
      obtain rfl | ⟨_, rfl⟩ := row
      · exact .inl hu
      · exact .inl (User.usableAdmin_iff.mpr ⟨hrole, rfl, hsettled⟩)
  | passwordChanged _ _ _ _ _ _ _ _ _ _ row => exact .inl (row ▸ hu)

/-- Where the guard does not bite there is another administrator. -/
theorem exists_other_admin {u : User} (hkeys : (Table.keys s.users).Nodup)
    (hu : u.usableAdmin = true) (hlast : lastAdmin s u = false) :
    ∃ v ∈ s.users, v.usableAdmin = true ∧ v ≠ u := by
  by_contra hnone
  push Not at hnone
  have hall : ∀ v ∈ s.users.filter User.usableAdmin, v = u := by
    intro v hv
    obtain ⟨hmem, hadmin⟩ := List.mem_filter.mp hv
    exact hnone v hmem hadmin
  have hnodup : (s.users.filter User.usableAdmin).Nodup :=
    (List.Nodup.of_map _ hkeys).sublist List.filter_sublist
  have hcount : (s.users.filter User.usableAdmin).length ≤ 1 := by
    rw [List.eq_replicate_of_mem hall] at hnodup
    exact List.nodup_replicate.mp hnodup
  simp only [lastAdmin, hu, Bool.true_and, decide_eq_false_iff_not] at hlast
  exact hlast hcount

/-- Some administrator of the scope can sign in. -/
def HasUsableAdmin (s : AccountScope) : Prop :=
  ∃ u ∈ s.users, u.role = .admin ∧ u.status = .active ∧ u.passwordChangeRequired = false

theorem HasUsableAdmin.step (h : HasUsableAdmin s) (htables : AccountTables s)
    (hstep : AccountStep r a s s') : HasUsableAdmin s' := by
  have hkept : ∀ {v : User}, v ∈ s.users → v.usableAdmin = true →
      HasUsableAdmin s' ∨ decidesOn r = some v.id ∧ lastAdmin s v = false := by
    intro v hv hadmin
    obtain ⟨v', hget, huser⟩ := hstep.user (Table.get_of_mem htables.users hv)
    obtain hadmin' | hdecided := huser.usableAdmin hadmin
    · exact .inl ⟨v', (Table.mem_of_get hget).1, User.usableAdmin_iff.mp hadmin'⟩
    · exact .inr hdecided
  obtain ⟨u, hu, hadmin⟩ := h
  rw [← User.usableAdmin_iff] at hadmin
  obtain hdone | ⟨hdecided, hlast⟩ := hkept hu hadmin
  · exact hdone
  · -- The request decided on `u`, so it left the other administrator alone.
    obtain ⟨v, hv, hvadmin, hne⟩ := exists_other_admin htables.users hadmin hlast
    obtain hdone | ⟨hdecided', _⟩ := hkept hv hvadmin
    · exact hdone
    · rw [hdecided] at hdecided'
      exact absurd (Table.eq_of_key_eq htables.users hu hv (Option.some.inj hdecided')).symm hne

/-- **An organization keeps a usable administrator.**  From every state of its tables in
which some active administrator awaits no password change, every run of requests ends in
such a state again. -/
theorem keeps_usable_admin (sha : Measurements.Sha256) {t : Tenant}
    (htables : AccountTables t.toAccountScope) (hadmin : HasUsableAdmin t.toAccountScope)
    (rs : List Request) : HasUsableAdmin (run (Tenant.handle sha) t rs).toAccountScope := by
  have hrun : AccountTables (run (Tenant.handle sha) t rs).toAccountScope ∧
      HasUsableAdmin (run (Tenant.handle sha) t rs).toAccountScope := by
    refine run_invariant (P := fun t : Tenant =>
      AccountTables t.toAccountScope ∧ HasUsableAdmin t.toAccountScope) ?_ rs ⟨htables, hadmin⟩
    rintro t₁ r t₂ a ⟨h₁, hadmin₁⟩ hr
    exact ⟨h₁.step (handle_accounts hr), hadmin₁.step h₁ (handle_accounts hr)⟩
  exact hrun.2

/-- Two administrators suspend each other: the first request counts, the second one comes
from an account that is no longer active. -/
theorem keeps_usable_admin_suspended :
    let rs : List Request := [
      .users 1 (Sample.ctx 1) (.patchUser 2 { status := some .suspended }),
      .users 2 (Sample.ctx 2) (.patchUser 1 { status := some .suspended })]
    (run (Tenant.handle Sample.sha) Sample.tenant rs).users.map User.status =
      [.active, .suspended] ∧
      HasUsableAdmin (run (Tenant.handle Sample.sha) Sample.tenant rs).toAccountScope := by
  refine ⟨by decide +kernel, keeps_usable_admin Sample.sha sample_accountTables ?_ _⟩
  exact ⟨Sample.admin 1 "ada", by decide, by decide⟩

end VesselCaller.Accounts
