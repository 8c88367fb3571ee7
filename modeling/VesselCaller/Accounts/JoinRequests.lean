import VesselCaller.Accounts.Papers
import VesselCaller.Accounts.Members

/-!
# The machine of a join request

A join request is unverified, pending, approved, rejected or expired.  `JoinTable` is what
holds of the table in every reachable state: the check constraint that ties the password
hash to the status, the account that ties itself to the approval, and three partial
unique indexes, on the open address, on the verification token and on the account.
A request that was approved, rejected or expired is never written again.

## Main definitions

* `JoinRow`, `JoinTable` — the constraints on one request, and on the table;
* `Approval` — what an approval finds, and what it makes;
* `ApprovedByAdmin` — a run in which an active administrator has approved the request.
-/

namespace VesselCaller.Accounts

open Lib

variable {sha : Measurements.Sha256} {t t' : Tenant} {s s' : AccountScope} {ctx : Ctx}
  {r : Request} {a : VesselCaller.Response} {q q' : OrganizationJoinRequest}

/-! ## The invariant -/

/-- The address an open request reserves. -/
def OrganizationJoinRequest.openEmail (q : OrganizationJoinRequest) : Option String :=
  if q.isOpen then some q.email else none

/-- No transition leaves the status. -/
def JoinStatus.final : JoinStatus → Bool
  | .approved | .rejected | .expired => true
  | .unverified | .pending => false

/-- A password is stored exactly while the request is pending, and there is an account exactly
once it is approved. -/
structure JoinRow (q : OrganizationJoinRequest) : Prop where
  password : q.passwordHash.isSome = true ↔ q.status = .pending
  account : q.user.isSome = true ↔ q.status = .approved

structure JoinTable (s : AccountScope) : Prop where
  keys : (Table.keys s.joinRequests).Nodup
  rows : ∀ q ∈ s.joinRequests, JoinRow q
  accounts : ∀ q ∈ s.joinRequests, ∀ id, q.user = some id → id ∈ Table.keys s.users
  oneOpen : Table.UniqueOn OrganizationJoinRequest.openEmail s.joinRequests
  oneToken : Table.UniqueOn OrganizationJoinRequest.verificationTokenHash s.joinRequests
  oneAccount : Table.UniqueOn OrganizationJoinRequest.user s.joinRequests

/-- The address a request is open for. -/
theorem openEmail_eq_some {email : String} :
    q.openEmail = some email ↔ q.isOpen = true ∧ q.email = email := by
  unfold OrganizationJoinRequest.openEmail
  split <;> simp_all

/-- A pending request is open. -/
theorem OrganizationJoinRequest.isOpen_of_pending (h : q.status = .pending) : q.isOpen = true := by
  simp [isOpen, h]

/-- So is one whose address is unproven. -/
theorem OrganizationJoinRequest.isOpen_of_unverified (h : q.status = .unverified) :
    q.isOpen = true := by
  simp [isOpen, h]

/-- An open request has not been decided. -/
theorem JoinStatus.not_final_of_isOpen (h : q.isOpen = true) : q.status.final = false := by
  unfold OrganizationJoinRequest.isOpen at h
  cases hstatus : q.status <;> simp_all [JoinStatus.final]

/-- A request that has not been approved has no account. -/
theorem JoinRow.user_eq_none (h : JoinRow q) (hstatus : q.status ≠ .approved) : q.user = none := by
  rw [← Option.not_isSome_iff_eq_none, h.account]
  exact hstatus

/-! ## Expiry -/

/-- The request, expired. -/
def OrganizationJoinRequest.asExpired (q : OrganizationJoinRequest) : OrganizationJoinRequest :=
  { q with status := .expired, passwordHash := none, verificationTokenHash := none }

/-- Expiry rewrites unverified requests only. -/
theorem expireJoinRequests_eq_map (s : AccountScope) (ctx : Ctx) (email : String) :
    ∃ f : OrganizationJoinRequest → OrganizationJoinRequest,
      (∀ q, f q = q ∨ q.status = .unverified ∧ f q = q.asExpired) ∧
      expireJoinRequests s ctx email = { s with joinRequests := s.joinRequests.map f } := by
  refine ⟨_, fun q => ?_, rfl⟩
  split
  · rename_i hstale
    exact .inr ⟨hstale.2.1, rfl⟩
  · exact .inl rfl

/-- The table keeps its rows in place, and its users stay. -/
structure Mapped (s s' : AccountScope) (f : OrganizationJoinRequest → OrganizationJoinRequest) :
    Prop where
  rows : s'.joinRequests = s.joinRequests.map f
  change : ∀ q, f q = q ∨ q.status = .unverified ∧ f q = q.asExpired
  users : ∀ id ∈ Table.keys s.users, id ∈ Table.keys s'.users

/-- A change of every row that touches no request's identity keeps the table. -/
theorem JoinTable.mapped {f : OrganizationJoinRequest → OrganizationJoinRequest}
    (h : JoinTable s) (hf : Mapped s s' f) : JoinTable s' := by
  -- Expiry touches neither the key nor the account of a row.
  have huser : ∀ q, (f q).user = q.user := by
    intro q
    obtain hsame | ⟨_, hexpired⟩ := hf.change q
    · rw [hsame]
    · rw [hexpired]
      rfl
  refine ⟨?_, ?_, ?_, ?_, ?_, ?_⟩
  · have hkeys : Table.keys (s.joinRequests.map f) = Table.keys s.joinRequests := by
      simp only [Table.keys, List.map_map]
      refine List.map_congr_left fun q _ => ?_
      rw [Function.comp_apply]
      obtain hsame | ⟨_, hexpired⟩ := hf.change q
      · rw [hsame]
      · rw [hexpired]
        rfl
    rw [hf.rows, hkeys]
    exact h.keys
  · rw [hf.rows]
    intro q' hq'
    obtain ⟨q, hq, rfl⟩ := List.mem_map.mp hq'
    obtain hsame | ⟨hunverified, hexpired⟩ := hf.change q
    · rw [hsame]
      exact h.rows q hq
    -- Only an unverified request expires, and it has no account.
    · have hnone := (h.rows q hq).user_eq_none (by rw [hunverified]; decide)
      rw [hexpired]
      exact ⟨by simp [OrganizationJoinRequest.asExpired],
        by simp [OrganizationJoinRequest.asExpired, hnone]⟩
  · rw [hf.rows]
    intro q' hq' id hid
    obtain ⟨q, hq, rfl⟩ := List.mem_map.mp hq'
    rw [huser] at hid
    exact hf.users id (h.accounts q hq id hid)
  · rw [hf.rows]
    -- A request that expires is no longer open, so it leaves each of the three indexes.
    refine h.oneOpen.map fun q _ => ?_
    obtain hsame | ⟨_, hexpired⟩ := hf.change q
    · exact .inl hsame
    · exact .inr (by rw [hexpired]; rfl)
  · rw [hf.rows]
    refine h.oneToken.map fun q _ => ?_
    obtain hsame | ⟨_, hexpired⟩ := hf.change q
    · exact .inl hsame
    · exact .inr (by rw [hexpired]; rfl)
  · rw [hf.rows]
    refine h.oneAccount.map fun q hq => ?_
    obtain hsame | ⟨hunverified, _⟩ := hf.change q
    · exact .inl hsame
    · refine .inr ?_
      rw [huser]
      exact (h.rows q hq).user_eq_none (by rw [hunverified]; decide)

/-! ## The steps -/

/-- One more request, unverified, under a free address. -/
theorem JoinTable.cons (h : JoinTable s) (hfresh : q.id ∉ Table.keys s.joinRequests)
    (hrow : JoinRow q) (huser : q.user = none)
    (hopen : ∀ p ∈ s.joinRequests, p.email = q.email → p.isOpen = false)
    (htoken : q.verificationTokenHash ∉ s.joinRequests.map
      OrganizationJoinRequest.verificationTokenHash) (husers : s'.users = s.users)
    (hrows : s'.joinRequests = q :: s.joinRequests) : JoinTable s' := by
  refine ⟨?_, ?_, ?_, ?_, ?_, ?_⟩
  · rw [hrows, Table.keys_cons]
    exact List.nodup_cons.mpr ⟨hfresh, h.keys⟩
  · rw [hrows]
    intro p hp
    obtain rfl | hp := List.mem_cons.mp hp
    · exact hrow
    · exact h.rows p hp
  · rw [hrows, husers]
    intro p hp id hid
    obtain rfl | hp := List.mem_cons.mp hp
    · rw [huser] at hid
      cases hid
    · exact h.accounts p hp id hid
  · rw [hrows]
    refine h.oneOpen.cons fun email hemail p hp hp' => ?_
    obtain ⟨_, rfl⟩ := openEmail_eq_some.mp hemail
    obtain ⟨hpopen, hpemail⟩ := openEmail_eq_some.mp hp'
    rw [hopen p hp hpemail] at hpopen
    cases hpopen
  · rw [hrows]
    refine h.oneToken.cons fun hash hhash p hp hp' => htoken ?_
    rw [hhash, ← hp']
    exact List.mem_map_of_mem hp
  · rw [hrows]
    refine h.oneAccount.cons fun id hid => ?_
    rw [huser] at hid
    cases hid

/-- A request that is written over, with a new account or none. -/
structure Rewritten (s s' : AccountScope) (q q' : OrganizationJoinRequest) : Prop where
  found : Table.get q.id s.joinRequests = some q
  id : q'.id = q.id
  row : JoinRow q'
  email : q'.email = q.email
  wasOpen : q.isOpen = true
  token : q'.verificationTokenHash = none
  users : ∀ id ∈ Table.keys s.users, id ∈ Table.keys s'.users
  account : ∀ id, q'.user = some id → id ∈ Table.keys s'.users ∧ id ∉ Table.keys s.users
  rows : s'.joinRequests = Table.put q' s.joinRequests

/-- A request that moves on keeps the table. -/
theorem JoinTable.rewritten (h : JoinTable s) (hq : Rewritten s s' q q') : JoinTable s' := by
  have hmem := (Table.mem_of_get hq.found).1
  refine ⟨?_, ?_, ?_, ?_, ?_, ?_⟩
  · rw [hq.rows, Table.keys_put]
    exact h.keys
  · rw [hq.rows]
    intro p hp
    obtain rfl | ⟨hp, _⟩ := Table.mem_put hp
    · exact hq.row
    · exact h.rows p hp
  · rw [hq.rows]
    intro p hp id hid
    obtain rfl | ⟨hp, _⟩ := Table.mem_put hp
    · exact (hq.account id hid).1
    · exact hq.users id (h.accounts p hp id hid)
  · rw [hq.rows]
    refine h.oneOpen.put fun email hemail p hp hkey hp' => hkey ?_
    obtain ⟨_, hemail⟩ := openEmail_eq_some.mp hemail
    have hold : q.openEmail = some email :=
      openEmail_eq_some.mpr ⟨hq.wasOpen, hq.email.symm.trans hemail⟩
    rw [h.oneOpen p hp q hmem email hp' hold]
    exact hq.id.symm
  · rw [hq.rows]
    refine h.oneToken.put fun hash hhash => ?_
    rw [hq.token] at hhash
    cases hhash
  · rw [hq.rows]
    refine h.oneAccount.put fun id hid p hp _ hp' => (hq.account id hid).2 ?_
    exact h.accounts p hp id hp'

/-- What verification and review make of an open request. -/
theorem Decided.rewritten (h : JoinTable s) (found : Table.get q.id s.joinRequests = some q)
    (pending : q.status = .pending) {actor : Id} {approve : Option Role}
    (hdecided : Decided ctx actor approve s s' q q')
    (hrows : s'.joinRequests = Table.put q' s.joinRequests) : Rewritten s s' q q' := by
  have hopen := OrganizationJoinRequest.isOpen_of_pending pending
  have hnone : q.user = none :=
    (h.rows q (Table.mem_of_get found).1).user_eq_none (by rw [pending]; decide)
  cases hdecided with
  | approved role given password verifiedAt chosen fresh users =>
      refine ⟨found, rfl, ⟨?_, ?_⟩, rfl, hopen, rfl, ?_, ?_, hrows⟩
      · simp [OrganizationJoinRequest.reviewed]
      · simp
      · intro id hid
        rw [users, Table.keys_append]
        exact List.mem_append_left _ hid
      · intro id hid
        obtain rfl := Option.some.inj hid
        refine ⟨?_, fresh⟩
        rw [users, Table.keys_append]
        exact List.mem_append_right _ (List.mem_singleton.mpr rfl)
  | rejected users =>
      refine ⟨found, rfl, ⟨?_, ?_⟩, rfl, hopen, rfl, ?_, ?_, hrows⟩
      · simp [OrganizationJoinRequest.reviewed]
      · simp [OrganizationJoinRequest.reviewed, hnone]
      · rw [users]
        exact fun _ hid => hid
      · intro id hid
        have hsome : q.user = some id := hid
        rw [hnone] at hsome
        cases hsome

/-- The keys of the users only grow. -/
theorem AccountStep.keys_subset (hstep : AccountStep r a s s') (htables : AccountTables s) :
    ∀ id ∈ Table.keys s.users, id ∈ Table.keys s'.users := by
  intro id hid
  obtain ⟨u, hu, rfl⟩ := Table.mem_keys.mp hid
  obtain ⟨u', hu', _⟩ := hstep.user (Table.get_of_mem htables.users hu)
  exact Table.mem_keys.mpr ⟨u', Table.mem_of_get hu'⟩

/-- An accepted request keeps the table of join requests. -/
theorem JoinTable.step (h : JoinTable s) (htables : AccountTables s)
    (hstep : AccountStep r a s s') (hpaper : PaperStep r s s') : JoinTable s' := by
  have husers := hstep.keys_subset htables
  have hidle : s'.joinRequests = s.joinRequests → JoinTable s' := fun hrows =>
    h.mapped (f := id) ⟨by rw [hrows, List.map_id], fun _ => .inl rfl, husers⟩
  cases hpaper with
  | idle same => exact hidle same.joinRequests
  | recovery _ _ same => exact hidle same.joinRequests
  | invited _ _ same => exact hidle same.joinRequests
  | linked _ same => exact hidle same.joinRequests
  | expired ctx email same =>
      obtain ⟨f, hchange, hexpire⟩ := expireJoinRequests_eq_map s ctx email
      refine h.mapped (f := f) ⟨?_, hchange, husers⟩
      rw [same.joinRequests, hexpire]
  | submitted ctx q hq same =>
      -- A submission first expires the requests of its address, then adds its own.
      obtain ⟨f, hchange, hexpire⟩ := expireJoinRequests_eq_map s ctx q.email
      have hmap : JoinTable { s' with joinRequests := s.joinRequests.map f } :=
        h.mapped (f := f) ⟨rfl, hchange, husers⟩
      have hclosed := hq.closed
      have hhash := hq.freshHash
      rw [hexpire] at hclosed hhash
      refine hmap.cons (q := q) ?_ ?_ hq.user hclosed hhash rfl ?_
      · intro hid
        obtain ⟨p, hp, hkey⟩ := Table.mem_keys.mp hid
        obtain ⟨p₀, hp₀, rfl⟩ := List.mem_map.mp hp
        refine hq.fresh (Table.mem_keys.mpr ⟨p₀, hp₀, ?_⟩)
        rw [← hkey]
        obtain hsame | ⟨_, hexpired⟩ := hchange p₀
        · rw [hsame]
        · rw [hexpired]
          rfl
      · exact ⟨by simp [hq.passwordHash, hq.status], by simp [hq.user, hq.status]⟩
      · rw [same.joinRequests, hexpire]
  | verified ctx raw password request q mem unverified hash link found active same =>
      have hget : Table.get q.id s.joinRequests = some q := Table.get_of_mem h.keys mem
      -- The unverified request has no account yet, so naming the password is all that changes.
      have hnone : q.user = none := (h.rows q mem).user_eq_none (by rw [unverified]; decide)
      have hrewritten : Rewritten s s' q (q.verified ctx password.raw) := by
        refine ⟨hget, rfl, ⟨?_, ?_⟩, rfl, OrganizationJoinRequest.isOpen_of_unverified unverified,
          rfl, husers, ?_, same.joinRequests⟩
        · simp [OrganizationJoinRequest.verified]
        · simp [OrganizationJoinRequest.verified, hnone]
        · intro id hid
          have hsome : q.user = some id := hid
          rw [hnone] at hsome
          cases hsome
      exact h.rewritten hrewritten
  | decided ctx actor approve reserved q q' request admin found pending hdecided same =>
      exact h.rewritten (hdecided.rewritten h found pending same.joinRequests)

/-- So does a run. -/
theorem JoinTable.run (sha : Measurements.Sha256) (h : JoinTable t.toAccountScope)
    (htables : AccountTables t.toAccountScope) (rs : List Request) :
    AccountTables (run (Tenant.handle sha) t rs).toAccountScope ∧
      JoinTable (run (Tenant.handle sha) t rs).toAccountScope := by
  refine run_invariant (P := fun t : Tenant =>
    AccountTables t.toAccountScope ∧ JoinTable t.toAccountScope) ?_ rs ⟨htables, h⟩
  rintro t₁ r t₂ a ⟨h₁, hjoin⟩ hr
  exact ⟨h₁.step (handle_accounts hr), hjoin.step h₁ (handle_accounts hr) (handle_papers hr)⟩

/-- The empty table. -/
theorem JoinTable.ofEmpty (h : s.joinRequests = []) : JoinTable s := by
  refine ⟨?_, ?_, ?_, ?_, ?_, ?_⟩ <;> rw [h]
  · exact List.nodup_nil
  · exact fun q hq => by cases hq
  · exact fun q hq => by cases hq
  · exact .nil _
  · exact .nil _
  · exact .nil _

/-! ## Decided requests -/

/-- A decided or expired request is never written again. -/
theorem PaperStep.final_mem (hpaper : PaperStep r s s') (h : JoinTable s)
    (hq : q ∈ s.joinRequests) (hfinal : q.status.final = true) : q ∈ s'.joinRequests := by
  have hexpire : ∀ ctx email, q ∈ (expireJoinRequests s ctx email).joinRequests := by
    intro ctx email
    obtain ⟨f, hchange, hmap⟩ := expireJoinRequests_eq_map s ctx email
    rw [hmap]
    obtain hsame | ⟨hunverified, _⟩ := hchange q
    · exact List.mem_map.mpr ⟨q, hq, hsame⟩
    · rw [hunverified] at hfinal
      cases hfinal
  have hput : ∀ p p' : OrganizationJoinRequest, p ∈ s.joinRequests → p.isOpen = true →
      p'.id = p.id → q ∈ Table.put p' s.joinRequests := by
    intro p p' hp hopen hid
    refine Table.mem_put_of_ne hq fun hkey => ?_
    obtain rfl := Table.eq_of_key_eq h.keys hq hp (hkey.trans hid)
    rw [JoinStatus.not_final_of_isOpen hopen] at hfinal
    cases hfinal
  cases hpaper with
  | idle same => exact same.joinRequests ▸ hq
  | recovery _ _ same => exact same.joinRequests ▸ hq
  | invited _ _ same => exact same.joinRequests ▸ hq
  | linked _ same => exact same.joinRequests ▸ hq
  | expired ctx email same => exact same.joinRequests ▸ hexpire ctx email
  | submitted ctx p hp same =>
      rw [same.joinRequests]
      exact List.mem_cons_of_mem _ (hexpire ctx p.email)
  | verified ctx raw password request p mem unverified hash link found active same =>
      rw [same.joinRequests]
      exact hput p _ mem (OrganizationJoinRequest.isOpen_of_unverified unverified) rfl
  | decided ctx actor approve reserved p p' request admin found pending hdecided same =>
      rw [same.joinRequests]
      refine hput p p' (Table.mem_of_get found).1
        (OrganizationJoinRequest.isOpen_of_pending pending) ?_
      cases hdecided <;> rfl

/-- What was decided stays as it was decided. -/
theorem JoinTable.final_run (h : JoinTable t.toAccountScope) (htables : AccountTables t.toAccountScope)
    (hq : q ∈ t.joinRequests) (hfinal : q.status.final = true) (rs : List Request) :
    q ∈ (Lib.run (Tenant.handle sha) t rs).joinRequests := by
  let P : Tenant → Prop := fun t =>
    (AccountTables t.toAccountScope ∧ JoinTable t.toAccountScope) ∧ q ∈ t.joinRequests
  have hrun : P (Lib.run (Tenant.handle sha) t rs) := by
    refine run_invariant ?_ rs ⟨⟨htables, h⟩, hq⟩
    rintro t₁ r t₂ a ⟨⟨h₁, hjoin⟩, hmem⟩ hr
    exact ⟨⟨h₁.step (handle_accounts hr),
      hjoin.step h₁ (handle_accounts hr) (handle_papers hr)⟩,
      (handle_papers hr).final_mem hjoin hmem hfinal⟩
  exact hrun.2

/-! ## The account of a request -/

/-- In the history an active Admin of the organization has approved the request, and this
acceptance made the account. -/
def ApprovedByAdmin (sha : Measurements.Sha256) (t₀ : Tenant) (past : List Request)
    (requestId id : Id) : Prop :=
  ∃ before actor ctx role reserved after t' a,
    past = before ++
      .users actor ctx (.reviewJoinRequest requestId (some role) reserved) :: after ∧
    (run (Tenant.handle sha) t₀ before).handle sha
      (.users actor ctx (.reviewJoinRequest requestId (some role) reserved)) = .ok (t', a) ∧
    ActiveAdmin (run (Tenant.handle sha) t₀ before).toAccountScope actor ∧
    id ∉ Table.keys (run (Tenant.handle sha) t₀ before).users ∧ id ∈ Table.keys t'.users

/-- What was approved in a run was approved in a longer one. -/
theorem ApprovedByAdmin.concat {t₀ : Tenant} {past : List Request} {requestId id : Id}
    (h : ApprovedByAdmin sha t₀ past requestId id) (r : Request) :
    ApprovedByAdmin sha t₀ (past ++ [r]) requestId id := by
  obtain ⟨before, actor, ctx, role, reserved, after, t', a, rfl, happroval⟩ := h
  exact ⟨before, actor, ctx, role, reserved, after ++ [r], t', a, by simp, happroval⟩

/-- Where the account of a request comes from: the request had it before, or an Admin has
just approved the request. -/
inductive AccountOrigin (r : Request) (s s' : AccountScope) (q : OrganizationJoinRequest)
    (id : Id) : Prop where
  | kept (q₀ : OrganizationJoinRequest) (mem : q₀ ∈ s.joinRequests) (key : q₀.id = q.id)
      (account : q₀.user = some id)
  | approved (actor : Id) (ctx : Ctx) (role : Role) (reserved : Bool)
      (request : r = .users actor ctx (.reviewJoinRequest q.id (some role) reserved))
      (admin : ActiveAdmin s actor) (fresh : id ∉ Table.keys s.users)
      (made : id ∈ Table.keys s'.users)

/-- Expiry gives no request an account. -/
theorem AccountOrigin.ofExpired {id : Id} {email : String}
    (hq : q ∈ (expireJoinRequests s ctx email).joinRequests) (hid : q.user = some id) :
    AccountOrigin r s s' q id := by
  obtain ⟨f, hchange, hmap⟩ := expireJoinRequests_eq_map s ctx email
  rw [hmap] at hq
  obtain ⟨q₀, hq₀, rfl⟩ := List.mem_map.mp hq
  obtain hsame | ⟨_, hexpired⟩ := hchange q₀
  · rw [hsame] at hid ⊢
    exact .kept q₀ hq₀ rfl hid
  · rw [hexpired] at hid ⊢
    exact .kept q₀ hq₀ rfl hid

/-- **No account comes to a request but by approval.** -/
theorem PaperStep.account {id : Id} (hpaper : PaperStep r s s') (hq : q ∈ s'.joinRequests)
    (hid : q.user = some id) : AccountOrigin r s s' q id := by
  have hidle : s'.joinRequests = s.joinRequests → AccountOrigin r s s' q id := fun hrows =>
    .kept q (hrows ▸ hq) rfl hid
  cases hpaper with
  | idle same => exact hidle same.joinRequests
  | recovery _ _ same => exact hidle same.joinRequests
  | invited _ _ same => exact hidle same.joinRequests
  | linked _ same => exact hidle same.joinRequests
  | expired ctx email same => exact .ofExpired (same.joinRequests ▸ hq) hid
  | submitted ctx p hp same =>
      rw [same.joinRequests] at hq
      obtain rfl | hq := List.mem_cons.mp hq
      · rw [hp.user] at hid
        cases hid
      · exact .ofExpired hq hid
  | verified _ _ _ _ p mem _ _ _ _ _ same =>
      rw [same.joinRequests] at hq
      obtain rfl | ⟨hq, _⟩ := Table.mem_put hq
      · exact .kept p mem rfl hid
      · exact .kept q hq rfl hid
  | decided ctx actor approve reserved p p' request admin found pending hdecided same =>
      rw [same.joinRequests] at hq
      obtain rfl | ⟨hq, _⟩ := Table.mem_put hq
      · cases hdecided with
        | approved role given password verifiedAt chosen fresh users =>
            obtain rfl := Option.some.inj hid
            refine .approved actor ctx role reserved (given ▸ request) admin fresh ?_
            rw [users, Table.keys_append]
            exact List.mem_append_right _ (List.mem_singleton.mpr rfl)
        | rejected users => exact .kept p (Table.mem_of_get found).1 rfl hid
      · exact .kept q hq rfl hid

/-- Every account of a request goes back to an approval of the run. -/
theorem approvedByAdmin_run {t₀ : Tenant} (hnone : t₀.joinRequests = []) (past : List Request) :
    ∀ q ∈ (run (Tenant.handle sha) t₀ past).joinRequests, ∀ id, q.user = some id →
      ApprovedByAdmin sha t₀ past q.id id := by
  refine run_history (P := fun past (t : Tenant) => ∀ q ∈ t.joinRequests, ∀ id,
    q.user = some id → ApprovedByAdmin sha t₀ past q.id id) ?_ ?_ ?_ past
  · rw [hnone]
    exact fun q hq => by cases hq
  · intro past r e h _ q hq id hid
    exact (h q hq id hid).concat r
  · intro past r t' a h hr q hq id hid
    cases (handle_papers hr).account hq hid with
    | kept q₀ mem key account => exact key ▸ (h q₀ mem id account).concat r
    | approved actor ctx role reserved request admin fresh made =>
        subst request
        exact ⟨past, actor, ctx, role, reserved, [], t', a, rfl, hr, admin, fresh, made⟩

/-! ## Verification -/

/-- The raw token a verification presents. -/
def presentsVerification : Request → Option String
  | .auth _ (.verifyJoinRequest raw _) => some raw
  | _ => none

/-- The request is accepted and spends the verification token. -/
def verifiesWith (sha : Measurements.Sha256) (raw : String) (t : Tenant) (r : Request) : Bool :=
  (t.handle sha r).isOk && presentsVerification r = some raw

/-- An accepted verification found an unverified request with the token, under an active link. -/
structure Verification (t : Tenant) (raw : String) (now : Instant) (q : OrganizationJoinRequest) :
    Prop where
  mem : q ∈ t.joinRequests
  unverified : q.status = .unverified
  hash : q.verificationTokenHash = some (tokenHash raw)
  active : ∃ link, Table.get q.signupLink t.signupLinks = some link ∧ link.active now = true

/-- A proven address, at the level of the organization. -/
theorem verifyJoinRequest_handle {raw : String} {password : NewPassword}
    (hr : t.handle sha (.auth ctx (.verifyJoinRequest raw password)) = .ok (t', a)) :
    ∃ q, Verification t raw ctx.now q ∧ t'.users = t.users ∧
      t'.joinRequests = Table.put (q.verified ctx password.raw) t.joinRequests := by
  simp only [Tenant.handle, AuthOp.handle, verifyJoinRequest, bind_eq_ok, orRaise_eq_ok,
    raiseIf_eq_ok, pure_eq_ok, not_or, Bool.not_eq_false, Prod.exists, Prod.mk.injEq] at hr
  obtain ⟨_, _, ⟨_, ⟨_, _, q, hq, _, _, link, hlink, _, ⟨hactive, _⟩, rfl⟩, rfl, _⟩, rfl, _⟩ := hr
  have hfind := List.find?_some hq
  simp only [Bool.and_eq_true, decide_eq_true_eq] at hfind
  exact ⟨q, ⟨List.mem_of_find?_eq_some hq, hfind.2, hfind.1, link, hlink, hactive⟩, rfl, rfl⟩

/-- No request waits for the token. -/
def Unawaited (raw : String) (s : AccountScope) : Prop :=
  ∀ q ∈ s.joinRequests, q.verificationTokenHash ≠ some (tokenHash raw)

/-- A value nobody waits for is waited for only after it is drawn. -/
theorem Unawaited.step {raw : String} (h : Unawaited raw s) (hpaper : PaperStep r s s')
    (hdraws : drawnVerification r ≠ some raw) : Unawaited raw s' := by
  have hexpire : ∀ ctx email, ∀ q ∈ (expireJoinRequests s ctx email).joinRequests,
      q.verificationTokenHash ≠ some (tokenHash raw) := by
    intro ctx email q hq
    obtain ⟨f, hchange, hmap⟩ := expireJoinRequests_eq_map s ctx email
    rw [hmap] at hq
    obtain ⟨q₀, hq₀, rfl⟩ := List.mem_map.mp hq
    obtain hsame | ⟨_, hexpired⟩ := hchange q₀
    · rw [hsame]
      exact h q₀ hq₀
    · rw [hexpired]
      exact fun hnone => by cases hnone
  have hput : ∀ p' : OrganizationJoinRequest, p'.verificationTokenHash = none →
      ∀ q ∈ Table.put p' s.joinRequests, q.verificationTokenHash ≠ some (tokenHash raw) := by
    intro p' hnone q hq
    obtain rfl | ⟨hold, _⟩ := Table.mem_put hq
    · rw [hnone]
      exact fun hnone => by cases hnone
    · exact h q hold
  unfold Unawaited
  cases hpaper with
  | idle same => exact same.joinRequests ▸ h
  | recovery _ _ same => exact same.joinRequests ▸ h
  | invited _ _ same => exact same.joinRequests ▸ h
  | linked _ same => exact same.joinRequests ▸ h
  | expired ctx email same => exact same.joinRequests ▸ hexpire ctx email
  | submitted ctx p hp same =>
      rw [same.joinRequests]
      intro q hq
      obtain rfl | hq := List.mem_cons.mp hq
      · obtain ⟨raw', hdrawn, hhash⟩ := hp.hash
        rw [hhash]
        intro hsome
        exact hdraws (hdrawn.trans hsome)
      · exact hexpire ctx p.email q hq
  | verified _ _ _ _ p _ _ _ _ _ _ same => exact same.joinRequests ▸ hput _ rfl
  | decided _ _ _ _ p p' _ _ _ _ hdecided same =>
      refine same.joinRequests ▸ hput p' ?_
      cases hdecided <;> rfl

/-- An accepted verification spends the one row that waits for the token. -/
theorem JoinTable.spends {raw : String} (h : JoinTable t.toAccountScope)
    (hpresents : presentsVerification r = some raw) (hr : t.handle sha r = .ok (t', a)) :
    ¬Unawaited raw t.toAccountScope ∧ Unawaited raw t'.toAccountScope := by
  unfold presentsVerification at hpresents
  split at hpresents
  · obtain rfl := Option.some.inj hpresents
    obtain ⟨q, hq, _, hrows⟩ := verifyJoinRequest_handle hr
    refine ⟨fun hnone => hnone q hq.mem hq.hash, fun p hp hhash => ?_⟩
    rw [hrows] at hp
    obtain rfl | ⟨hp, hkey⟩ := Table.mem_put hp
    · cases hhash
    · obtain rfl := h.oneToken p hp q hq.mem _ hhash hq.hash
      exact hkey rfl
  · cases hpresents

/-- At most one verification is accepted with the token. -/
theorem verifications_le_one {raw : String} (h : JoinTable t.toAccountScope)
    (htables : AccountTables t.toAccountScope) {rs : List Request}
    (hdraws : ∀ r ∈ rs, drawnVerification r ≠ some raw) :
    countAlong (Tenant.handle sha) (verifiesWith sha raw) t rs ≤ 1 := by
  have halong : Along (Tenant.handle sha) (fun _ r => drawnVerification r ≠ some raw) t rs :=
    along_of_forall t hdraws
  have hrun := run_count_along (C := verifiesWith sha raw)
    (P := fun n (t : Tenant) => (AccountTables t.toAccountScope ∧ JoinTable t.toAccountScope) ∧
      (n = 0 ∨ n = 1 ∧ Unawaited raw t.toAccountScope)) (n := 0) ?_ rs halong
    ⟨⟨htables, h⟩, .inl rfl⟩
  · obtain ⟨_, hn | ⟨hn, _⟩⟩ := hrun <;> omega
  · rintro n t₁ r ⟨⟨h₁, hjoin⟩, hn⟩ hr
    cases hok : t₁.handle sha r with
    | error e =>
        have hnot : verifiesWith sha raw t₁ r = false := by
          rw [verifiesWith, hok]
          rfl
        rw [serve_of_error _ hok, hnot]
        exact ⟨⟨h₁, hjoin⟩, hn⟩
    | ok p =>
        obtain ⟨t₂, a⟩ := p
        have hpaper := handle_papers hok
        rw [serve_of_ok _ hok]
        refine ⟨⟨h₁.step (handle_accounts hok),
          hjoin.step h₁ (handle_accounts hok) hpaper⟩, ?_⟩
        cases hspends : verifiesWith sha raw t₁ r with
        | false =>
            obtain hn | ⟨hn, hnone⟩ := hn
            · exact .inl hn
            · exact .inr ⟨hn, hnone.step hpaper hr⟩
        | true =>
            simp only [verifiesWith, Bool.and_eq_true, decide_eq_true_eq] at hspends
            obtain ⟨hbefore, hafter⟩ := hjoin.spends hspends.2 hok
            obtain rfl | ⟨_, hnone⟩ := hn
            · exact .inr ⟨rfl, hafter⟩
            · exact absurd hnone hbefore

/-! ## Approval -/

/-- What an accepted approval did: it created the one account of the request, or it named the
account that an earlier approval created. -/
inductive Approval (ctx : Ctx) (role : Role) (t t' : Tenant) (q : OrganizationJoinRequest)
    (a : VesselCaller.Response) : Prop where
  | created (u : User) (q' : OrganizationJoinRequest) (pending : q.status = .pending)
      (fresh : u.id ∉ Table.keys t.users) (email : u.email = q.email) (given : u.role = role)
      (users : t'.users = t.users ++ [u]) (found : Table.get q.id t'.joinRequests = some q')
      (approved : q'.status = .approved) (account : q'.user = some u.id)
      (answer : a = .accounts (.joinApproved (joinRequestData t'.toAccountScope ctx.now q')
        (some (userData t'.toAccountScope ctx.now u)) t'.revision))
  | repeated (u : User) (approved : q.status = .approved) (same : t' = t)
      (account : q.user = some u.id) (found : Table.get u.id t.users = some u)
      (answer : a = .accounts (.joinApproved (joinRequestData t.toAccountScope ctx.now q)
        (some (userData t.toAccountScope ctx.now u)) t.revision))

/-- An account with a fresh key is the one its key finds. -/
theorem get_concat {users : List User} {u : User} (fresh : u.id ∉ Table.keys users) :
    Table.get u.id (users ++ [u]) = some u := by
  have hnone : Table.get u.id users = none := Table.get_eq_none_iff.mpr fresh
  rw [Table.get] at hnone
  rw [Table.get, List.find?_append, hnone]
  simp [key]

/-- An approval is made by an active administrator, on a pending request. -/
theorem JoinTable.approval (h : JoinTable t.toAccountScope) (htables : AccountTables t.toAccountScope)
    {actor requestId : Id} {role : Role} {reserved : Bool}
    (hr : t.handle sha (.users actor ctx (.reviewJoinRequest requestId (some role) reserved)) =
      .ok (t', a)) :
    ActiveAdmin t.toAccountScope actor ∧
      ∃ q, Table.get requestId t.joinRequests = some q ∧ Approval ctx role t t' q a := by
  simp only [Tenant.handle, UserOp.handle, bind_eq_ok, pure_eq_ok, Prod.exists, Prod.mk.injEq,
    Option.isSome_some, if_true] at hr
  obtain ⟨_, _, s₁, answer, ⟨s₂, q₁, hreview, rfl, rfl⟩, rfl, rfl⟩ := hr
  simp only [reviewJoinRequest, bind_eq_ok, orRaise_eq_ok, Option.isSome_some, Option.isNone_some,
    Bool.true_and, Bool.false_and] at hreview
  obtain ⟨_, hrequired, q, hq, hreview⟩ := hreview
  obtain ⟨hmem, hkey⟩ := Table.mem_of_get hq
  obtain rfl : q.id = requestId := hkey
  refine ⟨requireJoinAdmin_eq_ok hrequired, q, hq, ?_⟩
  split at hreview
  · rename_i happroved
    -- Approved before: the answer names the account of the earlier approval.
    have hstatus : q.status = .approved := of_decide_eq_true happroved
    simp only [bind_eq_ok, pure_eq_ok, Prod.mk.injEq] at hreview
    obtain ⟨_, _, rfl, rfl⟩ := hreview
    obtain ⟨userId, huser⟩ := Option.isSome_iff_exists.mp ((h.rows q hmem).account.mpr hstatus)
    obtain ⟨u, humem, hukey⟩ := Table.mem_keys.mp (h.accounts q hmem userId huser)
    obtain rfl : u.id = userId := hukey
    have hfound : Table.get u.id t.users = some u := Table.get_of_mem htables.users humem
    refine .repeated u hstatus rfl huser hfound ?_
    rw [approvedUser, huser, Option.bind_some, hfound]
    rfl
  -- Pending: the account is made, and the row names it.
  · simp only [Bool.false_eq_true, if_false, bind_eq_ok, orRaise_eq_ok, pure_eq_ok,
      Prod.mk.injEq] at hreview
    obtain ⟨verifiedAt, hverified, _, _, password, _, s₃, hs₃, rfl, rfl⟩ := hreview
    obtain ⟨fresh, _, rfl⟩ := insertUser_eq_ok hs₃
    have hpending : q.status = .pending := by
      simpa using (Option.filter_eq_some_iff.mp hverified).2
    let u := verifiedMember ctx q.name q.email role password verifiedAt
    let q' : OrganizationJoinRequest := { q.reviewed ctx actor with
      status := .approved, role := some role, user := some u.id }
    have hput : Table.get q'.id (Table.put q' t.joinRequests) = some q' := Table.get_put_self hq
    refine .created u q' hpending fresh rfl rfl rfl hput rfl rfl ?_
    have hfound : Table.get u.id (t.users ++ [u]) = some u := get_concat fresh
    show VesselCaller.Response.accounts (.joinApproved _ ((Table.get u.id (t.users ++ [u])).map _) _)
      = _
    rw [hfound]
    rfl

/-! ## Requests that create no account -/

/-- Filing a request makes no account. -/
theorem submitJoinRequest_users {raw name email : String} {reserved : Bool} {verification : String}
    {q : Option OrganizationJoinRequest}
    (h : submitJoinRequest s ctx raw name email reserved verification = .ok (s', q)) :
    s'.users = s.users := by
  simp only [submitJoinRequest, bind_eq_ok] at h
  obtain ⟨_, _, link, _, h⟩ := h
  split at h
  · obtain ⟨rfl, _⟩ := Prod.mk.inj (pure_eq_ok.mp h)
    rfl
  · split at h
    · obtain ⟨rfl, _⟩ := Prod.mk.inj (pure_eq_ok.mp h)
      rfl
    · simp only [bind_eq_ok, pure_eq_ok, Prod.mk.injEq] at h
      obtain ⟨_, _, _, _, rfl, _⟩ := h
      rfl

/-- Declining a request makes no account. -/
theorem rejection_users {actor requestId : Id} {reserved : Bool}
    (hr : t.handle sha (.users actor ctx (.reviewJoinRequest requestId none reserved)) =
      .ok (t', a)) : t'.users = t.users := by
  simp only [Tenant.handle, UserOp.handle, reviewJoinRequest, bind_eq_ok, orRaise_eq_ok,
    pure_eq_ok, Prod.exists, Prod.mk.injEq, Option.isSome_none, Option.isNone_none,
    Bool.false_and, Bool.true_and, Bool.false_eq_true, if_false] at hr
  obtain ⟨_, _, s₁, answer, ⟨s₂, q₁, ⟨_, _, q, _, hreview⟩, rfl, rfl⟩, rfl, rfl⟩ := hr
  split at hreview
  · obtain ⟨rfl, _⟩ := Prod.mk.inj (pure_eq_ok.mp hreview)
    rfl
  · simp only [bind_eq_ok, pure_eq_ok, Prod.mk.injEq] at hreview
    obtain ⟨_, _, rfl, _⟩ := hreview
    rfl

/-! ## The machine -/

/-- **The machine of a join request.**  In every state that is reached from an organization
without join requests, by any requests in any order: a request has an account exactly once
it is approved, and stores a password exactly while it is pending; the account was made when an
active Admin of the organization approved the request; submission, verification and rejection
create no account; a verification is accepted only for an unverified request under an active
link, and at most once for a token; an address has at most one open request; an approval is by
an active Admin, and creates one account or names the one there is; and a decided or expired
request never changes again. -/
theorem join_request_machine (sha : Measurements.Sha256) {t₀ : Tenant}
    (htables : AccountTables t₀.toAccountScope) (hnone : t₀.joinRequests = [])
    (past : List Request) :
    let t := run (Tenant.handle sha) t₀ past
    (∀ q ∈ t.joinRequests, (q.user.isSome = true ↔ q.status = .approved) ∧
      (q.passwordHash.isSome = true ↔ q.status = .pending)) ∧
    (∀ q ∈ t.joinRequests, ∀ id, q.user = some id → ApprovedByAdmin sha t₀ past q.id id) ∧
    (∀ ctx raw name email reserved verification t' a, t.handle sha
      (.auth ctx (.submitJoinRequest raw name email reserved verification)) = .ok (t', a) →
        t'.users = t.users) ∧
    (∀ ctx raw password t' a, t.handle sha (.auth ctx (.verifyJoinRequest raw password)) =
      .ok (t', a) → t'.users = t.users ∧ ∃ q, Verification t raw ctx.now q) ∧
    (∀ actor ctx requestId reserved t' a, t.handle sha
      (.users actor ctx (.reviewJoinRequest requestId none reserved)) = .ok (t', a) →
        t'.users = t.users) ∧
    (∀ raw rs, (∀ r ∈ rs, drawnVerification r ≠ some raw) →
      countAlong (Tenant.handle sha) (verifiesWith sha raw) t rs ≤ 1) ∧
    (∀ q ∈ t.joinRequests, ∀ q' ∈ t.joinRequests, q.isOpen = true → q'.isOpen = true →
      q.email = q'.email → q = q') ∧
    (∀ actor ctx requestId role reserved t' a, t.handle sha
      (.users actor ctx (.reviewJoinRequest requestId (some role) reserved)) = .ok (t', a) →
        ActiveAdmin t.toAccountScope actor ∧
          ∃ q, Table.get requestId t.joinRequests = some q ∧ Approval ctx role t t' q a) ∧
    ∀ q ∈ t.joinRequests, q.status.final = true → ∀ rs,
      q ∈ (run (Tenant.handle sha) t rs).joinRequests := by
  intro t
  obtain ⟨hpast, hjoin⟩ := (JoinTable.ofEmpty hnone).run sha htables past
  refine ⟨?_, ?_, ?_, ?_, ?_, ?_, ?_, ?_, ?_⟩
  · exact fun q hq => ⟨(hjoin.rows q hq).account, (hjoin.rows q hq).password⟩
  · exact approvedByAdmin_run hnone past
  · intro ctx raw name email reserved verification t' a hr
    simp only [Tenant.handle, AuthOp.handle, bind_eq_ok, pure_eq_ok, Prod.exists,
      Prod.mk.injEq] at hr
    obtain ⟨_, _, ⟨_, _, hop, rfl, _⟩, rfl, _⟩ := hr
    exact submitJoinRequest_users hop
  · intro ctx raw password t' a hr
    obtain ⟨q, hq, husers, _⟩ := verifyJoinRequest_handle hr
    exact ⟨husers, q, hq⟩
  · intro actor ctx requestId reserved t' a hr
    exact rejection_users hr
  · exact fun raw rs hdraws => verifications_le_one hjoin hpast hdraws
  · intro q hq q' hq' hopen hopen' hemail
    exact hjoin.oneOpen q hq q' hq' q'.email (openEmail_eq_some.mpr ⟨hopen, hemail⟩)
      (openEmail_eq_some.mpr ⟨hopen', rfl⟩)
  · exact fun actor ctx requestId role reserved t' a hr => hjoin.approval hpast hr
  · exact fun q hq hfinal rs => hjoin.final_run hpast hq hfinal rs

/-- The request 20000 is submitted, verified and approved. -/
def joined : List Request := [
  .users 1 (Sample.ctx 1) (.createSignupLink 7 "link-1"),
  .auth (Sample.ctx 2) (.submitJoinRequest "link-1" "Dayo" "dayo" false "verify-1"),
  .auth (Sample.ctx 3) (.verifyJoinRequest "verify-1" ⟨"staple tugboat 99", true⟩),
  .users 1 (Sample.ctx 4) (.reviewJoinRequest 20000 (some .viewer) false)]

/-- The approved request has the account 40000, which an Admin's approval made, and both stay as
they are whatever comes next. -/
theorem join_request_machine_joined :
    let t := run (Tenant.handle Sample.sha) Sample.tenant joined
    t.joinRequests.map (fun q => (q.status, q.passwordHash, q.user)) =
      [(.approved, none, some 40000)] ∧
    t.users.map User.id = [1, 2, 40000] ∧
    ∀ q ∈ t.joinRequests, ApprovedByAdmin Sample.sha Sample.tenant joined q.id 40000 ∧
      ∀ rs, q ∈ (run (Tenant.handle Sample.sha) t rs).joinRequests := by
  intro t
  obtain ⟨_, hadmin, _, _, _, _, _, _, hfinal⟩ :=
    join_request_machine Sample.sha sample_accountTables rfl joined
  have happroved : ∀ q ∈ t.joinRequests, q.user = some 40000 ∧ q.status.final = true := by
    decide +kernel
  refine ⟨by decide +kernel, by decide +kernel, fun q hq => ⟨?_, ?_⟩⟩
  · exact hadmin q hq 40000 (happroved q hq).1
  · exact hfinal q hq (happroved q hq).2

end VesselCaller.Accounts
