import VesselCaller.Outbox.Tasks

/-!
# Safe delivery

What a worker knows it knows of rows that it holds: nobody else commits to a row, or to the
organization of a row, whose lock a worker has taken.  So what the worker has checked is still
so when it calls the provider, whatever the others have done since.

## Main definitions

* `Phase.Knows` — what a worker has checked, and still holds;
* `Acts` — what a worker does unnoticed by the others;
* `Sound` — the invariant, and `Allowed` — the calls of the provider that may be made.
-/

namespace VesselCaller.Outbox

open Lib Accounts

variable {s s' s₁ s₂ s₃ : State} {v w : Worker} {decryptSecret : String → String}

/-! ## What others leave alone -/

/-- What a transition keeps for a worker: its locks, what is under them, and the rows of the
outbox with their organizations. -/
structure Keeps (w : Worker) (s s' : State) : Prop where
  locks : ∀ l, s.locks l = some w → s'.locks l = some w
  organizations : ∀ id, s.locks (.organization id) = some w →
    Table.get id s'.organizations = Table.get id s.organizations
  outbox : ∀ id row, Table.get id s.outbox = some row →
    ∃ row', Table.get id s'.outbox = some row' ∧ row'.organization = row.organization ∧
      (s.locks (.outbox id) = some w → row' = row)

namespace Keeps

/-- Nothing done keeps everything. -/
theorem refl (w : Worker) (s : State) : Keeps w s s where
  locks _ h := h
  organizations _ _ := rfl
  outbox _ row h := ⟨row, h, rfl, fun _ => rfl⟩

/-- Keeping, step after step. -/
theorem trans (h : Keeps w s₁ s₂) (h' : Keeps w s₂ s₃) : Keeps w s₁ s₃ where
  locks l hl := h'.locks l (h.locks l hl)
  organizations id hl := by
    rw [h'.organizations id (h.locks _ hl), h.organizations id hl]
  outbox id row hrow := by
    obtain ⟨row₂, hrow₂, horganization₂, hheld₂⟩ := h.outbox id row hrow
    obtain ⟨row₃, hrow₃, horganization₃, hheld₃⟩ := h'.outbox id row₂ hrow₂
    refine ⟨row₃, hrow₃, horganization₃.trans horganization₂, fun hl => ?_⟩
    rw [hheld₃ (h.locks _ hl), hheld₂ hl]

/-- A worker goes on. -/
theorem enter (w v : Worker) (s : State) (phase : Phase) : Keeps w s (s.enter v phase) where
  locks _ h := h
  organizations _ _ := rfl
  outbox _ row h := ⟨row, h, rfl, fun _ => rfl⟩

/-- Another worker lets go of its locks. -/
theorem release (s : State) (hne : w ≠ v) : Keeps w s { s with locks := s.locks.release v } where
  locks _ h := Locks.holds_release hne h
  organizations _ _ := rfl
  outbox _ row h := ⟨row, h, rfl, fun _ => rfl⟩

/-- A free lock is taken. -/
theorem lock {row : Row} (h : s.lock v row = .ok s') (w : Worker) : Keeps w s s' := by
  simp only [State.lock, bind_eq_ok, raiseIf_eq_ok, pure_eq_ok, not_not] at h
  obtain ⟨_, hfree, rfl⟩ := h
  exact {
    locks := fun _ hl => Locks.holds_acquire hfree hl
    organizations := fun _ _ => rfl
    outbox := fun _ row h => ⟨row, h, rfl, fun _ => rfl⟩ }

/-- A row is saved under the lock of another worker. -/
theorem save {row stored : EmailOutbox} (hne : w ≠ v) (hlock : s.locks (.outbox row.id) = some v)
    (hstored : Table.get row.id s.outbox = some stored)
    (horganization : row.organization = stored.organization) :
    Keeps w s { s with outbox := Table.put row s.outbox } where
  locks _ h := h
  organizations _ _ := rfl
  outbox id row₀ h₀ := by
    by_cases hid : id = row.id
    · subst hid
      rw [hstored] at h₀
      cases h₀
      refine ⟨row, Table.get_put_self hstored, horganization, fun hl => ?_⟩
      rw [hlock] at hl
      cases hl
      exact absurd rfl hne
    · exact ⟨row₀, by rw [Table.get_put_of_ne hid, h₀], rfl, fun _ => rfl⟩

/-- An organization is saved under the lock of another worker. -/
theorem saveOrganization {organization : Organization} (hne : w ≠ v)
    (hlock : s.locks (.organization organization.id) = some v) :
    Keeps w s { s with organizations := Table.put organization s.organizations } where
  locks _ h := h
  organizations id hl := by
    refine Table.get_put_of_ne ?_
    rintro rfl
    change s.locks (.organization organization.id) = some w at hl
    rw [hlock] at hl
    cases hl
    exact hne rfl
  outbox _ row h := ⟨row, h, rfl, fun _ => rfl⟩

/-- A row is added. -/
theorem add {row : EmailOutbox} (hnew : row.id ∉ Table.keys s.outbox) (messages : List Id)
    (w : Worker) : Keeps w s { s with outbox := row :: s.outbox, messages := messages } where
  locks _ h := h
  organizations _ _ := rfl
  outbox id row₀ h₀ := by
    refine ⟨row₀, ?_, rfl, fun _ => rfl⟩
    rw [← h₀]
    refine List.find?_cons_of_neg fun hkey => hnew ?_
    obtain ⟨hmem, hid⟩ := Table.mem_of_get h₀
    exact Table.mem_keys.mpr ⟨row₀, hmem, hid.trans (of_decide_eq_true hkey).symm⟩

end Keeps

/-! ## What a worker knows -/

/-- The organization as the worker has read it under its lock. -/
structure Scoped (s : State) (w : Worker) (organization : Organization) : Prop where
  locked : s.locks (.organization organization.id) = some w
  current : Table.get organization.id s.organizations = some organization

/-- The row the worker is about to save over one that has not been sent. -/
structure Unsent (s : State) (w : Worker) (outbox stored : EmailOutbox) : Prop where
  locked : s.locks (.outbox outbox.id) = some w
  current : Table.get outbox.id s.outbox = some stored
  unsent : stored.status ≠ .sent
  sameOrganization : outbox.organization = stored.organization
  sameKey : outbox.idempotencyKey = stored.idempotencyKey

/-- What a worker knows in each phase. -/
def Phase.Knows (s : State) (w : Worker) : Phase → Prop
  | .candidate outboxId organizationId =>
      ∃ row, Table.get outboxId s.outbox = some row ∧ row.organization = organizationId
  | .located outboxId (some organization) =>
      Scoped s w organization ∧
        ∃ row, Table.get outboxId s.outbox = some row ∧ row.organization = some organization.id
  | .sending organization outbox =>
      Scoped s w organization ∧ ∃ stored, Unsent s w outbox stored ∧
        stored.organization = some organization.id ∧ mayDeliver organization stored = true
  | .recording outbox =>
      (∃ stored, Unsent s w outbox stored) ∧ (outbox.status = .sent → outbox.context = .redacted)
  | .changing organization => s.locks (.organization organization.id) = some w
  | .idle | .located _ none | .change _ _ => True

/-- What others keep leaves a worker in the scope it has locked. -/
theorem Scoped.keeps {organization : Organization} (h : Scoped s w organization)
    (hkeeps : Keeps w s s') : Scoped s' w organization where
  locked := hkeeps.locks _ h.locked
  current := by rw [hkeeps.organizations _ h.locked, h.current]

/-- What others keep leaves a locked row unsent. -/
theorem Unsent.keeps {outbox stored : EmailOutbox} (h : Unsent s w outbox stored)
    (hkeeps : Keeps w s s') : Unsent s' w outbox stored where
  locked := hkeeps.locks _ h.locked
  current := by
    obtain ⟨row', hrow', _, hheld⟩ := hkeeps.outbox _ _ h.current
    rw [hrow', hheld h.locked]
  unsent := h.unsent
  sameOrganization := h.sameOrganization
  sameKey := h.sameKey

/-- What a worker knows stays true while the others go on. -/
theorem Phase.Knows.keeps {phase : Phase} (h : phase.Knows s w) (hkeeps : Keeps w s s') :
    phase.Knows s' w := by
  cases phase with
  | idle => trivial
  | change op organizationId => trivial
  | candidate outboxId organizationId =>
      obtain ⟨row, hrow, horganization⟩ := h
      obtain ⟨row', hrow', hsame, _⟩ := hkeeps.outbox _ _ hrow
      exact ⟨row', hrow', hsame.trans horganization⟩
  | located outboxId organization =>
      cases organization with
      | none => trivial
      | some organization =>
          obtain ⟨hscoped, row, hrow, horganization⟩ := h
          obtain ⟨row', hrow', hsame, _⟩ := hkeeps.outbox _ _ hrow
          exact ⟨hscoped.keeps hkeeps, row', hrow', hsame.trans horganization⟩
  | sending organization outbox =>
      obtain ⟨hscoped, stored, hunsent, horganization, hmay⟩ := h
      exact ⟨hscoped.keeps hkeeps, stored, hunsent.keeps hkeeps, horganization, hmay⟩
  | recording outbox =>
      obtain ⟨⟨stored, hunsent⟩, hredacted⟩ := h
      exact ⟨⟨stored, hunsent.keeps hkeeps⟩, hredacted⟩
  | changing organization => exact hkeeps.locks _ h

/-! ## The invariant -/

/-- What holds of the rows of the outbox. -/
structure Tables (outbox : List EmailOutbox) : Prop where
  ids : (Table.keys outbox).Nodup
  keys : (outbox.map EmailOutbox.idempotencyKey).Nodup
  redacted : ∀ row ∈ outbox, row.status = .sent → row.context = .redacted

/-- The rows that have been sent are still there as they were. -/
def SentKept (outbox outbox' : List EmailOutbox) : Prop :=
  ∀ row ∈ outbox, row.status = .sent → row ∈ outbox'

/-- The rows are sound, and the workers know what they should. -/
structure Sound (s : State) : Prop where
  tables : Tables s.outbox
  knows : ∀ w, (s.workers w).Knows s w

/-- Saving a row over one that has not been sent. -/
theorem Tables.save (h : Tables s.outbox) {row stored : EmailOutbox} (hunsent : Unsent s w row stored)
    (hredacted : row.status = .sent → row.context = .redacted) :
    Tables (Table.put row s.outbox) ∧ SentKept s.outbox (Table.put row s.outbox) := by
  have hstored : ∀ b ∈ s.outbox, key b = key row → b = stored := by
    intro b hb hkey
    obtain ⟨hmem, hid⟩ := Table.mem_of_get hunsent.current
    exact Table.eq_of_key_eq h.ids hb hmem (hkey.trans hid.symm)
  have hkeys : (Table.put row s.outbox).map EmailOutbox.idempotencyKey =
      s.outbox.map EmailOutbox.idempotencyKey := by
    rw [Table.put, List.map_map]
    refine List.map_congr_left fun b hb => ?_
    rw [Function.comp_apply]
    split
    · rename_i hkey
      rw [hstored b hb hkey, hunsent.sameKey]
    · rfl
  refine ⟨⟨?_, ?_, ?_⟩, ?_⟩
  · rw [Table.keys_put]
    exact h.ids
  · rw [hkeys]
    exact h.keys
  · intro b hb
    obtain rfl | ⟨hmem, _⟩ := Table.mem_put hb
    · exact hredacted
    · exact h.redacted b hmem
  · intro b hb hsent
    refine Table.mem_put_of_ne hb fun hkey => ?_
    rw [hstored b hb hkey] at hsent
    exact hunsent.unsent hsent

/-- What a worker does before it goes on: the others do not notice, and the rows stay sound. -/
structure Acts (v : Worker) (s s' : State) : Prop where
  keeps : ∀ w, w ≠ v → Keeps w s s'
  workers : s'.workers = s.workers
  tables : Tables s'.outbox
  sent : SentKept s.outbox s'.outbox

/-- A transition: the state stays sound, and what has been sent stays as it is. -/
structure Transition (s s' : State) : Prop where
  sound : Sound s'
  sent : SentKept s.outbox s'.outbox

namespace Acts

/-- Nothing done keeps everything. -/
theorem refl (h : Tables s.outbox) (v : Worker) : Acts v s s where
  keeps w _ := Keeps.refl w s
  workers := rfl
  tables := h
  sent _ hrow _ := hrow

/-- Locking a row is an act of the worker that locks it. -/
theorem lock {row : Row} (h : Tables s.outbox) (hlock : s.lock v row = .ok s') : Acts v s s' := by
  have hkeeps := Keeps.lock hlock
  simp only [State.lock, bind_eq_ok, raiseIf_eq_ok, pure_eq_ok] at hlock
  obtain ⟨_, _, rfl⟩ := hlock
  exact {
    keeps := fun w _ => hkeeps w
    workers := rfl
    tables := h
    sent := fun _ hrow _ => hrow }

/-- After the lock the worker saves a row. -/
theorem save (h : Acts v s s₁) {row stored : EmailOutbox} (hunsent : Unsent s₁ v row stored)
    (hredacted : row.status = .sent → row.context = .redacted) :
    Acts v s { s₁ with outbox := Table.put row s₁.outbox } where
  keeps w hne := (h.keeps w hne).trans
    (.save hne hunsent.locked hunsent.current hunsent.sameOrganization)
  workers := h.workers
  tables := (h.tables.save hunsent hredacted).1
  sent row hrow hsent := (h.tables.save hunsent hredacted).2 row (h.sent row hrow hsent) hsent

/-- An organization is saved by the worker that has locked it. -/
theorem saveOrganization (h : Acts v s s₁) {organization : Organization}
    (hlock : s₁.locks (.organization organization.id) = some v) :
    Acts v s { s₁ with organizations := Table.put organization s₁.organizations } where
  keeps w hne := (h.keeps w hne).trans (.saveOrganization hne hlock)
  workers := h.workers
  tables := h.tables
  sent := h.sent

/-- The worker goes on to a phase in which it knows what it should. -/
theorem enter (hs : Sound s) (h : Acts v s s') {phase : Phase} (hphase : phase.Knows s' v) :
    Transition s (s'.enter v phase) where
  sound := {
    tables := h.tables
    knows := by
      intro w
      by_cases hne : w = v
      · subst hne
        rw [show (s'.enter w phase).workers w = phase from Function.update_self ..]
        exact hphase.keeps (.enter w w s' phase)
      · rw [show (s'.enter v phase).workers w = s.workers w from
          (Function.update_of_ne hne ..).trans (congrFun h.workers w)]
        exact ((hs.knows w).keeps (h.keeps w hne)).keeps (.enter w v s' phase) }
  sent := h.sent

/-- The transaction of the worker ends. -/
theorem finish (hs : Sound s) (h : Acts v s s') : Transition s (s'.finish v) := by
  have hreleased : Acts v s { s' with locks := s'.locks.release v } := {
    keeps := fun w hne => (h.keeps w hne).trans (.release s' hne)
    workers := h.workers
    tables := h.tables
    sent := h.sent }
  exact hreleased.enter hs trivial

end Acts

/-! ## One move -/

/-- A row that was locked is locked. -/
theorem lock_locked {row : Row} (h : s.lock w row = .ok s') : s'.locks row = some w := by
  simp only [State.lock, bind_eq_ok, pure_eq_ok] at h
  obtain ⟨_, _, rfl⟩ := h
  exact Locks.acquire_self s.locks row w

/-- A change of an organization's access keeps its key. -/
theorem Lifecycle.apply_id {op : Lifecycle} {o o' : Organization} (h : op.apply o = .ok o') :
    o'.id = o.id := by
  cases op <;> simp only [Lifecycle.apply, bind_eq_ok, pure_eq_ok] at h
  case approve verifiedAdmin =>
    obtain ⟨_, _, _, _, _, _, rfl⟩ := h
    rfl
  all_goals
    obtain ⟨_, _, h⟩ := h
    split at h
    · rw [← pure_eq_ok.mp h]
    · obtain ⟨_, _, h⟩ := bind_eq_ok.mp h
      rw [← pure_eq_ok.mp h]
      rfl

/-- The row that is saved after a delivery is the row that was sent, and redacted when it has
been taken. -/
theorem deliver_row (decryptSecret : String → String) (outbox : EmailOutbox) (now : Instant)
    (answer : Except String String) :
    (deliver decryptSecret outbox now answer).2.id = outbox.id ∧
    (deliver decryptSecret outbox now answer).2.organization = outbox.organization ∧
    (deliver decryptSecret outbox now answer).2.idempotencyKey = outbox.idempotencyKey ∧
    ((deliver decryptSecret outbox now answer).2.status = .sent →
      (deliver decryptSecret outbox now answer).2.context = .redacted) := by
  unfold deliver
  cases deliveryContext decryptSecret outbox.context with
  | none => exact ⟨rfl, rfl, rfl, nofun⟩
  | some context =>
      cases answer with
      | error error => exact ⟨rfl, rfl, rfl, nofun⟩
      | ok providerId => exact ⟨rfl, rfl, rfl, fun _ => rfl⟩

/-- A row that is being delivered is still the stored one, unsent. -/
theorem Unsent.deliver {outbox stored : EmailOutbox} (h : Unsent s w outbox stored)
    (decryptSecret : String → String) (now : Instant) (answer : Except String String) :
    Unsent s w (deliver decryptSecret outbox now answer).2 stored := by
  obtain ⟨hid, horganization, hkey, _⟩ := deliver_row decryptSecret outbox now answer
  exact {
    locked := by rw [hid, h.locked]
    current := by rw [hid, h.current]
    unsent := h.unsent
    sameOrganization := horganization.trans h.sameOrganization
    sameKey := hkey.trans h.sameKey }

/-- What `deliver_outbox_email` does once it holds both locks. -/
theorem decide_transition (hs : Sound s) (h : Acts w s s₁) {organization : Option Organization}
    {outbox : EmailOutbox} (hlock : s₁.locks (.outbox outbox.id) = some w)
    (hcurrent : Table.get outbox.id s₁.outbox = some outbox)
    (hknows : (Phase.located outbox.id organization).Knows s₁ w) (now : Instant) :
    Transition s (s₁.decide w now organization outbox) := by
  unfold State.decide
  by_cases hsent : outbox.status = .sent
  · rw [if_pos hsent]
    exact h.finish hs
  · rw [if_neg hsent]
    have hsuppress (reason : String) : Transition s
        ({ s₁ with outbox := Table.put (outbox.suppress now reason) s₁.outbox }.finish w) := by
      have hunsent : Unsent s₁ w (outbox.suppress now reason) outbox :=
        ⟨hlock, hcurrent, hsent, rfl, rfl⟩
      exact (h.save hunsent nofun).finish hs
    cases organization with
    | none =>
        by_cases hfailed : outbox.status = .failed
        · rw [if_pos hfailed]
          exact h.finish hs
        · rw [if_neg hfailed]
          exact hsuppress _
    | some organization =>
        obtain ⟨hscoped, row, hrow, horganization⟩ := hknows
        rw [hcurrent] at hrow
        cases hrow
        dsimp only
        by_cases hmay : mayDeliver organization outbox = true
        · rw [if_pos hmay]
          have hunsent : Unsent s₁ w (outbox.send now) outbox :=
            ⟨hlock, hcurrent, hsent, rfl, rfl⟩
          exact h.enter hs ⟨hscoped, outbox, hunsent, horganization, hmay⟩
        · rw [if_neg hmay]
          exact hsuppress _

/-- **One action of a worker.** -/
theorem advance_transition (hs : Sound s) {now : Instant} {answer : Except String String}
    {call : Option ProviderCall}
    (h : s.advance decryptSecret w now answer (s.workers w) = .ok (s', call)) :
    Transition s s' := by
  have hknows := hs.knows w
  have hrefl := Acts.refl hs.tables w
  -- By the phase of the worker; a move takes at most one lock.
  cases hphase : s.workers w with
  | idle =>
      rw [hphase] at h
      cases h
  | candidate outboxId organizationId =>
      rw [hphase] at h hknows
      cases organizationId with
      | none =>
          cases h
          exact hrefl.enter hs trivial
      | some organizationId =>
          obtain ⟨s₁, hlock, h⟩ := bind_eq_ok.mp h
          have hacts := Acts.lock hs.tables hlock
          split at h
          · cases h
            exact hacts.finish hs
          · rename_i organization hget
            cases h
            have hid : organization.id = organizationId := (Table.mem_of_get hget).2
            subst hid
            exact hacts.enter hs ⟨⟨lock_locked hlock, hget⟩, hknows.keeps (.lock hlock w)⟩
  | located outboxId organization =>
      rw [hphase] at h hknows
      obtain ⟨s₁, hlock, h⟩ := bind_eq_ok.mp h
      have hacts := Acts.lock hs.tables hlock
      split at h
      · cases h
        exact hacts.finish hs
      · rename_i outbox hget
        cases h
        have hid : outbox.id = outboxId := (Table.mem_of_get hget).2
        subst hid
        exact decide_transition hs hacts (lock_locked hlock) hget (hknows.keeps (.lock hlock w)) now
  | sending organization outbox =>
      rw [hphase] at h hknows
      cases h
      obtain ⟨_, stored, hunsent, _⟩ := hknows
      exact hrefl.enter hs ⟨⟨stored, hunsent.deliver decryptSecret now answer⟩,
        (deliver_row decryptSecret outbox now answer).2.2.2⟩
  | recording outbox =>
      rw [hphase] at h hknows
      cases h
      -- Its lock was held all the while, so the row is as it was read.
      obtain ⟨⟨stored, hunsent⟩, hredacted⟩ := hknows
      exact (hrefl.save hunsent hredacted).finish hs
  | change op organizationId =>
      rw [hphase] at h
      obtain ⟨s₁, hlock, h⟩ := bind_eq_ok.mp h
      have hacts := Acts.lock hs.tables hlock
      split at h
      · cases h
        exact hacts.finish hs
      · rename_i organization hget
        split at h
        · cases h
          exact hacts.finish hs
        · rename_i organization' happly
          cases h
          have hid : organization'.id = organizationId :=
            (Lifecycle.apply_id happly).trans (Table.mem_of_get hget).2
          subst hid
          exact hacts.enter hs (lock_locked hlock)
  | changing organization =>
      rw [hphase] at h hknows
      cases h
      exact (hrefl.saveOrganization hknows).finish hs

/-- Queueing adds a row with a new key and a new identifier. -/
theorem queueEmail_eq_ok {outbox : List EmailOutbox} {ctx : Ctx} {r : EmailRequest}
    {row : EmailOutbox} (h : queueEmail outbox ctx r = .ok (some row)) :
    row = r.row ctx ∧ row.id ∉ Table.keys outbox ∧
      row.idempotencyKey ∉ outbox.map EmailOutbox.idempotencyKey := by
  simp only [queueEmail, bind_eq_ok] at h
  obtain ⟨_, _, _, _, _, _, h⟩ := h
  split at h
  · cases h
  · rename_i hkey
    simp only [bind_eq_ok, raiseIf_eq_ok, pure_eq_ok, Option.some.injEq] at h
    obtain ⟨_, hid, rfl⟩ := h
    exact ⟨rfl, hid, hkey⟩

/-- A queued mail is a row more. -/
theorem Tables.add {outbox : List EmailOutbox} (h : Tables outbox) {ctx : Ctx} {r : EmailRequest}
    {row : EmailOutbox} (hrow : queueEmail outbox ctx r = .ok (some row)) :
    Tables (row :: outbox) := by
  obtain ⟨rfl, hid, hkey⟩ := queueEmail_eq_ok hrow
  exact {
    ids := List.nodup_cons.mpr ⟨hid, h.ids⟩
    keys := List.nodup_cons.mpr ⟨hkey, h.keys⟩
    redacted := by
      intro b hb hsent
      obtain rfl | hb := List.mem_cons.mp hb
      · cases hsent
      · exact h.redacted b hb hsent }

/-- **One move.** -/
theorem handle_transition (hs : Sound s) {move : Move} {call : Option ProviderCall}
    (h : handle decryptSecret s move = .ok (s', call)) : Transition s s' := by
  cases move with
  | queue ctx request published =>
      rw [handle] at h
      split at h
      · cases h
      · cases h
        exact ⟨hs, fun _ hrow _ => hrow⟩
      · rename_i row hrow
        cases h
        obtain ⟨_, hid, _⟩ := queueEmail_eq_ok hrow
        exact {
          sound := ⟨hs.tables.add hrow, fun w => (hs.knows w).keeps (.add hid _ w)⟩
          sent := fun _ hmem _ => List.mem_cons_of_mem _ hmem }
  | dispatch now published =>
      cases h
      refine ⟨⟨hs.tables, fun w => (hs.knows w).keeps ?_⟩, fun _ hrow _ => hrow⟩
      exact ⟨fun _ hl => hl, fun _ _ => rfl, fun _ row hrow => ⟨row, hrow, rfl, fun _ => rfl⟩⟩
  | receive w outboxId =>
      obtain ⟨_, _, h⟩ := bind_eq_ok.mp h
      split at h
      · cases h
        exact ⟨hs, fun _ hrow _ => hrow⟩
      · rename_i outbox hget
        cases h
        exact (Acts.refl hs.tables w).enter hs ⟨outbox, hget, rfl⟩
  | lifecycle w op organizationId =>
      obtain ⟨_, _, h⟩ := bind_eq_ok.mp h
      cases h
      exact (Acts.refl hs.tables w).enter hs trivial
  | advance w now answer => exact advance_transition hs h
  | crash w =>
      rw [handle] at h
      split at h
      · cases h
      · cases h
        exact (Acts.refl hs.tables w).finish hs

/-! ## The provider -/

/-- A call is made for a row that has not been sent, and with its organization in a state in
which the row may be delivered. -/
def Allowed (s : State) (call : ProviderCall) : Prop :=
  ∃ row ∈ s.outbox, ∃ organization ∈ s.organizations,
    row.id = call.outbox ∧ row.idempotencyKey = call.idempotencyKey ∧ row.status ≠ .sent ∧
      row.organization = some organization.id ∧
      match organization.accessStatus with
      | .active => True
      | .pendingApproval => row.allowPendingApprovalOrganization = true
      | .suspended => row.allowSuspendedOrganization = true

/-- A call of the provider carries the key of its row. -/
theorem deliver_call {outbox outbox' : EmailOutbox} {now : Instant} {answer : Except String String}
    {call : ProviderCall} (h : deliver decryptSecret outbox now answer = (some call, outbox')) :
    call.outbox = outbox.id ∧ call.idempotencyKey = outbox.idempotencyKey := by
  unfold deliver at h
  split at h
  · cases h
  · cases answer <;> cases h <;> exact ⟨rfl, rfl⟩

/-- Only a worker that is about to send a row calls the provider. -/
theorem handle_call {move : Move} {call : ProviderCall}
    (h : handle decryptSecret s move = .ok (s', some call)) :
    ∃ w organization outbox, s.workers w = .sending organization outbox ∧
      call.outbox = outbox.id ∧ call.idempotencyKey = outbox.idempotencyKey := by
  -- Only a worker in the phase `sending` calls the provider.
  cases move with
  | advance w now answer =>
      rw [handle] at h
      cases hphase : s.workers w with
      | sending organization outbox =>
          rw [hphase, State.advance] at h
          obtain ⟨_, hcall⟩ := Prod.mk.inj (pure_eq_ok.mp h)
          exact ⟨w, organization, outbox, hphase, deliver_call (Prod.ext hcall rfl)⟩
      | idle => rw [hphase] at h; cases h
      | recording outbox => rw [hphase] at h; cases h
      | changing organization => rw [hphase] at h; cases h
      | candidate outboxId organizationId =>
          rw [hphase] at h
          cases organizationId with
          | none => cases h
          | some organizationId =>
              obtain ⟨_, _, h⟩ := bind_eq_ok.mp h
              split at h <;> cases h
      | located outboxId organization =>
          rw [hphase] at h
          obtain ⟨_, _, h⟩ := bind_eq_ok.mp h
          split at h <;> cases h
      | change op organizationId =>
          rw [hphase] at h
          obtain ⟨_, _, h⟩ := bind_eq_ok.mp h
          split at h
          · cases h
          · split at h <;> cases h
  | queue ctx request published =>
      rw [handle] at h
      split at h <;> cases h
  | dispatch now published => cases h
  | receive w outboxId =>
      obtain ⟨_, _, h⟩ := bind_eq_ok.mp h
      split at h <;> cases h
  | lifecycle w op organizationId =>
      obtain ⟨_, _, h⟩ := bind_eq_ok.mp h
      cases h
  | crash w =>
      rw [handle] at h
      split at h <;> cases h

/-- What `mayDeliver` lets through. -/
theorem allowance_of_mayDeliver {organization : Organization} {outbox : EmailOutbox}
    (h : mayDeliver organization outbox = true) :
    match organization.accessStatus with
    | .active => True
    | .pendingApproval => outbox.allowPendingApprovalOrganization = true
    | .suspended => outbox.allowSuspendedOrganization = true := by
  cases hstatus : organization.accessStatus with
  | active => trivial
  | pendingApproval =>
      simp [mayDeliver, Organization.isAccessActive, hstatus] at h
      exact h.1
  | suspended => simpa [mayDeliver, Organization.isAccessActive, hstatus] using h

/-- A call is made only for a row and an organization that allow it. -/
theorem allowed_of_call (hs : Sound s) {move : Move} {call : ProviderCall}
    (h : handle decryptSecret s move = .ok (s', some call)) : Allowed s call := by
  obtain ⟨w, organization, outbox, hphase, hid, hkey⟩ := handle_call h
  have hknows := hs.knows w
  rw [hphase] at hknows
  obtain ⟨hscoped, stored, hunsent, horganization, hmay⟩ := hknows
  obtain ⟨hmem, hstored⟩ := Table.mem_of_get hunsent.current
  refine ⟨stored, hmem, organization, (Table.mem_of_get hscoped.current).1, ?_⟩
  exact ⟨hstored.trans hid.symm, hunsent.sameKey.symm.trans hkey.symm, hunsent.unsent,
    horganization, allowance_of_mayDeliver hmay⟩

/-! ## Runs -/

/-- A sound outbox, and nobody at work. -/
structure Initial (s : State) : Prop where
  tables : Tables s.outbox
  idle : ∀ w, s.workers w = .idle

/-- The start is sound. -/
theorem Initial.sound (h : Initial s) : Sound s where
  tables := h.tables
  knows w := by
    rw [h.idle w]
    trivial

/-- Every run is. -/
theorem Sound.run (h : Sound s) (moves : List Move) : Sound (run (handle decryptSecret) s moves) :=
  run_invariant (fun hs hmove => (handle_transition hs hmove).sound) moves h

/-- What was sent stays sent in every run. -/
theorem Sound.sentKept (h : Sound s) (moves : List Move) :
    SentKept s.outbox (Lib.run (handle decryptSecret) s moves).outbox := by
  refine run_relation (P := Sound) (Q := fun s s' => SentKept s.outbox s'.outbox)
    (fun _ _ hrow _ => hrow) ?_ (fun hs hmove => (handle_transition hs hmove).sound)
    (fun hs hmove => (handle_transition hs hmove).sent) moves h
  intro s₁ s₂ s₃ h₁₂ h₂₃ row hrow hsent
  exact h₂₃ row (h₁₂ row hrow hsent) hsent

/-- **Safety of the outbox.**  In every run no two rows have one idempotency key, the provider is
called only for rows that have not been sent and whose organization is in a state in which the
row may be delivered, and a row that has been sent is redacted and stays as it is. -/
theorem outbox_safe (decryptSecret : String → String) {s₀ : State} (h₀ : Initial s₀)
    (moves : List Move) :
    ((run (handle decryptSecret) s₀ moves).outbox.map EmailOutbox.idempotencyKey).Nodup ∧
    (∀ move s' call, handle decryptSecret (run (handle decryptSecret) s₀ moves) move =
      .ok (s', some call) → Allowed (run (handle decryptSecret) s₀ moves) call) ∧
    ∀ row ∈ (run (handle decryptSecret) s₀ moves).outbox, row.status = .sent →
      row.context = .redacted ∧
      ∀ later, row ∈ (run (handle decryptSecret) s₀ (moves ++ later)).outbox := by
  have hsound : Sound (run (handle decryptSecret) s₀ moves) := h₀.sound.run moves
  refine ⟨hsound.tables.keys, fun _ _ _ hcall => allowed_of_call hsound hcall, ?_⟩
  intro row hrow hsent
  refine ⟨hsound.tables.redacted row hrow hsent, fun later => ?_⟩
  rw [run_append]
  exact hsound.sentKept later row hrow hsent

namespace Sample

open VesselCaller.Sample

/-- The organization 1, and an empty outbox. -/
def start : State where
  organizations := [organization]
  outbox := []
  messages := []
  locks := Locks.free
  workers _ := .idle

/-- What decrypts the one ciphertext of the sample. -/
def plaintext (ciphertext : String) : String :=
  if ciphertext = "gAAAAABp" then "\x7b\"message\": \"Welcome\"\x7d" else ""

/-- An e-mail is queued; the workers 1 and 2 both have its message, the worker 3 is about to
suspend the organization, and the worker 1 has come first to the organization. -/
def contended : List Move := [
  .queue (ctx 1) {
    toEmail := "ada@port.example"
    subject := "Welcome"
    template := "security_notice"
    ciphertext := "gAAAAABp"
    idempotencyKey := "welcome:1"
    organization := some 1
    allowSuspendedOrganization := false
    allowPendingApprovalOrganization := false } true,
  .receive 1 10000,
  .receive 2 10000,
  .lifecycle 3 .suspend 1,
  .advance 1 10 (.ok ""),
  .advance 3 11 (.ok ""),
  .advance 2 12 (.ok ""),
  .advance 1 13 (.ok "")]

/-- The worker 1 records the delivery, then the organization is suspended, and the worker 2
finds the row sent. -/
def settled : List Move := [
  .advance 1 14 (.ok "re_1"),
  .advance 1 15 (.ok ""),
  .advance 3 16 (.ok ""),
  .advance 3 17 (.ok ""),
  .advance 2 18 (.ok ""),
  .advance 2 19 (.ok "")]

/-- The sample is a start. -/
theorem start_initial : Initial start where
  tables := ⟨List.nodup_nil, List.nodup_nil, nofun⟩
  idle _ := rfl

end Sample

/-- The one call is allowed, and the row stays sent and redacted when the organization has been
suspended. -/
theorem outbox_safe_contended :
    let s := run (handle Sample.plaintext) Sample.start Sample.contended
    let s' := run (handle Sample.plaintext) s Sample.settled
    (∃ s₁ call, handle Sample.plaintext s (.advance 1 14 (.ok "re_1")) = .ok (s₁, some call) ∧
      Allowed s call) ∧
    s'.organizations.map Organization.accessStatus = [.suspended] ∧
    ∃ row ∈ s'.outbox, row.status = .sent ∧ row.context = .redacted := by
  intro s s'
  have hsafe := outbox_safe Sample.plaintext Sample.start_initial Sample.contended
  obtain ⟨s₁, call, hcall⟩ : ∃ s₁ call, handle Sample.plaintext s (.advance 1 14 (.ok "re_1")) =
      .ok (s₁, some call) := ⟨_, _, rfl⟩
  refine ⟨⟨s₁, call, hcall, hsafe.2.1 _ _ _ hcall⟩, by decide +kernel, ?_⟩
  have hafter := outbox_safe Sample.plaintext Sample.start_initial
    (Sample.contended ++ Sample.settled)
  have hsent : ∃ row ∈ s'.outbox, row.status = .sent := by decide +kernel
  obtain ⟨row, hrow, hstatus⟩ := hsent
  refine ⟨row, hrow, hstatus, (hafter.2.2 row ?_ hstatus).1⟩
  rw [run_append]
  exact hrow

end VesselCaller.Outbox
