import VesselCaller.Client.AuthContext

/-!
# No identity comes back

A sign-out, an identity operation and an event of another tab all draw a line: each of them
moves the counters past what every earlier request has taken down.  Counters never go back, so
the answer to a request from before the line finds itself outdated whenever its handler runs,
and leaves the view alone.

A sign-in that still waits for an earlier sign-out has not asked the server yet.  An event of
another tab does not call it off: it takes the counters down again before it asks.  A later
sign-out or identity operation does.

## Main definitions

* `Dated`, `Outdated` — what a call has taken down of the counters, and how it compares to
  them;
* `Follows` — what one event does to the counters and the calls;
* `Event.isBarrier`, `Predates` — the line, and the requests from before it.
-/

namespace VesselCaller.Auth

open Lib

variable {t t' t₁ t₂ t₃ : Tab} {f f' : Flight} {e : Event}

/-! ## Dates -/

/-- What the call has taken down is not ahead of the counters. -/
def Dated (t : Tab) (f : Flight) : Prop :=
  match f.call with
  | .me _ request =>
      request.generation ≤ t.authGeneration ∧ request.identityIntent ≤ t.identityIntent
  | .identity _ request localIdentityOperation =>
      request.generation ≤ t.authGeneration ∧ localIdentityOperation ≤ t.localIdentityOperation
  | .logout => True

/-- What the call has taken down is behind the counters.  An identity operation that has not
asked yet goes by the number of the operation. -/
def Outdated (t : Tab) (f : Flight) : Prop :=
  match f.call with
  | .me _ request =>
      request.generation < t.authGeneration ∧ request.identityIntent < t.identityIntent
  | .identity _ request localIdentityOperation =>
      if f.stage = .waiting then localIdentityOperation < t.localIdentityOperation
      else request.generation < t.authGeneration
  | .logout => True

/-- No counter is behind. -/
structure CountsOn (t t' : Tab) : Prop where
  generation : t.authGeneration ≤ t'.authGeneration
  intent : t.identityIntent ≤ t'.identityIntent
  localOperation : t.localIdentityOperation ≤ t'.localIdentityOperation
  next : t.nextFlight ≤ t'.nextFlight

/-- A tab that does nothing counts on. -/
theorem CountsOn.refl (t : Tab) : CountsOn t t := ⟨le_refl _, le_refl _, le_refl _, le_refl _⟩

/-- Counting on, step after step. -/
theorem CountsOn.trans (h : CountsOn t₁ t₂) (h' : CountsOn t₂ t₃) : CountsOn t₁ t₃ :=
  ⟨h.generation.trans h'.generation, h.intent.trans h'.intent,
    h.localOperation.trans h'.localOperation, h.next.trans h'.next⟩

/-- A call keeps its date when the counters move on. -/
theorem Dated.countsOn (h : Dated t f) (hcounts : CountsOn t t') : Dated t' f := by
  unfold Dated at *
  split at h
  · exact ⟨h.1.trans hcounts.generation, h.2.trans hcounts.intent⟩
  · exact ⟨h.1.trans hcounts.generation, h.2.trans hcounts.localOperation⟩
  · trivial

/-- What is outdated stays outdated. -/
theorem Outdated.countsOn (h : Outdated t f) (hcounts : CountsOn t t') : Outdated t' f := by
  unfold Outdated at *
  split at h
  · exact ⟨h.1.trans_le hcounts.generation, h.2.trans_le hcounts.intent⟩
  · by_cases hwaiting : f.stage = .waiting
    · rw [if_pos hwaiting] at h ⊢
      exact h.trans_le hcounts.localOperation
    · rw [if_neg hwaiting] at h ⊢
      exact h.trans_le hcounts.generation
  · trivial

/-! ## What an event does to the calls -/

/-- A call of the later tab is new, or one of the earlier tab that is no more up to date. -/
def Descends (t t' : Tab) (f' : Flight) : Prop :=
  (t.nextFlight ≤ f'.id ∧ f'.id < t'.nextFlight ∧ Dated t' f') ∨
  ∃ f ∈ t.flights, f.id = f'.id ∧ (Dated t f → Dated t' f') ∧ (Outdated t f → Outdated t' f')

/-- One tab follows another. -/
structure Follows (t t' : Tab) : Prop where
  counts : CountsOn t t'
  flights : ∀ f' ∈ t'.flights, Descends t t' f'

namespace Follows

/-- The calls are the same, or fewer. -/
theorem of_subset (h : CountsOn t t') (hsub : ∀ f ∈ t'.flights, f ∈ t.flights) :
    Follows t t' where
  counts := h
  flights f' hf' := .inr ⟨f', hsub f' hf', rfl, fun hd => hd.countsOn h, fun ho => ho.countsOn h⟩

/-- A tab follows itself. -/
theorem refl (t : Tab) : Follows t t := of_subset (.refl t) fun _ hf => hf

/-- What follows in two steps follows. -/
theorem trans (h : Follows t₁ t₂) (h' : Follows t₂ t₃) : Follows t₁ t₃ where
  counts := h.counts.trans h'.counts
  flights f₃ hf₃ := by
    obtain ⟨hge, hlt, hdated⟩ | ⟨f₂, hf₂, hid₂, hdated₂, houtdated₂⟩ := h'.flights f₃ hf₃
    · exact .inl ⟨h.counts.next.trans hge, hlt, hdated⟩
    · obtain ⟨hge, hlt, hdated⟩ | ⟨f₁, hf₁, hid₁, hdated₁, houtdated₁⟩ := h.flights f₂ hf₂
      · exact .inl ⟨hid₂ ▸ hge, hid₂ ▸ hlt.trans_le h'.counts.next, hdated₂ hdated⟩
      · exact .inr ⟨f₁, hf₁, hid₁.trans hid₂, fun hd => hdated₂ (hdated₁ hd),
          fun ho => houtdated₂ (houtdated₁ ho)⟩

/-- The counters are the same. -/
theorem of_eq (hgeneration : t'.authGeneration = t.authGeneration)
    (hintent : t'.identityIntent = t.identityIntent)
    (hlocal : t'.localIdentityOperation = t.localIdentityOperation)
    (hnext : t'.nextFlight = t.nextFlight) (hsub : ∀ f ∈ t'.flights, f ∈ t.flights) :
    Follows t t' :=
  of_subset ⟨hgeneration.ge, hintent.ge, hlocal.ge, hnext.ge⟩ hsub

/-- An epoch more keeps the calls as they are. -/
theorem advanceAuthSessionEpoch (t : Tab) : Follows t t.advanceAuthSessionEpoch :=
  of_eq rfl rfl rfl rfl fun _ hf => hf

/-- The counter of the requests moves on, the calls stay. -/
theorem beginAuthRequest (t : Tab) : Follows t t.beginAuthRequest :=
  of_subset ⟨Nat.le_succ _, le_refl _, le_refl _, le_refl _⟩ fun _ hf => hf

/-- A cleared session starts no call. -/
theorem clearSessionState (t : Tab) (expired : Bool) : Follows t (t.clearSessionState expired) :=
  of_subset ⟨Nat.le_succ _, Nat.le_succ _, le_refl _, le_refl _⟩ fun _ hf => hf

/-- Clearing the session advances the epoch first. -/
theorem clearSession (t : Tab) (expired : Bool) : Follows t (t.clearSession expired) :=
  (advanceAuthSessionEpoch t).trans (.clearSessionState _ expired)

/-- A call that has ended is taken from the list. -/
theorem drop (t : Tab) (id : ℕ) : Follows t (t.drop id) :=
  of_eq rfl rfl rfl rfl fun _ hf => List.mem_of_mem_filter hf

/-- The view of the tab dates nothing. -/
theorem view (t : Tab) (v : View) : Follows t { t with view := v } :=
  of_eq rfl rfl rfl rfl fun _ hf => hf

/-- The transitions of other tabs that were seen date nothing. -/
theorem transitions (t : Tab) (ids : List String) :
    Follows t { t with externalAuthTransitions := ids } :=
  of_eq rfl rfl rfl rfl fun _ hf => hf

/-- A call is added. -/
theorem add {f : Flight} (hcounts : CountsOn t t') (hflights : t'.flights = f :: t.flights)
    (hid : f.id = t.nextFlight) (hnext : t'.nextFlight = t.nextFlight + 1) (hdated : Dated t' f) :
    Follows t t' where
  counts := hcounts
  flights f' hf' := by
    rw [hflights] at hf'
    obtain rfl | hf' := List.mem_cons.mp hf'
    · exact .inl ⟨hid.ge, by omega, hdated⟩
    · exact .inr ⟨f', hf', rfl, fun hd => hd.countsOn hcounts, fun ho => ho.countsOn hcounts⟩

/-- A call is moved on. -/
theorem move {call : Call} {stage : Stage} (hf : f ∈ t.flights)
    (hdated : Dated t f → Dated t { f with call := call, stage := stage })
    (houtdated : Outdated t f → Outdated t { f with call := call, stage := stage }) :
    Follows t (t.move f call stage) where
  counts := ⟨le_refl _, le_refl _, le_refl _, le_refl _⟩
  flights f' hf' := by
    obtain rfl | ⟨hmem, _⟩ := Table.mem_put hf'
    · exact .inr ⟨f, hf, rfl, hdated, houtdated⟩
    · exact .inr ⟨f', hmem, rfl, fun hd => hd, fun ho => ho⟩

/-- A new call is dated by the counters as they stand. -/
theorem issue {call : Call} (hdated : ∀ id stage barrier, Dated t ⟨id, call, stage, barrier⟩) :
    Follows t (t.issue call) :=
  add ⟨le_refl _, le_refl _, le_refl _, Nat.le_succ _⟩ rfl rfl rfl (hdated _ _ _)

/-- A call that waits for the queue is dated like any other. -/
theorem await {call : Call} (hdated : ∀ id stage barrier, Dated t ⟨id, call, stage, barrier⟩) :
    Follows t (t.await call) :=
  add ⟨le_refl _, le_refl _, le_refl _, Nat.le_succ _⟩ rfl rfl rfl (hdated _ _ _)

/-- `me` asks for the session with the counters of now. -/
theorem startMe (t : Tab) (caller : MeCaller) : Follows t (t.startMe caller) := by
  unfold Tab.startMe
  refine (beginAuthRequest t).trans ?_
  split
  · exact (view _ _).trans (issue fun _ _ _ => ⟨le_refl _, le_refl _⟩)
  · exact issue fun _ _ _ => ⟨le_refl _, le_refl _⟩

/-- An identity request moves the counters on before it starts. -/
theorem beginIdentityRequest (t : Tab) : Follows t t.beginIdentityRequest :=
  of_subset ⟨Nat.le_succ _, Nat.le_succ _, Nat.le_succ _, le_refl _⟩ fun _ hf => hf

/-- An identity request that waits carries the counters it was begun at. -/
theorem awaitIdentity (t : Tab) (op : IdentityOperation) :
    Follows t (t.await (.identity op t.request t.localIdentityOperation)) :=
  await fun _ _ _ => ⟨le_refl _, le_refl _⟩

/-- Starting an identity request, whether it is sent or waits. -/
theorem startIdentity (t : Tab) (op : IdentityOperation) : Follows t (t.startIdentity op) := by
  unfold Tab.startIdentity
  split
  · exact ((view _ _).trans (beginIdentityRequest _)).trans (awaitIdentity _ op)
  · exact (beginIdentityRequest _).trans (awaitIdentity _ op)

/-- What follows once a sign-out has cleared the session. -/
theorem clearedLogout (t : Tab) :
    Follows ({ t with localIdentityOperation := t.localIdentityOperation + 1 }.clearSession false)
      t.startLogout := by
  refine Follows.trans (await ?_) (of_eq rfl rfl rfl rfl fun _ hf => hf)
  exact fun id stage barrier => (trivial : Dated _ ⟨id, .logout, stage, barrier⟩)

/-- Starting a sign-out, whether it is sent or waits. -/
theorem startLogout (t : Tab) : Follows t t.startLogout := by
  have hlocal : Follows t { t with localIdentityOperation := t.localIdentityOperation + 1 } :=
    of_subset ⟨le_refl _, le_refl _, Nat.le_succ _, le_refl _⟩ fun _ hf => hf
  exact (hlocal.trans (.clearSession _ false)).trans (clearedLogout t)

/-- A call enters the queue. -/
theorem enqueue {call : Call} (hf : f ∈ t.flights)
    (hdated : Dated t f → Dated t { f with call := call, stage := .queued })
    (houtdated : Outdated t f → Outdated t { f with call := call, stage := .queued }) :
    Follows t { t.move f call .queued with queue := t.queue ++ [f.id] } :=
  (move hf hdated houtdated).trans (of_eq rfl rfl rfl rfl fun _ hf => hf)

/-- The newest identity operation takes the counters down again: it was not outdated. -/
theorem rebased {op : IdentityOperation} {request : AuthRequest} (hf : f ∈ t.flights)
    (hwaiting : f.stage = .waiting)
    (hcall : f.call = .identity op request t.localIdentityOperation) :
    Follows t { t.rebaseIdentityRequest.move f
        (.identity op t.rebaseIdentityRequest.request t.localIdentityOperation) .queued with
      queue := t.rebaseIdentityRequest.queue ++ [f.id] } := by
  have hrebase : Follows t t.rebaseIdentityRequest :=
    (advanceAuthSessionEpoch t).trans (beginAuthRequest _)
  refine hrebase.trans (enqueue hf (fun _ => ⟨le_refl _, le_refl _⟩) fun houtdated => ?_)
  simp only [Outdated, hcall, if_pos hwaiting] at houtdated
  exact absurd houtdated (lt_irrefl _)

/-- A call that has waited goes on under its own number. -/
theorem resume (hf : f ∈ t.flights) (hwaiting : f.stage = .waiting) : Follows t (t.resume f) := by
  unfold Tab.resume
  cases hcall : f.call with
  | identity op request localIdentityOperation =>
      dsimp only
      split
      · exact drop t f.id
      · rename_i hnewest
        obtain rfl := not_not.mp hnewest
        have hrebase : Follows t t.rebaseIdentityRequest :=
          (advanceAuthSessionEpoch t).trans (beginAuthRequest _)
        cases op with
        | login => exact rebased hf hwaiting hcall
        | verifyMfa => exact rebased hf hwaiting hcall
        | completeTemporaryPassword challenge =>
            dsimp only
            split
            · exact hrebase.trans (drop _ f.id)
            · exact rebased hf hwaiting hcall
  | me caller request =>
      refine enqueue hf (fun hdated => ?_) fun houtdated => ?_
      · simpa only [Dated, hcall] using hdated
      · simpa only [Outdated, hcall] using houtdated
  | logout => exact enqueue hf (fun _ => trivial) fun _ => trivial

/-- A call that has been issued is moved on. -/
theorem moveOn {stage : Stage} (hf : f ∈ t.flights) (hissued : f.stage ≠ .waiting)
    (hstage : stage ≠ .waiting) : Follows t (t.move f f.call stage) := by
  refine move hf (fun hdated => hdated) fun houtdated => ?_
  cases hcall : f.call with
  | identity op request localIdentityOperation =>
      simp only [Outdated, hcall, if_neg hissued] at houtdated
      simpa only [Outdated, if_neg hstage] using houtdated
  | me caller request => simpa only [Outdated, hcall] using houtdated
  | logout => trivial

/-- A call is carried out under its own number. -/
theorem perform (hf : f ∈ t.flights) (hissued : f.stage ≠ .waiting) :
    Follows t (t.perform f) := by
  have hmove : Follows t (t.advanceAuthSessionEpoch.move f f.call .performing) :=
    (advanceAuthSessionEpoch t).trans (moveOn hf hissued nofun)
  unfold Tab.perform
  cases hcall : f.call with
  | me caller request =>
      refine move hf (fun hdated => ?_) fun houtdated => ?_
      · simpa only [Dated, hcall] using hdated
      · simpa only [Outdated, hcall] using houtdated
  | identity op request localIdentityOperation =>
      rw [hcall] at hmove
      exact hmove
  | logout =>
      rw [hcall] at hmove
      exact hmove

/-- A call whose answer is lost ends. -/
theorem abandon (hf : f ∈ t.flights) (hissued : f.stage ≠ .waiting) : Follows t (t.abandon f) := by
  have hqueue : Follows t { t with queue := t.queue.tail } :=
    of_eq rfl rfl rfl rfl fun _ hf => hf
  exact hqueue.trans (moveOn hf hissued nofun)

/-- A call that is answered ends. -/
theorem settle (hf : f ∈ t.flights) (hissued : f.stage ≠ .waiting) : Follows t (t.settle f) := by
  have hqueue : Follows t { t with queue := t.queue.tail } :=
    of_eq rfl rfl rfl rfl fun _ hf => hf
  unfold Tab.settle
  split
  · exact hqueue.trans (moveOn hf hissued nofun)
  · exact (hqueue.trans (advanceAuthSessionEpoch _)).trans (moveOn hf hissued nofun)

/-- What follows once an event of another tab has cleared the session. -/
theorem clearedReceive (t : Tab) (e : BoundaryEvent) :
    Follows (t.advanceAuthSessionEpoch.clearSessionState false) (t.receive e) := by
  have hloading := view (t.advanceAuthSessionEpoch.clearSessionState false)
    { (t.advanceAuthSessionEpoch.clearSessionState false).view with status := .loading }
  unfold Tab.receive
  cases e with
  | boundary =>
      dsimp only
      refine Follows.trans ?_ (startMe _ .reconcile)
      exact hloading.trans (transitions _ _)
  | start transitionId => exact hloading.trans (transitions _ _)
  | settled transitionId =>
      dsimp only
      split
      · exact hloading.trans (transitions _ _)
      · refine Follows.trans ?_ (startMe _ .reconcile)
        exact hloading.trans (transitions _ _)

/-- The event of another tab is taken in. -/
theorem receive (t : Tab) (e : BoundaryEvent) : Follows t (t.receive e) :=
  ((advanceAuthSessionEpoch t).trans (clearSessionState _ false)).trans (clearedReceive t e)

/-- The answer to `me` is taken in. -/
theorem completeMe (t : Tab) (caller : MeCaller) (request : AuthRequest) (answer : MeAnswer) :
    Follows t (t.completeMe caller request answer) := by
  unfold Tab.completeMe Tab.commitSession
  cases answer with
  | session session =>
      dsimp only
      split
      · exact (advanceAuthSessionEpoch t).trans (view _ _)
      · exact refl t
  | anonymous =>
      dsimp only
      split
      · exact clearSession t _
      · exact refl t
  | failure =>
      dsimp only
      split
      · cases caller
        · exact view t _
        · exact refl t
        · exact view t _
        · exact view t _
      · exact refl t

/-- An identity request that brought no session is settled. -/
theorem settleIdentityAttempt (t : Tab) (generation : ℕ) :
    Follows t (t.settleIdentityAttemptWithoutSession generation) := by
  unfold Tab.settleIdentityAttemptWithoutSession
  split
  · exact refl t
  · exact view t _

/-- A session that was brought is committed. -/
theorem commitIdentitySession (t : Tab) (session : AuthSession) (generation : ℕ) :
    Follows t (t.commitIdentitySession session generation) := by
  unfold Tab.commitIdentitySession
  split
  · exact view t _
  · exact startMe t .reconcile

/-- The answer to an identity request is taken in. -/
theorem completeIdentity {op : IdentityOperation} {generation : ℕ} {answer : IdentityAnswer}
    (h : t.completeIdentity op generation answer = some t') : Follows t t' := by
  unfold Tab.completeIdentity at h
  split at h
  · cases h
    exact settleIdentityAttempt t generation
  · split at h
    · cases h
      exact settleIdentityAttempt t generation
    · cases h
      exact (clearSessionState t false).trans (view _ _)
  · split at h
    · cases h
      exact settleIdentityAttempt t generation
    · cases h
      exact clearSessionState t false
  · cases h
    exact settleIdentityAttempt t generation
  · cases h
    exact commitIdentitySession t _ generation
  · cases h
    exact commitIdentitySession t _ generation
  · split at h
    · cases h
      exact startMe t .reconcile
    · cases h
      exact (view t _).trans (settleIdentityAttempt _ generation)
  · cases h
    exact commitIdentitySession t _ generation
  · cases h

end Follows

/-- The call that is found has the number and the stage asked for. -/
theorem flightAt_eq_ok {id : ℕ} {stage : Stage} (h : t.flightAt id stage = .ok f) :
    f ∈ t.flights ∧ f.id = id ∧ f.stage = stage := by
  rw [Tab.flightAt, orRaise_eq_ok] at h
  obtain ⟨hfound, hstage⟩ := Option.filter_eq_some_iff.mp h
  obtain ⟨hmem, hid⟩ := Table.mem_of_get hfound
  exact ⟨hmem, hid, of_decide_eq_true hstage⟩

/-- **One event.** -/
theorem handle_follows (h : handle t e = .ok (t', ())) : Follows t t' := by
  cases e with
  | me caller =>
      cases h
      exact .startMe t caller
  | identity op =>
      obtain ⟨_, _, h⟩ := bind_eq_ok.mp h
      cases h
      exact .startIdentity t op
  | logout =>
      cases h
      exact .startLogout t
  | boundary e =>
      cases h
      exact .receive t e
  -- The transition is given up; the account is asked for again once none is left.
  | watchdog transitionId =>
      obtain ⟨_, _, h⟩ := bind_eq_ok.mp h
      obtain ⟨h, _⟩ := Prod.mk.inj (pure_eq_ok.mp h)
      rw [← h]
      split
      · exact .transitions t _
      · exact (Follows.transitions t _).trans (.startMe _ .reconcile)
  | expired =>
      cases h
      exact .clearSession t true
  | resume id =>
      simp only [handle, bind_eq_ok, pure_eq_ok, Prod.mk.injEq] at h
      obtain ⟨f, hf, _, _, rfl, _⟩ := h
      obtain ⟨hmem, _, hstage⟩ := flightAt_eq_ok hf
      exact .resume hmem hstage
  | perform id =>
      simp only [handle, bind_eq_ok, pure_eq_ok, Prod.mk.injEq] at h
      obtain ⟨f, hf, _, _, rfl, _⟩ := h
      obtain ⟨hmem, _, hstage⟩ := flightAt_eq_ok hf
      exact .perform hmem (by rw [hstage]; decide)
  | abandon id =>
      simp only [handle, bind_eq_ok, pure_eq_ok, Prod.mk.injEq] at h
      obtain ⟨f, hf, _, _, rfl, _⟩ := h
      obtain ⟨hmem, _, hstage⟩ := flightAt_eq_ok hf
      exact .abandon hmem (by rw [hstage]; decide)
  | settle id =>
      simp only [handle, bind_eq_ok, pure_eq_ok, Prod.mk.injEq] at h
      obtain ⟨f, hf, rfl, _⟩ := h
      obtain ⟨hmem, _, hstage⟩ := flightAt_eq_ok hf
      exact .settle hmem (by rw [hstage]; decide)
  -- The request is dropped first, and its answer is then compared with the generation.
  | meAnswered id answer =>
      obtain ⟨f, _, h⟩ := bind_eq_ok.mp h
      split at h
      · cases h
        exact (Follows.drop t id).trans (.completeMe _ _ _ answer)
      · cases h
  | identityAnswered id answer =>
      obtain ⟨f, _, h⟩ := bind_eq_ok.mp h
      split at h
      · obtain ⟨t₁, hcomplete, h⟩ := bind_eq_ok.mp h
        cases h
        exact (Follows.drop t id).trans (.completeIdentity (orRaise_eq_ok.mp hcomplete))
      · cases h
  | logoutAnswered id =>
      obtain ⟨f, _, h⟩ := bind_eq_ok.mp h
      split at h
      · cases h
        exact .drop t id
      · cases h

/-! ## Lines -/

/-- Every call has its number, and is not ahead of the counters. -/
def AllDated (t : Tab) : Prop := ∀ f ∈ t.flights, f.id < t.nextFlight ∧ Dated t f

/-- The call with this number has been made, and is outdated. -/
def Closed (op : ℕ) (t : Tab) : Prop :=
  op < t.nextFlight ∧ ∀ f ∈ t.flights, f.id = op → Outdated t f

/-- A step keeps every call dated. -/
theorem Follows.allDated (h : Follows t t') (hdated : AllDated t) : AllDated t' := by
  intro f' hf'
  obtain ⟨_, hlt, hnew⟩ | ⟨f, hf, hid, hkept, _⟩ := h.flights f' hf'
  · exact ⟨hlt, hnew⟩
  · obtain ⟨hlt, hold⟩ := hdated f hf
    exact ⟨hid ▸ hlt.trans_le h.counts.next, hkept hold⟩

/-- What is closed stays closed. -/
theorem Follows.closed (h : Follows t t') {op : ℕ} (hclosed : Closed op t) : Closed op t' := by
  refine ⟨hclosed.1.trans_le h.counts.next, fun f' hf' hop => ?_⟩
  obtain ⟨hge, _⟩ | ⟨f, hf, hid, _, hkept⟩ := h.flights f' hf'
  · exact absurd (hop ▸ hge) (not_le.mpr hclosed.1)
  · exact hkept (hclosed.2 f hf (hid.trans hop))

/-- What draws a line. -/
def Event.isBarrier : Event → Bool
  | .logout | .identity _ | .boundary _ => true
  | _ => false

/-- The call is from before the line.  One that another tab's event is to call off has also been
sent to the queue. -/
def Predates (t : Tab) (b : Event) (op : ℕ) : Prop :=
  op < t.nextFlight ∧
    ∀ e, b = .boundary e → ∀ f ∈ t.flights, f.id = op → f.stage ≠ .waiting

/-- Counters that have moved on close the calls. -/
theorem AllDated.closed {op : ℕ} (hdated : AllDated t) (hop : op < t.nextFlight)
    (hnext : t'.nextFlight = t.nextFlight) (hflights : t'.flights = t.flights)
    (hgeneration : t.authGeneration < t'.authGeneration)
    (hintent : t.identityIntent < t'.identityIntent)
    (hlocal : ∀ f ∈ t.flights, f.id = op → f.stage = .waiting →
      t.localIdentityOperation < t'.localIdentityOperation) : Closed op t' := by
  refine ⟨hnext.symm ▸ hop, fun f hf hid => ?_⟩
  rw [hflights] at hf
  have hdate := (hdated f hf).2
  cases hcall : f.call with
  | me caller request =>
      simp only [Dated, Outdated, hcall] at hdate ⊢
      exact ⟨hdate.1.trans_lt hgeneration, hdate.2.trans_lt hintent⟩
  | identity op request localIdentityOperation =>
      simp only [Dated, Outdated, hcall] at hdate ⊢
      split
      · rename_i hwaiting
        exact hdate.2.trans_lt (hlocal f hf hid hwaiting)
      · exact hdate.1.trans_lt hgeneration
  | logout => simp only [Outdated, hcall]

/-- **A line closes what is from before it.** -/
theorem closed_of_barrier {b : Event} (hdated : AllDated t) (hb : b.isBarrier = true)
    (h : handle t b = .ok (t', ())) {op : ℕ} (hop : Predates t b op) : Closed op t' := by
  cases b with
  | logout =>
      cases h
      refine (Follows.clearedLogout t).closed ?_
      exact hdated.closed hop.1 rfl rfl (Nat.lt_succ_self _) (Nat.lt_succ_self _)
        fun _ _ _ _ => Nat.lt_succ_self _
  | identity identityOp =>
      obtain ⟨_, _, h⟩ := bind_eq_ok.mp h
      cases h
      have hbegun : ∀ v, Closed op { t with view := v }.beginIdentityRequest := fun v =>
        hdated.closed hop.1 rfl rfl (Nat.lt_succ_self _) (Nat.lt_succ_self _)
          fun _ _ _ _ => Nat.lt_succ_self _
      unfold Tab.startIdentity
      split
      · exact (Follows.awaitIdentity _ _).closed (hbegun _)
      · exact (Follows.awaitIdentity _ _).closed (hbegun t.view)
  | boundary e =>
      cases h
      refine (Follows.clearedReceive t e).closed ?_
      exact hdated.closed hop.1 rfl rfl (Nat.lt_succ_self _) (Nat.lt_succ_self _)
        fun f hf hid hwaiting => absurd hwaiting (hop.2 e rfl f hf hid)
  | _ => cases hb

/-! ## Answers -/

/-- The call an event completes. -/
def Event.answers : Event → Option ℕ
  | .meAnswered id _ | .identityAnswered id _ | .logoutAnswered id => some id
  | _ => none

/-- A reconciliation shows nothing before it is answered. -/
theorem startMe_view (t : Tab) : (t.startMe .reconcile).view = t.view := rfl

/-- An attempt of an earlier generation settles nothing. -/
theorem settleIdentityAttempt_of_ne {generation : ℕ} (h : t.authGeneration ≠ generation) :
    t.settleIdentityAttemptWithoutSession generation = t :=
  if_pos (.inl h)

/-- An outdated answer to `me` changes nothing. -/
theorem completeMe_outdated {caller : MeCaller} {request : AuthRequest} {answer : MeAnswer}
    (hgeneration : request.generation < t.authGeneration)
    (hintent : request.identityIntent < t.identityIntent) :
    t.completeMe caller request answer = t := by
  have hrequest : ¬t.isCurrentAuthRequest request = true := by
    intro h
    have hsame := congrArg AuthRequest.generation (of_decide_eq_true h)
    exact hgeneration.ne hsame.symm
  have hepoch : ¬t.isCurrentSessionEpoch request = true := by
    intro h
    rw [Tab.isCurrentSessionEpoch, Bool.and_eq_true, decide_eq_true_eq, decide_eq_true_eq] at h
    exact hintent.ne h.2.symm
  cases answer with
  | session session => exact if_neg hrequest
  | anonymous => exact if_neg hepoch
  | failure => exact if_neg hrequest

/-- An outdated answer to an identity request shows nothing. -/
theorem completeIdentity_outdated {op : IdentityOperation} {generation : ℕ}
    {answer : IdentityAnswer} (hne : t.authGeneration ≠ generation)
    (h : t.completeIdentity op generation answer = some t') : t'.view = t.view := by
  have hsettle := settleIdentityAttempt_of_ne hne
  have hcommit : ∀ session, (t.commitIdentitySession session generation).view = t.view := by
    intro session
    rw [Tab.commitIdentitySession, if_neg hne, startMe_view]
  unfold Tab.completeIdentity at h
  simp only [if_pos hne, hsettle] at h
  split at h
  all_goals first
    | cases h
      rfl
    | cases h
      exact hcommit _
    | cases h

/-- **The answer to an outdated call leaves the view alone.** -/
theorem answered_view {op : ℕ} (hclosed : Closed op t) (he : e.answers = some op)
    (h : handle t e = .ok (t', ())) : t'.view = t.view := by
  cases e with
  | meAnswered id answer =>
      cases he
      obtain ⟨f, hf, h⟩ := bind_eq_ok.mp h
      obtain ⟨hmem, hid, hstage⟩ := flightAt_eq_ok hf
      have houtdated := hclosed.2 f hmem hid
      split at h
      · rename_i caller request hcall
        cases h
        simp only [Outdated, hcall] at houtdated
        show _ = (t.drop op).view
        rw [completeMe_outdated]
        · exact houtdated.1
        · exact houtdated.2
      · cases h
  | identityAnswered id answer =>
      cases he
      obtain ⟨f, hf, h⟩ := bind_eq_ok.mp h
      obtain ⟨hmem, hid, hstage⟩ := flightAt_eq_ok hf
      have houtdated := hclosed.2 f hmem hid
      split at h
      · rename_i identityOp request localIdentityOperation hcall
        obtain ⟨t₁, hcomplete, h⟩ := bind_eq_ok.mp h
        cases h
        simp only [Outdated, hcall, hstage, reduceCtorEq, if_false] at houtdated
        exact completeIdentity_outdated (t := t.drop op) houtdated.ne' (orRaise_eq_ok.mp hcomplete)
      · cases h
  | logoutAnswered id =>
      obtain ⟨f, _, h⟩ := bind_eq_ok.mp h
      split at h
      · cases h
        rfl
      · cases h
  | _ => cases he

/-! ## Runs -/

/-- The calls of every run are dated. -/
theorem AllDated.run (h : AllDated t) (es : List Event) : AllDated (run handle t es) :=
  run_invariant (fun hdated hstep => (handle_follows hstep).allDated hdated) es h

/-- What is closed stays closed in every run. -/
theorem Closed.run {op : ℕ} (h : Closed op t) (es : List Event) : Closed op (run handle t es) :=
  run_invariant (fun hclosed hstep => (handle_follows hstep).closed hclosed) es h

/-- **No identity comes back.**  After a sign-out, an identity operation or an event of another
tab, and whatever has happened since, the answer to a request from before it leaves the view of
the tab as it is.

For an event of another tab `Predates` leaves out a sign-in that still waits behind a sign-out
when the event arrives.  Nothing of it has been sent, so no answer to it is from before the
event: when its turn comes, `beginIdentityRequest` dates it anew. -/
theorem no_resurrection {t₀ : Tab} (h₀ : t₀.flights = []) {past later : List Event} {b : Event}
    (hb : b.isBarrier = true) (hok : (handle (run handle t₀ past) b).isOk = true) {op : ℕ}
    (hop : Predates (run handle t₀ past) b op) {e : Event} (he : e.answers = some op)
    (h : handle (run handle t₀ (past ++ b :: later)) e = .ok (t', ())) :
    t'.view = (run handle t₀ (past ++ b :: later)).view := by
  have hstart : AllDated t₀ := by
    intro f hf
    rw [h₀] at hf
    cases hf
  obtain ⟨_, hbarrier⟩ := exists_ok_serve handle hok
  have hclosed : Closed op (serve handle (run handle t₀ past) b) :=
    closed_of_barrier (hstart.run past) hb hbarrier hop
  rw [run_append, run_cons] at h ⊢
  exact answered_view (hclosed.run later) he h

namespace Sample

/-- A tab that has just been opened. -/
def opened : Tab where
  authSessionEpoch := 0
  authGeneration := 0
  identityIntent := 0
  localIdentityOperation := 0
  logoutBarrier := none
  externalAuthTransitions := []
  view := { View.cleared false with status := .loading }
  queue := []
  flights := []
  nextFlight := 0

def ada : AuthSession where
  user := 1
  org := some 1
  permissions := ["calls.view"]
  platformAccess := none

/-- The tab finds nobody signed in, and a sign-in is at the server. -/
def signingIn : List Event := [
  .me .hydrate, .perform 0, .settle 0, .meAnswered 0 .anonymous,
  .identity .login, .resume 1, .perform 1]

/-- Without a sign-out the answer signs the tab in. -/
example : (run handle opened (signingIn ++ [.settle 1, .identityAnswered 1 (.session ada)])).view.user =
    some 1 := by decide

end Sample

/-- The user signs out while the sign-in is at the server, and its answer comes afterwards. -/
theorem no_resurrection_signing_in :
    let t := run handle Sample.opened (Sample.signingIn ++ .logout :: [.settle 1])
    ∃ t', handle t (.identityAnswered 1 (.session Sample.ada)) = .ok (t', ()) ∧
      t'.view = t.view ∧ t.view.status = .anonymous := by
  intro t
  obtain ⟨⟨⟩, hanswered⟩ : ∃ a, handle t (.identityAnswered 1 (.session Sample.ada)) =
      .ok (serve handle t (.identityAnswered 1 (.session Sample.ada)), a) :=
    exists_ok_serve handle (by decide)
  refine ⟨_, hanswered, no_resurrection rfl rfl (by decide) ⟨by decide, nofun⟩ rfl hanswered, ?_⟩
  decide

end VesselCaller.Auth
