import VesselCaller.Operations.StoredCaptures
import VesselCaller.Lib.Versioned

/-!
# Concurrent edits of calls and inspections

Two members who have the same call open both send the version they read with their edit.
Every write of a call or an inspection, by whatever request, raises its version
(`rows_advance`), so over any run the version identifies the record.  An edit that
carries a version is therefore accepted only on the very record its author read, and is
told that the resource changed only if it did.

Cancelling a cancelled call and finalizing an invoiced inspection are accepted without a
write.  After any other accepted edit the record that was read is gone for good: no second
edit at that version is ever accepted.

## Main definitions

* `Record`, `Op.EditsAt` — a call or an inspection as it was read, and an edit of it;
* `Stale` — the refusal of `_check_version`;
* `Record.Overtaken` — somebody else has written the record since.
-/

namespace VesselCaller.Operations

open Lib Accounts Billing Measurements

/-- A call or an inspection, as a client has read it. -/
inductive Record where
  | call (c : VesselCall)
  | inspection (i : Inspection)

/-- The tables hold the record as it was read. -/
def Record.Stored (t : Tenant) : Record → Prop
  | .call c => c ∈ t.calls
  | .inspection i => i ∈ t.inspections

/-- The request edits the record and carries the version it was read at. -/
def Op.EditsAt : Op → Record → Prop
  | .patchCall id data, .call c => id = c.id ∧ data.version = some c.version
  | .cancelCall id _ version, .call c => id = c.id ∧ version = some c.version
  | .patchInspection id data, .inspection i => id = i.id ∧ data.version = some i.version
  | .finalizeInspection id version, .inspection i =>
      id = i.id ∧ version.isNat i.version = true
  | _, _ => False

/-- The refusal of `_check_version`. -/
def Stale (e : ApiError) : Prop := e = .conflict "The resource changed. Refresh and try again"

instance (e : ApiError) : Decidable (Stale e) := inferInstanceAs (Decidable (e = _))

variable {sha : Sha256} {t t' : Tenant} {ctx : Ctx} {actor : Id} {a : VesselCaller.Response}

/-! ## Every write raises the version -/

theorem checkVersion_of_eq {version : ℕ} {provided : Option ℕ}
    (h : ∀ v ∈ provided, v = version) : checkVersion version provided = .ok () :=
  checkVersion_eq_ok.mpr h

/-- An accepted request about calls and inspections writes calls at higher versions. -/
theorem operations_advances (hkeys : (Table.keys t.calls).Nodup) {op : Op} {response : Response}
    (h : op.handle t ctx = .ok (t', response)) : Advances VesselCall.version t.calls t'.calls := by
  -- Drafting an inspection starts its call, which writes the call once.
  have hstarted {data : InspectionInput} {header : String} {call : VesselCall}
      {inspection : Inspection} (hd : Drafted ctx t data header call inspection) :
      Advances VesselCall.version t.calls (Table.put call.started t.calls) :=
    .put hkeys (Table.mem_of_get hd.found).1 rfl (Nat.lt_succ_self _)
  cases op with
  | createCall data =>
      cases handle_step h with
      | callCreated _ call _ _ tenant =>
          rw [tenant]
          exact .cons call t.calls
  | patchCall callId data =>
      simp only [Op.handle, patchCall, callResponse, bind_eq_ok, raiseIf_eq_ok, pure_eq_ok,
        Prod.exists, Prod.mk.injEq] at h
      obtain ⟨_, _, ⟨_, _, call, hcall, _, _, _, _, _, _, rfl, rfl⟩, rfl, _⟩ := h
      exact .put hkeys (getCall_eq_ok hcall).1 rfl (Nat.lt_succ_self call.version)
  | cancelCall callId reason version =>
      simp only [Op.handle, cancelCall, callResponse, bind_eq_ok, pure_eq_ok, Prod.exists,
        Prod.mk.injEq] at h
      obtain ⟨_, _, ⟨_, _, call, hcall, _, _, _, _, h⟩, rfl, _⟩ := h
      split at h <;> simp only [pure_eq_ok, Prod.mk.injEq] at h <;> obtain ⟨rfl, rfl⟩ := h
      · exact .refl _
      · exact .put hkeys (getCall_eq_ok hcall).1 rfl (Nat.lt_succ_self call.version)
  | createInspection data header =>
      cases handle_step h with
      | creationReplayed _ _ _ _ _ _ tenant => exact tenant ▸ .refl _
      | drafted _ _ call _ hd _ _ _ _ tenant =>
          rw [tenant]
          exact hstarted hd
      | draftedInvoiced _ _ call _ hd _ _ _ _ _ _ _ tenant =>
          rw [tenant]
          exact hstarted hd
      | draftedAndBilled _ _ call inspection hd sequences _ billedCall _ _ billed =>
          -- Drafted and billed at once: the call is written twice.
          refine (hstarted hd).trans ?_
          rw [billed.calls]
          exact .put (by rwa [← Table.keys_put call.started] at hkeys)
            (Table.mem_of_get billed.found).1 rfl (Nat.lt_succ_self billedCall.version)
  | patchInspection inspectionId data =>
      cases handle_step h with
      | inspectionPatched _ _ _ _ _ _ _ _ _ _ tenant =>
          rw [tenant]
          exact .refl t.calls
  | finalizeInspection inspectionId version =>
      cases handle_step h with
      | finalizationReplayed _ _ _ _ _ _ _ _ _ _ tenant => exact tenant ▸ .refl _
      | billed _ _ _ call _ _ _ billed =>
          rw [billed.calls]
          exact .put hkeys (Table.mem_of_get billed.found).1 rfl (Nat.lt_succ_self call.version)

/-- **The step**: an accepted request of any kind. -/
theorem calls_advance (ht : InspectionsInOrder t) (h : t.handle sha r = .ok (t', a)) :
    Advances VesselCall.version t.calls t'.calls := by
  have hsame (hcalls : t'.calls = t.calls) : Advances VesselCall.version t.calls t'.calls :=
    hcalls ▸ .refl _
  cases r with
  | measurements actor ctx op =>
      simp only [Tenant.handle, bind_eq_ok, pure_eq_ok, Prod.exists, Prod.mk.injEq] at h
      obtain ⟨_, _, _, _, hop, rfl, _⟩ := h
      rcases measurements_frame hop with ⟨hsite, _⟩ | ⟨_, _, _, _, _, _, hissued⟩
      · exact hsame hsite.calls
      · exact hsame hissued.sameSite.calls
  | portal ctx op =>
      simp only [Tenant.handle, bind_eq_ok, pure_eq_ok, Prod.exists, Prod.mk.injEq] at h
      obtain ⟨_, _, hop, rfl, _⟩ := h
      exact hsame (portal_frame hop).1.calls
  | operations actor ctx op =>
      simp only [Tenant.handle, bind_eq_ok, pure_eq_ok, Prod.exists, Prod.mk.injEq] at h
      obtain ⟨_, _, _, _, hop, rfl, _⟩ := h
      exact operations_advances ht.calls.keys hop
  | billing actor ctx op =>
      simp only [Tenant.handle, bind_eq_ok, pure_eq_ok, Prod.exists, Prod.mk.injEq] at h
      obtain ⟨_, _, _, _, hop, rfl, _⟩ := h
      rcases billing_cases ht.calls.ledgers.workflow hop with rfl | ⟨_, _, rfl⟩ | ⟨_, _, _, _, rfl, _⟩
      · exact hsame rfl
      · exact hsame rfl
      · exact hsame rfl
  | organizations actor ctx op =>
      simp only [Tenant.handle, bind_eq_ok, pure_eq_ok, Prod.exists, Prod.mk.injEq] at h
      obtain ⟨_, _, _, _, hop, rfl, _⟩ := h
      exact hsame (organizations_frame hop).calls
  | users actor ctx op =>
      simp only [Tenant.handle, bind_eq_ok, pure_eq_ok, Prod.exists, Prod.mk.injEq] at h
      obtain ⟨_, _, _, _, _, rfl, _⟩ := h
      exact hsame rfl
  | auth ctx op =>
      simp only [Tenant.handle, bind_eq_ok, pure_eq_ok, Prod.exists, Prod.mk.injEq] at h
      obtain ⟨_, _, _, rfl, _⟩ := h
      exact hsame rfl

theorem inspections_advance (ht : InspectionsInOrder t) (h : t.handle sha r = .ok (t', a)) :
    Advances Inspection.version t.inspections t'.inspections := by
  cases handle_inspections ht.calls.ledgers h with
  | quiet inspections _ => exact inspections ▸ .refl _
  | drafted i _ _ inspections _ => exact inspections ▸ .cons i _
  | patched i i' mem _ id _ _ version _ _ inspections _ =>
      exact inspections ▸ .put ht.keys mem id (by omega)
  | billed i ctx mem _ _ inspections _ =>
      exact inspections ▸ .put ht.keys mem rfl (Nat.lt_succ_self _)
  | draftedAndBilled i ctx _ _ _ _ inspections _ => exact inspections ▸ .cons (i.complete ctx) _

/-! ## What an accepted edit found -/

/-- An accepted edit of a call found it at the version it carries, and changed nothing or
left it at a higher one. -/
theorem call_edited {op : Op} {c : VesselCall} {response : Response}
    (edits : op.EditsAt (.call c)) (h : op.handle t ctx = .ok (t', response)) :
    ∃ c₀ ∈ t.calls, c₀.id = c.id ∧ c₀.version = c.version ∧
      (t' = t ∨ ∃ c' ∈ t'.calls, c'.id = c.id ∧ c.version < c'.version) := by
  cases op with
  | patchCall callId data =>
      obtain ⟨rfl, hversion⟩ := edits
      simp only [Op.handle, patchCall, callResponse, bind_eq_ok, raiseIf_eq_ok, pure_eq_ok,
        checkVersion_eq_ok, Prod.exists, Prod.mk.injEq] at h
      obtain ⟨_, _, ⟨_, _, c₀, hcall, _, _, _, hcarried, _, _, rfl, rfl⟩, rfl, _⟩ := h
      obtain ⟨mem, hid⟩ := getCall_eq_ok hcall
      have hsame : c.version = c₀.version := hcarried c.version hversion
      refine ⟨c₀, mem, hid, hsame.symm, .inr ⟨_, Table.mem_put_self mem rfl, hid, ?_⟩⟩
      exact hsame ▸ Nat.lt_succ_self c₀.version
  | cancelCall callId reason version =>
      obtain ⟨rfl, rfl⟩ := edits
      simp only [Op.handle, cancelCall, callResponse, bind_eq_ok, pure_eq_ok, checkVersion_eq_ok,
        Prod.exists, Prod.mk.injEq] at h
      obtain ⟨_, _, ⟨_, _, c₀, hcall, _, hcarried, _, _, h⟩, rfl, _⟩ := h
      obtain ⟨mem, hid⟩ := getCall_eq_ok hcall
      have hsame : c.version = c₀.version := hcarried c.version rfl
      refine ⟨c₀, mem, hid, hsame.symm, ?_⟩
      split at h <;> simp only [pure_eq_ok, Prod.mk.injEq] at h <;> obtain ⟨rfl, rfl⟩ := h
      · exact .inl rfl
      · refine .inr ⟨_, Table.mem_put_self mem rfl, hid, ?_⟩
        exact hsame ▸ Nat.lt_succ_self c₀.version
  | _ => exact edits.elim

theorem inspection_edited {op : Op} {i : Inspection} {response : Response}
    (edits : op.EditsAt (.inspection i)) (h : op.handle t ctx = .ok (t', response)) :
    ∃ i₀ ∈ t.inspections, i₀.id = i.id ∧ i₀.version = i.version ∧
      (t' = t ∨ ∃ i' ∈ t'.inspections, i'.id = i.id ∧ i.version < i'.version) := by
  cases op with
  | patchInspection inspectionId data =>
      obtain ⟨rfl, hversion⟩ := edits
      obtain ⟨_, i₀, hget, _, hcarried, _, _, _, _, rfl, _⟩ := patchInspection_iff.mp h
      obtain ⟨mem, hid⟩ := Table.mem_of_get hget
      have hsame : i.version = i₀.version := hcarried i.version hversion
      refine ⟨i₀, mem, hid, hsame.symm, .inr ⟨_, Table.mem_put_self mem rfl, hid, ?_⟩⟩
      exact hsame ▸ Nat.lt_succ_self i₀.version
  | finalizeInspection inspectionId version =>
      obtain ⟨rfl, hversion⟩ := edits
      have hview : finalizeView t ctx i.id version = .ok (t', response) := h
      simp only [finalizeView, bind_eq_ok, checkRawVersion_eq_ok, Prod.exists] at hview
      obtain ⟨i₀, hget, _, hcarried, t₁, i₁, v, hfinal, hresponse⟩ := hview
      obtain ⟨mem, hid⟩ := getInspection_eq_ok hget
      obtain ⟨rfl, -⟩ := finalizedResponse_eq_ok hresponse
      have hsame : i.version = i₀.version := by
        rcases hcarried with rfl | hequal
        · cases hversion
        · exact Json.eq_of_isNat hversion hequal
      refine ⟨i₀, mem, hid, hsame.symm, ?_⟩
      obtain ⟨_, _, rfl⟩ | ⟨_, call, rate, hbilled⟩ := finalizeInspection_cases hfinal
      · exact .inl rfl
      · refine .inr ⟨i₀.complete ctx, ?_, hid, hsame ▸ Nat.lt_succ_self i₀.version⟩
        rw [hbilled.rows.1]
        exact Table.mem_put_self mem rfl
  | _ => exact edits.elim

/-! ## When an edit is told that the resource changed -/

theorem get_avoids (value : Json) (name : String) : Avoids Stale (value.get name) := by
  cases value with
  | obj fields => exact avoids_ok rfl
  | null | bool | num | str | arr =>
      rintro e he
      cases he
      decide

theorem captureFields_avoids (value : Json) (names : List (String × String)) :
    Avoids Stale (captureFields value names) :=
  avoids_mapM fun n _ => avoids_bind (get_avoids value n.2) fun _ _ => avoids_ok rfl

/-- What cannot be shown of an inspection is no stale version. -/
theorem inspectionData_avoids (i : Inspection) : Avoids Stale (inspectionData i) := by
  obtain ⟨sections, hsections⟩ := inspectionReportSections_eq i
  have hjetty : Avoids Stale (jettySections i) := by
    unfold jettySections
    split
    · exact avoids_bind (captureFields_avoids _ _) fun _ _ => avoids_ok rfl
    · exact avoids_ok rfl
  have hcapture : Avoids Stale (captureSection i) := by
    unfold captureSection
    split <;> exact avoids_bind (captureFields_avoids _ _) fun _ _ => avoids_ok rfl
  refine avoids_bind ?_ fun _ _ => avoids_ok rfl
  rw [hsections]
  exact avoids_bind hjetty fun _ _ => avoids_bind hcapture fun _ _ => avoids_ok rfl

theorem patchCall_avoids {data : CallInput} {c : VesselCall}
    (hget : Table.get c.id t.calls = some c) (hversion : ∀ v ∈ data.version, v = c.version) :
    Avoids Stale (patchCall t c.id data) := by
  refine avoids_bind (avoids_raiseIf (by decide)) fun _ _ => ?_
  refine avoids_bind (avoids_orRaise (by decide)) fun c₀ hc₀ => ?_
  obtain rfl : c₀ = c := Option.some.inj ((orRaise_eq_ok.mp hc₀).symm.trans hget)
  refine avoids_bind (avoids_raiseIf (by decide)) fun _ _ => ?_
  refine avoids_bind (avoids_ok (checkVersion_of_eq hversion)) fun _ _ => ?_
  exact avoids_bind (avoids_raiseIf (by decide)) fun _ _ => avoids_ok rfl

theorem cancelCall_avoids {reason : String} {version : Option ℕ} {c : VesselCall}
    (hget : Table.get c.id t.calls = some c) (hversion : ∀ v ∈ version, v = c.version) :
    Avoids Stale (cancelCall t ctx c.id reason version) := by
  refine avoids_bind (avoids_raiseIf (by decide)) fun _ _ => ?_
  refine avoids_bind (avoids_orRaise (by decide)) fun c₀ hc₀ => ?_
  obtain rfl : c₀ = c := Option.some.inj ((orRaise_eq_ok.mp hc₀).symm.trans hget)
  refine avoids_bind (avoids_ok (checkVersion_of_eq hversion)) fun _ _ => ?_
  refine avoids_bind (avoids_raiseIf (by decide)) fun _ _ => ?_
  split <;> exact avoids_ok rfl

theorem patchInspection_avoids (ht : InspectionsInOrder t) {data : InspectionInput}
    {i : Inspection} (hi : i ∈ t.inspections) (hversion : ∀ v ∈ data.version, v = i.version) :
    Avoids Stale (patchInspection t ctx i.id data) := by
  have hget := Table.get_of_mem ht.keys hi
  obtain ⟨⟨before, hbefore⟩, _⟩ := ht.shown i hi
  refine avoids_bind (avoids_raiseIf (by decide)) fun _ _ => ?_
  refine avoids_bind (avoids_orRaise (by decide)) fun i₀ hi₀ => ?_
  obtain rfl : i₀ = i := Option.some.inj ((orRaise_eq_ok.mp hi₀).symm.trans hget)
  refine avoids_bind (avoids_raiseIf (by decide)) fun _ _ => ?_
  refine avoids_bind (avoids_ok (checkVersion_of_eq hversion)) fun _ _ => ?_
  refine avoids_bind (avoids_ok hbefore) fun _ _ => ?_
  refine avoids_bind (avoids_raiseIf (by decide)) fun _ _ => ?_
  exact avoids_bind (inspectionData_avoids _) fun _ _ => avoids_ok rfl

theorem finalizeView_avoids_stale (ht : InspectionsInOrder t) {version : Json}
    {i : Inspection} (hi : i ∈ t.inspections) (hversion : version.isNat i.version = true) :
    Avoids Stale (finalizeView t ctx i.id version) := by
  have hget := Table.get_of_mem ht.keys hi
  refine avoids_bind (avoids_orRaise (by decide)) fun i₀ hi₀ => ?_
  obtain rfl : i₀ = i := Option.some.inj ((orRaise_eq_ok.mp hi₀).symm.trans hget)
  have hchecked : checkRawVersion i₀.version version = .ok () :=
    checkRawVersion_eq_ok.mpr (.inr hversion)
  refine avoids_bind (avoids_ok hchecked) fun _ _ => ?_
  refine avoids_bind ?_ fun r _ => ?_
  · unfold finalizeInspection
    split
    · exact avoids_ok rfl
    · obtain ⟨rate, hrate⟩ :=
        exists_rateForInspection (i := i₀.complete ctx) (ht.capturesRead i₀ hi).1 t.settings
      obtain ⟨step, _, _, hstep⟩ := ht.calls.ledgers.workflow.activeDefaultStep ctx
      refine avoids_bind (avoids_orRaise (by decide)) fun call _ => ?_
      refine avoids_bind (avoids_ok hrate) fun _ _ => ?_
      refine avoids_bind (avoids_ok hstep) fun _ _ => ?_
      refine avoids_bind (avoids_raiseIf (by decide)) fun _ _ => ?_
      exact avoids_bind (avoids_raiseIf (by decide)) fun _ _ => avoids_ok rfl
  · refine avoids_bind (inspectionData_avoids _) fun _ _ => ?_
    exact avoids_bind (avoids_orRaise (by decide)) fun _ _ => avoids_ok rfl

/-- **No false alarm**: an edit of a record that is stored as it was read is not told that
the resource changed. -/
theorem edit_avoids_stale (ht : InspectionsInOrder t) {op : Op} {x : Record}
    (edits : op.EditsAt x) (stored : x.Stored t) : Avoids Stale (op.handle t ctx) := by
  cases x with
  | call c =>
      have hget : Table.get c.id t.calls = some c := Table.get_of_mem ht.calls.keys stored
      cases op with
      | patchCall callId data =>
          obtain ⟨rfl, hversion⟩ := edits
          exact avoids_bind (patchCall_avoids hget (by simp [hversion])) fun _ _ => avoids_ok rfl
      | cancelCall callId reason version =>
          obtain ⟨rfl, rfl⟩ := edits
          exact avoids_bind (cancelCall_avoids hget (by simp)) fun _ _ => avoids_ok rfl
      | _ => exact edits.elim
  | inspection i =>
      cases op with
      | patchInspection inspectionId data =>
          obtain ⟨rfl, hversion⟩ := edits
          exact patchInspection_avoids ht stored (by simp [hversion])
      | finalizeInspection inspectionId version =>
          obtain ⟨rfl, hversion⟩ := edits
          exact finalizeView_avoids_stale ht stored hversion
      | _ => exact edits.elim

theorem authorize_avoids {permission : Permission} :
    Avoids Stale (t.authorize ctx actor permission) := by
  refine avoids_bind ?_ fun _ _ => ?_
  · refine avoids_bind (avoids_raiseIf (by decide)) fun _ _ => ?_
    refine avoids_bind (avoids_orRaise (by decide)) fun _ _ => ?_
    exact avoids_bind (avoids_raiseIf (by decide)) fun _ _ => avoids_ok rfl
  · exact avoids_bind (avoids_raiseIf (by decide)) fun _ _ => avoids_ok rfl

/-! ## Runs -/

/-- A later version of the record is stored. -/
def Record.Overtaken (t : Tenant) : Record → Prop
  | .call c => ∃ c' ∈ t.calls, c'.id = c.id ∧ c.version < c'.version
  | .inspection i => ∃ i' ∈ t.inspections, i'.id = i.id ∧ i.version < i'.version

/-- Over a run every call and every inspection goes on, as it was or at a higher version. -/
theorem rows_advance (sha : Sha256) (ht : InspectionsInOrder t)
    (rs : List Request) :
    Advances VesselCall.version t.calls (run (Tenant.handle sha) t rs).calls ∧
      Advances Inspection.version t.inspections (run (Tenant.handle sha) t rs).inspections := by
  have hinvariant : ∀ {s : Tenant} {r : Request} {s' : Tenant} {a : VesselCaller.Response},
      InspectionsInOrder s → s.handle sha r = .ok (s', a) → InspectionsInOrder s' :=
    fun hs hr => hs.step hr
  exact ⟨run_advances hinvariant (fun hs hr => calls_advance hs hr) rs ht,
    run_advances hinvariant (fun hs hr => inspections_advance hs hr) rs ht⟩

/-- A record that was overtaken is not stored again. -/
theorem Record.Overtaken.not_stored {x : Record} (h : x.Overtaken t) (ht : InspectionsInOrder t)
    (rs : List Request) : ¬x.Stored (run (Tenant.handle sha) t rs) := by
  have hend : InspectionsInOrder (run (Tenant.handle sha) t rs) := ht.run rs
  obtain ⟨hcalls, hinspections⟩ := rows_advance sha ht rs
  cases x with
  | call c =>
      obtain ⟨c', hc', hid, hversion⟩ := h
      exact hcalls.not_mem hend.calls.keys hc' hid hversion
  | inspection i =>
      obtain ⟨i', hi', hid, hversion⟩ := h
      exact hinspections.not_mem hend.keys hi' hid hversion

/-- An accepted edit found the record as it was read, and changed nothing or overtook it. -/
theorem Record.Stored.of_edited {s : Tenant} {since : List Request} {x : Record} {op : Op}
    {response : Response} (read : x.Stored s) (hs : InspectionsInOrder s)
    (ht : run (Tenant.handle sha) s since = t) (edits : op.EditsAt x)
    (h : op.handle t ctx = .ok (t', response)) :
    x.Stored t ∧ (t' = t ∨ x.Overtaken t') := by
  have hend : InspectionsInOrder t := ht ▸ hs.run since
  have hadvances := rows_advance sha hs since
  rw [ht] at hadvances
  cases x with
  | call c =>
      obtain ⟨c₀, mem, hid, hversion, hafter⟩ := call_edited edits h
      obtain rfl := hadvances.1.eq_of_version hend.calls.keys read mem hid hversion
      exact ⟨mem, hafter⟩
  | inspection i =>
      obtain ⟨i₀, mem, hid, hversion, hafter⟩ := inspection_edited edits h
      obtain rfl := hadvances.2.eq_of_version hend.keys read mem hid hversion
      exact ⟨mem, hafter⟩

/-- **No update is lost.**  A client reads a call or an inspection, any requests are served
in between, and the client's edit arrives with the version it read.  If it is accepted,
the record is still exactly as it was read, and either nothing is written or the record as
it was read is gone for good, so that no later edit at this version is accepted.  If it is
refused because the resource changed, the resource did change. -/
theorem edits_lose_no_update (sha : Sha256) {t₀ s t : Tenant} (h₀ : t₀.Initial)
    (before since : List Request) (hs : run (Tenant.handle sha) t₀ before = s)
    (ht : run (Tenant.handle sha) s since = t) {x : Record} (read : x.Stored s) {op : Op}
    (edits : op.EditsAt x) (actor : Id) (ctx : Ctx) :
    (∀ t' a, t.handle sha (.operations actor ctx op) = .ok (t', a) → x.Stored t ∧
      (t' = t ∨ ∀ later, ¬x.Stored (run (Tenant.handle sha) t' later))) ∧
    (∀ e, t.handle sha (.operations actor ctx op) = .error e → Stale e → ¬x.Stored t) := by
  have hread : InspectionsInOrder s := hs ▸ (InspectionsInOrder.ofInitial h₀).run before
  have hnow : InspectionsInOrder t := ht ▸ hread.run since
  constructor
  · intro t' a h
    have hnext : InspectionsInOrder t' := hnow.step h
    simp only [Tenant.handle, bind_eq_ok, pure_eq_ok, Prod.exists, Prod.mk.injEq] at h
    obtain ⟨_, _, _, _, hop, rfl, _⟩ := h
    obtain ⟨hstored, hsame | hover⟩ := read.of_edited hread ht edits hop
    · exact ⟨hstored, .inl hsame⟩
    · exact ⟨hstored, .inr fun later => hover.not_stored hnext later⟩
  · intro e h hstale hstored
    have havoids : Avoids Stale (t.handle sha (.operations actor ctx op)) := by
      refine avoids_bind authorize_avoids fun _ _ => ?_
      exact avoids_bind (edit_avoids_stale hnow edits hstored) fun _ _ => avoids_ok rfl
    exact havoids e h hstale

/-- The registered call is given a berth, at its first version. -/
def Sample.berthed : Request := .operations 1 (Sample.ctx 2)
  (.patchCall 10000 { berth := some "B2", version := some 1 })

/-- Both administrators have read the registered call.  The edit of the first is accepted, and
that of the second, which was made on the call as it was, is not. -/
theorem edits_lose_no_update_second :
    ¬∃ t' a, (run (Tenant.handle Sample.sha) Sample.tenant
      [Sample.registered, Sample.berthed]).handle Sample.sha (.operations 2 (Sample.ctx 3)
        (.patchCall 10000 { notes := some "Delayed", version := some 1 })) = .ok (t', a) := by
  have hread : ∃ c ∈ (run (Tenant.handle Sample.sha) Sample.tenant [Sample.registered]).calls,
      c.id = 10000 ∧ c.version = 1 := by decide
  have hwritten : ∀ c ∈ (run (Tenant.handle Sample.sha) Sample.tenant
      [Sample.registered, Sample.berthed]).calls, c.version = 2 := by decide
  obtain ⟨c, hc, hid, hversion⟩ := hread
  have hedits : Op.EditsAt (.patchCall 10000 { notes := some "Delayed", version := some 1 })
      (.call c) := ⟨hid.symm, congrArg some hversion.symm⟩
  rintro ⟨t', a, h⟩
  obtain ⟨hstored, _⟩ := (edits_lose_no_update Sample.sha Sample.initial [Sample.registered]
    [Sample.berthed] rfl rfl (x := .call c) hc hedits 2 (Sample.ctx 3)).1 t' a h
  have hlater : c.version = 2 := hwritten c hstored
  omega

end VesselCaller.Operations
