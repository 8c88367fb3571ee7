import VesselCaller.Closeout.Types

/-!
# The latest returns

`latestReturns` goes through the submissions of a plan once and keeps of every participant
the one of the highest revision.  The order of its entries is that in which participants
first occur, but what it keeps does not depend on the order: where no participant has two
submissions of one revision, an entry is a submission that no later one supersedes
(`mem_latestReturns`), and plans with the same such submissions have the same entry of every
participant (`returnOf_congr`).

* `Entered` — the submissions of a plan as the server numbers them;
* `returnOf` — the entry of a participant;
* `IsLatest` — no later submission of its participant supersedes a submission.
-/

namespace VesselCaller.Closeout

open Lib

instance : Keyed Submission String := ⟨Submission.participantId⟩

/-- The submissions of a plan as the server numbers them: from one on, and no two of one
participant alike. -/
structure Entered (plan : MeasurementPlan) : Prop where
  positive : ∀ s ∈ plan.submissions, 0 < s.revision
  unique : ∀ s ∈ plan.submissions, ∀ s' ∈ plan.submissions,
    s.participantId = s'.participantId → s.revision = s'.revision → s = s'

/-- The entry of a participant. -/
def returnOf (plan : MeasurementPlan) (participant : String) : Option Submission :=
  Table.get participant (latestReturns plan)

/-- No later submission of its participant supersedes `s`. -/
def IsLatest (plan : MeasurementPlan) (s : Submission) : Prop :=
  s ∈ plan.submissions ∧
    ∀ s' ∈ plan.submissions, s'.participantId = s.participantId → s'.revision ≤ s.revision

/-- What the loop has kept of the submissions it has gone through. -/
structure Kept (seen returns : List Submission) : Prop where
  keys : (Table.keys returns).Nodup
  mem : ∀ r ∈ returns, r ∈ seen
  positive : ∀ r ∈ returns, 0 < r.revision
  latest : ∀ r ∈ returns, ∀ s ∈ seen, s.participantId = r.participantId →
    s.revision ≤ r.revision
  found : ∀ s ∈ seen, 0 < s.revision → ∃ r ∈ returns, r.participantId = s.participantId

theorem returnedRevision_eq (participant : String) (returns : List Submission) :
    returnedRevision participant returns =
      ((Table.get participant returns).map Submission.revision).getD 0 :=
  rfl

variable {seen returns : List Submission}

theorem Kept.returnedRevision_of_mem (h : Kept seen returns) {r : Submission}
    (hr : r ∈ returns) : returnedRevision r.participantId returns = r.revision := by
  have hget : Table.get r.participantId returns = some r := Table.get_of_mem h.keys hr
  rw [returnedRevision_eq, hget]
  rfl

theorem Kept.returnedRevision_nonneg (h : Kept seen returns) (participant : String) :
    0 ≤ returnedRevision participant returns := by
  rw [returnedRevision_eq]
  cases hget : Table.get participant returns with
  | none => rfl
  | some r => exact (h.positive r (Table.mem_of_get hget).1).le

/-- A submission that was gone through is not above the revision kept. -/
theorem Kept.le_returnedRevision (h : Kept seen returns) {s : Submission} (hs : s ∈ seen) :
    s.revision ≤ returnedRevision s.participantId returns := by
  by_cases hpos : 0 < s.revision
  · obtain ⟨r, hr, hkey⟩ := h.found s hs hpos
    rw [← hkey, h.returnedRevision_of_mem hr]
    exact h.latest r hr s hs hkey.symm
  · exact (not_lt.mp hpos).trans (h.returnedRevision_nonneg _)

theorem setReturn_eq (s : Submission) (returns : List Submission) :
    setReturn s returns =
      if s.participantId ∈ Table.keys returns then Table.put s returns else returns ++ [s] := by
  have hany : returns.any (·.participantId = s.participantId) = true ↔
      s.participantId ∈ Table.keys returns := by
    rw [List.any_eq_true, Table.mem_keys]
    simp only [decide_eq_true_eq]
    rfl
  unfold setReturn
  simp only [hany]
  rfl

/-- Of the entries after a submission is set, one is the submission, and the others are
those of other participants. -/
theorem mem_setReturn {s r : Submission} :
    r ∈ setReturn s returns ↔ r = s ∨ r ∈ returns ∧ r.participantId ≠ s.participantId := by
  rw [setReturn_eq]
  split
  · rename_i hkey
    obtain ⟨b, hb, hkey⟩ := Table.mem_keys.mp hkey
    constructor
    · exact fun h => Table.mem_put h
    · rintro (rfl | ⟨hr, hne⟩)
      · exact Table.mem_put_self hb hkey
      · exact Table.mem_put_of_ne hr hne
  · rename_i hkey
    rw [List.mem_append, List.mem_singleton, or_comm]
    refine or_congr_right ⟨fun hr => ⟨hr, fun hsame => hkey ?_⟩, fun h => h.1⟩
    exact Table.mem_keys.mpr ⟨r, hr, hsame⟩

theorem nodup_keys_setReturn (h : (Table.keys returns).Nodup) (s : Submission) :
    (Table.keys (setReturn s returns)).Nodup := by
  rw [setReturn_eq]
  split
  · rwa [Table.keys_put]
  · rename_i hkey
    exact Table.nodup_keys_concat h hkey

/-- One round of the loop. -/
theorem Kept.takeReturn (h : Kept seen returns) (s : Submission) :
    Kept (seen ++ [s]) (takeReturn returns s) := by
  unfold Closeout.takeReturn
  split
  · rename_i hlt
    have hpos : 0 < s.revision := (h.returnedRevision_nonneg _).trans_lt hlt
    -- The return is newer than the kept one of its participant, hence than all of them.
    have hbelow : ∀ x ∈ seen, x.participantId = s.participantId → x.revision ≤ s.revision := by
      intro x hx hkey
      have hle := h.le_returnedRevision hx
      rw [hkey] at hle
      exact hle.trans hlt.le
    refine ⟨nodup_keys_setReturn h.keys s, fun r hr => ?_, fun r hr => ?_,
      fun r hr x hx hkey => ?_, fun x hx hx0 => ?_⟩
    · rcases mem_setReturn.mp hr with rfl | ⟨hr, _⟩
      · simp
      · exact List.mem_append_left _ (h.mem r hr)
    · rcases mem_setReturn.mp hr with rfl | ⟨hr, _⟩
      · exact hpos
      · exact h.positive r hr
    · rcases mem_setReturn.mp hr with rfl | ⟨hr, hne⟩
      · rcases List.mem_append.mp hx with hx | hx
        · exact hbelow x hx hkey
        · exact (List.mem_singleton.mp hx ▸ le_rfl)
      · rcases List.mem_append.mp hx with hx | hx
        · exact h.latest r hr x hx hkey
        · exact absurd (List.mem_singleton.mp hx ▸ hkey).symm hne
    · by_cases hkey : x.participantId = s.participantId
      · exact ⟨s, mem_setReturn.mpr (.inl rfl), hkey.symm⟩
      · rcases List.mem_append.mp hx with hx | hx
        · obtain ⟨r, hr, hrx⟩ := h.found x hx hx0
          exact ⟨r, mem_setReturn.mpr (.inr ⟨hr, fun hrs => hkey (hrx ▸ hrs)⟩), hrx⟩
        · exact absurd (congrArg _ (List.mem_singleton.mp hx)) hkey
  -- The return is no newer than the kept one, which stays.
  · rename_i hle
    refine ⟨h.keys, fun r hr => List.mem_append_left _ (h.mem r hr), h.positive,
      fun r hr x hx hkey => ?_, fun x hx hx0 => ?_⟩
    · rcases List.mem_append.mp hx with hx | hx
      · exact h.latest r hr x hx hkey
      · rw [List.mem_singleton.mp hx] at hkey ⊢
        rw [hkey, h.returnedRevision_of_mem hr] at hle
        exact not_lt.mp hle
    · rcases List.mem_append.mp hx with hx | hx
      · exact h.found x hx hx0
      · rw [List.mem_singleton.mp hx] at hx0 ⊢
        cases hget : Table.get s.participantId returns with
        | none =>
            rw [returnedRevision_eq, hget] at hle
            exact absurd hx0 hle
        | some r => exact ⟨r, Table.mem_of_get hget⟩

/-- **What `latestReturns` keeps.** -/
theorem kept_latestReturns (plan : MeasurementPlan) :
    Kept plan.submissions (latestReturns plan) := by
  unfold latestReturns
  generalize plan.submissions = submissions
  induction submissions using List.reverseRecOn with
  | nil => exact ⟨List.nodup_nil, nofun, nofun, nofun, nofun⟩
  | append_singleton seen s ih =>
      rw [List.foldl_concat]
      exact ih.takeReturn s

theorem returnOf_eq_some {plan : MeasurementPlan} {participant : String} {s : Submission} :
    returnOf plan participant = some s ↔
      s ∈ latestReturns plan ∧ s.participantId = participant := by
  constructor
  · exact fun h => Table.mem_of_get h
  · rintro ⟨hs, rfl⟩
    exact Table.get_of_mem (kept_latestReturns plan).keys hs

theorem mem_submissions_of_returnOf {plan : MeasurementPlan} {participant : String}
    {s : Submission} (h : returnOf plan participant = some s) : s ∈ plan.submissions :=
  (kept_latestReturns plan).mem s (returnOf_eq_some.mp h).1

variable {plan plan' : MeasurementPlan}

/-- The entries are the submissions that no later one supersedes. -/
theorem mem_latestReturns (h : Entered plan) {s : Submission} :
    s ∈ latestReturns plan ↔ IsLatest plan s := by
  have hkept := kept_latestReturns plan
  constructor
  · intro hs
    exact ⟨hkept.mem s hs, hkept.latest s hs⟩
  · rintro ⟨hs, hlatest⟩
    obtain ⟨r, hr, hkey⟩ := hkept.found s hs (h.positive s hs)
    have hmem := hkept.mem r hr
    have hrevision : r.revision = s.revision :=
      le_antisymm (hlatest r hmem hkey) (hkept.latest r hr s hs hkey.symm)
    exact h.unique r hmem s hs hkey hrevision ▸ hr

theorem returnOf_congr (h : Entered plan) (h' : Entered plan')
    (hlatest : ∀ s, IsLatest plan s ↔ IsLatest plan' s) :
    returnOf plan = returnOf plan' := by
  funext participant
  apply Option.ext
  intro s
  rw [returnOf_eq_some, returnOf_eq_some, mem_latestReturns h, mem_latestReturns h', hlatest s]

/-- The order of the submissions does not count. -/
theorem isLatest_of_perm (hperm : plan.submissions.Perm plan'.submissions) (s : Submission) :
    IsLatest plan s ↔ IsLatest plan' s := by
  unfold IsLatest
  simp only [hperm.mem_iff]

theorem Entered.of_perm (h : Entered plan) (hperm : plan.submissions.Perm plan'.submissions) :
    Entered plan' where
  positive := fun s hs => h.positive s (hperm.mem_iff.mpr hs)
  unique := fun s hs s' hs' => h.unique s (hperm.mem_iff.mpr hs) s' (hperm.mem_iff.mpr hs')

end VesselCaller.Closeout
