import VesselCaller.Client.OfflineQueue

/-!
# When a removed item stays removed

A tab that marks a failed attempt reads the item in one transaction and writes it back in
another.  A removal that commits in between is undone by the write.  `Held` names that
moment; a removal is lasting exactly when no tab holds the item, because afterwards no tab
can read it any more.

## Main definitions

* `Held` — a tab is about to write the item back;
* `Removes`, `Captures`, `Gone` — the event that removes it, one that brings it, and neither
  store nor tab has it.
-/

namespace VesselCaller.Client

open Lib

variable {id : String} {item : QueuedInspection} {store store' : QueueStore} {b b' : Browser}
  {e : Event}

/-! ## The object store -/

theorem QueueStore.mem_keys_put :
    id ∈ Table.keys (QueueStore.put item store) ↔ id = item.id ∨ id ∈ Table.keys store := by
  simp only [Table.mem_keys, QueueStore.put, List.mem_orderedInsert, List.mem_filter,
    decide_eq_true_eq]
  constructor
  · rintro ⟨i, rfl | ⟨hi, _⟩, rfl⟩
    · exact .inl rfl
    · exact .inr ⟨i, hi, rfl⟩
  · rintro (rfl | ⟨i, hi, rfl⟩)
    · exact ⟨item, .inl rfl, rfl⟩
    · by_cases heq : i.id = item.id
      · exact ⟨item, .inl rfl, heq.symm⟩
      · exact ⟨i, .inr ⟨hi, heq⟩, rfl⟩

theorem QueueStore.mem_keys_delete {id' : String} :
    id ∈ Table.keys (QueueStore.delete id' store) ↔ id ∈ Table.keys store ∧ id ≠ id' := by
  simp only [Table.mem_keys, QueueStore.delete, List.mem_filter, decide_eq_true_eq]
  constructor
  · rintro ⟨i, ⟨hi, hne⟩, rfl⟩
    exact ⟨⟨i, hi, rfl⟩, hne⟩
  · rintro ⟨⟨i, hi, rfl⟩, hne⟩
    exact ⟨i, ⟨hi, hne⟩, rfl⟩

theorem ownedInspection_found {organizationId userId : Id}
    (h : ownedInspection id organizationId userId store = .found item) :
    id ∈ Table.keys store ∧ item.id = id := by
  unfold ownedInspection at h
  split at h
  · cases h
  · rename_i hget
    split at h
    · cases h
    · cases h
      obtain ⟨hmem, hid⟩ := Table.mem_of_get hget
      exact ⟨Table.mem_keys.mpr ⟨item, hmem, hid⟩, hid⟩

/-! ## Moves -/

/-- What a move of a tab can do to the store, and what the tab then holds. -/
inductive TabStep (tab : Tab) (store store' : QueueStore) (flush : Flush) : Prop where
  | quiet (same : store' = store) (released : ∀ item, flush ≠ .rewriting item)
  | read (item : QueuedInspection) (same : store' = store) (mem : item.id ∈ Table.keys store)
      (held : flush = .rewriting item)
  | deleted (id : String) (less : store' = QueueStore.delete id store)
      (released : ∀ item, flush ≠ .rewriting item)
  | written (item : QueuedInspection) (held : tab.flush = .rewriting item)
      (more : store' = QueueStore.put item store) (released : ∀ item, flush ≠ .rewriting item)

variable {tab : Tab} {flush : Flush}

theorem Flush.next_ne_rewriting {force : Bool} {items : List QueuedInspection} :
    Flush.next force items ≠ .rewriting item := by
  unfold Flush.next
  split <;> exact Flush.noConfusion

theorem TabStep.ofQuiet {pair : QueueStore × Flush} (h : some (store, flush) = some pair)
    (released : ∀ item, flush ≠ .rewriting item) : TabStep tab store pair.1 pair.2 := by
  cases h
  exact .quiet rfl released

theorem Tab.transact_step {failure : Option String} {now : Instant} {pair : QueueStore × Flush}
    (h : tab.transact store failure now = some pair) : TabStep tab store pair.1 pair.2 := by
  -- The next item of a flush is never one that is written back.
  have hnext : ∀ {force items} (item), Flush.next force items ≠ .rewriting item :=
    fun _ => Flush.next_ne_rewriting
  cases hflush : tab.flush with
  | idle => simp [Tab.transact, hflush] at h
  | uploading force item rest => simp [Tab.transact, hflush] at h
  | listing force =>
      cases failure with
      | some message => exact .ofQuiet (by simpa [Tab.transact, hflush] using h) (by simp)
      | none => exact .ofQuiet (by simpa only [Tab.transact, hflush] using h) hnext
  | removing force item rest =>
      cases failure with
      | some message => exact .ofQuiet (by simpa only [Tab.transact, hflush] using h) (by simp)
      | none =>
          simp only [Tab.transact, hflush] at h
          split at h
          · exact .ofQuiet h hnext
          · exact .ofQuiet h (by simp)
          · exact .ofQuiet h (by simp)
  | deleting force item rest =>
      cases failure with
      | some message => exact .ofQuiet (by simpa only [Tab.transact, hflush] using h) (by simp)
      | none =>
          simp only [Tab.transact, hflush, Option.some.injEq] at h
          rw [← h]
          exact .deleted item.id rfl hnext
  | marking item error =>
      cases failure with
      | some message => exact .ofQuiet (by simpa only [Tab.transact, hflush] using h) (by simp)
      | none =>
          simp only [Tab.transact, hflush] at h
          split at h
          · exact .ofQuiet h (by simp)
          · exact .ofQuiet h (by simp)
          · -- Only here does a tab take an item to write back, and it reads it from the store.
            rename_i read hread
            obtain ⟨hmem, hid⟩ := ownedInspection_found hread
            cases h
            refine .read _ rfl ?_ rfl
            show read.id ∈ _
            rwa [hid]
  | rewriting item =>
      cases failure with
      | some message => exact .ofQuiet (by simpa only [Tab.transact, hflush] using h) (by simp)
      | none =>
          simp only [Tab.transact, hflush, Option.some.injEq] at h
          rw [← h]
          exact .written item hflush rfl (by simp)

theorem Tab.move_step {m : Move} {pair : QueueStore × Flush}
    (h : tab.move store m = some pair) : TabStep tab store pair.1 pair.2 := by
  unfold Tab.move at h
  split at h
  · exact .ofQuiet h (by simp)
  · exact .ofQuiet h (by simp)
  · exact .ofQuiet h (by simp)
  · exact Tab.transact_step h
  · exact .ofQuiet h (by simp)
  · cases h

/-- An accepted move of a tab. -/
theorem Browser.move_eq_ok {i : ℕ} {m : Move} (h : b.handle (.move i m) = .ok (b', ())) :
    ∃ tab flush, b.tabs[i]? = some tab ∧ TabStep tab b.store b'.store flush ∧
      b'.tabs = b.tabs.set i { tab with flush := flush } := by
  simp only [Browser.handle] at h
  split at h
  · cases h
  · rename_i tab htab
    split at h
    · cases h
    · rename_i store flush hmove
      cases h
      exact ⟨tab, flush, htab, Tab.move_step hmove, rfl⟩

/-! ## Removals -/

/-- A tab stands between the read and the write of `markQueuedInspectionAttempt` for the
item. -/
def Held (id : String) (b : Browser) : Prop :=
  ∃ tab ∈ b.tabs, ∃ item, tab.flush = .rewriting item ∧ item.id = id

/-- The event is the committing delete of `removeQueuedInspection` for the item, which a
tab reaches after a confirmed upload only. -/
def Removes (id : String) (b : Browser) (e : Event) : Prop :=
  ∃ i now tab force item rest, e = .move i (.transaction none now) ∧ b.tabs[i]? = some tab ∧
    tab.flush = .deleting force item rest ∧ item.id = id

/-- `queueInspection` of a new capture under the key. -/
def Captures (id : String) : Event → Prop
  | .capture item => item.id = id
  | .move .. => False

/-- The item is neither in the store nor on its way back. -/
def Gone (id : String) (b : Browser) : Prop := id ∉ Table.keys b.store ∧ ¬Held id b

theorem Gone.step {a : Unit} (h : Gone id b) (hnew : ¬Captures id e)
    (he : b.handle e = .ok (b', a)) : Gone id b' := by
  obtain ⟨habsent, hfree⟩ := h
  cases e with
  | capture item =>
      cases he
      refine ⟨fun hmem => ?_, hfree⟩
      obtain rfl | hold := QueueStore.mem_keys_put.mp hmem
      · exact hnew rfl
      · exact habsent hold
  | move i m =>
      obtain ⟨tab, flush, htab, hstep, htabs⟩ := Browser.move_eq_ok he
      have hmem : tab ∈ b.tabs := List.mem_of_getElem? htab
      -- The other tabs hold what they held.
      have hheld : Held id b' → ∃ item, flush = .rewriting item ∧ item.id = id := by
        rintro ⟨tab', htab', item, hrewriting, hid⟩
        rw [htabs] at htab'
        obtain hold | rfl := List.mem_or_eq_of_mem_set htab'
        · exact absurd ⟨tab', hold, item, hrewriting, hid⟩ hfree
        · exact ⟨item, hrewriting, hid⟩
      cases hstep with
      | quiet same released =>
          refine ⟨same ▸ habsent, fun hb' => ?_⟩
          obtain ⟨item, hflush, _⟩ := hheld hb'
          exact released item hflush
      | read item same mem held =>
          refine ⟨same ▸ habsent, fun hb' => ?_⟩
          obtain ⟨item', hflush, rfl⟩ := hheld hb'
          rw [held, Flush.rewriting.injEq] at hflush
          exact habsent (hflush ▸ mem)
      | deleted id' less released =>
          refine ⟨fun hmem' => ?_, fun hb' => ?_⟩
          · rw [less] at hmem'
            exact habsent (QueueStore.mem_keys_delete.mp hmem').1
          · obtain ⟨item, hflush, _⟩ := hheld hb'
            exact released item hflush
      | written item held more released =>
          refine ⟨fun hmem' => ?_, fun hb' => ?_⟩
          · rw [more] at hmem'
            obtain rfl | hold := QueueStore.mem_keys_put.mp hmem'
            · exact hfree ⟨tab, hmem, item, held, rfl⟩
            · exact habsent hold
          · obtain ⟨item', hflush, _⟩ := hheld hb'
            exact released item' hflush

theorem Gone.run (h : Gone id b) {es : List Event} (hnew : ∀ e ∈ es, ¬Captures id e) :
    Gone id (run Browser.handle b es) :=
  run_invariant_along (C := fun _ e => ¬Captures id e) (fun hb he hok => hb.step he hok) es
    (along_of_forall b hnew) h

/-- What a removal leaves: the store without the item, the other tabs as they were. -/
theorem Removes.handle (h : Removes id b e) :
    ∃ i tab flush, b.tabs[i]? = some tab ∧ (∀ item, tab.flush ≠ .rewriting item) ∧
      (∀ item, flush ≠ .rewriting item) ∧
      b.handle e = .ok (⟨QueueStore.delete id b.store, b.tabs.set i { tab with flush := flush }⟩, ()) := by
  obtain ⟨i, now, tab, force, item, rest, rfl, htab, hflush, rfl⟩ := h
  refine ⟨i, tab, .next force rest, htab, by simp [hflush], fun _ => Flush.next_ne_rewriting, ?_⟩
  simp only [Browser.handle, htab, Tab.move, Tab.transact, hflush]

/-- The write of `markQueuedInspectionAttempt`. -/
theorem Browser.rewrite {j : ℕ} {now : Instant} (htab : b.tabs[j]? = some tab)
    (hflush : tab.flush = .rewriting item) :
    b.handle (.move j (.transaction none now)) =
      .ok (⟨QueueStore.put item b.store, b.tabs.set j { tab with flush := .idle }⟩, ()) := by
  simp only [Browser.handle, htab, Tab.move, Tab.transact, hflush]

/-- **When a removed item stays removed.**  For any number of tabs over one store, in
whatever state they are, a removal that commits after a confirmed upload is lasting — no
later state holds the item, however the run goes on without a new capture under its key —
exactly when no tab stands between the read and the write of
`markQueuedInspectionAttempt` for that item at that moment. -/
theorem removed_item_stays_removed {b : Browser} {id : String} {e : Event}
    (he : Removes id b e) :
    (∀ es' : List Event, (∀ e' ∈ es', ¬Captures id e') →
      id ∉ Table.keys (run Browser.handle b (e :: es')).store) ↔ ¬Held id b := by
  obtain ⟨i, tab, flush, htab, hdeleting, hreleased, hok⟩ := he.handle
  constructor
  · rintro hlasting ⟨tab', htab', item, hrewriting, rfl⟩
    -- The tab that holds the item is another one; its write brings the item back.
    obtain ⟨j, hj⟩ := List.getElem?_of_mem htab'
    have hne : i ≠ j := by
      rintro rfl
      rw [htab, Option.some.injEq] at hj
      exact hdeleting item (hj ▸ hrewriting)
    have hkept : (b.tabs.set i { tab with flush := flush })[j]? = some tab' := by
      rw [List.getElem?_set_ne hne, hj]
    refine hlasting [.move j (.transaction none 0)] (by simp [Captures]) ?_
    rw [run_cons, serve_of_ok _ hok, run_cons, run_nil,
      serve_of_ok _ (Browser.rewrite hkept hrewriting)]
    exact QueueStore.mem_keys_put.mpr (.inl rfl)
  · intro hfree es' hnew
    rw [run_cons, serve_of_ok _ hok]
    refine (Gone.run ⟨?_, ?_⟩ hnew).1
    · exact fun hmem => (QueueStore.mem_keys_delete.mp hmem).2 rfl
    · rintro ⟨tab', htab', item, hrewriting, hid⟩
      obtain hold | rfl := List.mem_or_eq_of_mem_set htab'
      · exact hfree ⟨tab', hold, item, hrewriting, hid⟩
      · exact hreleased item hrewriting

namespace Sample

/-- A queued draft. -/
def captured : QueuedInspection where
  id := "capture-1"
  organizationId := 1
  userId := 1
  data := { callId := some 10000, cargoType := some .dry }
  evidenceFiles := []
  createdAt := 1767225600
  attempts := 0
  operation := .create
  inspectionId := none
  finalize := false
  lastAttemptAt := none
  lastError := none

/-- Two tabs of its owner. -/
def browser : Browser where
  store := [captured]
  tabs := [⟨1, 1, .idle⟩, ⟨1, 1, .idle⟩]

/-- A transaction of the tab commits. -/
def commit (tab : ℕ) : Event := .move tab (.transaction none 1767225700)

/-- The first tab uploads the item and stands before the delete. -/
def uploaded : List Event := [
  .move 0 (.start false), commit 0, .move 0 (.uploaded .confirmed), commit 0]

/-- Both tabs send the item; the second loses its connection and reads the item to mark
the attempt, while the first one's upload is confirmed. -/
def raced : List Event := [
  .move 0 (.start false), commit 0, .move 1 (.start false), commit 1,
  .move 1 (.uploaded (.failed false "Failed to fetch")), commit 1,
  .move 0 (.uploaded .confirmed), commit 0]

end Sample

theorem removes_of_flush {i : ℕ} (h : (b.tabs[i]?.bind fun tab => match tab.flush with
      | .deleting _ item _ => some item.id
      | _ => none) = some id) : Removes id b (Sample.commit i) := by
  obtain ⟨tab, htab, hflush⟩ := Option.bind_eq_some_iff.mp h
  split at hflush
  · rename_i force item rest hdeleting
    exact ⟨i, _, tab, force, item, rest, rfl, htab, hdeleting, Option.some.inj hflush⟩
  · cases hflush

/-- One tab alone removes the item for good. -/
theorem removed_item_stays_removed_alone :
    Removes "capture-1" (run Browser.handle Sample.browser Sample.uploaded) (Sample.commit 0) ∧
    ∀ es' : List Event, (∀ e' ∈ es', ¬Captures "capture-1" e') →
      "capture-1" ∉ Table.keys (run Browser.handle
        (run Browser.handle Sample.browser Sample.uploaded) (Sample.commit 0 :: es')).store := by
  have he : Removes "capture-1" (run Browser.handle Sample.browser Sample.uploaded)
      (Sample.commit 0) := removes_of_flush (by decide +kernel)
  refine ⟨he, (removed_item_stays_removed he).mpr ?_⟩
  rintro ⟨tab, htab, item, hflush, _⟩
  obtain rfl | htab := List.mem_cons.mp htab
  · cases hflush
  · obtain rfl := List.mem_singleton.mp htab
    cases hflush

/-- The second tab's write brings the removed item back, without a new capture. -/
theorem removed_item_returns :
    ¬∀ (b₀ : Browser) (es : List Event) (id : String) (e : Event),
      (∀ tab ∈ b₀.tabs, tab.flush = .idle) → Removes id (run Browser.handle b₀ es) e →
      ∀ es' : List Event, (∀ e' ∈ es', ¬Captures id e') →
        id ∉ Table.keys (run Browser.handle (run Browser.handle b₀ es) (e :: es')).store := by
  intro hlasting
  refine hlasting Sample.browser Sample.raced "capture-1" (Sample.commit 0) ?_
    (removes_of_flush (by decide +kernel)) [Sample.commit 1] (by simp [Sample.commit, Captures]) ?_
  · simp [Sample.browser]
  · decide +kernel

end VesselCaller.Client
