import VesselCaller.Lib.Fallible
import Mathlib.Data.List.Induction

/-!
# Request services and their runs

A *service* is a state together with a handler that either rejects a request or
accepts it and moves to a new state.  A rejected request is rolled back: the next
request finds the state the rejected one found.  `serve` is that one step, and
`run` serves a list of requests in order — the serialization a row lock imposes
on concurrent clients.

The rules proved here are the only inductions over runs in the development:

* `run_invariant` — what holds initially and is kept by every accepted request
  holds after every run; `run_invariant_along` asks it only of requests that meet a
  condition, for runs whose requests all do;
* `forall_take_iff` — a property that an accepted request keeps exactly under a condition
  holds all along a run exactly when its accepted requests meet the condition;
* `run_not_live` — what is not live stays so until a request grants it;
* `run_relation` — a preorder kept by every accepted request relates the two ends
  of every run;
* `run_history` — an invariant of the state and the requests that led to it;
* `run_count_along` — an invariant that counts certain requests of the run;
* `countAlong_le_one` — what happens only while a lasting property does not hold yet, and
  makes it hold, happens at most once;
* `exists_accepted_of_run` — a property that is false at the start of a run and
  true at its end became true at some accepted request of it.
-/

namespace VesselCaller.Lib

universe u v w z

variable {S : Type u} {R : Type v} {E : Type w} {A : Type z}
variable (handle : S → R → Except E (S × A))

/-- One request: the handler's new state when it accepts, the old state when it
rejects. -/
def serve (s : S) (r : R) : S :=
  match handle s r with
  | .ok (s', _) => s'
  | .error _ => s

/-- A list of requests, served in order. -/
def run (s : S) (rs : List R) : S :=
  rs.foldl (serve handle) s

@[simp] theorem run_nil (s : S) : run handle s [] = s := rfl

@[simp] theorem run_cons (s : S) (r : R) (rs : List R) :
    run handle s (r :: rs) = run handle (serve handle s r) rs := rfl

theorem run_append (s : S) (rs rs' : List R) :
    run handle s (rs ++ rs') = run handle (run handle s rs) rs' := by
  simp [run, List.foldl_append]

theorem run_concat (s : S) (rs : List R) (r : R) :
    run handle s (rs ++ [r]) = serve handle (run handle s rs) r := by
  simp [run_append]

theorem serve_of_ok {s s' : S} {r : R} {a : A} (h : handle s r = .ok (s', a)) :
    serve handle s r = s' := by
  simp [serve, h]

theorem serve_of_error {s : S} {r : R} {e : E} (h : handle s r = .error e) :
    serve handle s r = s := by
  simp [serve, h]

/-- An accepted request leads to the state that is served. -/
theorem exists_ok_serve {s : S} {r : R} (h : (handle s r).isOk = true) :
    ∃ a, handle s r = .ok (serve handle s r, a) := by
  cases hr : handle s r with
  | error e => simp [hr, Except.isOk, Except.toBool] at h
  | ok p => exact ⟨p.2, by rw [serve_of_ok handle hr]⟩

/-- A served request was either accepted or left the state alone. -/
theorem serve_cases (s : S) (r : R) :
    serve handle s r = s ∨ ∃ s' a, handle s r = .ok (s', a) ∧ serve handle s r = s' := by
  cases h : handle s r with
  | error e => exact .inl (serve_of_error handle h)
  | ok p => exact .inr ⟨p.1, p.2, rfl, serve_of_ok handle h⟩

variable {handle}

theorem serve_invariant {P : S → Prop}
    (step : ∀ {s r s' a}, P s → handle s r = .ok (s', a) → P s')
    {s : S} (hs : P s) (r : R) : P (serve handle s r) := by
  rcases serve_cases handle s r with h | ⟨s', a, hok, h⟩
  · rwa [h]
  · rw [h]
    exact step hs hok

/-- Every request of the list meets `C` in the state it finds. -/
def Along (handle : S → R → Except E (S × A)) (C : S → R → Prop) : S → List R → Prop
  | _, [] => True
  | s, r :: rs => C s r ∧ Along handle C (serve handle s r) rs

instance decidableAlong {C : S → R → Prop} [∀ s r, Decidable (C s r)] :
    ∀ (s : S) (rs : List R), Decidable (Along handle C s rs)
  | _, [] => inferInstanceAs (Decidable True)
  | s, r :: rs =>
      have := decidableAlong (C := C) (serve handle s r) rs
      inferInstanceAs (Decidable (C s r ∧ Along handle C (serve handle s r) rs))

theorem along_of_forall {C : R → Prop} :
    ∀ {rs : List R} (s : S), (∀ r ∈ rs, C r) → Along handle (fun _ r => C r) s rs := by
  intro rs
  induction rs with
  | nil => exact fun _ _ => trivial
  | cons r rs ih =>
      intro s h
      exact ⟨h r List.mem_cons_self, ih _ fun r' hr' => h r' (List.mem_cons_of_mem _ hr')⟩

theorem along_and {C D : S → R → Prop} : ∀ {rs : List R} {s : S}, Along handle C s rs →
    Along handle D s rs → Along handle (fun s r => C s r ∧ D s r) s rs := by
  intro rs
  induction rs with
  | nil => exact fun _ _ => trivial
  | cons r rs ih =>
      rintro s ⟨hC, hCs⟩ ⟨hD, hDs⟩
      exact ⟨⟨hC, hD⟩, ih hCs hDs⟩

/-- **The conditional invariant rule.**  What every accepted request that meets `C`
keeps, a run whose requests all meet `C` keeps. -/
theorem run_invariant_along {P : S → Prop} {C : S → R → Prop}
    (step : ∀ {s r s' a}, P s → C s r → handle s r = .ok (s', a) → P s') :
    ∀ (rs : List R) {s : S}, Along handle C s rs → P s → P (run handle s rs) := by
  intro rs
  induction rs with
  | nil => exact fun _ hs => hs
  | cons r rs ih =>
      rintro s ⟨hr, hrest⟩ hs
      refine ih hrest ?_
      rcases serve_cases handle s r with h | ⟨s', a, hok, h⟩
      · rwa [h]
      · rw [h]
        exact step hs hr hok

/-- **The exact invariant rule.**  Where an accepted request keeps `P` exactly when it meets
`C`, a run is in `P` all the way exactly when it starts there and all its accepted
requests meet `C`. -/
theorem forall_take_iff {I P : S → Prop} {C : S → R → Prop}
    (invariant : ∀ {s r s' a}, I s → handle s r = .ok (s', a) → I s')
    (step : ∀ {s r s' a}, I s → P s → handle s r = .ok (s', a) → (P s' ↔ C s r)) :
    ∀ (rs : List R) {s : S}, I s → ((∀ n, P (run handle s (rs.take n))) ↔
      P s ∧ Along handle (fun s r => (handle s r).isOk = true → C s r) s rs) := by
  intro rs
  induction rs with
  | nil =>
      intro s _
      simp [Along]
  | cons r rs ih =>
      intro s hs
      have hrest := ih (s := serve handle s r) (serve_invariant invariant hs r)
      have hserve : P s → (P (serve handle s r) ↔ ((handle s r).isOk = true → C s r)) := by
        intro hP
        cases h : handle s r with
        | error e => simp [serve_of_error handle h, hP, Except.isOk, Except.toBool]
        | ok p =>
            rw [serve_of_ok handle h, step hs hP h]
            simp [Except.isOk, Except.toBool]
      constructor
      · intro hall
        have hP : P s := hall 0
        obtain ⟨hnext, halong⟩ := hrest.mp fun n => hall (n + 1)
        exact ⟨hP, (hserve hP).mp hnext, halong⟩
      · rintro ⟨hP, hr, halong⟩ n
        cases n with
        | zero => exact hP
        | succ n => exact hrest.mpr ⟨(hserve hP).mpr hr, halong⟩ n

/-- **The invariant rule.** -/
theorem run_invariant {P : S → Prop}
    (step : ∀ {s r s' a}, P s → handle s r = .ok (s', a) → P s') (rs : List R) {s : S}
    (hs : P s) : P (run handle s rs) :=
  run_invariant_along (C := fun _ _ => True) (fun hs _ h => step hs h) rs
    (along_of_forall s fun _ _ => trivial) hs

/-- **The revocation rule.**  Where every accepted request leaves live only what was live
before it or what it grants itself, nothing comes back to life on its own. -/
theorem run_not_live {C : Type*} (live : S → C → Prop) (grants : R → C → Prop)
    (step : ∀ {s r s' a c}, handle s r = .ok (s', a) → live s' c → live s c ∨ grants r c)
    {c : C} {rs : List R} {s : S} (hgrants : ∀ r ∈ rs, ¬grants r c) (hs : ¬live s c) :
    ¬live (run handle s rs) c := by
  refine run_invariant_along (P := fun s => ¬live s c) (C := fun _ r => ¬grants r c) ?_ rs
    (along_of_forall s hgrants) hs
  intro s r s' a hnot hr h hlive
  obtain hbefore | hgranted := step h hlive
  · exact hnot hbefore
  · exact hr hgranted

/-- **The relation rule.**  The step may use an invariant `P` of the state it
starts from. -/
theorem run_relation {P : S → Prop} {Q : S → S → Prop}
    (refl : ∀ s, Q s s) (trans : ∀ {s₁ s₂ s₃}, Q s₁ s₂ → Q s₂ s₃ → Q s₁ s₃)
    (inv : ∀ {s r s' a}, P s → handle s r = .ok (s', a) → P s')
    (step : ∀ {s r s' a}, P s → handle s r = .ok (s', a) → Q s s') :
    ∀ (rs : List R) {s : S}, P s → Q s (run handle s rs) := by
  intro rs
  induction rs with
  | nil => exact fun _ => refl _
  | cons r rs ih =>
      intro s hs
      refine trans ?_ (ih (serve_invariant inv hs r))
      rcases serve_cases handle s r with h | ⟨s', a, hok, h⟩
      · rw [h]
        exact refl s
      · rw [h]
        exact step hs hok

/-- **The history rule.**  An invariant that speaks about the requests served so far. -/
theorem run_history {s₀ : S} {P : List R → S → Prop} (start : P [] s₀)
    (refused : ∀ {past r e}, P past (run handle s₀ past) →
      handle (run handle s₀ past) r = .error e → P (past ++ [r]) (run handle s₀ past))
    (accepted : ∀ {past r s' a}, P past (run handle s₀ past) →
      handle (run handle s₀ past) r = .ok (s', a) → P (past ++ [r]) s') (rs : List R) :
    P rs (run handle s₀ rs) := by
  induction rs using List.reverseRecOn with
  | nil => exact start
  | append_singleton past r ih =>
      rw [run_concat]
      cases h : handle (run handle s₀ past) r with
      | error e =>
          rw [serve_of_error handle h]
          exact refused ih h
      | ok p =>
          rw [serve_of_ok handle h]
          exact accepted ih h

/-- How many requests of the list meet `C` in the state they find. -/
def countAlong (handle : S → R → Except E (S × A)) (C : S → R → Bool) : S → List R → ℕ
  | _, [] => 0
  | s, r :: rs => (C s r).toNat + countAlong handle C (serve handle s r) rs

theorem countAlong_concat (C : S → R → Bool) (r : R) :
    ∀ (rs : List R) (s : S), countAlong handle C s (rs ++ [r]) =
      countAlong handle C s rs + (C (run handle s rs) r).toNat := by
  intro rs
  induction rs with
  | nil => intro s; simp [countAlong]
  | cons r' rs ih => intro s; simp [countAlong, ih, Nat.add_assoc]

/-- **The counting rule.**  A property of the state and of how many requests met `C` on the
way to it, in a run whose requests all meet `D`. -/
theorem run_count_along {P : ℕ → S → Prop} {C : S → R → Bool} {D : S → R → Prop}
    (step : ∀ {n s r}, P n s → D s r → P (n + (C s r).toNat) (serve handle s r)) :
    ∀ (rs : List R) {s : S} {n : ℕ}, Along handle D s rs → P n s →
      P (n + countAlong handle C s rs) (run handle s rs) := by
  intro rs
  induction rs with
  | nil => exact fun _ hs => hs
  | cons r rs ih =>
      rintro s n ⟨hr, hrest⟩ hs
      rw [countAlong, ← Nat.add_assoc]
      exact ih hrest (step hs hr)

/-- What the requests of the list produce in the states they find. -/
def collectAlong {X : Type u} (handle : S → R → Except E (S × A)) (f : S → R → List X) :
    S → List R → List X
  | _, [] => []
  | s, r :: rs => f s r ++ collectAlong handle f (serve handle s r) rs

theorem collectAlong_concat {X : Type u} (f : S → R → List X) (r : R) :
    ∀ (rs : List R) (s : S), collectAlong handle f s (rs ++ [r]) =
      collectAlong handle f s rs ++ f (run handle s rs) r := by
  intro rs
  induction rs with
  | nil => intro s; simp [collectAlong]
  | cons r' rs ih => intro s; simp [collectAlong, ih, List.append_assoc]

theorem along_forall_mem {X : Type u} {f : S → R → List X} {Q : X → Prop} :
    ∀ (rs : List R) (s : S), Along handle (fun s r => ∀ x ∈ f s r, Q x) s rs ↔
      ∀ x ∈ collectAlong handle f s rs, Q x := by
  intro rs
  induction rs with
  | nil => intro s; simp [Along, collectAlong]
  | cons r rs ih =>
      intro s
      simp only [Along, collectAlong, ih, List.mem_append]
      constructor
      · rintro ⟨hr, hrs⟩ x (hx | hx)
        · exact hr x hx
        · exact hrs x hx
      · intro h
        exact ⟨fun x hx => h x (.inl hx), fun x hx => h x (.inr hx)⟩

theorem along_congr {C D : S → R → Prop} (h : ∀ s r, C s r ↔ D s r) :
    ∀ (rs : List R) (s : S), Along handle C s rs ↔ Along handle D s rs := by
  intro rs
  induction rs with
  | nil => intro s; rfl
  | cons r rs ih => intro s; rw [Along, Along, h, ih]

/-- Conditions that agree wherever an invariant holds agree along a run from there. -/
theorem along_congr_of_invariant {I : S → Prop} {C D : S → R → Prop}
    (invariant : ∀ {s r s' a}, I s → handle s r = .ok (s', a) → I s')
    (h : ∀ {s} r, I s → (C s r ↔ D s r)) :
    ∀ (rs : List R) {s : S}, I s → (Along handle C s rs ↔ Along handle D s rs) := by
  intro rs
  induction rs with
  | nil => exact fun _ => Iff.rfl
  | cons r rs ih =>
      intro s hs
      rw [Along, Along, h r hs, ih (serve_invariant invariant hs r)]

/-- **The once rule.**  What happens only while `P` does not hold, and makes it hold for
good, happens at most once in a run. -/
theorem countAlong_le_one {C : S → R → Bool} {I P : S → Prop}
    (invariant : ∀ {s r s' a}, I s → handle s r = .ok (s', a) → I s')
    (stays : ∀ {s r s' a}, I s → P s → handle s r = .ok (s', a) → P s')
    (refused : ∀ {s r e}, handle s r = .error e → C s r = false)
    (turns : ∀ {s r s' a}, I s → C s r = true → handle s r = .ok (s', a) → ¬P s ∧ P s')
    {s₀ : S} (h₀ : I s₀) (rs : List R) : countAlong handle C s₀ rs ≤ 1 := by
  have hrun : I (run handle s₀ rs) ∧ (countAlong handle C s₀ rs = 0 ∨
      countAlong handle C s₀ rs = 1 ∧ P (run handle s₀ rs)) := by
    refine run_history (P := fun past s => I s ∧ (countAlong handle C s₀ past = 0 ∨
      countAlong handle C s₀ past = 1 ∧ P s)) ⟨h₀, .inl rfl⟩ ?_ ?_ rs
    · intro past r e h hr
      rw [countAlong_concat, refused hr]
      exact h
    · rintro past r s' a ⟨hs, hcount⟩ hr
      refine ⟨invariant hs hr, ?_⟩
      rw [countAlong_concat]
      cases hC : C (run handle s₀ past) r with
      | true =>
          obtain ⟨hbefore, hafter⟩ := turns hs hC hr
          obtain hcount | ⟨_, hp⟩ := hcount
          · exact .inr ⟨by rw [hcount]; rfl, hafter⟩
          · exact absurd hp hbefore
      | false =>
          obtain hcount | ⟨hcount, hp⟩ := hcount
          · exact .inl (by rw [hcount]; rfl)
          · exact .inr ⟨by rw [hcount]; rfl, stays hs hp hr⟩
  obtain ⟨_, hcount | ⟨hcount, _⟩⟩ := hrun <;> omega

/-- A property that a run makes true became true at one accepted request. -/
theorem exists_accepted_of_run {P : S → Prop} :
    ∀ (rs : List R) {s : S}, ¬P s → P (run handle s rs) →
      ∃ before r after s' a, rs = before ++ r :: after ∧
        ¬P (run handle s before) ∧
        handle (run handle s before) r = .ok (s', a) ∧ P s' := by
  intro rs
  induction rs with
  | nil => exact fun hs hend => absurd hend hs
  | cons r rs ih =>
      intro s hs hend
      by_cases hnext : P (serve handle s r)
      · rcases serve_cases handle s r with h | ⟨s', a, hok, h⟩
        · exact absurd (h ▸ hnext) hs
        · exact ⟨[], r, rs, s', a, rfl, hs, hok, h ▸ hnext⟩
      · obtain ⟨before, r', after, s', a, rfl, hbefore, hok, hs'⟩ := ih hnext hend
        exact ⟨r :: before, r', after, s', a, rfl, hbefore, hok, hs'⟩

end VesselCaller.Lib
