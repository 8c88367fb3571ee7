import Mathlib.Data.List.Basic
import Mathlib.Data.List.Perm.Basic

/-!
# Fallible computations, read backwards

A request handler is written in the `Except` monad as a sequence of guards and
look-ups followed by one result.  Nearly every proof about such a handler starts
from *"it returned `.ok r`"* and wants the guards that must have held and the rows
that must have been found.  This file states that inversion once:

* `raiseIf p e` — raise `e` when `p` holds, otherwise carry on;
* `orRaise o e` — the value of `o`, or raise `e` when there is none;
* `raiseFirst xs bad e` — raise for the first bad element of a loop;
* `bind_eq_ok`, `raiseIf_eq_ok`, `orRaise_eq_ok`, `raiseFirst_eq_ok`, `pure_eq_ok` —
  the `simp` set that turns `(do …) = .ok r` into the conjunction of its guards.

A handler that is unfolded with these lemmas never has to be split by hand.
-/

namespace VesselCaller.Lib

universe u v w

variable {ε : Type u} {α : Type v} {β : Type v}

/-- Raise `e` when `p` holds. -/
def raiseIf (p : Prop) [Decidable p] (e : ε) : Except ε PUnit.{v + 1} :=
  if p then .error e else .ok ⟨⟩

/-- The value of `o`, or raise `e` when there is none. -/
def orRaise (o : Option α) (e : ε) : Except ε α :=
  match o with
  | some a => .ok a
  | none => .error e

/-- Raise `e x` for the first `x` of the list that is `bad`. -/
def raiseFirst {γ : Type w} (xs : List γ) (bad : γ → Bool) (e : γ → ε) : Except ε PUnit.{v + 1} :=
  match xs.find? bad with
  | some x => .error (e x)
  | none => .ok ⟨⟩

/-- Raise the error there is, if there is one. -/
def raiseSome (o : Option ε) : Except ε PUnit.{v + 1} :=
  match o with
  | some e => .error e
  | none => .ok ⟨⟩

/-- A sequence succeeds when its first part does, and the second on what the first gave. -/
theorem bind_eq_ok {x : Except ε α} {f : α → Except ε β} {b : β} :
    (x >>= f) = .ok b ↔ ∃ a, x = .ok a ∧ f a = .ok b := by
  cases x with
  | error e => simp [bind, Except.bind]
  | ok a => simp [bind, Except.bind]

/-- A mapped computation succeeds with the image of a result. -/
theorem map_eq_ok {x : Except ε α} {f : α → β} {b : β} :
    f <$> x = .ok b ↔ ∃ a, x = .ok a ∧ f a = b := by
  cases x <;> simp [Functor.map, Except.map]

/-- Renaming the errors changes no success. -/
theorem mapError_eq_ok {ε' : Type u} {x : Except ε α} {f : ε → ε'} {a : α} :
    x.mapError f = .ok a ↔ x = .ok a := by
  cases x <;> simp [Except.mapError]

/-- A guard is passed exactly where its condition fails. -/
@[simp] theorem raiseIf_eq_ok {p : Prop} [Decidable p] {e : ε} {r : PUnit.{v + 1}} :
    raiseIf p e = .ok r ↔ ¬p := by
  unfold raiseIf
  split <;> simp_all

/-- A lookup succeeds exactly with what is found. -/
@[simp] theorem orRaise_eq_ok {o : Option α} {e : ε} {a : α} :
    orRaise o e = .ok a ↔ o = some a := by
  cases o <;> simp [orRaise]

/-- A guard over a list is passed where no element is bad. -/
@[simp] theorem raiseFirst_eq_ok {γ : Type w} {xs : List γ} {bad : γ → Bool} {e : γ → ε}
    {r : PUnit.{v + 1}} : raiseFirst xs bad e = .ok r ↔ ∀ x ∈ xs, bad x = false := by
  unfold raiseFirst
  split
  · rename_i x h
    have hx := List.find?_some h
    have hmem := List.mem_of_find?_eq_some h
    simp only [reduceCtorEq, false_iff, not_forall]
    exact ⟨x, hmem, by simp [hx]⟩
  · rename_i h
    simpa using h

/-- Where there is no error, none is raised. -/
@[simp] theorem raiseSome_eq_ok {o : Option ε} {r : PUnit.{v + 1}} :
    raiseSome o = .ok r ↔ o = none := by
  cases o <;> simp [raiseSome]

/-- `pure` succeeds with its own value. -/
@[simp] theorem pure_eq_ok {a b : α} : (pure a : Except ε α) = .ok b ↔ a = b := by
  simp [pure, Except.pure]

/-- `throw` never succeeds. -/
@[simp] theorem throw_ne_ok {e : ε} {b : α} : (throw e : Except ε α) ≠ .ok b := by
  simp [throw, throwThe, MonadExceptOf.throw]

/-- A computation goes on from the value it has. -/
theorem ok_bind (a : α) (f : α → Except ε β) : ((.ok a : Except ε α) >>= f) = f a := rfl

/-- After an error nothing runs. -/
theorem error_bind (e : ε) (f : α → Except ε β) : ((.error e : Except ε α) >>= f) = .error e := rfl

/-- A success has a value. -/
theorem isOk_iff {x : Except ε α} : x.isOk = true ↔ ∃ a, x = .ok a := by
  cases x <;> simp [Except.isOk, Except.toBool]

/-- Whether a sequence goes through, read forwards. -/
theorem isOk_bind {x : Except ε α} {f : α → Except ε β} :
    (x >>= f).isOk = true ↔ ∃ a, x = .ok a ∧ (f a).isOk = true := by
  cases x with
  | error e => simp [error_bind, Except.isOk, Except.toBool]
  | ok a => simp [ok_bind]

/-- `pure` is a success, by definition. -/
theorem isOk_pure (a : α) : (pure a : Except ε α).isOk = true := rfl

/-- What is made of the result at the end does not matter. -/
theorem isOk_bind_pure {x : Except ε α} {f : α → β} :
    (x >>= fun a => pure (f a)).isOk = true ↔ x.isOk = true := by
  rw [isOk_bind, isOk_iff]
  simp only [isOk_pure, and_true]

/-- The value of a success, taken apart as a pair. -/
theorem exists_of_isOk {γ δ : Type v} {x : Except ε (γ × δ)} (h : x.isOk = true) :
    ∃ a b, x = .ok (a, b) := by
  cases x with
  | error e => simp [Except.isOk, Except.toBool] at h
  | ok r => exact ⟨r.1, r.2, rfl⟩

/-- A guard whose condition fails is passed. -/
theorem raiseIf_of_not {p : Prop} [Decidable p] {e : ε} (h : ¬p) :
    (raiseIf p e : Except ε PUnit.{v + 1}) = .ok ⟨⟩ := by
  simp [raiseIf, h]

/-- A guard whose condition holds raises its error. -/
theorem raiseIf_of_pos {p : Prop} [Decidable p] {e : ε} (h : p) :
    (raiseIf p e : Except ε PUnit.{v + 1}) = .error e := by
  simp [raiseIf, h]

/-- What is there is found. -/
theorem orRaise_of_some {o : Option α} {e : ε} {a : α} (h : o = some a) :
    orRaise o e = .ok a := by
  rw [h]
  rfl

/-- A loop goes through when every round does. -/
theorem forM_eq_ok {γ : Type w} {f : γ → Except ε PUnit.{v + 1}} {xs : List γ}
    {u : PUnit.{v + 1}} : forM xs f = .ok u ↔ ∀ x ∈ xs, f x = .ok ⟨⟩ := by
  induction xs with
  | nil => exact ⟨fun _ _ hx => absurd hx List.not_mem_nil, fun _ => rfl⟩
  | cons x xs ih =>
      rw [List.forM_cons, bind_eq_ok, List.forall_mem_cons]
      constructor
      · rintro ⟨⟨⟩, hx, hxs⟩
        exact ⟨hx, ih.mp hxs⟩
      · rintro ⟨hx, hxs⟩
        exact ⟨⟨⟩, hx, ih.mpr hxs⟩

/-- Computations that agree wherever their first part succeeds. -/
theorem bind_congr_ok {x : Except ε α} {f g : α → Except ε β} (h : ∀ a, x = .ok a → f a = g a) :
    (x >>= f) = (x >>= g) := by
  cases x with
  | error e => rfl
  | ok a => exact h a rfl

/-- Two functions that agree on the elements agree on the list. -/
theorem mapM_congr_ok {γ : Type w} {f g : γ → Except ε α} {xs : List γ}
    (h : ∀ x ∈ xs, f x = g x) : xs.mapM f = xs.mapM g := by
  induction xs with
  | nil => rfl
  | cons x xs ih =>
      obtain ⟨hx, hxs⟩ := List.forall_mem_cons.mp h
      rw [List.mapM_cons, List.mapM_cons, hx, ih hxs]

/-! ## Errors that cannot occur -/

/-- The computation never raises a `bad` error. -/
def Avoids (bad : ε → Prop) (x : Except ε α) : Prop := ∀ e, x = .error e → ¬bad e

/-- A success avoids every error. -/
theorem avoids_ok {bad : ε → Prop} {x : Except ε α} {a : α} (h : x = .ok a) : Avoids bad x := by
  intro e he
  rw [h] at he
  cases he

/-- A sequence avoids what both of its parts avoid. -/
theorem avoids_bind {bad : ε → Prop} {x : Except ε α} {f : α → Except ε β} (hx : Avoids bad x)
    (hf : ∀ a, x = .ok a → Avoids bad (f a)) : Avoids bad (x >>= f) := by
  cases x with
  | error e' =>
      intro e he
      cases he
      exact hx e' rfl
  | ok a => exact hf a rfl

/-- A loop avoids what its body avoids on every element. -/
theorem avoids_forM {γ : Type w} {bad : ε → Prop} {f : γ → Except ε PUnit.{v + 1}} {xs : List γ}
    (h : ∀ x ∈ xs, Avoids bad (f x)) : Avoids bad (forM xs f) := by
  induction xs with
  | nil => exact avoids_ok rfl
  | cons x xs ih =>
      rw [List.forM_cons]
      obtain ⟨hx, hxs⟩ := List.forall_mem_cons.mp h
      exact avoids_bind hx fun _ _ => ih hxs

/-- A map avoids what the function avoids on every element. -/
theorem avoids_mapM {γ : Type w} {bad : ε → Prop} {f : γ → Except ε α} {xs : List γ}
    (h : ∀ x ∈ xs, Avoids bad (f x)) : Avoids bad (xs.mapM f) := by
  induction xs with
  | nil => exact avoids_ok rfl
  | cons x xs ih =>
      rw [List.mapM_cons]
      obtain ⟨hx, hxs⟩ := List.forall_mem_cons.mp h
      exact avoids_bind hx fun _ _ => avoids_bind (ih hxs) fun _ _ => avoids_ok rfl

/-- A guard raises no error but its own. -/
theorem avoids_raiseIf {bad : ε → Prop} {p : Prop} [Decidable p] {e : ε} (h : ¬bad e) :
    Avoids bad (raiseIf p e : Except ε PUnit.{v + 1}) := by
  intro e' he
  unfold raiseIf at he
  split at he
  · cases he
    exact h
  · cases he

/-- A guard raises its error exactly when its condition holds, if nothing after it does. -/
theorem raiseIf_bind_eq_error_iff {p : Prop} [Decidable p] {e : ε} {f : PUnit.{v + 1} → Except ε β}
    (hf : Avoids (· = e) (f ⟨⟩)) : (raiseIf p e >>= f) = .error e ↔ p := by
  by_cases hp : p
  · rw [raiseIf_of_pos hp]
    exact iff_of_true rfl hp
  · rw [raiseIf_of_not hp]
    exact iff_of_false (fun he => hf e he rfl) hp

/-- A lookup raises no error but its own. -/
theorem avoids_orRaise {bad : ε → Prop} {o : Option α} {e : ε} (h : ¬bad e) :
    Avoids bad (orRaise o e) := by
  intro e' he
  cases o with
  | none =>
      cases he
      exact h
  | some a => cases he

/-- The invariant rule of a monadic fold that succeeds. -/
theorem foldlM_invariant {γ : Type w} {σ : Type v} {f : σ → γ → Except ε σ} (P : σ → Prop)
    (step : ∀ {s x s'}, P s → f s x = .ok s' → P s') :
    ∀ {xs : List γ} {s s' : σ}, P s → xs.foldlM f s = .ok s' → P s' := by
  intro xs
  induction xs with
  | nil =>
      intro s s' hs h
      simp only [List.foldlM_nil, pure_eq_ok] at h
      exact h ▸ hs
  | cons x xs ih =>
      intro s s' hs h
      simp only [List.foldlM_cons, bind_eq_ok] at h
      obtain ⟨s₁, hx, hrest⟩ := h
      exact ih (step hs hx) hrest

/-- A loop that appends one row in every round: the rows agree with what they were
appended for. -/
theorem map_eq_of_foldlM_eq_ok {γ : Type w} {δ ρ : Type v} {f : List ρ → γ → Except ε (List ρ)}
    {g : ρ → δ} {h : γ → δ}
    (step : ∀ {rows x rows'}, f rows x = .ok rows' → ∃ row, g row = h x ∧ rows' = rows ++ [row])
    {xs : List γ} {rows rows' : List ρ} (hok : xs.foldlM f rows = .ok rows') :
    rows'.map g = rows.map g ++ xs.map h := by
  induction xs generalizing rows with
  | nil =>
      simp only [List.foldlM_nil, pure_eq_ok] at hok
      simp [hok]
  | cons x xs ih =>
      simp only [List.foldlM_cons, bind_eq_ok] at hok
      obtain ⟨rows₁, hx, hrest⟩ := hok
      obtain ⟨row, hrow, rfl⟩ := step hx
      rw [ih hrest, List.map_append, List.map_singleton, hrow, List.map_cons, List.append_assoc,
        List.singleton_append]

/-- A successful `List.mapM` pairs each element with what its call returned. -/
theorem mapM_eq_ok {γ : Type w} {f : γ → Except ε α} {xs : List γ} {ys : List α} :
    xs.mapM f = .ok ys ↔ List.Forall₂ (fun x y => f x = .ok y) xs ys := by
  induction xs generalizing ys with
  | nil =>
      rw [List.mapM_nil, pure_eq_ok, List.forall₂_nil_left_iff]
      exact eq_comm
  | cons x xs ih =>
      simp only [List.mapM_cons, bind_eq_ok, pure_eq_ok, List.forall₂_cons_left_iff]
      constructor
      · rintro ⟨y, hy, ys, hys, rfl⟩
        exact ⟨y, ys, hy, ih.mp hys, rfl⟩
      · rintro ⟨y, ys, hy, hys, rfl⟩
        exact ⟨y, hy, ys, ih.mpr hys, rfl⟩

/-- The element a successful `List.mapM` produced at each position came from a
successful call at that position. -/
theorem mem_of_mapM_eq_ok {γ δ : Type v} {f : γ → Except ε δ} :
    ∀ {xs : List γ} {ys : List δ}, xs.mapM f = .ok ys →
      ∀ y ∈ ys, ∃ x ∈ xs, f x = .ok y := by
  intro xs
  induction xs with
  | nil =>
      intro ys h y hy
      simp only [List.mapM_nil, pure_eq_ok] at h
      simp [← h] at hy
  | cons x xs ih =>
      intro ys h y hy
      simp only [List.mapM_cons, bind_eq_ok, pure_eq_ok] at h
      obtain ⟨a, ha, as, has, rfl⟩ := h
      rcases List.mem_cons.mp hy with rfl | hy
      · exact ⟨x, List.mem_cons_self, ha⟩
      · obtain ⟨x', hx', hf⟩ := ih has y hy
        exact ⟨x', List.mem_cons_of_mem _ hx', hf⟩

/-- Calls on related elements succeed together, with related results. -/
theorem exists_mapM_eq_ok {γ : Type w} {f g : γ → Except ε α} {R : γ → γ → Prop}
    {S : α → α → Prop} (step : ∀ {x x' y}, R x x' → f x = .ok y → ∃ y', g x' = .ok y' ∧ S y y')
    {xs xs' : List γ} {ys : List α} (hR : List.Forall₂ R xs xs') (h : xs.mapM f = .ok ys) :
    ∃ ys', xs'.mapM g = .ok ys' ∧ List.Forall₂ S ys ys' := by
  simp only [mapM_eq_ok] at h ⊢
  induction hR generalizing ys with
  | nil =>
      cases h
      exact ⟨[], .nil, .nil⟩
  | cons hx _ ih =>
      cases h with
      | cons hy hys =>
          obtain ⟨y', hy', hS⟩ := step hx hy
          obtain ⟨ys', hys', hSs⟩ := ih hys
          exact ⟨y' :: ys', .cons hy' hys', .cons hS hSs⟩

/-- Calls on related elements that succeed return related results. -/
theorem forall₂_of_mapM_eq_ok {γ : Type w} {f : γ → Except ε α} {R : γ → γ → Prop}
    {S : α → α → Prop} (step : ∀ {x x' y y'}, R x x' → f x = .ok y → f x' = .ok y' → S y y')
    {xs xs' : List γ} {ys ys' : List α} (hR : List.Forall₂ R xs xs') (h : xs.mapM f = .ok ys)
    (h' : xs'.mapM f = .ok ys') : List.Forall₂ S ys ys' := by
  rw [mapM_eq_ok] at h h'
  induction hR generalizing ys ys' with
  | nil =>
      cases h
      cases h'
      exact .nil
  | cons hx _ ih =>
      cases h with
      | cons hy hys =>
          cases h' with
          | cons hy' hys' => exact .cons (step hx hy hy') (ih hys hys')

/-- Lists whose elements have equal images, pair by pair, have equal images. -/
theorem map_eq_map_of_forall₂ {γ δ κ : Type*} {f : γ → κ} {g : δ → κ} {xs : List γ} {ys : List δ}
    (h : List.Forall₂ (fun x y => f x = g y) xs ys) : xs.map f = ys.map g := by
  rw [← List.forall₂_eq_eq_eq, List.forall₂_map_left_iff, List.forall₂_map_right_iff]
  exact h

/-- The order of the calls is that of the results. -/
theorem exists_mapM_of_perm {γ : Type w} {f : γ → Except ε α} {xs xs' : List γ} {ys : List α}
    (hperm : xs'.Perm xs) (h : xs.mapM f = .ok ys) : ∃ ys', xs'.mapM f = .ok ys' ∧ ys'.Perm ys := by
  obtain ⟨ys', hys', hys⟩ := List.perm_comp_forall₂ hperm (mapM_eq_ok.mp h)
  exact ⟨ys', mapM_eq_ok.mpr hys', hys⟩

/-- Everything on the left has its partner on the right. -/
theorem exists_of_forall₂ {γ δ : Type*} {R : γ → δ → Prop} {xs : List γ} {ys : List δ}
    (h : List.Forall₂ R xs ys) : ∀ x ∈ xs, ∃ y ∈ ys, R x y := by
  intro x hx
  obtain ⟨i, hi, rfl⟩ := List.getElem_of_mem hx
  obtain ⟨hlength, hall⟩ := List.forall₂_iff_get.mp h
  exact ⟨ys.get ⟨i, hlength ▸ hi⟩, List.get_mem _ _, hall i hi (hlength ▸ hi)⟩

/-- Every element was mapped to some result of the list. -/
theorem exists_of_mapM_eq_ok {γ δ : Type v} {f : γ → Except ε δ} {xs : List γ} {ys : List δ}
    (h : xs.mapM f = .ok ys) : ∀ x ∈ xs, ∃ y ∈ ys, f x = .ok y :=
  exists_of_forall₂ (mapM_eq_ok.mp h)

/-- `List.mapM` succeeds where it does on each element. -/
theorem mapM_ok_of_forall {γ : Type w} {f : γ → Except ε α} {xs : List γ}
    (h : ∀ x ∈ xs, ∃ y, f x = .ok y) : ∃ ys, xs.mapM f = .ok ys := by
  simp only [mapM_eq_ok]
  induction xs with
  | nil => exact ⟨[], .nil⟩
  | cons x xs ih =>
      obtain ⟨y, hy⟩ := h x List.mem_cons_self
      obtain ⟨ys, hys⟩ := ih fun x hx => h x (List.mem_cons_of_mem _ hx)
      exact ⟨y :: ys, .cons hy hys⟩

/-- What the calls of a loop come to is decided element by element. -/
theorem exists_mapM_map_iff {γ δ : Type v} {κ : Type w} {f : γ → Except ε δ} {g : δ → κ}
    {R : γ → κ → Prop} {xs : List γ} {zs : List κ}
    (h : ∀ x ∈ xs, ∀ z, (∃ y, f x = .ok y ∧ g y = z) ↔ R x z) :
    (∃ ys, xs.mapM f = .ok ys ∧ ys.map g = zs) ↔ List.Forall₂ R xs zs := by
  simp only [mapM_eq_ok]
  induction xs generalizing zs with
  | nil =>
      rw [List.forall₂_nil_left_iff]
      constructor
      · rintro ⟨ys, hys, rfl⟩
        rw [List.forall₂_nil_left_iff.mp hys, List.map_nil]
      · rintro rfl
        exact ⟨[], .nil, rfl⟩
  | cons x xs ih =>
      have hx := h x List.mem_cons_self
      have hrest := fun y hy => h y (List.mem_cons_of_mem x hy)
      rw [List.forall₂_cons_left_iff]
      constructor
      · rintro ⟨_, hys, rfl⟩
        obtain ⟨y, ys, hy, htail, rfl⟩ := List.forall₂_cons_left_iff.mp hys
        exact ⟨g y, ys.map g, (hx _).mp ⟨y, hy, rfl⟩, (ih hrest).mp ⟨ys, htail, rfl⟩, rfl⟩
      · rintro ⟨z, zs, hz, hzs, rfl⟩
        obtain ⟨y, hy, rfl⟩ := (hx z).mpr hz
        obtain ⟨ys, hys, rfl⟩ := (ih hrest).mpr hzs
        exact ⟨y :: ys, .cons hy hys, rfl⟩

/-- A successful `List.mapM` that keeps a projection pointwise keeps it on the
whole list, in order. -/
theorem map_eq_of_mapM_eq_ok {γ δ : Type v} {κ : Type w} {f : γ → Except ε δ}
    {k : γ → κ} {k' : δ → κ} (hf : ∀ x y, f x = .ok y → k' y = k x) :
    ∀ {xs : List γ} {ys : List δ}, xs.mapM f = .ok ys → ys.map k' = xs.map k := by
  intro xs
  induction xs with
  | nil =>
      intro ys h
      simp only [List.mapM_nil, pure_eq_ok] at h
      simp [← h]
  | cons x xs ih =>
      intro ys h
      simp only [List.mapM_cons, bind_eq_ok, pure_eq_ok] at h
      obtain ⟨a, ha, as, has, rfl⟩ := h
      simp [hf x a ha, ih has]

end VesselCaller.Lib
