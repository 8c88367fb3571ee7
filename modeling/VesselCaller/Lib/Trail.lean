import Mathlib.Data.List.Chain

/-!
# Trails

A log of moves between places records with every entry the place it left and the
place it entered.  The log is a *trail* from `a` to `b` when its entries fit: each one
leaves the place the one before it entered, the first leaves `a`, the last enters `b`,
and none stays where it is.

## Main definitions

* `Trail` — the log leads from one place to the other.
-/

namespace VesselCaller.Lib

universe u v

variable {ε : Type u} {σ : Type v}

/-- The log `es` leads from `a` to `b`. -/
def Trail (src dst : ε → σ) : σ → List ε → σ → Prop
  | a, [], b => a = b
  | a, e :: es, b => src e = a ∧ dst e ≠ a ∧ Trail src dst (dst e) es b

namespace Trail

variable {src dst : ε → σ} {a b : σ} {es : List ε}

/-- One more move from where the trail ended. -/
theorem concat {e : ε} (hsrc : src e = b) (hdst : dst e ≠ b) :
    ∀ {es : List ε} {a : σ}, Trail src dst a es b → Trail src dst a (es ++ [e]) (dst e) := by
  intro es
  induction es with
  | nil =>
      intro a h
      have hab : a = b := h
      exact ⟨hsrc.trans hab.symm, hab ▸ hdst, rfl⟩
  | cons e' es ih =>
      rintro a ⟨hsrc', hdst', hrest⟩
      exact ⟨hsrc', hdst', ih hrest⟩

theorem ne_nil (h : Trail src dst a es b) (hne : a ≠ b) : es ≠ [] := by
  rintro rfl
  exact hne h

theorem head? (h : Trail src dst a es b) (hne : es ≠ []) : es.head?.map src = some a := by
  cases es with
  | nil => exact absurd rfl hne
  | cons e es => exact congrArg some h.1

theorem isChain (h : Trail src dst a es b) :
    es.IsChain fun e e' => src e' = dst e ∧ dst e' ≠ dst e := by
  induction es generalizing a with
  | nil => exact .nil
  | cons e es ih =>
      obtain ⟨_, _, hrest⟩ := h
      cases es with
      | nil => exact .singleton e
      | cons e' es => exact .cons_cons ⟨hrest.1, hrest.2.1⟩ (ih hrest)

theorem getLast? (h : Trail src dst a es b) (hne : es ≠ []) : es.getLast?.map dst = some b := by
  induction es generalizing a with
  | nil => exact absurd rfl hne
  | cons e es ih =>
      obtain ⟨_, _, hrest⟩ := h
      cases es with
      | nil => exact congrArg some hrest
      | cons e' es =>
          rw [List.getLast?_cons_cons]
          exact ih hrest (List.cons_ne_nil _ _)

end Trail

end VesselCaller.Lib
