import Mathlib.Logic.Function.Basic

/-!
# Row locks

A transaction takes the locks of the rows it reads for update one after the other, waits for
those that others hold, and lets go of all of them when it ends:

* `Locks` — who holds which lock;
* `acquire`, `release` — a free lock is taken, and all locks of one owner are let go of;
* `holds_acquire`, `holds_release` — what others hold stays held.
-/

namespace VesselCaller.Lib

universe u v

variable {L : Type u} {W : Type v}

/-- Who holds which lock. -/
abbrev Locks (L : Type u) (W : Type v) := L → Option W

namespace Locks

/-- Nobody holds anything. -/
def free : Locks L W := fun _ => none

section

variable [DecidableEq L]

/-- `w` takes the lock `l`. -/
def acquire (locks : Locks L W) (l : L) (w : W) : Locks L W := Function.update locks l (some w)

theorem acquire_self (locks : Locks L W) (l : L) (w : W) : locks.acquire l w l = some w := by
  rw [acquire, Function.update_self]

/-- What is held stays held when a free lock is taken. -/
theorem holds_acquire {locks : Locks L W} {l l' : L} {v w : W} (hfree : locks l = none)
    (h : locks l' = some w) : locks.acquire l v l' = some w := by
  have hne : l' ≠ l := by
    rintro rfl
    rw [hfree] at h
    cases h
  rw [acquire, Function.update_of_ne hne, h]

end

section

variable [DecidableEq W]

/-- `w` lets go of all its locks. -/
def release (locks : Locks L W) (w : W) : Locks L W :=
  fun l => if locks l = some w then none else locks l

/-- What one owner holds stays held when another lets go. -/
theorem holds_release {locks : Locks L W} {l : L} {v w : W} (hne : w ≠ v)
    (h : locks l = some w) : locks.release v l = some w := by
  rw [release, h, if_neg]
  rintro ⟨⟩
  exact hne rfl

end

end Locks

end VesselCaller.Lib
