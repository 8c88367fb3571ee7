import VesselCaller.Lib.Scientific

/-!
# Integers as Python reads them

`int(text)` in base ten: spaces around the text, a sign, and decimal digits of any script
with single underscores between them.

* `Unicode` — what the interpreter knows of characters;
* `digitRun` — the digits of a text `\d(_?\d)*`;
* `pyInt` — the number, where the text has the form.

A text of ASCII digits is the number of its digits (`pyInt_of_digits`).
-/

namespace VesselCaller.Lib

/-- The decimal digits and the spaces among the characters.  The ASCII digits are what they
seem, and neither they, the signs nor the underscore are taken for anything else. -/
structure Unicode where
  decimal : Char → Option ℕ
  space : Char → Bool
  decimal_digit : ∀ c, c.isDigit = true → decimal c = some (c.toNat - '0'.toNat)
  space_digit : ∀ c, c.isDigit = true → space c = false

/-- The ASCII characters and nothing else. -/
def Unicode.ascii : Unicode where
  decimal c := if c.isDigit then some (c.toNat - '0'.toNat) else none
  space c := c.isWhitespace && !c.isDigit
  decimal_digit _ h := if_pos h
  space_digit c h := by simp [h]

variable (u : Unicode)

/-- `text.strip()`. -/
def pyStrip (cs : List Char) : List Char :=
  ((cs.dropWhile u.space).reverse.dropWhile u.space).reverse

/-- The digits of a text `\d(_?\d)*`. -/
def digitRun : List Char → Option (List ℕ)
  | [] => none
  | [c] => (u.decimal c).map fun d => [d]
  | c :: '_' :: cs => do
      let d ← u.decimal c
      let ds ← digitRun cs
      return d :: ds
  | c :: cs => do
      let d ← u.decimal c
      let ds ← digitRun cs
      return d :: ds

/-- `int(text)`. -/
def pyInt (cs : List Char) : Option ℤ :=
  let signed := splitSign (pyStrip u cs)
  (digitRun u signed.2).map fun ds => signed.1.factor * (ds.foldl (fun n d => 10 * n + d) 0 : ℕ)

variable {u}

theorem pyStrip_of_digits {cs : List Char} (h : ∀ c ∈ cs, c.isDigit = true) :
    pyStrip u cs = cs := by
  have hkeep : ∀ ds : List Char, (∀ c ∈ ds, c.isDigit = true) → ds.dropWhile u.space = ds := by
    intro ds hds
    cases ds with
    | nil => rfl
    | cons c ds =>
        rw [List.dropWhile_cons_of_neg]
        rw [u.space_digit c (hds c List.mem_cons_self)]
        exact Bool.false_ne_true
  rw [pyStrip, hkeep cs h, hkeep cs.reverse fun c hc => h c (List.mem_reverse.mp hc),
    List.reverse_reverse]

theorem digitRun_of_digits : ∀ {cs : List Char}, cs ≠ [] → (∀ c ∈ cs, c.isDigit = true) →
    digitRun u cs = some (cs.map fun c => c.toNat - '0'.toNat) := by
  intro cs
  induction cs with
  | nil => exact fun h => absurd rfl h
  | cons c cs ih =>
      intro _ h
      obtain ⟨hc, hcs⟩ := List.forall_mem_cons.mp h
      have hd := u.decimal_digit c hc
      cases cs with
      | nil => simp [digitRun, hd]
      | cons c' cs =>
          have hc' : c' ≠ '_' := by
            rintro rfl
            exact absurd (hcs '_' List.mem_cons_self) (by decide)
          rw [digitRun]
          · simp [hd, ih (List.cons_ne_nil _ _) hcs]
          · exact List.cons_ne_nil _ _
          · intro cs' heq
            exact hc' (List.cons.inj heq).1

theorem splitSign_of_digits {cs : List Char} (h : ∀ c ∈ cs, c.isDigit = true) :
    splitSign cs = (.none, cs) := by
  unfold splitSign
  split
  · exact absurd (h '+' List.mem_cons_self) (by decide)
  · exact absurd (h '-' List.mem_cons_self) (by decide)
  · rfl

theorem foldl_digits (cs : List Char) (n : ℕ) :
    (cs.map fun c => c.toNat - '0'.toNat).foldl (fun n d => 10 * n + d) n =
      Nat.ofDigitChars 10 cs n := by
  induction cs generalizing n with
  | nil => rfl
  | cons c cs ih => rw [List.map_cons, List.foldl_cons, ih, Nat.ofDigitChars_cons]

/-- **ASCII digits** are read as they stand. -/
theorem pyInt_of_digits {cs : List Char} (hne : cs ≠ []) (h : ∀ c ∈ cs, c.isDigit = true) :
    pyInt u cs = some (digitsValue cs : ℤ) := by
  simp only [pyInt, pyStrip_of_digits h, splitSign_of_digits h, digitRun_of_digits hne h,
    Option.map_some, foldl_digits, Sign.factor, one_mul]

end VesselCaller.Lib
