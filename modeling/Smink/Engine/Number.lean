import Mathlib.Data.Rat.Floor
import Mathlib.Tactic.Linarith
import Mathlib.Tactic.Positivity
import Mathlib.Tactic.FieldSimp
import Mathlib.Tactic.Ring

/-!
# Numbers

The engine computes with JavaScript numbers and stores decimals. Here a number is a rational and every operation is
exact; what is kept of the runtime is what the code's own rounding does. Doubles differ from that at exact ties alone:
an amount on the very edge of a match window, a cap that is just reached, a half that is rounded, may fall on the other
side of it.

* `Num` is a number that may be `NaN` (`Number.isFinite` is `Option.isSome`).
* `Money` is an amount in whole cents, as the `numeric(18, 2)` columns hold it.
* `mathRound` is `Math.round`, which rounds halves up; `round2` and `clamp` are the helpers of `rules.ts`, `roundMoney`
  the one of `ids.ts`, and `toFixed` is `Number.prototype.toFixed`, which rounds halves away from zero.
-/

namespace Smink

/-- A JavaScript number: `none` is `NaN`, which is what `Number(…)` makes of a value that is not a number. -/
abbrev Num := Option ℚ

/-- Arithmetic propagates `NaN`. -/
def Num.lift₂ (f : ℚ → ℚ → ℚ) (a b : Num) : Num := a.bind fun x => b.map (f x)

/-- A comparison with `NaN` is false. -/
def Num.holds₂ (p : ℚ → ℚ → Bool) : Num → Num → Bool
  | some x, some y => p x y
  | _, _ => false

def Num.add : Num → Num → Num := Num.lift₂ (· + ·)
def Num.sub : Num → Num → Num := Num.lift₂ (· - ·)
def Num.div : Num → Num → Num := Num.lift₂ fun x y => x / y
def Num.max : Num → Num → Num := Num.lift₂ fun x y => Max.max x y
def Num.min : Num → Num → Num := Num.lift₂ fun x y => Min.min x y
def Num.lt : Num → Num → Bool := Num.holds₂ fun x y => decide (x < y)
def Num.le : Num → Num → Bool := Num.holds₂ fun x y => decide (x ≤ y)

/-- `===`. -/
def Num.same : Num → Num → Bool := Num.holds₂ fun x y => decide (x = y)

/-- An amount of money in whole cents. -/
abbrev Money := ℤ

/-- The number `Number(column)` reads from a money column. -/
def Money.toRat (m : Money) : ℚ := (m : ℚ) / 100

/-- `Math.round`: the nearest integer, halves rounded up. -/
def mathRound (x : ℚ) : ℤ := ⌊x + 1 / 2⌋

/-- `round2` of `rules.ts`. -/
def round2 (value : ℚ) : ℚ := (mathRound (value * 100) : ℚ) / 100

/-- `clamp` of `rules.ts`. -/
def clamp (value lo hi : ℚ) : ℚ := min hi (max value lo)

/-- `roundMoney` of `ids.ts`, in cents. -/
def roundMoney (value : ℚ) : Money := mathRound (value * 100)

/-- The number that `value.toFixed(digits)` prints. -/
def toFixed (digits : Nat) (value : ℚ) : ℚ :=
  if 0 ≤ value then (mathRound (value * 10 ^ digits) : ℚ) / 10 ^ digits
  else -((mathRound (-value * 10 ^ digits) : ℚ) / 10 ^ digits)

/-- `value.toFixed(2)` of an amount of money, as text. -/
def Money.toText (m : Money) : String :=
  let cents := m.natAbs % 100
  (if m < 0 then "-" else "") ++ toString (m.natAbs / 100) ++ "." ++ (if cents < 10 then "0" else "") ++ toString cents

/-! ## Rounding -/

theorem mathRound_nonneg {x : ℚ} (h : 0 ≤ x) : 0 ≤ mathRound x :=
  Int.floor_nonneg.2 (by linarith)

theorem mathRound_intCast (n : ℤ) : mathRound (n : ℚ) = n := by
  unfold mathRound
  rw [Int.floor_eq_iff]
  constructor <;> linarith

/-- Rounding moves a number by at most one half, up or down. -/
theorem mathRound_le (x : ℚ) : (mathRound x : ℚ) ≤ x + 1 / 2 := Int.floor_le _

theorem lt_mathRound (x : ℚ) : x - 1 / 2 < (mathRound x : ℚ) := by
  have := Int.lt_floor_add_one (x + 1 / 2)
  unfold mathRound
  linarith

theorem round2_nonneg {x : ℚ} (h : 0 ≤ x) : 0 ≤ round2 x := by
  have : (0 : ℚ) ≤ mathRound (x * 100) := by exact_mod_cast mathRound_nonneg (by linarith)
  unfold round2
  linarith

theorem round2_le (x : ℚ) : round2 x ≤ x + 1 / 200 := by
  have := mathRound_le (x * 100)
  unfold round2
  linarith

theorem lt_round2 (x : ℚ) : x - 1 / 200 < round2 x := by
  have := lt_mathRound (x * 100)
  unfold round2
  linarith

theorem roundMoney_nonneg {x : ℚ} (h : 0 ≤ x) : 0 ≤ roundMoney x := mathRound_nonneg (by linarith)

theorem clamp_le (value lo hi : ℚ) : clamp value lo hi ≤ hi := min_le_left _ _

theorem clamp_nonneg {value lo hi : ℚ} (hlo : 0 ≤ lo) (hhi : 0 ≤ hi) : 0 ≤ clamp value lo hi :=
  le_min hhi (hlo.trans (le_max_right _ _))

end Smink
