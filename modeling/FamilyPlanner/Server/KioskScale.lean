import FamilyPlanner.Widget.Source
import Mathlib.Data.Rat.Cast.Order
import Mathlib.Tactic.Linarith

/-!
# The scale of the kiosk

A factor from 0.5 to 2.0, stored with two decimals and chosen with a slider of
the browser in steps of 0.05.
-/

namespace FamilyPlanner.Server.KioskScale

open FamilyPlanner.Widget

def digitsValue (cs : List Char) : Nat :=
  cs.foldl (fun n c => 10 * n + (c.toNat - '0'.toNat)) 0

/-- Digits with at most one point among them. -/
def decimal (cs : List Char) : Option ℚ :=
  let fraction := (cs.dropWhile (· ≠ '.')).drop 1
  let digits := cs.takeWhile (· ≠ '.') ++ fraction
  if digits = [] ∨ digits.any (!·.isDigit) then none
  else some (mkRat (digitsValue digits) (Nat.pow 10 fraction.length))

/-- `strconv.ParseFloat` of a number without an exponent, with the number itself
for the nearest float: with two decimals it is written as it was read. -/
def ParseFloat (s : String) : Option ℚ :=
  match s.toList with
  | '-' :: cs => (decimal cs).map fun v => -v
  | '+' :: cs => decimal cs
  | cs => decimal cs

def twoDigits (n : Nat) : String := if n < 10 then "0" ++ n.repr else n.repr

/-- `strconv.FormatFloat` with two decimals, of a number that is not negative. -/
def FormatFloat (v : ℚ) : String :=
  let n := (v * 100 + 1 / 2).floor.toNat
  (n / 100).repr ++ "." ++ twoDigits (n % 100)

def clampScale (v : ℚ) : ℚ :=
  if v < 1 / 2 then 1 / 2 else if 2 < v then 2 else v

/-! ## The slider -/

/-- A number in a page has no plus sign and does not end in its point. -/
def validNumber (value : String) : Option ℚ :=
  if value.toList.head? = some '+' ∨ value.toList.getLast? = some '.' then none
  else ParseFloat value

def scaleStep (k : Nat) : ℚ := mkRat (10 + k) 20

/-- The text of a step, without the zeros a script does not write. -/
def stepText (k : Nat) : String :=
  let n := 50 + 5 * k
  (n / 100).repr ++
    (if n % 100 = 0 then "" else if n % 10 = 0 then "." ++ (n % 100 / 10).repr
    else "." ++ twoDigits (n % 100))

/-- The value a range input takes from 0.5 to 2.0 by 0.05: its middle for what
is no number, and the nearest step. -/
def rangeInput (value : String) : String :=
  match validNumber value with
  | none => stepText 15
  | some v =>
      if v < 1 / 2 then stepText 0
      else if 2 < v then stepText 30
      else
        let k := ((v - 1 / 2) * 20 + 1 / 2).floor.toNat
        if v = scaleStep k then value else stepText k

theorem validNumber_stepText {k : Nat} (h : k ≤ 30) :
    validNumber (stepText k) = some (scaleStep k) := by
  have hall : ∀ k < 31, validNumber (stepText k) = some (scaleStep k) := by decide +kernel
  exact hall k (by omega)

theorem scaleStep_mem {k : Nat} (h : k ≤ 30) : ¬ scaleStep k < 1 / 2 ∧ ¬ 2 < scaleStep k := by
  have hall : ∀ k < 31, ¬ scaleStep k < 1 / 2 ∧ ¬ 2 < scaleStep k := by decide +kernel
  exact hall k (by omega)

/-- A step is stored with two decimals, read back and left by the slider as it is. -/
theorem format_scaleStep {k : Nat} (h : k ≤ 30) :
    ParseFloat (FormatFloat (scaleStep k)) = some (scaleStep k) ∧
      rangeInput (FormatFloat (scaleStep k)) = FormatFloat (scaleStep k) := by
  have hall : ∀ k < 31, ParseFloat (FormatFloat (scaleStep k)) = some (scaleStep k) ∧
      rangeInput (FormatFloat (scaleStep k)) = FormatFloat (scaleStep k) := by
    decide +kernel
  exact hall k (by omega)

theorem format_ne_empty {k : Nat} (h : k ≤ 30) : FormatFloat (scaleStep k) ≠ "" := by
  have hall : ∀ k < 31, FormatFloat (scaleStep k) ≠ "" := by decide +kernel
  exact hall k (by omega)

theorem clampScale_scaleStep {k : Nat} (h : k ≤ 30) : clampScale (scaleStep k) = scaleStep k := by
  obtain ⟨hmin, hmax⟩ := scaleStep_mem h
  rw [clampScale, if_neg hmin, if_neg hmax]

theorem validNumber_eq {value : String} {v : ℚ} (h : validNumber value = some v) :
    ParseFloat value = some v := by
  unfold validNumber at h
  split at h
  · cases h
  · exact h

theorem exists_step_of_rangeInput {value : String} (h : rangeInput value = value) :
    ∃ k ≤ 30, ParseFloat value = some (scaleStep k) := by
  have htext : ∀ k ≤ 30, stepText k = value → ∃ k ≤ 30, ParseFloat value = some (scaleStep k) := by
    intro k hk heq
    exact ⟨k, hk, heq ▸ validNumber_eq (validNumber_stepText hk)⟩
  unfold rangeInput at h
  split at h
  · exact htext 15 (by decide) h
  · rename_i v hv
    dsimp only at h
    split at h
    · exact htext 0 (by decide) h
    · split at h
      · exact htext 30 (by decide) h
      · rename_i hmin hmax
        have hk : ((v - 1 / 2) * 20 + 1 / 2).floor.toNat ≤ 30 := by
          have hfloor : ((v - 1 / 2) * 20 + 1 / 2).floor < 31 := by
            apply Rat.floor_lt_iff.mpr
            push_cast
            linarith
          omega
        split at h
        · rename_i heq
          exact ⟨_, hk, heq ▸ validNumber_eq hv⟩
        · exact htext _ hk h

end FamilyPlanner.Server.KioskScale
