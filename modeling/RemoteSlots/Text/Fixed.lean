import RemoteSlots.Text.Numeral

/-!
This module contains the decimal text of a floating point number with a fixed number of places. The
number is taken exactly as the fraction its bits stand for and rounded once, to the nearest decimal,
a tie to the even one.
-/

namespace RemoteSlots

namespace Text

/--
The quotient `num / den` rounded to the nearest integer, a tie to the even one.
-/
def roundEven (num den : Nat) : Nat :=
  let quotient := num / den
  let rest := num % den
  if 2 * rest < den then quotient
  else if den < 2 * rest then quotient + 1
  else if quotient % 2 = 0 then quotient else quotient + 1

theorem roundEven_near (num : Nat) {den : Nat} (h : 0 < den) :
    2 * num ≤ 2 * (roundEven num den * den) + den ∧ 2 * (roundEven num den * den) ≤ 2 * num + den := by
  have hdiv := Nat.div_add_mod num den
  have hmod := Nat.mod_lt num h
  have hcomm : num / den * den = den * (num / den) := Nat.mul_comm ..
  have hsucc : (num / den + 1) * den = num / den * den + den := Nat.succ_mul ..
  simp only [roundEven]
  split
  · omega
  · split
    · omega
    · split <;> omega

def magnitude (x : Float) : Nat × Nat :=
  let bits := x.toBits.toNat
  let exponent := (bits >>> 52) % (1 <<< 11)
  let fraction := bits % (1 <<< 52)
  let significand := if exponent = 0 then fraction else (1 <<< 52) + fraction
  let scale := max exponent 1
  if 1075 ≤ scale then (significand <<< (scale - 1075), 1) else (significand, 1 <<< (1075 - scale))

def fixed (places : Nat) (x : Float) : String :=
  let (num, den) := magnitude x
  let units := roundEven (num * Nat.pow 10 places) den
  let sign := if x.toBits.toNat < 1 <<< 63 then "" else "-"
  sign ++ toString (units / Nat.pow 10 places) ++ "." ++ zeroPadded places (units % Nat.pow 10 places)

end Text

end RemoteSlots
