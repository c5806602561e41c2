/-!
# Floating-point numbers of 64 bits

The numbers that a document's fractions are read as, held as exact values: no operation here goes
through the machine's own floating point. A ratio of natural numbers is rounded to the nearest
number, and a tie goes to the even mantissa.
-/
namespace ScriptIR

/-- A finite number is `mantissa * 2 ^ exponent`. Those that are read have a mantissa of at least `2
^ 52`, unless the exponent is `-1074`, the least one; so a number other than zero has one form. -/
inductive Binary64 where
  | nan
  | infinite (negative : Bool)
  | finite (negative : Bool) (mantissa : Fin (Nat.pow 2 53)) (exponent : Int)
deriving Repr, DecidableEq

namespace Binary64

def leastExponent : Int := -1074

def greatestExponent : Int := 971

/-- The natural number nearest to `n / d`, the even one of two equally near ones. -/
def roundDiv (n d : Nat) : Nat :=
  let floor := n / d
  let rest := n % d
  if 2 * rest < d then floor
  else if d < 2 * rest then floor + 1
  else floor + floor % 2

/-- Numerator and denominator of `base ^ e`. -/
def power (base : Nat) (e : Int) : Nat × Nat :=
  if 0 ≤ e then (base.pow e.toNat, 1) else (1, base.pow (-e).toNat)

/-- Numerator and denominator of `(n / d) / 2 ^ e`. -/
def scaleDown (n d : Nat) (e : Int) : Nat × Nat :=
  (n * (power 2 e).2, d * (power 2 e).1)

def ofRatio (negative : Bool) (n d : Nat) : Binary64 :=
  if n = 0 then .finite negative 0 leastExponent
  else
    let estimate := max ((n.log2 : Int) - d.log2 - 53) leastExponent
    let e := if Nat.pow 2 53 ≤ (scaleDown n d estimate).1 / (scaleDown n d estimate).2
      then estimate + 1 else estimate
    let m := roundDiv (scaleDown n d e).1 (scaleDown n d e).2
    let carried : Fin (Nat.pow 2 53) × Int :=
      if below : m < Nat.pow 2 53 then (⟨m, below⟩, e) else (⟨Nat.pow 2 52, by decide⟩, e + 1)
    if greatestExponent < carried.2 then .infinite negative
    else .finite negative carried.1 carried.2

/-- The number nearest to `digits * 10 ^ exponent`. Magnitudes far outside the range are decided
from the number of digits, so an exponent costs no more than its own text. -/
def ofDecimal (negative : Bool) (digits : Nat) (exponent : Int) : Binary64 :=
  let magnitude : Int := (Nat.toDigits 10 digits).length + exponent
  if digits = 0 || magnitude < -400 then .finite negative 0 leastExponent
  else if 400 < magnitude then .infinite negative
  else ofRatio negative (digits * (power 10 exponent).1) (power 10 exponent).2

def truncate? : Binary64 → Option Int
  | .finite negative m e =>
    let magnitude : Int := (m.val * (power 2 e).1 / (power 2 e).2 : Nat)
    some (if negative then -magnitude else magnitude)
  | _ => none

def isZero : Binary64 → Bool
  | .finite _ m _ => m == 0
  | _ => false

def equalsInt (x : Binary64) (i : Int) : Bool :=
  match x with
  | .finite negative m e =>
    let magnitude := m.val * (power 2 e).1
    magnitude == i.natAbs * (power 2 e).2 && (i == 0 || (negative == decide (i < 0)))
  | _ => false

/-- Whether two numbers have the same value: the sign of zero does not count. -/
def sameValue (x y : Binary64) : Bool :=
  x == y || (x.isZero && y.isZero)

end Binary64

end ScriptIR
