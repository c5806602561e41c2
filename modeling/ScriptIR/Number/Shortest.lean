import ScriptIR.Number.Binary64

/-!
# The shortest decimal text of a floating-point number

Of the decimals that read back as a number, `shortest` picks one with the fewest digits, and of
those the nearest to the number. `Binary64.text` writes it: positional from `10 ^ -4` up to below
`10 ^ 16`, always with a point; otherwise with a signed exponent of at least two digits.
-/
namespace ScriptIR

/-- The decimal `digits * 10 ^ exponent`. -/
structure Decimal where
  digits : Nat
  exponent : Int
deriving Repr, DecidableEq

namespace Binary64

def countDigits (n : Nat) : Nat :=
  (Nat.toDigits 10 n).length

/-- The largest `e` with `10 ^ e ≤ n / d`, for positive `n` and `d`. -/
def decimalOrder (n d : Nat) : Int :=
  if d ≤ n then (countDigits (n / d) : Int) - 1 else -(countDigits ((d - 1) / n) : Int)

/-- The distance of two multiples of `10 ^ e`. This and all distances below are measured in common
units. -/
def grid (q e : Int) : Nat :=
  (power 10 e).1 * (power 2 (q - 2)).2

/-- A quarter of the distance of `m * 2 ^ q` and `(m + 1) * 2 ^ q`. -/
def quarter (q e : Int) : Nat :=
  (power 2 (q - 2)).1 * (power 10 e).2

/-- Whether `c * 10 ^ e` rounds to `m * 2 ^ q`. Below a power of two the numbers
are twice as dense. -/
def readsBack (m : Nat) (q e : Int) (c : Nat) : Bool :=
  let low := (4 * m - if m = Nat.pow 2 52 && leastExponent < q then 1 else 2) * quarter q e
  let high := (4 * m + 2) * quarter q e
  if m % 2 = 0 then low ≤ c * grid q e && c * grid q e ≤ high
  else low < c * grid q e && c * grid q e < high

/-- The multiple of `10 ^ e` that is nearest to `m * 2 ^ q` among its two neighbours that round to
it, an even one in a tie. -/
def nearestMultiple? (m : Nat) (q e : Int) : Option Decimal :=
  let value := 4 * m * quarter q e
  let below := value / grid q e
  let above := below + 1
  match readsBack m q e below, readsBack m q e above with
  | false, false => none
  | true, false => some ⟨below, e⟩
  | false, true => some ⟨above, e⟩
  | true, true =>
    let down := value - below * grid q e
    let up := above * grid q e - value
    some ⟨if down < up || (down = up && below % 2 = 0) then below else above, e⟩

/-- The shortest decimal that reads back as `m * 2 ^ q`, for a positive `m`. Seventeen digits
always suffice. -/
def shortest (m : Nat) (q : Int) : Decimal :=
  let order := decimalOrder (m * (power 2 q).1) (power 2 q).2
  ((List.range 17).findSome? fun (n : Nat) => nearestMultiple? m q (order - n)).getD ⟨m, 0⟩

def zeros (n : Nat) : List Char :=
  List.replicate n '0'

/-- The exponent after the mark `e`: with its sign, and at least two digits. -/
def exponentText (e : Int) : List Char :=
  let digits := Nat.toDigits 10 e.natAbs
  (if e < 0 then '-' else '+') :: (zeros (2 - digits.length) ++ digits)

/-- The text of `0.d₁d₂… * 10 ^ point`, where `digits` are the `dᵢ`. -/
def layout (digits : List Char) (point : Int) : List Char :=
  if -4 < point && point ≤ 16 then
    if point ≤ 0 then '0' :: '.' :: (zeros (-point).toNat ++ digits)
    else
      let whole := point.toNat
      let fraction := digits.drop whole
      digits.take whole ++ zeros (whole - digits.length) ++
        '.' :: (if fraction.isEmpty then ['0'] else fraction)
  else
    digits.take 1 ++ (if digits.length ≤ 1 then [] else '.' :: digits.drop 1) ++
      'e' :: exponentText (point - 1)

/-- The digits of a decimal without the zeros at its end, and the place of its point before them. -/
def placeDigits (d : Decimal) : List Char × Int :=
  let all := Nat.toDigits 10 d.digits
  (((all.reverse.dropWhile (· = '0')).reverse), all.length + d.exponent)

def text : Binary64 → String
  | .nan => "nan"
  | .infinite negative => if negative then "-inf" else "inf"
  | .finite negative m q =>
    let body := if m.val = 0 then "0.0".toList
      else layout (placeDigits (shortest m q)).1 (placeDigits (shortest m q)).2
    String.ofList (if negative then '-' :: body else body)

end Binary64

end ScriptIR
