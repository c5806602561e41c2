import Mathlib.Algebra.Order.Field.Power
import Mathlib.Algebra.Order.Floor.Semifield
import Mathlib.Data.Rat.Floor
import Mathlib.Tactic.FieldSimp
import Mathlib.Tactic.Linarith
import Mathlib.Tactic.NormNum
import Mathlib.Tactic.Positivity
import Mathlib.Tactic.Ring
import ScriptIR.Number.Shortest

/-!
# The shortest decimal is the shortest

`Rounds m q r` says that among the floating-point numbers `m * 2 ^ q` is the one nearest to `r`.
`IsShortest m q d` says that `d` is the decimal that is written for `m * 2 ^ q`: it rounds to the
number, no decimal with fewer digits does, of those with as many digits none is nearer, and of two
that are as near it is the even one. A number has at most one shortest decimal, and `shortest` finds
it, but for the zeros at its end. The search ends, as the interval of all that round to a number is
wider than the distance of two decimals of seventeen digits.
-/
namespace ScriptIR

/-- The value of a decimal. -/
def Decimal.value (d : Decimal) : ℚ :=
  d.digits * 10 ^ d.exponent

/-- Decimals without zeros at their ends are determined by their values. -/
theorem Decimal.eq_of_value_eq {d e : Decimal} (hd : d.digits % 10 ≠ 0) (he : e.digits % 10 ≠ 0)
    (same : d.value = e.value) : d = e := by
  wlog order : d.exponent ≤ e.exponent generalizing d e
  · exact (this he hd same.symm (by omega)).symm
  obtain ⟨k, hk⟩ := Int.le.dest order
  have digits : d.digits = e.digits * 10 ^ k := by
    have power : (10 : ℚ) ^ d.exponent ≠ 0 := by positivity
    rw [Decimal.value, Decimal.value, ← hk, zpow_add₀ (by norm_num),
      mul_comm (10 ^ d.exponent), ← mul_assoc,
      zpow_natCast] at same
    exact_mod_cast mul_right_cancel₀ power same
  cases k with
  | zero =>
    rw [Nat.cast_zero, add_zero] at hk
    rw [Nat.pow_zero, Nat.mul_one] at digits
    cases d
    cases e
    exact congrArg₂ Decimal.mk digits hk
  | succ k =>
    rw [Nat.pow_succ, ← Nat.mul_assoc] at digits
    exact absurd (digits ▸ Nat.mul_mod_left _ 10) hd

namespace Binary64

/-- The distance from a number to the end of its interval below it, in units of the last place. The
numbers below a power of two are twice as dense, unless the exponent is the least one. -/
def reachBelow (m : Nat) (q : Int) : ℚ :=
  if m = 2 ^ 52 ∧ -1074 < q then 1 / 4 else 1 / 2

/-- To `m * 2 ^ q` rounds what is nearest to it. What is as near to the next number
does so if `m` is even. -/
def Rounds (m : Nat) (q : Int) (r : ℚ) : Prop :=
  if m % 2 = 0 then (m - reachBelow m q) * 2 ^ q ≤ r ∧ r ≤ (m + 1 / 2) * 2 ^ q
  else (m - reachBelow m q) * 2 ^ q < r ∧ r < (m + 1 / 2) * 2 ^ q

/-- The decimal, without zeros at its end, that is written for `m * 2 ^ q`. -/
structure IsShortest (m : Nat) (q : Int) (d : Decimal) : Prop where
  trimmed : d.digits % 10 ≠ 0
  rounds : Rounds m q d.value
  fewest : ∀ e : Decimal, Rounds m q e.value → countDigits d.digits ≤ countDigits e.digits
  nearest : ∀ e : Decimal, Rounds m q e.value → countDigits e.digits = countDigits d.digits →
    |d.value - m * 2 ^ q| ≤ |e.value - m * 2 ^ q|
  /-- Of two neighbours among the multiples of a power of ten it is the even multiple. -/
  even : ∀ e : Decimal, Rounds m q e.value → countDigits e.digits = countDigits d.digits →
    |d.value - m * 2 ^ q| = |e.value - m * 2 ^ q| → d.value = e.value ∨
      ∃ (c : Nat) (k : Int), d.value = c * 10 ^ k ∧ c % 2 = 0 ∧ |d.value - e.value| = 10 ^ k

/-! ### Intervals -/

section
variable {m : Nat} {q : Int} {r s t : ℚ}

theorem reachBelow_pos (m : Nat) (q : Int) : 0 < reachBelow m q := by
  unfold reachBelow
  split <;> norm_num

theorem reachBelow_le (m : Nat) (q : Int) : reachBelow m q ≤ 1 / 2 := by
  unfold reachBelow
  split <;> norm_num

/-- Between two numbers that round to the same one all do. -/
theorem Rounds.between (h : Rounds m q r) (k : Rounds m q t) (hs : r ≤ s) (ht : s ≤ t) :
    Rounds m q s := by
  unfold Rounds at *
  split at h
  next even =>
    rw [if_pos even] at k ⊢
    exact ⟨h.1.trans hs, ht.trans k.2⟩
  next odd =>
    rw [if_neg odd] at k ⊢
    exact ⟨h.1.trans_le hs, ht.trans_lt k.2⟩

theorem rounds_of_lt (h : (m - reachBelow m q) * 2 ^ q < r) (k : r < (m + 1 / 2) * 2 ^ q) :
    Rounds m q r := by
  unfold Rounds
  split
  · exact ⟨h.le, k.le⟩
  · exact ⟨h, k⟩

theorem rounds_self (m : Nat) (q : Int) : Rounds m q (m * 2 ^ q) := by
  have power : (0 : ℚ) < 2 ^ q := by positivity
  have below := reachBelow_pos m q
  apply rounds_of_lt <;> nlinarith

theorem Rounds.pos (hm : 0 < m) (h : Rounds m q r) : 0 < r := by
  have power : (0 : ℚ) < 2 ^ q := by positivity
  have below := reachBelow_le m q
  have one : (1 : ℚ) ≤ m := by exact_mod_cast hm
  have least : 0 < (m - reachBelow m q) * 2 ^ q := mul_pos (by linarith) power
  unfold Rounds at h
  split at h
  · exact least.trans_le h.1
  · exact least.trans h.1

/-- The interval of a number is wider than the `10 ^ 16`th part of the number. -/
theorem width_gt (lt : m < 2 ^ 53) :
    m * 2 ^ q < 10 ^ 16 * ((m + 1 / 2) * 2 ^ q - (m - reachBelow m q) * 2 ^ q) := by
  have power : (0 : ℚ) < 2 ^ q := by positivity
  have bound : (m : ℚ) < 2 ^ 53 := by exact_mod_cast lt
  have width : (m : ℚ) < 10 ^ 16 * (1 / 2 + reachBelow m q) := by
    unfold reachBelow
    split
    next least =>
      rw [least.1]
      norm_num
    · norm_num at bound ⊢
      linarith
  nlinarith

end

/-! ### Ratios -/

theorem power_pos {b : Nat} (hb : 0 < b) (e : Int) :
    0 < (power b e).1 ∧ 0 < (power b e).2 := by
  unfold power
  split
  · exact ⟨Nat.pow_pos hb, Nat.one_pos⟩
  · exact ⟨Nat.one_pos, Nat.pow_pos hb⟩

theorem power_ratio {b : Nat} (hb : 0 < b) (e : Int) :
    ((power b e).1 : ℚ) / (power b e).2 = (b : ℚ) ^ e := by
  have nonzero : (b : ℚ) ≠ 0 := by positivity
  unfold power
  split
  next sign =>
    obtain ⟨n, rfl⟩ := Int.eq_ofNat_of_zero_le sign
    simp
  next sign =>
    obtain ⟨n, hn⟩ := Int.eq_ofNat_of_zero_le (by omega : 0 ≤ -e)
    obtain rfl : e = -n := by omega
    simp

theorem countDigits_le_iff {n k : Nat} (hk : 0 < k) : countDigits n ≤ k ↔ n < 10 ^ k :=
  Nat.length_toDigits_le_iff (by decide) hk

theorem countDigits_pos (n : Nat) : 0 < countDigits n :=
  Nat.length_toDigits_pos

theorem pow_countDigits_le {n : Nat} (hn : 0 < n) : 10 ^ (countDigits n - 1) ≤ n := by
  have pos := countDigits_pos n
  by_cases one : countDigits n = 1
  · rw [one]
    exact hn
  · by_contra less
    have fewer := (countDigits_le_iff (by omega)).mpr (not_le.mp less)
    omega

theorem lt_pow_countDigits (n : Nat) : n < 10 ^ countDigits n :=
  (countDigits_le_iff (countDigits_pos n)).mp le_rfl

theorem value_bounds {d : Decimal} {k : Nat} (hd : 0 < d.digits)
    (hk : countDigits d.digits = k + 1) :
    (10 : ℚ) ^ (k + d.exponent) ≤ d.value ∧ d.value < 10 ^ (k + 1 + d.exponent) := by
  have least := pow_countDigits_le hd
  have greatest := lt_pow_countDigits d.digits
  rw [hk] at least greatest
  have power : (0 : ℚ) < 10 ^ d.exponent := by positivity
  constructor
  · rw [zpow_add₀ (by norm_num), zpow_natCast, Decimal.value]
    exact mul_le_mul_of_nonneg_right (by exact_mod_cast least) power.le
  · rw [zpow_add₀ (by norm_num), Decimal.value]
    exact mul_lt_mul_of_pos_right (by exact_mod_cast greatest) power

/-- The place of the first digit of a ratio. -/
theorem decimalOrder_spec {n d : Nat} (hn : 0 < n) (hd : 0 < d) :
    (10 : ℚ) ^ decimalOrder n d ≤ (n : ℚ) / d ∧ (n : ℚ) / d < 10 ^ (decimalOrder n d + 1) := by
  have denominator : (0 : ℚ) < d := by exact_mod_cast hd
  have numerator : (0 : ℚ) < n := by exact_mod_cast hn
  unfold decimalOrder
  split
  next whole =>
    have quotient : 0 < n / d := Nat.div_pos whole hd
    obtain ⟨k, hk⟩ := Nat.exists_eq_add_of_lt (countDigits_pos (n / d))
    rw [Nat.zero_add] at hk
    have least := pow_countDigits_le quotient
    have greatest := lt_pow_countDigits (n / d)
    rw [hk] at least greatest ⊢
    have order : ((k + 1 : Nat) : Int) - 1 = k := by omega
    rw [order]
    constructor
    · rw [le_div_iff₀ denominator, zpow_natCast]
      exact_mod_cast (Nat.mul_le_mul_right d least).trans (Nat.div_mul_le_self n d)
    · rw [div_lt_iff₀ denominator]
      have next : n < 10 ^ (k + 1) * d := (Nat.div_lt_iff_lt_mul hd).mp greatest
      exact_mod_cast next
  next fraction =>
    have quotient : 0 < (d - 1) / n := Nat.div_pos (by omega) hn
    have least := pow_countDigits_le quotient
    have greatest := lt_pow_countDigits ((d - 1) / n)
    obtain ⟨k, hk⟩ := Nat.exists_eq_add_of_lt (countDigits_pos ((d - 1) / n))
    rw [Nat.zero_add] at hk
    rw [hk] at least greatest ⊢
    have order : -((k + 1 : Nat) : Int) + 1 = -(k : Int) := by omega
    rw [order, zpow_neg, zpow_neg, zpow_natCast, zpow_natCast]
    constructor
    · rw [le_div_iff₀ denominator, inv_mul_le_iff₀ (by positivity)]
      have next : d ≤ 10 ^ (k + 1) * n := by
        have := (Nat.div_lt_iff_lt_mul hn).mp greatest
        omega
      exact_mod_cast next
    · rw [div_lt_iff₀ denominator, lt_inv_mul_iff₀ (by positivity)]
      have next : 10 ^ k * n < d := by
        have := (Nat.le_div_iff_mul_le hn).mp least
        simp only [Nat.add_sub_cancel] at this
        omega
      exact_mod_cast next

/-! ### Multiples of a power of ten -/

/-- Of the multiples of `10 ^ e` that round to `m * 2 ^ q` it is the nearest one that `c` counts,
the even one of two equally near ones. -/
structure IsNearest (m : Nat) (q e : Int) (c : Nat) : Prop where
  rounds : Rounds m q (c * 10 ^ e)
  nearest : ∀ b : Nat, Rounds m q (b * 10 ^ e) →
    |(c : ℚ) * 10 ^ e - m * 2 ^ q| ≤ |(b : ℚ) * 10 ^ e - m * 2 ^ q|
  even : ∀ b : Nat, Rounds m q (b * 10 ^ e) →
    |(c : ℚ) * 10 ^ e - m * 2 ^ q| = |(b : ℚ) * 10 ^ e - m * 2 ^ q| →
      b = c ∨ c % 2 = 0 ∧ (b = c + 1 ∨ c = b + 1)
  le_next : (c : ℚ) * 10 ^ e ≤ m * 2 ^ q + 10 ^ e

section
variable {m : Nat} {q : Int} {e : Int} {below : Nat}

theorem eq_zero_of_steps {k : Nat} (h : (k : ℚ) * 10 ^ e = 0) : k = 0 := by
  have grid : (10 : ℚ) ^ e ≠ 0 := by positivity
  exact Nat.cast_eq_zero.mp ((mul_eq_zero.mp h).resolve_right grid)

/-- How far a multiple that is not above the number is from it. -/
theorem distance_below (floor : (below : ℚ) * 10 ^ e ≤ m * 2 ^ q) {b : Nat} (h : b ≤ below) :
    |(b : ℚ) * 10 ^ e - m * 2 ^ q| =
      (m * 2 ^ q - below * 10 ^ e) + ((below - b : Nat) : ℚ) * 10 ^ e := by
  have most : (b : ℚ) ≤ below := by exact_mod_cast h
  have product := mul_le_mul_of_nonneg_right most (by positivity : (0 : ℚ) ≤ 10 ^ e)
  rw [abs_of_nonpos (by linarith), Nat.cast_sub h]
  ring

theorem distance_above (ceiling : m * (2 : ℚ) ^ q < (below + 1) * 10 ^ e) {b : Nat}
    (h : below + 1 ≤ b) :
    |(b : ℚ) * 10 ^ e - m * 2 ^ q| =
      ((below + 1) * 10 ^ e - m * 2 ^ q) + ((b - (below + 1) : Nat) : ℚ) * 10 ^ e := by
  have most : ((below + 1 : Nat) : ℚ) ≤ b := by exact_mod_cast h
  have product := mul_le_mul_of_nonneg_right most (by positivity : (0 : ℚ) ≤ 10 ^ e)
  push_cast at product
  rw [abs_of_nonneg (by linarith), Nat.cast_sub h]
  push_cast
  ring

variable (floor : (below : ℚ) * 10 ^ e ≤ m * 2 ^ q)
    (ceiling : m * (2 : ℚ) ^ q < (below + 1) * 10 ^ e)
include floor ceiling

/-- If a multiple rounds to the number, so does the neighbour of the number on its side. -/
theorem rounds_neighbour {b : Nat} (h : Rounds m q (b * 10 ^ e)) :
    (b ≤ below ∧ Rounds m q (below * 10 ^ e)) ∨
      (below + 1 ≤ b ∧ Rounds m q (((below + 1 : Nat) : ℚ) * 10 ^ e)) := by
  have grid : (0 : ℚ) < 10 ^ e := by positivity
  have self := rounds_self m q
  rcases Nat.lt_or_ge below b with above | low
  · refine .inr ⟨above, self.between h ?_ ?_⟩
    · push_cast
      exact ceiling.le
    · have most : ((below + 1 : Nat) : ℚ) ≤ b := by exact_mod_cast above
      exact mul_le_mul_of_nonneg_right most grid.le
  · refine .inl ⟨low, h.between self ?_ floor⟩
    have most : (b : ℚ) ≤ below := by exact_mod_cast low
    exact mul_le_mul_of_nonneg_right most grid.le

theorem isNearest_below (rounds : Rounds m q (below * 10 ^ e))
    (chosen : Rounds m q (((below + 1 : Nat) : ℚ) * 10 ^ e) →
      m * 2 ^ q - below * 10 ^ e < (below + 1) * 10 ^ e - m * (2 : ℚ) ^ q ∨
        m * 2 ^ q - below * 10 ^ e = (below + 1) * 10 ^ e - m * (2 : ℚ) ^ q ∧ below % 2 = 0) :
    IsNearest m q e below := by
  have grid : (0 : ℚ) < 10 ^ e := by positivity
  have self := distance_below floor (Nat.le_refl below)
  rw [Nat.sub_self, Nat.cast_zero, zero_mul, add_zero] at self
  refine ⟨rounds, fun b h => ?_, fun b h same => ?_, by linarith⟩
  · rw [self]
    obtain ⟨low, -⟩ | ⟨high, above⟩ := rounds_neighbour floor ceiling h
    · rw [distance_below floor low]
      exact le_add_of_nonneg_right (by positivity)
    · rw [distance_above ceiling high]
      have further : (0 : ℚ) ≤ ((b - (below + 1) : Nat) : ℚ) * 10 ^ e := by positivity
      rcases chosen above with nearer | ⟨nearer, -⟩ <;> linarith
  · rw [self] at same
    obtain ⟨low, -⟩ | ⟨high, above⟩ := rounds_neighbour floor ceiling h
    · rw [distance_below floor low] at same
      have steps : below - b = 0 := eq_zero_of_steps (e := e) (by linarith)
      exact .inl (by omega)
    · rw [distance_above ceiling high] at same
      have further : (0 : ℚ) ≤ ((b - (below + 1) : Nat) : ℚ) * 10 ^ e := by positivity
      rcases chosen above with nearer | ⟨nearer, even⟩
      · linarith
      · have steps : b - (below + 1) = 0 := eq_zero_of_steps (e := e) (by linarith)
        exact .inr ⟨even, .inl (by omega)⟩

theorem isNearest_above (rounds : Rounds m q (((below + 1 : Nat) : ℚ) * 10 ^ e))
    (chosen : Rounds m q (below * 10 ^ e) →
      (below + 1) * 10 ^ e - m * (2 : ℚ) ^ q < m * 2 ^ q - below * 10 ^ e ∨
        (below + 1) * 10 ^ e - m * (2 : ℚ) ^ q = m * 2 ^ q - below * 10 ^ e ∧ (below + 1) % 2 = 0) :
    IsNearest m q e (below + 1) := by
  have self := distance_above ceiling (Nat.le_refl (below + 1))
  rw [Nat.sub_self, Nat.cast_zero, zero_mul, add_zero] at self
  refine ⟨rounds, fun b h => ?_, fun b h same => ?_, by push_cast; linarith⟩
  · rw [self]
    obtain ⟨low, above⟩ | ⟨high, -⟩ := rounds_neighbour floor ceiling h
    · rw [distance_below floor low]
      have further : (0 : ℚ) ≤ ((below - b : Nat) : ℚ) * 10 ^ e := by positivity
      rcases chosen above with nearer | ⟨nearer, -⟩ <;> linarith
    · rw [distance_above ceiling high]
      exact le_add_of_nonneg_right (by positivity)
  · rw [self] at same
    obtain ⟨low, above⟩ | ⟨high, -⟩ := rounds_neighbour floor ceiling h
    · rw [distance_below floor low] at same
      have further : (0 : ℚ) ≤ ((below - b : Nat) : ℚ) * 10 ^ e := by positivity
      rcases chosen above with nearer | ⟨nearer, even⟩
      · linarith
      · have steps : below - b = 0 := eq_zero_of_steps (e := e) (by linarith)
        exact .inr ⟨even, .inr (by omega)⟩
    · rw [distance_above ceiling high] at same
      have steps : b - (below + 1) = 0 := eq_zero_of_steps (e := e) (by linarith)
      exact .inl (by omega)

end

/-! ### The search -/

section
variable {m : Nat} {q : Int} {e : Int}

/-- How many of the common units make a distance of one. -/
def units (q e : Int) : ℚ :=
  (power 10 e).2 * (power 2 (q - 2)).2

theorem units_pos (q e : Int) : 0 < units q e := by
  have ten : (0 : ℚ) < (power 10 e).2 := by exact_mod_cast (power_pos (by decide) e).2
  have two : (0 : ℚ) < (power 2 (q - 2)).2 := by exact_mod_cast (power_pos (by decide) (q - 2)).2
  exact mul_pos ten two

theorem grid_eq (q e : Int) : (grid q e : ℚ) = 10 ^ e * units q e := by
  have ten : ((power 10 e).2 : ℚ) ≠ 0 := by exact_mod_cast (power_pos (by decide) e).2.ne'
  have ratio := power_ratio (b := 10) (by decide) e
  push_cast at ratio
  rw [grid, units, ← ratio]
  push_cast
  field_simp

theorem grid_pos (q e : Int) : 0 < grid q e := by
  have positive : (0 : ℚ) < grid q e := by
    rw [grid_eq]
    exact mul_pos (by positivity) (units_pos q e)
  exact_mod_cast positive

theorem mul_grid_eq (q e : Int) (c : Nat) :
    ((c * grid q e : Nat) : ℚ) = c * 10 ^ e * units q e := by
  rw [Nat.cast_mul, grid_eq, mul_assoc]

theorem four_mul_quarter (q e : Int) : 4 * (quarter q e : ℚ) = 2 ^ q * units q e := by
  have two : ((power 2 (q - 2)).2 : ℚ) ≠ 0 := by
    exact_mod_cast (power_pos (by decide) (q - 2)).2.ne'
  have ratio := power_ratio (b := 2) (by decide) (q - 2)
  have fourth : (2 : ℚ) ^ q = 4 * 2 ^ (q - 2) := by
    rw [zpow_sub₀ (by norm_num)]
    norm_num
    ring
  push_cast at ratio
  rw [fourth, quarter, units, ← ratio]
  push_cast
  field_simp

/-- The number in common units. -/
theorem value_eq (m : Nat) (q e : Int) :
    ((4 * m * quarter q e : Nat) : ℚ) = m * 2 ^ q * units q e := by
  rw [Nat.mul_comm 4, Nat.mul_assoc, Nat.cast_mul, Nat.cast_mul, Nat.cast_ofNat, four_mul_quarter,
    mul_assoc]

/-- The multiple below the number. -/
theorem mul_div_grid_le (m : Nat) (q e : Int) :
    ((4 * m * quarter q e / grid q e : Nat) : ℚ) * 10 ^ e ≤ m * 2 ^ q := by
  have least : ((4 * m * quarter q e / grid q e * grid q e : Nat) : ℚ) ≤
      (4 * m * quarter q e : Nat) := by
    rw [Nat.cast_le]
    exact Nat.div_mul_le_self _ _
  rw [mul_grid_eq, value_eq] at least
  exact (mul_le_mul_iff_left₀ (units_pos q e)).mp least

theorem lt_mul_div_grid (m : Nat) (q e : Int) :
    m * (2 : ℚ) ^ q < ((4 * m * quarter q e / grid q e : Nat) + 1) * 10 ^ e := by
  have greatest : ((4 * m * quarter q e : Nat) : ℚ) <
      ((4 * m * quarter q e / grid q e + 1) * grid q e : Nat) := by
    rw [Nat.cast_lt, Nat.mul_comm _ (grid q e)]
    exact Nat.lt_mul_div_succ _ (grid_pos q e)
  rw [mul_grid_eq, value_eq] at greatest
  exact_mod_cast (mul_lt_mul_iff_left₀ (units_pos q e)).mp greatest

theorem readsBack_iff (hm : 0 < m) (c : Nat) :
    readsBack m q e c = true ↔ Rounds m q (c * 10 ^ e) := by
  have unit := units_pos q e
  have whole := four_mul_quarter q e
  have low :
      (((4 * m - if m = Nat.pow 2 52 && leastExponent < q then 1 else 2) * quarter q e : Nat) : ℚ) =
      (m - reachBelow m q) * 2 ^ q * units q e := by
    rw [Nat.cast_mul, mul_assoc, ← whole]
    unfold reachBelow leastExponent
    split
    next least =>
      rw [if_pos (by simpa using least), Nat.cast_sub (by omega)]
      push_cast
      ring
    next least =>
      rw [if_neg (by simpa using least), Nat.cast_sub (by omega)]
      push_cast
      ring
  have high : (((4 * m + 2) * quarter q e : Nat) : ℚ) = (m + 1 / 2) * 2 ^ q * units q e := by
    rw [Nat.cast_mul, mul_assoc, ← whole]
    push_cast
    ring
  unfold readsBack Rounds
  by_cases even : m % 2 = 0
  · rw [if_pos even, if_pos even, Bool.and_eq_true, decide_eq_true_eq, decide_eq_true_eq,
      ← Nat.cast_le (α := ℚ), low, mul_grid_eq, ← Nat.cast_le (α := ℚ), mul_grid_eq, high,
      mul_le_mul_iff_left₀ unit, mul_le_mul_iff_left₀ unit]
  · rw [if_neg even, if_neg even, Bool.and_eq_true, decide_eq_true_eq, decide_eq_true_eq,
      ← Nat.cast_lt (α := ℚ), low, mul_grid_eq, ← Nat.cast_lt (α := ℚ), mul_grid_eq, high,
      mul_lt_mul_iff_left₀ unit, mul_lt_mul_iff_left₀ unit]

theorem nearestMultiple?_spec (hm : 0 < m) : match nearestMultiple? m q e with
    | none => ∀ c : Nat, ¬Rounds m q (c * 10 ^ e)
    | some d => d.exponent = e ∧ IsNearest m q e d.digits := by
  have unit := units_pos q e
  have floor := mul_div_grid_le m q e
  have ceiling := lt_mul_div_grid m q e
  unfold nearestMultiple?
  dsimp only
  generalize 4 * m * quarter q e / grid q e = below at floor ceiling ⊢
  have rounds_below := readsBack_iff hm (q := q) (e := e) below
  have rounds_above := readsBack_iff hm (q := q) (e := e) (below + 1)
  cases atBelow : readsBack m q e below <;> cases atAbove : readsBack m q e (below + 1) <;>
    simp only [atBelow, atAbove, true_iff, false_iff,
      Bool.false_eq_true] at rounds_below rounds_above ⊢
  · intro c h
    rcases rounds_neighbour floor ceiling h with ⟨-, h⟩ | ⟨-, h⟩
    · exact rounds_below h
    · exact rounds_above h
  · exact ⟨trivial, isNearest_above floor ceiling rounds_above fun h => absurd h rounds_below⟩
  · exact ⟨trivial, isNearest_below floor ceiling rounds_below fun h => absurd h rounds_above⟩
  · refine ⟨trivial, ?_⟩
    have least : below * grid q e ≤ 4 * m * quarter q e := by
      rw [← Nat.cast_le (α := ℚ), mul_grid_eq, value_eq]
      exact (mul_le_mul_iff_left₀ unit).mpr floor
    have greatest : 4 * m * quarter q e ≤ (below + 1) * grid q e := by
      rw [← Nat.cast_le (α := ℚ), mul_grid_eq, value_eq]
      exact (mul_le_mul_iff_left₀ unit).mpr (by exact_mod_cast ceiling.le)
    have down : ((4 * m * quarter q e - below * grid q e : Nat) : ℚ) =
        (m * 2 ^ q - below * 10 ^ e) * units q e := by
      rw [Nat.cast_sub least, value_eq, mul_grid_eq, sub_mul]
    have up : (((below + 1) * grid q e - 4 * m * quarter q e : Nat) : ℚ) =
        ((below + 1) * 10 ^ e - m * 2 ^ q) * units q e := by
      rw [Nat.cast_sub greatest, value_eq, mul_grid_eq, sub_mul, Nat.cast_add, Nat.cast_one]
    have lt :
        4 * m * quarter q e - below * grid q e < (below + 1) * grid q e - 4 * m * quarter q e ↔
        m * 2 ^ q - below * 10 ^ e < (below + 1) * 10 ^ e - m * (2 : ℚ) ^ q := by
      rw [← Nat.cast_lt (α := ℚ), down, up, mul_lt_mul_iff_left₀ unit]
    have eq :
        4 * m * quarter q e - below * grid q e = (below + 1) * grid q e - 4 * m * quarter q e ↔
        m * 2 ^ q - below * 10 ^ e = (below + 1) * 10 ^ e - m * (2 : ℚ) ^ q := by
      rw [← Nat.cast_inj (R := ℚ), down, up, mul_left_inj' unit.ne']
    split
    next nearer =>
      simp only [Bool.or_eq_true, Bool.and_eq_true, decide_eq_true_eq, lt, eq] at nearer
      exact isNearest_below floor ceiling rounds_below fun _ => nearer
    next further =>
      simp only [Bool.or_eq_true, Bool.and_eq_true, decide_eq_true_eq, lt, eq, not_or,
        not_and] at further
      refine isNearest_above floor ceiling rounds_above fun _ => ?_
      rcases (not_lt.mp further.1).lt_or_eq with nearer | tie
      · exact .inl nearer
      · have odd := further.2 tie.symm
        exact .inr ⟨tie, by omega⟩

/-- The first place at which the search finds a decimal. -/
theorem findSome?_range {α : Type} {f : Nat → Option α} {a : α} {n : Nat} (found : f n = some a)
    (first : ∀ i < n, f i = none) {k : Nat} (hk : n < k) : (List.range k).findSome? f = some a := by
  induction k with
  | zero => cases hk
  | succ k ih =>
    rw [List.range_succ, List.findSome?_append]
    rcases Nat.lt_succ_iff_lt_or_eq.mp hk with before | rfl
    · rw [ih before, Option.some_or]
    · have none : (List.range n).findSome? f = none := by
        simpa [List.findSome?_eq_none_iff] using first
      rw [none, Option.none_or, List.findSome?_singleton, found]

/-- In an interval that is wider than the distance of two multiples stands one of them. -/
theorem exists_multiple (hm : 0 < m)
    (wide : (10 : ℚ) ^ e < (m + 1 / 2) * 2 ^ q - (m - reachBelow m q) * 2 ^ q) :
    ∃ c : Nat, Rounds m q (c * 10 ^ e) := by
  have grid : (0 : ℚ) < 10 ^ e := by positivity
  have start : 0 ≤ (m - reachBelow m q) * 2 ^ q / 10 ^ e := by
    have one : (1 : ℚ) ≤ m := by exact_mod_cast hm
    have reach := reachBelow_le m q
    exact div_nonneg (mul_nonneg (by linarith) (by positivity)) grid.le
  have before := (le_div_iff₀ grid).mp (Nat.floor_le start)
  have after := (div_lt_iff₀ grid).mp (Nat.lt_floor_add_one ((m - reachBelow m q) * 2 ^ q / 10 ^ e))
  refine ⟨⌊(m - reachBelow m q) * 2 ^ q / 10 ^ e⌋₊ + 1, rounds_of_lt ?_ ?_⟩
  · push_cast
    exact after
  · push_cast
    linarith

/-- The search finds the nearest multiple of the first power of ten of which one
rounds to the number. -/
theorem shortest_spec (hm : 0 < m) (lt : m < 2 ^ 53) : ∃ (order : Int) (n c : Nat),
    (10 : ℚ) ^ order ≤ m * 2 ^ q ∧ m * (2 : ℚ) ^ q < 10 ^ (order + 1) ∧
    shortest m q = ⟨c, order - n⟩ ∧ IsNearest m q (order - n) c ∧
    ∀ k < n, ∀ b : Nat, ¬Rounds m q (b * 10 ^ (order - k)) := by
  obtain ⟨numerator, denominator⟩ := power_pos (b := 2) (by decide) q
  have value : ((m * (power 2 q).1 : Nat) : ℚ) / (power 2 q).2 = m * 2 ^ q := by
    rw [Nat.cast_mul, mul_div_assoc, power_ratio (by decide), Nat.cast_ofNat]
  obtain ⟨least, greatest⟩ := decimalOrder_spec (Nat.mul_pos hm numerator) denominator
  rw [value] at least greatest
  unfold shortest
  dsimp only
  generalize decimalOrder (m * (power 2 q).1) (power 2 q).2 = order at least greatest ⊢
  have wide : (10 : ℚ) ^ (order - (16 : Nat)) < (m + 1 / 2) * 2 ^ q - (m - reachBelow m q) *
      2 ^ q := by
    have width := width_gt (q := q) lt
    rw [zpow_sub₀ (by norm_num), zpow_natCast, div_lt_iff₀ (by positivity)]
    linarith
  have sixteen : (nearestMultiple? m q (order - (16 : Nat))).isSome := by
    obtain ⟨c, hc⟩ := exists_multiple hm wide
    have spec := nearestMultiple?_spec (q := q) (e := order - (16 : Nat)) hm
    cases found : nearestMultiple? m q (order - (16 : Nat)) with
    | none =>
      rw [found] at spec
      exact absurd hc (spec c)
    | some d => rfl
  have found : ∃ n : Nat, (nearestMultiple? m q (order - n)).isSome := ⟨16, sixteen⟩
  have first : ∀ k < Nat.find found, nearestMultiple? m q (order - k) = none := fun k hk =>
    Option.not_isSome_iff_eq_none.mp (Nat.find_min found hk)
  obtain ⟨d, hd⟩ := Option.isSome_iff_exists.mp (Nat.find_spec found)
  have within : Nat.find found < 17 := Nat.lt_succ_of_le (Nat.find_min' found sixteen)
  obtain ⟨exponent, nearest⟩ : d.exponent = order - Nat.find found ∧
      IsNearest m q (order - Nat.find found) d.digits := by
    have spec := nearestMultiple?_spec (q := q) (e := order - Nat.find found) hm
    rwa [hd] at spec
  refine ⟨order, Nat.find found, d.digits, least, greatest, ?_, nearest, fun k hk b h => ?_⟩
  · rw [findSome?_range hd first within, Option.getD_some, ← exponent]
  · have spec := nearestMultiple?_spec (q := q) (e := order - k) hm
    rw [first k hk] at spec
    exact spec b h

/-- For each decimal that rounds to the number there is a multiple that has as many digits from the
number's first one on, and is no farther from the number. -/
theorem multiple_near {order : Int} (hm : 0 < m) (least : (10 : ℚ) ^ order ≤ m * 2 ^ q)
    (greatest : m * (2 : ℚ) ^ q < 10 ^ (order + 1)) {d : Decimal} {k : Nat} (h : Rounds m q d.value)
    (hk : countDigits d.digits = k + 1) : ∃ c : Nat, Rounds m q (c * 10 ^ (order - k)) ∧
      (c * 10 ^ (order - k) = d.value ∨
        |(c : ℚ) * 10 ^ (order - k) - m * 2 ^ q| < |d.value - m * 2 ^ q|) := by
  have self := rounds_self m q
  have whole (j : Nat) : ((10 ^ (k + j) : Nat) : ℚ) * 10 ^ (order - k) = 10 ^ (order + j) := by
    rw [Nat.cast_pow, Nat.cast_ofNat, ← zpow_natCast, ← zpow_add₀ (by norm_num)]
    congr 1
    push_cast
    ring
  rcases lt_or_ge d.value (10 ^ order) with smaller | atLeast
  · have first := whole 0
    rw [Nat.cast_zero, add_zero, add_zero] at first
    refine ⟨10 ^ k, ?_, .inr ?_⟩ <;> rw [first]
    · exact h.between self smaller.le least
    · rw [abs_of_nonpos (by linarith), abs_of_nonpos (by linarith)]
      linarith
  · rcases lt_or_ge d.value (10 ^ (order + 1)) with below | above
    · have place : d.exponent = order - k := by
        have digits : 0 < d.digits := by
          by_contra none
          have zero : d.value = 0 := by simp [Decimal.value, Nat.le_zero.mp (not_lt.mp none)]
          exact absurd (h.pos hm) (by rw [zero]; exact lt_irrefl 0)
        obtain ⟨low, high⟩ := value_bounds digits hk
        have above := (zpow_lt_zpow_iff_right₀ (by norm_num)).mp (low.trans_lt below)
        have atMost := (zpow_lt_zpow_iff_right₀ (by norm_num)).mp (atLeast.trans_lt high)
        omega
      refine ⟨d.digits, ?_, .inl ?_⟩ <;> rw [← place]
      · exact h
      · rfl
    · have last := whole 1
      refine ⟨10 ^ (k + 1), ?_, ?_⟩ <;> rw [last]
      · exact self.between h greatest.le above
      · rcases above.eq_or_lt with same | above
        · exact .inl same
        · refine .inr ?_
          rw [Nat.cast_one, abs_of_nonneg (by linarith), abs_of_nonneg (by linarith)]
          linarith

end

/-! ### The zeros at the end -/

theorem exists_trimmed {n : Nat} (hn : 0 < n) : ∃ c z, c % 10 ≠ 0 ∧ n = c * 10 ^ z := by
  induction n using Nat.strong_induction_on with
  | _ n ih =>
    by_cases last : n % 10 = 0
    · obtain ⟨c, z, hc, same⟩ := ih (n / 10) (by omega) (by omega)
      refine ⟨c, z + 1, hc, ?_⟩
      rw [Nat.pow_succ, ← Nat.mul_assoc, ← same]
      omega
    · exact ⟨n, 0, last, by rw [Nat.pow_zero, Nat.mul_one]⟩

/-- From the first digit of the number on, the nearest multiple has no more places than that. -/
theorem IsNearest.le_pow {m : Nat} {q order : Int} {n c : Nat}
    (nearest : IsNearest m q (order - n) c) (greatest : m * (2 : ℚ) ^ q < 10 ^ (order + 1)) :
    c ≤ 10 ^ (n + 1) := by
  have grid : (0 : ℚ) < 10 ^ (order - n) := by positivity
  have next : (10 : ℚ) ^ (order + 1) = 10 ^ (n + 1) * 10 ^ (order - n) := by
    rw [← zpow_natCast, ← zpow_add₀ (by norm_num)]
    congr 1
    push_cast
    ring
  have upper : (c : ℚ) * 10 ^ (order - n) < (10 ^ (n + 1) + 1) * 10 ^ (order - n) := by
    have := nearest.le_next
    linarith
  have lt : (c : ℚ) < 10 ^ (n + 1) + 1 := (mul_lt_mul_iff_left₀ grid).mp upper
  exact Nat.le_of_lt_succ (by exact_mod_cast lt)

/-- The nearest multiple of the first power of ten of which one rounds to the number is its shortest
decimal, but for the zeros at its end. -/
theorem isShortest_of_isNearest {m : Nat} {q order : Int} {n c d z : Nat} (hm : 0 < m)
    (least : (10 : ℚ) ^ order ≤ m * 2 ^ q) (greatest : m * (2 : ℚ) ^ q < 10 ^ (order + 1))
    (nearest : IsNearest m q (order - n) c) (first : ∀ k < n, ∀ b : Nat,
      ¬Rounds m q (b * 10 ^ (order - k)))
    (hd : d % 10 ≠ 0) (hc : c = d * 10 ^ z) : IsShortest m q ⟨d, order - n + z⟩ := by
  have value : Decimal.value ⟨d, order - n + z⟩ = c * 10 ^ (order - n) := by
    rw [Decimal.value, hc, zpow_add₀ (by norm_num), zpow_natCast]
    push_cast
    ring
  have rounds : Rounds m q (Decimal.value ⟨d, order - n + z⟩) := value ▸ nearest.rounds
  have atLeast : ∀ e : Decimal, Rounds m q e.value → n + 1 ≤ countDigits e.digits := by
    intro e h
    obtain ⟨k, hk⟩ := Nat.exists_eq_add_of_lt (countDigits_pos e.digits)
    rw [Nat.zero_add] at hk
    obtain ⟨b, hb, -⟩ := multiple_near hm least greatest h hk
    by_contra fewer
    exact first k (by omega) b hb
  have atMost : countDigits d ≤ n + 1 := by
    have bound := nearest.le_pow greatest
    have factor : d ≤ c := hc ▸ Nat.le_mul_of_pos_right d (Nat.pow_pos (by decide))
    have other : d ≠ 10 ^ (n + 1) := by
      rintro rfl
      exact hd (by rw [Nat.pow_succ, Nat.mul_mod_left])
    exact (countDigits_le_iff (by omega)).mpr (by omega)
  have digits : countDigits d = n + 1 := Nat.le_antisymm atMost (atLeast _ rounds)
  refine ⟨hd, rounds, fun e h => digits ▸ atLeast e h, fun e h same => ?_, fun e h same tie => ?_⟩
  · obtain ⟨b, hb, near⟩ := multiple_near hm least greatest h (same.trans digits)
    rw [value]
    have closest := nearest.nearest b hb
    rcases near with near | near
    · rw [← near]
      exact closest
    · exact closest.trans near.le
  · obtain ⟨b, hb, near⟩ := multiple_near hm least greatest h (same.trans digits)
    rw [value] at tie ⊢
    rcases near with near | near
    · rw [← near] at tie ⊢
      rcases nearest.even b hb tie with rfl | ⟨even, beside⟩
      · exact .inl rfl
      · refine .inr ⟨c, order - n, rfl, even, ?_⟩
        have step : |(c : ℚ) - b| = 1 := by
          rcases beside with rfl | rfl <;> norm_num
        rw [← sub_mul, abs_mul, step, one_mul, abs_of_pos (by positivity)]
    · exact absurd tie (ne_of_lt ((nearest.nearest b hb).trans_lt near))

theorem IsShortest.unique {m : Nat} {q : Int} {d e : Decimal} (hd : IsShortest m q d)
    (he : IsShortest m q e) : d = e := by
  have digits : countDigits e.digits = countDigits d.digits :=
    Nat.le_antisymm (he.fewest d hd.rounds) (hd.fewest e he.rounds)
  have distance : |d.value - m * 2 ^ q| = |e.value - m * 2 ^ q| :=
    le_antisymm (hd.nearest e he.rounds digits) (he.nearest d hd.rounds digits.symm)
  apply Decimal.eq_of_value_eq hd.trimmed he.trimmed
  rcases hd.even e he.rounds digits distance with same | ⟨b, j, hb, even, step⟩
  · exact same
  rcases he.even d hd.rounds digits.symm distance.symm with same | ⟨c, k, hc, even', step'⟩
  · exact same.symm
  have places : j = k := by
    rw [abs_sub_comm, step'] at step
    exact zpow_right_injective₀ (by norm_num) (by norm_num) step.symm
  subst places
  rw [hb, hc, ← sub_mul, abs_mul, abs_of_pos (by positivity : (0 : ℚ) < 10 ^ j)] at step
  have one : |(b : ℚ) - c| = 1 := by
    have power : (10 : ℚ) ^ j ≠ 0 := by positivity
    exact mul_right_cancel₀ power (step.trans (one_mul _).symm)
  have beside : b = c + 1 ∨ c = b + 1 := by
    rcases (abs_eq zero_le_one).mp one with above | below
    · exact .inl (by exact_mod_cast eq_add_of_sub_eq' above)
    · refine .inr ?_
      have next : (c : ℚ) = b + 1 := by linarith
      exact_mod_cast next
  omega

end Binary64
end ScriptIR
