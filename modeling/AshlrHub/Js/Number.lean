import AshlrHub.Js.Text
import Mathlib.Data.Int.Log
import Mathlib.Tactic

namespace AshlrHub.Js

/-! JavaScript numbers: binary64 values as exact rationals, and the rounding
that reading a decimal literal performs. -/

def roundHalfEven (q : ℚ) : ℤ :=
  let below := ⌊q⌋
  if q - below < 1 / 2 then below
  else if 1 / 2 < q - below then below + 1
  else if below % 2 = 0 then below else below + 1

/-- Exponent of the last binary place a double near `q` can hold. -/
def lastPlace (q : ℚ) : ℤ :=
  max (Int.log 2 |q| - 52) (-1074)

/-- The double nearest to `q`, with the exponent range unbounded above. -/
def nearestDouble (q : ℚ) : ℚ :=
  roundHalfEven (q / 2 ^ lastPlace q) * 2 ^ lastPlace q

def IsDouble (q : ℚ) : Prop :=
  ∃ m e : ℤ, |m| ≤ 2 ^ 53 ∧ -1074 ≤ e ∧ q = m * 2 ^ e

@[simp] theorem roundHalfEven_intCast (n : ℤ) : roundHalfEven (n : ℚ) = n := by
  simp [roundHalfEven]

theorem roundHalfEven_floor (q : ℚ) :
    roundHalfEven q = ⌊q⌋ ∨ roundHalfEven q = ⌊q⌋ + 1 := by
  unfold roundHalfEven
  dsimp only
  split_ifs <;> simp

variable {q : ℚ}

theorem abs_roundHalfEven_le {bound : ℤ} (small : |q| < bound) :
    |roundHalfEven q| ≤ bound := by
  obtain ⟨low, high⟩ := abs_lt.mp small
  have floorLow : -bound ≤ ⌊q⌋ := Int.le_floor.mpr (by push_cast; exact low.le)
  have floorHigh : ⌊q⌋ < bound := Int.floor_lt.mpr high
  rw [abs_le]
  rcases roundHalfEven_floor q with rounded | rounded <;> rw [rounded] <;> omega

theorem lt_lastPlace (q : ℚ) : |q| < 2 ^ 53 * 2 ^ lastPlace q := by
  have twoNe : (2 : ℚ) ≠ 0 := two_ne_zero
  have bound := Int.lt_zpow_succ_log_self one_lt_two |q|
  push_cast at bound
  have place : Int.log 2 |q| + 1 ≤ 53 + lastPlace q := by
    unfold lastPlace
    omega
  calc |q| < 2 ^ (Int.log 2 |q| + 1) := bound
    _ ≤ 2 ^ (53 + lastPlace q) := zpow_le_zpow_right₀ one_le_two place
    _ = 2 ^ 53 * 2 ^ lastPlace q := by rw [zpow_add₀ twoNe]; norm_cast

theorem isDouble_nearestDouble (q : ℚ) : IsDouble (nearestDouble q) := by
  refine ⟨roundHalfEven (q / 2 ^ lastPlace q), lastPlace q, ?_, le_max_right _ _, rfl⟩
  apply abs_roundHalfEven_le
  have scale : (0 : ℚ) < 2 ^ lastPlace q := by positivity
  rw [abs_div, abs_of_pos scale, div_lt_iff₀ scale]
  push_cast
  exact lt_lastPlace q

theorem lastPlace_le {m e : ℤ} (small : |m| < 2 ^ 53) (nonzero : m ≠ 0) (range : -1074 ≤ e) :
    lastPlace ((m : ℚ) * 2 ^ e) ≤ e := by
  have twoNe : (2 : ℚ) ≠ 0 := two_ne_zero
  have positive : (0 : ℚ) < |(m : ℚ) * 2 ^ e| := by
    have : (m : ℚ) ≠ 0 := by exact_mod_cast nonzero
    positivity
  have scale : (0 : ℚ) < 2 ^ e := by positivity
  have below : |(m : ℚ) * 2 ^ e| < 2 ^ (53 + e) := by
    rw [abs_mul, abs_of_pos scale, zpow_add₀ twoNe]
    apply mul_lt_mul_of_pos_right _ scale
    exact_mod_cast small
  have logBound : Int.log 2 |(m : ℚ) * 2 ^ e| < 53 + e :=
    (Int.lt_zpow_iff_log_lt one_lt_two positive).mp (by exact_mod_cast below)
  unfold lastPlace
  omega

variable {n : ℤ}

theorem nearestDouble_of_dvd (integral : q / 2 ^ lastPlace q = n) :
    nearestDouble q = q := by
  have scale : (2 : ℚ) ^ lastPlace q ≠ 0 := by positivity
  rw [nearestDouble, integral, roundHalfEven_intCast, ← integral, div_mul_cancel₀ q scale]

theorem nearestDouble_of_isDouble (double : IsDouble q) :
    nearestDouble q = q := by
  obtain ⟨m, e, bound, range, rfl⟩ := double
  have twoNe : (2 : ℚ) ≠ 0 := two_ne_zero
  rcases eq_or_ne m 0 with rfl | nonzero
  · simp [nearestDouble, roundHalfEven]
  rcases lt_or_eq_of_le bound with small | full
  · have place := lastPlace_le small nonzero range
    apply nearestDouble_of_dvd (n := m * 2 ^ (e - lastPlace ((m : ℚ) * 2 ^ e)).toNat)
    push_cast
    rw [← zpow_natCast, Int.toNat_of_nonneg (by omega), mul_div_assoc, ← zpow_sub₀ twoNe]
  · -- the mantissa 2 ^ 53 is even, so the next place up still holds the value
    have magnitude : |(m : ℚ) * 2 ^ e| = 2 ^ (53 + e) := by
      rw [abs_mul, abs_of_pos (by positivity : (0 : ℚ) < 2 ^ e), zpow_add₀ twoNe]
      congr 1
      exact_mod_cast full
    have place : lastPlace ((m : ℚ) * 2 ^ e) = e + 1 := by
      have log : Int.log 2 |(m : ℚ) * 2 ^ e| = 53 + e := by
        have log := Int.log_zpow (R := ℚ) (b := 2) one_lt_two (53 + e)
        rw [magnitude]
        push_cast at log
        exact log
      rw [lastPlace, log]
      omega
    have even : m = 2 * (m / 2) := by
      rcases abs_choice m with sign | sign <;> omega
    apply nearestDouble_of_dvd (n := m / 2)
    rw [place, zpow_add₀ twoNe, zpow_one, ← div_div, mul_div_assoc,
      div_self (by positivity), mul_one]
    field_simp
    exact_mod_cast even

theorem isDouble_intCast (bound : |n| ≤ 2 ^ 53) : IsDouble (n : ℚ) :=
  ⟨n, 0, bound, by norm_num, by simp⟩

/-! Rounding keeps the order. -/

variable {p : ℚ}

theorem roundHalfEven_mono (le : p ≤ q) : roundHalfEven p ≤ roundHalfEven q := by
  have floors : ⌊p⌋ ≤ ⌊q⌋ := Int.floor_mono le
  rcases lt_or_eq_of_le floors with apart | same
  · rcases roundHalfEven_floor p with low | low <;>
      rcases roundHalfEven_floor q with high | high <;> omega
  · by_cases small : p - ⌊p⌋ < 1 / 2
    · have low : roundHalfEven p = ⌊p⌋ := if_pos small
      rcases roundHalfEven_floor q with high | high <;> omega
    · by_cases large : 1 / 2 < q - ⌊q⌋
      · have high : roundHalfEven q = ⌊q⌋ + 1 := (if_neg large.not_gt).trans (if_pos large)
        rcases roundHalfEven_floor p with low | low <;> omega
      · have alike : p = q := by
          rw [← same] at large
          linarith
        rw [alike]

theorem nearestDouble_nonneg (nonneg : 0 ≤ q) : 0 ≤ nearestDouble q := by
  have rounded : roundHalfEven 0 ≤ roundHalfEven (q / 2 ^ lastPlace q) :=
    roundHalfEven_mono (by positivity)
  have zero : roundHalfEven 0 = 0 := by
    have := roundHalfEven_intCast 0
    simpa using this
  rw [zero] at rounded
  rw [nearestDouble]
  have : (0 : ℚ) ≤ roundHalfEven (q / 2 ^ lastPlace q) := by exact_mod_cast rounded
  positivity

theorem lastPlace_neg (q : ℚ) : lastPlace (-q) = lastPlace q := by
  rw [lastPlace, lastPlace, abs_neg]

theorem roundHalfEven_neg (q : ℚ) : roundHalfEven (-q) = -roundHalfEven q := by
  rcases eq_or_lt_of_le (Int.floor_le q) with integral | fractional
  · rw [← integral, ← Int.cast_neg, roundHalfEven_intCast, roundHalfEven_intCast]
  · have below := Int.lt_floor_add_one q
    have floor : ⌊-q⌋ = -⌊q⌋ - 1 := by
      rw [Int.floor_eq_iff]
      push_cast
      constructor <;> linarith
    have rest : -q - ((-⌊q⌋ - 1 : ℤ) : ℚ) = 1 - (q - ⌊q⌋) := by
      push_cast
      ring
    unfold roundHalfEven
    dsimp only
    rw [floor, rest]
    rcases lt_trichotomy (q - ⌊q⌋) (1 / 2) with small | half | large
    · rw [if_neg (by linarith), if_pos (by linarith), if_pos small]
      ring
    · rw [half, if_neg (by norm_num), if_neg (by norm_num), if_neg (lt_irrefl _),
        if_neg (lt_irrefl _)]
      split_ifs <;> omega
    · rw [if_pos (by linarith), if_neg large.not_gt, if_pos large]
      ring

theorem nearestDouble_neg (q : ℚ) : nearestDouble (-q) = -nearestDouble q := by
  rw [nearestDouble, nearestDouble, lastPlace_neg, neg_div, roundHalfEven_neg]
  push_cast
  ring

theorem lastPlace_mono (positive : 0 < p) (le : p ≤ q) : lastPlace p ≤ lastPlace q := by
  have logs : Int.log 2 |p| ≤ Int.log 2 |q| := by
    rw [abs_of_pos positive, abs_of_pos (positive.trans_le le)]
    exact Int.log_mono_right positive le
  unfold lastPlace
  omega

theorem nearestDouble_mono_of_pos (positive : 0 < p) (le : p ≤ q) :
    nearestDouble p ≤ nearestDouble q := by
  have scaleP : (0 : ℚ) < 2 ^ lastPlace p := by positivity
  have scaleQ : (0 : ℚ) < 2 ^ lastPlace q := by positivity
  rcases lt_or_eq_of_le (lastPlace_mono positive le) with apart | same
  · -- a power of two lies between: the first number of the higher binade
    have place : lastPlace q = Int.log 2 q - 52 := by
      have := apart
      have low : -1074 ≤ lastPlace p := le_max_right _ _
      unfold lastPlace at this low ⊢
      rw [abs_of_pos (positive.trans_le le)] at this ⊢
      omega
    have high : (2 : ℚ) ^ (52 : ℕ) ≤ q / 2 ^ lastPlace q := by
      rw [le_div_iff₀ scaleQ, ← zpow_natCast, ← zpow_add₀ two_ne_zero, place]
      have := Int.zpow_log_le_self (R := ℚ) (b := 2) one_lt_two (positive.trans_le le)
      push_cast at this ⊢
      rwa [add_sub_cancel]
    have roundedHigh : (2 : ℤ) ^ 52 ≤ roundHalfEven (q / 2 ^ lastPlace q) := by
      have := roundHalfEven_mono high
      have whole : roundHalfEven ((2 : ℚ) ^ 52) = 2 ^ 52 := by
        have := roundHalfEven_intCast ((2 : ℤ) ^ (52 : ℕ))
        rwa [Int.cast_pow, Int.cast_ofNat] at this
      rwa [whole] at this
    have roundedLow : roundHalfEven (p / 2 ^ lastPlace p) ≤ 2 ^ 53 := by
      refine (le_abs_self _).trans (abs_roundHalfEven_le ?_)
      rw [abs_div, abs_of_pos scaleP, div_lt_iff₀ scaleP]
      push_cast
      exact lt_lastPlace p
    calc nearestDouble p ≤ 2 ^ 53 * 2 ^ lastPlace p := by
          rw [nearestDouble]
          gcongr
          exact_mod_cast roundedLow
      _ = 2 ^ 52 * 2 ^ (lastPlace p + 1) := by rw [zpow_add_one₀ two_ne_zero]; ring
      _ ≤ 2 ^ 52 * 2 ^ lastPlace q := by
          gcongr
          · norm_num
          · omega
      _ ≤ nearestDouble q := by
          rw [nearestDouble]
          gcongr
          exact_mod_cast roundedHigh
  · rw [nearestDouble, nearestDouble, same]
    have rounded : roundHalfEven (p / 2 ^ lastPlace q) ≤ roundHalfEven (q / 2 ^ lastPlace q) :=
      roundHalfEven_mono (by gcongr)
    gcongr

theorem nearestDouble_mono (le : p ≤ q) : nearestDouble p ≤ nearestDouble q := by
  rcases lt_or_ge 0 p with positive | nonpos
  · exact nearestDouble_mono_of_pos positive le
  · rcases lt_or_ge q 0 with negative | nonneg
    · have reversed := nearestDouble_mono_of_pos (neg_pos.mpr negative) (neg_le_neg le)
      rw [nearestDouble_neg, nearestDouble_neg] at reversed
      linarith
    · have low := nearestDouble_nonneg (neg_nonneg.mpr nonpos)
      rw [nearestDouble_neg] at low
      linarith [nearestDouble_nonneg nonneg]

/-! Rounding moves a number by little. -/

structure Double where
  val : ℚ
  isDouble : IsDouble val
  finite : |val| < 2 ^ 1024

theorem Double.ext {a b : Double} (same : a.val = b.val) : a = b := by
  cases a
  cases b
  cases same
  rfl

instance : DecidableEq Double := fun a b =>
  decidable_of_iff (a.val = b.val) ⟨Double.ext, fun same => same ▸ rfl⟩

/-- A JavaScript number.  The two zeros, which nothing below tells apart, are one. -/
inductive JsNumber where
  | nan
  | infinity (negative : Bool)
  | finite (d : Double)

namespace JsNumber

def ofRat (q : ℚ) : JsNumber :=
  if small : |nearestDouble q| < 2 ^ 1024 then
    .finite ⟨nearestDouble q, isDouble_nearestDouble q, small⟩
  else
    .infinity (q < 0)

def maxSafeInteger : ℤ := 9007199254740991

/-- `Number.isSafeInteger`, with the integer it finds. -/
def safeInteger? : JsNumber → Option ℤ
  | .finite d => if d.val.den = 1 ∧ |d.val.num| ≤ maxSafeInteger then some d.val.num else none
  | _ => none

theorem ofRat_intCast (bound : |n| ≤ maxSafeInteger) :
    ∃ d : Double, ofRat n = .finite d ∧ d.val = n := by
  unfold maxSafeInteger at bound
  have double : nearestDouble (n : ℚ) = n :=
    nearestDouble_of_isDouble (isDouble_intCast (by omega))
  have magnitude : |(n : ℚ)| ≤ 9007199254740991 := by exact_mod_cast bound
  have small : |nearestDouble (n : ℚ)| < 2 ^ 1024 := by
    rw [double]
    calc |(n : ℚ)| < 2 ^ 53 := lt_of_le_of_lt magnitude (by norm_num)
      _ ≤ 2 ^ 1024 := pow_le_pow_right₀ one_le_two (by norm_num)
  refine ⟨⟨nearestDouble n, isDouble_nearestDouble n, small⟩, ?_, double⟩
  rw [ofRat, dif_pos small]

@[simp] theorem safeInteger?_ofRat (bound : |n| ≤ maxSafeInteger) :
    safeInteger? (ofRat n) = some n := by
  obtain ⟨d, value, same⟩ := ofRat_intCast bound
  rw [value, safeInteger?, same, Rat.den_intCast, Rat.num_intCast, if_pos ⟨rfl, bound⟩]

theorem safeInteger?_eq_some {number : JsNumber} (found : number.safeInteger? = some n) :
    number = ofRat n ∧ |n| ≤ maxSafeInteger := by
  cases number with
  | nan | infinity negative => simp [safeInteger?] at found
  | finite d =>
      simp only [safeInteger?, Option.ite_none_right_eq_some, Option.some.injEq] at found
      obtain ⟨⟨integral, bound⟩, rfl⟩ := found
      have value : d.val = (d.val.num : ℚ) := (Rat.den_eq_one_iff d.val).mp integral |>.symm
      obtain ⟨e, rounded, same⟩ := ofRat_intCast bound
      refine ⟨?_, bound⟩
      rw [rounded]
      congr 1
      exact Double.ext (by rw [same, ← value])

theorem eq_of_safeInteger?_ofRat {m : ℤ} (read : safeInteger? (ofRat n) = some m) : n = m := by
  obtain ⟨same, bound⟩ := safeInteger?_eq_some read
  by_contra different
  have far : ¬ |n| ≤ maxSafeInteger := by
    intro near
    rw [safeInteger?_ofRat near] at read
    exact different (Option.some.inj read)
  obtain ⟨d, rounded, value⟩ := ofRat_intCast bound
  rw [rounded, ofRat] at same
  split_ifs at same with small
  have near : nearestDouble (n : ℚ) = m := by
    rw [← value, ← JsNumber.finite.inj same]
  unfold maxSafeInteger at bound far
  have limit : nearestDouble ((2 ^ 53 : ℤ) : ℚ) = (2 ^ 53 : ℤ) :=
    nearestDouble_of_isDouble (isDouble_intCast (by norm_num))
  rcases abs_cases n with ⟨size, _⟩ | ⟨size, _⟩
  · have high : ((2 ^ 53 : ℤ) : ℚ) ≤ n := by exact_mod_cast (by omega : (2 ^ 53 : ℤ) ≤ n)
    have above := nearestDouble_mono high
    rw [limit, near] at above
    have : (2 ^ 53 : ℤ) ≤ m := by exact_mod_cast above
    have := (le_abs_self m).trans bound
    omega
  · have low : (n : ℚ) ≤ -((2 ^ 53 : ℤ) : ℚ) := by
      exact_mod_cast (by omega : n ≤ -(2 ^ 53 : ℤ))
    have below := nearestDouble_mono low
    rw [nearestDouble_neg, limit, near] at below
    have : m ≤ -(2 ^ 53 : ℤ) := by exact_mod_cast below
    have := (neg_le_abs m).trans bound
    omega

end JsNumber

end AshlrHub.Js
