import AshlrHub.Js.Number

namespace AshlrHub.Js

/-! Decimal literals: the numbers of the JSON grammar, and the text
`Number.prototype.toString` gives a number. -/

def isDigit (unit : CodeUnit) : Bool :=
  0x30 ≤ unit.toNat && unit.toNat ≤ 0x39

def digitsValue (digits : JsString) : ℕ :=
  digits.foldl (fun value unit => 10 * value + (unit.toNat - 0x30)) 0

def decimal (n : ℕ) : JsString :=
  (Nat.toDigits 10 n).map fun c => UInt16.ofNat c.toNat

structure NumberText where
  negative : Bool
  whole : JsString
  fraction : JsString
  exponent : Option (Bool × JsString)
deriving DecidableEq

namespace NumberText

def exponentValue (text : NumberText) : ℤ :=
  match text.exponent with
  | none => 0
  | some (true, digits) => -digitsValue digits
  | some (false, digits) => digitsValue digits

def value (text : NumberText) : ℚ :=
  (if text.negative then -1 else 1) * digitsValue (text.whole ++ text.fraction) *
    10 ^ (text.exponentValue - text.fraction.length)

def renderFraction (text : NumberText) : JsString :=
  if text.fraction = [] then [] else js "." ++ text.fraction

def renderExponent (text : NumberText) : JsString :=
  match text.exponent with
  | none => []
  | some (true, digits) => js "e-" ++ digits
  | some (false, digits) => js "e+" ++ digits

def render (text : NumberText) : JsString :=
  (if text.negative then js "-" else []) ++
    (text.whole ++ (text.renderFraction ++ text.renderExponent))

/-- What the JSON grammar asks of the parts. -/
structure Valid (text : NumberText) : Prop where
  whole_ne_nil : text.whole ≠ []
  whole_digits : ∀ unit ∈ text.whole, isDigit unit = true
  no_leading_zero : text.whole.head? = some 0x30 → text.whole.length = 1
  fraction_digits : ∀ unit ∈ text.fraction, isDigit unit = true
  exponent_digits : ∀ sign digits, text.exponent = some (sign, digits) →
    digits ≠ [] ∧ ∀ unit ∈ digits, isDigit unit = true

end NumberText

/-! Reading a literal. -/

def readDigits (text : JsString) : JsString × JsString :=
  (text.takeWhile isDigit, text.dropWhile isDigit)

def readWhole (text : JsString) : Option (JsString × JsString) :=
  let (digits, rest) := readDigits text
  if digits = [] then none
  else if digits.head? = some 0x30 ∧ digits.length ≠ 1 then none
  else some (digits, rest)

def readFraction : JsString → Option (JsString × JsString)
  | 0x2E :: text =>
      let (digits, rest) := readDigits text
      if digits = [] then none else some (digits, rest)
  | text => some ([], text)

def readExponentDigits (negative : Bool) (text : JsString) :
    Option (Option (Bool × JsString) × JsString) :=
  let (digits, rest) := readDigits text
  if digits = [] then none else some (some (negative, digits), rest)

def readExponentSign : JsString → Option (Option (Bool × JsString) × JsString)
  | 0x2D :: text => readExponentDigits true text
  | 0x2B :: text => readExponentDigits false text
  | text => readExponentDigits false text

def readExponent : JsString → Option (Option (Bool × JsString) × JsString)
  | 0x65 :: text => readExponentSign text
  | 0x45 :: text => readExponentSign text
  | text => some (none, text)

def readSign : JsString → Bool × JsString
  | 0x2D :: text => (true, text)
  | text => (false, text)

def readNumber (text : JsString) : Option (NumberText × JsString) := do
  let (negative, text) := readSign text
  let (whole, text) ← readWhole text
  let (fraction, text) ← readFraction text
  let (exponent, text) ← readExponent text
  return (⟨negative, whole, fraction, exponent⟩, text)

def EndsNumber (rest : JsString) : Prop :=
  ∀ unit ∈ rest.head?, isDigit unit = false ∧ unit ≠ 0x2E ∧ unit ≠ 0x65 ∧ unit ≠ 0x45

/-! `Number::toString`: the fewest significant digits that read back. -/

/-- Decimals `m * 10 ^ e` of `k` significant digits on both sides of a positive
`x`, the closer one first. -/
def candidates (x : ℚ) (k : ℕ) : List (ℕ × ℤ) :=
  let e := Int.log 10 x + 1 - k
  let below := ⌊x / 10 ^ e⌋.toNat
  let normal (m : ℕ) : ℕ × ℤ := if m = 10 ^ k then (10 ^ (k - 1), e + 1) else (m, e)
  if roundHalfEven (x / 10 ^ e) = below then
    [normal below, normal (below + 1)]
  else
    [normal (below + 1), normal below]

/-- The decimal expansion of a positive double, whose denominator is a power of two. -/
def exactDecimal (x : ℚ) : ℕ × ℤ :=
  (x.num.natAbs * 5 ^ Nat.log 2 x.den, -Nat.log 2 x.den)

def signOf (x : ℚ) : ℚ :=
  if x < 0 then -1 else 1

/-- The shortest decimal that rounds to `x`.  Seventeen digits always suffice,
so the exact expansion is only what the search provably cannot miss. -/
def shortestDecimal (x : ℚ) : ℕ × ℤ :=
  let readsBack (decimal : ℕ × ℤ) : Bool :=
    nearestDouble (signOf x * decimal.1 * 10 ^ decimal.2) = x
  ((List.range 17).findSome? fun i =>
    (candidates |x| (i + 1)).find? readsBack).getD (exactDecimal |x|)

/-- Lay out digits whose decimal point stands after the first `n`. -/
def layout (negative : Bool) (digits : JsString) (n : ℤ) : NumberText :=
  if digits.length ≤ n ∧ n ≤ 21 then
    ⟨negative, digits ++ List.replicate (n - digits.length).toNat 0x30, [], none⟩
  else if 0 < n ∧ n ≤ 21 then
    ⟨negative, digits.take n.toNat, digits.drop n.toNat, none⟩
  else if -6 < n ∧ n ≤ 0 then
    ⟨negative, [0x30], List.replicate (-n).toNat 0x30 ++ digits, none⟩
  else
    ⟨negative, digits.take 1, digits.drop 1, some (n - 1 < 0, decimal (n - 1).natAbs)⟩

def integerText (n : ℤ) : NumberText :=
  ⟨n < 0, decimal n.natAbs, [], none⟩

def doubleText (d : Double) : NumberText :=
  match (JsNumber.finite d).safeInteger? with
  | some n => integerText n
  | none =>
      let (m, e) := shortestDecimal d.val
      layout (d.val < 0) (decimal m) (e + (decimal m).length)

def numberToString : JsNumber → JsString
  | .nan => js "NaN"
  | .infinity true => js "-Infinity"
  | .infinity false => js "Infinity"
  | .finite d => (doubleText d).render

/-! Digits. -/

theorem digitsValue_nil : digitsValue [] = 0 := rfl

theorem digitsValue_append_singleton (digits : JsString) (unit : CodeUnit) :
    digitsValue (digits ++ [unit]) = 10 * digitsValue digits + (unit.toNat - 0x30) := by
  rw [digitsValue, List.foldl_append]
  rfl

theorem digitsValue_append_zeros (digits : JsString) : (count : ℕ) →
    digitsValue (digits ++ List.replicate count 0x30) = digitsValue digits * 10 ^ count
  | 0 => by simp
  | count + 1 => by
      rw [List.replicate_succ', ← List.append_assoc, digitsValue_append_singleton,
        digitsValue_append_zeros digits count, pow_succ]
      have zero : (0x30 : CodeUnit).toNat - 0x30 = 0 := rfl
      rw [zero]
      ring

theorem digitsValue_zeros_append (count : ℕ) (digits : JsString) :
    digitsValue (List.replicate count 0x30 ++ digits) = digitsValue digits := by
  have zeros : digitsValue (List.replicate count 0x30) = 0 := by
    have := digitsValue_append_zeros [] count
    simpa [digitsValue_nil] using this
  rw [digitsValue, List.foldl_append, ← digitsValue, zeros]
  rfl

variable {d : ℕ}

theorem digitChar_unit (bound : d < 10) :
    UInt16.ofNat (Nat.digitChar d).toNat = UInt16.ofNat (0x30 + d) := by
  interval_cases d <;> rfl

theorem unitOfDigit_toNat (bound : d < 10) :
    (UInt16.ofNat (0x30 + d)).toNat = 0x30 + d := by
  rw [UInt16.toNat_ofNat', Nat.mod_eq_of_lt (by omega)]

variable {n : ℕ}

theorem decimal_of_lt (bound : n < 10) : decimal n = [UInt16.ofNat (0x30 + n)] := by
  rw [decimal, Nat.toDigits_of_lt_base bound, List.map_singleton, digitChar_unit bound]

theorem decimal_of_ge (bound : 10 ≤ n) :
    decimal n = decimal (n / 10) ++ [UInt16.ofNat (0x30 + n % 10)] := by
  have last := Nat.mod_lt n (by norm_num : 0 < 10)
  rw [decimal, Nat.toDigits_of_base_le (by norm_num) bound, List.map_append,
    List.map_singleton, digitChar_unit last, ← decimal]

@[simp] theorem digitsValue_decimal (n : ℕ) : digitsValue (decimal n) = n := by
  induction n using Nat.strong_induction_on with
  | _ n ih =>
      by_cases small : n < 10
      · rw [decimal_of_lt small]
        simp only [digitsValue, List.foldl_cons, List.foldl_nil, unitOfDigit_toNat small]
        omega
      · rw [decimal_of_ge (by omega), digitsValue_append_singleton,
          ih (n / 10) (by omega), unitOfDigit_toNat (Nat.mod_lt n (by norm_num))]
        omega

theorem isDigit_unitOfDigit (bound : d < 10) :
    isDigit (UInt16.ofNat (0x30 + d)) = true := by
  simp only [isDigit, unitOfDigit_toNat bound, Bool.and_eq_true, decide_eq_true_eq]
  omega

theorem isDigit_decimal (n : ℕ) : ∀ unit ∈ decimal n, isDigit unit = true := by
  induction n using Nat.strong_induction_on with
  | _ n ih =>
      intro unit member
      by_cases small : n < 10
      · rw [decimal_of_lt small, List.mem_singleton] at member
        rw [member, isDigit_unitOfDigit small]
      · rw [decimal_of_ge (by omega), List.mem_append, List.mem_singleton] at member
        rcases member with front | rfl
        · exact ih (n / 10) (by omega) unit front
        · exact isDigit_unitOfDigit (Nat.mod_lt n (by norm_num))

theorem decimal_ne_nil (n : ℕ) : decimal n ≠ [] := by
  simp [decimal, Nat.toDigits_ne_nil]

theorem decimal_head_ne_zero (positive : 0 < n) :
    (decimal n).head? ≠ some 0x30 := by
  induction n using Nat.strong_induction_on with
  | _ n ih =>
      by_cases small : n < 10
      · rw [decimal_of_lt small]
        intro head
        have same : UInt16.ofNat (0x30 + n) = 0x30 := by simpa using head
        have digit := unitOfDigit_toNat small
        rw [same] at digit
        have zero : (0x30 : CodeUnit).toNat = 0x30 := rfl
        omega
      · rw [decimal_of_ge (by omega), List.head?_append_of_ne_nil _ (decimal_ne_nil _)]
        exact ih (n / 10) (by omega) (by omega)

theorem decimal_no_leading_zero (head : (decimal n).head? = some 0x30) :
    (decimal n).length = 1 := by
  rcases Nat.eq_zero_or_pos n with rfl | positive
  · rfl
  · exact absurd head (decimal_head_ne_zero positive)

/-! Reading back a rendered literal. -/

variable {digits rest : JsString}

theorem readDigits_append (allDigits : ∀ unit ∈ digits, isDigit unit = true)
    (stops : ∀ unit ∈ rest.head?, isDigit unit = false) :
    readDigits (digits ++ rest) = (digits, rest) := by
  induction digits with
  | nil =>
      cases rest with
      | nil => rfl
      | cons unit rest =>
          have stop := stops unit (by simp)
          simp [readDigits, stop]
  | cons unit digits ih =>
      have digit := allDigits unit (by simp)
      have tail := ih fun other member => allDigits other (by simp [member])
      simp only [readDigits, Prod.mk.injEq] at tail
      simp [readDigits, digit, tail.1, tail.2]

theorem readWhole_append (nonempty : digits ≠ []) (allDigits : ∀ unit ∈ digits, isDigit unit = true)
    (noLeadingZero : digits.head? = some 0x30 → digits.length = 1)
    (stops : ∀ unit ∈ rest.head?, isDigit unit = false) :
    readWhole (digits ++ rest) = some (digits, rest) := by
  rw [readWhole, readDigits_append allDigits stops]
  dsimp only
  rw [if_neg nonempty, if_neg fun both => both.2 (noLeadingZero both.1)]

theorem readFraction_none (stops : ∀ unit ∈ rest.head?, unit ≠ 0x2E) :
    readFraction rest = some ([], rest) := by
  unfold readFraction
  split
  · next text => exact absurd rfl (stops 0x2E (by simp))
  · rfl

theorem readExponent_none (stops : ∀ unit ∈ rest.head?, unit ≠ 0x65 ∧ unit ≠ 0x45) :
    readExponent rest = some (none, rest) := by
  unfold readExponent
  split
  · exact absurd rfl (stops 0x65 (by simp)).1
  · exact absurd rfl (stops 0x45 (by simp)).2
  · rfl

theorem readExponentDigits_append (negative : Bool) (nonempty : digits ≠ [])
    (allDigits : ∀ unit ∈ digits, isDigit unit = true)
    (stops : ∀ unit ∈ rest.head?, isDigit unit = false) :
    readExponentDigits negative (digits ++ rest) = some (some (negative, digits), rest) := by
  rw [readExponentDigits, readDigits_append allDigits stops]
  dsimp only
  rw [if_neg nonempty]

theorem not_isDigit_of_follow (ends : EndsNumber rest) :
    ∀ unit ∈ rest.head?, isDigit unit = false :=
  fun unit member => (ends unit member).1

variable {text : NumberText}

theorem readExponent_render (valid : text.Valid) (ends : EndsNumber rest) :
    readExponent (text.renderExponent ++ rest) = some (text.exponent, rest) := by
  unfold NumberText.renderExponent
  cases shape : text.exponent with
  | none =>
      rw [List.nil_append]
      exact readExponent_none fun unit member => (ends unit member).2.2
  | some exponent =>
      obtain ⟨nonempty, allDigits⟩ := valid.exponent_digits exponent.1 exponent.2 shape
      have digits := readExponentDigits_append exponent.1 nonempty allDigits
        (not_isDigit_of_follow ends)
      rcases exponent with ⟨_ | _, digits'⟩ <;> exact digits

theorem renderExponent_head (text : NumberText) (ends : EndsNumber rest) :
    ∀ unit ∈ (text.renderExponent ++ rest).head?, isDigit unit = false ∧ unit ≠ 0x2E := by
  intro unit member
  unfold NumberText.renderExponent at member
  split at member
  · rw [List.nil_append] at member
    exact ⟨(ends unit member).1, (ends unit member).2.1⟩
  all_goals
    have first : unit = 0x65 := by
      simpa [js, ofScalars, charUnits, eq_comm] using member
    rw [first]
    exact ⟨rfl, by decide⟩

theorem readFraction_render (valid : text.Valid)
    (stops : ∀ unit ∈ rest.head?, isDigit unit = false ∧ unit ≠ 0x2E) :
    readFraction (text.renderFraction ++ rest) = some (text.fraction, rest) := by
  unfold NumberText.renderFraction
  by_cases empty : text.fraction = []
  · rw [if_pos empty, List.nil_append, empty]
    exact readFraction_none fun unit member => (stops unit member).2
  · rw [if_neg empty]
    have digits := readDigits_append valid.fraction_digits fun unit member => (stops unit member).1
    change readFraction (0x2E :: (text.fraction ++ rest)) = _
    rw [readFraction, digits]
    dsimp only
    rw [if_neg empty]

theorem readSign_negative (rest : JsString) : readSign (js "-" ++ rest) = (true, rest) := rfl

theorem readSign_digit {unit : CodeUnit} (digit : isDigit unit = true) (rest : JsString) :
    readSign (unit :: rest) = (false, unit :: rest) := by
  unfold readSign
  split
  · next same =>
      obtain ⟨rfl, -⟩ := List.cons.inj same
      exact absurd digit (by decide)
  · rfl

theorem readNumber_render (valid : text.Valid) (ends : EndsNumber rest) :
    readNumber (text.render ++ rest) = some (text, rest) := by
  have exponent := readExponent_render valid ends
  have exponentHead := renderExponent_head text ends
  have fraction := readFraction_render valid exponentHead
  have fractionHead : ∀ unit ∈
      (text.renderFraction ++ (text.renderExponent ++ rest)).head?, isDigit unit = false := by
    intro unit member
    by_cases empty : text.fraction = []
    · rw [NumberText.renderFraction, if_pos empty, List.nil_append] at member
      exact (exponentHead unit member).1
    · rw [NumberText.renderFraction, if_neg empty] at member
      have point : unit = 0x2E := by
        simpa [js, ofScalars, charUnits, eq_comm] using member
      rw [point]
      rfl
  have whole := readWhole_append valid.whole_ne_nil valid.whole_digits
    valid.no_leading_zero fractionHead
  have sign : readSign (text.render ++ rest) =
      (text.negative, text.whole ++ (text.renderFraction ++ (text.renderExponent ++ rest))) := by
    rw [NumberText.render]
    cases negative : text.negative with
    | true => simp only [if_true, List.append_assoc, readSign_negative]
    | false =>
        cases digits : text.whole with
        | nil => exact absurd digits valid.whole_ne_nil
        | cons unit digits' =>
            have digit := valid.whole_digits unit (by simp [digits])
            simp only [Bool.false_eq_true, if_false, List.nil_append, List.cons_append,
              List.append_assoc, readSign_digit digit]
  simp only [readNumber, sign, whole, fraction, exponent, Option.bind_eq_bind,
    Option.bind_some, Option.pure_def]

/-! The laid-out digits denote the decimal they came from. -/

theorem integerText_valid (n : ℤ) : (integerText n).Valid where
  whole_ne_nil := decimal_ne_nil _
  whole_digits := isDigit_decimal _
  no_leading_zero := decimal_no_leading_zero
  fraction_digits := by simp [integerText]
  exponent_digits := by simp [integerText]

theorem integerText_value (n : ℤ) : (integerText n).value = n := by
  simp only [NumberText.value, NumberText.exponentValue, integerText, List.append_nil,
    digitsValue_decimal, List.length_nil]
  by_cases negative : n < 0
  · have magnitude : ((n.natAbs : ℕ) : ℚ) = -n := by
      rw [Nat.cast_natAbs, abs_of_neg negative]
      push_cast
      ring
    simp [negative, magnitude]
  · have magnitude : ((n.natAbs : ℕ) : ℚ) = n := by
      rw [Nat.cast_natAbs, abs_of_nonneg (by omega)]
    simp [negative, magnitude]

theorem isDigit_zero : isDigit 0x30 = true := rfl

theorem layout_valid (negative : Bool) (n : ℤ) (nonempty : digits ≠ [])
    (allDigits : ∀ unit ∈ digits, isDigit unit = true) (leads : digits.head? ≠ some 0x30) :
    (layout negative digits n).Valid := by
  have takeHead : ∀ k : ℕ, (digits.take (k + 1)).head? ≠ some 0x30 := by
    intro k
    rw [List.head?_take, if_neg (by omega)]
    exact leads
  have takeNe : ∀ k : ℕ, digits.take (k + 1) ≠ [] := by
    intro k
    cases digits with
    | nil => exact absurd rfl nonempty
    | cons unit digits => simp
  unfold layout
  split_ifs with integral pointed small
  · refine ⟨by simp [nonempty], ?_, ?_, by simp, by simp⟩
    · intro unit member
      rcases List.mem_append.mp member with front | zeros
      · exact allDigits unit front
      · rw [List.eq_of_mem_replicate zeros, isDigit_zero]
    · intro head
      rw [List.head?_append_of_ne_nil _ nonempty] at head
      exact absurd head leads
  · obtain ⟨k, same⟩ : ∃ k : ℕ, n.toNat = k + 1 := ⟨n.toNat - 1, by omega⟩
    rw [same]
    exact ⟨takeNe k, fun unit member => allDigits unit (List.mem_of_mem_take member),
      fun head => absurd head (takeHead k),
      fun unit member => allDigits unit (List.mem_of_mem_drop member), by simp⟩
  · refine ⟨by simp, by simp [isDigit_zero], by simp, ?_, by simp⟩
    intro unit member
    rcases List.mem_append.mp member with zeros | back
    · rw [List.eq_of_mem_replicate zeros, isDigit_zero]
    · exact allDigits unit back
  · refine ⟨takeNe 0, fun unit member => allDigits unit (List.mem_of_mem_take member),
      fun head => absurd head (takeHead 0),
      fun unit member => allDigits unit (List.mem_of_mem_drop member), ?_⟩
    intro sign exponent same
    simp only [Option.some.injEq, Prod.mk.injEq] at same
    obtain ⟨-, rfl⟩ := same
    exact ⟨decimal_ne_nil _, isDigit_decimal _⟩

theorem layout_exponentValue (n : ℤ) (negative : Bool) (whole fraction : JsString) :
    NumberText.exponentValue ⟨negative, whole, fraction, some (n < 0, decimal n.natAbs)⟩ = n := by
  by_cases below : n < 0
  · simp only [NumberText.exponentValue, below, decide_true, digitsValue_decimal]
    omega
  · simp only [NumberText.exponentValue, below, decide_false, digitsValue_decimal]
    omega

theorem layout_value (negative : Bool) (n : ℤ) (nonempty : digits ≠ []) :
    (layout negative digits n).value =
      (if negative then -1 else 1) * digitsValue digits * 10 ^ (n - digits.length) := by
  have long : 0 < digits.length := List.length_pos_of_ne_nil nonempty
  by_cases integral : digits.length ≤ n ∧ n ≤ 21
  · rw [layout, if_pos integral, NumberText.value]
    dsimp only [NumberText.exponentValue]
    rw [List.append_nil, digitsValue_append_zeros]
    push_cast
    rw [← zpow_natCast, Int.toNat_of_nonneg (by omega), List.length_nil]
    simp
  by_cases pointed : 0 < n ∧ n ≤ 21
  · rw [layout, if_neg integral, if_pos pointed, NumberText.value]
    dsimp only [NumberText.exponentValue]
    rw [List.take_append_drop, List.length_drop]
    congr 2
    omega
  by_cases small : -6 < n ∧ n ≤ 0
  · rw [layout, if_neg integral, if_neg pointed, if_pos small, NumberText.value]
    dsimp only [NumberText.exponentValue]
    rw [List.singleton_append, ← List.cons_append, ← List.replicate_succ,
      digitsValue_zeros_append, List.length_append, List.length_replicate]
    congr 2
    push_cast
    omega
  · rw [layout, if_neg integral, if_neg pointed, if_neg small, NumberText.value,
      layout_exponentValue]
    dsimp only
    rw [List.take_append_drop, List.length_drop]
    congr 2
    omega

/-! The exact expansion of a double. -/

variable {x : ℚ}

theorem isDouble_den (double : IsDouble x) : x.den = 2 ^ Nat.log 2 x.den := by
  obtain ⟨m, e, -, -, rfl⟩ := double
  have divides : ((m : ℚ) * 2 ^ e).den ∣ 2 ^ e.natAbs := by
    rcases Int.natAbs_eq e with nonneg | negative
    · have integral : (m : ℚ) * 2 ^ e = ((m * 2 ^ e.natAbs : ℤ) : ℚ) := by
        nth_rewrite 1 [nonneg]
        rw [zpow_natCast, Int.cast_mul, Int.cast_pow, Int.cast_ofNat]
      rw [integral, Rat.den_intCast]
      exact one_dvd _
    · have fraction : (m : ℚ) * 2 ^ e = m / ((2 ^ e.natAbs : ℤ) : ℚ) := by
        nth_rewrite 1 [negative]
        rw [zpow_neg, zpow_natCast, div_eq_mul_inv, Int.cast_pow, Int.cast_ofNat]
      rw [fraction]
      have := Rat.den_dvd m (2 ^ e.natAbs)
      exact_mod_cast this
  obtain ⟨k, -, power⟩ := (Nat.dvd_prime_pow Nat.prime_two).mp divides
  rw [power, Nat.log_pow (by norm_num)]

theorem exactDecimal_value (double : IsDouble x) (positive : 0 < x) :
    ((exactDecimal x).1 : ℚ) * 10 ^ (exactDecimal x).2 = x := by
  have power := isDouble_den double
  set k := Nat.log 2 x.den with log
  have magnitude : ((x.num.natAbs : ℕ) : ℚ) = x.num := by
    rw [Nat.cast_natAbs, abs_of_nonneg (Rat.num_nonneg.mpr positive.le)]
  rw [exactDecimal, ← log]
  push_cast
  rw [magnitude, zpow_neg, zpow_natCast]
  have split : (10 : ℚ) ^ k = 2 ^ k * 5 ^ k := by
    rw [← mul_pow]
    norm_num
  have ratio : x = x.num / ((2 ^ k : ℕ) : ℚ) := by
    rw [← power]
    exact (Rat.num_div_den x).symm
  rw [split]
  nth_rewrite 2 [ratio]
  push_cast
  field_simp

/-! Numbers survive printing. -/

theorem IsDouble.abs (double : IsDouble x) : IsDouble |x| := by
  obtain ⟨m, e, bound, range, rfl⟩ := double
  refine ⟨|m|, e, by rwa [abs_abs], range, ?_⟩
  rw [abs_mul, abs_of_pos (by positivity : (0 : ℚ) < 2 ^ e)]
  push_cast
  rfl

theorem signOf_mul_abs (x : ℚ) : signOf x * |x| = x := by
  unfold signOf
  split_ifs with negative
  · rw [abs_of_neg negative]
    ring
  · rw [abs_of_nonneg (not_lt.mp negative), one_mul]

theorem shortestDecimal_readsBack (double : IsDouble x) (nonzero : x ≠ 0) :
    nearestDouble (signOf x * (shortestDecimal x).1 * 10 ^ (shortestDecimal x).2) = x := by
  unfold shortestDecimal
  dsimp only
  cases found : (List.range 17).findSome? fun i =>
      (candidates |x| (i + 1)).find? fun decimal : ℕ × ℤ =>
        nearestDouble (signOf x * decimal.1 * 10 ^ decimal.2) = x with
  | some decimal =>
      obtain ⟨i, -, first⟩ := List.exists_of_findSome?_eq_some found
      simpa using List.find?_some first
  | none =>
      dsimp only [Option.getD_none]
      rw [mul_assoc, exactDecimal_value double.abs (abs_pos.mpr nonzero), signOf_mul_abs,
        nearestDouble_of_isDouble double]

theorem shortestDecimal_pos (double : IsDouble x) (nonzero : x ≠ 0) :
    0 < (shortestDecimal x).1 := by
  have reads := shortestDecimal_readsBack double nonzero
  by_contra zero
  have none : (shortestDecimal x).1 = 0 := by omega
  rw [none] at reads
  simp [nearestDouble, roundHalfEven] at reads
  exact nonzero reads.symm

theorem doubleText_valid (d : Double) : (doubleText d).Valid := by
  unfold doubleText
  cases integral : (JsNumber.finite d).safeInteger? with
  | some n => exact integerText_valid n
  | none =>
      have nonzero : d.val ≠ 0 := by
        intro zero
        simp [JsNumber.safeInteger?, zero, JsNumber.maxSafeInteger] at integral
      dsimp only
      exact layout_valid _ _ (decimal_ne_nil _) (isDigit_decimal _)
        (decimal_head_ne_zero (shortestDecimal_pos d.isDouble nonzero))

theorem signOf_eq (x : ℚ) : signOf x = if decide (x < 0) = true then -1 else 1 := by
  simp [signOf]

theorem ofRat_doubleText (d : Double) :
    JsNumber.ofRat (doubleText d).value = .finite d := by
  unfold doubleText
  cases integral : (JsNumber.finite d).safeInteger? with
  | some n =>
      dsimp only
      rw [integerText_value, (JsNumber.safeInteger?_eq_some integral).1]
  | none =>
      have nonzero : d.val ≠ 0 := by
        intro zero
        simp [JsNumber.safeInteger?, zero, JsNumber.maxSafeInteger] at integral
      dsimp only
      rw [layout_value _ _ (decimal_ne_nil _), digitsValue_decimal, ← signOf_eq,
        add_sub_cancel_right]
      have reads := shortestDecimal_readsBack d.isDouble nonzero
      unfold JsNumber.ofRat
      simp only [reads]
      rw [dif_pos d.finite]

theorem readNumber_numberToString (d : Double) (ends : EndsNumber rest) :
    ∃ text, readNumber (numberToString (.finite d) ++ rest) = some (text, rest) ∧
      JsNumber.ofRat text.value = .finite d :=
  ⟨doubleText d, readNumber_render (doubleText_valid d) ends, ofRat_doubleText d⟩

end AshlrHub.Js
