import AshlrHub.Js.Decimal
import AshlrHub.Js.Line
import AshlrHub.Js.Utf8

namespace AshlrHub.Js

/-! Plain texts: their bytes are told from what they decode to, and digits without a leading
zero are the decimal of their value. -/

def IsAscii (text : JsString) : Prop :=
  ∀ unit ∈ text, unit.toNat < 0x80

instance : DecidablePred IsAscii := fun text => List.decidableBAll _ text

theorem IsAscii.append {front back : JsString} (first : IsAscii front) (second : IsAscii back) :
    IsAscii (front ++ back) := by
  intro unit member
  rcases List.mem_append.mp member with inFront | inBack
  · exact first unit inFront
  · exact second unit inBack

theorem IsAscii.wellFormed {text : JsString} (ascii : IsAscii text) : wellFormed text = true := by
  apply wellFormed_of_scalar
  intro unit member
  have small := ascii unit member
  exact CodeUnit.isSurrogate_eq_false.mpr (by omega)

theorem isAscii_of_digits {digits : JsString} (numeric : ∀ unit ∈ digits, isDigit unit = true) :
    IsAscii digits := by
  intro unit member
  have digit := numeric unit member
  simp only [isDigit, Bool.and_eq_true, decide_eq_true_eq] at digit
  omega

theorem utf8Decode_eq_ascii {bytes : Bytes} {text : JsString} (ascii : IsAscii text) :
    utf8Decode bytes = text ↔ bytes = utf8Encode text := by
  constructor
  · intro decoded
    have kept : replacementChar ∉ utf8DecodeScalars bytes := by
      intro replaced
      have large : (0xFFFD : CodeUnit) ∈ utf8Decode bytes :=
        List.mem_flatMap.mpr ⟨replacementChar, replaced, by decide⟩
      rw [decoded] at large
      exact absurd (ascii _ large) (by decide)
    rw [← decoded, utf8Encode_utf8Decode kept]
  · intro same
    rw [same, utf8Decode_utf8Encode ascii.wellFormed]

def isCanonicalDigits (digits : JsString) : Bool :=
  digits = [0x30] || (digits ≠ [] && digits.head? ≠ some 0x30 && digits.all isDigit)

theorem digitsValue_pos : {digits : JsString} → digits ≠ [] → digits.head? ≠ some 0x30 →
    (∀ unit ∈ digits, isDigit unit = true) → 0 < digitsValue digits := by
  intro digits
  induction digits using List.reverseRecOn with
  | nil =>
      intro nonempty _ _
      exact absurd rfl nonempty
  | append_singleton front last ih =>
      intro _ leading numeric
      have digit := numeric last (by simp)
      simp only [isDigit, Bool.and_eq_true, decide_eq_true_eq] at digit
      rw [digitsValue_append_singleton]
      by_cases single : front = []
      · have notZero : last ≠ 0x30 := by
          intro same
          apply leading
          rw [single, same]
          rfl
        have differs : last.toNat ≠ 0x30 := fun same => notZero (UInt16.toNat_inj.mp same)
        omega
      · rw [List.head?_append_of_ne_nil _ single] at leading
        have positive := ih single leading fun unit member => numeric unit (by simp [member])
        omega

theorem decimal_digitsValue_of_leading : {digits : JsString} → digits ≠ [] →
    digits.head? ≠ some 0x30 → (∀ unit ∈ digits, isDigit unit = true) →
    decimal (digitsValue digits) = digits := by
  intro digits
  induction digits using List.reverseRecOn with
  | nil =>
      intro nonempty _ _
      exact absurd rfl nonempty
  | append_singleton front last ih =>
      intro _ leading numeric
      have digit := numeric last (by simp)
      simp only [isDigit, Bool.and_eq_true, decide_eq_true_eq] at digit
      have unit : UInt16.ofNat (0x30 + (last.toNat - 0x30)) = last := by
        rw [Nat.add_sub_cancel' digit.1, UInt16.ofNat_toNat]
      rw [digitsValue_append_singleton]
      by_cases single : front = []
      · rw [single, digitsValue_nil, decimal_of_lt (by omega), Nat.mul_zero, Nat.zero_add, unit,
          List.nil_append]
      · rw [List.head?_append_of_ne_nil _ single] at leading
        have front_numeric : ∀ other ∈ front, isDigit other = true := fun other member =>
          numeric other (by simp [member])
        have positive := digitsValue_pos single leading front_numeric
        have quotient :
            (10 * digitsValue front + (last.toNat - 0x30)) / 10 = digitsValue front := by
          omega
        have remainder : (10 * digitsValue front + (last.toNat - 0x30)) % 10 =
            last.toNat - 0x30 := by omega
        rw [decimal_of_ge (by omega), quotient, remainder, ih single leading front_numeric, unit]

theorem isCanonicalDigits_iff {digits : JsString} :
    isCanonicalDigits digits = true ↔ ∃ n, digits = decimal n := by
  simp only [isCanonicalDigits, Bool.or_eq_true, Bool.and_eq_true, decide_eq_true_eq,
    List.all_eq_true]
  constructor
  · rintro (zero | ⟨⟨nonempty, leading⟩, numeric⟩)
    · exact ⟨0, zero⟩
    · exact ⟨digitsValue digits, (decimal_digitsValue_of_leading nonempty leading numeric).symm⟩
  · rintro ⟨n, rfl⟩
    rcases Nat.eq_zero_or_pos n with rfl | positive
    · exact Or.inl rfl
    · exact Or.inr ⟨⟨decimal_ne_nil n, decimal_head_ne_zero positive⟩, isDigit_decimal n⟩

theorem isAscii_decimal (n : ℕ) : IsAscii (decimal n) :=
  isAscii_of_digits (isDigit_decimal n)

/-- `String` of a safe integer that is no less than zero. -/
theorem numberToString_natCast {n : ℕ} (bound : (n : ℤ) ≤ JsNumber.maxSafeInteger) :
    numberToString (JsNumber.ofRat n) = decimal n := by
  have small : |(n : ℤ)| ≤ JsNumber.maxSafeInteger := by
    rwa [abs_of_nonneg (Int.natCast_nonneg n)]
  have read := JsNumber.safeInteger?_ofRat small
  obtain ⟨d, rounded, -⟩ := JsNumber.ofRat_intCast small
  rw [rounded] at read
  have same : JsNumber.ofRat n = .finite d := by
    rw [← rounded, Int.cast_natCast]
  rw [same, numberToString, doubleText, read]
  simp [integerText, NumberText.render, NumberText.renderFraction, NumberText.renderExponent,
    js, ofScalars]

end AshlrHub.Js
