import AshlrHub.Js.Date
import AshlrHub.Js.Indented
import AshlrHub.Js.Object
import AshlrHub.Js.Utf8

namespace AshlrHub.Js

/-! How many bytes JSON takes, exactly so for texts that need no escape. -/

def isPlain (unit : CodeUnit) : Bool :=
  0x20 ≤ unit.toNat && unit.toNat < 0x80 && unit ≠ 0x22 && unit ≠ 0x5C

theorem isSurrogate_of_isPlain {unit : CodeUnit} (plain : isPlain unit = true) :
    unit.isSurrogate = false := by
  simp only [isPlain, Bool.and_eq_true, decide_eq_true_eq] at plain
  exact CodeUnit.isSurrogate_eq_false.mpr (by omega)

theorem quoteUnit_plain {unit : CodeUnit} (plain : isPlain unit = true) :
    quoteUnit unit = [unit] := by
  have scalar := isSurrogate_of_isPlain plain
  simp only [isPlain, Bool.and_eq_true, decide_eq_true_eq] at plain
  obtain ⟨⟨⟨printed, -⟩, quotes⟩, backslash⟩ := plain
  have control {code : CodeUnit} (low : code.toNat < 0x20) : unit ≠ code := by
    intro same
    rw [same] at printed
    omega
  rw [quoteUnit, if_neg quotes, if_neg backslash, if_neg (control (by decide)),
    if_neg (control (by decide)), if_neg (control (by decide)), if_neg (control (by decide)),
    if_neg (control (by decide)), if_neg]
  rw [scalar]
  simpa using printed

theorem quoteUnits_plain : {text : JsString} → text.all isPlain = true → quoteUnits text = text
  | [], _ => rfl
  | [unit], plain => by
      rw [List.all_cons, List.all_nil, Bool.and_true] at plain
      exact quoteUnit_plain plain
  | first :: second :: rest, plain => by
      rw [List.all_cons, Bool.and_eq_true] at plain
      have scalar := isSurrogate_of_isPlain plain.1
      rw [CodeUnit.isSurrogate, Bool.or_eq_false_iff] at scalar
      rw [quoteUnits, scalar.1, Bool.false_and, if_neg Bool.false_ne_true,
        quoteUnit_plain plain.1, quoteUnits_plain plain.2, List.singleton_append]

theorem length_utf8Encode_plain : {text : JsString} → text.all isPlain = true →
    (utf8Encode text).length = text.length
  | [], _ => rfl
  | unit :: rest, plain => by
      rw [List.all_cons, Bool.and_eq_true] at plain
      have tail := length_utf8Encode_plain plain.2
      have small := plain.1
      simp only [isPlain, Bool.and_eq_true, decide_eq_true_eq] at small
      have value : (Char.ofNat unit.toNat).toNat = unit.toNat :=
        toNat_ofNat (.inl (by omega))
      rw [utf8Encode] at tail ⊢
      rw [scalars_cons (isSurrogate_of_isPlain plain.1), List.flatMap_cons, List.length_append,
        tail, utf8EncodeChar, if_pos (by rw [value]; omega), List.length_cons, List.length_cons,
        List.length_nil]
      omega

theorem length_quote_plain {text : JsString} (plain : text.all isPlain = true) :
    (utf8Encode (quote text)).length = text.length + 2 := by
  have formed : wellFormed text = true := wellFormed_of_scalar fun unit member =>
    isSurrogate_of_isPlain (List.all_eq_true.mp plain unit member)
  rw [quote, quoteUnits_plain plain, utf8Encode_append (by decide)
    (wellFormed_append formed (by decide)), utf8Encode_append formed (by decide),
    List.length_append, List.length_append, length_utf8Encode_plain plain]
  have mark : (utf8Encode (js "\"")).length = 1 := by decide
  omega

/-! Instants. -/

theorem digitUnit_plain (n : ℕ) : isPlain (digitUnit n) = true := by
  have digits : ∀ m < 10, isPlain (UInt16.ofNat (0x30 + m)) = true := by decide
  exact digits (n % 10) (Nat.mod_lt n (by decide))

theorem tailText_plain (i : Instant) :
    i.tailText.all isPlain = true ∧ i.tailText.length = 20 := by
  have letters : isPlain 0x2D = true ∧ isPlain 0x54 = true ∧ isPlain 0x3A = true ∧
      isPlain 0x2E = true ∧ isPlain 0x5A = true := by decide
  rw [Instant.tailText_eq]
  simp [digitUnit_plain, letters]

theorem yearText_plain (year : ℤ) :
    (yearText year).all isPlain = true ∧ 4 ≤ (yearText year).length ∧
      (yearText year).length ≤ 7 := by
  have signs : isPlain 0x2D = true ∧ isPlain 0x2B = true := by decide
  have minus : js "-" = [0x2D] := rfl
  have plus : js "+" = [0x2B] := rfl
  unfold yearText
  split_ifs <;> simp [minus, plus, pad4, pad6, pad3, pad2, digitUnit_plain, signs]

theorem instant_plain {text : JsString} (canonical : isCanonicalInstant text = true) :
    text.all isPlain = true ∧ 24 ≤ text.length ∧ text.length ≤ 27 := by
  obtain ⟨t, formatted⟩ := isCanonicalInstant_iff.mp canonical
  unfold toISOString at formatted
  split_ifs at formatted with time
  obtain rfl := Option.some.inj formatted
  obtain ⟨tailPlain, tail⟩ := tailText_plain (Instant.ofTime t)
  obtain ⟨yearPlain, short, long⟩ := yearText_plain (Instant.ofTime t).year
  rw [List.all_append, List.length_append, tailPlain, yearPlain, tail]
  exact ⟨rfl, Nat.add_le_add_right short 20, Nat.add_le_add_right long 20⟩

/-! A text that was decoded takes at most six bytes of JSON for each byte it was decoded from. -/

theorem length_utf8Encode_ascii : {text : JsString} → (∀ unit ∈ text, unit.toNat < 0x80) →
    (utf8Encode text).length = text.length
  | [], _ => rfl
  | unit :: rest, ascii => by
      have tail := length_utf8Encode_ascii fun other member =>
        ascii other (List.mem_cons_of_mem unit member)
      have small := ascii unit List.mem_cons_self
      have scalar : unit.isSurrogate = false :=
        CodeUnit.isSurrogate_eq_false.mpr (by omega)
      have value : (Char.ofNat unit.toNat).toNat = unit.toNat := toNat_ofNat (.inl (by omega))
      rw [utf8Encode] at tail ⊢
      rw [scalars_cons scalar, List.flatMap_cons, List.length_append, tail, utf8EncodeChar,
        if_pos (by rw [value]; exact small), List.length_singleton, List.length_cons, Nat.add_comm]

theorem length_unicodeEscape_bytes (unit : CodeUnit) :
    (utf8Encode (unicodeEscape unit)).length = 6 := by
  have bound := unit.toNat_lt
  rw [length_utf8Encode_ascii]
  · rfl
  · simp only [unicodeEscape, List.mem_append, List.mem_cons, List.not_mem_nil, or_false]
    rintro written (mark | rfl | rfl | rfl | rfl)
    · exact of_decide_eq_true
        (List.all_eq_true.mp (by decide : (js "\\u").all (·.toNat < 0x80) = true) written mark)
    all_goals exact (hexDigit_range (by omega)).2

theorem length_quoteUnit_bytes_le (unit : CodeUnit) :
    (utf8Encode (quoteUnit unit)).length ≤ 6 := by
  rcases quoteUnit_cases unit with ⟨letter, -, -, same⟩ | same | ⟨same, -⟩
  · rw [same]
    exact length_utf8Encode_le [0x5C, letter]
  · rw [same]
    exact le_of_eq (length_unicodeEscape_bytes unit)
  · have three := length_utf8Encode_le [unit]
    rw [List.length_singleton] at three
    rw [same]
    omega

theorem length_quoteUnits_bytes_le : (text : JsString) →
    (utf8Encode (quoteUnits text)).length ≤ 6 * (scalars text).length
  | [] => le_rfl
  | [unit] => by
      rw [quoteUnits, scalars]
      exact length_quoteUnit_bytes_le unit
  | first :: second :: rest => by
      rw [quoteUnits, scalars]
      split_ifs with pair
      · rw [Bool.and_eq_true] at pair
        have tail := length_quoteUnits_bytes_le rest
        have formed : wellFormed [first, second] = true := by simp [wellFormed, pair]
        have written : utf8Encode [first, second] = utf8EncodeChar (pairScalar first second) := by
          rw [utf8Encode, scalars_pair pair.1 pair.2, scalars, List.flatMap_singleton]
        have four := length_utf8EncodeChar_le (pairScalar first second)
        change (utf8Encode ([first, second] ++ quoteUnits rest)).length ≤ _
        rw [utf8Encode_append formed (printable_quoteUnits rest).formed, List.length_append,
          written, List.length_cons]
        omega
      · have head := length_quoteUnit_bytes_le first
        have tail := length_quoteUnits_bytes_le (second :: rest)
        rw [utf8Encode_append (printable_quoteUnit first).formed
          (printable_quoteUnits (second :: rest)).formed, List.length_append, List.length_cons]
        omega

theorem length_quote_bytes_le (text : JsString) :
    (utf8Encode (quote text)).length ≤ 6 * (scalars text).length + 2 := by
  have within := length_quoteUnits_bytes_le text
  have formed := (printable_quoteUnits text).formed
  have mark : (utf8Encode (js "\"")).length = 1 := by decide
  rw [quote, utf8Encode_append (by decide) (wellFormed_append formed (by decide)),
    utf8Encode_append formed (by decide), List.length_append, List.length_append, mark]
  omega

theorem length_le_length_encodeWith (invalid : UInt8) (chars : List Char) :
    chars.length ≤ (chars.flatMap (encodeWith invalid)).length := by
  induction chars with
  | nil => exact le_rfl
  | cons c chars ih =>
      have one : 0 < (encodeWith invalid c).length := by
        unfold encodeWith
        split
        · exact Nat.one_pos
        · exact utf8EncodeChar_length_pos c
      rw [List.flatMap_cons, List.length_append, List.length_cons]
      omega

theorem length_utf8DecodeScalars_le (bytes : Bytes) :
    (utf8DecodeScalars bytes).length ≤ bytes.length := by
  have fewer := length_le_length_encodeWith 0xFF (utf8DecodeScalars bytes)
  have read := length_utf8DecodeFrom_le Pending.between bytes 0xFF
  rw [List.length_nil, Nat.zero_add] at read
  exact fewer.trans read

theorem length_quote_utf8Decode_le (bytes : Bytes) :
    (utf8Encode (quote (utf8Decode bytes))).length ≤ 6 * bytes.length + 2 := by
  have written := length_quote_bytes_le (utf8Decode bytes)
  have fewer := length_utf8DecodeScalars_le bytes
  have read : scalars (utf8Decode bytes) = utf8DecodeScalars bytes := scalars_ofScalars _
  rw [read] at written
  omega

end AshlrHub.Js
