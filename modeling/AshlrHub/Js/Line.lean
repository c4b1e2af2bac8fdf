import AshlrHub.Js.Text

namespace AshlrHub.Js

/-! A line of text and its newline, and what UTF-8 makes of them. -/

variable {front : JsString}

theorem utf8Encode_append {back : JsString} (frontFormed : wellFormed front = true)
    (backFormed : wellFormed back = true) :
    utf8Encode (front ++ back) = utf8Encode front ++ utf8Encode back := by
  have whole : scalars (front ++ back) = scalars front ++ scalars back := by
    conv_lhs => rw [← ofScalars_scalars frontFormed, ← ofScalars_scalars backFormed]
    rw [ofScalars, ofScalars, ← List.flatMap_append]
    exact scalars_ofScalars _
  rw [utf8Encode, utf8Encode, utf8Encode, whole, List.flatMap_append]

theorem wellFormed_of_concat {unit : CodeUnit} (scalar : unit.isSurrogate = false) :
    {front : JsString} → wellFormed (front ++ [unit]) = true → wellFormed front = true
  | [], _ => rfl
  | [first], formed => by
      have notLow : unit.isLow = false := by
        rw [CodeUnit.isSurrogate, Bool.or_eq_false_iff] at scalar
        exact scalar.2
      rw [List.cons_append, List.nil_append, wellFormed, notLow, Bool.and_false,
        if_neg Bool.false_ne_true, Bool.and_eq_true] at formed
      exact formed.1
  | first :: second :: rest, formed => by
      rw [List.cons_append, List.cons_append, wellFormed] at formed
      rw [wellFormed]
      split_ifs at formed ⊢ with pair
      · exact wellFormed_of_concat scalar formed
      · rw [Bool.and_eq_true] at formed ⊢
        exact ⟨formed.1, @wellFormed_of_concat _ scalar (second :: rest) formed.2⟩

theorem wellFormed_utf8Decode (bytes : Bytes) : wellFormed (utf8Decode bytes) = true :=
  wellFormed_ofScalars _

theorem utf8Encode_line (formed : wellFormed (front ++ [0x0A]) = true) :
    utf8Encode (front ++ [0x0A]) = utf8Encode front ++ [0x0A] :=
  utf8Encode_append (wellFormed_of_concat (by decide) formed) (by decide)

theorem newline_not_mem_utf8Encode (oneLine : 0x0A ∉ front) :
    0x0A ∉ utf8Encode front := by
  intro member
  obtain ⟨unit, inside, same⟩ := mem_of_mem_utf8Encode member (by decide)
  apply oneLine
  have newline : unit = 0x0A := UInt16.toNat_inj.mp same
  rwa [← newline]

theorem length_utf8EncodeChar_pair {high low : CodeUnit} (isHigh : high.isHigh = true)
    (isLow : low.isLow = true) : 2 ≤ (utf8EncodeChar (pairScalar high low)).length := by
  unfold utf8EncodeChar
  rw [toNat_pairScalar isHigh isLow]
  split_ifs <;> simp
  omega

theorem length_le_utf8Encode : (text : JsString) → text.length ≤ (utf8Encode text).length
  | [] => Nat.le_refl _
  | [unit] => by
      rw [utf8Encode, scalars, List.flatMap_singleton]
      unfold utf8EncodeChar
      split_ifs <;> simp
  | first :: second :: rest => by
      rw [utf8Encode, scalars]
      split_ifs with pair
      · rw [Bool.and_eq_true] at pair
        have tail := length_le_utf8Encode rest
        have head := length_utf8EncodeChar_pair pair.1 pair.2
        rw [utf8Encode] at tail
        rw [List.flatMap_cons, List.length_append, List.length_cons, List.length_cons]
        omega
      · have tail := length_le_utf8Encode (second :: rest)
        have head : 1 ≤ (utf8EncodeChar (unitScalar first)).length := by
          unfold utf8EncodeChar
          split_ifs <;> simp
        rw [utf8Encode] at tail
        rw [List.flatMap_cons, List.length_append, List.length_cons]
        omega

/-! ASCII literals, whose bytes are their code units: a short way to compute with `js`. -/

def literalBytes (text : String) : Bytes :=
  text.toByteArray.data.toList

def isAsciiLiteral (text : String) : Bool :=
  (literalBytes text).all (· < 0x80)

def literalUnits (text : String) : JsString :=
  (literalBytes text).map fun byte => UInt16.ofNat byte.toNat

theorem literalBytes_ofList (chars : List Char) :
    literalBytes (String.ofList chars) = chars.flatMap String.utf8EncodeChar := by
  rw [literalBytes, String.toByteArray_ofList, List.utf8Encode]
  simp

theorem not_ascii_cons {n : ℕ} {rest : Bytes} (low : 0x80 ≤ n) (high : n < 0x100) :
    ((UInt8.ofNat n :: rest).all (· < 0x80)) ≠ true := by
  rw [Ne, List.all_cons, Bool.and_eq_true, decide_eq_true_eq, UInt8.lt_iff_toNat_lt,
    UInt8.toNat_ofNat_of_lt' high]
  rintro ⟨small, -⟩
  exact absurd small (Nat.not_lt.mpr low)

theorem charUnits_of_ascii {c : Char} (ascii : (String.utf8EncodeChar c).all (· < 0x80) = true) :
    charUnits c = (String.utf8EncodeChar c).map fun byte => UInt16.ofNat byte.toNat := by
  have valid := toNat_range c
  change c.val.toNat < 0xD800 ∨ (0xDFFF < c.val.toNat ∧ c.val.toNat < 0x110000) at valid
  unfold String.utf8EncodeChar at ascii ⊢
  dsimp only at ascii ⊢
  split_ifs at ascii ⊢ with one two three
  · have byte : (UInt8.ofNat c.val.toNat).toNat = c.val.toNat :=
      UInt8.toNat_ofNat_of_lt' (Nat.lt_of_le_of_lt one (by decide))
    have small : c.toNat < 0x10000 := Nat.lt_of_le_of_lt one (by decide)
    rw [charUnits, if_pos small, List.map_singleton, byte]
    rfl
  · exact absurd ascii (not_ascii_cons (by omega) (by omega))
  · exact absurd ascii (not_ascii_cons (by omega) (by omega))
  · exact absurd ascii (not_ascii_cons (by omega) (by omega))

theorem js_literal {text : String} (ascii : isAsciiLiteral text = true) :
    js text = literalUnits text := by
  obtain ⟨chars, rfl⟩ : ∃ chars, text = String.ofList chars := ⟨text.toList, by simp⟩
  rw [isAsciiLiteral, literalBytes_ofList] at ascii
  rw [js, String.toList_ofList, literalUnits, literalBytes_ofList]
  induction chars with
  | nil => rfl
  | cons c chars ih =>
      rw [List.flatMap_cons, List.all_append, Bool.and_eq_true] at ascii
      rw [List.flatMap_cons, List.map_append, ← charUnits_of_ascii ascii.1, ← ih ascii.2]
      rfl

end AshlrHub.Js
