import Mathlib.Data.List.Basic

namespace AshlrHub.Js

/-! JavaScript strings as sequences of UTF-16 code units, and the UTF-8 codec
that `Buffer` uses between bytes and strings. -/

abbrev CodeUnit := UInt16

abbrev JsString := List CodeUnit

instance lawfulBEq : LawfulBEq JsString := List.instLawfulBEq

abbrev Bytes := List UInt8

namespace CodeUnit

def isHigh (unit : CodeUnit) : Bool :=
  0xD800 ≤ unit.toNat && unit.toNat ≤ 0xDBFF

def isLow (unit : CodeUnit) : Bool :=
  0xDC00 ≤ unit.toNat && unit.toNat ≤ 0xDFFF

def isSurrogate (unit : CodeUnit) : Bool :=
  unit.isHigh || unit.isLow

theorem isSurrogate_eq_false {unit : CodeUnit} :
    unit.isSurrogate = false ↔ unit.toNat < 0xD800 ∨ 0xDFFF < unit.toNat := by
  simp only [isSurrogate, isHigh, isLow, Bool.or_eq_false_iff, Bool.and_eq_false_iff,
    decide_eq_false_iff_not]
  omega

end CodeUnit

/-- The UTF-16 encoding of one Unicode scalar value. -/
def charUnits (c : Char) : JsString :=
  if c.toNat < 0x10000 then
    [UInt16.ofNat c.toNat]
  else
    [UInt16.ofNat (0xD800 + (c.toNat - 0x10000) / 0x400),
      UInt16.ofNat (0xDC00 + (c.toNat - 0x10000) % 0x400)]

def ofScalars (chars : List Char) : JsString :=
  chars.flatMap charUnits

def js (text : String) : JsString :=
  ofScalars text.toList

def replacementChar : Char := '\uFFFD'

def pairScalar (high low : CodeUnit) : Char :=
  Char.ofNat (0x10000 + (high.toNat - 0xD800) * 0x400 + (low.toNat - 0xDC00))

def unitScalar (unit : CodeUnit) : Char :=
  if unit.isSurrogate then replacementChar else Char.ofNat unit.toNat

def scalars : JsString → List Char
  | [] => []
  | [unit] => [unitScalar unit]
  | first :: second :: rest =>
      if first.isHigh && second.isLow then
        pairScalar first second :: scalars rest
      else
        unitScalar first :: scalars (second :: rest)

def wellFormed : JsString → Bool
  | [] => true
  | [unit] => !unit.isSurrogate
  | first :: second :: rest =>
      if first.isHigh && second.isLow then
        wellFormed rest
      else
        !first.isSurrogate && wellFormed (second :: rest)

/-! The UTF-8 encoder. -/

def utf8EncodeChar (c : Char) : Bytes :=
  if c.toNat < 0x80 then
    [UInt8.ofNat c.toNat]
  else if c.toNat < 0x800 then
    [UInt8.ofNat (0xC0 + c.toNat / 0x40), UInt8.ofNat (0x80 + c.toNat % 0x40)]
  else if c.toNat < 0x10000 then
    [UInt8.ofNat (0xE0 + c.toNat / 0x1000),
      UInt8.ofNat (0x80 + c.toNat / 0x40 % 0x40),
      UInt8.ofNat (0x80 + c.toNat % 0x40)]
  else
    [UInt8.ofNat (0xF0 + c.toNat / 0x40000),
      UInt8.ofNat (0x80 + c.toNat / 0x1000 % 0x40),
      UInt8.ofNat (0x80 + c.toNat / 0x40 % 0x40),
      UInt8.ofNat (0x80 + c.toNat % 0x40)]

/-- `Buffer.from(text, 'utf8')`. -/
def utf8Encode (text : JsString) : Bytes :=
  (scalars text).flatMap utf8EncodeChar

/-! The UTF-8 decoder, one byte at a time.  A maximal prefix of an ill-formed
sequence decodes to a single U+FFFD, and the byte that ends it is read again. -/

structure Utf8State where
  needed : Nat
  codePoint : Nat
  lower : Nat
  upper : Nat
deriving DecidableEq, Repr

def Utf8State.between : Utf8State := ⟨0, 0, 0x80, 0xBF⟩

def utf8First (byte : UInt8) : List Char × Utf8State :=
  let b := byte.toNat
  if b < 0x80 then ([Char.ofNat b], .between)
  else if 0xC2 ≤ b ∧ b ≤ 0xDF then ([], ⟨1, b - 0xC0, 0x80, 0xBF⟩)
  else if b = 0xE0 then ([], ⟨2, 0, 0xA0, 0xBF⟩)
  else if b = 0xED then ([], ⟨2, 0xD, 0x80, 0x9F⟩)
  else if 0xE1 ≤ b ∧ b ≤ 0xEF then ([], ⟨2, b - 0xE0, 0x80, 0xBF⟩)
  else if b = 0xF0 then ([], ⟨3, 0, 0x90, 0xBF⟩)
  else if b = 0xF4 then ([], ⟨3, 4, 0x80, 0x8F⟩)
  else if 0xF1 ≤ b ∧ b ≤ 0xF3 then ([], ⟨3, b - 0xF0, 0x80, 0xBF⟩)
  else ([replacementChar], .between)

def utf8Feed (state : Utf8State) (byte : UInt8) : List Char × Utf8State :=
  match state.needed with
  | 0 => utf8First byte
  | needed + 1 =>
      if state.lower ≤ byte.toNat ∧ byte.toNat ≤ state.upper then
        let codePoint := state.codePoint * 0x40 + (byte.toNat - 0x80)
        match needed with
        | 0 => ([Char.ofNat codePoint], .between)
        | _ + 1 => ([], ⟨needed, codePoint, 0x80, 0xBF⟩)
      else
        let (out, next) := utf8First byte
        (replacementChar :: out, next)

def utf8DecodeFrom (state : Utf8State) : Bytes → List Char
  | [] => if state.needed = 0 then [] else [replacementChar]
  | byte :: rest => (utf8Feed state byte).1 ++ utf8DecodeFrom (utf8Feed state byte).2 rest

def utf8DecodeScalars (bytes : Bytes) : List Char :=
  utf8DecodeFrom .between bytes

/-- `bytes.toString('utf8')`. -/
def utf8Decode (bytes : Bytes) : JsString :=
  ofScalars (utf8DecodeScalars bytes)

/-! Strings and scalar values. -/

theorem toNat_range (c : Char) :
    c.toNat < 0xD800 ∨ (0xDFFF < c.toNat ∧ c.toNat < 0x110000) :=
  c.valid

variable {n : Nat}

theorem toNat_ofNat (valid : n < 0xD800 ∨ (0xDFFF < n ∧ n < 0x110000)) :
    (Char.ofNat n).toNat = n := by
  have isValid : n.isValidChar := valid
  rw [Char.ofNat, dif_pos isValid]
  rfl

variable {unit : CodeUnit}

theorem scalars_cons (scalar : unit.isSurrogate = false) (rest : JsString) :
    scalars (unit :: rest) = Char.ofNat unit.toNat :: scalars rest := by
  have notHigh : unit.isHigh = false := by
    simp_all [CodeUnit.isSurrogate]
  cases rest with
  | nil => simp [scalars, unitScalar, scalar]
  | cons second rest => simp [scalars, unitScalar, scalar, notHigh]

theorem scalars_pair {high low : CodeUnit} (isHigh : high.isHigh = true)
    (isLow : low.isLow = true) (rest : JsString) :
    scalars (high :: low :: rest) = pairScalar high low :: scalars rest := by
  simp [scalars, isHigh, isLow]

theorem unit_of_small {c : Char} (small : c.toNat < 0x10000) :
    (UInt16.ofNat c.toNat).toNat = c.toNat ∧
      CodeUnit.isSurrogate (UInt16.ofNat c.toNat) = false := by
  have range := toNat_range c
  have unitNat := UInt16.toNat_ofNat_of_lt' small
  refine ⟨unitNat, CodeUnit.isSurrogate_eq_false.mpr ?_⟩
  omega

theorem scalars_charUnits (c : Char) (rest : JsString) :
    scalars (charUnits c ++ rest) = c :: scalars rest := by
  have range := toNat_range c
  by_cases small : c.toNat < 0x10000
  · obtain ⟨unitNat, scalar⟩ := unit_of_small small
    rw [charUnits, if_pos small, List.singleton_append, scalars_cons scalar,
      unitNat, Char.ofNat_toNat]
  · have highNat :
        (UInt16.ofNat (0xD800 + (c.toNat - 0x10000) / 0x400)).toNat =
          0xD800 + (c.toNat - 0x10000) / 0x400 := by
      rw [UInt16.toNat_ofNat', Nat.mod_eq_of_lt (by omega)]
    have lowNat :
        (UInt16.ofNat (0xDC00 + (c.toNat - 0x10000) % 0x400)).toNat =
          0xDC00 + (c.toNat - 0x10000) % 0x400 := by
      rw [UInt16.toNat_ofNat', Nat.mod_eq_of_lt (by omega)]
    have value : 0x10000 + (0xD800 + (c.toNat - 0x10000) / 0x400 - 0xD800) * 0x400 +
        (0xDC00 + (c.toNat - 0x10000) % 0x400 - 0xDC00) = c.toNat := by omega
    have pair : pairScalar (UInt16.ofNat (0xD800 + (c.toNat - 0x10000) / 0x400))
        (UInt16.ofNat (0xDC00 + (c.toNat - 0x10000) % 0x400)) = c := by
      rw [pairScalar, highNat, lowNat, value, Char.ofNat_toNat]
    rw [charUnits, if_neg small, List.cons_append, List.singleton_append, scalars_pair _ _, pair]
    · simp only [CodeUnit.isHigh, highNat, Bool.and_eq_true, decide_eq_true_eq]
      omega
    · simp only [CodeUnit.isLow, lowNat, Bool.and_eq_true, decide_eq_true_eq]
      omega

@[simp] theorem scalars_ofScalars (chars : List Char) :
    scalars (ofScalars chars) = chars := by
  induction chars with
  | nil => rfl
  | cons c rest ih => rw [ofScalars, List.flatMap_cons, scalars_charUnits, ← ofScalars, ih]

theorem charUnits_unit (scalar : unit.isSurrogate = false) :
    charUnits (Char.ofNat unit.toNat) = [unit] := by
  have bound := unit.toNat_lt
  have unitNat : (Char.ofNat unit.toNat).toNat = unit.toNat := by
    apply toNat_ofNat
    have range := CodeUnit.isSurrogate_eq_false.mp scalar
    omega
  rw [charUnits, unitNat, if_pos (by omega), UInt16.ofNat_toNat]

section

variable {high low : CodeUnit} (isHigh : high.isHigh = true) (isLow : low.isLow = true)
include isHigh isLow

theorem toNat_pairScalar : (pairScalar high low).toNat =
    0x10000 + (high.toNat - 0xD800) * 0x400 + (low.toNat - 0xDC00) := by
  simp only [CodeUnit.isHigh, CodeUnit.isLow, Bool.and_eq_true, decide_eq_true_eq] at isHigh isLow
  exact toNat_ofNat (by omega)

theorem charUnits_pair : charUnits (pairScalar high low) = [high, low] := by
  have pairNat := toNat_pairScalar isHigh isLow
  simp only [CodeUnit.isHigh, CodeUnit.isLow, Bool.and_eq_true, decide_eq_true_eq] at isHigh isLow
  rw [charUnits, pairNat, if_neg (by omega)]
  have highValue : 0xD800 + (0x10000 + (high.toNat - 0xD800) * 0x400 +
      (low.toNat - 0xDC00) - 0x10000) / 0x400 = high.toNat := by omega
  have lowValue : 0xDC00 + (0x10000 + (high.toNat - 0xD800) * 0x400 +
      (low.toNat - 0xDC00) - 0x10000) % 0x400 = low.toNat := by omega
  rw [highValue, lowValue, UInt16.ofNat_toNat, UInt16.ofNat_toNat]

end

theorem ofScalars_scalars : {text : JsString} → wellFormed text = true →
    ofScalars (scalars text) = text
  | [], _ => rfl
  | [unit], formed => by
      have scalar : unit.isSurrogate = false := by simpa [wellFormed] using formed
      rw [scalars_cons scalar]
      simp [ofScalars, scalars, charUnits_unit scalar]
  | first :: second :: rest, formed => by
      by_cases pair : first.isHigh && second.isLow
      · have tail : wellFormed rest = true := by simpa [wellFormed, pair] using formed
        simp only [Bool.and_eq_true] at pair
        rw [scalars_pair pair.1 pair.2, ofScalars, List.flatMap_cons, ← ofScalars,
          ofScalars_scalars tail, charUnits_pair pair.1 pair.2]
        rfl
      · have parts : first.isSurrogate = false ∧
            wellFormed (second :: rest) = true := by
          simpa [wellFormed, pair] using formed
        rw [scalars_cons parts.1, ofScalars, List.flatMap_cons, ← ofScalars,
          ofScalars_scalars parts.2, charUnits_unit parts.1]
        rfl

theorem wellFormed_charUnits_append (c : Char) (rest : JsString) :
    wellFormed (charUnits c ++ rest) = wellFormed rest := by
  have range := toNat_range c
  unfold charUnits
  split_ifs with small
  · obtain ⟨unitNat, scalar⟩ := unit_of_small small
    have notHigh : CodeUnit.isHigh (UInt16.ofNat c.toNat) = false := by
      simp only [CodeUnit.isSurrogate, Bool.or_eq_false_iff] at scalar
      exact scalar.1
    cases rest with
    | nil => simp [wellFormed, scalar]
    | cons second rest => simp [wellFormed, scalar, notHigh]
  · have isHigh : CodeUnit.isHigh
        (UInt16.ofNat (0xD800 + (c.toNat - 0x10000) / 0x400)) = true := by
      simp only [CodeUnit.isHigh, UInt16.toNat_ofNat', Bool.and_eq_true, decide_eq_true_eq]
      omega
    have isLow : CodeUnit.isLow
        (UInt16.ofNat (0xDC00 + (c.toNat - 0x10000) % 0x400)) = true := by
      simp only [CodeUnit.isLow, UInt16.toNat_ofNat', Bool.and_eq_true, decide_eq_true_eq]
      omega
    rw [List.cons_append, List.singleton_append, wellFormed, isHigh, isLow]
    rfl

theorem wellFormed_ofScalars : (chars : List Char) → wellFormed (ofScalars chars) = true
  | [] => rfl
  | c :: chars => by
      rw [ofScalars, List.flatMap_cons, wellFormed_charUnits_append, ← ofScalars,
        wellFormed_ofScalars chars]

theorem wellFormed_append {front back : JsString} (frontFormed : wellFormed front = true)
    (backFormed : wellFormed back = true) : wellFormed (front ++ back) = true := by
  rw [← ofScalars_scalars frontFormed, ← ofScalars_scalars backFormed, ofScalars, ofScalars,
    ← List.flatMap_append]
  exact wellFormed_ofScalars _

theorem wellFormed_of_scalar : {text : JsString} →
    (∀ unit ∈ text, unit.isSurrogate = false) → wellFormed text = true
  | [], _ => rfl
  | unit :: rest, scalar => by
      have first := scalar unit (by simp)
      have tail : wellFormed rest = true :=
        wellFormed_of_scalar fun other member => scalar other (List.mem_cons_of_mem _ member)
      have single : wellFormed [unit] = true := by simp [wellFormed, first]
      exact wellFormed_append single tail

/-! Decoding what the encoder wrote. -/

theorem utf8Feed_between (byte : UInt8) :
    utf8Feed .between byte = utf8First byte := rfl

theorem utf8Feed_continue (needed : Nat) {k l u : Nat} (low : l ≤ 0x80 + n) (high : 0x80 + n ≤ u)
    (bound : n < 0x40) :
    utf8Feed ⟨needed + 2, k, l, u⟩ (UInt8.ofNat (0x80 + n)) =
      ([], ⟨needed + 1, k * 0x40 + n, 0x80, 0xBF⟩) := by
  have byteNat : (UInt8.ofNat (0x80 + n)).toNat = 0x80 + n := by
    rw [UInt8.toNat_ofNat', Nat.mod_eq_of_lt (by omega)]
  simp only [utf8Feed, byteNat, low, high, and_self, if_true]
  rw [Nat.add_sub_cancel_left]

theorem utf8Feed_last {k l u : Nat} (low : l ≤ 0x80 + n) (high : 0x80 + n ≤ u) (bound : n < 0x40) :
    utf8Feed ⟨1, k, l, u⟩ (UInt8.ofNat (0x80 + n)) = ([Char.ofNat (k * 0x40 + n)], .between) := by
  have byteNat : (UInt8.ofNat (0x80 + n)).toNat = 0x80 + n := by
    rw [UInt8.toNat_ofNat', Nat.mod_eq_of_lt (by omega)]
  simp only [utf8Feed, byteNat, low, high, and_self, if_true]
  rw [Nat.add_sub_cancel_left]

variable {byte : UInt8}

theorem utf8DecodeFrom_cons {state next : Utf8State} {out : List Char}
    (fed : utf8Feed state byte = (out, next)) (rest : Bytes) :
    utf8DecodeFrom state (byte :: rest) = out ++ utf8DecodeFrom next rest := by
  rw [utf8DecodeFrom, fed]

theorem utf8Feed_ascii (bound : n < 0x80) :
    utf8Feed .between (UInt8.ofNat n) = ([Char.ofNat n], .between) := by
  have byteNat : (UInt8.ofNat n).toNat = n := by
    rw [UInt8.toNat_ofNat', Nat.mod_eq_of_lt (by omega)]
  simp [utf8Feed_between, utf8First, byteNat, bound]

theorem utf8Feed_two (low : 2 ≤ n) (high : n < 0x20) :
    utf8Feed .between (UInt8.ofNat (0xC0 + n)) = ([], ⟨1, n, 0x80, 0xBF⟩) := by
  have byteNat : (UInt8.ofNat (0xC0 + n)).toNat = 0xC0 + n := by
    rw [UInt8.toNat_ofNat', Nat.mod_eq_of_lt (by omega)]
  simp only [utf8Feed_between, utf8First, byteNat]
  rw [if_neg (by omega), if_pos (by omega), Nat.add_sub_cancel_left]

theorem utf8Feed_three (high : n < 0x10) :
    utf8Feed .between (UInt8.ofNat (0xE0 + n)) =
      ([], ⟨2, n, if n = 0 then 0xA0 else 0x80, if n = 0xD then 0x9F else 0xBF⟩) := by
  have byteNat : (UInt8.ofNat (0xE0 + n)).toNat = 0xE0 + n := by
    rw [UInt8.toNat_ofNat', Nat.mod_eq_of_lt (by omega)]
  simp only [utf8Feed_between, utf8First, byteNat]
  rw [if_neg (by omega), if_neg (by omega)]
  by_cases zero : n = 0
  · simp [zero]
  · rw [if_neg (by omega), if_neg zero]
    by_cases surrogate : n = 0xD
    · simp [surrogate]
    · rw [if_neg (by omega), if_pos (by omega), if_neg surrogate, Nat.add_sub_cancel_left]

theorem utf8Feed_four (high : n < 5) :
    utf8Feed .between (UInt8.ofNat (0xF0 + n)) =
      ([], ⟨3, n, if n = 0 then 0x90 else 0x80, if n = 4 then 0x8F else 0xBF⟩) := by
  obtain rfl | rfl | rfl | rfl | rfl : n = 0 ∨ n = 1 ∨ n = 2 ∨ n = 3 ∨ n = 4 := by
    omega
  all_goals decide

theorem utf8DecodeFrom_char (c : Char) (rest : Bytes) :
    utf8DecodeFrom .between (utf8EncodeChar c ++ rest) = c :: utf8DecodeFrom .between rest := by
  have range := toNat_range c
  unfold utf8EncodeChar
  split_ifs with one two three
  · have lead := utf8Feed_ascii one
    rw [List.singleton_append, utf8DecodeFrom_cons lead, Char.ofNat_toNat, List.singleton_append]
  · have lead := utf8Feed_two (n := c.toNat / 0x40) (by omega) (by omega)
    have last := utf8Feed_last (n := c.toNat % 0x40) (k := c.toNat / 0x40)
      (l := 0x80) (u := 0xBF) (by omega) (by omega) (by omega)
    have value : c.toNat / 0x40 * 0x40 + c.toNat % 0x40 = c.toNat := by omega
    rw [value, Char.ofNat_toNat] at last
    rw [List.cons_append, List.singleton_append, utf8DecodeFrom_cons lead, utf8DecodeFrom_cons last]
    rfl
  · have lead := utf8Feed_three (n := c.toNat / 0x1000) (by omega)
    have second := utf8Feed_continue 0 (n := c.toNat / 0x40 % 0x40)
      (k := c.toNat / 0x1000) (l := if c.toNat / 0x1000 = 0 then 0xA0 else 0x80)
      (u := if c.toNat / 0x1000 = 0xD then 0x9F else 0xBF)
      (by split <;> omega) (by split <;> omega) (by omega)
    have last := utf8Feed_last (n := c.toNat % 0x40)
      (k := c.toNat / 0x1000 * 0x40 + c.toNat / 0x40 % 0x40)
      (l := 0x80) (u := 0xBF) (by omega) (by omega) (by omega)
    have value : (c.toNat / 0x1000 * 0x40 + c.toNat / 0x40 % 0x40) * 0x40 +
        c.toNat % 0x40 = c.toNat := by omega
    rw [value, Char.ofNat_toNat] at last
    rw [List.cons_append, List.cons_append, List.singleton_append,
      utf8DecodeFrom_cons lead, utf8DecodeFrom_cons second,
      utf8DecodeFrom_cons last]
    rfl
  · have lead := utf8Feed_four (n := c.toNat / 0x40000) (by omega)
    have second := utf8Feed_continue 1 (n := c.toNat / 0x1000 % 0x40)
      (k := c.toNat / 0x40000) (l := if c.toNat / 0x40000 = 0 then 0x90 else 0x80)
      (u := if c.toNat / 0x40000 = 4 then 0x8F else 0xBF)
      (by split <;> omega) (by split <;> omega) (by omega)
    have third := utf8Feed_continue 0 (n := c.toNat / 0x40 % 0x40)
      (k := c.toNat / 0x40000 * 0x40 + c.toNat / 0x1000 % 0x40)
      (l := 0x80) (u := 0xBF) (by omega) (by omega) (by omega)
    have last := utf8Feed_last (n := c.toNat % 0x40)
      (k := (c.toNat / 0x40000 * 0x40 + c.toNat / 0x1000 % 0x40) * 0x40 + c.toNat / 0x40 % 0x40)
      (l := 0x80) (u := 0xBF) (by omega) (by omega) (by omega)
    have value : ((c.toNat / 0x40000 * 0x40 + c.toNat / 0x1000 % 0x40) * 0x40 +
        c.toNat / 0x40 % 0x40) * 0x40 + c.toNat % 0x40 = c.toNat := by omega
    rw [value, Char.ofNat_toNat] at last
    rw [List.cons_append, List.cons_append, List.cons_append, List.singleton_append,
      utf8DecodeFrom_cons lead, utf8DecodeFrom_cons second,
      utf8DecodeFrom_cons third, utf8DecodeFrom_cons last]
    rfl

@[simp] theorem utf8DecodeScalars_encode (chars : List Char) :
    utf8DecodeScalars (chars.flatMap utf8EncodeChar) = chars := by
  induction chars with
  | nil => rfl
  | cons c rest ih =>
      rw [utf8DecodeScalars, List.flatMap_cons, utf8DecodeFrom_char, ← utf8DecodeScalars, ih]

theorem utf8Decode_utf8Encode {text : JsString} (formed : wellFormed text = true) :
    utf8Decode (utf8Encode text) = text := by
  rw [utf8Decode, utf8Encode, utf8DecodeScalars_encode, ofScalars_scalars formed]

/-! Which bytes an encoded text holds. -/

theorem utf8EncodeChar_ascii {c : Char} (member : byte ∈ utf8EncodeChar c)
    (ascii : byte.toNat < 0x80) : c.toNat = byte.toNat := by
  have range := toNat_range c
  unfold utf8EncodeChar at member
  split_ifs at member
  all_goals simp only [List.mem_cons, List.not_mem_nil, or_false] at member
  · rw [member, UInt8.toNat_ofNat', Nat.mod_eq_of_lt (by omega)]
  all_goals rcases member with rfl | rfl | rfl | rfl | rfl
  all_goals
    rw [UInt8.toNat_ofNat'] at ascii
    omega

theorem unitScalar_toNat (small : (unitScalar unit).toNat < 0x80) :
    unit.toNat = (unitScalar unit).toNat := by
  unfold unitScalar at small ⊢
  split_ifs at small ⊢ with surrogate
  · exact absurd small (by decide)
  · have bound := unit.toNat_lt
    have valid : unit.toNat < 0xD800 ∨ (0xDFFF < unit.toNat ∧ unit.toNat < 0x110000) := by
      have range := CodeUnit.isSurrogate_eq_false.mp (eq_false_of_ne_true surrogate)
      omega
    rw [toNat_ofNat valid]

theorem mem_of_mem_scalars : {text : JsString} → {c : Char} → c ∈ scalars text →
    c.toNat < 0x80 → ∃ unit ∈ text, unit.toNat = c.toNat
  | [], _, member, _ => by simp [scalars] at member
  | [unit], c, member, small => by
      simp only [scalars, List.mem_singleton] at member
      exact ⟨unit, by simp, by rw [member] at small ⊢; exact unitScalar_toNat small⟩
  | first :: second :: rest, c, member, small => by
      rw [scalars] at member
      split_ifs at member with pair
      · rcases List.mem_cons.mp member with head | tail
        · have value : (pairScalar first second).toNat =
              0x10000 + (first.toNat - 0xD800) * 0x400 + (second.toNat - 0xDC00) := by
            simp only [Bool.and_eq_true, CodeUnit.isHigh, CodeUnit.isLow, decide_eq_true_eq] at pair
            exact toNat_ofNat (by omega)
          rw [head, value] at small
          omega
        · obtain ⟨unit, unitMember, same⟩ := mem_of_mem_scalars tail small
          exact ⟨unit, by simp [unitMember], same⟩
      · rcases List.mem_cons.mp member with head | tail
        · rw [head] at small ⊢
          exact ⟨first, by simp, unitScalar_toNat small⟩
        · obtain ⟨unit, unitMember, same⟩ := mem_of_mem_scalars tail small
          exact ⟨unit, List.mem_cons_of_mem _ unitMember, same⟩

theorem mem_of_mem_utf8Encode {text : JsString} (member : byte ∈ utf8Encode text)
    (ascii : byte.toNat < 0x80) :
    ∃ unit ∈ text, unit.toNat = byte.toNat := by
  obtain ⟨c, inText, inChar⟩ := List.mem_flatMap.mp member
  have same := utf8EncodeChar_ascii inChar ascii
  obtain ⟨unit, unitMember, value⟩ := mem_of_mem_scalars inText (by omega)
  exact ⟨unit, unitMember, by omega⟩

end AshlrHub.Js
