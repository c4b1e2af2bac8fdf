import AshlrHub.Js.Text
import Mathlib.Data.Nat.Digits.Defs

namespace AshlrHub.Js

/-! Numbers in base 36, and bytes in the URL alphabet of base 64 without padding. -/

def digit36 (value : ℕ) : CodeUnit :=
  UInt16.ofNat (if value < 10 then 0x30 + value else 0x57 + value)

/-- `/[0-9a-z]/` -/
def isDigit36 (unit : CodeUnit) : Bool :=
  (0x30 ≤ unit.toNat && unit.toNat ≤ 0x39) || (0x61 ≤ unit.toNat && unit.toNat ≤ 0x7A)

def value36 (unit : CodeUnit) : ℕ :=
  if unit.toNat < 0x40 then unit.toNat - 0x30 else unit.toNat - 0x57

/-- `n.toString(36)` -/
def toString36 (n : ℕ) : JsString :=
  if n = 0 then [0x30] else (Nat.digits 36 n).reverse.map digit36

/-- `Number.parseInt(text, 36)` of a text of digits. -/
def parseInt36 (text : JsString) : ℕ :=
  Nat.ofDigits 36 (text.reverse.map value36)

variable {value : ℕ}

theorem digit36_toNat (small : value < 36) :
    (digit36 value).toNat = if value < 10 then 0x30 + value else 0x57 + value := by
  rw [digit36, UInt16.toNat_ofNat']
  apply Nat.mod_eq_of_lt
  split_ifs <;> omega

theorem value36_digit36 (small : value < 36) : value36 (digit36 value) = value := by
  rw [value36, digit36_toNat small]
  split_ifs <;> omega

theorem isDigit36_digit36 (small : value < 36) :
    isDigit36 (digit36 value) = true := by
  rw [isDigit36, digit36_toNat small]
  split_ifs <;> simp <;> omega

theorem isDigit36_toString36 {n : ℕ} {unit : CodeUnit} (member : unit ∈ toString36 n) :
    isDigit36 unit = true := by
  unfold toString36 at member
  split_ifs at member with zero
  · rw [List.mem_singleton.mp member]
    rfl
  · obtain ⟨value, digit, rfl⟩ := List.mem_map.mp member
    exact isDigit36_digit36 (Nat.digits_lt_base (by norm_num) (List.mem_reverse.mp digit))

theorem parseInt36_toString36 (n : ℕ) : parseInt36 (toString36 n) = n := by
  unfold toString36 parseInt36
  split_ifs with zero
  · rw [zero]
    rfl
  · rw [← List.map_reverse, List.reverse_reverse, List.map_map]
    calc Nat.ofDigits 36 ((Nat.digits 36 n).map (value36 ∘ digit36))
        = Nat.ofDigits 36 ((Nat.digits 36 n).map id) := by
          congr 1
          apply List.map_congr_left
          intro value digit
          exact value36_digit36 (Nat.digits_lt_base (by norm_num) digit)
      _ = n := by rw [List.map_id, Nat.ofDigits_digits]

theorem toString36_inj {n m : ℕ} (same : toString36 n = toString36 m) : n = m := by
  rw [← parseInt36_toString36 n, same, parseInt36_toString36]

/-! Base 64. -/

def digit64 (value : ℕ) : CodeUnit :=
  UInt16.ofNat (if value < 26 then 0x41 + value else if value < 52 then 0x47 + value
    else if value < 62 then value - 4 else if value = 62 then 0x2D else 0x5F)

def value64 (unit : CodeUnit) : Option ℕ :=
  let n := unit.toNat
  if 0x41 ≤ n ∧ n ≤ 0x5A then some (n - 0x41)
  else if 0x61 ≤ n ∧ n ≤ 0x7A then some (n - 0x47)
  else if 0x30 ≤ n ∧ n ≤ 0x39 then some (n + 4)
  else if n = 0x2D then some 62
  else if n = 0x5F then some 63
  else none

/-- `bytes.toString('base64url')` -/
def toBase64Url : Bytes → JsString
  | [] => []
  | [a] => [digit64 (a.toNat / 4), digit64 (a.toNat % 4 * 16)]
  | [a, b] =>
      [digit64 (a.toNat / 4), digit64 (a.toNat % 4 * 16 + b.toNat / 16), digit64 (b.toNat % 16 * 4)]
  | a :: b :: c :: bytes =>
      digit64 (a.toNat / 4) :: digit64 (a.toNat % 4 * 16 + b.toNat / 16) ::
        digit64 (b.toNat % 16 * 4 + c.toNat / 64) :: digit64 (c.toNat % 64) :: toBase64Url bytes

theorem digit64_ne_colon (value : ℕ) : digit64 value ≠ 0x3A := by
  have small : ∀ value < 64, digit64 value ≠ 0x3A := by decide
  by_cases bound : value < 64
  · exact small value bound
  · rw [digit64, if_neg (by omega), if_neg (by omega), if_neg (by omega), if_neg (by omega)]
    decide

theorem colon_not_mem_toBase64Url : (bytes : Bytes) → 0x3A ∉ toBase64Url bytes
  | [] => List.not_mem_nil
  | [a] => by
      simp only [toBase64Url, List.mem_cons, List.not_mem_nil, or_false, not_or]
      exact ⟨(digit64_ne_colon _).symm, (digit64_ne_colon _).symm⟩
  | [a, b] => by
      simp only [toBase64Url, List.mem_cons, List.not_mem_nil, or_false, not_or]
      exact ⟨(digit64_ne_colon _).symm, (digit64_ne_colon _).symm, (digit64_ne_colon _).symm⟩
  | a :: b :: c :: bytes => by
      simp only [toBase64Url, List.mem_cons, not_or]
      exact ⟨(digit64_ne_colon _).symm, (digit64_ne_colon _).symm, (digit64_ne_colon _).symm,
        (digit64_ne_colon _).symm, colon_not_mem_toBase64Url bytes⟩

def bytesOf64 : List ℕ → Bytes
  | a :: b :: c :: d :: values =>
      UInt8.ofNat (a * 4 + b / 16) :: UInt8.ofNat (b % 16 * 16 + c / 4) ::
        UInt8.ofNat (c % 4 * 64 + d) :: bytesOf64 values
  | [a, b, c] => [UInt8.ofNat (a * 4 + b / 16), UInt8.ofNat (b % 16 * 16 + c / 4)]
  | [a, b] => [UInt8.ofNat (a * 4 + b / 16)]
  | _ => []

/-- `Buffer.from(text, 'base64url')` of a text in the alphabet. -/
def ofBase64Url (text : JsString) : Option Bytes :=
  (text.mapM value64).map bytesOf64

end AshlrHub.Js
