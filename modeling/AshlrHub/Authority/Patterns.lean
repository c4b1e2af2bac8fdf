import AshlrHub.Js.Date
import AshlrHub.Js.Json
import AshlrHub.Js.Digest

namespace AshlrHub.Authority

open Js

/-! `STANDING_GRANT_PATTERNS`: the texts the authority records admit. -/

def isLower (unit : CodeUnit) : Bool :=
  0x61 ≤ unit.toNat && unit.toNat ≤ 0x7A

def isUpper (unit : CodeUnit) : Bool :=
  0x41 ≤ unit.toNat && unit.toNat ≤ 0x5A

def isAlphanumeric (unit : CodeUnit) : Bool :=
  isDigit unit || isLower unit || isUpper unit

def isLowerHex (unit : CodeUnit) : Bool :=
  isDigit unit || (0x61 ≤ unit.toNat && unit.toNat ≤ 0x66)

/-- One unit of the first class, then at most `max` of the second. -/
def headThenUpTo (first rest : CodeUnit → Bool) (max : ℕ) : JsString → Bool
  | [] => false
  | unit :: text => first unit && text.length ≤ max && text.all rest

/-- `/^[a-f0-9]{count}$/u` -/
def isHexOfLength (count : ℕ) (text : JsString) : Bool :=
  text.length = count && text.all isLowerHex

section

variable (text : JsString)

def grantIdPattern : Bool :=
  isHexOfLength 32 text

def sha256HexPattern : Bool :=
  isHexOfLength 64 text

/-- `/^[A-Za-z0-9][A-Za-z0-9._-]{0,63}$/u` -/
def keyIdPattern : Bool :=
  headThenUpTo isAlphanumeric (fun unit => isAlphanumeric unit || (js "._-").contains unit) 63 text

def isoInstantPattern : Bool :=
  matchesTemplate (js "dddd-dd-ddTdd:dd:dd.dddZ") text

/-- `/^[A-Za-z0-9][A-Za-z0-9-]{0,38}\/[A-Za-z0-9._-]{1,100}$/u` -/
def nameWithOwnerPattern : Bool :=
  let owner := text.takeWhile (· ≠ 0x2F)
  match text.dropWhile (· ≠ 0x2F) with
  | [] => false
  | _ :: name =>
      headThenUpTo isAlphanumeric (fun unit => isAlphanumeric unit || unit = 0x2D) 38 owner &&
        1 ≤ name.length && name.length ≤ 100 &&
        name.all fun unit => isAlphanumeric unit || (js "._-").contains unit

/-- `/^[a-z0-9][a-z0-9-]{0,31}$/u` -/
def stageIdPattern : Bool :=
  headThenUpTo (fun unit => isDigit unit || isLower unit)
    (fun unit => isDigit unit || isLower unit || unit = 0x2D) 31 text

/-- `/^[A-Za-z0-9][A-Za-z0-9._:@/+-]{0,199}$/u` -/
def seatIdPattern : Bool :=
  headThenUpTo isAlphanumeric
    (fun unit => isAlphanumeric unit || (js "._:@/+-").contains unit) 199 text

end

/-- Whether a value is an ISO instant exactly as `toISOString` writes it; none where
`toISOString` throws, on a text of the right shape that names no date. -/
def isIsoInstant (value : JsValue) : Option Bool :=
  match value with
  | .str text =>
      if isoInstantPattern text then
        match dateParse text with
        | some t => some (toISOString t = some text)
        | none => none
      else some false
  | _ => some false

theorem isoInstantPattern_pad4 (year : ℕ) (i : Instant) :
    isoInstantPattern (pad4 year ++ i.tailText) = true := by
  have template : js "dddd-dd-ddTdd:dd:dd.dddZ" = [0x64, 0x64, 0x64, 0x64, 0x2D, 0x64, 0x64,
    0x2D, 0x64, 0x64, 0x54, 0x64, 0x64, 0x3A, 0x64, 0x64, 0x3A, 0x64, 0x64, 0x2E, 0x64, 0x64,
    0x64, 0x5A] := by decide
  rw [isoInstantPattern, template, Instant.tailText_eq]
  simp [matchesTemplate, pad4, pad3, pad2]

def plainYear (t : ℤ) : Bool :=
  0 ≤ (Instant.ofTime t).year && (Instant.ofTime t).year ≤ 9999

theorem isIsoInstant_toISOString {t : ℤ} {text : JsString} (plain : plainYear t = true)
    (formatted : toISOString t = some text) : isIsoInstant (.str text) = some true := by
  have parsed := dateParse_toISOString formatted
  have written := formatted
  unfold toISOString at written
  simp only [plainYear, Bool.and_eq_true, decide_eq_true_eq] at plain
  split_ifs at written
  have shape : isoInstantPattern text = true := by
    rw [← Option.some.inj written, yearText, if_pos plain]
    exact isoInstantPattern_pad4 _ _
  rw [isIsoInstant, if_pos shape, parsed]
  simp [formatted]

theorem sha256HexPattern_sha256 (bytes : Bytes) :
    sha256HexPattern (Sha256.digest bytes) = true := by
  unfold sha256HexPattern isHexOfLength
  rw [Sha256.length_digest, decide_eq_true rfl, Bool.true_and, List.all_eq_true]
  intro unit member
  obtain ⟨n, small, rfl⟩ := Sha256.mem_digest member
  have hex : ∀ n < 16, isLowerHex (Sha256.hexDigit n) = true := by decide
  exact hex n small

end AshlrHub.Authority
