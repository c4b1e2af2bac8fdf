import AshlrHub.Js.Object
import AshlrHub.Authority.Patterns

namespace AshlrHub.Artifacts

open Js

/-! Records as JSON values. -/

def nullable {α : Type} (write : α → JsValue) : Option α → JsValue
  | none => .null
  | some value => write value

def optional {α : Type} (key : JsString) (write : α → JsValue) (value : Option α) :
    List (JsString × JsValue) :=
  (value.map fun value => (key, write value)).toList

def count (n : ℕ) : JsValue := jsInt n

def texts (items : List JsString) : JsValue := .arr (items.map .str)

/-! The canonical text.  The order of keys is the locale's: `localeCompare` is a parameter. -/

mutual

def canonical (keysInOrder : JsString → JsString → Bool) : JsValue → JsString
  | .undefined => js "undefined"
  | .null => js "null"
  | .bool true => js "true"
  | .bool false => js "false"
  | .num number => numberLiteral number
  | .str text => quote text
  | .arr items => js "[" ++ (joinComma (canonicalItems keysInOrder items) ++ js "]")
  | .obj members =>
      js "\x7b" ++ (joinComma (((canonicalMembers keysInOrder members).insertionSort
        fun first second => keysInOrder first.1 second.1).map
          fun member => quote member.1 ++ (js ":" ++ member.2)) ++ js "\x7d")

def canonicalItems (keysInOrder : JsString → JsString → Bool) : List JsValue → List JsString
  | [] => []
  | item :: items => canonical keysInOrder item :: canonicalItems keysInOrder items

def canonicalMembers (keysInOrder : JsString → JsString → Bool) :
    List (JsString × JsValue) → List (JsString × JsString)
  | [] => []
  | (key, value) :: members =>
      (key, canonical keysInOrder value) :: canonicalMembers keysInOrder members

end

end AshlrHub.Artifacts

namespace AshlrHub.Universe

open Js Artifacts Authority

/-! What the ledgers of campaigns and portfolios share: identifiers, times and digests. -/

/-- `ID`: `/^[a-z0-9][a-z0-9_-]{0,63}$/` -/
def idPattern (text : JsString) : Bool :=
  headThenUpTo (fun unit => isDigit unit || isLower unit)
    (fun unit => isDigit unit || isLower unit || (js "_-").contains unit) 63 text

/-- A text that `toISOString` writes, of a year with four digits. -/
def iso (text : JsString) : Bool :=
  isoInstantPattern text && isCanonicalInstant text

/-- The template's `h` stands for a hexadecimal digit, `v` for one of `89ab`. -/
def matchesUuid : JsString → JsString → Bool
  | [], [] => true
  | mark :: template, unit :: text =>
      (if mark = 0x68 then isLowerHex unit
        else if mark = 0x76 then (js "89ab").contains unit
        else mark = unit) && matchesUuid template text
  | _, _ => false

def uuidPattern (text : JsString) : Bool :=
  matchesUuid (js "hhhhhhhh-hhhh-4hhh-vhhh-hhhhhhhhhhhh") text

/-- `String(sequence).padStart(8, '0')` -/
def recordId (sequence : ℕ) : JsString :=
  List.replicate (8 - (decimal sequence).length) 0x30 ++ decimal sequence

/-- `digest(canonical(value))` -/
def digestOf (keysInOrder : JsString → JsString → Bool) (value : JsValue) : JsString :=
  Sha256.digest (utf8Encode (canonical keysInOrder value))

end AshlrHub.Universe
