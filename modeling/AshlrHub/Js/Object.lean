import AshlrHub.Js.Json

namespace AshlrHub.Js

/-! Reading JavaScript objects: properties, key sets, and string enumerations. -/

def getMember (members : List (JsString × JsValue)) (key : JsString) : JsValue :=
  match members with
  | [] => .undefined
  | member :: members => if member.1 = key then member.2 else getMember members key

def hasMember (members : List (JsString × JsValue)) (key : JsString) : Bool :=
  members.any fun member => member.1 = key

def exactKeys (members : List (JsString × JsValue)) (keys : List JsString) : Bool :=
  members.length = keys.length && keys.all (hasMember members)

def withoutMember (members : List (JsString × JsValue)) (key : JsString) :
    List (JsString × JsValue) :=
  members.filter fun member => member.1 ≠ key

def jsInt (n : ℤ) : JsValue :=
  .num (.ofRat n)

namespace JsValue

def asString : JsValue → Option JsString
  | .str text => some text
  | _ => none

def asBool : JsValue → Option Bool
  | .bool value => some value
  | _ => none

def asRecord : JsValue → Option (List (JsString × JsValue))
  | .obj members => some members
  | _ => none

def asArray : JsValue → Option (List JsValue)
  | .arr items => some items
  | _ => none

/-- The integer a value holds, by `Number.isSafeInteger`. -/
def asSafeInteger : JsValue → Option ℤ
  | .num number => number.safeInteger?
  | _ => none

end JsValue

/-- A type whose values the source writes as distinct strings. -/
class JsEnum (α : Type) where
  text : α → JsString
  all : List α
  complete : ∀ a, a ∈ all
  distinct : (all.map text).Nodup

namespace JsEnum

variable [JsEnum α]

def ofText (name : JsString) : Option α :=
  all.find? fun a => text a = name

def ofValue (value : JsValue) : Option α :=
  value.asString.bind ofText

theorem text_injective : Function.Injective (text : α → JsString) :=
  fun a b same => List.inj_on_of_nodup_map distinct (complete a) (complete b) same

@[simp] theorem ofText_text (a : α) : ofText (text a) = some a := by
  unfold ofText
  cases found : all.find? fun b : α => decide (text b = text a) with
  | none =>
      have missing := List.find?_eq_none.mp found a (complete a)
      simp at missing
  | some b =>
      have same := List.find?_some found
      simp only [decide_eq_true_eq] at same
      rw [text_injective same]

theorem text_of_ofText {name : JsString} {a : α} (found : ofText name = some a) :
    text a = name := by
  simpa using List.find?_some found

@[simp] theorem ofValue_str (a : α) : ofValue (.str (text a)) = some a :=
  ofText_text a

theorem eq_str_of_ofValue {value : JsValue} {a : α} (found : ofValue value = some a) :
    value = .str (text a) := by
  cases value with
  | str name => rw [text_of_ofText found]
  | _ => cases found

end JsEnum

@[simp] theorem asSafeInteger_jsInt {n : ℤ} (bound : |n| ≤ JsNumber.maxSafeInteger) :
    (jsInt n).asSafeInteger = some n :=
  JsNumber.safeInteger?_ofRat bound

theorem eq_jsInt_of_asSafeInteger {value : JsValue} {n : ℤ} (found : value.asSafeInteger = some n) :
    value = jsInt n ∧ |n| ≤ JsNumber.maxSafeInteger := by
  cases value with
  | num number =>
      obtain ⟨same, bound⟩ := JsNumber.safeInteger?_eq_some found
      exact ⟨by rw [same, jsInt], bound⟩
  | _ => cases found

/-! Lookups do not depend on the order of distinct keys. -/

theorem getMember_cons (member : JsString × JsValue) (members : List (JsString × JsValue))
    (key : JsString) :
    getMember (member :: members) key =
      if member.1 = key then member.2 else getMember members key := rfl

theorem getMember_of_mem : {members : List (JsString × JsValue)} → {key : JsString} →
    {value : JsValue} → (members.map Prod.fst).Nodup → (key, value) ∈ members →
    getMember members key = value
  | [], _, _, _, present => by simp at present
  | member :: members, key, value, distinct, present => by
      rw [List.map_cons, List.nodup_cons] at distinct
      rw [getMember_cons]
      rcases List.mem_cons.mp present with rfl | present
      · rw [if_pos rfl]
      · have different : member.1 ≠ key := by
          intro same
          exact distinct.1 (same ▸ List.mem_map_of_mem present)
        rw [if_neg different, getMember_of_mem distinct.2 present]

theorem hasMember_iff {members : List (JsString × JsValue)} {key : JsString} :
    hasMember members key = true ↔ key ∈ members.map Prod.fst := by
  simp only [hasMember, List.any_eq_true, decide_eq_true_eq, List.mem_map]

theorem exactKeys_eq (members : List (JsString × JsValue)) (keys : List JsString) :
    exactKeys members keys =
      decide ((members.map Prod.fst).length = keys.length ∧
        ∀ key ∈ keys, key ∈ members.map Prod.fst) := by
  rw [Bool.eq_iff_iff, exactKeys, List.length_map]
  simp only [Bool.and_eq_true, decide_eq_true_eq, List.all_eq_true, hasMember_iff]

theorem exists_mem_of_hasMember {members : List (JsString × JsValue)} {key : JsString}
    (present : hasMember members key = true) : ∃ value, (key, value) ∈ members := by
  obtain ⟨member, inMembers, same⟩ := List.mem_map.mp (hasMember_iff.mp present)
  exact ⟨member.2, by rw [← same]; exact inMembers⟩

variable {first second : List (JsString × JsValue)}

theorem hasMember_perm (perm : first.Perm second) (key : JsString) :
    hasMember first key = hasMember second key := by
  rw [Bool.eq_iff_iff, hasMember_iff, hasMember_iff, (perm.map Prod.fst).mem_iff]

theorem exactKeys_perm (perm : first.Perm second) (keys : List JsString) :
    exactKeys first keys = exactKeys second keys := by
  unfold exactKeys
  rw [perm.length_eq, funext (hasMember_perm perm)]

theorem withoutMember_perm (perm : first.Perm second) (key : JsString) :
    (withoutMember first key).Perm (withoutMember second key) :=
  perm.filter _

/-! How long texts get: bounds for the size limits of files. -/

theorem length_utf8EncodeChar_le (c : Char) : (utf8EncodeChar c).length ≤ 4 := by
  unfold utf8EncodeChar
  split_ifs <;> simp

theorem length_utf8EncodeChar_unit (unit : CodeUnit) :
    (utf8EncodeChar (unitScalar unit)).length ≤ 3 := by
  have small : (unitScalar unit).toNat < 0x10000 := by
    unfold unitScalar
    split_ifs with surrogate
    · decide
    · by_cases valid : unit.toNat.isValidChar
      · rw [Char.ofNat, dif_pos valid]
        exact unit.toNat_lt
      · rw [Char.ofNat, dif_neg valid]
        decide
  unfold utf8EncodeChar
  split_ifs <;> simp

theorem length_utf8Encode_le : (text : JsString) → (utf8Encode text).length ≤ 3 * text.length
  | [] => by simp [utf8Encode, scalars]
  | [unit] => by
      have := length_utf8EncodeChar_unit unit
      simpa [utf8Encode, scalars] using this
  | first :: second :: rest => by
      by_cases pair : (first.isHigh && second.isLow) = true
      · have tail := length_utf8Encode_le rest
        have := length_utf8EncodeChar_le (pairScalar first second)
        rw [utf8Encode] at tail ⊢
        rw [scalars, if_pos pair, List.flatMap_cons, List.length_append]
        simp only [List.length_cons]
        omega
      · have tail := length_utf8Encode_le (second :: rest)
        have := length_utf8EncodeChar_unit first
        rw [utf8Encode] at tail ⊢
        rw [scalars, if_neg pair, List.flatMap_cons, List.length_append]
        simp only [List.length_cons] at tail ⊢
        omega

theorem length_quoteUnit_le (unit : CodeUnit) : (quoteUnit unit).length ≤ 6 := by
  rcases quoteUnit_cases unit with ⟨letter, -, -, same⟩ | same | ⟨same, -⟩
  · rw [same]
    simp
  · rw [same]
    exact le_refl 6
  · rw [same]
    simp

theorem length_quoteUnits_le : (text : JsString) → (quoteUnits text).length ≤ 6 * text.length
  | [] => by simp [quoteUnits]
  | [unit] => length_quoteUnit_le unit
  | first :: second :: rest => by
      by_cases pair : (first.isHigh && second.isLow) = true
      · have tail := length_quoteUnits_le rest
        rw [quoteUnits, if_pos pair]
        simp only [List.length_cons]
        omega
      · have tail := length_quoteUnits_le (second :: rest)
        have := length_quoteUnit_le first
        rw [quoteUnits, if_neg pair, List.length_append]
        simp only [List.length_cons] at tail ⊢
        omega

theorem length_quote_le (text : JsString) : (quote text).length ≤ 6 * text.length + 2 := by
  have := length_quoteUnits_le text
  have quotes : (js "\"").length = 1 := by decide
  rw [quote, List.length_append, List.length_append, quotes]
  omega

theorem length_decimal_le {n digits : ℕ} (bound : n < 10 ^ (digits + 1)) :
    (decimal n).length ≤ digits + 1 := by
  induction digits generalizing n with
  | zero =>
      rw [decimal_of_lt (by omega)]
      simp
  | succ digits ih =>
      by_cases small : n < 10
      · rw [decimal_of_lt small]
        simp
      · rw [decimal_of_ge (by omega), List.length_append, List.length_singleton]
        have := ih (n := n / 10) (by
          rw [Nat.div_lt_iff_lt_mul (by decide)]
          rw [pow_succ] at bound
          exact bound)
        omega

def membersLength (members : List (JsString × JsValue)) : ℕ :=
  (members.map fun member => 6 * member.1.length + 4 + (writeValue member.2).length).sum

theorem length_joinComma_le : (entries : List JsString) →
    (joinComma entries).length ≤ (entries.map fun entry => entry.length + 1).sum
  | [] => by simp [joinComma]
  | [entry] => by simp [joinComma]
  | entry :: next :: entries => by
      have tail := length_joinComma_le (next :: entries)
      have comma : (js ",").length = 1 := by decide
      rw [joinComma_cons, List.length_append, List.length_append, comma]
      simp only [List.map_cons, List.sum_cons] at tail ⊢
      omega

theorem length_writeMembers_le (members : List (JsString × JsValue)) :
    ((writeMembers members).map fun entry => entry.length + 1).sum ≤ membersLength members := by
  induction members with
  | nil => simp [writeMembers, membersLength]
  | cons member members tail =>
      obtain ⟨key, value⟩ := member
      rw [membersLength] at tail
      by_cases absent : value = .undefined
      · rw [absent, writeMembers, membersLength, List.map_cons, List.sum_cons]
        omega
      · have := length_quote_le key
        have colon : (js ":").length = 1 := by decide
        rw [writeMembers, membersLength]
        · simp only [List.map_cons, List.sum_cons, List.length_append, colon]
          omega
        · exact absent

theorem length_writeValue_obj_le (members : List (JsString × JsValue)) :
    (writeValue (.obj members)).length ≤ membersLength members + 2 := by
  have entries := length_writeMembers_le members
  have join := length_joinComma_le (writeMembers members)
  have opening : (js "\x7b").length = 1 := by decide
  have closing : (js "\x7d").length = 1 := by decide
  rw [writeValue, List.length_append, List.length_append, opening, closing]
  omega

theorem membersLength_perm (perm : first.Perm second) :
    membersLength first = membersLength second :=
  (perm.map _).sum_eq

theorem length_writeValue_str_le (text : JsString) :
    (writeValue (.str text)).length ≤ 6 * text.length + 2 :=
  length_quote_le text

theorem length_writeValue_jsInt_le {n : ℕ} (bound : (n : ℤ) ≤ JsNumber.maxSafeInteger) :
    (writeValue (jsInt n)).length ≤ 16 := by
  have small : |(n : ℤ)| ≤ JsNumber.maxSafeInteger := by
    rw [abs_of_nonneg (by omega)]
    exact bound
  obtain ⟨d, same, value⟩ := JsNumber.ofRat_intCast small
  have safe := asSafeInteger_jsInt small
  rw [jsInt, same] at safe ⊢
  have digits := @length_decimal_le n 15 (by
    have : JsNumber.maxSafeInteger = 9007199254740991 := rfl
    omega)
  have text : doubleText d = integerText n := by
    rw [doubleText, show (JsNumber.finite d).safeInteger? = some (n : ℤ) from safe]
  rw [writeValue, numberLiteral, numberToString, text]
  have positive : ¬ (n : ℤ) < 0 := by omega
  simpa [integerText, NumberText.render, NumberText.renderFraction,
    NumberText.renderExponent, positive] using digits

end AshlrHub.Js
