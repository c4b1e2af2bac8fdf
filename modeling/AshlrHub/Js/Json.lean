import AshlrHub.Js.Decimal

namespace AshlrHub.Js

/-! JSON over JavaScript values: `JSON.parse` and `JSON.stringify`. -/

inductive JsValue where
  | undefined
  | null
  | bool (value : Bool)
  | num (value : JsNumber)
  | str (value : JsString)
  | arr (items : List JsValue)
  | obj (members : List (JsString × JsValue))

/-! `JSON.stringify`. -/

def hexDigit (n : ℕ) : CodeUnit :=
  if n < 10 then UInt16.ofNat (0x30 + n) else UInt16.ofNat (0x57 + n)

def unicodeEscape (unit : CodeUnit) : JsString :=
  js "\\u" ++ [hexDigit (unit.toNat / 0x1000), hexDigit (unit.toNat / 0x100 % 0x10),
    hexDigit (unit.toNat / 0x10 % 0x10), hexDigit (unit.toNat % 0x10)]

def quoteUnit (unit : CodeUnit) : JsString :=
  if unit = 0x22 then js "\\\""
  else if unit = 0x5C then js "\\\\"
  else if unit = 0x08 then js "\\b"
  else if unit = 0x0C then js "\\f"
  else if unit = 0x0A then js "\\n"
  else if unit = 0x0D then js "\\r"
  else if unit = 0x09 then js "\\t"
  else if unit.toNat < 0x20 ∨ unit.isSurrogate = true then unicodeEscape unit
  else [unit]

def quoteUnits : JsString → JsString
  | [] => []
  | [unit] => quoteUnit unit
  | first :: second :: rest =>
      if first.isHigh && second.isLow then
        first :: second :: quoteUnits rest
      else
        quoteUnit first ++ quoteUnits (second :: rest)

def quote (text : JsString) : JsString :=
  js "\"" ++ (quoteUnits text ++ js "\"")

def joinComma : List JsString → JsString
  | [] => []
  | [entry] => entry
  | entry :: entries => entry ++ (js "," ++ joinComma entries)

/-- `JSON.stringify` of a number: only finite numbers have a literal. -/
def numberLiteral : JsNumber → JsString
  | .finite d => numberToString (.finite d)
  | _ => js "null"

mutual

/-- The text of a value; `undefined` gets the text it has inside an array. -/
def writeValue : JsValue → JsString
  | .undefined => js "null"
  | .null => js "null"
  | .bool true => js "true"
  | .bool false => js "false"
  | .num number => numberLiteral number
  | .str text => quote text
  | .arr items => js "[" ++ (joinComma (writeItems items) ++ js "]")
  | .obj members => js "\x7b" ++ (joinComma (writeMembers members) ++ js "\x7d")

def writeItems : List JsValue → List JsString
  | [] => []
  | item :: items => writeValue item :: writeItems items

def writeMembers : List (JsString × JsValue) → List JsString
  | [] => []
  | (_, .undefined) :: members => writeMembers members
  | (key, value) :: members => (quote key ++ (js ":" ++ writeValue value)) :: writeMembers members

end

/-- `JSON.stringify`, which has no text for `undefined` itself. -/
def stringify : JsValue → Option JsString
  | .undefined => none
  | value => some (writeValue value)

/-! `JSON.parse`. -/

def isSpace (unit : CodeUnit) : Bool :=
  unit = 0x20 || unit = 0x09 || unit = 0x0A || unit = 0x0D

def skipSpace (text : JsString) : JsString :=
  text.dropWhile isSpace

def hexValue (unit : CodeUnit) : Option ℕ :=
  if 0x30 ≤ unit.toNat ∧ unit.toNat ≤ 0x39 then some (unit.toNat - 0x30)
  else if 0x61 ≤ unit.toNat ∧ unit.toNat ≤ 0x66 then some (unit.toNat - 0x57)
  else if 0x41 ≤ unit.toNat ∧ unit.toNat ≤ 0x46 then some (unit.toNat - 0x37)
  else none

def hexUnit (a b c d : CodeUnit) : Option CodeUnit := do
  let a ← hexValue a
  let b ← hexValue b
  let c ← hexValue c
  let d ← hexValue d
  return UInt16.ofNat (((a * 0x10 + b) * 0x10 + c) * 0x10 + d)

def escapedUnit (letter : CodeUnit) : Option CodeUnit :=
  if letter = 0x22 then some 0x22
  else if letter = 0x5C then some 0x5C
  else if letter = 0x2F then some 0x2F
  else if letter = 0x62 then some 0x08
  else if letter = 0x66 then some 0x0C
  else if letter = 0x6E then some 0x0A
  else if letter = 0x72 then some 0x0D
  else if letter = 0x74 then some 0x09
  else none

/-- Read a string whose opening quote is already taken. -/
def parseString : JsString → Option (JsString × JsString)
  | [] => none
  | unit :: rest =>
      if unit = 0x22 then some ([], rest)
      else if unit = 0x5C then
        match rest with
        | [] => none
        | letter :: rest =>
            if letter = 0x75 then
              match rest with
              | a :: b :: c :: d :: rest =>
                  match hexUnit a b c d, parseString rest with
                  | some unit, some (text, rest) => some (unit :: text, rest)
                  | _, _ => none
              | _ => none
            else
              match escapedUnit letter, parseString rest with
              | some unit, some (text, rest) => some (unit :: text, rest)
              | _, _ => none
      else if unit.toNat < 0x20 then none
      else
        match parseString rest with
        | some (text, rest) => some (unit :: text, rest)
        | none => none

def afterPrefix : JsString → JsString → Option JsString
  | [], text => some text
  | _ :: _, [] => none
  | expected :: front, unit :: text => if expected = unit then afterPrefix front text else none

def parseScalar (text : JsString) : Option (JsValue × JsString) :=
  match afterPrefix (js "null") text with
  | some rest => some (.null, rest)
  | none =>
  match afterPrefix (js "true") text with
  | some rest => some (.bool true, rest)
  | none =>
  match afterPrefix (js "false") text with
  | some rest => some (.bool false, rest)
  | none =>
  match readNumber text with
  | some (number, rest) => some (.num (JsNumber.ofRat number.value), rest)
  | none => none

def setMember (key : JsString) (value : JsValue) :
    List (JsString × JsValue) → List (JsString × JsValue)
  | [] => [(key, value)]
  | member :: members =>
      if member.1 = key then (key, value) :: members
      else member :: setMember key value members

def ofMembers (members : List (JsString × JsValue)) : JsValue :=
  .obj (members.foldl (fun object member => setMember member.1 member.2 object) [])

mutual

def parseValue : ℕ → JsString → Option (JsValue × JsString)
  | 0, _ => none
  | fuel + 1, text =>
      match skipSpace text with
      | 0x22 :: rest =>
          match parseString rest with
          | some (text, rest) => some (.str text, rest)
          | none => none
      | 0x5B :: rest =>
          match skipSpace rest with
          | 0x5D :: rest => some (.arr [], rest)
          | rest =>
              match parseItems fuel rest with
              | some (items, rest) => some (.arr items, rest)
              | none => none
      | 0x7B :: rest =>
          match skipSpace rest with
          | 0x7D :: rest => some (.obj [], rest)
          | rest =>
              match parseMembers fuel rest with
              | some (members, rest) => some (ofMembers members, rest)
              | none => none
      | rest => parseScalar rest
termination_by structural fuel => fuel

def parseItems : ℕ → JsString → Option (List JsValue × JsString)
  | 0, _ => none
  | fuel + 1, text =>
      match parseValue fuel text with
      | none => none
      | some (item, rest) =>
          match skipSpace rest with
          | 0x5D :: rest => some ([item], rest)
          | 0x2C :: rest =>
              match parseItems fuel rest with
              | some (items, rest) => some (item :: items, rest)
              | none => none
          | _ => none
termination_by structural fuel => fuel

def parseMembers : ℕ → JsString → Option (List (JsString × JsValue) × JsString)
  | 0, _ => none
  | fuel + 1, text =>
      match skipSpace text with
      | 0x22 :: rest =>
          match parseString rest with
          | none => none
          | some (key, rest) =>
              match skipSpace rest with
              | 0x3A :: rest =>
                  match parseValue fuel rest with
                  | none => none
                  | some (value, rest) =>
                      match skipSpace rest with
                      | 0x7D :: rest => some ([(key, value)], rest)
                      | 0x2C :: rest =>
                          match parseMembers fuel rest with
                          | some (members, rest) => some ((key, value) :: members, rest)
                          | none => none
                      | _ => none
              | _ => none
      | _ => none
termination_by structural fuel => fuel

end

def parseFuel (text : JsString) : ℕ :=
  2 * text.length + 2

/-- `JSON.parse`; a syntax error is `none`. -/
def parseJson (text : JsString) : Option JsValue :=
  match parseValue (parseFuel text) text with
  | some (value, rest) => if skipSpace rest = [] then some value else none
  | none => none

/-! Values JSON can carry without loss. -/

mutual

/-- A value `JSON.parse` can return: no `undefined`, finite numbers, distinct keys. -/
def JsValue.isJson : JsValue → Bool
  | .undefined => false
  | .null => true
  | .bool _ => true
  | .num (.finite _) => true
  | .num _ => false
  | .str _ => true
  | .arr items => allJson items
  | .obj members => (members.map Prod.fst).Nodup && membersJson members

def allJson : List JsValue → Bool
  | [] => true
  | item :: items => item.isJson && allJson items

def membersJson : List (JsString × JsValue) → Bool
  | [] => true
  | (_, value) :: members => value.isJson && membersJson members

end

/-! Strings read back what quoting wrote. -/

theorem hexDigit_toNat {n : ℕ} (bound : n < 16) :
    hexValue (hexDigit n) = some n := by
  interval_cases n <;> rfl

theorem hexUnit_unicodeEscape (unit : CodeUnit) :
    hexUnit (hexDigit (unit.toNat / 0x1000)) (hexDigit (unit.toNat / 0x100 % 0x10))
      (hexDigit (unit.toNat / 0x10 % 0x10)) (hexDigit (unit.toNat % 0x10)) = some unit := by
  have bound := unit.toNat_lt
  have value : ((unit.toNat / 0x1000 * 0x10 + unit.toNat / 0x100 % 0x10) * 0x10 +
      unit.toNat / 0x10 % 0x10) * 0x10 + unit.toNat % 0x10 = unit.toNat := by omega
  simp only [hexUnit, hexDigit_toNat (show unit.toNat / 0x1000 < 16 by omega),
    hexDigit_toNat (show unit.toNat / 0x100 % 0x10 < 16 by omega),
    hexDigit_toNat (show unit.toNat / 0x10 % 0x10 < 16 by omega),
    hexDigit_toNat (show unit.toNat % 0x10 < 16 by omega), Option.bind_eq_bind,
    Option.bind_some, value, UInt16.ofNat_toNat]
  rfl

def consUnit (unit : CodeUnit) : Option (JsString × JsString) → Option (JsString × JsString)
  | some (text, rest) => some (unit :: text, rest)
  | none => none

variable {unit : CodeUnit}

theorem parseString_plain (notQuote : unit ≠ 0x22) (notBackslash : unit ≠ 0x5C)
    (printable : ¬ unit.toNat < 0x20) (tail : JsString) :
    parseString (unit :: tail) = consUnit unit (parseString tail) := by
  rw [parseString.eq_def]
  dsimp only
  rw [if_neg notQuote, if_neg notBackslash, if_neg printable]
  cases parseString tail <;> rfl

theorem parseString_escape {letter : CodeUnit} (notU : letter ≠ 0x75)
    (escaped : escapedUnit letter = some unit) (tail : JsString) :
    parseString (0x5C :: letter :: tail) = consUnit unit (parseString tail) := by
  rw [parseString.eq_def]
  dsimp only
  rw [if_neg (by decide), if_pos rfl, if_neg notU, escaped]
  cases parseString tail <;> rfl

theorem parseString_unicodeEscape (unit : CodeUnit) (tail : JsString) :
    parseString (unicodeEscape unit ++ tail) = consUnit unit (parseString tail) := by
  change parseString (0x5C :: 0x75 :: _ :: _ :: _ :: _ :: tail) = _
  rw [parseString.eq_def]
  dsimp only
  rw [if_neg (by decide), if_pos rfl, if_pos rfl, hexUnit_unicodeEscape]
  cases parseString tail <;> rfl

def shortEscapes : JsString := [0x22, 0x5C, 0x62, 0x66, 0x6E, 0x72, 0x74]

/-- A unit is written as a letter behind a backslash, as its digits, or as itself. -/
theorem quoteUnit_cases (unit : CodeUnit) :
    (∃ letter ∈ shortEscapes, escapedUnit letter = some unit ∧ quoteUnit unit = [0x5C, letter]) ∨
      quoteUnit unit = unicodeEscape unit ∨
      (quoteUnit unit = [unit] ∧ unit ≠ 0x22 ∧ unit ≠ 0x5C ∧
        ¬ (unit.toNat < 0x20 ∨ unit.isSurrogate = true)) := by
  by_cases short : unit ∈ ([0x22, 0x5C, 0x08, 0x0C, 0x0A, 0x0D, 0x09] : JsString)
  · simp only [List.mem_cons, List.not_mem_nil, or_false] at short
    rcases short with rfl | rfl | rfl | rfl | rfl | rfl | rfl <;> left <;>
      refine ⟨_, ?_, ?_, rfl⟩ <;> decide
  · simp only [List.mem_cons, not_or] at short
    obtain ⟨quote, backslash, backspace, formFeed, newline, return', tab, -⟩ := short
    rw [quoteUnit, if_neg quote, if_neg backslash, if_neg backspace, if_neg formFeed,
      if_neg newline, if_neg return', if_neg tab]
    by_cases special : unit.toNat < 0x20 ∨ unit.isSurrogate = true
    · exact .inr (.inl (if_pos special))
    · exact .inr (.inr ⟨if_neg special, quote, backslash, special⟩)

theorem parseString_quoteUnit (unit : CodeUnit) (tail : JsString) :
    parseString (quoteUnit unit ++ tail) = consUnit unit (parseString tail) := by
  rcases quoteUnit_cases unit with
    ⟨letter, short, escaped, same⟩ | same | ⟨same, quote, backslash, plain⟩
  · have notU : letter ≠ 0x75 := ne_of_mem_of_not_mem short (by decide)
    rw [same]
    exact parseString_escape notU escaped tail
  · rw [same]
    exact parseString_unicodeEscape unit tail
  · rw [same]
    exact parseString_plain quote backslash (fun small => plain (.inl small)) tail

theorem parseString_surrogate (surrogate : unit.isSurrogate = true) (tail : JsString) :
    parseString (unit :: tail) = consUnit unit (parseString tail) := by
  have range : 0xD800 ≤ unit.toNat := by
    simp only [CodeUnit.isSurrogate, CodeUnit.isHigh, CodeUnit.isLow, Bool.or_eq_true,
      Bool.and_eq_true, decide_eq_true_eq] at surrogate
    omega
  apply parseString_plain
  · rintro rfl
    exact absurd range (by decide)
  · rintro rfl
    exact absurd range (by decide)
  · omega

theorem parseString_close (rest : JsString) :
    parseString (0x22 :: rest) = some ([], rest) := by
  rw [parseString.eq_def]
  simp

theorem parseString_quoteUnits : (text rest : JsString) →
    parseString (quoteUnits text ++ (0x22 :: rest)) = some (text, rest)
  | [], rest => parseString_close rest
  | [unit], rest => by
      rw [quoteUnits, parseString_quoteUnit, parseString_close]
      rfl
  | first :: second :: text, rest => by
      rw [quoteUnits]
      split_ifs with pair
      · simp only [Bool.and_eq_true] at pair
        have firstSurrogate : first.isSurrogate = true := by simp [CodeUnit.isSurrogate, pair.1]
        have secondSurrogate : second.isSurrogate = true := by
          simp [CodeUnit.isSurrogate, pair.2]
        rw [List.cons_append, List.cons_append, parseString_surrogate firstSurrogate,
          parseString_surrogate secondSurrogate, parseString_quoteUnits text rest]
        rfl
      · rw [List.append_assoc, parseString_quoteUnit, parseString_quoteUnits (second :: text) rest]
        rfl

/-! Where the text of a value starts. -/

def StartsValue (unit : CodeUnit) : Prop :=
  isSpace unit = false ∧ unit ≠ 0x5D ∧ unit ≠ 0x7D

theorem skipSpace_cons (starts : isSpace unit = false) (rest : JsString) :
    skipSpace (unit :: rest) = unit :: rest := by
  simp [skipSpace, starts]

theorem isDigit_starts (digit : isDigit unit = true) :
    StartsValue unit := by
  simp only [isDigit, Bool.and_eq_true, decide_eq_true_eq] at digit
  refine ⟨?_, ?_, ?_⟩
  · simp only [isSpace, Bool.or_eq_false_iff, decide_eq_false_iff_not]
    refine ⟨⟨⟨?_, ?_⟩, ?_⟩, ?_⟩ <;> rintro rfl <;> exact absurd digit (by decide)
  all_goals
    rintro rfl
    exact absurd digit (by decide)

theorem numberToString_head (d : Double) :
    ∃ unit text, numberToString (.finite d) = unit :: text ∧
      (unit = 0x2D ∨ isDigit unit = true) := by
  have valid := doubleText_valid d
  rw [numberToString, NumberText.render]
  cases negative : (doubleText d).negative with
  | true => exact ⟨0x2D, _, rfl, .inl rfl⟩
  | false =>
      cases whole : (doubleText d).whole with
      | nil => exact absurd whole valid.whole_ne_nil
      | cons unit digits => exact ⟨unit, _, rfl, .inr (valid.whole_digits unit (by simp [whole]))⟩

theorem startsValue_of_number (head : unit = 0x2D ∨ isDigit unit = true) :
    StartsValue unit := by
  rcases head with rfl | digit
  · exact ⟨by decide, by decide, by decide⟩
  · exact isDigit_starts digit

theorem writeValue_head : (value : JsValue) →
    ∃ unit text, writeValue value = unit :: text ∧ StartsValue unit
  | .undefined | .null => ⟨0x6E, js "ull", rfl, by decide, by decide, by decide⟩
  | .bool true => ⟨0x74, js "rue", rfl, by decide, by decide, by decide⟩
  | .bool false => ⟨0x66, js "alse", rfl, by decide, by decide, by decide⟩
  | .num (.finite d) => by
      obtain ⟨unit, text, same, head⟩ := numberToString_head d
      exact ⟨unit, text, same, startsValue_of_number head⟩
  | .num .nan | .num (.infinity _) => ⟨0x6E, js "ull", rfl, by decide, by decide, by decide⟩
  | .str _ => ⟨0x22, _, rfl, by decide, by decide, by decide⟩
  | .arr _ => ⟨0x5B, _, rfl, by decide, by decide, by decide⟩
  | .obj _ => ⟨0x7B, _, rfl, by decide, by decide, by decide⟩

/-! Scalars read back. -/

theorem afterPrefix_ne {expected : CodeUnit} (different : unit ≠ expected) (front text : JsString) :
    afterPrefix (expected :: front) (unit :: text) = none := by
  rw [afterPrefix, if_neg different.symm]

variable {rest : JsString}

theorem parseScalar_number (d : Double) (ends : EndsNumber rest) :
    parseScalar (numberToString (.finite d) ++ rest) = some (.num (.finite d), rest) := by
  obtain ⟨text, reads, value⟩ := readNumber_numberToString d ends
  obtain ⟨unit, tail, same, head⟩ := numberToString_head d
  have notLetter : unit ≠ 0x6E ∧ unit ≠ 0x74 ∧ unit ≠ 0x66 := by
    refine ⟨?_, ?_, ?_⟩ <;> rintro rfl <;> rcases head with bad | bad <;>
      exact absurd bad (by decide)
  have letters : afterPrefix (js "null") (numberToString (.finite d) ++ rest) = none ∧
      afterPrefix (js "true") (numberToString (.finite d) ++ rest) = none ∧
      afterPrefix (js "false") (numberToString (.finite d) ++ rest) = none := by
    rw [same]
    exact ⟨afterPrefix_ne notLetter.1 _ _, afterPrefix_ne notLetter.2.1 _ _,
      afterPrefix_ne notLetter.2.2 _ _⟩
  simp only [parseScalar, letters, reads, value]

theorem parseString_quote (text rest : JsString) :
    parseString (quoteUnits text ++ (js "\"" ++ rest)) = some (text, rest) :=
  parseString_quoteUnits text rest

/-! Objects with distinct keys keep their members as read. -/

theorem setMember_fresh {key : JsString} (value : JsValue) :
    {members : List (JsString × JsValue)} → key ∉ members.map Prod.fst →
    setMember key value members = members ++ [(key, value)]
  | [], _ => rfl
  | member :: members, fresh => by
      simp only [List.map_cons, List.mem_cons, not_or] at fresh
      rw [setMember, if_neg (Ne.symm fresh.1), setMember_fresh value fresh.2, List.cons_append]

theorem foldl_setMember : (members front : List (JsString × JsValue)) →
    ((front ++ members).map Prod.fst).Nodup →
    members.foldl (fun object member => setMember member.1 member.2 object) front = front ++ members
  | [], front, _ => by simp
  | member :: members, front, distinct => by
      have fresh : member.1 ∉ front.map Prod.fst := by
        rw [List.map_append, List.map_cons, List.nodup_append] at distinct
        intro present
        exact distinct.2.2 _ present _ (List.mem_cons_self) rfl
      rw [List.foldl_cons, setMember_fresh member.2 fresh]
      have moved : front ++ [(member.1, member.2)] ++ members = front ++ member :: members := by
        simp
      rw [foldl_setMember members _ (by rwa [moved]), moved]

theorem ofMembers_of_nodup {members : List (JsString × JsValue)}
    (distinct : (members.map Prod.fst).Nodup) : ofMembers members = .obj members := by
  rw [ofMembers, foldl_setMember members [] (by simpa using distinct), List.nil_append]

/-! Values read back what writing them gave. -/

theorem endsNumber_of_ne (notDigit : isDigit unit = false)
    (others : unit ≠ 0x2E ∧ unit ≠ 0x65 ∧ unit ≠ 0x45) (rest : JsString) :
    EndsNumber (unit :: rest) := by
  intro other member
  simp only [List.head?_cons, Option.mem_def, Option.some.injEq] at member
  exact member ▸ ⟨notDigit, others⟩

theorem endsNumber_comma (rest : JsString) : EndsNumber (0x2C :: rest) :=
  endsNumber_of_ne (by decide) (by decide) rest

theorem endsNumber_bracket (rest : JsString) : EndsNumber (0x5D :: rest) :=
  endsNumber_of_ne (by decide) (by decide) rest

theorem endsNumber_brace (rest : JsString) : EndsNumber (0x7D :: rest) :=
  endsNumber_of_ne (by decide) (by decide) rest

theorem endsNumber_nil : EndsNumber [] := by
  simp [EndsNumber]

theorem joinComma_cons (entry next : JsString) (entries : List JsString) :
    joinComma (entry :: next :: entries) = entry ++ (js "," ++ joinComma (next :: entries)) :=
  rfl

variable {text : JsString}

theorem joinComma_head {entry : JsString} (same : entry = unit :: text) (entries : List JsString) :
    ∃ tail, joinComma (entry :: entries) = unit :: tail := by
  cases entries with
  | nil => exact ⟨text, same⟩
  | cons next entries => exact ⟨_, by rw [joinComma_cons, same, List.cons_append]⟩

variable {fuel : ℕ}

theorem parseValue_scalar (starts : isSpace unit = false) (notQuote : unit ≠ 0x22)
    (notBracket : unit ≠ 0x5B) (notBrace : unit ≠ 0x7B) :
    parseValue (fuel + 1) (unit :: text) = parseScalar (unit :: text) := by
  rw [parseValue, skipSpace_cons starts]
  split
  · next same => exact absurd (List.cons.inj same).1 notQuote
  · next same => exact absurd (List.cons.inj same).1 notBracket
  · next same => exact absurd (List.cons.inj same).1 notBrace
  · rfl

theorem parseValue_string (fuel : ℕ) (text rest : JsString) :
    parseValue (fuel + 1) (quote text ++ rest) = some (.str text, rest) := by
  have read : parseString (quoteUnits text ++ js "\"" ++ rest) = some (text, rest) := by
    rw [List.append_assoc, parseString_quote]
  change parseValue (fuel + 1) (0x22 :: (quoteUnits text ++ js "\"" ++ rest)) = _
  rw [parseValue, skipSpace_cons (by decide)]
  simp only [read]

theorem parseValue_array (starts : StartsValue unit) :
    parseValue (fuel + 1) (0x5B :: unit :: text) =
      match parseItems fuel (unit :: text) with
      | some (items, rest) => some (.arr items, rest)
      | none => none := by
  rw [parseValue, skipSpace_cons (by decide)]
  simp only [skipSpace_cons starts.1]
  split
  · next same => exact absurd (List.cons.inj same).1 starts.2.1
  · rfl

theorem parseValue_object (starts : StartsValue unit) :
    parseValue (fuel + 1) (0x7B :: unit :: text) =
      match parseMembers fuel (unit :: text) with
      | some (members, rest) => some (ofMembers members, rest)
      | none => none := by
  rw [parseValue, skipSpace_cons (by decide)]
  simp only [skipSpace_cons starts.1]
  split
  · next same => exact absurd (List.cons.inj same).1 starts.2.2
  · rfl

variable {value : JsValue}

theorem writeMembers_cons (json : value.isJson = true) (key : JsString)
    (members : List (JsString × JsValue)) :
    writeMembers ((key, value) :: members) =
      (quote key ++ (js ":" ++ writeValue value)) :: writeMembers members := by
  cases value with
  | undefined => cases json
  | _ => rfl

theorem quote_eq (text : JsString) : quote text = 0x22 :: (quoteUnits text ++ js "\"") := rfl

theorem parseItems_last {item : JsValue}
    (read : parseValue fuel (text ++ (0x5D :: rest)) = some (item, 0x5D :: rest)) :
    parseItems (fuel + 1) (text ++ (0x5D :: rest)) = some ([item], rest) := by
  simp only [parseItems, read, skipSpace_cons (show isSpace 0x5D = false by decide)]

variable {tail : JsString}

theorem parseItems_next {item : JsValue} {items : List JsValue}
    (read : parseValue fuel (text ++ (0x2C :: tail)) = some (item, 0x2C :: tail))
    (others : parseItems fuel tail = some (items, rest)) :
    parseItems (fuel + 1) (text ++ (0x2C :: tail)) = some (item :: items, rest) := by
  simp only [parseItems, read, skipSpace_cons (show isSpace 0x2C = false by decide), others]

theorem parseMembers_step {key : JsString} :
    parseMembers (fuel + 1) (quote key ++ (0x3A :: tail)) =
      match parseValue fuel tail with
      | none => none
      | some (value, rest) =>
          match skipSpace rest with
          | 0x7D :: rest => some ([(key, value)], rest)
          | 0x2C :: rest =>
              match parseMembers fuel rest with
              | some (members, rest) => some ((key, value) :: members, rest)
              | none => none
          | _ => none := by
  have read : parseString (quoteUnits key ++ js "\"" ++ (0x3A :: tail)) =
      some (key, 0x3A :: tail) := by
    rw [List.append_assoc, parseString_quote]
  rw [quote_eq, List.cons_append, parseMembers, skipSpace_cons (by decide)]
  simp only [read, skipSpace_cons (show isSpace 0x3A = false by decide)]

theorem parseMembers_last (key : JsString)
    (read : parseValue fuel (text ++ (0x7D :: rest)) = some (value, 0x7D :: rest)) :
    parseMembers (fuel + 1) (quote key ++ (js ":" ++ text) ++ (0x7D :: rest)) =
      some ([(key, value)], rest) := by
  have shape : quote key ++ (js ":" ++ text) ++ (0x7D :: rest) =
      quote key ++ (0x3A :: (text ++ (0x7D :: rest))) := by
    rw [List.append_assoc, List.append_assoc]
    rfl
  rw [shape, parseMembers_step, read]
  simp only [skipSpace_cons (show isSpace 0x7D = false by decide)]

theorem parseMembers_next (key : JsString) {members : List (JsString × JsValue)}
    (read : parseValue fuel (text ++ (0x2C :: tail)) = some (value, 0x2C :: tail))
    (others : parseMembers fuel tail = some (members, rest)) :
    parseMembers (fuel + 1) (quote key ++ (js ":" ++ text) ++ (0x2C :: tail)) =
      some ((key, value) :: members, rest) := by
  have shape : quote key ++ (js ":" ++ text) ++ (0x2C :: tail) =
      quote key ++ (0x3A :: (text ++ (0x2C :: tail))) := by
    rw [List.append_assoc, List.append_assoc]
    rfl
  rw [shape, parseMembers_step, read]
  simp only [skipSpace_cons (show isSpace 0x2C = false by decide), others]

mutual

theorem parseValue_writeValue : (value : JsValue) → value.isJson = true → ∀ fuel : ℕ,
    2 * (writeValue value).length ≤ fuel → ∀ rest : JsString, EndsNumber rest →
    parseValue fuel (writeValue value ++ rest) = some (value, rest)
  | .undefined, json, _, _, _, _ => by cases json
  | .null, _, fuel + 1, _, rest, _ =>
      parseValue_scalar (by decide) (by decide) (by decide) (by decide)
  | .bool true, _, fuel + 1, _, rest, _ =>
      parseValue_scalar (by decide) (by decide) (by decide) (by decide)
  | .bool false, _, fuel + 1, _, rest, _ =>
      parseValue_scalar (by decide) (by decide) (by decide) (by decide)
  | .num .nan, json, _, _, _, _ => by cases json
  | .num (.infinity _), json, _, _, _, _ => by cases json
  | .num (.finite d), _, fuel, enough, rest, ends => by
      obtain ⟨unit, text, same, head⟩ := numberToString_head d
      have scalar := parseScalar_number d ends
      rw [writeValue, numberLiteral] at enough ⊢
      rw [same] at enough scalar ⊢
      rw [List.length_cons] at enough
      obtain ⟨fuel, rfl⟩ : ∃ n, fuel = n + 1 := ⟨fuel - 1, by omega⟩
      have notQuote : unit ≠ 0x22 ∧ unit ≠ 0x5B ∧ unit ≠ 0x7B := by
        refine ⟨?_, ?_, ?_⟩ <;> rintro rfl <;> rcases head with bad | bad <;>
          exact absurd bad (by decide)
      rw [List.cons_append] at scalar ⊢
      rw [parseValue_scalar (startsValue_of_number head).1 notQuote.1 notQuote.2.1
        notQuote.2.2, scalar]
  | .str text, _, fuel, enough, rest, _ => by
      rw [writeValue] at enough ⊢
      rw [quote_eq, List.length_cons] at enough
      obtain ⟨fuel, rfl⟩ : ∃ n, fuel = n + 1 := ⟨fuel - 1, by omega⟩
      exact parseValue_string fuel text rest
  | .arr [], _, fuel + 1, _, rest, _ => by
      change parseValue (fuel + 1) (0x5B :: 0x5D :: rest) = _
      rw [parseValue, skipSpace_cons (by decide)]
      simp only [skipSpace_cons (show isSpace 0x5D = false by decide)]
  | .arr (item :: items), json, fuel, enough, rest, _ => by
      obtain ⟨unit, text, head, starts⟩ := writeValue_head item
      obtain ⟨tail, joined⟩ := joinComma_head head (writeItems items)
      rw [writeValue, List.length_append, List.length_append] at enough
      have lengths : (js "[").length = 1 ∧ (js "]").length = 1 := by decide
      obtain ⟨fuel, rfl⟩ : ∃ n, fuel = n + 1 := ⟨fuel - 1, by omega⟩
      have read := parseItems_writeItems (item :: items) json (by simp) fuel (by omega) rest
      rw [writeItems] at read
      have shape : writeValue (.arr (item :: items)) ++ rest =
          0x5B :: (joinComma (writeValue item :: writeItems items) ++ (0x5D :: rest)) := by
        rw [writeValue, writeItems, List.append_assoc, List.append_assoc]
        rfl
      rw [joined, List.cons_append] at read shape
      rw [shape, parseValue_array starts, read]
  | .obj [], _, fuel + 1, _, rest, _ => by
      change parseValue (fuel + 1) (0x7B :: 0x7D :: rest) = _
      rw [parseValue, skipSpace_cons (by decide)]
      simp only [skipSpace_cons (show isSpace 0x7D = false by decide)]
  | .obj ((key, value) :: members), json, fuel, enough, rest, _ => by
      simp only [JsValue.isJson, Bool.and_eq_true, decide_eq_true_eq] at json
      have valueJson : value.isJson = true := by
        have := json.2
        simp only [membersJson, Bool.and_eq_true] at this
        exact this.1
      obtain ⟨tail, joined⟩ := joinComma_head
        (show quote key ++ (js ":" ++ writeValue value) = 0x22 :: _ from rfl)
        (writeMembers members)
      rw [writeValue, List.length_append, List.length_append] at enough
      have lengths : (js "\x7b").length = 1 ∧ (js "\x7d").length = 1 := by decide
      obtain ⟨fuel, rfl⟩ : ∃ n, fuel = n + 1 := ⟨fuel - 1, by omega⟩
      have read := parseMembers_writeMembers ((key, value) :: members) json.2 (by simp)
        fuel (by omega) rest
      rw [writeMembers_cons valueJson] at read
      have shape : writeValue (.obj ((key, value) :: members)) ++ rest =
          0x7B :: (joinComma ((quote key ++ (js ":" ++ writeValue value)) ::
            writeMembers members) ++ (0x7D :: rest)) := by
        rw [writeValue, writeMembers_cons valueJson, List.append_assoc, List.append_assoc]
        rfl
      rw [joined, List.cons_append] at read shape
      rw [shape, parseValue_object ⟨by decide, by decide, by decide⟩, read]
      simp only [ofMembers_of_nodup json.1]

theorem parseItems_writeItems : (items : List JsValue) → allJson items = true →
    items ≠ [] → ∀ fuel : ℕ, 2 * (joinComma (writeItems items)).length + 1 ≤ fuel →
    ∀ rest : JsString,
    parseItems fuel (joinComma (writeItems items) ++ (0x5D :: rest)) = some (items, rest)
  | [], _, nonempty, _, _, _ => absurd rfl nonempty
  | [item], json, _, fuel + 1, enough, rest => by
      simp only [allJson, Bool.and_eq_true] at json
      simp only [writeItems, joinComma] at enough ⊢
      exact parseItems_last (parseValue_writeValue item json.1 fuel (by omega) _
        (endsNumber_bracket rest))
  | item :: next :: items, json, _, fuel + 1, enough, rest => by
      rw [allJson, Bool.and_eq_true] at json
      have comma : (js ",").length = 1 := by decide
      rw [writeItems, writeItems, joinComma_cons, List.length_append, List.length_append] at enough
      have others := parseItems_writeItems (next :: items) json.2 (by simp) fuel
        (by rw [writeItems]; omega) rest
      rw [writeItems] at others
      rw [writeItems, writeItems, joinComma_cons, List.append_assoc, List.append_assoc]
      exact parseItems_next (parseValue_writeValue item json.1 fuel (by omega) _
        (endsNumber_comma _)) others

theorem parseMembers_writeMembers : (members : List (JsString × JsValue)) →
    membersJson members = true → members ≠ [] → ∀ fuel : ℕ,
    2 * (joinComma (writeMembers members)).length + 1 ≤ fuel → ∀ rest : JsString,
    parseMembers fuel (joinComma (writeMembers members) ++ (0x7D :: rest)) = some (members, rest)
  | [], _, nonempty, _, _, _ => absurd rfl nonempty
  | [(key, value)], json, _, fuel + 1, enough, rest => by
      simp only [membersJson, Bool.and_eq_true] at json
      simp only [writeMembers_cons json.1, writeMembers, joinComma, List.length_append] at enough ⊢
      exact parseMembers_last key (parseValue_writeValue value json.1 fuel (by omega) _
        (endsNumber_brace rest))
  | (key, value) :: (nextKey, next) :: members, json, _, fuel + 1, enough, rest => by
      rw [membersJson, Bool.and_eq_true] at json
      have nextJson : next.isJson = true := by
        have := json.2
        simp only [membersJson, Bool.and_eq_true] at this
        exact this.1
      have comma : (js ",").length = 1 := by decide
      rw [writeMembers_cons json.1, writeMembers_cons nextJson, joinComma_cons,
        List.length_append, List.length_append, List.length_append, List.length_append]
        at enough
      have others := parseMembers_writeMembers ((nextKey, next) :: members) json.2 (by simp)
        fuel (by rw [writeMembers_cons nextJson]; omega) rest
      rw [writeMembers_cons nextJson] at others
      have read := parseMembers_next key (parseValue_writeValue value json.1
        fuel (by omega) _ (endsNumber_comma _)) others
      rw [writeMembers_cons json.1, writeMembers_cons nextJson, joinComma_cons,
        List.append_assoc _ (js "," ++ _), List.append_assoc (js ",")]
      exact read

end

/-- `JSON.parse` inverts `JSON.stringify` on the values JSON can carry; space may follow. -/
theorem parseJson_writeValue_append (json : value.isJson = true) (ends : EndsNumber rest)
    (space : skipSpace rest = []) :
    parseJson (writeValue value ++ rest) = some value := by
  have read := parseValue_writeValue value json (parseFuel (writeValue value ++ rest))
    (by rw [parseFuel, List.length_append]; omega) rest ends
  rw [parseJson, read]
  simp [space]

theorem parseJson_writeValue (json : value.isJson = true) :
    parseJson (writeValue value) = some value := by
  have read := parseJson_writeValue_append json endsNumber_nil rfl
  rwa [List.append_nil] at read

example : (parseJson (js "\x7b\"a\": null, \"a\": []\x7d")).bind stringify =
    some (js "\x7b\"a\":[]\x7d") := by
  decide +kernel

/-! Written texts are well-formed and hold no control characters. -/

structure Printable (text : JsString) : Prop where
  formed : wellFormed text = true
  noControl : ∀ unit ∈ text, 0x20 ≤ unit.toNat

theorem Printable.append {front back : JsString} (first : Printable front)
    (second : Printable back) : Printable (front ++ back) where
  formed := wellFormed_append first.formed second.formed
  noControl unit member := (List.mem_append.mp member).elim
    (first.noControl unit) (second.noControl unit)

theorem printable_of_range (range : ∀ unit ∈ text, 0x20 ≤ unit.toNat ∧ unit.toNat < 0x80) :
    Printable text where
  formed := wellFormed_of_scalar fun unit member => by
    have := range unit member
    exact CodeUnit.isSurrogate_eq_false.mpr (by omega)
  noControl unit member := (range unit member).1

theorem printable_of_all
    (range : (text.all fun unit => 0x20 ≤ unit.toNat && unit.toNat < 0x80) = true) :
    Printable text :=
  printable_of_range fun unit member => by
    have := List.all_eq_true.mp range unit member
    simpa only [Bool.and_eq_true, decide_eq_true_eq] using this

theorem printable_nil : Printable [] := ⟨rfl, by simp⟩

theorem printable_digits {digits : JsString} (allDigits : ∀ unit ∈ digits, isDigit unit = true) :
    Printable digits :=
  printable_of_range fun unit member => by
    have := allDigits unit member
    simp only [isDigit, Bool.and_eq_true, decide_eq_true_eq] at this
    omega

theorem printable_render {text : NumberText} (valid : text.Valid) :
    Printable text.render := by
  unfold NumberText.render NumberText.renderFraction NumberText.renderExponent
  refine .append ?_ (.append (printable_digits valid.whole_digits) (.append ?_ ?_))
  · split_ifs
    · exact printable_of_all (by decide)
    · exact printable_nil
  · split_ifs
    · exact printable_nil
    · exact .append (printable_of_all (by decide)) (printable_digits valid.fraction_digits)
  · split
    · exact printable_nil
    all_goals
      next digits same =>
        exact .append (printable_of_all (by decide))
          (printable_digits (valid.exponent_digits _ digits same).2)

theorem hexDigit_range {n : ℕ} (bound : n < 16) :
    0x20 ≤ (hexDigit n).toNat ∧ (hexDigit n).toNat < 0x80 := by
  interval_cases n <;> decide

theorem printable_unicodeEscape (unit : CodeUnit) : Printable (unicodeEscape unit) := by
  have bound := unit.toNat_lt
  refine .append (printable_of_all (by decide)) (printable_of_range ?_)
  simp only [List.mem_cons, List.not_mem_nil, or_false]
  rintro digit (rfl | rfl | rfl | rfl) <;> exact hexDigit_range (by omega)

theorem printable_quoteUnit (unit : CodeUnit) : Printable (quoteUnit unit) := by
  rcases quoteUnit_cases unit with ⟨letter, short, -, same⟩ | same | ⟨same, -, -, special⟩
  · have range : (shortEscapes.all fun letter =>
        [0x5C, letter].all fun unit => 0x20 ≤ unit.toNat && unit.toNat < 0x80) = true := by decide
    exact same ▸ printable_of_all (List.all_eq_true.mp range letter short)
  · exact same ▸ printable_unicodeEscape unit
  · rw [same]
    simp only [not_or, Bool.not_eq_true] at special
    exact ⟨by simp [wellFormed, special.2], by simpa using special.1⟩

theorem printable_quoteUnits : (text : JsString) → Printable (quoteUnits text)
  | [] => printable_nil
  | [unit] => printable_quoteUnit unit
  | first :: second :: text => by
      rw [quoteUnits]
      split_ifs with pair
      · have formed : wellFormed [first, second] = true := by simp [wellFormed, pair]
        have high : ∀ unit ∈ [first, second], 0x20 ≤ unit.toNat := by
          simp only [Bool.and_eq_true, CodeUnit.isHigh, CodeUnit.isLow, decide_eq_true_eq] at pair
          simp only [List.mem_cons, List.not_mem_nil, or_false]
          rintro unit (rfl | rfl) <;> omega
        exact Printable.append ⟨formed, high⟩ (printable_quoteUnits text)
      · exact .append (printable_quoteUnit first) (printable_quoteUnits (second :: text))

theorem printable_quote (text : JsString) : Printable (quote text) :=
  .append (printable_of_all (by decide))
    (.append (printable_quoteUnits text) (printable_of_all (by decide)))

theorem printable_joinComma : {entries : List JsString} →
    (∀ entry ∈ entries, Printable entry) → Printable (joinComma entries)
  | [], _ => printable_nil
  | [entry], printable => printable entry (by simp)
  | entry :: next :: entries, printable =>
      .append (printable entry (by simp)) (.append (printable_of_all (by decide))
        (printable_joinComma fun other member => printable other (List.mem_cons_of_mem _ member)))

theorem printable_numberLiteral (number : JsNumber) : Printable (numberLiteral number) := by
  cases number with
  | nan => exact printable_of_all (by decide)
  | infinity _ =>
      change Printable (js "null")
      exact printable_of_all (by decide)
  | finite d => exact printable_render (doubleText_valid d)

mutual

theorem printable_writeValue : (value : JsValue) → Printable (writeValue value)
  | .undefined | .null | .bool true | .bool false => printable_of_all (by decide)
  | .num number => printable_numberLiteral number
  | .str text => printable_quote text
  | .arr items =>
      .append (printable_of_all (by decide))
        (.append (printable_joinComma (printable_writeItems items)) (printable_of_all (by decide)))
  | .obj members =>
      .append (printable_of_all (by decide))
        (.append (printable_joinComma (printable_writeMembers members))
          (printable_of_all (by decide)))

theorem printable_writeItems : (items : List JsValue) →
    ∀ entry ∈ writeItems items, Printable entry
  | [], _, member => by simp [writeItems] at member
  | item :: items, entry, member => by
      rcases List.mem_cons.mp member with rfl | tail
      · exact printable_writeValue item
      · exact printable_writeItems items entry tail

theorem printable_writeMembers : (members : List (JsString × JsValue)) →
    ∀ entry ∈ writeMembers members, Printable entry
  | [], _, member => by simp [writeMembers] at member
  | (key, value) :: members, entry, member => by
      have tail := printable_writeMembers members entry
      have colon : Printable (js ":") := printable_of_all (by decide)
      have head := (printable_quote key).append (colon.append (printable_writeValue value))
      by_cases absent : value = .undefined
      · rw [absent, writeMembers] at member
        exact tail member
      · rw [writeMembers] at member
        · rcases List.mem_cons.mp member with rfl | member
          · exact head
          · exact tail member
        · exact absent

end

theorem utf8Decode_writeValue (value : JsValue) :
    utf8Decode (utf8Encode (writeValue value)) = writeValue value :=
  utf8Decode_utf8Encode (printable_writeValue value).formed

theorem newline_notMem_writeValue (value : JsValue) :
    (0x0A : UInt8) ∉ utf8Encode (writeValue value) := by
  intro member
  obtain ⟨unit, present, same⟩ := mem_of_mem_utf8Encode member (by decide)
  have := (printable_writeValue value).noControl unit present
  have newline : (0x0A : UInt8).toNat = 10 := rfl
  omega

end AshlrHub.Js
