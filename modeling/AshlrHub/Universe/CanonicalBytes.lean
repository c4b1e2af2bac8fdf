import AshlrHub.Js.Plain
import AshlrHub.Universe.Artifacts

namespace AshlrHub.Artifacts

open Js

/-! How many bytes the canonical text of a value takes.  The order of the keys does not matter. -/

/-- `Buffer.byteLength(canonical(value))` -/
def canonicalBytes (keysInOrder : JsString → JsString → Bool) (value : JsValue) : ℕ :=
  (utf8Encode (canonical keysInOrder value)).length

def memberSize (keysInOrder : JsString → JsString → Bool) (member : JsString × JsValue) : ℕ :=
  (utf8Encode (quote member.1)).length + canonicalBytes keysInOrder member.2 + 2

section

variable {keysInOrder : JsString → JsString → Bool}

theorem canonicalItems_eq (items : List JsValue) :
    canonicalItems keysInOrder items = items.map (canonical keysInOrder) := by
  induction items with
  | nil => rfl
  | cons item items ih => rw [canonicalItems, ih, List.map_cons]

theorem canonicalMembers_eq (members : List (JsString × JsValue)) :
    canonicalMembers keysInOrder members =
      members.map fun member => (member.1, canonical keysInOrder member.2) := by
  induction members with
  | nil => rfl
  | cons member members ih => rw [canonicalMembers, ih, List.map_cons]

theorem wellFormed_member {member : JsString × JsString} (formed : wellFormed member.2 = true) :
    wellFormed (quote member.1 ++ (js ":" ++ member.2)) = true :=
  wellFormed_append (printable_quote member.1).formed (wellFormed_append (by decide) formed)

mutual

theorem wellFormed_canonical : (value : JsValue) →
    wellFormed (canonical keysInOrder value) = true
  | .undefined | .null | .bool true | .bool false => rfl
  | .num number => (printable_numberLiteral number).formed
  | .str text => (printable_quote text).formed
  | .arr items =>
      wellFormed_append (by decide)
        (wellFormed_append (wellFormed_joinComma (wellFormed_canonicalItems items)) (by decide))
  | .obj members => by
      rw [canonical]
      refine wellFormed_append (by decide)
        (wellFormed_append (wellFormed_joinComma fun entry present => ?_) (by decide))
      obtain ⟨member, sorted, rfl⟩ := List.mem_map.mp present
      rw [List.mem_insertionSort] at sorted
      exact wellFormed_member (wellFormed_canonicalMembers members member sorted)

theorem wellFormed_canonicalItems : (items : List JsValue) →
    ∀ entry ∈ canonicalItems keysInOrder items, wellFormed entry = true
  | [], _, present => by cases present
  | item :: items, entry, present => by
      rw [canonicalItems, List.mem_cons] at present
      obtain rfl | later := present
      · exact wellFormed_canonical item
      · exact wellFormed_canonicalItems items entry later

theorem wellFormed_canonicalMembers : (members : List (JsString × JsValue)) →
    ∀ member ∈ canonicalMembers keysInOrder members, wellFormed member.2 = true
  | [], _, present => by cases present
  | (key, value) :: members, member, present => by
      rw [canonicalMembers, List.mem_cons] at present
      obtain rfl | later := present
      · exact wellFormed_canonical value
      · exact wellFormed_canonicalMembers members member later

end

theorem length_joinComma_max {entries : List JsString}
    (formed : ∀ entry ∈ entries, wellFormed entry = true) :
    (utf8Encode (joinComma entries)).length + 1 =
      max 1 (entries.map fun entry => (utf8Encode entry).length + 1).sum := by
  cases entries with
  | nil => rfl
  | cons entry entries =>
      have whole := length_joinComma_bytes formed (List.cons_ne_nil entry entries)
      omega

theorem length_brackets {opening closing : JsString} {entries : List JsString}
    (opens : wellFormed opening = true) (closes : wellFormed closing = true)
    (opened : (utf8Encode opening).length = 1) (closed : (utf8Encode closing).length = 1)
    (formed : ∀ entry ∈ entries, wellFormed entry = true) :
    (utf8Encode (opening ++ (joinComma entries ++ closing))).length =
      1 + max 1 (entries.map fun entry => (utf8Encode entry).length + 1).sum := by
  have inside := wellFormed_joinComma formed
  have joined := length_joinComma_max formed
  rw [utf8Encode_append opens (wellFormed_append inside closes), utf8Encode_append inside closes,
    List.length_append, List.length_append]
  omega

theorem canonicalBytes_arr (items : List JsValue) :
    canonicalBytes keysInOrder (.arr items) =
      1 + max 1 (items.map fun item => canonicalBytes keysInOrder item + 1).sum := by
  rw [canonicalBytes, canonical, length_brackets (by decide) (by decide) (by decide) (by decide)
    (wellFormed_canonicalItems items), canonicalItems_eq, List.map_map]
  rfl

theorem length_member_bytes (member : JsString × JsValue) :
    (utf8Encode (quote member.1 ++ (js ":" ++ canonical keysInOrder member.2))).length + 1 =
      memberSize keysInOrder member := by
  have colon : (utf8Encode (js ":")).length = 1 := by decide
  have formed := @wellFormed_canonical keysInOrder member.2
  rw [utf8Encode_append (printable_quote member.1).formed (wellFormed_append (by decide) formed),
    utf8Encode_append (by decide) formed, List.length_append, List.length_append, colon,
    memberSize, canonicalBytes]
  omega

theorem canonicalBytes_obj (members : List (JsString × JsValue)) :
    canonicalBytes keysInOrder (.obj members) =
      1 + max 1 (members.map (memberSize keysInOrder)).sum := by
  have formed : ∀ entry ∈ ((canonicalMembers keysInOrder members).insertionSort
      fun first second => keysInOrder first.1 second.1).map
        (fun member => quote member.1 ++ (js ":" ++ member.2)), wellFormed entry = true := by
    intro entry present
    obtain ⟨member, sorted, rfl⟩ := List.mem_map.mp present
    rw [List.mem_insertionSort] at sorted
    exact wellFormed_member (wellFormed_canonicalMembers members member sorted)
  have unsorted := (List.perm_insertionSort
    (fun first second : JsString × JsString => keysInOrder first.1 second.1)
    (canonicalMembers keysInOrder members)).map fun member : JsString × JsString =>
      (utf8Encode (quote member.1 ++ (js ":" ++ member.2))).length + 1
  rw [canonicalBytes, canonical, length_brackets (by decide) (by decide) (by decide) (by decide)
    formed, List.map_map]
  change 1 + max 1 (List.map (fun member : JsString × JsString =>
    (utf8Encode (quote member.1 ++ (js ":" ++ member.2))).length + 1) _).sum = _
  rw [unsorted.sum_eq, canonicalMembers_eq, List.map_map]
  congr 3
  apply List.map_congr_left
  intro member _
  exact length_member_bytes member

@[simp] theorem canonicalBytes_null : canonicalBytes keysInOrder .null = 4 := by
  change (utf8Encode (js "null")).length = 4
  decide

theorem canonicalBytes_bool (value : Bool) :
    canonicalBytes keysInOrder (.bool value) = if value then 4 else 5 := by
  cases value
  · change (utf8Encode (js "false")).length = 5
    decide
  · change (utf8Encode (js "true")).length = 4
    decide

theorem canonicalBytes_str (text : JsString) :
    canonicalBytes keysInOrder (.str text) = (utf8Encode (quote text)).length := rfl

theorem canonicalBytes_plain {text : JsString} (plain : text.all isPlain = true) :
    canonicalBytes keysInOrder (.str text) = text.length + 2 :=
  length_quote_plain plain

end

end AshlrHub.Artifacts
