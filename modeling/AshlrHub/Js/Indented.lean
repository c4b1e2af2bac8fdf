import AshlrHub.Js.Json
import AshlrHub.Js.Line

namespace AshlrHub.Js

/-! `JSON.stringify(value, null, 2)`. -/

def lineBreak (depth : ℕ) : JsString :=
  0x0A :: List.replicate (2 * depth) 0x20

def bracketed (opening closing : JsString) (depth : ℕ) (entries : List JsString) : JsString :=
  if entries = [] then opening ++ closing
  else
    opening ++ (joinComma (entries.map fun entry => lineBreak (depth + 1) ++ entry) ++
      (lineBreak depth ++ closing))

mutual

def writeIndented (depth : ℕ) : JsValue → JsString
  | .arr items => bracketed (js "[") (js "]") depth (indentedItems (depth + 1) items)
  | .obj members => bracketed (js "\x7b") (js "\x7d") depth (indentedMembers (depth + 1) members)
  | value => writeValue value

def indentedItems (depth : ℕ) : List JsValue → List JsString
  | [] => []
  | item :: items => writeIndented depth item :: indentedItems depth items

def indentedMembers (depth : ℕ) : List (JsString × JsValue) → List JsString
  | [] => []
  | (_, .undefined) :: members => indentedMembers depth members
  | (key, value) :: members =>
      (quote key ++ (js ": " ++ writeIndented depth value)) :: indentedMembers depth members

end

/-! Indented texts are well-formed. -/

theorem wellFormed_lineBreak (depth : ℕ) : wellFormed (lineBreak depth) = true := by
  apply wellFormed_of_scalar
  intro unit member
  rcases List.mem_cons.mp member with rfl | space
  · rfl
  · rw [List.eq_of_mem_replicate space]
    rfl

theorem wellFormed_joinComma : {entries : List JsString} →
    (∀ entry ∈ entries, wellFormed entry = true) → wellFormed (joinComma entries) = true
  | [], _ => rfl
  | [entry], formed => formed entry (by simp)
  | entry :: next :: entries, formed =>
      wellFormed_append (formed entry (by simp)) (wellFormed_append (by decide)
        (wellFormed_joinComma fun other member => formed other (List.mem_cons_of_mem _ member)))

theorem wellFormed_lines {depth : ℕ} {entries : List JsString}
    (formed : ∀ entry ∈ entries, wellFormed entry = true) :
    ∀ entry ∈ entries.map (fun entry => lineBreak depth ++ entry), wellFormed entry = true := by
  intro line member
  obtain ⟨entry, present, rfl⟩ := List.mem_map.mp member
  exact wellFormed_append (wellFormed_lineBreak depth) (formed entry present)

theorem wellFormed_bracketed {opening closing : JsString} {depth : ℕ}
    {entries : List JsString} (opens : wellFormed opening = true)
    (closes : wellFormed closing = true) (formed : ∀ entry ∈ entries, wellFormed entry = true) :
    wellFormed (bracketed opening closing depth entries) = true := by
  unfold bracketed
  split
  · exact wellFormed_append opens closes
  · exact wellFormed_append opens (wellFormed_append
      (wellFormed_joinComma (wellFormed_lines formed))
      (wellFormed_append (wellFormed_lineBreak depth) closes))

mutual

theorem wellFormed_writeIndented : (value : JsValue) → (depth : ℕ) →
    wellFormed (writeIndented depth value) = true
  | .undefined, _ | .null, _ | .bool _, _ | .num _, _ | .str _, _ => (printable_writeValue _).formed
  | .arr items, depth =>
      wellFormed_bracketed (by decide) (by decide) (wellFormed_indentedItems items (depth + 1))
  | .obj members, depth =>
      wellFormed_bracketed (by decide) (by decide) (wellFormed_indentedMembers members (depth + 1))

theorem wellFormed_indentedItems : (items : List JsValue) → (depth : ℕ) →
    ∀ entry ∈ indentedItems depth items, wellFormed entry = true
  | [], _, _, member => by simp [indentedItems] at member
  | item :: items, depth, entry, member => by
      rcases List.mem_cons.mp member with rfl | tail
      · exact wellFormed_writeIndented item depth
      · exact wellFormed_indentedItems items depth entry tail

theorem wellFormed_indentedMembers : (members : List (JsString × JsValue)) → (depth : ℕ) →
    ∀ entry ∈ indentedMembers depth members, wellFormed entry = true
  | [], _, _, member => by simp [indentedMembers] at member
  | (key, value) :: members, depth, entry, member => by
      have tail := wellFormed_indentedMembers members depth entry
      have head : wellFormed (quote key ++ (js ": " ++ writeIndented depth value)) = true :=
        wellFormed_append (printable_quote key).formed
          (wellFormed_append (by decide) (wellFormed_writeIndented value depth))
      by_cases absent : value = .undefined
      · rw [absent, indentedMembers] at member
        exact tail member
      · rw [indentedMembers] at member
        · rcases List.mem_cons.mp member with rfl | member
          · exact head
          · exact tail member
        · exact absent

end

/-! Fewer entries take fewer bytes. -/

theorem indentedItems_eq_map (depth : ℕ) (items : List JsValue) :
    indentedItems depth items = items.map (writeIndented depth) := by
  induction items with
  | nil => rfl
  | cons item items ih => rw [indentedItems, ih, List.map_cons]

theorem length_joinComma_bytes : {entries : List JsString} →
    (∀ entry ∈ entries, wellFormed entry = true) → entries ≠ [] →
    (utf8Encode (joinComma entries)).length + 1 =
      (entries.map fun entry => (utf8Encode entry).length + 1).sum
  | [], _, nonempty => absurd rfl nonempty
  | [entry], _, _ => by simp [joinComma]
  | entry :: next :: entries, formed, _ => by
      have later := fun other member => formed other (List.mem_cons_of_mem entry member)
      have rest := @length_joinComma_bytes (next :: entries) later (by simp)
      have comma : (utf8Encode (js ",")).length = 1 := by decide
      rw [joinComma_cons, utf8Encode_append (formed entry (by simp))
        (wellFormed_append (by decide) (wellFormed_joinComma later)),
        utf8Encode_append (by decide) (wellFormed_joinComma later), List.length_append,
        List.length_append, comma, List.map_cons, List.sum_cons, ← rest]
      omega

theorem length_bracketed_bytes {opening closing : JsString} {depth : ℕ}
    {entries : List JsString} (opens : wellFormed opening = true)
    (closes : wellFormed closing = true) (formed : ∀ entry ∈ entries, wellFormed entry = true)
    (nonempty : entries ≠ []) :
    (utf8Encode (bracketed opening closing depth entries)).length + 1 =
      (utf8Encode opening).length + (entries.map fun entry =>
        (utf8Encode (lineBreak (depth + 1) ++ entry)).length + 1).sum +
        (utf8Encode (lineBreak depth)).length + (utf8Encode closing).length := by
  have lines := @wellFormed_lines (depth + 1) entries formed
  have breaks := wellFormed_lineBreak depth
  have joined := length_joinComma_bytes lines (by simpa using nonempty)
  rw [List.map_map] at joined
  rw [bracketed, if_neg nonempty, utf8Encode_append opens
    (wellFormed_append (wellFormed_joinComma lines) (wellFormed_append breaks closes)),
    utf8Encode_append (wellFormed_joinComma lines) (wellFormed_append breaks closes),
    utf8Encode_append breaks closes, List.length_append, List.length_append,
    List.length_append]
  simp only [Function.comp_def] at joined
  omega

theorem length_bracketed_sublist {opening closing : JsString} {depth : ℕ}
    {fewer entries : List JsString} (opens : wellFormed opening = true)
    (closes : wellFormed closing = true) (formed : ∀ entry ∈ entries, wellFormed entry = true)
    (part : fewer.Sublist entries) :
    (utf8Encode (bracketed opening closing depth fewer)).length ≤
      (utf8Encode (bracketed opening closing depth entries)).length := by
  by_cases none : entries = []
  · rw [none, List.sublist_nil] at part
    rw [part, none]
  have whole := @length_bracketed_bytes opening closing depth entries opens closes formed none
  by_cases bare : fewer = []
  · rw [bare, bracketed, if_pos rfl, utf8Encode_append opens closes, List.length_append]
    obtain ⟨entry, entries, rfl⟩ := List.exists_cons_of_ne_nil none
    rw [List.map_cons, List.sum_cons] at whole
    omega
  · have partly := @length_bracketed_bytes opening closing depth fewer opens closes
      (fun entry member => formed entry (part.subset member)) bare
    have smaller := (part.map fun entry =>
      (utf8Encode (lineBreak (depth + 1) ++ entry)).length + 1).sum_le_sum fun _ _ => Nat.zero_le _
    omega

end AshlrHub.Js
