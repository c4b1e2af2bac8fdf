import AshlrHub.Authority.Patterns
import AshlrHub.Js.Ascii
import AshlrHub.Lib.Fallible

namespace AshlrHub.Universe

open Js Lib Authority

/-! Raw frames of `git cat-file --batch`, each payload bound to the object asked for. -/

inductive BatchFault where
  | envelope
  | identity
  | incomplete
  | changed
  | exceeds
  | content
  | trailing
  /-- A read outside the buffer, which the source's own operations never report. -/
  | outside

def BatchFault.text : BatchFault → JsString
  | .envelope => js "Invalid Git object byte envelope"
  | .identity => js "Invalid Git object identity"
  | .incomplete => js "Git object batch is incomplete"
  | .changed => js "Git object batch identity changed"
  | .exceeds => js "Git object batch exceeds its byte envelope"
  | .content => js "Git object content does not match its identity"
  | .trailing => js "Git object batch contains trailing bytes"
  | .outside => []

/-- `bytes.indexOf(byte, offset)` -/
def indexFrom (bytes : Bytes) (byte : UInt8) (offset : ℤ) : Option ℤ :=
  ((bytes.drop offset.toNat).findIdx? (· == byte)).map fun (index : ℕ) => offset + index

/-- `bytes.subarray(start, stop)`, where both ends lie in the buffer. -/
def subarray (bytes : Bytes) (start stop : ℤ) : Except BatchFault Bytes :=
  if 0 ≤ start ∧ start ≤ stop ∧ stop ≤ bytes.length then
    .ok ((bytes.drop start.toNat).take (stop - start).toNat)
  else .error .outside

/-- `bytes[index]` -/
def byteAt (bytes : Bytes) (index : ℤ) : Except BatchFault UInt8 :=
  if 0 ≤ index then
    match bytes[index.toNat]? with
    | some byte => .ok byte
    | none => .error .outside
  else .error .outside

/-- `/^(?:[a-f0-9]{40}|[a-f0-9]{64})$/` -/
def isObjectId (oid : JsString) : Bool :=
  isHexOfLength 40 oid || isHexOfLength 64 oid

/-- `/^([a-f0-9]{40}|[a-f0-9]{64}) blob (0|[1-9][0-9]*)$/`, with both of its groups. -/
def matchHeader (header : JsString) : Option (JsString × JsString) :=
  let name := header.takeWhile isLowerHex
  let rest := header.dropWhile isLowerHex
  if isObjectId name && (js " blob ").isPrefixOf rest && isCanonicalDigits (rest.drop 6) then
    some (name, rest.drop 6)
  else none

def contentId (oid : JsString) (size : JsString) (data : Bytes) : JsString :=
  let content := utf8Encode (js "blob " ++ size ++ [0]) ++ data
  if oid.length = 40 then Sha1.sha1 content else Sha256.digest content

def readBlob (bytes : Bytes) (maxBytes : ℤ) (oid : JsString) (offset total : ℤ) :
    Except BatchFault (Bytes × ℤ × ℤ) := do
  if isObjectId oid = false then throw .identity
  match indexFrom bytes 10 offset with
  | none => throw .incomplete
  | some stop =>
      let header ← subarray bytes offset stop
      match matchHeader (utf8Decode header) with
      | none => throw .changed
      | some (name, digits) =>
          if name ≠ oid then throw .changed
          let number := JsNumber.ofRat (digitsValue digits : ℤ)
          match number.safeInteger? with
          | none => throw .exceeds
          | some size =>
              if size > maxBytes - total ∨ size > bytes.length - stop - 2 then throw .exceeds
              let mark ← byteAt bytes (stop + size + 1)
              if mark ≠ 10 then throw .exceeds
              let data ← subarray bytes (stop + 1) (stop + 1 + size)
              if contentId oid (numberToString number) data ≠ oid then throw .content
              pure (data, stop + size + 2, total + size)

def readBlobs (bytes : Bytes) (maxBytes : ℤ) : List JsString → ℤ → ℤ →
    Except BatchFault (List Bytes × ℤ)
  | [], offset, _ => .ok ([], offset)
  | oid :: oids, offset, total => do
      let (data, next, sum) ← readBlob bytes maxBytes oid offset total
      let (results, last) ← readBlobs bytes maxBytes oids next sum
      pure (data :: results, last)

def parseGitBlobBatch (bytes : Bytes) (oids : List JsString) (maxBytes : JsNumber) :
    Except BatchFault (List Bytes) :=
  match maxBytes.safeInteger? with
  | none => .error .envelope
  | some limit => do
      if limit < 0 then throw .envelope
      let (results, offset) ← readBlobs bytes limit oids 0 0
      if offset ≠ bytes.length then throw .trailing
      pure results

/-! The frames a batch is made of. -/

def frame (oid : JsString) (data : Bytes) : Bytes :=
  utf8Encode (oid ++ js " blob " ++ decimal data.length) ++ 10 :: data ++ [10]

def Names (oid : JsString) (data : Bytes) : Prop :=
  contentId oid (decimal data.length) data = oid

theorem isHexOfLength_iff {count : ℕ} {text : JsString} : isHexOfLength count text = true ↔
    text.length = count ∧ ∀ unit ∈ text, isLowerHex unit = true := by
  rw [isHexOfLength, Bool.and_eq_true, decide_eq_true_eq, List.all_eq_true]

variable {oid : JsString}

theorem isObjectId_iff : isObjectId oid = true ↔
    (oid.length = 40 ∨ oid.length = 64) ∧ ∀ unit ∈ oid, isLowerHex unit = true := by
  rw [isObjectId, Bool.or_eq_true, isHexOfLength_iff, isHexOfLength_iff, or_and_right]

theorem isAscii_of_hex (hex : ∀ unit ∈ oid, isLowerHex unit = true) :
    IsAscii oid := by
  intro unit member
  have digit := hex unit member
  simp only [isLowerHex, isDigit, Bool.or_eq_true, Bool.and_eq_true, decide_eq_true_eq] at digit
  omega

theorem isObjectId_contentId (oid size : JsString) (data : Bytes) :
    isObjectId (contentId oid size data) = true := by
  have hex : ∀ n < 16, isLowerHex (Sha256.hexDigit n) = true := by decide
  rw [contentId]
  split_ifs
  · rw [isObjectId_iff]
    refine ⟨Or.inl (Sha1.length_sha1 _), fun unit member => ?_⟩
    obtain ⟨n, small, rfl⟩ := Sha1.mem_sha1 member
    exact hex n small
  · rw [isObjectId_iff]
    refine ⟨Or.inr (Sha256.length_digest _), fun unit member => ?_⟩
    obtain ⟨n, small, rfl⟩ := Sha256.mem_digest member
    exact hex n small

variable {data : Bytes}

theorem Names.isObjectId (names : Names oid data) :
    isObjectId oid = true := by
  rw [← names]
  exact isObjectId_contentId _ _ _

theorem takeWhile_append_stop {α : Type} {keeps : α → Bool} {kept rest : List α}
    (all : ∀ item ∈ kept, keeps item = true) (stops : ∀ item ∈ rest.head?, keeps item = false) :
    (kept ++ rest).takeWhile keeps = kept ∧ (kept ++ rest).dropWhile keeps = rest := by
  induction kept with
  | nil =>
      cases rest with
      | nil => exact ⟨rfl, rfl⟩
      | cons item rest =>
          have stop := stops item rfl
          simp [stop]
  | cons item kept ih =>
      have keep := all item (by simp)
      have tail := ih fun other member => all other (by simp [member])
      simp [keep, tail]

theorem matchHeader_iff {header name digits : JsString} :
    matchHeader header = some (name, digits) ↔
      isObjectId name = true ∧ header = name ++ js " blob " ++ digits ∧
        ∃ n, digits = decimal n := by
  have stops (tail : JsString) : ∀ unit ∈ (js " blob " ++ tail).head?, isLowerHex unit = false := by
    intro unit member
    have same : unit = 0x20 := by
      simpa [js, ofScalars, charUnits] using member.symm
    rw [same]
    decide
  constructor
  · intro matched
    simp only [matchHeader, Option.ite_none_right_eq_some, Bool.and_eq_true, Option.some.injEq,
      Prod.mk.injEq, List.isPrefixOf_iff_prefix] at matched
    obtain ⟨⟨⟨named, tail, whole⟩, canonical⟩, rfl, rfl⟩ := matched
    refine ⟨named, ?_, isCanonicalDigits_iff.mp canonical⟩
    have six : (js " blob ").length = 6 := rfl
    rw [← whole, ← six, List.drop_left, List.append_assoc, whole, List.takeWhile_append_dropWhile]
  · rintro ⟨named, rfl, canonical⟩
    obtain ⟨taken, dropped⟩ := takeWhile_append_stop (isObjectId_iff.mp named).2 (stops digits)
    have six : (js " blob " ++ digits).drop 6 = digits := rfl
    have isPrefix : (js " blob ").isPrefixOf (js " blob " ++ digits) = true :=
      List.isPrefixOf_iff_prefix.mpr (List.prefix_append _ _)
    rw [List.append_assoc, matchHeader]
    simp only [taken, dropped]
    rw [six, named, isPrefix, isCanonicalDigits_iff.mpr canonical]
    rfl

/-! A batch is read exactly when it is its frames, one after the other. -/

variable {front line tail : Bytes}

theorem indexFrom_append {byte : UInt8} (absent : byte ∉ line) :
    indexFrom (front ++ (line ++ byte :: tail)) byte front.length =
      some ((front.length : ℤ) + line.length) := by
  have found : (line ++ byte :: tail).findIdx? (· == byte) = some line.length := by
    rw [List.findIdx?_append, List.findIdx?_eq_none_iff.mpr, List.findIdx?_cons, beq_self_eq_true]
    · simp
    · intro other member
      rw [beq_eq_false_iff_ne]
      exact fun same => absent (same ▸ member)
  rw [indexFrom, Int.toNat_natCast, List.drop_left, found]
  rfl

variable {rest : Bytes}

theorem indexFrom_none {byte : UInt8} (absent : byte ∉ rest) :
    indexFrom (front ++ rest) byte front.length = none := by
  rw [indexFrom, Int.toNat_natCast, List.drop_left, List.findIdx?_eq_none_iff.mpr]
  · rfl
  · intro other member
    rw [beq_eq_false_iff_ne]
    exact fun same => absent (same ▸ member)

theorem subarray_append (front middle back : Bytes) :
    subarray (front ++ (middle ++ back)) front.length (front.length + middle.length) =
      .ok middle := by
  have width : ((front.length : ℤ) + middle.length - front.length).toNat = middle.length := by omega
  rw [subarray, if_pos, width, Int.toNat_natCast, List.drop_left, List.take_left]
  simp only [List.length_append]
  omega

theorem byteAt_append (front : Bytes) {back : Bytes} {index : ℕ} (inside : index < back.length) :
    byteAt (front ++ back) (front.length + index) = .ok back[index] := by
  have position : ((front.length : ℤ) + index).toNat = front.length + index := by omega
  rw [byteAt, if_pos (by omega), position, List.getElem?_append_right (by omega),
    Nat.add_sub_cancel_left, List.getElem?_eq_getElem inside]

def readTail (oid : JsString) (maxBytes total : ℤ) (line tail : Bytes) :
    Except BatchFault (Bytes × ℕ) :=
  match matchHeader (utf8Decode line) with
  | none => .error .changed
  | some (name, digits) =>
      if name ≠ oid then .error .changed
      else
        let number := JsNumber.ofRat (digitsValue digits : ℤ)
        match number.safeInteger? with
        | none => .error .exceeds
        | some _ =>
            let size := digitsValue digits
            if size > maxBytes - total ∨ (size : ℤ) > tail.length - 1 then .error .exceeds
            else if tail[size]? ≠ some 10 then .error .exceeds
            else if contentId oid (numberToString number) (tail.take size) ≠ oid then
              .error .content
            else .ok (tail.take size, size)

theorem readBlob_line (oid : JsString) (maxBytes total : ℤ) (named : isObjectId oid = true)
    (oneLine : 10 ∉ line) :
    readBlob (front ++ (line ++ 10 :: tail)) maxBytes oid front.length total =
      (readTail oid maxBytes total line tail).map fun (data, size) =>
        (data, front.length + line.length + size + 2, total + size) := by
  unfold readBlob readTail
  simp only [named, Bool.true_eq_false, if_false, indexFrom_append oneLine, subarray_append, bind,
    Except.bind]
  cases matched : matchHeader (utf8Decode line) with
  | none => rfl
  | some groups =>
      obtain ⟨name, digits⟩ := groups
      by_cases same : name = oid
      swap
      · simp only [ne_eq, same, not_false_eq_true, if_true]
        rfl
      simp only [ne_eq, same, not_true_eq_false, if_false]
      cases read : (JsNumber.ofRat (digitsValue digits : ℤ)).safeInteger? with
      | none => rfl
      | some size =>
          obtain rfl := JsNumber.eq_of_safeInteger?_ofRat read
          have width : ((front ++ (line ++ 10 :: tail)).length : ℤ) -
              (front.length + line.length) - 2 = tail.length - 1 := by
            simp only [List.length_append, List.length_cons]
            omega
          simp only [width]
          by_cases large : (digitsValue digits : ℤ) > maxBytes - total ∨
              (digitsValue digits : ℤ) > tail.length - 1
          · rw [if_pos large, if_pos large]
            rfl
          rw [if_neg large, if_neg large]
          have inside : digitsValue digits < tail.length := by omega
          have whole : front ++ (line ++ 10 :: tail) = (front ++ line ++ [10]) ++ tail := by simp
          have start : ((front ++ line ++ [10]).length : ℤ) = front.length + line.length + 1 := by
            simp [add_assoc]
          have reads : byteAt (front ++ (line ++ 10 :: tail))
              (front.length + line.length + digitsValue digits + 1) =
              .ok tail[digitsValue digits] := by
            rw [whole, ← byteAt_append (front ++ line ++ [10]) inside, start]
            congr 1
            omega
          have slices : subarray (front ++ (line ++ 10 :: tail))
              (front.length + line.length + 1)
              (front.length + line.length + 1 + digitsValue digits) =
              .ok (tail.take (digitsValue digits)) := by
            have part := subarray_append (front ++ line ++ [10]) (tail.take (digitsValue digits))
              (tail.drop (digitsValue digits))
            rw [List.take_append_drop, start, ← whole, List.length_take, Nat.min_eq_left inside.le]
              at part
            exact part
          rw [reads, slices, List.getElem?_eq_getElem inside]
          simp only [Option.some.injEq]
          by_cases ends : tail[digitsValue digits] = 10
          swap
          · rw [if_pos ends, if_pos ends]
            rfl
          simp only [ends, not_true_eq_false, if_false]
          by_cases bound : contentId oid (numberToString (JsNumber.ofRat (digitsValue digits : ℤ)))
              (tail.take (digitsValue digits)) = oid
          · simp only [bound, not_true_eq_false, if_false]
            rfl
          · simp only [bound, not_false_eq_true, if_true]
            rfl

variable {maxBytes : ℤ}

theorem readTail_iff {total : ℤ} {size : ℕ} (limited : maxBytes ≤ JsNumber.maxSafeInteger)
    (counted : 0 ≤ total) :
    readTail oid maxBytes total line tail = .ok (data, size) ↔
      line = utf8Encode (oid ++ js " blob " ++ decimal size) ∧ data.length = size ∧
        (∃ back, tail = data ++ 10 :: back) ∧ isObjectId oid = true ∧ Names oid data ∧
        total + data.length ≤ maxBytes := by
  have plain (named : isObjectId oid = true) : IsAscii (oid ++ js " blob " ++ decimal size) :=
    ((isAscii_of_hex (isObjectId_iff.mp named).2).append (by decide)).append (isAscii_decimal size)
  have written (bound : (size : ℤ) ≤ JsNumber.maxSafeInteger) :
      numberToString (JsNumber.ofRat ((size : ℤ) : ℚ)) = decimal size := by
    rw [Int.cast_natCast, numberToString_natCast bound]
  constructor
  · intro answered
    unfold readTail at answered
    cases matched : matchHeader (utf8Decode line) with
    | none =>
        rw [matched] at answered
        cases answered
    | some groups =>
        obtain ⟨name, digits⟩ := groups
        obtain ⟨named, header, n, rfl⟩ := matchHeader_iff.mp matched
        rw [matched] at answered
        simp only [digitsValue_decimal] at answered
        by_cases same : name = oid
        swap
        · rw [if_pos same] at answered
          cases answered
        subst same
        rw [if_neg (not_not_intro rfl)] at answered
        cases read : (JsNumber.ofRat ((n : ℤ) : ℚ)).safeInteger? with
        | none =>
            rw [read] at answered
            cases answered
        | some whole =>
            rw [read] at answered
            split_ifs at answered with large ends bound
            have parts := Except.ok.inj answered
            simp only [Prod.mk.injEq] at parts
            obtain ⟨rfl, rfl⟩ := parts
            have inside : n < tail.length := by omega
            have width : (tail.take n).length = n := by
              rw [List.length_take, Nat.min_eq_left inside.le]
            have mark : tail[n] = 10 := by
              rw [List.getElem?_eq_getElem inside, ne_eq, not_not, Option.some.injEq] at ends
              exact ends
            refine ⟨(utf8Decode_eq_ascii (plain named)).mp header, width,
              ⟨tail.drop (n + 1), ?_⟩, named, ?_, by omega⟩
            · rw [← mark, List.getElem_cons_drop, List.take_append_drop]
            · rw [written (by omega), not_not] at bound
              rw [Names, width]
              exact bound
  · rintro ⟨rfl, rfl, ⟨back, rfl⟩, named, names, fits⟩
    have matched : matchHeader (utf8Decode (utf8Encode (oid ++ js " blob " ++
        decimal data.length))) = some (oid, decimal data.length) := by
      rw [(utf8Decode_eq_ascii (plain named)).mpr rfl, matchHeader_iff]
      exact ⟨named, rfl, data.length, rfl⟩
    have safe : |((data.length : ℕ) : ℤ)| ≤ JsNumber.maxSafeInteger := by
      rw [abs_of_nonneg (Int.natCast_nonneg _)]
      omega
    have small : ¬ ((data.length : ℤ) > maxBytes - total ∨
        (data.length : ℤ) > ((data ++ 10 :: back).length : ℤ) - 1) := by
      simp only [List.length_append, List.length_cons]
      omega
    unfold Names at names
    unfold readTail
    rw [matched]
    simp only [digitsValue_decimal, ne_eq, not_true_eq_false, if_false,
      JsNumber.safeInteger?_ofRat safe]
    rw [if_neg small, List.getElem?_append_right (le_refl _), Nat.sub_self, List.getElem?_cons_zero,
      if_neg (not_not_intro rfl), List.take_left, written (by omega), if_neg (not_not_intro names)]

theorem frame_eq (oid : JsString) (data : Bytes) : frame oid data =
    utf8Encode (oid ++ js " blob " ++ decimal data.length) ++ 10 :: (data ++ [10]) := by
  simp [frame]

theorem newline_not_mem_header (named : isObjectId oid = true) (size : ℕ) :
    10 ∉ utf8Encode (oid ++ js " blob " ++ decimal size) := by
  apply newline_not_mem_utf8Encode
  intro member
  rw [List.mem_append, List.mem_append] at member
  rcases member with (inName | inWord) | inSize
  · exact absurd ((isObjectId_iff.mp named).2 _ inName) (by decide)
  · exact absurd inWord (by decide)
  · exact absurd (isDigit_decimal size _ inSize) (by decide)

theorem exists_line (present : 10 ∈ rest) :
    ∃ line tail, rest = line ++ 10 :: tail ∧ 10 ∉ line := by
  obtain ⟨line, tail, rfl, absent⟩ := List.eq_append_cons_of_mem present
  exact ⟨line, tail, rfl, absent⟩

theorem readBlob_none (maxBytes total : ℤ) (named : isObjectId oid = true) (absent : 10 ∉ rest) :
    readBlob (front ++ rest) maxBytes oid front.length total = .error .incomplete := by
  unfold readBlob
  simp only [named, Bool.true_eq_false, if_false, indexFrom_none absent]
  rfl

theorem readBlob_unnamed {bytes : Bytes} (maxBytes offset total : ℤ)
    (unnamed : isObjectId oid = false) :
    readBlob bytes maxBytes oid offset total = .error .identity := by
  unfold readBlob
  rw [if_pos unnamed]
  rfl

theorem readBlob_iff {total next sum : ℤ} (limited : maxBytes ≤ JsNumber.maxSafeInteger)
    (counted : 0 ≤ total) :
    readBlob (front ++ rest) maxBytes oid front.length total = .ok (data, next, sum) ↔
      Names oid data ∧ total + data.length ≤ maxBytes ∧
        (∃ back, rest = frame oid data ++ back) ∧
        next = front.length + (frame oid data).length ∧ sum = total + data.length := by
  constructor
  · intro answered
    cases named : isObjectId oid with
    | false =>
        rw [readBlob_unnamed _ _ _ named] at answered
        cases answered
    | true =>
        by_cases present : 10 ∈ rest
        swap
        · rw [readBlob_none _ _ named present] at answered
          cases answered
        obtain ⟨line, tail, rfl, oneLine⟩ := exists_line present
        rw [readBlob_line _ _ _ named oneLine] at answered
        obtain ⟨⟨found, size⟩, tailRead, parts⟩ := map_eq_ok.mp answered
        simp only [Prod.mk.injEq] at parts
        obtain ⟨rfl, rfl, rfl⟩ := parts
        obtain ⟨rfl, rfl, ⟨back, rfl⟩, -, names, fits⟩ := (readTail_iff limited counted).mp tailRead
        refine ⟨names, fits, ⟨back, by simp [frame_eq]⟩, ?_, rfl⟩
        simp only [frame_eq, List.length_append, List.length_cons, List.length_nil]
        omega
  · rintro ⟨names, fits, ⟨back, rfl⟩, rfl, rfl⟩
    have named := names.isObjectId
    have shape : frame oid data ++ back = utf8Encode (oid ++ js " blob " ++ decimal data.length) ++
        10 :: (data ++ 10 :: back) := by simp [frame_eq]
    have tailRead : readTail oid maxBytes total
        (utf8Encode (oid ++ js " blob " ++ decimal data.length)) (data ++ 10 :: back) =
        .ok (data, data.length) :=
      (readTail_iff limited counted).mpr ⟨rfl, rfl, ⟨back, rfl⟩, named, names, fits⟩
    rw [shape, readBlob_line _ _ _ named (newline_not_mem_header named _), tailRead, Except.map]
    simp only [frame_eq, List.length_append, List.length_cons, List.length_nil]
    congr 3
    omega

theorem readTail_inside (oid : JsString) (maxBytes total : ℤ) (line tail : Bytes) :
    readTail oid maxBytes total line tail ≠ .error .outside := by
  unfold readTail
  cases matchHeader (utf8Decode line) with
  | none => simp
  | some groups =>
      obtain ⟨name, digits⟩ := groups
      cases read : (JsNumber.ofRat (digitsValue digits : ℤ)).safeInteger? with
      | none | some size =>
          simp only [read]
          split_ifs <;> simp

theorem readBlob_inside (front rest : Bytes) (oid : JsString) (maxBytes total : ℤ) :
    readBlob (front ++ rest) maxBytes oid front.length total ≠ .error .outside := by
  intro answered
  cases named : isObjectId oid with
  | false =>
      rw [readBlob_unnamed _ _ _ named] at answered
      cases answered
  | true =>
      by_cases present : 10 ∈ rest
      · obtain ⟨line, tail, rfl, oneLine⟩ := exists_line present
        rw [readBlob_line _ _ _ named oneLine] at answered
        cases tailRead : readTail oid maxBytes total line tail with
        | error fault =>
            rw [tailRead] at answered
            have same : fault = .outside := Except.error.inj answered
            exact readTail_inside _ _ _ _ _ (same ▸ tailRead)
        | ok result =>
            rw [tailRead] at answered
            cases answered
      · rw [readBlob_none _ _ named present] at answered
        cases answered

def frames (oids : List JsString) (blobs : List Bytes) : Bytes :=
  (List.zipWith frame oids blobs).flatten

def totalSize (blobs : List Bytes) : ℤ :=
  (blobs.map fun data => (data.length : ℤ)).sum

theorem totalSize_nonneg (blobs : List Bytes) : 0 ≤ totalSize blobs := by
  apply List.sum_nonneg
  intro size member
  obtain ⟨data, -, rfl⟩ := List.mem_map.mp member
  exact Int.natCast_nonneg _

theorem readBlobs_iff (limited : maxBytes ≤ JsNumber.maxSafeInteger) :
    {oids : List JsString} → {front rest : Bytes} → {blobs : List Bytes} → {total last : ℤ} →
    0 ≤ total → total ≤ maxBytes →
    (readBlobs (front ++ rest) maxBytes oids front.length total = .ok (blobs, last) ↔
      List.Forall₂ Names oids blobs ∧ total + totalSize blobs ≤ maxBytes ∧
        (∃ back, rest = frames oids blobs ++ back) ∧
        last = front.length + (frames oids blobs).length)
  | [], front, rest, blobs, total, last, _, fits => by
      rw [readBlobs, Except.ok.injEq, Prod.mk.injEq, List.forall₂_nil_left_iff]
      constructor
      · rintro ⟨rfl, rfl⟩
        exact ⟨rfl, by simpa [totalSize] using fits, ⟨rest, rfl⟩, by simp [frames]⟩
      · rintro ⟨rfl, -, -, rfl⟩
        exact ⟨rfl, by simp [frames]⟩
  | oid :: oids, front, rest, blobs, total, last, counted, fits => by
      rw [readBlobs, bind_eq_ok]
      constructor
      · rintro ⟨⟨data, next, sum⟩, first, answered⟩
        obtain ⟨names, room, ⟨back, rfl⟩, rfl, rfl⟩ := (readBlob_iff limited counted).mp first
        obtain ⟨⟨results, stop⟩, others, parts⟩ := bind_eq_ok.mp answered
        have same := Except.ok.inj parts
        rw [Prod.mk.injEq] at same
        obtain ⟨rfl, rfl⟩ := same
        rw [← List.append_assoc, ← Nat.cast_add, ← List.length_append] at others
        obtain ⟨all, small, ⟨behind, rfl⟩, rfl⟩ :=
          (readBlobs_iff limited (by omega) room).mp others
        refine ⟨.cons names all, ?_, ⟨behind, by simp [frames]⟩, ?_⟩
        · simp only [totalSize, List.map_cons, List.sum_cons] at small ⊢
          omega
        · simp only [frames, List.zipWith_cons_cons, List.flatten_cons, List.length_append]
          omega
      · rintro ⟨all, small, ⟨behind, rfl⟩, rfl⟩
        cases all with
        | @cons _ data _ results names all =>
            have positive := totalSize_nonneg results
            have split : totalSize (data :: results) = data.length + totalSize results := by
              simp [totalSize]
            rw [split] at small
            have room : total + data.length ≤ maxBytes := by omega
            have shape : frames (oid :: oids) (data :: results) ++ behind =
                frame oid data ++ (frames oids results ++ behind) := by simp [frames]
            refine ⟨(data, front.length + (frame oid data).length, total + data.length), ?_, ?_⟩
            · rw [shape]
              exact (readBlob_iff limited counted).mpr ⟨names, room, ⟨_, rfl⟩, rfl, rfl⟩
            · rw [bind_eq_ok]
              refine ⟨(results, front.length +
                (frames (oid :: oids) (data :: results)).length), ?_, rfl⟩
              rw [shape, ← List.append_assoc, ← Nat.cast_add, ← List.length_append]
              refine (readBlobs_iff limited (by omega) room).mpr ⟨all, by omega, ⟨behind, rfl⟩, ?_⟩
              simp only [frames, List.zipWith_cons_cons, List.flatten_cons, List.length_append]
              omega

theorem readBlobs_inside (limited : maxBytes ≤ JsNumber.maxSafeInteger) :
    (oids : List JsString) → (front rest : Bytes) → {total : ℤ} → 0 ≤ total →
    readBlobs (front ++ rest) maxBytes oids front.length total ≠ .error .outside
  | [], front, rest, total, _ => by
      rw [readBlobs]
      intro answered
      cases answered
  | oid :: oids, front, rest, total, counted => by
      intro answered
      rw [readBlobs] at answered
      cases first : readBlob (front ++ rest) maxBytes oid front.length total with
      | error fault =>
          rw [first] at answered
          have same : fault = .outside := Except.error.inj answered
          exact readBlob_inside _ _ _ _ _ (same ▸ first)
      | ok result =>
          obtain ⟨data, next, sum⟩ := result
          obtain ⟨-, -, ⟨back, rfl⟩, rfl, rfl⟩ := (readBlob_iff limited counted).mp first
          rw [first, ← List.append_assoc, ← Nat.cast_add, ← List.length_append] at answered
          cases others : readBlobs (front ++ frame oid data ++ back) maxBytes oids
              (front ++ frame oid data).length (total + data.length) with
          | error fault =>
              have same : fault = .outside := by
                simp only [bind, Except.bind, others] at answered
                exact Except.error.inj answered
              exact readBlobs_inside limited oids _ _ (by omega) (same ▸ others)
          | ok found =>
              simp only [bind, Except.bind, others] at answered
              cases answered

theorem parseGitBlobBatch_exact (bytes : Bytes) (oids : List JsString) (maxBytes : JsNumber) :
    (∀ blobs, parseGitBlobBatch bytes oids maxBytes = .ok blobs ↔
      ∃ limit, maxBytes.safeInteger? = some limit ∧ List.Forall₂ Names oids blobs ∧
        bytes = frames oids blobs ∧ totalSize blobs ≤ limit) ∧
    parseGitBlobBatch bytes oids maxBytes ≠ .error .outside := by
  unfold parseGitBlobBatch
  cases envelope : maxBytes.safeInteger? with
  | none => simp
  | some limit =>
      have limited : limit ≤ JsNumber.maxSafeInteger :=
        (abs_le.mp (JsNumber.safeInteger?_eq_some envelope).2).2
      constructor
      · intro blobs
        simp only [Option.some.injEq, exists_eq_left']
        rw [refuse_eq_ok]
        constructor
        · rintro ⟨counted, answered⟩
          obtain ⟨⟨results, offset⟩, read, checked⟩ := bind_eq_ok.mp answered
          obtain ⟨whole, parts⟩ := refuse_eq_ok.mp checked
          cases parts
          obtain ⟨all, small, ⟨back, rfl⟩, rfl⟩ := (@readBlobs_iff limit limited oids [] bytes
            results 0 offset le_rfl (not_lt.mp counted)).mp read
          have nothing : back = [] := by
            simp only [List.length_append, List.length_nil, ne_eq, not_not] at whole
            exact List.eq_nil_of_length_eq_zero (by omega)
          subst nothing
          rw [zero_add] at small
          exact ⟨all, List.append_nil _, small⟩
        · rintro ⟨all, rfl, small⟩
          have positive := totalSize_nonneg blobs
          refine ⟨by omega, bind_eq_ok.mpr ⟨(blobs, (frames oids blobs).length),
            (@readBlobs_iff limit limited oids [] (frames oids blobs) blobs 0 _ le_rfl
              (by omega)).mpr ⟨all, by omega, ⟨[], by simp⟩, by simp⟩,
            refuse_eq_ok.mpr ⟨not_not_intro rfl, rfl⟩⟩⟩
      · intro answered
        by_cases negative : limit < 0
        · simp only [negative, if_true] at answered
          cases answered
        · simp only [negative, if_false] at answered
          cases read : readBlobs bytes limit oids 0 0 with
          | error fault =>
              have same : fault = .outside := by
                simp only [bind, Except.bind, read] at answered
                exact Except.error.inj answered
              exact @readBlobs_inside limit limited oids [] bytes 0 le_rfl (same ▸ read)
          | ok result =>
              simp only [bind, Except.bind, read] at answered
              split_ifs at answered <;> cases answered

end AshlrHub.Universe
