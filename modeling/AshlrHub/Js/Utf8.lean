import AshlrHub.Js.Text

namespace AshlrHub.Js

/-! Which bytes decode to which text.  Every text has bytes it decodes from, and
U+FFFD is the only scalar value that stands for more than one byte sequence. -/

inductive Pending : Utf8State → Bytes → Prop
  | between : Pending .between []
  | two {n : ℕ} (low : 2 ≤ n) (high : n < 0x20) :
      Pending ⟨1, n, 0x80, 0xBF⟩ [UInt8.ofNat (0xC0 + n)]
  | three {n : ℕ} (high : n < 0x10) :
      Pending ⟨2, n, if n = 0 then 0xA0 else 0x80, if n = 0xD then 0x9F else 0xBF⟩
        [UInt8.ofNat (0xE0 + n)]
  | threeTail {n m : ℕ} (first : n < 0x10) (second : m < 0x40) (low : 0x20 ≤ n * 0x40 + m)
      (scalar : n * 0x40 + m < 0x360 ∨ 0x380 ≤ n * 0x40 + m) :
      Pending ⟨1, n * 0x40 + m, 0x80, 0xBF⟩ [UInt8.ofNat (0xE0 + n), UInt8.ofNat (0x80 + m)]
  | four {n : ℕ} (high : n < 5) :
      Pending ⟨3, n, if n = 0 then 0x90 else 0x80, if n = 4 then 0x8F else 0xBF⟩
        [UInt8.ofNat (0xF0 + n)]
  | fourTail {n m : ℕ} (second : m < 0x40) (low : 0x10 ≤ n * 0x40 + m)
      (high : n * 0x40 + m < 0x110) :
      Pending ⟨2, n * 0x40 + m, 0x80, 0xBF⟩ [UInt8.ofNat (0xF0 + n), UInt8.ofNat (0x80 + m)]
  | fourTails {n m k : ℕ} (second : m < 0x40) (third : k < 0x40) (low : 0x10 ≤ n * 0x40 + m)
      (high : n * 0x40 + m < 0x110) :
      Pending ⟨1, (n * 0x40 + m) * 0x40 + k, 0x80, 0xBF⟩
        [UInt8.ofNat (0xF0 + n), UInt8.ofNat (0x80 + m), UInt8.ofNat (0x80 + k)]

inductive Starts (byte : UInt8) : List Char × Utf8State → Prop
  | opens {next : Utf8State} (pending : Pending next [byte]) : Starts byte ([], next)
  | completes {c : Char} (encoded : utf8EncodeChar c = [byte]) : Starts byte ([c], .between)
  | rejects : Starts byte ([replacementChar], .between)

inductive Feeds (pending : Bytes) (byte : UInt8) : List Char × Utf8State → Prop
  | continues {next : Utf8State} (further : Pending next (pending ++ [byte])) :
      Feeds pending byte ([], next)
  | completes {c : Char} (encoded : utf8EncodeChar c = pending ++ [byte]) :
      Feeds pending byte ([c], .between)
  | starts {result : List Char × Utf8State} (none : pending = []) (starts : Starts byte result) :
      Feeds pending byte result
  | breaks {result : List Char × Utf8State} (some : pending ≠ []) (starts : Starts byte result) :
      Feeds pending byte (replacementChar :: result.1, result.2)

theorem utf8First_starts (byte : UInt8) : Starts byte (utf8First byte) := by
  have bound := byte.toNat_lt
  have lead (base : ℕ) (least : base ≤ byte.toNat) :
      byte = UInt8.ofNat (base + (byte.toNat - base)) := by
    rw [Nat.add_sub_cancel' least, UInt8.ofNat_toNat]
  rw [← utf8Feed_between]
  by_cases ascii : byte.toNat < 0x80
  · have fed := utf8Feed_ascii ascii
    rw [UInt8.ofNat_toNat] at fed
    rw [fed]
    apply Starts.completes
    have value : (Char.ofNat byte.toNat).toNat = byte.toNat := toNat_ofNat (by omega)
    rw [utf8EncodeChar, value, if_pos ascii, UInt8.ofNat_toNat]
  by_cases two : 0xC2 ≤ byte.toNat ∧ byte.toNat ≤ 0xDF
  · have same := lead 0xC0 (by omega)
    have fed := @utf8Feed_two (byte.toNat - 0xC0) (by omega) (by omega)
    rw [← same] at fed
    rw [fed]
    apply Starts.opens
    have pending := @Pending.two (byte.toNat - 0xC0) (by omega) (by omega)
    rwa [← same] at pending
  by_cases three : 0xE0 ≤ byte.toNat ∧ byte.toNat ≤ 0xEF
  · have same := lead 0xE0 (by omega)
    have fed := @utf8Feed_three (byte.toNat - 0xE0) (by omega)
    rw [← same] at fed
    rw [fed]
    apply Starts.opens
    have pending := @Pending.three (byte.toNat - 0xE0) (by omega)
    rwa [← same] at pending
  by_cases four : 0xF0 ≤ byte.toNat ∧ byte.toNat ≤ 0xF4
  · have same := lead 0xF0 (by omega)
    have fed := @utf8Feed_four (byte.toNat - 0xF0) (by omega)
    rw [← same] at fed
    rw [fed]
    apply Starts.opens
    have pending := @Pending.four (byte.toNat - 0xF0) (by omega)
    rwa [← same] at pending
  have fed : utf8Feed .between byte = ([replacementChar], .between) := by
    rw [utf8Feed_between]
    simp only [utf8First]
    rw [if_neg ascii, if_neg two, if_neg (by omega), if_neg (by omega), if_neg (by omega),
      if_neg (by omega), if_neg (by omega), if_neg (by omega)]
  rw [fed]
  exact Starts.rejects

variable {byte : UInt8}

theorem exists_tail (low : 0x80 ≤ byte.toNat) (high : byte.toNat ≤ 0xBF) :
    ∃ m < 0x40, byte = UInt8.ofNat (0x80 + m) ∧ byte.toNat = 0x80 + m :=
  ⟨byte.toNat - 0x80, by omega, by rw [Nat.add_sub_cancel' low, UInt8.ofNat_toNat], by omega⟩

variable {state : Utf8State}

theorem utf8Feed_breaks (needed : state.needed ≠ 0)
    (outside : ¬(state.lower ≤ byte.toNat ∧ byte.toNat ≤ state.upper)) :
    utf8Feed state byte = (replacementChar :: (utf8First byte).1, (utf8First byte).2) := by
  obtain ⟨needed', codePoint, lower, upper⟩ := state
  cases needed' with
  | zero => exact absurd rfl needed
  | succ needed' =>
      simp only [utf8Feed]
      rw [if_neg outside]

variable {n m : ℕ}

theorem utf8EncodeChar_two (low : 2 ≤ n) (high : n < 0x20) (second : m < 0x40) :
    utf8EncodeChar (Char.ofNat (n * 0x40 + m)) =
      [UInt8.ofNat (0xC0 + n), UInt8.ofNat (0x80 + m)] := by
  have value : (Char.ofNat (n * 0x40 + m)).toNat = n * 0x40 + m := toNat_ofNat (by omega)
  have lead : (n * 0x40 + m) / 0x40 = n := by omega
  have last : (n * 0x40 + m) % 0x40 = m := by omega
  rw [utf8EncodeChar, value, if_neg (by omega), if_pos (by omega), lead, last]

theorem utf8EncodeChar_three {k : ℕ} (first : n < 0x10) (second : m < 0x40) (third : k < 0x40)
    (low : 0x20 ≤ n * 0x40 + m) (scalar : n * 0x40 + m < 0x360 ∨ 0x380 ≤ n * 0x40 + m) :
    utf8EncodeChar (Char.ofNat ((n * 0x40 + m) * 0x40 + k)) =
      [UInt8.ofNat (0xE0 + n), UInt8.ofNat (0x80 + m), UInt8.ofNat (0x80 + k)] := by
  have value : (Char.ofNat ((n * 0x40 + m) * 0x40 + k)).toNat = (n * 0x40 + m) * 0x40 + k :=
    toNat_ofNat (by omega)
  have lead : ((n * 0x40 + m) * 0x40 + k) / 0x1000 = n := by omega
  have middle : ((n * 0x40 + m) * 0x40 + k) / 0x40 % 0x40 = m := by omega
  have last : ((n * 0x40 + m) * 0x40 + k) % 0x40 = k := by omega
  rw [utf8EncodeChar, value, if_neg (by omega), if_neg (by omega), if_pos (by omega), lead,
    middle, last]

theorem utf8EncodeChar_four {k j : ℕ} (second : m < 0x40) (third : k < 0x40) (fourth : j < 0x40)
    (low : 0x10 ≤ n * 0x40 + m) (high : n * 0x40 + m < 0x110) :
    utf8EncodeChar (Char.ofNat (((n * 0x40 + m) * 0x40 + k) * 0x40 + j)) =
      [UInt8.ofNat (0xF0 + n), UInt8.ofNat (0x80 + m), UInt8.ofNat (0x80 + k),
        UInt8.ofNat (0x80 + j)] := by
  have value : (Char.ofNat (((n * 0x40 + m) * 0x40 + k) * 0x40 + j)).toNat =
      ((n * 0x40 + m) * 0x40 + k) * 0x40 + j := toNat_ofNat (by omega)
  have lead : (((n * 0x40 + m) * 0x40 + k) * 0x40 + j) / 0x40000 = n := by omega
  have middle : (((n * 0x40 + m) * 0x40 + k) * 0x40 + j) / 0x1000 % 0x40 = m := by omega
  have next : (((n * 0x40 + m) * 0x40 + k) * 0x40 + j) / 0x40 % 0x40 = k := by omega
  have last : (((n * 0x40 + m) * 0x40 + k) * 0x40 + j) % 0x40 = j := by omega
  rw [utf8EncodeChar, value, if_neg (by omega), if_neg (by omega), if_neg (by omega), lead,
    middle, next, last]

variable {pending : Bytes}

theorem utf8Feed_feeds (read : Pending state pending) (byte : UInt8) :
    Feeds pending byte (utf8Feed state byte) := by
  by_cases expected : state.needed ≠ 0 ∧ ¬(state.lower ≤ byte.toNat ∧ byte.toNat ≤ state.upper)
  · rw [utf8Feed_breaks expected.1 expected.2]
    apply Feeds.breaks
    · rintro rfl
      cases read
      exact expected.1 rfl
    · exact utf8First_starts byte
  cases read with
  | between => exact Feeds.starts rfl (utf8First_starts byte)
  | two low high =>
      obtain ⟨m, second, rfl, value⟩ := @exists_tail byte (by simp at expected; omega)
        (by simp at expected; omega)
      rw [utf8Feed_last (by omega) (by omega) second]
      exact Feeds.completes (utf8EncodeChar_two low high second)
  | @three n high =>
      have range : (if n = 0 then 0xA0 else 0x80) ≤ byte.toNat ∧
          byte.toNat ≤ if n = 0xD then 0x9F else 0xBF := by
        simpa using expected
      obtain ⟨m, second, rfl, value⟩ := @exists_tail byte (by split at range <;> omega)
        (by split at range <;> split at range <;> omega)
      rw [value] at range
      rw [utf8Feed_continue 0 range.1 range.2 second]
      apply Feeds.continues
      apply Pending.threeTail high second
      · split at range <;> omega
      · split at range <;> split at range <;> omega
  | threeTail first second low scalar =>
      obtain ⟨k, third, rfl, value⟩ := @exists_tail byte (by simp at expected; omega)
        (by simp at expected; omega)
      rw [utf8Feed_last (by omega) (by omega) third]
      exact Feeds.completes (utf8EncodeChar_three first second third low scalar)
  | @four n high =>
      have range : (if n = 0 then 0x90 else 0x80) ≤ byte.toNat ∧
          byte.toNat ≤ if n = 4 then 0x8F else 0xBF := by
        simpa using expected
      obtain ⟨m, second, rfl, value⟩ := @exists_tail byte (by split at range <;> omega)
        (by split at range <;> split at range <;> omega)
      rw [value] at range
      rw [utf8Feed_continue 1 range.1 range.2 second]
      apply Feeds.continues
      apply Pending.fourTail second
      · split at range <;> omega
      · split at range <;> split at range <;> omega
  | fourTail second low high =>
      obtain ⟨k, third, rfl, value⟩ := @exists_tail byte (by simp at expected; omega)
        (by simp at expected; omega)
      rw [utf8Feed_continue 0 (by omega) (by omega) third]
      exact Feeds.continues (Pending.fourTails second third low high)
  | fourTails second third low high =>
      obtain ⟨j, fourth, rfl, value⟩ := @exists_tail byte (by simp at expected; omega)
        (by simp at expected; omega)
      rw [utf8Feed_last (by omega) (by omega) fourth]
      exact Feeds.completes (utf8EncodeChar_four second third fourth low high)

/-! From the text back to the bytes. -/

theorem pending_nil_iff (read : Pending state pending) :
    pending = [] ↔ state.needed = 0 := by
  cases read <;> simp [Utf8State.between]

theorem utf8EncodeChar_length_pos (c : Char) : 0 < (utf8EncodeChar c).length := by
  unfold utf8EncodeChar
  split_ifs <;> simp

variable {result : List Char × Utf8State}

theorem starts_encoded (starts : Starts byte result) (kept : replacementChar ∉ result.1) :
    ∃ pending, Pending result.2 pending ∧ result.1.flatMap utf8EncodeChar ++ pending = [byte] := by
  cases starts with
  | opens pending => exact ⟨[byte], pending, rfl⟩
  | completes encoded => exact ⟨[], Pending.between, by simpa using encoded⟩
  | rejects => exact absurd (List.mem_singleton_self _) kept

theorem feeds_encoded (feeds : Feeds pending byte result) (kept : replacementChar ∉ result.1) :
    ∃ next, Pending result.2 next ∧
      result.1.flatMap utf8EncodeChar ++ next = pending ++ [byte] := by
  cases feeds with
  | continues further => exact ⟨_, further, rfl⟩
  | completes encoded => exact ⟨[], Pending.between, by simpa using encoded⟩
  | starts none starts =>
      rw [none]
      exact starts_encoded starts kept
  | breaks some starts => exact absurd List.mem_cons_self kept

theorem utf8DecodeFrom_encoded (read : Pending state pending) (bytes : Bytes)
    (kept : replacementChar ∉ utf8DecodeFrom state bytes) :
    (utf8DecodeFrom state bytes).flatMap utf8EncodeChar = pending ++ bytes := by
  induction bytes generalizing state pending with
  | nil =>
      rw [utf8DecodeFrom] at kept ⊢
      split_ifs at kept ⊢ with finished
      · rw [(pending_nil_iff read).mpr finished]
        rfl
      · exact absurd (List.mem_singleton_self _) kept
  | cons byte bytes ih =>
      rw [utf8DecodeFrom, List.mem_append, not_or] at kept
      obtain ⟨next, further, joined⟩ := feeds_encoded (utf8Feed_feeds read byte) kept.1
      rw [utf8DecodeFrom, List.flatMap_append, ih further kept.2, ← List.append_assoc, joined,
        List.append_assoc]
      rfl

theorem utf8Encode_utf8Decode {bytes : Bytes} (kept : replacementChar ∉ utf8DecodeScalars bytes) :
    utf8Encode (utf8Decode bytes) = bytes := by
  rw [utf8Encode, utf8Decode, scalars_ofScalars, utf8DecodeScalars,
    utf8DecodeFrom_encoded Pending.between bytes kept]
  rfl

/-! Other bytes for the same text: any byte that starts no sequence reads as U+FFFD. -/

def encodeWith (invalid : UInt8) (c : Char) : Bytes :=
  if c = replacementChar then [invalid] else utf8EncodeChar c

theorem length_encodeWith_le (invalid : UInt8) (c : Char) :
    (encodeWith invalid c).length ≤ (utf8EncodeChar c).length := by
  unfold encodeWith
  split
  · exact utf8EncodeChar_length_pos c
  · exact Nat.le_refl _

theorem starts_length (starts : Starts byte result) (invalid : UInt8) :
    ∃ pending, Pending result.2 pending ∧
      (result.1.flatMap (encodeWith invalid)).length + pending.length ≤ 1 := by
  cases starts with
  | opens pending => exact ⟨[byte], pending, by simp⟩
  | @completes c encoded =>
      have bound := length_encodeWith_le invalid c
      rw [encoded, List.length_singleton] at bound
      exact ⟨[], Pending.between, by simpa using bound⟩
  | rejects => exact ⟨[], Pending.between, by simp [encodeWith]⟩

theorem feeds_length (feeds : Feeds pending byte result) (invalid : UInt8) :
    ∃ next, Pending result.2 next ∧
      (result.1.flatMap (encodeWith invalid)).length + next.length ≤ pending.length + 1 := by
  cases feeds with
  | continues further => exact ⟨_, further, by simp⟩
  | @completes c encoded =>
      have bound := length_encodeWith_le invalid c
      rw [encoded, List.length_append, List.length_singleton] at bound
      exact ⟨[], Pending.between, by simpa using bound⟩
  | starts none starts =>
      obtain ⟨next, further, bound⟩ := starts_length starts invalid
      exact ⟨next, further, by omega⟩
  | @breaks result some starts =>
      obtain ⟨next, further, bound⟩ := starts_length starts invalid
      have one := List.length_pos_iff.mpr some
      refine ⟨next, further, ?_⟩
      rw [List.flatMap_cons, List.length_append]
      simp only [encodeWith, if_true, List.length_singleton]
      omega

theorem length_utf8DecodeFrom_le (read : Pending state pending) (bytes : Bytes) (invalid : UInt8) :
    ((utf8DecodeFrom state bytes).flatMap (encodeWith invalid)).length ≤
      pending.length + bytes.length := by
  induction bytes generalizing state pending with
  | nil =>
      rw [utf8DecodeFrom]
      split_ifs with finished
      · simp
      · have one : pending ≠ [] := fun none => finished ((pending_nil_iff read).mp none)
        have := List.length_pos_iff.mpr one
        simp only [List.flatMap_singleton, encodeWith, if_true, List.length_singleton,
          List.length_nil]
        omega
  | cons byte bytes ih =>
      obtain ⟨next, further, bound⟩ := feeds_length (utf8Feed_feeds read byte) invalid
      have rest := ih further
      rw [utf8DecodeFrom, List.flatMap_append, List.length_append, List.length_cons]
      omega

theorem utf8Feed_invalid (invalid : 0xF5 ≤ byte.toNat) :
    utf8Feed .between byte = ([replacementChar], .between) := by
  rw [utf8Feed_between]
  simp only [utf8First]
  rw [if_neg (by omega), if_neg (by omega), if_neg (by omega), if_neg (by omega),
    if_neg (by omega), if_neg (by omega), if_neg (by omega), if_neg (by omega)]

theorem utf8DecodeScalars_encodeWith (invalid : 0xF5 ≤ byte.toNat) (chars : List Char) :
    utf8DecodeScalars (chars.flatMap (encodeWith byte)) = chars := by
  induction chars with
  | nil => rfl
  | cons c chars ih =>
      rw [utf8DecodeScalars] at ih ⊢
      rw [List.flatMap_cons, encodeWith]
      by_cases replaced : c = replacementChar
      · rw [if_pos replaced, List.singleton_append, utf8DecodeFrom_cons (utf8Feed_invalid invalid),
          List.singleton_append, ih, replaced]
      · rw [if_neg replaced, utf8DecodeFrom_char, ih]

theorem encodeWith_ne {other : UInt8} (differ : byte ≠ other) {chars : List Char}
    (replaced : replacementChar ∈ chars) :
    chars.flatMap (encodeWith byte) ≠ chars.flatMap (encodeWith other) := by
  induction chars with
  | nil => cases replaced
  | cons c chars ih =>
      rw [List.flatMap_cons, List.flatMap_cons, encodeWith, encodeWith]
      by_cases first : c = replacementChar
      · rw [if_pos first, if_pos first]
        intro same
        exact differ (List.cons.inj same).1
      · rw [if_neg first, if_neg first]
        have later : replacementChar ∈ chars := by
          rcases List.mem_cons.mp replaced with same | later
          · exact absurd same.symm first
          · exact later
        exact fun same => ih later (List.append_cancel_left same)

theorem ascii_of_mem_encodeWith {invalid : UInt8} (large : 0xF5 ≤ invalid.toNat)
    {chars : List Char} (member : byte ∈ chars.flatMap (encodeWith invalid))
    (ascii : byte.toNat < 0x80) : ∃ c ∈ chars, c.toNat = byte.toNat := by
  obtain ⟨c, inChars, inChar⟩ := List.mem_flatMap.mp member
  refine ⟨c, inChars, ?_⟩
  rw [encodeWith] at inChar
  split at inChar
  · rw [List.mem_singleton.mp inChar] at ascii
    omega
  · exact utf8EncodeChar_ascii inChar ascii

theorem exists_other_bytes {bytes : Bytes} (replaced : replacementChar ∈ utf8DecodeScalars bytes) :
    ∃ other, other ≠ bytes ∧ utf8Decode other = utf8Decode bytes ∧
      other.length ≤ bytes.length ∧
      ∀ byte ∈ other, byte.toNat < 0x80 → ∃ unit ∈ utf8Decode bytes, unit.toNat = byte.toNat := by
  have made {invalid : UInt8} (large : 0xF5 ≤ invalid.toNat)
      (differs : (utf8DecodeScalars bytes).flatMap (encodeWith invalid) ≠ bytes) :
      ∃ other, other ≠ bytes ∧ utf8Decode other = utf8Decode bytes ∧
        other.length ≤ bytes.length ∧
        ∀ byte ∈ other, byte.toNat < 0x80 → ∃ unit ∈ utf8Decode bytes, unit.toNat = byte.toNat := by
    refine ⟨_, differs, ?_, ?_, ?_⟩
    · rw [utf8Decode, utf8Decode, utf8DecodeScalars_encodeWith large]
    · have bound := length_utf8DecodeFrom_le Pending.between bytes invalid
      rwa [List.length_nil, Nat.zero_add] at bound
    · intro byte member ascii
      obtain ⟨c, inChars, value⟩ := ascii_of_mem_encodeWith large member ascii
      have inScalars : c ∈ scalars (utf8Decode bytes) := by
        rwa [utf8Decode, scalars_ofScalars]
      obtain ⟨unit, inText, same⟩ := mem_of_mem_scalars inScalars (by omega)
      exact ⟨unit, inText, by omega⟩
  by_cases same : (utf8DecodeScalars bytes).flatMap (encodeWith 0xFF) = bytes
  · have differ := @encodeWith_ne 0xFE 0xFF (by decide) _ replaced
    rw [same] at differ
    exact made (by decide) differ
  · exact made (by decide) same

end AshlrHub.Js
