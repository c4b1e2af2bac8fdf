import AshlrHub.Js.Decimal

namespace AshlrHub.Js

/-! Time values and their ISO text: `Date.prototype.toISOString` and `Date.parse`.
A time value is a count of milliseconds from the epoch. -/

def msPerDay : ℤ := 86400000

/-- The largest magnitude a `Date` can hold. -/
def maxTime : ℤ := 8640000000000000

def isTime (t : ℤ) : Bool :=
  -maxTime ≤ t && t ≤ maxTime

/-! The proleptic Gregorian calendar, by day numbers. -/

def dayFromYear (year : ℤ) : ℤ :=
  365 * (year - 1970) + (year - 1969) / 4 - (year - 1901) / 100 + (year - 1601) / 400

def inLeapYear (year : ℤ) : Bool :=
  year % 4 = 0 && (year % 100 ≠ 0 || year % 400 = 0)

def yearFromDay (day : ℤ) : ℤ :=
  let guess := 1970 + day * 400 / 146097
  if dayFromYear (guess + 1) ≤ day then guess + 1
  else if day < dayFromYear guess then guess - 1
  else guess

def monthStart (leap : Bool) (month : ℕ) : ℕ :=
  let february := if leap then 29 else 28
  match month with
  | 0 => 0
  | 1 => 31
  | 2 => 31 + february
  | 3 => 62 + february
  | 4 => 92 + february
  | 5 => 123 + february
  | 6 => 153 + february
  | 7 => 184 + february
  | 8 => 215 + february
  | 9 => 245 + february
  | 10 => 276 + february
  | 11 => 306 + february
  | _ => 337 + february

def monthFromDay (leap : Bool) (dayInYear : ℕ) : ℕ :=
  ((List.range 12).find? fun month => dayInYear < monthStart leap (month + 1)).getD 11

structure Instant where
  year : ℤ
  month : ℕ
  day : ℕ
  hour : ℕ
  minute : ℕ
  second : ℕ
  millisecond : ℕ

def Instant.ofTime (t : ℤ) : Instant :=
  let dayNumber := t / msPerDay
  let inDay := (t % msPerDay).toNat
  let year := yearFromDay dayNumber
  let dayInYear := (dayNumber - dayFromYear year).toNat
  let month := monthFromDay (inLeapYear year) dayInYear
  { year := year
    month := month + 1
    day := dayInYear - monthStart (inLeapYear year) month + 1
    hour := inDay / 3600000
    minute := inDay / 60000 % 60
    second := inDay / 1000 % 60
    millisecond := inDay % 1000 }

def Instant.time (i : Instant) : ℤ :=
  (dayFromYear i.year + monthStart (inLeapYear i.year) (i.month - 1) + i.day - 1) * msPerDay +
    i.hour * 3600000 + i.minute * 60000 + i.second * 1000 + i.millisecond

/-- The ranges `Date.parse` allows its fields. -/
def Instant.inRange (i : Instant) : Bool :=
  1 ≤ i.month && i.month ≤ 12 && 1 ≤ i.day && i.day ≤ 31 &&
    i.minute ≤ 59 && i.second ≤ 59 &&
    (i.hour ≤ 23 || (i.hour = 24 && i.minute = 0 && i.second = 0 && i.millisecond = 0))

/-! The ISO text of an instant. -/

def digitUnit (n : ℕ) : CodeUnit :=
  UInt16.ofNat (0x30 + n % 10)

def pad2 (n : ℕ) : JsString := [digitUnit (n / 10), digitUnit n]

def pad3 (n : ℕ) : JsString := digitUnit (n / 100) :: pad2 n

def pad4 (n : ℕ) : JsString := digitUnit (n / 1000) :: pad3 n

def pad6 (n : ℕ) : JsString := digitUnit (n / 100000) :: digitUnit (n / 10000) :: pad4 n

def yearText (year : ℤ) : JsString :=
  if 0 ≤ year ∧ year ≤ 9999 then pad4 year.toNat
  else if year < 0 then js "-" ++ pad6 year.natAbs
  else js "+" ++ pad6 year.natAbs

def Instant.tailText (i : Instant) : JsString :=
  js "-" ++ (pad2 i.month ++ (js "-" ++ (pad2 i.day ++ (js "T" ++ (pad2 i.hour ++ (js ":" ++
    (pad2 i.minute ++ (js ":" ++ (pad2 i.second ++ (js "." ++ (pad3 i.millisecond ++
      js "Z")))))))))))

/-- `new Date(t).toISOString()`; a time out of range throws. -/
def toISOString (t : ℤ) : Option JsString :=
  if isTime t then
    some (yearText (Instant.ofTime t).year ++ (Instant.ofTime t).tailText)
  else none

/-- A text that has a digit at each `d` of the template and its letters elsewhere. -/
def matchesTemplate : JsString → JsString → Bool
  | [], text => text = []
  | _ :: _, [] => false
  | slot :: template, unit :: text =>
      (if slot = 0x64 then isDigit unit else unit = slot) && matchesTemplate template text

def fieldAt (text : JsString) (start count : ℕ) : ℕ :=
  digitsValue ((text.drop start).take count)

def tailTemplate : JsString := js "-dd-ddTdd:dd:dd.dddZ"

def readTail (year : ℤ) (text : JsString) : Option Instant :=
  if matchesTemplate tailTemplate text then
    some
      { year := year
        month := fieldAt text 1 2
        day := fieldAt text 4 2
        hour := fieldAt text 7 2
        minute := fieldAt text 10 2
        second := fieldAt text 13 2
        millisecond := fieldAt text 16 3 }
  else none

def readInstant (text : JsString) : Option Instant :=
  match text.head? with
  | some 0x2B =>
      if (text.tail.take 6).all isDigit then
        readTail (digitsValue (text.tail.take 6)) (text.drop 7)
      else none
  | some 0x2D =>
      if (text.tail.take 6).all isDigit ∧ digitsValue (text.tail.take 6) ≠ 0 then
        readTail (-digitsValue (text.tail.take 6)) (text.drop 7)
      else none
  | _ =>
      if (text.take 4).all isDigit then
        readTail (digitsValue (text.take 4)) (text.drop 4)
      else none

/-- `Date.parse` on the date-time form of ISO 8601 with milliseconds and `Z`.
What it returns on other texts depends on the engine and is left at none. -/
def dateParse (text : JsString) : Option ℤ :=
  match readInstant text with
  | some i => if i.inRange && isTime i.time then some i.time else none
  | none => none

/-- A text that is exactly what `toISOString` gives for the time it parses to. -/
def isCanonicalInstant (text : JsString) : Bool :=
  match dateParse text with
  | some t => toISOString t = some text
  | none => false

/-! The calendar. -/

theorem dayFromYear_succ (year : ℤ) :
    dayFromYear (year + 1) = dayFromYear year + if inLeapYear year then 366 else 365 := by
  have fours : (year + 1 - 1969) / 4 = (year - 1969) / 4 + if year % 4 = 0 then 1 else 0 := by
    split_ifs <;> omega
  have hundreds : (year + 1 - 1901) / 100 =
      (year - 1901) / 100 + if year % 100 = 0 then 1 else 0 := by
    split_ifs <;> omega
  have fourHundreds : (year + 1 - 1601) / 400 =
      (year - 1601) / 400 + if year % 400 = 0 then 1 else 0 := by
    split_ifs <;> omega
  have among : (year % 100 = 0 → year % 4 = 0) ∧ (year % 400 = 0 → year % 100 = 0) := by omega
  unfold dayFromYear inLeapYear
  rw [fours, hundreds, fourHundreds]
  generalize (year - 1969) / 4 = x, (year - 1901) / 100 = y, (year - 1601) / 400 = z
  by_cases four : year % 4 = 0 <;> by_cases hundred : year % 100 = 0 <;>
    by_cases fourHundred : year % 400 = 0 <;>
    simp [four, hundred, fourHundred] at among ⊢ <;> omega

theorem dayFromYear_bounds (year : ℤ) :
    146097 * (year - 1970) - 510 ≤ 400 * dayFromYear year ∧
      400 * dayFromYear year ≤ 146097 * (year - 1970) + 590 := by
  unfold dayFromYear
  omega

theorem yearFromDay_bounds (day : ℤ) :
    dayFromYear (yearFromDay day) ≤ day ∧ day < dayFromYear (yearFromDay day + 1) := by
  unfold yearFromDay
  dsimp only
  set guess := 1970 + day * 400 / 146097 with guessed
  have here := dayFromYear_bounds guess
  have before := dayFromYear_bounds (guess - 1)
  have next := dayFromYear_bounds (guess + 1)
  have after := dayFromYear_bounds (guess + 1 + 1)
  split_ifs with late early
  · exact ⟨late, by omega⟩
  · refine ⟨by omega, ?_⟩
    rwa [sub_add_cancel]
  · exact ⟨by omega, by omega⟩

theorem dayInYear_lt (day : ℤ) :
    (day - dayFromYear (yearFromDay day)).toNat < monthStart (inLeapYear (yearFromDay day)) 12 := by
  obtain ⟨low, high⟩ := yearFromDay_bounds day
  rw [dayFromYear_succ] at high
  cases leap : inLeapYear (yearFromDay day) <;> simp [leap, monthStart] at high ⊢ <;> omega

variable {leap : Bool} {dayInYear : ℕ}

theorem monthFromDay_spec (bound : dayInYear < monthStart leap 12) :
    monthFromDay leap dayInYear < 12 ∧
      dayInYear < monthStart leap (monthFromDay leap dayInYear + 1) ∧
      ∀ month < monthFromDay leap dayInYear, monthStart leap (month + 1) ≤ dayInYear := by
  rw [monthFromDay]
  cases found : (List.range 12).find? fun month => dayInYear < monthStart leap (month + 1) with
  | none =>
      have past := List.find?_eq_none.mp found 11 (by decide)
      simp only [decide_eq_true_eq] at past
      exact absurd bound past
  | some month =>
      obtain ⟨before, inside, first⟩ := List.find?_range_eq_some.mp found
      refine ⟨List.mem_range.mp inside, of_decide_eq_true before, fun earlier below => ?_⟩
      simpa using first earlier below

theorem monthFromDay_bounds (leap : Bool) (dayInYear : ℕ)
    (bound : dayInYear < monthStart leap 12) :
    monthFromDay leap dayInYear < 12 ∧
      monthStart leap (monthFromDay leap dayInYear) ≤ dayInYear ∧
      dayInYear < monthStart leap (monthFromDay leap dayInYear) + 31 := by
  obtain ⟨inside, before, first⟩ := monthFromDay_spec bound
  have length : ∀ leap : Bool, ∀ month < 12,
      monthStart leap (month + 1) ≤ monthStart leap month + 31 := by decide
  refine ⟨inside, ?_, lt_of_lt_of_le before (length leap _ inside)⟩
  cases month : monthFromDay leap dayInYear with
  | zero => exact Nat.zero_le _
  | succ earlier => exact first earlier (by omega)

/-! An instant stands for the time it came from. -/

theorem Instant.ofTime_bounds (t : ℤ) :
    let i := Instant.ofTime t
    1 ≤ i.month ∧ i.month ≤ 12 ∧ 1 ≤ i.day ∧ i.day ≤ 31 ∧ i.hour ≤ 23 ∧ i.minute ≤ 59 ∧
      i.second ≤ 59 ∧ i.millisecond ≤ 999 := by
  have inDay : (t % msPerDay).toNat < 86400000 := by
    unfold msPerDay
    omega
  have month := monthFromDay_bounds _ _ (dayInYear_lt (t / msPerDay))
  simp only [Instant.ofTime]
  omega

theorem Instant.time_ofTime (t : ℤ) : (Instant.ofTime t).time = t := by
  obtain ⟨low, -⟩ := yearFromDay_bounds (t / msPerDay)
  have month := monthFromDay_bounds _ _ (dayInYear_lt (t / msPerDay))
  have inDay : 0 ≤ t % msPerDay ∧ t % msPerDay < 86400000 := by
    unfold msPerDay
    omega
  have whole : t / msPerDay * msPerDay + t % msPerDay = t := Int.ediv_mul_add_emod t msPerDay
  simp only [Instant.time, Instant.ofTime, Nat.add_sub_cancel]
  set year := yearFromDay (t / msPerDay)
  set dayInYear := (t / msPerDay - dayFromYear year).toNat with days
  set start := monthStart (inLeapYear year) (monthFromDay (inLeapYear year) dayInYear)
  set clock := (t % msPerDay).toNat with clockDef
  have day : dayFromYear year + start + ((dayInYear - start + 1 : ℕ) : ℤ) - 1 = t / msPerDay := by
    omega
  have clockSum : ((clock / 3600000 : ℕ) : ℤ) * 3600000 + ((clock / 60000 % 60 : ℕ) : ℤ) * 60000 +
      ((clock / 1000 % 60 : ℕ) : ℤ) * 1000 + ((clock % 1000 : ℕ) : ℤ) = t % msPerDay := by
    omega
  rw [day]
  omega

variable {t : ℤ}

theorem isTime_iff : isTime t = true ↔ -maxTime ≤ t ∧ t ≤ maxTime := by
  simp only [isTime, Bool.and_eq_true, decide_eq_true_eq]

theorem yearFromDay_range (time : isTime t = true) :
    -271822 < yearFromDay (t / msPerDay) ∧ yearFromDay (t / msPerDay) < 275761 := by
  obtain ⟨low, high⟩ := yearFromDay_bounds (t / msPerDay)
  have first := dayFromYear_bounds (yearFromDay (t / msPerDay))
  have next := dayFromYear_bounds (yearFromDay (t / msPerDay) + 1)
  rw [isTime_iff] at time
  unfold msPerDay maxTime at *
  omega

/-! Reading back the text of an instant. -/

theorem digitUnit_value (n : ℕ) : (digitUnit n).toNat - 0x30 = n % 10 := by
  have bound := Nat.mod_lt n (by norm_num : 0 < 10)
  rw [digitUnit, unitOfDigit_toNat bound, Nat.add_sub_cancel_left]

@[simp] theorem isDigit_digitUnit (n : ℕ) : isDigit (digitUnit n) = true :=
  isDigit_unitOfDigit (Nat.mod_lt n (by norm_num))

variable {n : ℕ}

theorem digitsValue_pad2 (bound : n < 100) :
    digitsValue [digitUnit (n / 10), digitUnit n] = n := by
  simp only [digitsValue, List.foldl_cons, List.foldl_nil, digitUnit_value]
  omega

theorem digitsValue_pad3 (bound : n < 1000) :
    digitsValue [digitUnit (n / 100), digitUnit (n / 10), digitUnit n] = n := by
  simp only [digitsValue, List.foldl_cons, List.foldl_nil, digitUnit_value]
  omega

theorem digitsValue_pad4 (bound : n < 10000) : digitsValue (pad4 n) = n := by
  simp only [pad4, pad3, pad2, digitsValue, List.foldl_cons, List.foldl_nil, digitUnit_value]
  omega

theorem digitsValue_pad6 (bound : n < 1000000) : digitsValue (pad6 n) = n := by
  simp only [pad6, pad4, pad3, pad2, digitsValue, List.foldl_cons, List.foldl_nil, digitUnit_value]
  omega

theorem Instant.tailText_eq (i : Instant) :
    i.tailText = [0x2D, digitUnit (i.month / 10), digitUnit i.month,
      0x2D, digitUnit (i.day / 10), digitUnit i.day,
      0x54, digitUnit (i.hour / 10), digitUnit i.hour,
      0x3A, digitUnit (i.minute / 10), digitUnit i.minute,
      0x3A, digitUnit (i.second / 10), digitUnit i.second,
      0x2E, digitUnit (i.millisecond / 100), digitUnit (i.millisecond / 10),
      digitUnit i.millisecond, 0x5A] := rfl

theorem tailTemplate_eq : tailTemplate = [0x2D, 0x64, 0x64, 0x2D, 0x64, 0x64, 0x54, 0x64, 0x64,
    0x3A, 0x64, 0x64, 0x3A, 0x64, 0x64, 0x2E, 0x64, 0x64, 0x64, 0x5A] := rfl

variable {i : Instant}

theorem readTail_tailText (month : i.month < 100) (day : i.day < 100) (hour : i.hour < 100)
    (minute : i.minute < 100) (second : i.second < 100) (millisecond : i.millisecond < 1000) :
    readTail i.year i.tailText = some i := by
  have shape : matchesTemplate tailTemplate i.tailText = true := by
    rw [i.tailText_eq, tailTemplate_eq]
    simp [matchesTemplate]
  rw [readTail, if_pos shape, i.tailText_eq]
  simp only [fieldAt, List.drop_succ_cons, List.drop_zero, List.take_succ_cons, List.take_zero,
    digitsValue_pad2 month, digitsValue_pad2 day, digitsValue_pad2 hour,
    digitsValue_pad2 minute, digitsValue_pad2 second, digitsValue_pad3 millisecond]

theorem all_isDigit_pad4 (n : ℕ) : (pad4 n).all isDigit = true := by
  simp [pad4, pad3, pad2]

theorem all_isDigit_pad6 (n : ℕ) : (pad6 n).all isDigit = true := by
  simp [pad6, pad4, pad3, pad2]

theorem digitUnit_ne (n : ℕ) : digitUnit n ≠ 0x2B ∧ digitUnit n ≠ 0x2D := by
  have digit := isDigit_digitUnit n
  constructor <;> intro same <;> rw [same] at digit <;> exact absurd digit (by decide)

theorem readInstant_plain (n : ℕ) (rest : JsString) :
    readInstant (pad4 n ++ rest) =
      if (pad4 n).all isDigit = true then readTail (digitsValue (pad4 n)) rest else none := by
  have head : (pad4 n ++ rest).head? = some (digitUnit (n / 1000)) := rfl
  unfold readInstant
  rw [head]
  split
  · next same => exact absurd (Option.some.inj same) (digitUnit_ne _).1
  · next same => exact absurd (Option.some.inj same) (digitUnit_ne _).2
  · rfl

theorem readInstant_text (range : -1000000 < i.year ∧ i.year < 1000000)
    (tail : readTail i.year i.tailText = some i) :
    readInstant (yearText i.year ++ i.tailText) = some i := by
  unfold yearText
  split_ifs with plain negative
  · have value : ((digitsValue (pad4 i.year.toNat) : ℕ) : ℤ) = i.year := by
      rw [digitsValue_pad4 (by omega)]
      omega
    rw [readInstant_plain, if_pos (all_isDigit_pad4 _), value, tail]
  · have magnitude : digitsValue (pad6 i.year.natAbs) = i.year.natAbs :=
      digitsValue_pad6 (by omega)
    have nonzero : digitsValue (pad6 i.year.natAbs) ≠ 0 := by omega
    have value : -((digitsValue (pad6 i.year.natAbs) : ℕ) : ℤ) = i.year := by omega
    change (if (pad6 i.year.natAbs).all isDigit ∧ digitsValue (pad6 i.year.natAbs) ≠ 0 then
      readTail (-digitsValue (pad6 i.year.natAbs)) i.tailText else none) = some i
    rw [if_pos ⟨all_isDigit_pad6 _, nonzero⟩, value, tail]
  · have magnitude : digitsValue (pad6 i.year.natAbs) = i.year.natAbs :=
      digitsValue_pad6 (by omega)
    have value : ((digitsValue (pad6 i.year.natAbs) : ℕ) : ℤ) = i.year := by omega
    change (if (pad6 i.year.natAbs).all isDigit then
      readTail (digitsValue (pad6 i.year.natAbs)) i.tailText else none) = some i
    rw [if_pos (all_isDigit_pad6 _), value, tail]

theorem dateParse_toISOString {text : JsString} (formatted : toISOString t = some text) :
    dateParse text = some t := by
  unfold toISOString at formatted
  split_ifs at formatted with time
  obtain rfl := Option.some.inj formatted
  have bounds := Instant.ofTime_bounds t
  have year := yearFromDay_range time
  dsimp only at bounds
  have tail := readTail_tailText (i := Instant.ofTime t) (by omega) (by omega) (by omega)
    (by omega) (by omega) (by omega)
  have inRange : (Instant.ofTime t).inRange = true := by
    simp only [Instant.inRange, Bool.and_eq_true, Bool.or_eq_true, decide_eq_true_eq]
    omega
  have yearOf : (Instant.ofTime t).year = yearFromDay (t / msPerDay) := rfl
  rw [dateParse, readInstant_text (by omega) tail]
  simp only [inRange, Instant.time_ofTime, time, Bool.and_self, if_true]

/-- The canonical texts are those `toISOString` can give. -/
theorem isCanonicalInstant_iff {text : JsString} :
    isCanonicalInstant text = true ↔ ∃ t, toISOString t = some text := by
  constructor
  · intro canonical
    unfold isCanonicalInstant at canonical
    split at canonical
    · next t _ => exact ⟨t, by simpa using canonical⟩
    · cases canonical
  · rintro ⟨t, formatted⟩
    simp [isCanonicalInstant, dateParse_toISOString formatted, formatted]

example : dateParse (js "2023-02-29T00:00:00.000Z") = some 1677628800000 ∧
    isCanonicalInstant (js "2023-02-29T00:00:00.000Z") = false := by
  decide +kernel

/-! Canonical instants of the years 0 to 9999 are ordered as texts as they are in time. -/

variable {a b : ℕ}

theorem digitUnit_lt (less : a % 10 < b % 10) : digitUnit a < digitUnit b := by
  unfold digitUnit
  rw [UInt16.lt_iff_toNat_lt, UInt16.toNat_ofNat', UInt16.toNat_ofNat']
  omega

theorem digitUnit_congr (same : a % 10 = b % 10) : digitUnit a = digitUnit b := by
  unfold digitUnit
  rw [same]

theorem cons_lt_of_lt {a b : CodeUnit} (less : a < b) (x y : JsString) : a :: x < b :: y :=
  List.Lex.rel less

variable {x y : JsString}

theorem cons_lt_of_eq {a b : CodeUnit} (same : a = b) (less : x < y) :
    a :: x < b :: y := by
  rw [same]
  exact List.Lex.cons less

theorem pad2_lt_of_eq (less : a < b) (same : a / 100 = b / 100) (x y : JsString) :
    pad2 a ++ x < pad2 b ++ y := by
  rcases lt_or_eq_of_le (Nat.div_le_div_right less.le : a / 10 ≤ b / 10) with tens | tens
  · exact cons_lt_of_lt (digitUnit_lt (by omega)) _ _
  · exact cons_lt_of_eq (digitUnit_congr (by omega)) (cons_lt_of_lt (digitUnit_lt (by omega)) _ _)

theorem pad3_lt_of_eq (less : a < b) (same : a / 1000 = b / 1000) (x y : JsString) :
    pad3 a ++ x < pad3 b ++ y := by
  rcases lt_or_eq_of_le (Nat.div_le_div_right less.le : a / 100 ≤ b / 100) with high | high
  · exact cons_lt_of_lt (digitUnit_lt (by omega)) _ _
  · exact cons_lt_of_eq (digitUnit_congr (by omega)) (pad2_lt_of_eq less high x y)

theorem pad2_lt (less : a < b) (bound : b < 100) (x y : JsString) :
    pad2 a ++ x < pad2 b ++ y :=
  pad2_lt_of_eq less (by omega) x y

theorem pad3_lt (less : a < b) (bound : b < 1000) (x y : JsString) :
    pad3 a ++ x < pad3 b ++ y :=
  pad3_lt_of_eq less (by omega) x y

theorem pad4_lt (less : a < b) (bound : b < 10000) (x y : JsString) :
    pad4 a ++ x < pad4 b ++ y := by
  rcases lt_or_eq_of_le (Nat.div_le_div_right less.le : a / 1000 ≤ b / 1000) with high | high
  · exact cons_lt_of_lt (digitUnit_lt (by omega)) _ _
  · exact cons_lt_of_eq (digitUnit_congr (by omega)) (pad3_lt_of_eq less high x y)

theorem append_lt_append_left (shared : JsString) (less : x < y) :
    shared ++ x < shared ++ y := by
  induction shared with
  | nil => exact less
  | cons unit shared ih => exact List.Lex.cons ih

/-! The fields of a later instant. -/

theorem dayFromYear_mono {a b : ℤ} (le : a ≤ b) : dayFromYear a ≤ dayFromYear b := by
  unfold dayFromYear
  omega

theorem yearFromDay_mono {a b : ℤ} (le : a ≤ b) : yearFromDay a ≤ yearFromDay b := by
  by_contra later
  have first := yearFromDay_bounds a
  have second := yearFromDay_bounds b
  have years := dayFromYear_mono (by omega : yearFromDay b + 1 ≤ yearFromDay a)
  omega

theorem monthFromDay_mono (leap : Bool) (le : a ≤ b) (bound : b < monthStart leap 12) :
    monthFromDay leap a ≤ monthFromDay leap b := by
  by_contra later
  have before := (monthFromDay_spec bound).2.1
  have after := (monthFromDay_spec (lt_of_le_of_lt le bound)).2.2 _ (Nat.not_le.mp later)
  omega

theorem Instant.ofTime_lt {u : ℤ} (less : t < u) :
    let i := Instant.ofTime t
    let j := Instant.ofTime u
    i.year < j.year ∨ i.year = j.year ∧ (i.month < j.month ∨ i.month = j.month ∧
      (i.day < j.day ∨ i.day = j.day ∧ (i.hour < j.hour ∨ i.hour = j.hour ∧
        (i.minute < j.minute ∨ i.minute = j.minute ∧ (i.second < j.second ∨
          i.second = j.second ∧ i.millisecond < j.millisecond))))) := by
  simp only [Instant.ofTime]
  have days : t / msPerDay ≤ u / msPerDay := by
    unfold msPerDay
    omega
  rcases lt_or_eq_of_le days with earlier | same
  · rcases lt_or_eq_of_le (yearFromDay_mono days) with year | year
    · exact .inl year
    · refine .inr ⟨year, ?_⟩
      rw [year]
      have first := yearFromDay_bounds (t / msPerDay)
      have inYear := dayInYear_lt (u / msPerDay)
      rw [year] at first
      have order : (t / msPerDay - dayFromYear (yearFromDay (u / msPerDay))).toNat <
          (u / msPerDay - dayFromYear (yearFromDay (u / msPerDay))).toNat := by omega
      have months := monthFromDay_mono (inLeapYear (yearFromDay (u / msPerDay))) order.le inYear
      have started := (monthFromDay_bounds (inLeapYear (yearFromDay (u / msPerDay)))
        (t / msPerDay - dayFromYear (yearFromDay (u / msPerDay))).toNat (by omega)).2.1
      rcases lt_or_eq_of_le months with month | month
      · exact .inl (by omega)
      · refine .inr ⟨by omega, .inl ?_⟩
        rw [← month]
        omega
  · rw [same]
    refine .inr ⟨rfl, .inr ⟨rfl, .inr ⟨rfl, ?_⟩⟩⟩
    have inDay : (t % msPerDay).toNat < (u % msPerDay).toNat := by
      unfold msPerDay at same ⊢
      omega
    omega

theorem Instant.tailText_lt {j : Instant} (month : j.month < 100) (day : j.day < 100)
    (hour : j.hour < 100) (minute : j.minute < 100) (second : j.second < 100)
    (millisecond : j.millisecond < 1000)
    (less : i.month < j.month ∨ i.month = j.month ∧
      (i.day < j.day ∨ i.day = j.day ∧ (i.hour < j.hour ∨ i.hour = j.hour ∧
        (i.minute < j.minute ∨ i.minute = j.minute ∧ (i.second < j.second ∨
          i.second = j.second ∧ i.millisecond < j.millisecond))))) :
    i.tailText < j.tailText := by
  unfold Instant.tailText
  refine append_lt_append_left _ ?_
  rcases less with less | ⟨same, less⟩
  · exact pad2_lt less month _ _
  rw [same]
  refine append_lt_append_left _ (append_lt_append_left _ ?_)
  rcases less with less | ⟨same, less⟩
  · exact pad2_lt less day _ _
  rw [same]
  refine append_lt_append_left _ (append_lt_append_left _ ?_)
  rcases less with less | ⟨same, less⟩
  · exact pad2_lt less hour _ _
  rw [same]
  refine append_lt_append_left _ (append_lt_append_left _ ?_)
  rcases less with less | ⟨same, less⟩
  · exact pad2_lt less minute _ _
  rw [same]
  refine append_lt_append_left _ (append_lt_append_left _ ?_)
  rcases less with less | ⟨same, less⟩
  · exact pad2_lt less second _ _
  rw [same]
  refine append_lt_append_left _ (append_lt_append_left _ ?_)
  exact pad3_lt less millisecond _ _

theorem toISOString_lt {u : ℤ} (less : t < u)
    (first : 0 ≤ (Instant.ofTime t).year ∧ (Instant.ofTime t).year ≤ 9999)
    (second : 0 ≤ (Instant.ofTime u).year ∧ (Instant.ofTime u).year ≤ 9999)
    (early : toISOString t = some x) (late : toISOString u = some y) : x < y := by
  unfold toISOString at early late
  split_ifs at early late
  rw [← Option.some.inj early, ← Option.some.inj late, yearText, yearText, if_pos first,
    if_pos second]
  have order := Instant.ofTime_lt less
  have bounds := Instant.ofTime_bounds u
  simp only at order bounds
  rcases order with year | ⟨year, order⟩
  · exact pad4_lt (by omega) (by omega) _ _
  · rw [year]
    exact append_lt_append_left _ (Instant.tailText_lt (by omega) (by omega) (by omega) (by omega)
      (by omega) (by omega) order)

end AshlrHub.Js
