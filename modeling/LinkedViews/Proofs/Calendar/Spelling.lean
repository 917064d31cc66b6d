import LinkedViews.Proofs.Calendar.DayCount
import LinkedViews.Proofs.Calendar.Timestamp

/-!
The spellings of a point in time. A date and a time of day, with a space or a letter between them,
with a fraction or without one and with an offset from universal time or without one, name the
milliseconds that the days, the time of day and the offset add up to.
-/

namespace LinkedViews.Timestamp

open Numeral

/-- A date and a time of day with the digits of a fraction of a second, if there are any. -/
structure Moment where
  date : Date
  hour : Nat
  minute : Nat
  second : Nat
  fraction : List Char

/-- An offset from universal time: none, or hours and minutes in advance of it or after it. -/
inductive Zone where
  | universal
  | ahead (hours minutes : Nat)
  | behind (hours minutes : Nat)

namespace Zone

def text : Zone → String
  | universal => "Z"
  | ahead hours minutes => "+" ++ padded 2 hours ++ ":" ++ padded 2 minutes
  | behind hours minutes => "-" ++ padded 2 hours ++ ":" ++ padded 2 minutes

def minutes : Zone → Int
  | universal => 0
  | ahead hours minutes => hours * 60 + minutes
  | behind hours minutes => -(hours * 60 + minutes)

def IsValid : Zone → Prop
  | universal => True
  | ahead hours minutes | behind hours minutes => hours ≤ 23 ∧ minutes ≤ 59

end Zone

namespace Moment

/-- A day of the common years, a time of day without a leap second and digits for the fraction. -/
structure IsValid (moment : Moment) : Prop where
  date : moment.date.isValid = true
  year : 0 ≤ moment.date.year ∧ moment.date.year ≤ 9999
  hour : moment.hour ≤ 23
  minute : moment.minute ≤ 59
  second : moment.second ≤ 59
  fraction : ∀ c ∈ moment.fraction, c.isDigit = true

def dateText (moment : Moment) : String :=
  padded 4 moment.date.year.toNat ++ "-" ++ padded 2 moment.date.month ++ "-" ++
    padded 2 moment.date.day

def timeText (moment : Moment) : String :=
  padded 2 moment.hour ++ ":" ++ padded 2 moment.minute ++ ":" ++ padded 2 moment.second ++
    if moment.fraction = [] then "" else "." ++ String.ofList moment.fraction

/-- The days from the first of January 1970 to the date. -/
def days (moment : Moment) : Int := moment.date.elapsedDays - Date.origin.elapsedDays

/-- The milliseconds from midnight to the time of day, of which a fraction has whole ones only. -/
def timeMillis (moment : Moment) : Nat :=
  ((moment.hour * 60 + moment.minute) * 60 + moment.second) * 1000 +
    valueOf moment.fraction * 1000 / 10 ^ moment.fraction.length

end Moment

variable {moment : Moment} {zone : Zone} {run rest : List Char}

/-! ## The texts -/

/-- The point of a fraction and its digits. -/
def pointChars (run : List Char) : List Char := if run = [] then [] else '.' :: run

theorem Moment.IsValid.toList_dateText (valid : moment.IsValid) :
    moment.dateText.toList = dateChars moment.date := by
  have year : moment.date.year.toNat = moment.date.year.natAbs := by
    have positive := valid.year.1
    omega
  simp [dateText, dateChars, toList_yearText valid.year, padded, year]

theorem toList_timeText (moment : Moment) :
    moment.timeText.toList =
      timeChars moment.hour moment.minute moment.second ++ pointChars moment.fraction := by
  have point : (if moment.fraction = [] then "" else "." ++ String.ofList moment.fraction).toList =
      pointChars moment.fraction := by
    unfold pointChars
    split <;> simp
  rw [Moment.timeText, String.toList_append, point]
  simp [timeChars, padded]

theorem fraction?_pointChars (allDigits : ∀ c ∈ run, c.isDigit = true)
    (stop : rest.head?.all fun c => !c.isDigit && c ≠ '.') :
    fraction? (pointChars run ++ rest) = some (valueOf run * 1000 / 10 ^ run.length, rest) := by
  by_cases empty : run = []
  · have noPoint : rest.head? ≠ some '.' := by
      intro head
      simp [head] at stop
    rw [pointChars, if_pos empty, List.nil_append, fraction?_none noPoint, empty]
    rfl
  · have noDigit : rest.head?.all fun c => !c.isDigit := by
      cases head : rest.head? with
      | none => rfl
      | some c =>
          rw [head, Option.all_some, Bool.and_eq_true] at stop
          exact stop.1
    rw [pointChars, if_neg empty]
    exact fraction?_digits rest empty allDigits noDigit

/-- Two digits at the end of a text are read like those before something else. -/
theorem number?_twoDigits_end {n : Nat} (bound : n < 100) :
    number? 2 2 (padLeft 2 (digits n)) = some (n, []) := by
  have read := number?_twoDigits n bound []
  rwa [List.append_nil] at read

/-- Hours and minutes behind a sign are an offset of less than a day. -/
theorem offset?_signed {sign : Char} {hours minutes : Nat} (signed : sign = '+' ∨ sign = '-')
    (lower : hours ≤ 23) (upper : minutes ≤ 59) :
    offset? (sign :: (padLeft 2 (digits hours) ++ ':' :: padLeft 2 (digits minutes))) =
      some (if sign = '+' then (hours * 60 + minutes : Int) else -(hours * 60 + minutes), []) := by
  have hoursRead := number?_twoDigits hours (by omega)
  have minutesRead := number?_twoDigits_end (show minutes < 100 by omega)
  rcases signed with rfl | rfl <;>
    simp [offset?, expect?, hoursRead, minutesRead, lower, upper]

theorem offset?_text (valid : zone.IsValid) :
    offset? zone.text.toList = some (zone.minutes, []) := by
  cases zone with
  | universal => rfl
  | ahead hours minutes =>
      have read := offset?_signed (.inl rfl) valid.1 valid.2
      simpa [Zone.text, Zone.minutes, padded] using read
  | behind hours minutes =>
      have read := offset?_signed (.inr rfl) valid.1 valid.2
      simpa [Zone.text, Zone.minutes, padded] using read

/-! ## The readings -/

/-- An offset does not go on with the fraction before it, and is none. -/
theorem head?_text (zone : Zone) :
    zone.text.toList.head?.all fun c => !c.isDigit && c ≠ '.' := by
  cases zone <;> simp [Zone.text]

namespace Moment

/-- The time of day as its fields. -/
def clock (moment : Moment) : Clock :=
  ⟨moment.hour, moment.minute, moment.second,
    valueOf moment.fraction * 1000 / 10 ^ moment.fraction.length⟩

namespace IsValid

theorem dayNumber_eq_days (valid : moment.IsValid) : moment.date.dayNumber = moment.days :=
  Date.dayNumber_eq valid.date valid.year.1

/-- A day and a time of day are the days and the milliseconds that have gone by. -/
theorem ofDateTime?_eq (valid : moment.IsValid) :
    ofDateTime? moment.date moment.clock =
      some (moment.days * 86400000 + moment.timeMillis) := by
  have clock : moment.clock.isValid = true := by
    simp [Clock.isValid, Moment.clock, valid.hour, valid.minute, Nat.le_succ_of_le valid.second]
  rw [ofDateTime?, valid.date, clock, valid.dayNumber_eq_days]
  rfl

theorem ofDateTime?_midnight (valid : moment.IsValid) :
    ofDateTime? moment.date midnight = some (moment.days * 86400000) := by
  rw [ofDateTime?, valid.date, valid.dayNumber_eq_days]
  exact congrArg some (Int.add_zero _)

/-- Either reader of fields reads the time of day. -/
theorem clock?_timeText (valid : moment.IsValid) (rest : List Char)
    {field : List Char → Option (Nat × List Char)}
    (reads : ∀ n < 100, ∀ rest, field (padLeft 2 (digits n) ++ rest) = some (n, rest))
    (stop : rest.head?.all fun c => !c.isDigit && c ≠ '.') :
    clock? field (moment.timeText.toList ++ rest) = some (moment.clock, rest) := by
  have hour := valid.hour
  have minute := valid.minute
  have second := valid.second
  rw [toList_timeText, List.append_assoc]
  exact clock?_timeChars reads (by omega) (by omega) (by omega)
    (fraction?_pointChars valid.fraction stop)

/-- With an offset behind it, the text is of the strict form. -/
theorem read?_zoned (valid : moment.IsValid) (zoneValid : zone.IsValid) :
    read? (moment.dateText ++ "T" ++ moment.timeText ++ zone.text) =
      some (moment.days * 86400000 + moment.timeMillis - zone.minutes * 60000) := by
  obtain ⟨month, day⟩ := Date.le_of_isValid valid.date
  have time := valid.clock?_timeText _ number?_twoDigits (head?_text zone)
  have text : (moment.dateText ++ "T" ++ moment.timeText ++ zone.text).toList =
      dateChars moment.date ++ 'T' :: (moment.timeText.toList ++ zone.text.toList) := by
    simp [valid.toList_dateText]
  rw [read?, text, readStrict?_dateChars valid.year (by omega) (by omega) (.inl rfl) time,
    offset?_text zoneValid, valid.ofDateTime?_eq]
  rfl

/-- Without an offset, the text is no strict form but a lenient one, whatever parts its halves. -/
theorem read?_unzoned (valid : moment.IsValid) {mark : Char} (parted : mark = 'T' ∨ mark = ' ') :
    read? (moment.dateText ++ String.singleton mark ++ moment.timeText) =
      some (moment.days * 86400000 + moment.timeMillis) := by
  obtain ⟨month, day⟩ := Date.le_of_isValid valid.date
  have strictTime := valid.clock?_timeText [] number?_twoDigits rfl
  have lenientTime := valid.clock?_timeText []
    (fun n bound rest => shortField?_padded bound) rfl
  rw [List.append_nil] at strictTime lenientTime
  have text : (moment.dateText ++ String.singleton mark ++ moment.timeText).toList =
      dateChars moment.date ++ mark :: moment.timeText.toList := by
    simp [valid.toList_dateText]
  rw [read?, text, readStrict?_dateChars valid.year (by omega) (by omega) parted strictTime,
    readLenient?_dateChars valid.date parted lenientTime, valid.ofDateTime?_eq]
  rfl

/-- The strict form does not end with the date, and the lenient one adds midnight to it. -/
theorem read?_dateText (valid : moment.IsValid) :
    read? moment.dateText = some (moment.days * 86400000) := by
  obtain ⟨month, day⟩ := Date.le_of_isValid valid.date
  have strict : readStrict? (dateChars moment.date) = none := by
    simp [readStrict?, dateChars, number?_yearText valid.year, expect?,
      number?_twoDigits moment.date.month (by omega),
      number?_twoDigits_end (show moment.date.day < 100 by omega)]
  have date : date? (dateChars moment.date ++ []) = some (moment.date, []) :=
    date?_dateChars valid.date
  rw [List.append_nil] at date
  rw [read?, valid.toList_dateText, strict, readLenient?, date]
  exact valid.ofDateTime?_midnight

end IsValid

end Moment

/-- However a moment is spelled, it is the same point in time, less the offset where there is one.
The date alone is its midnight. -/
theorem read?_spelled (valid : moment.IsValid) :
    (∀ mark ∈ ['T', ' '], read? (moment.dateText ++ String.singleton mark ++ moment.timeText) =
      some (moment.days * 86400000 + moment.timeMillis)) ∧
    read? moment.dateText = some (moment.days * 86400000) ∧
    ∀ zone : Zone, zone.IsValid →
      read? (moment.dateText ++ "T" ++ moment.timeText ++ zone.text) =
        some (moment.days * 86400000 + moment.timeMillis - zone.minutes * 60000) := by
  refine ⟨fun mark member => ?_, valid.read?_dateText, fun zone => valid.read?_zoned⟩
  exact valid.read?_unzoned (by simpa using member)

/-- The end of the leap day of a century, long before the days are counted from. -/
def leapEvening : Moment := ⟨⟨1600, 2, 29⟩, 23, 59, 58, "123456789".toList⟩

theorem read?_spelled_leapEvening :
    (read? "1600-02-29T23:59:58.123456789" = some (-11670912001877) ∧
      read? "1600-02-29 23:59:58.123456789" = some (-11670912001877)) ∧
    read? "1600-02-29" = some (-11670998400000) ∧
    read? "1600-02-29T23:59:58.123456789-23:59" = some (-11670825661877) := by
  have valid : leapEvening.IsValid :=
    ⟨by decide, by decide, by decide, by decide, by decide, by simp [leapEvening]⟩
  have days : leapEvening.days = -135081 := by
    rw [← valid.dayNumber_eq_days]
    decide
  have dateText : leapEvening.dateText = "1600-02-29" := by decide +kernel
  have timeText : leapEvening.timeText = "23:59:58.123456789" := by decide +kernel
  have time : leapEvening.timeMillis = 86398123 := by decide +kernel
  have offset : (Zone.behind 23 59).text = "-23:59" := by decide +kernel
  obtain ⟨parted, alone, zoned⟩ := read?_spelled valid
  have behind := zoned (.behind 23 59) ⟨Nat.le_refl 23, Nat.le_refl 59⟩
  have letter := parted 'T' (by decide)
  have space := parted ' ' (by decide)
  rw [days, time, dateText, timeText] at letter space
  rw [days, dateText] at alone
  rw [days, time, dateText, timeText, offset] at behind
  exact ⟨⟨letter, space⟩, alone, behind⟩

end LinkedViews.Timestamp
