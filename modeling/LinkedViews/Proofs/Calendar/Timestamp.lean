import LinkedViews.Calendar.Timestamp
import LinkedViews.Proofs.Calendar.Date
import LinkedViews.Proofs.Number.Numeral

/-!
A point in time is read back from its written form, wherever its date can be written. The form has
no offset at its end, so it is never the strict one; and as it has colons it is no number.
-/

namespace LinkedViews.Timestamp

open Numeral

variable {millis : Int} {run rest : List Char} {least most n : Nat}

theorem clockOf_bounds (millis : Int) :
    (clockOf millis).hour ≤ 23 ∧ (clockOf millis).minute ≤ 59 ∧ (clockOf millis).second ≤ 59 ∧
      (clockOf millis).millis < 1000 := by
  have range : (Int.fmod millis millisPerDay).toNat < 86400000 := by
    rw [millisPerDay, Int.fmod_eq_emod_of_nonneg _ (by decide)]
    omega
  unfold clockOf
  generalize (Int.fmod millis millisPerDay).toNat = time at range
  simp only
  omega

theorem clockOf_toMillis (millis : Int) :
    ((clockOf millis).toMillis : Int) = Int.fmod millis millisPerDay := by
  have positive : 0 ≤ Int.fmod millis millisPerDay := Int.fmod_nonneg_of_pos _ (by decide)
  unfold clockOf Clock.toMillis
  generalize Int.fmod millis millisPerDay = time at positive
  simp only
  omega

theorem isValid_clockOf (millis : Int) : (clockOf millis).isValid = true := by
  obtain ⟨hour, minute, second, _⟩ := clockOf_bounds millis
  simp [Clock.isValid, hour, minute, Nat.le_succ_of_le second]

theorem isValid_dateOf (writable : isWritable millis = true) : (dateOf millis).isValid = true := by
  rw [dateOf, Date.isValid_ofDayNumber]
  exact writable

/-- The date and the time of day that a point in time is split into are the ones it has. -/
theorem ofDateTime?_split (writable : isWritable millis = true) :
    ofDateTime? (dateOf millis) (clockOf millis) = some millis := by
  have day : (dateOf millis).dayNumber = Int.fdiv millis millisPerDay :=
    Date.dayNumber_ofDayNumber _
  have whole := Int.fmod_add_mul_fdiv millis millisPerDay
  rw [Int.mul_comm] at whole
  rw [ofDateTime?, isValid_dateOf writable, isValid_clockOf, day, clockOf_toMillis]
  simp only [Bool.and_self, if_true, Option.some.injEq]
  omega

/-! ## Fields -/

theorem takeWhile_eq_nil (stop : rest.head?.all fun c => !c.isDigit) (k : Nat) :
    (rest.take k).takeWhile Char.isDigit = [] := by
  match rest, k with
  | [], _ => simp
  | _ :: _, 0 => simp
  | c :: rest, k + 1 =>
      have noDigit : c.isDigit = false := by simpa using stop
      simp [noDigit]

/-- A run of digits is taken whole where it is as long as it may be or something else follows. -/
theorem number?_append (nonempty : run ≠ []) (allDigits : ∀ c ∈ run, c.isDigit = true)
    (enough : least ≤ run.length) (fits : run.length ≤ most)
    (stop : run.length = most ∨ rest.head?.all fun c => !c.isDigit) :
    number? least most (run ++ rest) = some (valueOf run, rest) := by
  have taken : ((run ++ rest).take most).takeWhile Char.isDigit = run := by
    have behind : (rest.take (most - run.length)).takeWhile Char.isDigit = [] := by
      rcases stop with full | other
      · simp [full]
      · exact takeWhile_eq_nil other _
    rw [List.take_append, List.take_of_length_le fits, List.takeWhile_append_of_pos allDigits,
      behind, List.append_nil]
  simp [number?, taken, nonempty, Nat.not_lt.mpr enough]

theorem padLeft_ne_nil (width n : Nat) : padLeft width (digits n) ≠ [] := by
  simp [padLeft, digits_ne_nil]

theorem number?_padded (small : n < 10 ^ most) (positive : 0 < most) (enough : least ≤ most) :
    number? least most (padLeft most (digits n) ++ rest) = some (n, rest) := by
  have length := length_padLeft (length_digits_le small positive)
  rw [number?_append (padLeft_ne_nil _ _) (fun c => isDigit_of_mem_padLeft) (by omega) (by omega)
    (.inl length), valueOf_padLeft, valueOf_digits]

theorem isBlank_of_isDigit {c : Char} (digit : c.isDigit = true) : Text.isBlank c = false := by
  simp only [Char.isDigit, Bool.and_eq_true, decide_eq_true_eq, UInt32.le_iff_toNat_le] at digit
  have bounds : 48 ≤ c.toNat ∧ c.toNat ≤ 57 := digit
  simp only [Text.isBlank, Bool.or_eq_false_iff, Bool.and_eq_false_iff, decide_eq_false_iff_not]
  omega

theorem trimStart_padded (width n : Nat) (rest : List Char) :
    Text.trimStart (padLeft width (digits n) ++ rest) = padLeft width (digits n) ++ rest := by
  cases shown : padLeft width (digits n) with
  | nil => exact absurd shown (padLeft_ne_nil _ _)
  | cons c more =>
      have digit : c.isDigit = true :=
        isDigit_of_mem_padLeft (show c ∈ padLeft width (digits n) by simp [shown])
      simp [Text.trimStart, isBlank_of_isDigit digit]

theorem shortField?_padded (small : n < 100) :
    shortField? (padLeft 2 (digits n) ++ rest) = some (n, rest) := by
  rw [shortField?, trimStart_padded]
  exact number?_padded (by simpa using small) (by decide) (by decide)

/-! ## The written form -/

def dateChars (date : Date) : List Char :=
  (yearText date.year).toList ++ '-' :: (padLeft 2 (digits date.month) ++
    '-' :: padLeft 2 (digits date.day))

def fractionChars (clock : Clock) : List Char :=
  if clock.millis = 0 then [] else '.' :: padLeft 3 (digits clock.millis)

def clockChars (clock : Clock) : List Char :=
  padLeft 2 (digits clock.hour) ++ ':' :: (padLeft 2 (digits clock.minute) ++
    ':' :: (padLeft 2 (digits clock.second) ++ fractionChars clock))

theorem toList_format (writable : isWritable millis = true) :
    (format millis).toList =
      dateChars (dateOf millis) ++ ' ' :: clockChars (clockOf millis) := by
  have fraction :
      (if (clockOf millis).millis = 0 then "" else "." ++ padded 3 (clockOf millis).millis).toList =
        fractionChars (clockOf millis) := by
    unfold fractionChars
    split <;> simp [padded]
  simp only [format, writable, if_true, String.toList_append]
  rw [fraction]
  simp [dateChars, clockChars, padded]

theorem colon_mem_format (writable : isWritable millis = true) : ':' ∈ (format millis).toList := by
  rw [toList_format writable]
  simp [clockChars]

theorem readInt64?_format (writable : isWritable millis = true) :
    readInt64? (format millis).toList = none :=
  readInt64?_eq_none (colon_mem_format writable) (by decide) (by decide) (by decide)

theorem readBinary64?_format (writable : isWritable millis = true) :
    readBinary64? (format millis).toList = none :=
  readBinary64?_eq_none (colon_mem_format writable)

/-! ## Reading it back -/

/-- The digits behind a point are those of a fraction of a second. -/
theorem fraction?_digits (rest : List Char) (nonempty : run ≠ [])
    (allDigits : ∀ c ∈ run, c.isDigit = true)
    (stop : rest.head?.all fun c => !c.isDigit) :
    fraction? ('.' :: (run ++ rest)) = some (valueOf run * 1000 / 10 ^ run.length, rest) := by
  have none : rest.takeWhile Char.isDigit = [] := by
    simpa using takeWhile_eq_nil stop rest.length
  have front : (run ++ rest).takeWhile Char.isDigit = run := by
    rw [List.takeWhile_append_of_pos allDigits, none, List.append_nil]
  have back : (run ++ rest).dropWhile Char.isDigit = rest := by
    have whole := List.takeWhile_append_dropWhile (p := Char.isDigit) (l := run ++ rest)
    rw [front] at whole
    exact List.append_cancel_left whole
  have filled : ∀ c ∈ run ++ ['0', '0'], c.isDigit = true := by
    intro c member
    rcases List.mem_append.mp member with own | zero
    · exact allDigits c own
    · rw [List.eq_of_mem_replicate (n := 2) zero]
      rfl
  have scaled : valueOf (run ++ ['0', '0']) = valueOf run * 10 ^ 2 := valueOf_append_zeros 2 run
  obtain ⟨k, length⟩ := Nat.exists_eq_succ_of_ne_zero (mt List.length_eq_zero_iff.mp nonempty)
  have shift : (run ++ ['0', '0']).length - 3 = k := by simp [length]
  have cut : valueOf run * 1000 / 10 ^ (k + 1) = valueOf run * 10 ^ 2 / 10 ^ k := by
    rw [Nat.pow_succ, ← Nat.mul_div_mul_right _ (10 ^ k) (show 0 < 10 by decide), Nat.mul_assoc]
    rfl
  rw [fraction?]
  simp only [front, back, nonempty, if_false, valueOf_take filled, scaled, shift]
  rw [length, ← cut]

theorem fraction?_none (stop : rest.head? ≠ some '.') : fraction? rest = some (0, rest) := by
  unfold fraction?
  split
  · exact absurd rfl stop
  · rfl

theorem fraction?_chars {clock : Clock} (small : clock.millis < 1000) :
    fraction? (fractionChars clock) = some (clock.millis, []) := by
  unfold fractionChars
  split
  · rename_i none
    rw [none]
    rfl
  · have length := length_padLeft (length_digits_le (k := 3) small (by decide))
    have read := fraction?_digits [] (padLeft_ne_nil 3 clock.millis)
      (fun c => isDigit_of_mem_padLeft) rfl
    have thousand : clock.millis * 1000 / 10 ^ 3 = clock.millis :=
      Nat.mul_div_cancel _ (show 0 < 1000 by decide)
    rw [List.append_nil, length, valueOf_padLeft, valueOf_digits, thousand] at read
    exact read

/-- Hours, minutes and seconds as they are written. -/
def timeChars (hour minute second : Nat) : List Char :=
  padLeft 2 (digits hour) ++ ':' :: (padLeft 2 (digits minute) ++ ':' :: padLeft 2 (digits second))

/-- A time of day is read by any reader of its fields that reads two digits, up to where the
fraction behind it ends. -/
theorem clock?_timeChars {field : List Char → Option (Nat × List Char)}
    {hour minute second fraction : Nat} {behind : List Char}
    (reads : ∀ n < 100, ∀ rest, field (padLeft 2 (digits n) ++ rest) = some (n, rest))
    (hours : hour < 100) (minutes : minute < 100) (seconds : second < 100)
    (read : fraction? behind = some (fraction, rest)) :
    clock? field (timeChars hour minute second ++ behind) =
      some (⟨hour, minute, second, fraction⟩, rest) := by
  simp [clock?, timeChars, expect?, read, reads hour hours, reads minute minutes,
    reads second seconds]

theorem clock?_chars {field : List Char → Option (Nat × List Char)} {clock : Clock}
    (reads : ∀ n < 100, ∀ rest, field (padLeft 2 (digits n) ++ rest) = some (n, rest))
    (valid : clock.isValid = true) (small : clock.millis < 1000) :
    clock? field (clockChars clock) = some (clock, []) := by
  simp only [Clock.isValid, Bool.and_eq_true, decide_eq_true_eq] at valid
  have shape : clockChars clock =
      timeChars clock.hour clock.minute clock.second ++ fractionChars clock := by
    simp [clockChars, timeChars]
  rw [shape, clock?_timeChars reads (by omega) (by omega) (by omega) (fraction?_chars small)]

theorem year?_minus (rest : List Char) :
    year? ('-' :: rest) =
      (number? 1 rest.length rest).map fun (year, rest) => (-(year : Int), rest) := rfl

theorem year?_plus (rest : List Char) :
    year? ('+' :: rest) =
      (number? 1 rest.length rest).map fun (year, rest) => ((year : Int), rest) := rfl

theorem year?_digit {c : Char} (digit : c.isDigit = true) :
    year? (c :: rest) =
      (number? 1 4 (c :: rest)).map fun (year, rest) => ((year : Int), rest) := by
  have noMinus : c ≠ '-' := by rintro rfl; exact absurd digit (by decide)
  have noPlus : c ≠ '+' := by rintro rfl; exact absurd digit (by decide)
  simp [year?, Text.trimStart, isBlank_of_isDigit digit, noMinus, noPlus]

/-- A year of four digits is written without a sign, and read from no more than those. -/
theorem year?_padded (small : n < 10000) :
    year? (padLeft 4 (digits n) ++ rest) = some ((n : Int), rest) := by
  have read : number? 1 4 (padLeft 4 (digits n) ++ rest) = some (n, rest) :=
    number?_padded small (by decide) (by decide)
  cases shown : padLeft 4 (digits n) with
  | nil => exact absurd shown (padLeft_ne_nil _ _)
  | cons c more =>
      have digit : c.isDigit = true :=
        isDigit_of_mem_padLeft (show c ∈ padLeft 4 (digits n) by simp [shown])
      rw [shown, List.cons_append] at read
      rw [List.cons_append, year?_digit digit, read]
      rfl

/-- A year behind a sign ends where its digits do. -/
theorem number?_year (n : Nat) (rest : List Char) :
    number? 1 (padLeft 4 (digits n) ++ '-' :: rest).length (padLeft 4 (digits n) ++ '-' :: rest) =
      some (n, '-' :: rest) := by
  have nonempty := padLeft_ne_nil 4 n
  rw [number?_append nonempty (fun c => isDigit_of_mem_padLeft)
    (Nat.succ_le_of_lt (List.length_pos_iff.mpr nonempty)) (by simp) (.inr (by rfl)),
    valueOf_padLeft, valueOf_digits]

theorem year?_yearText (year : Int) :
    year? ((yearText year).toList ++ '-' :: rest) = some (year, '-' :: rest) := by
  unfold yearText
  by_cases common : 0 ≤ year ∧ year ≤ 9999
  · have magnitude : (year.natAbs : Int) = year := by omega
    rw [if_pos common, padded, String.toList_ofList, year?_padded (by omega), magnitude]
  · rw [if_neg common, String.toList_append, padded, String.toList_ofList, List.append_assoc]
    by_cases negative : year < 0
    · have magnitude : -(year.natAbs : Int) = year := by omega
      have minus : "-".toList = ['-'] := rfl
      rw [if_pos negative, minus, List.singleton_append, year?_minus, number?_year, Option.map_some]
      simp only [magnitude]
    · have magnitude : (year.natAbs : Int) = year := by omega
      have plus : "+".toList = ['+'] := rfl
      rw [if_neg negative, plus, List.singleton_append, year?_plus, number?_year, Option.map_some]
      simp only [magnitude]

/-- A valid date is read back, and nothing behind it with it. -/
theorem date?_dateChars {date : Date} (valid : date.isValid = true) :
    date? (dateChars date ++ rest) = some (date, rest) := by
  obtain ⟨month, day⟩ := Date.le_of_isValid valid
  have monthRead (behind : List Char) :
      shortField? (padLeft 2 (digits date.month) ++ behind) = some (date.month, behind) :=
    shortField?_padded (by omega)
  have dayRead (behind : List Char) :
      shortField? (padLeft 2 (digits date.day) ++ behind) = some (date.day, behind) :=
    shortField?_padded (by omega)
  simp only [date?, dateChars, List.append_assoc, List.cons_append, year?_yearText, expect?,
    Option.bind_eq_bind, Option.bind_some, if_true, monthRead, dayRead]
  rfl

theorem number?_twoDigits :
    ∀ n < 100, ∀ rest, number? 2 2 (padLeft 2 (digits n) ++ rest) = some (n, rest) :=
  fun _ bound _ => number?_padded (by simpa using bound) (by decide) (by decide)

theorem toList_yearText {year : Int} (common : 0 ≤ year ∧ year ≤ 9999) :
    (yearText year).toList = padLeft 4 (digits year.natAbs) := by
  rw [yearText, if_pos common, padded, String.toList_ofList]

theorem number?_yearText {year : Int} (common : 0 ≤ year ∧ year ≤ 9999) (rest : List Char) :
    number? 4 4 ((yearText year).toList ++ rest) = some (year.natAbs, rest) := by
  rw [toList_yearText common]
  exact number?_padded (by omega) (by decide) (by decide)

/-- Behind a date of the common years, what decides about the strict form is the offset. -/
theorem readStrict?_dateChars {date : Date} {clock : Clock} {behind : List Char} {mark : Char}
    (common : 0 ≤ date.year ∧ date.year ≤ 9999) (month : date.month < 100) (day : date.day < 100)
    (parted : mark = 'T' ∨ mark = ' ') (time : clock? (number? 2 2) rest = some (clock, behind)) :
    readStrict? (dateChars date ++ mark :: rest) =
      (offset? behind).bind fun (offset, rest) =>
        if rest = [] then (ofDateTime? date clock).map (· - offset * 60000) else none := by
  have year : (date.year.natAbs : Int) = date.year := by omega
  have yearRead := number?_yearText common
  have monthRead := number?_twoDigits date.month month
  have dayRead := number?_twoDigits date.day day
  rcases parted with rfl | rfl <;>
    simp only [readStrict?, dateChars, List.append_assoc, List.cons_append, yearRead, expect?,
      if_true, monthRead, dayRead, time, year, Option.bind_eq_bind, Option.bind_some]

/-- Without an offset no text is of the strict form. -/
theorem readStrict?_written {date : Date} {clock : Clock} (valid : clock.isValid = true)
    (small : clock.millis < 1000) (month : date.month < 100) (day : date.day < 100) :
    readStrict? (dateChars date ++ ' ' :: clockChars clock) = none := by
  -- A year with a sign is refused at once, and behind any other time there is no offset.
  by_cases common : 0 ≤ date.year ∧ date.year ≤ 9999
  · rw [readStrict?_dateChars common month day (.inr rfl)
      (clock?_chars number?_twoDigits valid small)]
    rfl
  · have sign : ∃ sign rest, (yearText date.year).toList = sign :: rest ∧ sign.isDigit = false := by
      rw [yearText, if_neg common]
      split
      · exact ⟨'-', _, by simp; rfl, by decide⟩
      · exact ⟨'+', _, by simp; rfl, by decide⟩
    obtain ⟨sign, digits, shown, noDigit⟩ := sign
    simp [readStrict?, dateChars, shown, number?, noDigit]

/-- Behind a valid date, white space or a letter, a time of day makes up the lenient form. -/
theorem readLenient?_dateChars {date : Date} {clock : Clock} {mark : Char}
    (valid : date.isValid = true) (parted : mark = 'T' ∨ mark = ' ')
    (time : clock? shortField? rest = some (clock, [])) :
    readLenient? (dateChars date ++ mark :: rest) = ofDateTime? date clock := by
  have spaced : clock? shortField? (' ' :: rest) = some (clock, []) := by
    rw [← time]
    rfl
  rcases parted with rfl | rfl <;> simp [readLenient?, date?_dateChars valid, time, spaced]

theorem read?_format (writable : isWritable millis = true) :
    read? (format millis) = some millis := by
  have date := isValid_dateOf writable
  have clock := isValid_clockOf millis
  have small := (clockOf_bounds millis).2.2.2
  have time : clock? shortField? (clockChars (clockOf millis)) = some (clockOf millis, []) :=
    clock?_chars (fun n bound rest => shortField?_padded bound) clock small
  obtain ⟨month, day⟩ := Date.le_of_isValid date
  rw [read?, toList_format writable, readStrict?_written clock small (by omega) (by omega),
    readLenient?_dateChars date (.inr rfl) time, ofDateTime?_split writable]
  rfl

/-! ## Integers -/

theorem mem_of_number? {text : List Char} {c : Char} {value : Nat}
    (read : number? least most text = some (value, rest)) (member : c ∈ rest) : c ∈ text := by
  unfold number? at read
  simp only at read
  split at read
  · contradiction
  · obtain ⟨_, rfl⟩ := Prod.mk.inj (Option.some.inj read)
    exact List.mem_of_mem_drop member

theorem expect?_eq_none {text : List Char} {c : Char} (absent : c ∉ text) :
    expect? c text = none := by
  cases text with
  | nil => rfl
  | cons first others =>
      have other : first ≠ c := by
        rintro rfl
        exact absent List.mem_cons_self
      rw [expect?, if_neg other]

theorem readStrict?_eq_none {text : List Char}
    (undashed : ∀ year rest, number? 4 4 text = some (year, rest) → '-' ∉ rest) :
    readStrict? text = none := by
  unfold readStrict?
  cases read : number? 4 4 text with
  | none => rfl
  | some found => simp [expect?_eq_none (undashed found.1 found.2 read)]

theorem readLenient?_eq_none {text : List Char}
    (undashed : ∀ year rest, year? text = some (year, rest) → '-' ∉ rest) :
    readLenient? text = none := by
  unfold readLenient? date?
  cases read : year? text with
  | none => rfl
  | some found => simp [expect?_eq_none (undashed found.1 found.2 read)]

theorem dash_not_mem_digits (n : Nat) : '-' ∉ digits n := fun member =>
  absurd (isDigit_of_mem_digits member) (by decide)

theorem readLenient?_digits (n : Nat) : readLenient? (digits n) = none := by
  refine readLenient?_eq_none fun year rest read member => ?_
  obtain ⟨c, more, shown⟩ := List.exists_cons_of_ne_nil (digits_ne_nil n)
  have digit : c.isDigit = true := isDigit_of_mem_digits (n := n) (by simp [shown])
  rw [shown, year?_digit digit, ← shown, Option.map_eq_some_iff] at read
  obtain ⟨⟨value, behind⟩, taken, same⟩ := read
  obtain ⟨_, rfl⟩ := Prod.mk.inj same
  exact dash_not_mem_digits n (mem_of_number? taken member)

theorem readLenient?_minus_digits (n : Nat) : readLenient? ('-' :: digits n) = none := by
  refine readLenient?_eq_none fun year rest read member => ?_
  rw [year?_minus, Option.map_eq_some_iff] at read
  obtain ⟨⟨value, behind⟩, taken, same⟩ := read
  obtain ⟨_, rfl⟩ := Prod.mk.inj same
  exact dash_not_mem_digits n (mem_of_number? taken member)

/-- What is written for an integer is no point in time, as nothing parts a month from the year. -/
theorem read?_ofInt (value : Int) : read? (ofInt value) = none := by
  unfold ofInt
  split
  · have letters : ("-" ++ ofNat value.natAbs).toList = '-' :: digits value.natAbs := by
      simp [ofNat]
    have strict : readStrict? ('-' :: digits value.natAbs) = none :=
      readStrict?_eq_none fun year rest read => by simp [number?] at read
    rw [read?, letters, strict, readLenient?_minus_digits]
    rfl
  · have strict : readStrict? (digits value.natAbs) = none :=
      readStrict?_eq_none fun year rest read member =>
        dash_not_mem_digits _ (mem_of_number? read member)
    rw [read?, ofNat, String.toList_ofList, strict, readLenient?_digits]
    rfl

/-! ## The range of dates -/

theorem isWritable_iff :
    isWritable millis = true ↔ -8334601228800000 ≤ millis ∧ millis ≤ 8210266876799999 := by
  rw [isWritable, dateOf, Date.inRange_ofDayNumber, millisPerDay,
    Int.fdiv_eq_ediv_of_nonneg _ (by decide)]
  omega

/-- From the beginning of the year -262143 to the end of the year 262142, a point in time is read
back from what is written for it. Beyond these years a number is written, which is read as none. -/
theorem read?_format_eq (millis : Int) :
    read? (format millis) =
      if -8334601228800000 ≤ millis ∧ millis ≤ 8210266876799999 then some millis else none := by
  by_cases writable : isWritable millis = true
  · rw [if_pos (isWritable_iff.mp writable)]
    exact read?_format writable
  · rw [if_neg (mt isWritable_iff.mpr writable), format, if_neg writable, read?_ofInt]

end LinkedViews.Timestamp
