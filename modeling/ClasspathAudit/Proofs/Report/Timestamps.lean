import ClasspathAudit.Proofs.Report.Calendar
import ClasspathAudit.Proofs.Text.Split
import Mathlib.Data.List.TakeWhile

/-!
Times as they are written, read back: a time whose year has four digits and whose offset is less than a
day is read from its text to the nanosecond. Of the offset whole minutes are read, while the clock shows
the same; with an offset of whole minutes the time is the same.
-/

namespace ClasspathAudit.Timestamp

open Text

theorem toList_padded (width n : Nat) : (padded width n).toList =
    List.replicate (width - (Nat.toDigits 10 n).length) '0' ++ Nat.toDigits 10 n := by
  have text : toString n = Nat.repr n := rfl
  simp [padded, text, Nat.toList_repr, ← String.length_toList]

theorem isDigit_of_mem_padded {width n : Nat} {c : Char} (member : c ∈ (padded width n).toList) :
    isDigit c = true := by
  rw [toList_padded, List.mem_append] at member
  rcases member with zero | digit
  · rw [List.eq_of_mem_replicate zero]
    rfl
  · exact isDigit_of_mem_toDigits digit

theorem digitsValue_zeros (count : Nat) : digitsValue (List.replicate count '0') = 0 := by
  induction count with
  | zero => rfl
  | succ count ih => rwa [List.replicate_succ, digitsValue, List.foldl_cons]

theorem digitsValue_padded (width n : Nat) : digitsValue (padded width n).toList = n := by
  rw [toList_padded, digitsValue, List.foldl_append, ← digitsValue, digitsValue_zeros]
  exact digitsValue_toDigits n

theorem length_padded {width n : Nat} (positive : 0 < width) (fits : n < 10 ^ width) :
    (padded width n).toList.length = width := by
  have short := (Nat.length_toDigits_le_iff (b := 10) (by decide) positive).mpr fits
  rw [toList_padded, List.length_append, List.length_replicate]
  omega

/-- A number of fixed width is read from its digits, whatever follows. -/
theorem takeNumber?_padded {least width n : Nat} (enough : least ≤ width) (positive : 0 < width)
    (fits : n < 10 ^ width) (rest : List Char) :
    takeNumber? least width ((padded width n).toList ++ rest) = some (n, rest) := by
  have long := length_padded positive fits
  have front : ((padded width n).toList ++ rest).take width = (padded width n).toList :=
    List.take_left' long
  have all : (padded width n).toList.takeWhile isDigit = (padded width n).toList :=
    List.takeWhile_eq_self_iff.mpr fun c => isDigit_of_mem_padded
  simp only [takeNumber?, front, all, long, if_neg (not_lt.mpr enough), digitsValue_padded]
  rw [List.drop_left' long]

theorem takeWithin?_padded {least n low high : Nat} (enough : least ≤ 2) (small : n < 100)
    (atLeast : low ≤ n) (atMost : n ≤ high) (rest : List Char) :
    takeWithin? least 2 low high ((padded 2 n).toList ++ rest) = some (n, rest) := by
  simp [takeWithin?, takeNumber?_padded enough (by decide) (by simpa using small), atLeast, atMost]

theorem expect?_cons (c : Char) (rest : List Char) : expect? c (c :: rest) = some rest := if_pos rfl

/-- The digits of a fraction, filled up with zeros, are the nine digits that it was cut from. -/
theorem exists_trimmed (nine : List Char) : ∃ zeros, (nine.reverse.dropWhile (· = '0')).reverse ++
    List.replicate zeros '0' = nine := by
  refine ⟨(nine.reverse.takeWhile (· = '0')).length, ?_⟩
  have zeros : nine.reverse.takeWhile (· = '0') =
      List.replicate (nine.reverse.takeWhile (· = '0')).length '0' :=
    List.eq_replicate_iff.mpr ⟨rfl, fun c member => by simpa using List.mem_takeWhile_imp member⟩
  rw [← List.reverse_replicate, ← zeros, ← List.reverse_append, List.takeWhile_append_dropWhile,
    List.reverse_reverse]

theorem takeFraction_none {marks : List Char} {c : Char} (notMark : marks.contains c = false)
    (rest : List Char) :
    takeFraction marks (c :: rest) = (0, c :: rest) := by
  simp only [takeFraction, notMark, Bool.false_and, Bool.false_eq_true, if_false]

theorem takeFraction_mark {marks : List Char} {mark : Char} (known : marks.contains mark = true)
    {digits : List Char} (some : digits ≠ []) (all : ∀ d ∈ digits, isDigit d = true) {c : Char}
    (notDigit : isDigit c = false) (rest : List Char) :
    takeFraction marks (mark :: (digits ++ c :: rest)) =
      (digitsValue ((digits ++ List.replicate 9 '0').take 9), c :: rest) := by
  have front : (digits ++ c :: rest).takeWhile isDigit = digits := by
    rw [List.takeWhile_append_of_pos all, List.takeWhile_cons_of_neg (by simp [notDigit]),
      List.append_nil]
  have filled : (!digits.isEmpty) = true := by simpa using some
  simp only [takeFraction, front, known, filled, Bool.and_self, if_true]
  rw [List.drop_left' rfl]

/-- A fraction is read to its last digit. -/
theorem takeFraction_fraction {marks : List Char} (point : marks.contains '.' = true) {nanos : Nat}
    (fits : nanos < 1000000000) {c : Char} (notMark : marks.contains c = false)
    (notDigit : isDigit c = false)
    (rest : List Char) :
    takeFraction marks ((fraction nanos).toList ++ c :: rest) = (nanos, c :: rest) := by
  obtain ⟨zeros, whole⟩ := exists_trimmed (padded 9 nanos).toList
  have value := digitsValue_padded 9 nanos
  have long := length_padded (show 0 < 9 by decide) fits
  have all : ∀ d ∈ (padded 9 nanos).toList, isDigit d = true := fun d => isDigit_of_mem_padded
  rw [fraction]
  generalize ((padded 9 nanos).toList.reverse.dropWhile (· = '0')).reverse = digits at whole ⊢
  rw [← whole] at value long all
  rcases eq_or_ne digits [] with rfl | some
  · rw [List.nil_append, digitsValue_zeros] at value
    rw [← value]
    exact takeFraction_none notMark rest
  · have filled : (digits ++ List.replicate 9 '0').take 9 = digits ++ List.replicate zeros '0' := by
      rw [List.length_append, List.length_replicate] at long
      have more : List.replicate 9 '0' = List.replicate zeros '0' ++ List.replicate (9 - zeros) '0' := by
        rw [List.replicate_append_replicate, Nat.add_sub_cancel' (by omega)]
      rw [more, ← List.append_assoc, List.take_left' (by rwa [List.length_append, List.length_replicate])]
    have read := takeFraction_mark point some
      (fun d member => all d (List.mem_append_left _ member)) notDigit rest
    rw [filled, value] at read
    simpa [some] using read

theorem zone?_signed {sign : Char} (isSign : sign = '+' ∨ sign = '-') {hour minute : Nat}
    (hours : hour ≤ 24) (minutes : minute ≤ 60) :
    zone? 24 60 (sign :: ((padded 2 hour).toList ++ ':' :: (padded 2 minute).toList)) =
      some (if sign = '+' then ((hour : Int) * 60 + minute) * 60
        else -(((hour : Int) * 60 + minute) * 60)) := by
  have readHour := takeWithin?_padded le_rfl (by omega) (Nat.zero_le hour) hours
    (':' :: (padded 2 minute).toList)
  have readMinute := takeWithin?_padded le_rfl (by omega) (Nat.zero_le minute) minutes []
  rw [List.append_nil] at readMinute
  rw [zone?.eq_2 _ _ _ _ fun same => by rcases isSign with rfl | rfl <;> exact absurd same (by decide)]
  rcases isSign with rfl | rfl <;> simp [readHour, readMinute, expect?_cons]

/-- The whole minutes of an offset, in seconds. -/
def wholeMinutes (offset : Int) : Int :=
  if offset < 0 then -(-offset / 60 * 60) else offset / 60 * 60

/-- The whole minutes of an offset less than a day are read from its text. -/
theorem zone?_zone {offset : Int} (day : offset.natAbs < 86400) :
    zone? 24 60 (zone offset).toList = some (wholeMinutes offset) := by
  have hour : offset.natAbs / 60 / 60 ≤ 24 := by omega
  have minute : offset.natAbs / 60 % 60 ≤ 60 := by omega
  rw [zone]
  split
  next none => rw [none]; rfl
  next other =>
    rcases le_or_gt offset (-60) with west | east
    · have read := zone?_signed (.inr rfl) hour minute
      have whole :
          -((((offset.natAbs / 60 / 60 : Nat) : Int) * 60 + (offset.natAbs / 60 % 60 : Nat)) * 60) =
          wholeMinutes offset := by
        unfold wholeMinutes
        split <;> omega
      rw [if_neg (by decide), whole] at read
      simpa [west] using read
    · have read := zone?_signed (.inl rfl) hour minute
      have whole :
          (((offset.natAbs / 60 / 60 : Nat) : Int) * 60 + (offset.natAbs / 60 % 60 : Nat)) * 60 =
          wholeMinutes offset := by
        unfold wholeMinutes
        split <;> omega
      rw [if_pos rfl, whole] at read
      simpa [not_le.mpr east] using read

/-- What makes a time one that its text tells wholly. -/
structure Writable (t : Timestamp) : Prop where
  since : 0 ≤ t.year
  before : t.year ≤ 9999
  nanos : t.nanos < 1000000000
  minutes : t.offset % 60 = 0
  day : t.offset.natAbs < 86400

/-- A date of four digits is read from its text. -/
theorem date?_padded {widths : FieldWidths} (least : widths.least ≤ 2) {year month day : Nat}
    (years : year ≤ 9999)
    (low : 1 ≤ month) (high : month ≤ 12) (first : 1 ≤ day) (last : day ≤ Date.daysInMonth year month)
    (rest : List Char) :
    date? widths ((padded 4 year).toList ++ '-' :: ((padded 2 month).toList ++ '-' ::
        ((padded 2 day).toList ++ rest))) = some (⟨year, month, day⟩, rest) := by
  have days : day ≤ 31 := last.trans (Date.daysInMonth_le _ _)
  have readYear := takeNumber?_padded (le_refl 4) (by decide) (show year < 10 ^ 4 by omega)
  simp [date?, readYear, takeWithin?_padded least (show month < 100 by omega) low high,
    takeWithin?_padded least (show day < 100 by omega) first last, expect?_cons]

/-- A time of day is read from its text. -/
theorem clock?_padded {widths : FieldWidths} (least : widths.least ≤ 2) (leastHour : widths.leastHour ≤ 2)
    {hour minute second nanos : Nat} (hours : hour ≤ 23) (minutes : minute ≤ 59)
    (seconds : second ≤ 59) {fractionText rest : List Char}
    (readFraction : takeFraction widths.fractionMarks (fractionText ++ rest) = (nanos, rest)) :
    clock? widths ((padded 2 hour).toList ++ ':' :: ((padded 2 minute).toList ++ ':' ::
        ((padded 2 second).toList ++ (fractionText ++ rest)))) =
      some ((hour, minute, second, nanos), rest) := by
  simp [clock?, takeWithin?_padded leastHour (show hour < 100 by omega) (Nat.zero_le _) hours,
    takeWithin?_padded least (show minute < 100 by omega) (Nat.zero_le _) minutes,
    takeWithin?_padded least (show second < 100 by omega) (Nat.zero_le _) seconds, expect?_cons,
    readFraction]

theorem Writable.fault?_eq {t : Timestamp} (writable : t.Writable) : t.fault? = none := by
  obtain ⟨since, before, -, -, day⟩ := writable
  have year : ¬(t.year < 0 ∨ 9999 < t.year) := by omega
  have hours : ¬24 ≤ t.offset.natAbs / 3600 := by omega
  rw [fault?, if_neg year, if_neg hours]

/-- The text of an offset starts with a sign or is the letter Z. -/
theorem zone_front (offset : Int) :
    ∃ c rest, (zone offset).toList = c :: rest ∧ (c = 'Z' ∨ c = '+' ∨ c = '-') := by
  rw [zone]
  split
  next => exact ⟨'Z', [], rfl, .inl rfl⟩
  next =>
    by_cases west : offset ≤ -60
    · exact ⟨'-', _, by simp [west]; rfl, .inr (.inr rfl)⟩
    · exact ⟨'+', _, by simp [west]; rfl, .inr (.inl rfl)⟩

/-- The clock reading that a time is written with, its day and the seconds of that day. -/
def wall (t : Timestamp) : Int := t.seconds + t.offset

def date (t : Timestamp) : Date := Date.ofDays (t.wall / 86400)

def dayTime (t : Timestamp) : Nat := (t.wall % 86400).toNat

/-- Date and time of day up to the second. -/
def clockText (t : Timestamp) (rest : List Char) : List Char :=
  (padded 4 t.date.year.natAbs).toList ++ '-' :: ((padded 2 t.date.month).toList ++ '-' ::
    ((padded 2 t.date.day).toList ++ 'T' :: ((padded 2 (t.dayTime / 3600)).toList ++ ':' ::
      ((padded 2 (t.dayTime / 60 % 60)).toList ++ ':' :: ((padded 2 (t.dayTime % 60)).toList ++ rest)))))

theorem toList_text {t : Timestamp} (since : 0 ≤ t.year) :
    t.text.toList = t.clockText ((fraction t.nanos).toList ++ (zone t.offset).toList) := by
  have sign : ¬t.date.year < 0 := not_lt.mpr since
  have spelled : t.text = (if t.date.year < 0 then "-" else "") ++ padded 4 t.date.year.natAbs ++ "-" ++
      padded 2 t.date.month ++ "-" ++ padded 2 t.date.day ++ "T" ++ padded 2 (t.dayTime / 3600) ++ ":" ++
      padded 2 (t.dayTime / 60 % 60) ++ ":" ++ padded 2 (t.dayTime % 60) ++ fraction t.nanos ++
        zone t.offset := rfl
  simp only [spelled, if_neg sign, String.empty_append, String.toList_append, String.reduceToList,
    List.append_assoc, List.cons_append, List.nil_append, clockText]

/-- What a clock shows is read from its text, in the offset that the text tells. -/
theorem parse?_clockText {t : Timestamp} (since : 0 ≤ t.year) (before : t.year ≤ 9999) {text : String}
    {fractionText zoneText : List Char} {nanos : Nat} {offset : Int}
    (spelled : text.toList = t.clockText (fractionText ++ zoneText))
    (readFraction : takeFraction interchange.fractionMarks (fractionText ++ zoneText) =
      (nanos, zoneText))
    (readZone : zone? interchange.maxZoneHour interchange.maxZoneMinute zoneText = some offset) :
    parse? text = some ⟨t.wall - offset, nanos, offset⟩ := by
  obtain ⟨low, high, first, last⟩ : 1 ≤ t.date.month ∧ t.date.month ≤ 12 ∧ 1 ≤ t.date.day ∧
      t.date.day ≤ Date.daysInMonth t.date.year t.date.month := Date.ofDays_valid _
  have year : (t.date.year.natAbs : Int) = t.date.year := Int.natAbs_of_nonneg since
  have years : t.date.year.natAbs ≤ 9999 := by
    have same : t.date.year = t.year := rfl
    omega
  rw [← year] at last
  have hour : t.dayTime / 3600 ≤ 23 := by
    unfold dayTime
    omega
  have readDate := date?_padded (le_refl interchange.least) years low high first last
  have readClock := clock?_padded (le_refl interchange.least) (by decide) hour
    (show t.dayTime / 60 % 60 ≤ 59 by omega) (show t.dayTime % 60 ≤ 59 by omega) readFraction
  have reads : parse? text = some (ofClock ⟨t.date.year.natAbs, t.date.month, t.date.day⟩
      (t.dayTime / 3600) (t.dayTime / 60 % 60) (t.dayTime % 60) nanos offset) := by
    rw [parse?, parseWith?, spelled, clockText, readDate]
    simp only [Option.bind_eq_bind, Option.bind_some, expect?_cons, readClock, readZone]
    rfl
  have days : (⟨t.date.year.natAbs, t.date.month, t.date.day⟩ : Date).toDays = t.wall / 86400 := by
    rw [year]
    exact Date.toDays_ofDays _
  have seconds : t.wall / 86400 * 86400 + ((t.dayTime / 3600 : Nat) : Int) * 3600 +
      ((t.dayTime / 60 % 60 : Nat) : Int) * 60 + ((t.dayTime % 60 : Nat) : Int) = t.wall := by
    unfold dayTime
    omega
  rw [reads, ofClock, days, seconds]

/-- The time that clocks show alike in an offset of whole minutes. -/
def inMinutes (t : Timestamp) : Timestamp :=
  { t with
    seconds := t.seconds + (t.offset - wholeMinutes t.offset)
    offset := wholeMinutes t.offset }

theorem inMinutes_eq_self {t : Timestamp} (minutes : t.offset % 60 = 0) : t.inMinutes = t := by
  have whole : wholeMinutes t.offset = t.offset := by
    unfold wholeMinutes
    split <;> omega
  rw [inMinutes, whole, sub_self, add_zero]

/-- A time that has a text is read back from it to the nanosecond, but for the seconds of its offset. -/
theorem parse?_text_inMinutes {t : Timestamp} (timely : t.fault? = none) (fits : t.nanos < 1000000000) :
    parse? t.text = some t.inMinutes := by
  obtain ⟨since, before, day⟩ : 0 ≤ t.year ∧ t.year ≤ 9999 ∧ t.offset.natAbs < 86400 := by
    rw [fault?] at timely
    split at timely
    · cases timely
    · split at timely
      · cases timely
      · omega
  obtain ⟨c, rest, zoneText, mark⟩ := zone_front t.offset
  have notMark : interchange.fractionMarks.contains c = false ∧ isDigit c = false := by
    rcases mark with rfl | rfl | rfl <;> decide
  have readFraction : takeFraction interchange.fractionMarks
      ((fraction t.nanos).toList ++ (zone t.offset).toList) = (t.nanos, (zone t.offset).toList) := by
    rw [zoneText]
    exact takeFraction_fraction rfl fits notMark.1 notMark.2 rest
  have same : t.wall - wholeMinutes t.offset = t.seconds + (t.offset - wholeMinutes t.offset) :=
    add_sub_assoc _ _ _
  rw [parse?_clockText since before (toList_text since) readFraction (zone?_zone day), same]
  rfl

/-- A time is read back from its text to the nanosecond, in the offset that it was given in. -/
theorem parse?_text {t : Timestamp} (writable : t.Writable) : parse? t.text = some t := by
  rw [parse?_text_inMinutes writable.fault?_eq writable.nanos, inMinutes_eq_self writable.minutes]

end ClasspathAudit.Timestamp
