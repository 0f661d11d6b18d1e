import ClasspathAudit.Proofs.Report.Timestamps
import ClasspathAudit.Report.Store

/-!
Texts of times that sort like the times: written in universal time with all their digits, of two times
the later one has the greater text, whatever offsets the times were given in.
-/

namespace ClasspathAudit

namespace Text

theorem digitsValue_cons (c : Char) (cs : List Char) :
    digitsValue (c :: cs) = (c.toNat - '0'.toNat) * 10 ^ cs.length + digitsValue cs := by
  have start : ∀ (cs : List Char) (n : Nat),
      cs.foldl (fun n c => n * 10 + (c.toNat - '0'.toNat)) n = n * 10 ^ cs.length + digitsValue cs := by
    intro cs
    induction cs with
    | nil => simp [digitsValue]
    | cons c cs ih =>
      intro n
      rw [digitsValue, List.foldl_cons, List.foldl_cons, ih, ih, List.length_cons]
      ring
  rw [digitsValue, List.foldl_cons, start, Nat.zero_mul, Nat.zero_add]

theorem isDigit_bounds {c : Char} (digit : isDigit c = true) : '0'.toNat ≤ c.toNat ∧ c.toNat ≤ 57 := by
  rw [isDigit, Bool.and_eq_true, decide_eq_true_eq, decide_eq_true_eq] at digit
  exact digit

theorem digitsValue_lt {cs : List Char} (digits : ∀ c ∈ cs, isDigit c = true) :
    digitsValue cs < 10 ^ cs.length := by
  induction cs with
  | nil => decide
  | cons c cs ih =>
    obtain ⟨first, others⟩ := List.forall_mem_cons.mp digits
    have digit : c.toNat - '0'.toNat ≤ 9 := Nat.sub_le_of_le_add (isDigit_bounds first).2
    have high := Nat.mul_le_mul_right (10 ^ cs.length) digit
    have below := ih others
    rw [digitsValue_cons, List.length_cons, pow_succ]
    omega

/-- Of two runs of digits of one length the one of the smaller number is the smaller text; what follows
the digits decides between equal ones. -/
theorem digits_append_lt {xs ys rest rest' : List Char} (long : xs.length = ys.length)
    (digits : ∀ c ∈ xs, isDigit c = true) (digits' : ∀ c ∈ ys, isDigit c = true)
    (order : digitsValue xs < digitsValue ys ∨ digitsValue xs = digitsValue ys ∧ rest < rest') :
    xs ++ rest < ys ++ rest' := by
  induction xs generalizing ys with
  | nil =>
    obtain rfl := List.eq_nil_of_length_eq_zero long.symm
    exact (order.resolve_left (lt_irrefl _)).2
  | cons x xs ih =>
    cases ys with
    | nil => cases long
    | cons y ys =>
      obtain ⟨first, others⟩ := List.forall_mem_cons.mp digits
      obtain ⟨first', others'⟩ := List.forall_mem_cons.mp digits'
      have long' : xs.length = ys.length := Nat.succ.inj long
      have bound := digitsValue_lt others
      have bound' := digitsValue_lt others'
      have low := (isDigit_bounds first).1
      have low' := (isDigit_bounds first').1
      rw [digitsValue_cons, digitsValue_cons, long'] at order
      rw [long'] at bound
      rw [List.cons_append, List.cons_append, List.cons_lt_cons_iff]
      rcases lt_trichotomy x.toNat y.toNat with below | same | above
      · exact .inl below
      · obtain rfl := Char.toNat_inj.mp same
        rw [Nat.add_lt_add_iff_left, Nat.add_left_cancel_iff] at order
        exact .inr ⟨rfl, ih long' others others' order⟩
      · have step : y.toNat - '0'.toNat + 1 ≤ x.toNat - '0'.toNat := by omega
        have high := Nat.mul_le_mul_right (10 ^ ys.length) step
        rw [Nat.add_mul, Nat.one_mul] at high
        omega

end Text

namespace Timestamp

open Text

/-- Numbers of a fixed width sort like their texts. -/
theorem padded_append_lt {width m n : Nat} (positive : 0 < width) (fits : m < 10 ^ width)
    (fits' : n < 10 ^ width) {rest rest' : List Char} (order : m < n ∨ m = n ∧ rest < rest') :
    (padded width m).toList ++ rest < (padded width n).toList ++ rest' := by
  refine digits_append_lt ?_ (fun _ => isDigit_of_mem_padded) (fun _ => isDigit_of_mem_padded) ?_
  · rw [length_padded positive fits, length_padded positive fits']
  · rwa [digitsValue_padded, digitsValue_padded]

theorem mark_lt {rest rest' : List Char} (mark : Char) (order : rest < rest') :
    mark :: rest < mark :: rest' :=
  List.cons_lt_cons_iff.mpr (.inr ⟨rfl, order⟩)

/-- Three numbers with marks between them sort like their texts; what follows them decides between equal
ones. -/
theorem threeFields_lt {width a b c a' b' c' : Nat} (mark : Char) (positive : 0 < width)
    (fits : a < 10 ^ width ∧ b < 10 ^ 2 ∧ c < 10 ^ 2)
    (fits' : a' < 10 ^ width ∧ b' < 10 ^ 2 ∧ c' < 10 ^ 2) {rest rest' : List Char}
    (order : (a < a' ∨ a = a' ∧ (b < b' ∨ b = b' ∧ c < c')) ∨
      (a = a' ∧ b = b' ∧ c = c') ∧ rest < rest') :
    (padded width a).toList ++ mark :: ((padded 2 b).toList ++ mark ::
        ((padded 2 c).toList ++ rest)) <
      (padded width a').toList ++ mark :: ((padded 2 b').toList ++ mark ::
        ((padded 2 c').toList ++ rest')) := by
  have nested : a < a' ∨ a = a' ∧ (b < b' ∨ b = b' ∧ (c < c' ∨ c = c' ∧ rest < rest')) := by
    rcases order with lower | ⟨⟨first, second, third⟩, below⟩
    · exact lower.imp_right (And.imp_right (Or.imp_right (And.imp_right .inl)))
    · exact .inr ⟨first, .inr ⟨second, .inr ⟨third, below⟩⟩⟩
  refine padded_append_lt positive fits.1 fits'.1 (nested.imp_right (And.imp_right ?_))
  refine fun inner => mark_lt mark (padded_append_lt (by decide) fits.2.1 fits'.2.1 ?_)
  refine inner.imp_right (And.imp_right fun last => mark_lt mark ?_)
  exact padded_append_lt (by decide) fits.2.2 fits'.2.2 last

/-- Dates sort like their ranks. -/
theorem dateText_lt {d d' : Date} (since : 0 ≤ d.year) (before : d.year ≤ 9999) (since' : 0 ≤ d'.year)
    (before' : d'.year ≤ 9999) (month : d.month ≤ 12) (month' : d'.month ≤ 12) (day : d.day ≤ 31)
    (day' : d'.day ≤ 31) {rest rest' : List Char} (order : d.rank < d'.rank ∨ d = d' ∧ rest < rest') :
    (padded 4 d.year.natAbs).toList ++ '-' :: ((padded 2 d.month).toList ++ '-' ::
        ((padded 2 d.day).toList ++ rest)) <
      (padded 4 d'.year.natAbs).toList ++ '-' :: ((padded 2 d'.month).toList ++ '-' ::
        ((padded 2 d'.day).toList ++ rest')) := by
  refine threeFields_lt '-' (by decide) (by omega) (by omega) ?_
  rcases order with below | ⟨rfl, below⟩
  · unfold Date.rank at below
    exact .inl (by omega)
  · exact .inr ⟨⟨rfl, rfl, rfl⟩, below⟩

/-- Times of a day sort like their seconds. -/
theorem dayTimeText_lt {second second' : Nat} (inside : second < 86400) (inside' : second' < 86400)
    {rest rest' : List Char} (order : second < second' ∨ second = second' ∧ rest < rest') :
    (padded 2 (second / 3600)).toList ++ ':' :: ((padded 2 (second / 60 % 60)).toList ++ ':' ::
        ((padded 2 (second % 60)).toList ++ rest)) <
      (padded 2 (second' / 3600)).toList ++ ':' :: ((padded 2 (second' / 60 % 60)).toList ++ ':' ::
        ((padded 2 (second' % 60)).toList ++ rest')) := by
  refine threeFields_lt ':' (by decide) (by omega) (by omega) ?_
  rcases order with below | ⟨rfl, below⟩
  · exact .inl (by omega)
  · exact .inr ⟨⟨rfl, rfl, rfl⟩, below⟩

theorem dayTime_lt (t : Timestamp) : t.dayTime < 86400 := by
  unfold dayTime
  omega

theorem date_bounds (t : Timestamp) : t.date.month ≤ 12 ∧ t.date.day ≤ 31 := by
  obtain ⟨-, high, -, last⟩ : 1 ≤ t.date.month ∧ t.date.month ≤ 12 ∧ 1 ≤ t.date.day ∧
      t.date.day ≤ Date.daysInMonth t.date.year t.date.month := Date.ofDays_valid _
  exact ⟨high, last.trans (Date.daysInMonth_le _ _)⟩

/-- What clocks show sorts like what they stand for. -/
theorem clockText_lt {a b : Timestamp} (since : 0 ≤ a.year) (before : a.year ≤ 9999)
    (since' : 0 ≤ b.year) (before' : b.year ≤ 9999) {rest rest' : List Char}
    (order : a.wall < b.wall ∨ a.wall = b.wall ∧ rest < rest') : a.clockText rest < b.clockText rest' := by
  have days : a.date.rank < b.date.rank ∨
      a.date = b.date ∧ (a.dayTime < b.dayTime ∨ a.dayTime = b.dayTime ∧ rest < rest') := by
    rcases order with below | ⟨same, below⟩
    · rcases lt_trichotomy (a.wall / 86400) (b.wall / 86400) with earlier | level | later
      · exact .inl (Date.rank_ofDays_lt earlier)
      · refine .inr ⟨congrArg Date.ofDays level, .inl ?_⟩
        unfold dayTime
        omega
      · omega
    · exact .inr ⟨by rw [date, date, same], .inr ⟨by rw [dayTime, dayTime, same], below⟩⟩
  obtain ⟨month, day⟩ := date_bounds a
  obtain ⟨month', day'⟩ := date_bounds b
  refine dateText_lt since before since' before' month month' day day'
    (days.imp_right (And.imp_right fun times => mark_lt 'T' ?_))
  exact dayTimeText_lt (dayTime_lt a) (dayTime_lt b) times

/-- A time that a text of universal time with four digits of the year tells. -/
structure Dated (t : Timestamp) : Prop where
  since : 0 ≤ t.utc.year
  before : t.utc.year ≤ 9999
  nanos : t.nanos < 1000000000

/-- The instant is no later than the other one, whatever the offsets are. -/
def NotAfter (a b : Timestamp) : Prop :=
  a.seconds < b.seconds ∨ a.seconds = b.seconds ∧ a.nanos ≤ b.nanos

end Timestamp

namespace ReportStore

open Text Timestamp

theorem toList_timeText {t : Timestamp} (since : 0 ≤ t.utc.year) :
    (timeText t).toList = t.utc.clockText ('.' :: ((padded 9 t.nanos).toList ++ ['Z'])) := by
  have whole : ({ t.utc with nanos := 0 } : Timestamp).text =
      String.ofList (t.utc.clockText []) ++ "Z" := by
    apply String.toList_inj.mp
    have noFraction : fraction 0 = "" := by decide +kernel
    have spelled := toList_text (t := { t.utc with nanos := 0 }) since
    rw [noFraction] at spelled
    rw [spelled]
    simp [clockText, zone, date, wall, dayTime, utc]
  rw [timeText, whole, dropEnding_append]
  simp [clockText]

/-- A stored time is read back in universal time. -/
theorem parse?_timeText {t : Timestamp} (dated : t.Dated) : parse? (timeText t) = some t.utc := by
  have long := length_padded (show 0 < 9 by decide) dated.nanos
  have some : (padded 9 t.nanos).toList ≠ [] := by
    intro none
    rw [none] at long
    exact absurd long (by decide)
  have filled : ((padded 9 t.nanos).toList ++ List.replicate 9 '0').take 9 = (padded 9 t.nanos).toList :=
    List.take_left' long
  have known : interchange.fractionMarks.contains '.' = true := rfl
  have readFraction := takeFraction_mark known some (fun _ => isDigit_of_mem_padded)
    (show isDigit 'Z' = false by decide) []
  rw [filled, digitsValue_padded] at readFraction
  have spelled : (timeText t).toList =
      t.utc.clockText (('.' :: (padded 9 t.nanos).toList) ++ ['Z']) := toList_timeText dated.since
  rw [parse?_clockText dated.since dated.before spelled readFraction rfl]
  simp [wall, utc]

/-- Of two times the later one has the greater text. -/
theorem timeText_lt {a b : Timestamp} (dated : a.Dated) (dated' : b.Dated) (after : ¬ b.NotAfter a) :
    timeText a < timeText b := by
  have order : a.seconds < b.seconds ∨ a.seconds = b.seconds ∧ a.nanos < b.nanos := by
    unfold NotAfter at after
    omega
  have walls : a.utc.wall = a.seconds ∧ b.utc.wall = b.seconds := ⟨add_zero _, add_zero _⟩
  show (timeText a).toList < (timeText b).toList
  rw [toList_timeText dated.since, toList_timeText dated'.since]
  refine clockText_lt dated.since dated.before dated'.since dated'.before ?_
  rw [walls.1, walls.2]
  refine order.imp_right (And.imp_right fun below => mark_lt '.' ?_)
  exact padded_append_lt (by decide) dated.nanos dated'.nanos (.inl below)

/-- Texts of times sort like the times. -/
theorem notAfter_of_timeText_le {a b : Timestamp} (dated : a.Dated) (dated' : b.Dated)
    (below : timeText a ≤ timeText b) : a.NotAfter b := by
  by_contra after
  exact String.not_lt.mpr below (timeText_lt dated' dated after)

end ReportStore

end ClasspathAudit
