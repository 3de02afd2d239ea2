/-
Dates with times of day, in the proleptic Gregorian calendar, to the microsecond, naive or with an offset from UTC.

- `clock_inj`: the count of microseconds on the calendar determines every field.
- `instant_inj`: two aware datetimes with one offset and one instant are equal.
- `isoformat_inj`: the ISO 8601 text with microseconds determines every field and the offset.
-/
import Mathlib.Tactic

namespace Datetime

/-! ## The calendar -/

def isLeap (y : ℕ) : Bool := y % 4 = 0 && (y % 100 ≠ 0 || y % 400 = 0)

def daysInMonth (y m : ℕ) : ℕ :=
  if m = 2 && isLeap y then 29 else [31, 28, 31, 30, 31, 30, 31, 31, 30, 31, 30, 31].getD (m - 1) 0

/-- days before January 1 of the year -/
def daysBeforeYear (y : ℕ) : ℕ := (y - 1) * 365 + (y - 1) / 4 - (y - 1) / 100 + (y - 1) / 400

/-- days of the year before the month -/
def daysBeforeMonth (y m : ℕ) : ℕ :=
  [0, 31, 59, 90, 120, 151, 181, 212, 243, 273, 304, 334].getD (m - 1) 0 + (if 2 < m && isLeap y then 1 else 0)

/-- the ordinal of a date; January 1 of year 1 is day 1 -/
def ymd2ord (y m d : ℕ) : ℕ := daysBeforeYear y + daysBeforeMonth y m + d

/-- a UTC offset, in microseconds -/
abbrev Offset := { n : ℤ // -86400000000 < n ∧ n < 86400000000 }

def Offset.utc : Offset := ⟨0, by decide⟩

structure DateTime where
  year : ℕ
  month : ℕ
  day : ℕ
  hour : ℕ
  minute : ℕ
  second : ℕ
  microsecond : ℕ
  tz : Option Offset
  yearOk : 1 ≤ year ∧ year ≤ 9999
  monthOk : 1 ≤ month ∧ month ≤ 12
  dayOk : 1 ≤ day ∧ day ≤ daysInMonth year month
  hourOk : hour < 24
  minuteOk : minute < 60
  secondOk : second < 60
  microsecondOk : microsecond < 1000000
deriving DecidableEq

namespace DateTime

/-- microseconds of the fields as they stand -/
def clock (t : DateTime) : ℤ :=
  (((ymd2ord t.year t.month t.day : ℤ) * 24 + t.hour) * 60 + t.minute) * 60000000 + t.second * 1000000 + t.microsecond

/-- microseconds in UTC, a naive datetime taken as UTC -/
def instant (t : DateTime) : ℤ := t.clock - (t.tz.map Subtype.val).getD 0

end DateTime

/-! ## Ordinals -/

theorem daysBeforeYear_succ {y : ℕ} (hy : 1 ≤ y) :
    daysBeforeYear (y + 1) = daysBeforeYear y + 365 + (if isLeap y then 1 else 0) := by
  obtain ⟨k, rfl⟩ : ∃ k, y = k + 1 := ⟨y - 1, by omega⟩
  have hle : k / 100 ≤ k / 4 := Nat.div_le_div_left (by decide) (by decide)
  unfold daysBeforeYear isLeap
  rw [Nat.add_sub_cancel, Nat.add_sub_cancel, Nat.succ_div, Nat.succ_div, Nat.succ_div]
  simp only [Nat.dvd_iff_mod_eq_zero, decide_not, Bool.and_eq_true, decide_eq_true_eq, Bool.or_eq_true,
    Bool.not_eq_eq_eq_not, Bool.not_true, decide_eq_false_iff_not]
  split_ifs <;> omega

/-- a year's days lie before the next year's -/
theorem daysBeforeYear_lt {y y' : ℕ} (hy : 1 ≤ y) (h : y < y') :
    daysBeforeYear y + 365 + (if isLeap y then 1 else 0) ≤ daysBeforeYear y' := by
  rw [← daysBeforeYear_succ hy]
  induction y', h using Nat.le_induction with
  | base => exact le_refl _
  | succ n hn ih =>
    rw [daysBeforeYear_succ (by omega : 1 ≤ n)]
    omega

/-- a month's days lie before the next month's, and within the year -/
theorem daysBeforeMonth_lt {y m m' : ℕ} (hm : 1 ≤ m) (hm' : m' ≤ 12) (h : m < m') :
    daysBeforeMonth y m + daysInMonth y m ≤ daysBeforeMonth y m' := by
  have hm₁₂ : m ≤ 12 := by omega
  unfold daysBeforeMonth daysInMonth
  cases isLeap y
  · interval_cases m <;> interval_cases m' <;> first | omega | decide
  · interval_cases m <;> interval_cases m' <;> first | omega | decide

theorem daysInMonth_year {y m : ℕ} (hm : 1 ≤ m) (hm' : m ≤ 12) :
    daysBeforeMonth y m + daysInMonth y m ≤ 365 + (if isLeap y then 1 else 0) := by
  unfold daysBeforeMonth daysInMonth
  cases isLeap y
  · interval_cases m <;> decide
  · interval_cases m <;> decide

/-- the ordinal determines the date -/
theorem ymd2ord_inj {t u : DateTime} (h : ymd2ord t.year t.month t.day = ymd2ord u.year u.month u.day) :
    t.year = u.year ∧ t.month = u.month ∧ t.day = u.day := by
  have ht := daysInMonth_year (y := t.year) t.monthOk.1 t.monthOk.2
  have hu := daysInMonth_year (y := u.year) u.monthOk.1 u.monthOk.2
  have htd := t.dayOk
  have hud := u.dayOk
  unfold ymd2ord at h
  have hyear : t.year = u.year := by
    rcases lt_trichotomy t.year u.year with hlt | heq | hlt
    · have hle := daysBeforeYear_lt t.yearOk.1 hlt
      omega
    · exact heq
    · have hle := daysBeforeYear_lt u.yearOk.1 hlt
      omega
  rw [← hyear] at h hud
  have hmonth : t.month = u.month := by
    rcases lt_trichotomy t.month u.month with hlt | heq | hlt
    · have hle := daysBeforeMonth_lt (y := t.year) t.monthOk.1 u.monthOk.2 hlt
      omega
    · exact heq
    · have hle := daysBeforeMonth_lt (y := t.year) u.monthOk.1 t.monthOk.2 hlt
      omega
  rw [← hmonth] at h
  exact ⟨hyear, hmonth, by omega⟩

/-- every field but the offset -/
def SameFields (t u : DateTime) : Prop :=
  t.year = u.year ∧ t.month = u.month ∧ t.day = u.day ∧ t.hour = u.hour ∧ t.minute = u.minute ∧ t.second = u.second ∧
    t.microsecond = u.microsecond

theorem SameFields.eq {t u : DateTime} (h : SameFields t u) (htz : t.tz = u.tz) : t = u := by
  obtain ⟨hy, hmo, hd, hh, hmi, hs, hus⟩ := h
  cases t
  cases u
  simp_all

/-- the count of microseconds determines every field -/
theorem clock_inj {t u : DateTime} (h : t.clock = u.clock) : SameFields t u := by
  have hth := t.hourOk
  have htm := t.minuteOk
  have hts := t.secondOk
  have htu := t.microsecondOk
  have huh := u.hourOk
  have hum := u.minuteOk
  have hus := u.secondOk
  have huu := u.microsecondOk
  unfold DateTime.clock at h
  have hord : ymd2ord t.year t.month t.day = ymd2ord u.year u.month u.day := by omega
  obtain ⟨hy, hmo, hd⟩ := ymd2ord_inj hord
  rw [hord] at h
  exact ⟨hy, hmo, hd, by omega, by omega, by omega, by omega⟩

/-- **One instant under one offset is one datetime.** -/
theorem instant_inj {t u : DateTime} (h : t.instant = u.instant) (htz : t.tz = u.tz) : t = u := by
  unfold DateTime.instant at h
  rw [htz] at h
  exact (clock_inj (sub_left_inj.1 h)).eq htz

/-! ## ISO 8601 -/

def digit (n : ℕ) : Char := Char.ofNat (48 + n)

/-- `w` decimal digits -/
def padded : ℕ → ℕ → List Char
  | 0, _ => []
  | w + 1, n => padded w (n / 10) ++ [digit (n % 10)]

/-- seconds of an offset, left out when there are none, and so its microseconds -/
def offsetTail (a : ℕ) : List Char :=
  if a % 60000000 = 0 then []
  else ':' :: (padded 2 (a / 1000000 % 60) ++ if a % 1000000 = 0 then [] else '.' :: padded 6 (a % 1000000))

def offsetText : Option Offset → List Char
  | none => []
  | some off =>
    (if off.val < 0 then '-' else '+') ::
      (padded 2 (off.val.natAbs / 3600000000) ++ ':' :: (padded 2 (off.val.natAbs / 60000000 % 60) ++
        offsetTail off.val.natAbs))

/-- `isoformat(timespec="microseconds")` -/
def DateTime.isoformat (t : DateTime) : List Char :=
  padded 4 t.year ++ '-' :: (padded 2 t.month ++ '-' :: (padded 2 t.day ++ 'T' :: (padded 2 t.hour ++ ':' ::
    (padded 2 t.minute ++ ':' :: (padded 2 t.second ++ '.' :: (padded 6 t.microsecond ++ offsetText t.tz))))))

@[simp] theorem padded_length (w n : ℕ) : (padded w n).length = w := by
  induction w generalizing n with
  | zero => rfl
  | succ w ih => rw [padded, List.length_append, ih, List.length_singleton]

theorem digit_inj : ∀ m < 10, ∀ n < 10, digit m = digit n → m = n := by decide

/-- fixed-width digits determine the number and what follows -/
theorem padded_inj {w m n : ℕ} (hm : m < 10 ^ w) (hn : n < 10 ^ w) {r r' : List Char}
    (h : padded w m ++ r = padded w n ++ r') : m = n ∧ r = r' := by
  obtain ⟨hdigits, hr⟩ := List.append_inj h (by rw [padded_length, padded_length])
  refine ⟨?_, hr⟩
  clear h
  induction w generalizing m n with
  | zero =>
    rw [pow_zero] at hm hn
    omega
  | succ w ih =>
    rw [pow_succ] at hm hn
    rw [padded, padded] at hdigits
    obtain ⟨hhigh, hlow⟩ := List.append_inj hdigits (by rw [padded_length, padded_length])
    have hquot := ih (by omega) (by omega) hhigh
    have hmod := digit_inj _ (Nat.mod_lt _ (by decide)) _ (Nat.mod_lt _ (by decide)) (List.cons.inj hlow).1
    omega

theorem offsetTail_inj {a b : ℕ} (h : offsetTail a = offsetTail b) : a % 60000000 = b % 60000000 := by
  unfold offsetTail at h
  split_ifs at h with ha hb hb ha₆ hb₆ hb₆
  · omega
  all_goals
    simp only [List.cons.injEq, true_and] at h
    obtain ⟨hsec, h⟩ := padded_inj (by omega) (by omega) h
  · omega
  · cases h
  · cases h
  · simp only [List.cons.injEq, true_and] at h
    have happ : padded 6 (a % 1000000) ++ [] = padded 6 (b % 1000000) ++ [] := by rw [h]
    obtain ⟨hus, -⟩ := padded_inj (by omega) (by omega) happ
    omega

theorem offsetText_inj {p q : Option Offset} (h : offsetText p = offsetText q) : p = q := by
  cases p with
  | none =>
    cases q with
    | none => rfl
    | some q => cases h
  | some p =>
    cases q with
    | none => cases h
    | some q =>
      obtain ⟨p, hp⟩ := p
      obtain ⟨q, hq⟩ := q
      simp only [offsetText, List.cons.injEq] at h
      obtain ⟨hsign, h⟩ := h
      obtain ⟨hhour, h⟩ := padded_inj (by omega) (by omega) h
      obtain ⟨hminute, htail⟩ := padded_inj (by omega) (by omega) (List.cons.inj h).2
      have hrest := offsetTail_inj htail
      have habs : p.natAbs = q.natAbs := by omega
      have hneg : p < 0 ↔ q < 0 := by
        by_cases hp' : p < 0
        · by_cases hq' : q < 0
          · exact ⟨fun _ => hq', fun _ => hp'⟩
          · rw [if_pos hp', if_neg hq'] at hsign
            cases hsign
        · by_cases hq' : q < 0
          · rw [if_neg hp', if_pos hq'] at hsign
            cases hsign
          · exact ⟨fun h => absurd h hp', fun h => absurd h hq'⟩
      have heq : p = q := by omega
      subst heq
      rfl

theorem daysInMonth_le (y m : ℕ) (hm : 1 ≤ m) (hm' : m ≤ 12) : daysInMonth y m ≤ 31 := by
  unfold daysInMonth
  cases isLeap y
  · interval_cases m <;> decide
  · interval_cases m <;> decide

/-- **The ISO text determines the datetime.** -/
theorem isoformat_inj {t u : DateTime} (h : t.isoformat = u.isoformat) : t = u := by
  have ht := daysInMonth_le t.year t.month t.monthOk.1 t.monthOk.2
  have hu := daysInMonth_le u.year u.month u.monthOk.1 u.monthOk.2
  have htd := t.dayOk
  have hud := u.dayOk
  have hty := t.yearOk
  have huy := u.yearOk
  have htm := t.monthOk
  have hum := u.monthOk
  unfold DateTime.isoformat at h
  obtain ⟨hy, h⟩ := padded_inj (by omega) (by omega) h
  obtain ⟨hmo, h⟩ := padded_inj (by omega) (by omega) (List.cons.inj h).2
  obtain ⟨hd, h⟩ := padded_inj (by omega) (by omega) (List.cons.inj h).2
  obtain ⟨hh, h⟩ := padded_inj (lt_trans t.hourOk (by decide)) (lt_trans u.hourOk (by decide)) (List.cons.inj h).2
  obtain ⟨hmi, h⟩ := padded_inj (lt_trans t.minuteOk (by decide)) (lt_trans u.minuteOk (by decide)) (List.cons.inj h).2
  obtain ⟨hs, h⟩ := padded_inj (lt_trans t.secondOk (by decide)) (lt_trans u.secondOk (by decide)) (List.cons.inj h).2
  obtain ⟨hus, h⟩ := padded_inj t.microsecondOk u.microsecondOk (List.cons.inj h).2
  have hfields : SameFields t u := ⟨hy, hmo, hd, hh, hmi, hs, hus⟩
  exact hfields.eq (offsetText_inj h)

end Datetime
