import RenderFarm.Time.Calendar

/-!
The calendar runs through all its dates: every day number is that of its date, and the date is one of the calendar.
An era of four hundred years is taken apart into centuries, groups of four years and years.
-/

namespace RenderFarm.Date

/-- A day of an era of four hundred years, by its century, its group of four years, its year and its day. Years start
in March, so that the leap day of a year is its last. -/
structure EraDay where
  century : Int
  group : Int
  year : Int
  day : Int
  century_range : 0 ≤ century ∧ century ≤ 3
  group_range : 0 ≤ group ∧ group ≤ 24
  year_range : 0 ≤ year ∧ year ≤ 3
  day_range : 0 ≤ day ∧ (day ≤ 364 ∨ day = 365 ∧ year = 3 ∧ (group < 24 ∨ century = 3))

namespace EraDay

/-- The number of days before it in the era. -/
def number (e : EraDay) : Int :=
  36524 * e.century + 1461 * e.group + 365 * e.year + e.day

/-- The number of years before it in the era. -/
def years (e : EraDay) : Int :=
  100 * e.century + 4 * e.group + e.year

theorem years_range (e : EraDay) : 0 ≤ e.years ∧ e.years < 400 := by
  obtain ⟨c, q, k, d, hc, hq, hk, hd⟩ := e
  simp only [years]
  omega

theorem exists_number_eq {n : Int} (nonneg : 0 ≤ n) (below : n < 146097) : ∃ e : EraDay, e.number = n := by
  obtain ⟨c, hc⟩ : ∃ c, c = min (n / 36524) 3 := ⟨_, rfl⟩
  obtain ⟨q, hq⟩ : ∃ q, q = (n - 36524 * c) / 1461 := ⟨_, rfl⟩
  obtain ⟨k, hk⟩ : ∃ k, k = min ((n - 36524 * c - 1461 * q) / 365) 3 := ⟨_, rfl⟩
  refine ⟨⟨c, q, k, n - 36524 * c - 1461 * q - 365 * k, ?_, ?_, ?_, ?_⟩, ?_⟩
  · omega
  · omega
  · omega
  · omega
  · simp only [number]
    omega

/-- The year is found from the number of the day. -/
theorem years_eq (e : EraDay) :
    (e.number - e.number / 1460 + e.number / 36524 - e.number / 146096) / 365 = e.years := by
  obtain ⟨c, q, k, d, hc, hq, hk, hd⟩ := e
  simp only [number, years]
  generalize same : 36524 * c + 1461 * q + 365 * k + d = n
  have centuries : n / 36524 - n / 146096 = c := by
    by_cases last : n = 146096
    · omega
    · have below : n / 146096 = 0 := by omega
      omega
  obtain ⟨i, split, hi⟩ : ∃ i, n / 1460 = 25 * c + q + i ∧ (i = 0 ∧ d < 365 ∨ i = 1 ∧ 0 < d) := by
    by_cases low : 24 * c + q + 365 * k + d < 1460
    · exact ⟨0, by omega, by omega⟩
    · exact ⟨1, by omega, by omega⟩
  omega

/-- The days before the year. -/
theorem number_sub_years (e : EraDay) : e.number - (365 * e.years + e.years / 4 - e.years / 100) = e.day := by
  obtain ⟨c, q, k, d, hc, hq, hk, hd⟩ := e
  simp only [number, years]
  omega

end EraDay

/-- The parts of the date of a day. -/
theorem ofDays_eq {n : Int} {e : EraDay} (same : e.number = (n + 719468) % 146097) : ∃ month : Int,
    month = (5 * e.day + 2) / 153 ∧ ofDays n =
      ⟨e.years + (n + 719468) / 146097 * 400 + (if month < 10 then 0 else 1),
        (if month < 10 then month + 3 else month - 9).toNat, (e.day - (153 * month + 2) / 5 + 1).toNat⟩ := by
  refine ⟨_, rfl, ?_⟩
  simp only [ofDays, ← same, EraDay.years_eq, EraDay.number_sub_years, mk.injEq, and_true]
  have := e.day_range
  split <;> split <;> omega

theorem toDays_ofDays (n : Int) : (ofDays n).toDays = n := by
  obtain ⟨e, same⟩ := EraDay.exists_number_eq (n := (n + 719468) % 146097) (by omega) (by omega)
  obtain ⟨m, found, date⟩ := ofDays_eq same
  have days := e.day_range
  have years := e.years_range
  have number := e.number_sub_years
  have year : (if (if m < 10 then m + 3 else m - 9).toNat ≤ 2 then
        e.years + (n + 719468) / 146097 * 400 + (if m < 10 then 0 else 1) - 1
      else e.years + (n + 719468) / 146097 * 400 + (if m < 10 then 0 else 1)) =
      e.years + (n + 719468) / 146097 * 400 := by
    split <;> split <;> omega
  have month : (((if m < 10 then m + 3 else m - 9).toNat + 9) % 12 : Nat) = m := by
    split <;> omega
  have day : ((e.day - (153 * m + 2) / 5 + 1).toNat : Int) = e.day - (153 * m + 2) / 5 + 1 := by
    omega
  have era : (e.years + (n + 719468) / 146097 * 400) / 400 = (n + 719468) / 146097 := by
    omega
  have yearOfEra : (e.years + (n + 719468) / 146097 * 400) % 400 = e.years := by
    omega
  rw [date]
  simp only [toDays, year, month, day, era, yearOfEra]
  clear year month day
  omega

/-- Only a year before a leap day has 366 days. -/
theorem EraDay.isLeapYear {e : EraDay} (last : e.day = 365) (era : Int) :
    isLeapYear (e.years + era * 400 + 1) := by
  obtain ⟨c, q, k, d, hc, hq, hk, hd⟩ := e
  simp only [Date.isLeapYear, EraDay.years, Bool.and_eq_true, Bool.or_eq_true, beq_iff_eq, bne_iff_ne] at last ⊢
  omega

theorem isValid_ofDays (n : Int) : (ofDays n).isValid := by
  obtain ⟨e, same⟩ := EraDay.exists_number_eq (n := (n + 719468) % 146097) (by omega) (by omega)
  obtain ⟨m, found, date⟩ := ofDays_eq same
  have days := e.day_range
  have leap := EraDay.isLeapYear (e := e)
  rw [date]
  simp only [isValid, Bool.and_eq_true, decide_eq_true_eq, daysInMonth]
  refine ⟨⟨⟨?_, ?_⟩, ?_⟩, ?_⟩
  · split <;> omega
  · split <;> omega
  · omega
  by_cases early : m < 10
  · simp only [if_pos early]
    split
    · omega
    · split <;> omega
  · simp only [if_neg early]
    split
    · split
      · omega
      · rename_i short
        have : e.day ≠ 365 := fun last => short (leap last _)
        omega
    · split <;> omega

theorem month_day_le {d : Date} (valid : d.isValid) : d.month ≤ 12 ∧ d.day ≤ 31 := by
  simp only [isValid, Bool.and_eq_true, decide_eq_true_eq] at valid
  have days : daysInMonth d.year d.month ≤ 31 := by
    unfold daysInMonth
    split
    · split <;> decide
    · split <;> decide
  omega

end RenderFarm.Date
