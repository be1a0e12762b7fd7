namespace DatasetFilters

/-- A date of the civil calendar, without end in both directions. -/
structure Date where
  year : Int
  month : Nat
  day : Nat
  deriving DecidableEq, Repr

namespace Date

/-- Days before a year, counted from the start of its era of 400 years. -/
def daysBefore (yearOfEra : Int) : Int :=
  yearOfEra * 365 + yearOfEra / 4 - yearOfEra / 100

def daysBeforeMonth (monthFromMarch : Int) : Int := (153 * monthFromMarch + 2) / 5

/-- Days from 1970-01-01 to a date. Years begin with March in the count, so that the day that is
not in every year is the last one; 400 years have 146097 days. -/
def days (d : Date) : Int :=
  let y := if d.month ≤ 2 then d.year - 1 else d.year
  y / 400 * 146097 + daysBefore (y % 400) + daysBeforeMonth (((d.month : Int) + 9) % 12) +
    (d.day - 1) - 719468

/-- The year of an era and the day of that year, from the day of the era: whole centuries first,
then spans of four years, then years, the last century and the last year of a span being a day
longer. -/
def yearAndDay (dayOfEra : Int) : Int × Int :=
  let century := min (dayOfEra / 36524) 3
  let inCentury := dayOfEra - 36524 * century
  let year := min (inCentury % 1461 / 365) 3
  (100 * century + 4 * (inCentury / 1461) + year, inCentury % 1461 - 365 * year)

def ofDays (n : Int) : Date :=
  let z := n + 719468
  let (yearOfEra, dayOfYear) := yearAndDay (z % 146097)
  let monthFromMarch := (5 * dayOfYear + 2) / 153
  let day := dayOfYear - daysBeforeMonth monthFromMarch + 1
  if monthFromMarch < 10 then
    ⟨z / 146097 * 400 + yearOfEra, (monthFromMarch + 3).toNat, day.toNat⟩
  else
    ⟨z / 146097 * 400 + yearOfEra + 1, (monthFromMarch - 9).toNat, day.toNat⟩

/-- The count of days of a triple that is a date: the date of its own count. -/
def days? (d : Date) : Option Int :=
  if ofDays d.days = d then some d.days else none

/-- The year and day of an era's day: the bounds they keep and the day they come from. -/
theorem yearAndDay_eq {doe : Int} (h0 : 0 ≤ doe) (h1 : doe < 146097) :
    ∃ yoe doy, yearAndDay doe = (yoe, doy) ∧ 0 ≤ yoe ∧ yoe < 400 ∧ 0 ≤ doy ∧ doy ≤ 365 ∧
      daysBefore yoe + doy = doe := by
  refine ⟨_, _, rfl, ?_⟩
  simp only [daysBefore]
  generalize hc : min (doe / 36524) 3 = c
  have hc0 : 0 ≤ c := by omega
  have hc3 : c ≤ 3 := by omega
  generalize hi : doe - 36524 * c = i
  have hi0 : 0 ≤ i := by omega
  have hi1 : i ≤ 36524 := by omega
  generalize hq : i / 1461 = q
  generalize hr : i % 1461 = r
  generalize hy : min (r / 365) 3 = y
  have hy0 : 0 ≤ y := by omega
  have hy3 : y ≤ 3 := by omega
  have hq4 : (100 * c + 4 * q + y) / 4 = 25 * c + q := by omega
  have hq100 : (100 * c + 4 * q + y) / 100 = c := by omega
  rw [hq4, hq100]
  omega

/-- The two ways to name a day agree. -/
theorem days_ofDays (n : Int) : (ofDays n).days = n := by
  unfold ofDays
  simp only
  generalize hz : n + 719468 = z
  obtain ⟨yoe, doy, he, hy0, hy1, hd0, hd1, hs⟩ :=
    @yearAndDay_eq (z % 146097) (by omega) (by omega)
  rw [he]
  simp only
  generalize hm : (5 * doy + 2) / 153 = mp
  have hm0 : 0 ≤ mp := by omega
  have hm1 : mp ≤ 11 := by omega
  have hday : 0 ≤ doy - daysBeforeMonth mp := by unfold daysBeforeMonth; omega
  have key : z / 146097 * 146097 + daysBefore yoe + doy - 719468 = n := by omega
  split
  · next h10 =>
    have h3 : ¬ (mp + 3).toNat ≤ 2 := by omega
    have hmonth : (((mp + 3).toNat : Int) + 9) % 12 = mp := by omega
    have hera : (z / 146097 * 400 + yoe) / 400 = z / 146097 := by omega
    have hyear : (z / 146097 * 400 + yoe) % 400 = yoe := by omega
    simp only [days, h3, if_false, hmonth, hera, hyear]
    omega
  · next h10 =>
    have h3 : (mp - 9).toNat ≤ 2 := by omega
    have hmonth : (((mp - 9).toNat : Int) + 9) % 12 = mp := by omega
    have hera : (z / 146097 * 400 + yoe + 1 - 1) / 400 = z / 146097 := by omega
    have hyear : (z / 146097 * 400 + yoe + 1 - 1) % 400 = yoe := by omega
    simp only [days, h3, if_true, hmonth, hera, hyear]
    omega

theorem days?_ofDays (n : Int) : (ofDays n).days? = some n := by
  simp [days?, days_ofDays]

end Date
end DatasetFilters
