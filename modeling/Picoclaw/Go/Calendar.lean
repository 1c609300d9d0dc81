import Mathlib.Tactic.SplitIfs
import Mathlib.Data.Nat.Digits
import Picoclaw.Go.Strings
import Picoclaw.Go.Runtime

/-!
# The calendar fields grow with the instant

`civilFromDays` counts days from 0000-03-01 in eras of 400 years (146097 days). In an era, the
day `doe` is turned into the year of the era by taking the leap days out (`leapFree`) and
dividing by 365 (`yearOfEra`); the day of the year, from March 1st, is what remains after the
year's first day (`yearStart`), and the month from March and the day of the month follow from
it by the 153-day rule of five months (`marchMonth`, `monthDay`). January and February are the
months 10 and 11 of the March-based year, so they belong to the next calendar year.

**The law** (`timeKey_civilTime_lt`): in a zone of fixed offset, a later second has greater
calendar fields: read as the number `YYYYMMDDhhmmss` (`timeKey`), the fields `civilTime` gives
grow strictly with the instant. It rests on the invariants of the computation: the year of the
era grows with the day (`yearOfEra_mono`); a year starts on or before each of its days and
lasts at most 366 of them (`yearStart_le`); and the month and the day grow with the day of the
year (`monthDay_lt`).

Each field is in its range (`civilTime_ranges`), so `Format`'s zero-padded fields are decimals
of their widths (`appendInt_decimal`).
-/

namespace Picoclaw.Go

/-! ## The pieces of `civilFromDays` -/

/-- The days of an era before `doe` with the leap days taken out. -/
def leapFree (doe : Nat) : Nat := doe - doe / 1460 + doe / 36524 - doe / 146096

/-- The year of the era of its day `doe`, counting March-based years. -/
def yearOfEra (doe : Nat) : Nat := leapFree doe / 365

/-- The day of the era on which its year `yoe` starts. -/
def yearStart (yoe : Nat) : Nat := 365 * yoe + yoe / 4 - yoe / 100

/-- The day of the year, from March 1st, of the day `doe` of an era. -/
def dayOfYear (doe : Nat) : Nat := doe - yearStart (yearOfEra doe)

/-- The month, from March as 0, of a day of the year. -/
def marchMonth (doy : Nat) : Nat := (5 * doy + 2) / 153

/-- The day of the month of a day of the year. -/
def monthDay (doy : Nat) : Nat := doy - (153 * marchMonth doy + 2) / 5 + 1

/-- `civilFromDays` in its pieces. -/
theorem civilFromDays_eq (z : Int) :
    civilFromDays z =
      let doe := ((z + 719468) % 146097).toNat
      let mp := marchMonth (dayOfYear doe)
      let month := if mp < 10 then mp + 3 else mp - 9
      ((z + 719468) / 146097 * 400 + yearOfEra doe + (if month ≤ 2 then 1 else 0), month,
        monthDay (dayOfYear doe)) := rfl

/-- A date `(year, month, day)` as the number `YYYYMMDD`. -/
def dateKey (d : Int × Nat × Nat) : Int := d.1 * 10000 + d.2.1 * 100 + d.2.2

/-- A time as the number `YYYYMMDDhhmmss`. -/
def timeKey (c : CivilTime) : Int :=
  dateKey (c.year, c.month, c.day) * 1000000 + c.hour * 10000 + c.minute * 100 + c.second

/-! ## The year of the era -/

theorem leapFree_mono {a b : Nat} (h : a ≤ b) : leapFree a ≤ leapFree b := by
  have h1460 : b / 1460 - a / 1460 ≤ b - a := by omega
  have hera : ∀ n : Nat, n / 146096 = n / 36524 / 4 := fun n => by rw [Nat.div_div_eq_div_mul]
  have hcent : b / 36524 / 4 - a / 36524 / 4 ≤ b / 36524 - a / 36524 := by
    have : a / 36524 ≤ b / 36524 := by omega
    omega
  unfold leapFree
  rw [hera a, hera b]
  omega

/-- **The year of the era grows with the day.** -/
theorem yearOfEra_mono {a b : Nat} (h : a ≤ b) : yearOfEra a ≤ yearOfEra b := by
  have := leapFree_mono h
  unfold yearOfEra
  omega

theorem yearOfEra_le {doe : Nat} (h : doe ≤ 146096) : yearOfEra doe ≤ 399 := by
  have := leapFree_mono h
  have hlast : leapFree 146096 = 145999 := by decide
  unfold yearOfEra
  omega

/-- The year of the day `r` of the four-year block `k` of the century `c`: the leap days before
it are `25 c + k`, one more on the block's last day, which gives the year `100 c + 4 k + j`
with `j ≤ 3`, starting on the day `36524 c + 1461 k + 365 j`. -/
theorem yearStart_block {c k r : Nat} (hc : c ≤ 3) (hr : r < 1461) (hkr : 1461 * k + r < 36524) :
    yearStart (yearOfEra (36524 * c + 1461 * k + r)) ≤ 36524 * c + 1461 * k + r ∧
      36524 * c + 1461 * k + r ≤ yearStart (yearOfEra (36524 * c + 1461 * k + r)) + 365 := by
  have hcent : (36524 * c + 1461 * k + r) / 36524 = c := by omega
  have hera : (36524 * c + 1461 * k + r) / 146096 = 0 := by omega
  obtain ⟨δ, h1460, hδ⟩ : ∃ δ, (36524 * c + 1461 * k + r) / 1460 = 25 * c + k + δ ∧
      δ ≤ r ∧ r - δ < 1460 ∧ r ≤ r - δ + 1 := by
    by_cases hlast : 24 * c + k + r ≥ 1460
    · exact ⟨1, by omega, by omega, by omega, by omega⟩
    · exact ⟨0, by omega, by omega, by omega, by omega⟩
  have hyear : yearOfEra (36524 * c + 1461 * k + r) = 100 * c + 4 * k + (r - δ) / 365 := by
    unfold yearOfEra leapFree
    rw [h1460, hcent, hera]
    omega
  obtain ⟨j, hj⟩ : ∃ j, (r - δ) / 365 = j := ⟨_, rfl⟩
  have hstart : yearStart (100 * c + 4 * k + j) = 36524 * c + 1461 * k + 365 * j := by
    unfold yearStart
    omega
  rw [hyear, hj, hstart]
  omega

/-- **A year starts on or before each of its days and lasts at most 366 days.** -/
theorem yearStart_le {n : Nat} (h : n ≤ 146096) :
    yearStart (yearOfEra n) ≤ n ∧ n ≤ yearStart (yearOfEra n) + 365 := by
  rcases Nat.lt_or_eq_of_le h with h | rfl
  · have hn : n = 36524 * (n / 36524) + 1461 * (n % 36524 / 1461) + n % 36524 % 1461 := by omega
    rw [hn]
    exact yearStart_block (by omega) (by omega) (by omega)
  · decide

/-- **In an era, the year and the day of the year grow together.** -/
theorem dayOfYear_lt {a b : Nat} (h : a < b) (hb : b ≤ 146096) :
    yearOfEra a < yearOfEra b ∨ (yearOfEra a = yearOfEra b ∧ dayOfYear a < dayOfYear b) := by
  have hmono := yearOfEra_mono (Nat.le_of_lt h)
  have ha := (yearStart_le (show a ≤ 146096 by omega)).1
  rcases Nat.lt_or_eq_of_le hmono with hlt | heq
  · exact .inl hlt
  · refine .inr ⟨heq, ?_⟩
    unfold dayOfYear
    rw [heq] at ha ⊢
    omega

theorem dayOfYear_le {doe : Nat} (h : doe ≤ 146096) : dayOfYear doe ≤ 365 := by
  have := yearStart_le h
  unfold dayOfYear
  omega

/-! ## The month and the day -/

theorem marchMonth_bounds {doy : Nat} (h : doy ≤ 365) :
    marchMonth doy ≤ 11 ∧ 1 ≤ monthDay doy ∧ monthDay doy ≤ 31 := by
  unfold monthDay marchMonth
  omega

/-- **The month and the day grow with the day of the year.** -/
theorem monthDay_lt {a b : Nat} (h : a < b) :
    marchMonth a < marchMonth b ∨ (marchMonth a = marchMonth b ∧ monthDay a < monthDay b) := by
  unfold monthDay marchMonth
  omega

/-! ## Dates and times -/

/-- The key of the date of the day `z`, in the March-based year of its era. -/
def marchKey (z : Int) : Int :=
  let doe := ((z + 719468) % 146097).toNat
  ((z + 719468) / 146097 * 400 + yearOfEra doe) * 10000 + marchMonth (dayOfYear doe) * 100 +
    monthDay (dayOfYear doe)

/-- **A later day has a greater March-based date.** -/
theorem marchKey_lt {z z' : Int} (h : z < z') : marchKey z < marchKey z' := by
  have hr := Int.emod_nonneg (z + 719468) (by decide : (146097 : Int) ≠ 0)
  have hr' := Int.emod_nonneg (z' + 719468) (by decide : (146097 : Int) ≠ 0)
  have hlt := Int.emod_lt_of_pos (z + 719468) (by decide : (0 : Int) < 146097)
  have hlt' := Int.emod_lt_of_pos (z' + 719468) (by decide : (0 : Int) < 146097)
  have hdiv := Int.emod_add_ediv (z + 719468) 146097
  have hdiv' := Int.emod_add_ediv (z' + 719468) 146097
  obtain ⟨doe, hdoe⟩ : ∃ doe : Nat, ((z + 719468) % 146097).toNat = doe := ⟨_, rfl⟩
  obtain ⟨doe', hdoe'⟩ : ∃ doe : Nat, ((z' + 719468) % 146097).toNat = doe := ⟨_, rfl⟩
  have hcast : ((z + 719468) % 146097) = doe := by rw [← hdoe, Int.toNat_of_nonneg hr]
  have hcast' : ((z' + 719468) % 146097) = doe' := by rw [← hdoe', Int.toNat_of_nonneg hr']
  have hdoy := dayOfYear_le (show doe ≤ 146096 by omega)
  have hdoy' := dayOfYear_le (show doe' ≤ 146096 by omega)
  have hb := marchMonth_bounds hdoy
  have hb' := marchMonth_bounds hdoy'
  have hy := yearOfEra_le (show doe ≤ 146096 by omega)
  unfold marchKey
  simp only [hdoe, hdoe']
  by_cases hera : (z + 719468) / 146097 < (z' + 719468) / 146097
  · omega
  · have hdoe_lt : doe < doe' := by omega
    rcases dayOfYear_lt hdoe_lt (by omega) with hyr | ⟨hyr, hd⟩
    · omega
    · rcases monthDay_lt hd with hm | ⟨hm, hday⟩ <;> omega

/-- **A later day has a greater date.** January and February move to the next calendar year,
which keeps the order. -/
theorem dateKey_civilFromDays_lt {z z' : Int} (h : z < z') :
    dateKey (civilFromDays z) < dateKey (civilFromDays z') := by
  have hkey := marchKey_lt h
  have hbounds : ∀ z : Int, marchMonth (dayOfYear ((z + 719468) % 146097).toNat) ≤ 11 ∧
      1 ≤ monthDay (dayOfYear ((z + 719468) % 146097).toNat) ∧
      monthDay (dayOfYear ((z + 719468) % 146097).toNat) ≤ 31 := fun z =>
    marchMonth_bounds (dayOfYear_le (by omega))
  have hb := hbounds z
  have hb' := hbounds z'
  unfold marchKey at hkey
  rw [civilFromDays_eq, civilFromDays_eq]
  simp only [dateKey] at hkey ⊢
  split_ifs <;> push_cast <;> omega

/-- **The clock fields grow with the second of the day.** -/
theorem clock_lt {x x' : Nat} (h : x < x') :
    x / 3600 * 10000 + x / 60 % 60 * 100 + x % 60 <
      x' / 3600 * 10000 + x' / 60 % 60 * 100 + x' % 60 := by
  have hx : x / 60 % 60 = x % 3600 / 60 := by omega
  have hx' : x' / 60 % 60 = x' % 3600 / 60 := by omega
  rw [hx, hx']
  omega

/-- **A later second has greater calendar fields**, in a zone of fixed offset. -/
theorem timeKey_civilTime_lt (offset : Int) {secs secs' : Int} (h : secs < secs') :
    timeKey (civilTime offset secs) < timeKey (civilTime offset secs') := by
  have hsod := Int.emod_nonneg (secs + offset) (by decide : (86400 : Int) ≠ 0)
  have hsod' := Int.emod_nonneg (secs' + offset) (by decide : (86400 : Int) ≠ 0)
  have hlt := Int.emod_lt_of_pos (secs + offset) (by decide : (0 : Int) < 86400)
  have hlt' := Int.emod_lt_of_pos (secs' + offset) (by decide : (0 : Int) < 86400)
  have hdiv := Int.emod_add_ediv (secs + offset) 86400
  have hdiv' := Int.emod_add_ediv (secs' + offset) 86400
  obtain ⟨sod, hs⟩ : ∃ sod : Nat, ((secs + offset) % 86400).toNat = sod := ⟨_, rfl⟩
  obtain ⟨sod', hs'⟩ : ∃ sod : Nat, ((secs' + offset) % 86400).toNat = sod := ⟨_, rfl⟩
  have hcast : (secs + offset) % 86400 = sod := by rw [← hs, Int.toNat_of_nonneg hsod]
  have hcast' : (secs' + offset) % 86400 = sod' := by rw [← hs', Int.toNat_of_nonneg hsod']
  have hclock : sod / 3600 * 10000 + sod / 60 % 60 * 100 + sod % 60 < 1000000 := by omega
  have hclock' : sod' / 3600 * 10000 + sod' / 60 % 60 * 100 + sod' % 60 < 1000000 := by omega
  simp only [timeKey, civilTime, hs, hs']
  by_cases hday : (secs + offset) / 86400 < (secs' + offset) / 86400
  · have := dateKey_civilFromDays_lt hday
    simp only [dateKey] at this ⊢
    omega
  · rw [show (secs' + offset) / 86400 = (secs + offset) / 86400 by omega]
    have := clock_lt (show sod < sod' by omega)
    omega

/-- **The fields `civilTime` gives are in their ranges.** -/
theorem civilTime_ranges (offset secs : Int) :
    1 ≤ (civilTime offset secs).month ∧ (civilTime offset secs).month ≤ 12 ∧
      1 ≤ (civilTime offset secs).day ∧ (civilTime offset secs).day ≤ 31 ∧
      (civilTime offset secs).hour < 24 ∧ (civilTime offset secs).minute < 60 ∧
      (civilTime offset secs).second < 60 := by
  have hsod := Int.emod_lt_of_pos (secs + offset) (by decide : (0 : Int) < 86400)
  have hb := marchMonth_bounds (dayOfYear_le
    (show (((secs + offset) / 86400 + 719468) % 146097).toNat ≤ 146096 by omega))
  simp only [civilTime, civilFromDays_eq]
  split_ifs <;> omega

/-! ## Zero-padded fields

`Format` writes each field with `appendInt`, zero-padded to its width; a field that fits its
width comes out as a decimal of exactly that width (`appendInt_decimal`), so that fields of
one width order as their values (`lex_of_decimalValue_lt`). -/

theorem appendInt_natCast (n width : Nat) :
    (appendInt n width).data =
      List.replicate (width - (Nat.repr n).length) '0' ++ (Nat.repr n).data := by
  simp only [appendInt, Int.natAbs_ofNat, if_neg (Int.not_lt.mpr (Int.ofNat_nonneg n)),
    String.data_append]
  rfl

theorem decimalValue_replicate_zero : ∀ k : Nat, decimalValue (List.replicate k '0') = 0
  | 0 => rfl
  | k + 1 => by
    rw [List.replicate_succ, show '0' = Nat.digitChar 0 from rfl,
      decimalValue_digit_cons (by decide), ← show '0' = Nat.digitChar 0 from rfl,
      decimalValue_replicate_zero k, Nat.zero_mul]

/-- **A zero-padded field that fits is a decimal of its width, with its value.** -/
theorem appendInt_decimal {n width : Nat} (hn : n < 10 ^ width) (hw : 0 < width) :
    IsDecimal (appendInt n width).data ∧ (appendInt n width).data.length = width ∧
      decimalValue (appendInt n width).data = n := by
  have hfit : (Nat.repr n).length ≤ width := Nat.repr_length n width hw hn
  have hzeros : IsDecimal (List.replicate (width - (Nat.repr n).length) '0') := fun c hc =>
    ⟨0, by decide, List.eq_of_mem_replicate hc⟩
  rw [appendInt_natCast]
  refine ⟨isDecimal_append.mpr ⟨hzeros, isDecimal_repr n⟩, ?_, ?_⟩
  · have hlen : (Nat.repr n).data.length = (Nat.repr n).length := rfl
    rw [List.length_append, List.length_replicate, hlen]
    omega
  · rw [decimalValue_append, decimalValue_replicate_zero, Nat.zero_mul, Nat.zero_add,
      decimalValue_repr]

end Picoclaw.Go
