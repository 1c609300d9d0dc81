import Mathlib.Data.Nat.Log
import Mathlib.Tactic.Positivity
import Mathlib.Tactic.Linarith
import Picoclaw.Go.Strings

/-!
# `float64`: `strconv.ParseFloat`, the text `json.Marshal` writes, and `int64(f)`

A finite float64 (`Float64`) is a sign and a magnitude `mantissa * 2^shift`, counted in units
of `2^-1074`, the least subnormal. A normal value has a mantissa of 53 bits and a subnormal one
the shift 0; the fields carry these bounds, so every `Float64` is one float64 value, held once
(`Float64.eq_of_units_eq`), and the sign of zero is kept as Go keeps it. Infinities and NaN never
come out of the code modelled here (a JSON number too large for a float64 is an error), so they
are left out.

- `parseFloat64` is `strconv.ParseFloat(s, 64)` on the decimal texts JSON passes it: the exact
  value of the text rounded to the nearest float64, ties to the even mantissa (`roundUnits`),
  and `none` (`ErrRange`) past the largest one.
- `formatFloat64` is what `json.Marshal` writes for a float64: the fewest significant digits that
  parse back to it, the nearer decimal when two do (`Float64.shortest`), printed as
  `strconv.FormatFloat` prints them with format `'f'`, or `'e'` below `1e-6` and from `1e21` on.
- `Float64.toInt64` is the conversion `int64(f)`: toward zero, and `-2^63` out of range, as
  amd64 converts.

**The law** (`formatFloat64_parseFloat64_formatInt`): an integer of magnitude below `2^53` is a
float64 value, and its decimal comes back as it was written. Beyond `2^53` float64 values are
two or more apart, and `Orchestrator.Main` has the request id whose text changes.
-/

namespace Picoclaw.Go

/-! ## Logarithms that run -/

/-- An exponent `e` with `n < b ^ e`, by doubling `e` for `fuel` steps. -/
def logBound (b n : Nat) : Nat → Nat → Nat
  | 0, e => e
  | fuel + 1, e => if n < b ^ e then e else logBound b n fuel (2 * e)

/-- The greatest `k` in `[lo, hi)` with `b ^ k ≤ n`, by halving the interval for `fuel` steps. -/
def floorLogIn (b n : Nat) : Nat → Nat → Nat → Nat
  | 0, lo, _ => lo
  | fuel + 1, lo, hi =>
    if lo + 1 < hi then
      if b ^ ((lo + hi) / 2) ≤ n then floorLogIn b n fuel ((lo + hi) / 2) hi
      else floorLogIn b n fuel lo ((lo + hi) / 2)
    else lo

/-- `⌊log_b n⌋`, and `0` for `n = 0`: `Nat.log` by a search that `decide` runs in a few steps. -/
def floorLog (b n : Nat) : Nat := floorLogIn b n (logBound b n n 1) 0 (logBound b n n 1)

theorem lt_pow_logBound {b n : Nat} (hb : 1 < b) :
    ∀ fuel e, 1 ≤ e → n < e + fuel → n < b ^ logBound b n fuel e
  | 0, e, _, hn => hn.trans (Nat.lt_pow_self hb e)
  | fuel + 1, e, he, hn => by
    unfold logBound
    split
    · assumption
    · exact lt_pow_logBound hb fuel (2 * e) (by omega) (by omega)

theorem floorLogIn_spec {b n : Nat} (hb : 0 < b) :
    ∀ fuel lo hi, (lo = 0 ∨ b ^ lo ≤ n) → n < b ^ hi → hi ≤ lo + fuel + 1 →
      (floorLogIn b n fuel lo hi = 0 ∨ b ^ floorLogIn b n fuel lo hi ≤ n) ∧
        n < b ^ (floorLogIn b n fuel lo hi + 1)
  | 0, lo, hi, hlo, hhi, hfuel =>
    ⟨hlo, lt_of_lt_of_le hhi (Nat.pow_le_pow_right hb (show hi ≤ lo + 1 by omega))⟩
  | fuel + 1, lo, hi, hlo, hhi, hfuel => by
    unfold floorLogIn
    split
    · split
      · exact floorLogIn_spec hb fuel _ hi (.inr ‹_›) hhi (by omega)
      · exact floorLogIn_spec hb fuel lo _ hlo (not_le.mp ‹_›) (by omega)
    · exact ⟨hlo, lt_of_lt_of_le hhi (Nat.pow_le_pow_right hb (show hi ≤ lo + 1 by omega))⟩

theorem floorLog_eq_log {b : Nat} (hb : 1 < b) (n : Nat) : floorLog b n = Nat.log b n := by
  have hbound : n < b ^ logBound b n n 1 := lt_pow_logBound hb n 1 le_rfl (by omega)
  obtain ⟨hlo, hhi⟩ :=
    floorLogIn_spec (by omega) (logBound b n n 1) 0 _ (.inl rfl) hbound (by omega)
  rcases Nat.eq_zero_or_pos n with rfl | hn
  · rw [Nat.log_zero_right]
    exact hlo.resolve_right fun h => absurd h (Nat.pos_pow_of_pos _ (by omega)).not_le
  · refine ((Nat.log_eq_iff (.inr ⟨hb, hn.ne'⟩)).mpr ⟨?_, hhi⟩).symm
    rcases hlo with h | h
    · show b ^ floorLogIn b n (logBound b n n 1) 0 (logBound b n n 1) ≤ n
      rw [h, pow_zero]
      exact hn
    · exact h

/-- Scaling by a power of the base raises the logarithm by its exponent. -/
theorem log_mul_pow {b n : Nat} (hb : 1 < b) (hn : n ≠ 0) :
    ∀ j, Nat.log b (n * b ^ j) = Nat.log b n + j
  | 0 => by simp
  | j + 1 => by
    rw [pow_succ, ← mul_assoc, Nat.log_mul_base hb (by positivity), log_mul_pow hb hn j]
    rfl

/-! ## Finite float64 values -/

/-- A finite float64: its sign, and its magnitude `mantissa * 2^shift` in units of `2^-1074`. A
normal value has `2^52 ≤ mantissa` and a subnormal one the shift 0; the largest shift, 2045, is
the binary exponent 971 of the largest values. -/
structure Float64 where
  negative : Bool
  mantissa : Nat
  shift : Nat
  mantissa_lt : mantissa < 2 ^ 53
  shift_le : shift ≤ 2045
  normal : shift = 0 ∨ 2 ^ 52 ≤ mantissa
  deriving DecidableEq

/-- One, in units of `2^-1074`. -/
def unitsInOne : Nat := 2 ^ 1074

namespace Float64

/-- The magnitude, in units of `2^-1074`. -/
def units (f : Float64) : Nat := f.mantissa * 2 ^ f.shift

/-- Zero, of either sign. -/
def zero (negative : Bool) : Float64 := ⟨negative, 0, 0, by norm_num, by norm_num, .inl rfl⟩

/-- The magnitude, with the sign dropped. -/
def abs (f : Float64) : Float64 := { f with negative := false }

@[simp] theorem units_zero (negative : Bool) : (zero negative).units = 0 := rfl

@[simp] theorem units_abs (f : Float64) : f.abs.units = f.units := rfl

@[simp] theorem negative_abs (f : Float64) : f.abs.negative = false := rfl

/-- Of two equal magnitudes, a normal one has the shift no greater than one whose mantissa is
below `2^53`: a greater shift would leave the other a mantissa of `2^53` or more. -/
theorem shift_le_of_units_eq {m m' e e' : Nat} (hn : e = 0 ∨ 2 ^ 52 ≤ m) (hm' : m' < 2 ^ 53)
    (h : m * 2 ^ e = m' * 2 ^ e') : e ≤ e' := by
  by_contra hlt
  have hpow : 2 ^ e = 2 ^ (e - e' - 1) * 2 * 2 ^ e' := by
    rw [← pow_succ, ← pow_add]
    congr 1
    omega
  have hm'eq : m' = m * 2 ^ (e - e' - 1) * 2 := by
    rw [hpow, ← mul_assoc, ← mul_assoc] at h
    exact (Nat.eq_of_mul_eq_mul_right (by positivity) h).symm
  have hpos : m * 1 ≤ m * 2 ^ (e - e' - 1) := Nat.mul_le_mul_left _ Nat.one_le_two_pow
  have hm : 2 ^ 52 ≤ m := hn.resolve_left (by omega)
  omega

/-- **A float64 is its sign and its magnitude**: two normal mantissas at different shifts are
2 or more times apart, so equal magnitudes have equal shifts. -/
theorem eq_of_units_eq : ∀ {f g : Float64}, f.negative = g.negative → f.units = g.units → f = g
  | ⟨s, m, e, hm, _, hn⟩, ⟨s', m', e', hm', _, hn'⟩, hsign, hunits => by
    simp only [units] at hsign hunits
    have he : e = e' := le_antisymm (shift_le_of_units_eq hn hm' hunits)
      (shift_le_of_units_eq hn' hm hunits.symm)
    subst hsign he
    obtain rfl : m = m' := Nat.eq_of_mul_eq_mul_right (by positivity) hunits
    rfl

end Float64

/-! ## Rounding to the nearest float64 -/

/-- `n / d` rounded to the nearest integer, ties to the even one. -/
def roundHalfEven (n d : Nat) : Nat :=
  if d < 2 * (n % d) ∨ (2 * (n % d) = d ∧ n / d % 2 = 1) then n / d + 1 else n / d

theorem roundHalfEven_le (n d : Nat) : roundHalfEven n d ≤ n / d + 1 := by
  unfold roundHalfEven
  split <;> omega

theorem div_le_roundHalfEven (n d : Nat) : n / d ≤ roundHalfEven n d := by
  unfold roundHalfEven
  split <;> omega

theorem roundHalfEven_of_mod_eq_zero {n d : Nat} (h : n % d = 0) : roundHalfEven n d = n / d := by
  simp only [roundHalfEven, h, mul_zero, Nat.not_lt_zero, false_or, ite_eq_right_iff, and_imp]
  intro hd
  simp [← hd]

/-- The shift of the float64 nearest `num / den` units: the leading bit's place less 52, and 0
below the normal range. -/
def unitShift (num den : Nat) : Nat := floorLog 2 (num / den) - 52

/-- The mantissa at that shift: `num / den` units over `2^shift`, rounded half to even. -/
def unitMantissa (num den : Nat) : Nat := roundHalfEven num (den * 2 ^ unitShift num den)

theorem unitShift_eq (num den : Nat) : unitShift num den = Nat.log 2 (num / den) - 52 := by
  rw [unitShift, floorLog_eq_log (by norm_num)]

theorem div_unitShift (num den : Nat) :
    num / (den * 2 ^ unitShift num den) = num / den / 2 ^ unitShift num den :=
  (Nat.div_div_eq_div_mul _ _ _).symm

theorem unitMantissa_le (num den : Nat) : unitMantissa num den ≤ 2 ^ 53 := by
  have hq : num / den / 2 ^ unitShift num den < 2 ^ 53 := by
    rw [Nat.div_lt_iff_lt_mul (by positivity), ← pow_add]
    calc num / den < 2 ^ (Nat.log 2 (num / den) + 1) := Nat.lt_pow_succ_log_self (by norm_num) _
      _ ≤ 2 ^ (53 + unitShift num den) :=
        Nat.pow_le_pow_right (by norm_num) (by rw [unitShift_eq]; omega)
  have := roundHalfEven_le num (den * 2 ^ unitShift num den)
  rw [div_unitShift] at this
  exact (this.trans hq)

theorem unitMantissa_normal (num den : Nat) :
    unitShift num den = 0 ∨ 2 ^ 52 ≤ unitMantissa num den := by
  rw [or_iff_not_imp_left]
  intro hs
  rw [unitShift_eq] at hs
  have hne : num / den ≠ 0 := fun h => by simp [h] at hs
  refine le_trans ?_ (div_le_roundHalfEven _ _)
  rw [div_unitShift, Nat.le_div_iff_mul_le (by positivity), ← pow_add]
  calc 2 ^ (52 + unitShift num den) = 2 ^ Nat.log 2 (num / den) := by rw [unitShift_eq]; congr 1; omega
    _ ≤ num / den := Nat.pow_log_le_self 2 hne

/-- `num / den` units rounded to the nearest float64 with sign `negative`, ties to the even
mantissa; a mantissa that rounds up to `2^53` is `2^52` at the next shift. `none` past the
largest float64. -/
def roundUnits (negative : Bool) (num den : Nat) : Option Float64 :=
  if hcarry : unitMantissa num den = 2 ^ 53 then
    if h : unitShift num den + 1 ≤ 2045 then
      some ⟨negative, 2 ^ 52, unitShift num den + 1, by norm_num, h, .inr le_rfl⟩
    else none
  else if h : unitShift num den ≤ 2045 then
    some ⟨negative, unitMantissa num den, unitShift num den,
      lt_of_le_of_ne (unitMantissa_le num den) hcarry, h, unitMantissa_normal num den⟩
  else none

/-- The float64 nearest `digits * 10^exp`, with sign `negative`, as `strconv.ParseFloat` rounds:
ties to the even mantissa, and `none` (`ErrRange`) past the largest float64. A value from
`10^309` on is past it and one below `10^-330` is nearer 0 than any subnormal, so those two are
settled before the exact arithmetic. -/
def ofDecimal (negative : Bool) (digits : Nat) (exp : Int) : Option Float64 :=
  if digits = 0 then some (.zero negative)
  else if 309 ≤ (floorLog 10 digits : Int) + exp then none
  else if (floorLog 10 digits : Int) + exp < -330 then some (.zero negative)
  else if 0 ≤ exp then roundUnits negative (digits * 10 ^ exp.toNat * unitsInOne) 1
  else roundUnits negative (digits * unitsInOne) (10 ^ (-exp).toNat)

/-! ## Reading a decimal text -/

/-- One digit of the exponent, as `readFloat` adds it: an exponent of 10000 or more stops
growing. -/
def exponentStep (e : Nat) (c : Char) : Nat := if e < 10000 then 10 * e + (c.toNat - 48) else e

/-- The optional exponent `(e|E)[+-]digits` that ends the text, `0` when there is none. -/
def readExponent : List Char → Option Int
  | [] => some 0
  | c :: r =>
    if c = 'e' ∨ c = 'E' then
      if (acceptSign r).2 ≠ [] ∧ (acceptSign r).2.all Char.isDigit then
        let e : Int := ((acceptSign r).2.foldl exponentStep 0 : Nat)
        some (if (acceptSign r).1 then -e else e)
      else none
    else none

/-- The fraction `.digits` after the integer digits, and the text after it. -/
def readFraction : List Char → List Char × List Char
  | '.' :: r => (r.takeWhile Char.isDigit, r.dropWhile Char.isDigit)
  | r => ([], r)

/-- `readFloat` on the decimal texts JSON passes to `strconv.ParseFloat`,
`[+-]digits[.digits][exponent]` with a digit before the exponent: the sign, all the digits as
one number, and the power of ten that scales it. The other texts `ParseFloat` reads (`Inf`, `NaN`,
hexadecimal and underscored ones) are not modelled, as no JSON number is one. -/
def readFloat (s : List Char) : Option (Bool × Nat × Int) :=
  let intDigits := (acceptSign s).2.takeWhile Char.isDigit
  let frac := readFraction ((acceptSign s).2.dropWhile Char.isDigit)
  if intDigits ++ frac.1 = [] then none
  else (readExponent frac.2).map fun e =>
    ((acceptSign s).1, decimalValue (intDigits ++ frac.1), e - frac.1.length)

/-- `strconv.ParseFloat(s, 64)` of a decimal text: `none` for a syntax error or a value past the
largest float64. -/
def parseFloat64 (s : String) : Option Float64 :=
  (readFloat s.data).bind fun r => ofDecimal r.1 r.2.1 r.2.2

/-! ## The shortest text -/

namespace Float64

/-- `⌊log₁₀⌋` of a nonzero magnitude, which is at least `2^-1074 > 10^-324`. -/
def decimalExponent (f : Float64) : Int :=
  (floorLog 10 (f.units * 10 ^ 324 / unitsInOne) : Int) - 324

/-- The magnitude over `10^k`, as a numerator and a denominator. -/
def scaled (f : Float64) (k : Int) : Nat × Nat :=
  if 0 ≤ k then (f.units, unitsInOne * 10 ^ k.toNat) else (f.units * 10 ^ (-k).toNat, unitsInOne)

/-- The decimals `c * 10^k` with `p` significant digits on either side of the magnitude that
parse back to it: the nearer one, the even one of a tie, as `(c, k)`. -/
def shortestAt (f : Float64) (p : Nat) : Option (Nat × Int) :=
  let k := f.decimalExponent - p + 1
  let q := f.scaled k
  let okLo := ofDecimal false (q.1 / q.2) k = some f.abs
  let okHi := ofDecimal false (q.1 / q.2 + 1) k = some f.abs
  if okLo ∧ okHi then some (roundHalfEven q.1 q.2, k)
  else if okLo then some (q.1 / q.2, k)
  else if okHi then some (q.1 / q.2 + 1, k)
  else none

/-- The first `p` from the given one at which a decimal parses back, for `fuel` steps; the
nearest decimal with the last `p` tried when none does, which 17 digits never leave. -/
def shortestFrom (f : Float64) : Nat → Nat → Nat × Int
  | 0, p =>
    let k := f.decimalExponent - p + 1
    (roundHalfEven (f.scaled k).1 (f.scaled k).2, k)
  | fuel + 1, p =>
    match f.shortestAt p with
    | some d => d
    | none => f.shortestFrom fuel (p + 1)

/-- The shortest decimal `c * 10^k` of a nonzero magnitude, from 1 to 17 digits. -/
def shortest (f : Float64) : Nat × Int := f.shortestFrom 16 1

end Float64

/-- The digits without their trailing zeros, the power of ten raised to match. -/
def stripZeros : Nat → Nat → Int → Nat × Int
  | 0, d, k => (d, k)
  | fuel + 1, d, k => if d ≠ 0 ∧ d % 10 = 0 then stripZeros fuel (d / 10) (k + 1) else (d, k)

/-- `strconv.FormatFloat`'s `'f'` format of `d * 10^k` with `d`'s digits: the integer for
`0 ≤ k`, and otherwise the digits with the point placed, after `0.` and zeros when it falls
before them. -/
def fixedText (d : Nat) (k : Int) : List Char :=
  let ds := (Nat.repr d).data
  let dp : Int := ds.length + k
  if 0 ≤ k then (Nat.repr (d * 10 ^ k.toNat)).data
  else if dp ≤ 0 then '0' :: '.' :: List.replicate (-dp).toNat '0' ++ ds
  else ds.take dp.toNat ++ '.' :: ds.drop dp.toNat

/-- `strconv.FormatFloat`'s `'e'` format of `d * 10^k`: the first digit, the others after a
point, and the exponent with its sign and at least two digits, which `json.Marshal` then cuts
to one for a negative exponent (`e-07` to `e-7`). -/
def expText (d : Nat) (k : Int) : List Char :=
  let ds := (Nat.repr d).data
  let x : Int := ds.length + k - 1
  let expDigits := (Nat.repr x.natAbs).data
  ds.take 1 ++ (if 1 < ds.length then '.' :: ds.drop 1 else []) ++ 'e' ::
    (if x < 0 then '-' :: expDigits else '+' :: (if x < 10 then '0' :: expDigits else expDigits))

/-- What `json.Marshal` writes for a float64 (`floatEncoder`): the shortest digits, in format
`'e'` below `1e-6` and from `1e21` on and in format `'f'` otherwise, after a `-` when the sign is
set (`-0` included). -/
def formatFloat64 (f : Float64) : String :=
  let sign := if f.negative then "-" else ""
  if f.units = 0 then sign ++ "0"
  else
    let d := stripZeros 17 f.shortest.1 f.shortest.2
    if f.units * 10 ^ 6 < unitsInOne ∨ 10 ^ 21 * unitsInOne ≤ f.units then
      sign ++ String.mk (expText d.1 d.2)
    else sign ++ String.mk (fixedText d.1 d.2)

/-- `int64(f)`: the value truncated toward zero, and `-2^63` when that is out of range, as
amd64's `CVTTSD2SQ` answers. -/
def Float64.toInt64 (f : Float64) : Int :=
  let t : Int := if f.negative then -((f.units / unitsInOne : Nat) : Int) else (f.units / unitsInOne : Nat)
  if -2 ^ 63 ≤ t ∧ t < 2 ^ 63 then t else -2 ^ 63

/-! ## What rounding gives -/

theorem roundUnits_eq_some {negative : Bool} {num den : Nat} {g : Float64}
    (h : roundUnits negative num den = some g) :
    g.negative = negative ∧ g.units = unitMantissa num den * 2 ^ unitShift num den := by
  unfold roundUnits at h
  split_ifs at h with hcarry <;> cases h
  · refine ⟨rfl, ?_⟩
    simp only [Float64.units, hcarry, pow_succ]
    ring
  · exact ⟨rfl, rfl⟩

theorem roundUnits_isSome (negative : Bool) {num den : Nat} (h : unitShift num den + 1 ≤ 2045) :
    ∃ g, roundUnits negative num den = some g := by
  unfold roundUnits
  split_ifs <;> first | exact ⟨_, rfl⟩ | omega

/-- A normal result is at least the power of two below the value. -/
theorem pow_log_le_units {num den : Nat} (hs : unitShift num den ≠ 0) :
    2 ^ Nat.log 2 (num / den) ≤ unitMantissa num den * 2 ^ unitShift num den := by
  have hm := (unitMantissa_normal num den).resolve_left hs
  calc 2 ^ Nat.log 2 (num / den) = 2 ^ 52 * 2 ^ unitShift num den := by
        rw [← pow_add, unitShift_eq]
        rw [unitShift_eq] at hs
        congr 1
        omega
    _ ≤ unitMantissa num den * 2 ^ unitShift num den := Nat.mul_le_mul_right _ hm

/-- **An integer below `2^53` is a float64 value**: it rounds to itself. -/
theorem roundUnits_of_lt {a : Nat} (ha : 0 < a) (hlt : a < 2 ^ 53) (negative : Bool) :
    ∃ g, roundUnits negative (a * unitsInOne) 1 = some g ∧ g.negative = negative ∧
      g.units = a * unitsInOne := by
  have hlog : Nat.log 2 a < 53 := Nat.log_lt_of_lt_pow ha.ne' hlt
  have hone : unitsInOne = 2 ^ (52 - Nat.log 2 a) * 2 ^ (Nat.log 2 a + 1022) := by
    rw [unitsInOne, ← pow_add, show 52 - Nat.log 2 a + (Nat.log 2 a + 1022) = 1074 by omega]
  have hshift : unitShift (a * unitsInOne) 1 = Nat.log 2 a + 1022 := by
    rw [unitShift_eq, Nat.div_one, unitsInOne, log_mul_pow (by norm_num) ha.ne']
    omega
  have hm : unitMantissa (a * unitsInOne) 1 = a * 2 ^ (52 - Nat.log 2 a) := by
    rw [unitMantissa, hshift, one_mul, hone, ← mul_assoc,
      roundHalfEven_of_mod_eq_zero (Nat.mul_mod_left _ _), Nat.mul_div_cancel _ (by positivity)]
  obtain ⟨g, hg⟩ := @roundUnits_isSome negative (a * unitsInOne) 1 (by omega)
  obtain ⟨hneg, hunits⟩ := roundUnits_eq_some hg
  refine ⟨g, hg, hneg, ?_⟩
  rw [hunits, hm, hshift, hone, mul_assoc]

/-- A value of at least `2^e`, for `e ≥ 53`, rounds to one no less than `2^e`. -/
theorem pow_le_units {num den e : Nat} (he : 53 ≤ e) (h : 2 ^ e ≤ num / den) {negative : Bool}
    {g : Float64} (hg : roundUnits negative num den = some g) : 2 ^ e ≤ g.units := by
  have hlog := Nat.le_log_of_pow_le (b := 2) (by norm_num) h
  have hs : unitShift num den ≠ 0 := by rw [unitShift_eq]; omega
  rw [(roundUnits_eq_some hg).2]
  exact le_trans (Nat.pow_le_pow_right (by norm_num) hlog) (pow_log_le_units hs)

/-- A value of `2^53` or more rounds to one no less than `2^53`. -/
theorem le_units_of_le {num den : Nat} (h : 2 ^ 53 * unitsInOne ≤ num / den) {negative : Bool}
    {g : Float64} (hg : roundUnits negative num den = some g) : 2 ^ 53 * unitsInOne ≤ g.units := by
  rw [unitsInOne, ← pow_add] at h ⊢
  exact pow_le_units (by norm_num) h hg

/-- A decimal integer of at most 16 digits is read without either bound of `ofDecimal`. -/
theorem ofDecimal_of_lt {a : Nat} (ha : 0 < a) (hlt : a < 2 ^ 53) (negative : Bool) :
    ∃ g, ofDecimal negative a 0 = some g ∧ g.negative = negative ∧ g.units = a * unitsInOne := by
  have hlog : Nat.log 10 a < 16 := Nat.log_lt_of_lt_pow ha.ne' (hlt.trans (by norm_num))
  have hexp : ofDecimal negative a 0 = roundUnits negative (a * unitsInOne) 1 := by
    rw [ofDecimal, if_neg ha.ne', floorLog_eq_log (by norm_num), if_neg (by omega), if_neg (by omega),
      if_pos le_rfl, Int.toNat_zero, pow_zero, mul_one]
  rw [hexp]
  exact roundUnits_of_lt ha hlt negative

/-- **Reading an integer's decimal**: its sign, its magnitude and the exponent 0. -/
theorem readFloat_formatInt (n : Int) :
    readFloat (formatInt n).data = some (decide (n < 0), n.natAbs, 0) := by
  have hdigits : ∀ m, (Nat.repr m).data.takeWhile Char.isDigit = (Nat.repr m).data ∧
      (Nat.repr m).data.dropWhile Char.isDigit = [] := fun m =>
    ⟨List.takeWhile_eq_self_iff.mpr fun c hc => isDigit_of_mem_repr hc,
      List.dropWhile_eq_nil_iff.mpr fun c hc => isDigit_of_mem_repr hc⟩
  cases n with
  | ofNat m =>
    simp [readFloat, formatInt, acceptSign_repr, (hdigits m).1, (hdigits m).2, readFraction,
      readExponent, repr_data_ne_nil, decimalValue_repr]
  | negSucc m =>
    simp [readFloat, formatInt, acceptSign, (hdigits (m + 1)).1, (hdigits (m + 1)).2, readFraction,
      readExponent, repr_data_ne_nil, decimalValue_repr, Int.negSucc_lt_zero]

/-! ## Integers below `2^53` -/

theorem unitsInOne_pos : 0 < unitsInOne := by
  unfold unitsInOne
  positivity

section Integral

variable {f : Float64} {a : Nat}

/-- The decimal exponent of an integral magnitude is its integer logarithm. -/
theorem decimalExponent_of_units (hf : f.units = a * unitsInOne) (ha : 0 < a) :
    f.decimalExponent = Nat.log 10 a := by
  rw [Float64.decimalExponent, hf, mul_right_comm, Nat.mul_div_cancel _ unitsInOne_pos,
    floorLog_eq_log (by norm_num), log_mul_pow (by norm_num) ha.ne']
  omega

/-- A decimal integer that parses back to the magnitude `a` is `a`: another integer below `2^53`
is another float64, and one from `2^53` on rounds to a value no less. -/
theorem eq_of_ofDecimal {c : Nat} (k : Nat) (hf : f.units = a * unitsInOne) (ha : 0 < a)
    (hlt : a < 2 ^ 53) (h : ofDecimal false c k = some f.abs) : c * 10 ^ k = a := by
  unfold ofDecimal at h
  split_ifs at h with hc h309 h330 hk
  · have hunits := congrArg Float64.units (Option.some.inj h)
    rw [Float64.units_zero, Float64.units_abs, hf] at hunits
    exact absurd hunits.symm (Nat.mul_ne_zero ha.ne' unitsInOne_pos.ne')
  · omega
  · rw [Int.toNat_natCast] at h
    by_contra hne
    rcases lt_or_le (c * 10 ^ k) (2 ^ 53) with hsmall | hbig
    · obtain ⟨g, hg, -, hgu⟩ :=
        roundUnits_of_lt (Nat.pos_of_ne_zero (Nat.mul_ne_zero hc (by positivity))) hsmall false
      rw [h, Option.some.injEq] at hg
      rw [← hg, Float64.units_abs, hf] at hgu
      exact hne (Nat.eq_of_mul_eq_mul_right unitsInOne_pos hgu).symm
    · have hle := le_units_of_le (by rw [Nat.div_one]; exact Nat.mul_le_mul_right _ hbig) h
      rw [Float64.units_abs, hf] at hle
      exact absurd hle (not_le.mpr (Nat.mul_lt_mul_of_pos_right hlt unitsInOne_pos))
  · exact absurd (Int.natCast_nonneg k) hk

/-- At `p` digits, no more than `a` has, the decimals tried are integers, and one that parses
back is `a`. -/
theorem shortestAt_of_units (hf : f.units = a * unitsInOne) (ha : 0 < a) (hlt : a < 2 ^ 53)
    {p : Nat} (hp : p ≤ Nat.log 10 a + 1) :
    ∀ d, f.shortestAt p = some d → ∃ k : Nat, d.2 = k ∧ d.1 * 10 ^ k = a := by
  have hk : f.decimalExponent - p + 1 = ((Nat.log 10 a + 1 - p : Nat) : Int) := by
    rw [decimalExponent_of_units hf ha]
    omega
  have hq : f.scaled ((Nat.log 10 a + 1 - p : Nat) : Int) =
      (a * unitsInOne, unitsInOne * 10 ^ (Nat.log 10 a + 1 - p)) := by
    rw [Float64.scaled, if_pos (Int.natCast_nonneg _), Int.toNat_natCast, hf]
  have hdiv : a * unitsInOne / (unitsInOne * 10 ^ (Nat.log 10 a + 1 - p)) =
      a / 10 ^ (Nat.log 10 a + 1 - p) := by
    rw [mul_comm a, Nat.mul_div_mul_left _ _ unitsInOne_pos]
  intro d hd
  unfold Float64.shortestAt at hd
  simp only [hk, hq] at hd
  rw [hdiv] at hd
  split_ifs at hd with hboth hlo hhi
  · have h1 := eq_of_ofDecimal _ hf ha hlt hboth.1
    have h2 := eq_of_ofDecimal _ hf ha hlt hboth.2
    rw [Nat.succ_mul] at h2
    have : 0 < 10 ^ (Nat.log 10 a + 1 - p) := by positivity
    omega
  · obtain rfl := Option.some.inj hd
    exact ⟨_, rfl, eq_of_ofDecimal _ hf ha hlt hlo⟩
  · obtain rfl := Option.some.inj hd
    exact ⟨_, rfl, eq_of_ofDecimal _ hf ha hlt hhi⟩

/-- At `a`'s own number of digits, `a` parses back. -/
theorem shortestAt_ne_none (hf : f.units = a * unitsInOne) (ha : 0 < a) (hlt : a < 2 ^ 53) :
    f.shortestAt (Nat.log 10 a + 1) ≠ none := by
  obtain ⟨g, hg, hgneg, hgu⟩ := ofDecimal_of_lt ha hlt false
  have hgf : g = f.abs := Float64.eq_of_units_eq hgneg (by rw [hgu, Float64.units_abs, hf])
  have hk : f.decimalExponent - ((Nat.log 10 a + 1 : Nat) : Int) + 1 = 0 := by
    rw [decimalExponent_of_units hf ha]
    omega
  unfold Float64.shortestAt
  simp only [hk, Float64.scaled, if_pos le_rfl, Int.toNat_zero, pow_zero, mul_one, hf,
    Nat.mul_div_cancel _ unitsInOne_pos]
  rw [← hgf, hg]
  split_ifs <;> simp_all

/-- The search keeps a property of every decimal it may stop at, up to a step that stops it. -/
theorem shortestFrom_of_found {P : Nat × Int → Prop} :
    ∀ fuel p j, j < fuel → f.shortestAt (p + j) ≠ none →
      (∀ i ≤ j, ∀ d, f.shortestAt (p + i) = some d → P d) → P (f.shortestFrom fuel p)
  | 0, _, _, hj, _, _ => absurd hj (Nat.not_lt_zero _)
  | fuel + 1, p, j, hj, hne, hP => by
    unfold Float64.shortestFrom
    cases hs : f.shortestAt p with
    | some d => exact hP 0 (Nat.zero_le _) d hs
    | none =>
      have hj0 : j ≠ 0 := by rintro rfl; exact hne hs
      refine shortestFrom_of_found fuel (p + 1) (j - 1) (by omega) ?_
        (fun i hi d hd => hP (i + 1) (by omega) d ?_)
      · rwa [Nat.add_assoc, Nat.add_sub_cancel' (Nat.one_le_iff_ne_zero.mpr hj0)]
      · rwa [← Nat.add_assoc, Nat.add_right_comm]

/-- **The shortest decimal of an integral magnitude below `2^53` is an integer**: its digits
times a power of ten give the magnitude back. -/
theorem shortest_of_units (hf : f.units = a * unitsInOne) (ha : 0 < a) (hlt : a < 2 ^ 53) :
    ∃ k : Nat, f.shortest.2 = k ∧ f.shortest.1 * 10 ^ k = a := by
  have hlog : Nat.log 10 a < 16 := Nat.log_lt_of_lt_pow ha.ne' (hlt.trans (by norm_num))
  refine shortestFrom_of_found (P := fun d => ∃ k : Nat, d.2 = k ∧ d.1 * 10 ^ k = a) 16 1
    (Nat.log 10 a) hlog ?_ (fun i hi d hd => shortestAt_of_units hf ha hlt (by omega) d hd)
  rw [Nat.add_comm]
  exact shortestAt_ne_none hf ha hlt

theorem stripZeros_value : ∀ fuel d (k : Nat),
    ∃ d' k' : Nat, stripZeros fuel d k = (d', (k' : Int)) ∧ d' * 10 ^ k' = d * 10 ^ k
  | 0, d, k => ⟨d, k, rfl, rfl⟩
  | fuel + 1, d, k => by
    unfold stripZeros
    split_ifs with h
    · obtain ⟨d', k', hs, hv⟩ := stripZeros_value fuel (d / 10) (k + 1)
      refine ⟨d', k', by rw [← hs]; push_cast; rfl, ?_⟩
      rw [hv, pow_succ, Nat.mul_comm (10 ^ k) 10, ← Nat.mul_assoc,
        Nat.div_mul_cancel (Nat.dvd_of_mod_eq_zero h.2)]
    · exact ⟨d, k, rfl, rfl⟩

/-- An integral magnitude below `2^53` is written as the integer, after its sign. -/
theorem formatFloat64_of_units (hf : f.units = a * unitsInOne) (hlt : a < 2 ^ 53) :
    formatFloat64 f = (if f.negative then "-" else "") ++ Nat.repr a := by
  rcases Nat.eq_zero_or_pos a with h0 | ha
  · have hzero : f.units = 0 := by rw [hf, h0, Nat.zero_mul]
    unfold formatFloat64
    rw [if_pos hzero, h0]
    rfl
  obtain ⟨k, hk, hv⟩ := shortest_of_units hf ha hlt
  obtain ⟨d', k', hs, hv'⟩ := stripZeros_value 17 f.shortest.1 k
  have hne : f.units ≠ 0 := by rw [hf]; exact Nat.mul_ne_zero ha.ne' unitsInOne_pos.ne'
  have hfixed : ¬(f.units * 10 ^ 6 < unitsInOne ∨ 10 ^ 21 * unitsInOne ≤ f.units) := by
    rw [hf, not_or, not_lt, not_le]
    exact ⟨le_trans (Nat.le_mul_of_pos_left _ ha) (Nat.le_mul_of_pos_right _ (by positivity)),
      Nat.mul_lt_mul_of_pos_right (hlt.trans (by norm_num)) unitsInOne_pos⟩
  simp only [formatFloat64, hne, if_false, hk, hs, hfixed, fixedText, Int.natCast_nonneg, if_true,
    Int.toNat_natCast, hv', hv]

/-- **An integer's decimal comes back**: below `2^53` in magnitude, `json.Unmarshal` into a
float64 and `json.Marshal` of it give the text that was read. -/
theorem formatFloat64_parseFloat64_formatInt {n : Int} (h : n.natAbs < 2 ^ 53) :
    (parseFloat64 (formatInt n)).map formatFloat64 = some (formatInt n) := by
  have hparse : parseFloat64 (formatInt n) = ofDecimal (decide (n < 0)) n.natAbs 0 := by
    rw [parseFloat64, readFloat_formatInt]
    rfl
  rcases Nat.eq_zero_or_pos n.natAbs with h0 | hpos
  · obtain rfl := Int.natAbs_eq_zero.mp h0
    rfl
  obtain ⟨g, hg, hneg, hunits⟩ := ofDecimal_of_lt hpos h (decide (n < 0))
  rw [hparse, hg, Option.map_some', formatFloat64_of_units hunits h, hneg]
  cases n with
  | ofNat m => simp [formatInt, not_lt.mpr (Int.natCast_nonneg m)]
  | negSucc m => simp [formatInt, Int.negSucc_lt_zero]

end Integral

set_option exponentiation.threshold 2100 in
set_option maxRecDepth 20000 in
example : (parseFloat64 "1730000000000000001").map formatFloat64 = some "1730000000000000000" := by
  decide

set_option exponentiation.threshold 2100 in
set_option maxRecDepth 20000 in
example : (parseFloat64 "1.5").map formatFloat64 = some "1.5" := by decide

set_option exponentiation.threshold 2100 in
set_option maxRecDepth 20000 in
example : (parseFloat64 "1e3").map formatFloat64 = some "1000" := by decide

end Picoclaw.Go
