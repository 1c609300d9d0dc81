/-!
# What a Go call can do besides return

Two things of the Go runtime enter the model. The clock: `time.Now()` is read by most
operations, and the model takes each reading as an input of the call that makes it, so that a
law can range over every reading. And the panic: a nil pointer dereference or an out-of-range
slice ends the process, and an operation that can do so answers an `Outcome`.
-/

namespace Picoclaw.Go

/-- A `time.Time`, by its Unix time in nanoseconds. -/
structure Time where
  unixNano : Int
  deriving DecidableEq, Repr

/-- How a call that may panic ends: it returns its results, or the runtime panics. -/
inductive Outcome (α : Type) where
  | returns (a : α)
  | panics (reason : String)
  deriving DecidableEq, Repr

namespace Outcome

variable {α β : Type}

/-- Sequencing: a panic ends the run. -/
def bind : Outcome α → (α → Outcome β) → Outcome β
  | returns a, f => f a
  | panics r, _ => panics r

@[simp] theorem returns_bind (a : α) (f : α → Outcome β) : (returns a).bind f = f a := rfl

@[simp] theorem panics_bind (r : String) (f : α → Outcome β) : (panics r).bind f = panics r :=
  rfl

theorem bind_eq_returns {o : Outcome α} {f : α → Outcome β} {b : β} :
    o.bind f = returns b ↔ ∃ a, o = returns a ∧ f a = returns b := by
  cases o <;> simp [bind]

/-- A continuation that always returns adds no panic. -/
theorem bind_panics_iff_of_returns {o : Outcome α} {f : α → Outcome β}
    (hf : ∀ a, ∃ b, f a = returns b) : (∃ r, o.bind f = panics r) ↔ ∃ r, o = panics r := by
  cases o with
  | returns a =>
    obtain ⟨b, hb⟩ := hf a
    simp [bind, hb]
  | panics r => simp [bind]

end Outcome

/-- The message the runtime panics with on a nil pointer dereference. -/
def nilDereference : String := "runtime error: invalid memory address or nil pointer dereference"

/-! ## The calendar fields `Time.Format` prints -/

/-- `appendInt(b, x, width)` of package `time`: the sign, then the decimal digits of `|x|`
zero-padded to `width`. -/
def appendInt (x : Int) (width : Nat) : String :=
  let digits := Nat.repr x.natAbs
  (if x < 0 then "-" else "") ++ String.mk (List.replicate (width - digits.length) '0') ++ digits

/-- The proleptic Gregorian date of the day `z` days after 1970-01-01, as year, month and day,
by the days-to-civil computation over 400-year eras. -/
def civilFromDays (z : Int) : Int × Nat × Nat :=
  let z := z + 719468
  let era := z / 146097
  let doe := (z % 146097).toNat
  let yoe := (doe - doe / 1460 + doe / 36524 - doe / 146096) / 365
  let doy := doe - (365 * yoe + yoe / 4 - yoe / 100)
  let mp := (5 * doy + 2) / 153
  let month := if mp < 10 then mp + 3 else mp - 9
  (era * 400 + yoe + (if month ≤ 2 then 1 else 0), month, doy - (153 * mp + 2) / 5 + 1)

/-- The calendar fields of a time in some zone. -/
structure CivilTime where
  year : Int
  month : Nat
  day : Nat
  hour : Nat
  minute : Nat
  second : Nat

/-- The calendar fields of the instant `secs` seconds after the epoch, in a zone `offset`
seconds east of UTC. -/
def civilTime (offset secs : Int) : CivilTime :=
  let wall := secs + offset
  let date := civilFromDays (wall / 86400)
  let sod := (wall % 86400).toNat
  ⟨date.1, date.2.1, date.2.2, sod / 3600, sod / 60 % 60, sod % 60⟩

end Picoclaw.Go
