import Mathlib.Tactic.SplitIfs
import Picoclaw.Go.Runtime

/-!
# The schedule provider's rule choice (`pkg/providers`, `(*ScheduleProvider).matchRule`)

`matchRule(t)` reads `t` in the provider's location and returns the first rule whose days and
hours admit it. A rule with days admits a day when some entry, lowercased, is the weekday's
three-letter name, or `"weekday"` on Monday to Friday, or `"weekend"` on Saturday and Sunday.
A rule with hours parses both ends with `time.Parse("15:04", ·)`, skips itself when either
fails, and admits the minutes since midnight in `[start, end)`, or outside `[end, start)` when
the span crosses midnight.

`strings.ToLower` is a parameter `toLower`. A `time.Location` is the offset its zone rules give
each instant; the weekday and the clock follow from the instant and that offset.

**The law** (`matchRule_first_passing`): `matchRule` returns a rule exactly when it is the
first of the list that passes the day check and the hour check as the spec states them, and
none exactly when no rule passes; a rule whose hours do not parse is never returned. It rests on
`matchRuleFrom_eq_find?`, which reads the loop, `continue` by `continue`, as a search for the
first passing rule.

**Resolving a provider** (`resolveProvider_guard`, `chat_model`): `resolveProvider` takes the
matched rule, or the default, and builds its provider with the factory, a parameter `create`,
refusing any type that starts with `"schedule"`, so a schedule provider never builds another.
`Chat` then calls the resolved provider with the rule's model, else the caller's, else the
provider's default, so a `Chat` without a model uses the model `GetDefaultModel` reports at the
same reading.
-/

namespace Picoclaw.Providers

open Picoclaw.Go

/-- `config.ScheduleHours`. -/
structure ScheduleHours where
  start : String
  «end» : String

/-- `config.ScheduleRule`. -/
structure ScheduleRule where
  days : List String := []
  hours : Option ScheduleHours := none
  provider : String
  model : String := ""

/-- `time.Location`, by the offset from UTC, in seconds, that its zone rules give an instant. -/
structure Location where
  offset : Time → Int

/-- `ScheduleProvider`, with the fields `matchRule` reads: the rules and the location. -/
structure ScheduleProvider where
  rules : List ScheduleRule
  location : Location

/-! ## `time` -/

/-- `t.In(loc).Weekday()`, Sunday first; 1970-01-01 was a Thursday. -/
def weekdayIn (loc : Location) (t : Time) : Fin 7 :=
  ⟨(((t.unixNano / 1000000000 + loc.offset t) / 86400 + 4) % 7).toNat, by omega⟩

/-- `strings.ToLower(weekday.String()[:3])`. -/
def weekdayName (d : Fin 7) : String :=
  ["sun", "mon", "tue", "wed", "thu", "fri", "sat"].get ⟨d.1, d.2⟩

/-- `t.In(loc).Hour()*60 + t.In(loc).Minute()`. -/
def minutesIn (loc : Location) (t : Time) : Nat :=
  let c := civilTime (loc.offset t) (t.unixNano / 1000000000)
  c.hour * 60 + c.minute

/-- `getnum(s, fixed)` of package `time`: one or two leading digits, exactly two when `fixed`. -/
def getnum (s : List Char) (fixed : Bool) : Option (Nat × List Char) :=
  match s with
  | c :: rest =>
    if c.isDigit then
      match rest with
      | d :: rest' =>
        if d.isDigit then some ((c.toNat - 48) * 10 + (d.toNat - 48), rest')
        else if fixed then none else some (c.toNat - 48, rest)
      | [] => if fixed then none else some (c.toNat - 48, [])
    else none
  | [] => none

/-- `time.Parse("15:04", s)`, by the minutes since midnight of the time it returns: an hour of
one or two digits below 24, a `':'`, a minute of two digits below 60, and nothing else. -/
def parseClock (s : String) : Option Nat :=
  match getnum s.data false with
  | some (hour, ':' :: rest) =>
    match getnum rest true with
    | some (minute, []) => if hour < 24 ∧ minute < 60 then some (hour * 60 + minute) else none
    | _ => none
  | _ => none

example : parseClock "9:05" = some 545 ∧ parseClock "22:00" = some 1320 ∧ parseClock "24:00" = none ∧
    parseClock "9:5" = none ∧ parseClock "09:00 " = none := by decide

/-! ## The loop -/

/-- The test the day loop makes on one lowered entry `d`: its three `if`s, each of which ends
the loop with a match. -/
def entryAdmits (weekday d : String) : Bool :=
  d = weekday || (d = "weekday" && weekday ≠ "sat" && weekday ≠ "sun") ||
    (d = "weekend" && (weekday = "sat" || weekday = "sun"))

/-- The inner loop over a rule's days, each lowered, against the weekday `weekday`. -/
def dayMatch (toLower : String → String) (weekday : String) : List String → Bool
  | [] => false
  | d :: ds => if entryAdmits weekday (toLower d) then true else dayMatch toLower weekday ds

/-- The hours block of the loop at minute `nowMins`: whether a rule gets past it, a `continue`
being `false`. A rule without hours always does; an end that does not parse is a `continue`. -/
def hoursPass (nowMins : Nat) : Option ScheduleHours → Bool
  | none => true
  | some hours =>
    match parseClock hours.start, parseClock hours.«end» with
    | some startMins, some endMins =>
      if startMins ≤ endMins then !(nowMins < startMins ∨ nowMins ≥ endMins)
      else !(nowMins < startMins ∧ nowMins ≥ endMins)
    | _, _ => false

/-- The loop over the rules, at weekday `weekday` and minute `nowMins`: a rule with days none of
which matches is skipped, then a rule the hours block skips, and the first other rule is
returned. -/
def matchRuleFrom (toLower : String → String) (weekday : String) (nowMins : Nat) :
    List ScheduleRule → Option ScheduleRule
  | [] => none
  | rule :: rules =>
    if rule.days.length > 0 ∧ dayMatch toLower weekday rule.days = false then
      matchRuleFrom toLower weekday nowMins rules
    else if hoursPass nowMins rule.hours = false then matchRuleFrom toLower weekday nowMins rules
    else some rule

/-- `(*ScheduleProvider).matchRule(t)`. -/
def ScheduleProvider.matchRule (p : ScheduleProvider) (toLower : String → String) (t : Time) :
    Option ScheduleRule :=
  matchRuleFrom toLower (weekdayName (weekdayIn p.location t)) (minutesIn p.location t) p.rules

/-! ## The checks in the spec's words -/

/-- The day check: no days, or an entry that, lowercased, is the weekday, or is `"weekday"` on
Monday to Friday, or `"weekend"` on Saturday or Sunday. -/
def DayCheck (toLower : String → String) (weekday : String) (rule : ScheduleRule) : Prop :=
  rule.days = [] ∨ ∃ d ∈ rule.days, toLower d = weekday ∨
    (toLower d = "weekday" ∧ weekday ∈ ["mon", "tue", "wed", "thu", "fri"]) ∨
    (toLower d = "weekend" ∧ weekday ∈ ["sat", "sun"])

/-- The hour check: no hours, or both ends parse, to `s` and `e`, and the minute `m` lies in
`[s, e)` when `s ≤ e`, and at or after `s` or before `e` when `s > e`. -/
def HourCheck (nowMins : Nat) (rule : ScheduleRule) : Prop :=
  match rule.hours with
  | none => True
  | some hours => ∃ s e, parseClock hours.start = some s ∧ parseClock hours.«end» = some e ∧
      (s ≤ e → s ≤ nowMins ∧ nowMins < e) ∧ (e < s → s ≤ nowMins ∨ nowMins < e)

/-- A rule passes at `t` when it passes both checks at `t`'s weekday and minute. -/
def Passes (p : ScheduleProvider) (toLower : String → String) (t : Time) (rule : ScheduleRule) :
    Prop :=
  DayCheck toLower (weekdayName (weekdayIn p.location t)) rule ∧
    HourCheck (minutesIn p.location t) rule

instance (toLower : String → String) (weekday : String) (rule : ScheduleRule) :
    Decidable (DayCheck toLower weekday rule) :=
  inferInstanceAs (Decidable (_ ∨ _))

/-- The hours block passes a rule exactly when the hour check does. -/
theorem hoursPass_iff (nowMins : Nat) (rule : ScheduleRule) :
    hoursPass nowMins rule.hours = true ↔ HourCheck nowMins rule := by
  unfold HourCheck
  cases rule.hours with
  | none => simp [hoursPass]
  | some hours =>
    cases hs : parseClock hours.start <;> cases he : parseClock hours.«end» <;>
      simp only [hoursPass, hs, he, Bool.false_eq_true, reduceCtorEq, false_and, exists_false,
        Option.some.injEq, exists_and_left, exists_eq_left', false_iff, not_false_eq_true]
    split_ifs <;> simp <;> omega

instance (nowMins : Nat) (rule : ScheduleRule) : Decidable (HourCheck nowMins rule) :=
  decidable_of_iff _ (hoursPass_iff nowMins rule)

instance (p : ScheduleProvider) (toLower : String → String) (t : Time) (rule : ScheduleRule) :
    Decidable (Passes p toLower t rule) :=
  inferInstanceAs (Decidable (_ ∧ _))

theorem dayMatch_eq_any (toLower : String → String) (weekday : String) :
    ∀ days, dayMatch toLower weekday days = days.any fun d => entryAdmits weekday (toLower d)
  | [] => rfl
  | d :: days => by
    rw [dayMatch, List.any_cons, dayMatch_eq_any toLower weekday days]
    cases entryAdmits weekday (toLower d) <;> rfl

/-- An entry admits a weekday as the spec says: it is the weekday, or `"weekday"` on Monday to
Friday, or `"weekend"` on Saturday or Sunday. -/
theorem entryAdmits_iff (d : Fin 7) (e : String) :
    entryAdmits (weekdayName d) e = true ↔ e = weekdayName d ∨
      (e = "weekday" ∧ weekdayName d ∈ ["mon", "tue", "wed", "thu", "fri"]) ∨
      (e = "weekend" ∧ weekdayName d ∈ ["sat", "sun"]) := by
  have hweek : (weekdayName d ≠ "sat" ∧ weekdayName d ≠ "sun") ↔
      weekdayName d ∈ ["mon", "tue", "wed", "thu", "fri"] := by
    revert d; decide
  have hend : (weekdayName d = "sat" ∨ weekdayName d = "sun") ↔ weekdayName d ∈ ["sat", "sun"] := by
    revert d; decide
  simp only [entryAdmits, Bool.or_eq_true, Bool.and_eq_true, decide_eq_true_eq, and_assoc, or_assoc]
  rw [hweek, hend]

/-- The day loop finds an entry the day check accepts. -/
theorem dayMatch_iff (toLower : String → String) (d : Fin 7) (days : List String) :
    dayMatch toLower (weekdayName d) days = true ↔
      ∃ e ∈ days, toLower e = weekdayName d ∨
        (toLower e = "weekday" ∧ weekdayName d ∈ ["mon", "tue", "wed", "thu", "fri"]) ∨
        (toLower e = "weekend" ∧ weekdayName d ∈ ["sat", "sun"]) := by
  simp only [dayMatch_eq_any, List.any_eq_true, entryAdmits_iff]

/-- The days block passes a rule exactly when the day check does. -/
theorem dayPass_iff (toLower : String → String) (d : Fin 7) (rule : ScheduleRule) :
    ¬(rule.days.length > 0 ∧ dayMatch toLower (weekdayName d) rule.days = false) ↔
      DayCheck toLower (weekdayName d) rule := by
  rw [DayCheck, ← dayMatch_iff]
  cases rule.days <;> simp

/-- **The loop is a search for the first passing rule.** -/
theorem matchRuleFrom_eq_find? (toLower : String → String) (d : Fin 7) (nowMins : Nat) :
    ∀ rules, matchRuleFrom toLower (weekdayName d) nowMins rules =
      rules.find? fun rule => decide (DayCheck toLower (weekdayName d) rule ∧
        HourCheck nowMins rule)
  | [] => rfl
  | rule :: rules => by
    rw [List.find?_cons, ← matchRuleFrom_eq_find? toLower d nowMins rules, matchRuleFrom]
    have hday := dayPass_iff toLower d rule
    have hhour := hoursPass_iff nowMins rule
    by_cases hD : DayCheck toLower (weekdayName d) rule <;>
      by_cases hH : HourCheck nowMins rule <;> simp_all

/-- **`matchRule` returns the first passing rule.** At every instant, it returns a rule exactly
when the rule passes the day and hour checks and every rule before it fails one; it returns
none exactly when no rule passes; and it never returns a rule whose hours do not parse. -/
theorem matchRule_first_passing (p : ScheduleProvider) (toLower : String → String) (t : Time) :
    (∀ rule, p.matchRule toLower t = some rule ↔ Passes p toLower t rule ∧
      ∃ pre post, p.rules = pre ++ rule :: post ∧ ∀ r ∈ pre, ¬Passes p toLower t r) ∧
    (p.matchRule toLower t = none ↔ ∀ r ∈ p.rules, ¬Passes p toLower t r) ∧
    (∀ rule hours, rule.hours = some hours →
      (parseClock hours.start = none ∨ parseClock hours.«end» = none) →
      p.matchRule toLower t ≠ some rule) := by
  have hfind : p.matchRule toLower t = p.rules.find? fun r => decide (Passes p toLower t r) :=
    matchRuleFrom_eq_find? toLower _ _ p.rules
  refine ⟨fun rule => ?_, by simp [hfind], fun rule hours hh hfail hsome => ?_⟩
  · rw [hfind, List.find?_eq_some]
    simp only [decide_eq_true_eq, Bool.not_eq_true', decide_eq_false_iff_not]
  · rw [hfind, List.find?_eq_some] at hsome
    have hpass := (decide_eq_true_eq.mp hsome.1).2
    unfold HourCheck at hpass
    rw [hh] at hpass
    obtain ⟨s, e, hs, he, -⟩ := hpass
    rcases hfail with h | h <;> simp_all

/-! ## Resolving the provider, and what `Chat`, `GetID` and `GetDefaultModel` answer

`resolveProvider(t)` takes the provider type and model of the rule `matchRule(t)` returns, or of
the schedule's `Default`; refuses a type that starts with `"schedule"`; and otherwise asks
`CreateProvider` for a clone of the config whose default provider is that type and whose default
model name is the model, or the type when the model is empty. `CreateProvider` is not in the
sources: it is the parameter `create`, a function of the two fields the clone sets, the rest of
the config being the provider's own. `Chat`, `GetID` and `GetDefaultModel` each read the clock
and resolve at their own instant.
-/

section Resolve

variable {Request Response : Type}

/-- An `LLMProvider`, by what the schedule provider asks of it: `GetDefaultModel()`, `GetID()`
when it implements it, and its answer to a `Chat` call of a request for each model. -/
structure LLMProvider (Request Response : Type) where
  defaultModel : String
  getID? : Option String
  chat : Request → String → Except String Response

/-- The provider type and model in force at `t`: the passing rule's, or the default's. -/
def ScheduleProvider.target (p : ScheduleProvider) (default : ScheduleRule)
    (toLower : String → String) (t : Time) : String × String :=
  match p.matchRule toLower t with
  | some rule => (rule.provider, rule.model)
  | none => (default.provider, default.model)

/-- `(*ScheduleProvider).resolveProvider(t)`: the provider `CreateProvider` builds, `none` when it
is nil, and the model id it resolved. -/
def ScheduleProvider.resolveProvider (p : ScheduleProvider) (default : ScheduleRule)
    (toLower : String → String)
    (create : String → String → Except String (Option (LLMProvider Request Response) × String))
    (t : Time) : Except String (Option (LLMProvider Request Response) × String) :=
  let (providerType, model) := p.target default toLower t
  if "schedule".data <+: providerType.data then .error "recursive schedule provider not allowed"
  else
    let targetModelName := if model = "" then providerType else model
    create providerType targetModelName

/-- `(*ScheduleProvider).Chat` at reading `now`: the request goes to the resolved provider with
the resolved model id, else the caller's model, else the provider's default model. A nil
provider is dereferenced. -/
def ScheduleProvider.chat (p : ScheduleProvider) (default : ScheduleRule)
    (toLower : String → String)
    (create : String → String → Except String (Option (LLMProvider Request Response) × String))
    (now : Time) (req : Request) (model : String) : Outcome (Except String Response) :=
  match p.resolveProvider default toLower create now with
  | .error e => .returns (.error e)
  | .ok (provider, ruleModel) =>
    let targetModel := if ruleModel ≠ "" then ruleModel else model
    match provider with
    | none => .panics nilDereference
    | some provider =>
      let targetModel := if targetModel = "" then provider.defaultModel else targetModel
      .returns (provider.chat req targetModel)

/-- `(*ScheduleProvider).GetID` at reading `now`. -/
def ScheduleProvider.getID (p : ScheduleProvider) (default : ScheduleRule)
    (toLower : String → String)
    (create : String → String → Except String (Option (LLMProvider Request Response) × String))
    (now : Time) : String :=
  match p.resolveProvider default toLower create now with
  | .ok (some provider, _) => provider.getID?.getD "schedule"
  | _ => "schedule:" ++ default.provider

/-- `(*ScheduleProvider).GetDefaultModel` at reading `now`. -/
def ScheduleProvider.getDefaultModel (p : ScheduleProvider) (default : ScheduleRule)
    (toLower : String → String)
    (create : String → String → Except String (Option (LLMProvider Request Response) × String))
    (now : Time) : String :=
  match p.resolveProvider default toLower create now with
  | .ok (some provider, model) => if model ≠ "" then model else provider.defaultModel
  | _ => "schedule-error"

/-- **The schedule provider never builds a schedule provider.** At every instant, a rule or
default naming a type that starts with `"schedule"` is refused before `CreateProvider` runs, and
`CreateProvider` is asked only for the other types, with the model (or the type) as the model
name: two factories that agree on those types resolve alike. -/
theorem resolveProvider_guard (p : ScheduleProvider) (default : ScheduleRule)
    (toLower : String → String)
    (create create' : String → String → Except String (Option (LLMProvider Request Response) × String))
    (t : Time) :
    ("schedule".data <+: (p.target default toLower t).1.data →
      p.resolveProvider default toLower create t = .error "recursive schedule provider not allowed") ∧
    ((∀ ty m, ¬"schedule".data <+: ty.data → create ty m = create' ty m) →
      p.resolveProvider default toLower create t = p.resolveProvider default toLower create' t) := by
  refine ⟨fun h => by simp [ScheduleProvider.resolveProvider, h], fun hagree => ?_⟩
  unfold ScheduleProvider.resolveProvider
  rcases p.target default toLower t with ⟨ty, m⟩
  dsimp only
  split_ifs with h
  · rfl
  all_goals exact hagree _ _ h

/-- **`Chat` with no model uses the model `GetDefaultModel` reports**, at one instant: when the
provider resolves, `Chat` sends the request to it with the resolved model id, else the caller's
model, else the provider's default; for an empty model, exactly `GetDefaultModel()`. -/
theorem chat_model (p : ScheduleProvider) (default : ScheduleRule) (toLower : String → String)
    (create : String → String → Except String (Option (LLMProvider Request Response) × String))
    (now : Time) {provider : LLMProvider Request Response} {resolved : String}
    (h : p.resolveProvider default toLower create now = .ok (some provider, resolved))
    (req : Request) (model : String) :
    p.chat default toLower create now req model = .returns (provider.chat req
      (if resolved ≠ "" then resolved else if model ≠ "" then model else provider.defaultModel)) ∧
    p.chat default toLower create now req "" =
      .returns (provider.chat req (p.getDefaultModel default toLower create now)) := by
  constructor <;> simp only [ScheduleProvider.chat, ScheduleProvider.getDefaultModel, h] <;>
    split_ifs <;> simp_all

end Resolve

end Picoclaw.Providers
