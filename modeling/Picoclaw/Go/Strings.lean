import Mathlib.Data.List.Infix
import Mathlib.Tactic.Ring
import Mathlib.Data.List.Lex

/-!
# The `strings` functions the program routes with

`strings.Index` and `strings.SplitN`, over characters. Go indexes strings by bytes; every
separator this program splits on is ASCII, and an ASCII byte never occurs inside the UTF-8
encoding of another character, so the split points are the same counted either way.

**The law** (`index_append_sep_iff`): in `s ++ sep ++ t`, the separator is first found right
after `s` exactly when no occurrence of it starts inside `s`, i.e. when it does not occur in
`s` followed by all but the last character of `sep`. For the `"__"` of MCP routing this reads:
`s` contains no `"__"` and does not end in `'_'` (`splitN_append_sep_iff`).

`strings.Split` at a one-character separator is Batteries' `List.splitOn` (`split_eq_splitOn`),
and `SplitN(s, sep, 2)` returns two pieces `a`, `b` only for `s = a ++ sep ++ b`
(`splitNChars_two_eq`). `strings.Trim`, `[]byte(s)` and `hex.EncodeToString` are `trim`,
`bytes` and `hexEncode`.

`fmt`'s `%d` is `formatInt`. Ids built with `fmt.Sprintf("%s_%s_%d_%d", ...)` are decoded from
the right because a decimal contains no `'_'` (`underscore_not_mem_formatInt`), and two
decimals are equal only for equal numbers (`formatInt_injective`, by reading the digits back
with `decimalValue`). Decimals of one length are ordered character by character as their
numbers are (`lex_of_decimalValue_lt`), which is what makes names stamped with zero-padded
times sort by time.
-/

namespace Picoclaw.Go

/-- `strings.Index(s, sep)`: where `sep` first occurs in `s`. -/
def index (s sep : List Char) : Option Nat :=
  match s with
  | [] => if sep = [] then some 0 else none
  | c :: cs => if sep <+: c :: cs then some 0 else (index cs sep).map (· + 1)

/-- `strings.Contains(s, substr)`: `Index(s, substr) >= 0`. -/
def contains (s substr : String) : Bool := (index s.data substr.data).isSome

/-- `strings.SplitN(s, sep, n)` for a non-empty `sep` (`genSplit`): at most `n` pieces, the
last one the unsplit rest. -/
def splitNChars (s sep : List Char) : Nat → List (List Char)
  | 0 => []
  | 1 => [s]
  | n + 2 =>
    match index s sep with
    | none => [s]
    | some m => s.take m :: splitNChars (s.drop (m + sep.length)) sep (n + 1)

/-- `strings.SplitN` on strings. -/
def splitN (s sep : String) (n : Nat) : List String :=
  (splitNChars s.data sep.data n).map String.mk

/-- `strings.Split(s, sep)` for a non-empty `sep`: every piece. `s` holds at most `s.length`
separators, so `s.length + 1` pieces are all of them. -/
def split (s sep : String) : List String := splitN s sep (s.length + 1)

/-! ## Where the first occurrence lies -/

theorem index_le : ∀ {s sep : List Char} {m : Nat}, index s sep = some m → m ≤ s.length
  | [], sep, m, h => by
    simp only [index] at h
    split at h <;> simp_all
  | c :: cs, sep, m, h => by
    simp only [index] at h
    split at h
    · cases h; exact Nat.zero_le _
    · obtain ⟨m', hm', rfl⟩ := Option.map_eq_some'.mp h
      exact Nat.succ_le_succ (index_le hm')

theorem prefix_append_iff_of_length_le {p l x : List Char} (h : p.length ≤ l.length) :
    p <+: l ++ x ↔ p <+: l := by
  rw [List.prefix_iff_eq_take, List.prefix_iff_eq_take, List.take_append_of_le_length h]

/-- **The first separator of `s ++ sep ++ t` closes `s`** exactly when `sep` does not occur
in `s` extended by all but the last character of `sep`. -/
theorem index_append_sep_iff {sep : List Char} (hsep : sep ≠ []) (t : List Char) :
    ∀ s : List Char, index (s ++ sep ++ t) sep = some s.length ↔ ¬ sep <:+: s ++ sep.dropLast
  | [] => by
    obtain ⟨c, cs, rfl⟩ := List.exists_cons_of_ne_nil hsep
    have : ¬ c :: cs <:+: (c :: cs).dropLast := fun h => absurd h.length_le (by simp)
    simp [index, this]
  | c :: s => by
    have ih := index_append_sep_iff hsep t s
    have hsplit : c :: (s ++ sep ++ t) = c :: (s ++ sep.dropLast) ++ (sep.getLast hsep :: t) := by
      conv_lhs => rw [← List.dropLast_append_getLast hsep]
      simp
    have hhead : sep <+: c :: (s ++ sep ++ t) ↔ sep <+: c :: (s ++ sep.dropLast) := by
      rw [hsplit]
      exact prefix_append_iff_of_length_le (by simp; omega)
    simp only [List.cons_append, index, List.length_cons, List.infix_cons_iff, not_or]
    rw [← ih, ← hhead, List.append_assoc]
    split
    · simp_all
    · simp_all

/-- The two pieces `SplitN(x, sep, 2)` returns are `s` and `t` exactly when `x = s ++ sep ++ t`
splits at the end of `s`. -/
theorem splitNChars_two_append_sep_iff {sep : List Char} (hsep : sep ≠ []) (s t : List Char) :
    splitNChars (s ++ sep ++ t) sep 2 = [s, t] ↔ ¬ sep <:+: s ++ sep.dropLast := by
  rw [← index_append_sep_iff hsep t s]
  simp only [splitNChars]
  split
  · rename_i h; simp_all
  · rename_i m h
    have hle := index_le h
    constructor
    · intro hp
      simp only [List.cons.injEq, and_true] at hp
      have := congrArg List.length hp.1
      simp only [List.length_take, List.length_append] at this hle
      rw [h]; congr 1; omega
    · intro hm
      rw [h] at hm; cases hm
      simp [List.append_assoc]

/-- **MCP routing splits a prefixed name back** (`"<server>__<tool>"`) exactly when the server
name contains no `"__"` and does not end in `'_'`; the tool name is unconstrained. -/
theorem splitN_append_sep_iff (s t : String) :
    splitN (s ++ "__" ++ t) "__" 2 = [s, t] ↔ ¬ ['_', '_'] <:+: s.data ++ ['_'] := by
  have key := splitNChars_two_append_sep_iff (show ['_', '_'] ≠ [] by decide) s.data t.data
  simp only [List.dropLast] at key
  simp only [splitN, String.data_append]
  rw [← key]
  constructor
  · intro h
    simpa [Function.comp_def] using congrArg (List.map String.data) h
  · intro h; rw [h]; rfl

theorem index_prefix : ∀ {s sep : List Char} {m : Nat}, index s sep = some m → sep <+: s.drop m
  | [], sep, m, h => by
    simp only [index] at h
    split at h
    · cases h; simp_all
    · cases h
  | c :: cs, sep, m, h => by
    simp only [index] at h
    split at h
    · cases h; assumption
    · obtain ⟨m', hm', rfl⟩ := Option.map_eq_some'.mp h
      rw [List.drop_succ_cons]
      exact index_prefix hm'

/-- A separator holding a character `s` lacks does not occur in `s`. -/
theorem index_eq_none_of_not_mem {c : Char} {sep : List Char} (hc : c ∈ sep) :
    ∀ {s : List Char}, c ∉ s → index s sep = none
  | [], _ => by simp [index, List.ne_nil_of_mem hc]
  | c' :: cs, h => by
    have hpre : ¬ sep <+: c' :: cs := fun hp => h (hp.subset hc)
    simp [index, hpre, index_eq_none_of_not_mem hc (fun hm => h (List.mem_cons_of_mem _ hm))]

/-- An occurrence in `a` is an occurrence in `a ++ b`. -/
theorem index_append_isSome {sep : List Char} :
    ∀ {a : List Char} (b : List Char), (index a sep).isSome → (index (a ++ b) sep).isSome
  | [], b, h => by
    obtain rfl : sep = [] := by simp only [index] at h; split at h <;> simp_all
    cases b <;> simp [index]
  | c :: a, b, h => by
    show (if sep <+: c :: (a ++ b) then some 0 else (index (a ++ b) sep).map (· + 1)).isSome
    simp only [index] at h
    by_cases hp : sep <+: c :: a
    · have hp' : sep <+: c :: (a ++ b) := hp.trans (List.prefix_append (c :: a) b)
      simp [hp']
    · simp only [hp, if_false, Option.isSome_map'] at h
      split <;> simp [index_append_isSome b h]

/-- An occurrence in `b` is an occurrence in `a ++ b`. -/
theorem index_append_isSome_of_right {sep : List Char} (b : List Char)
    (h : (index b sep).isSome) : ∀ a : List Char, (index (a ++ b) sep).isSome
  | [] => h
  | c :: a => by
    show (if sep <+: c :: (a ++ b) then some 0 else (index (a ++ b) sep).map (· + 1)).isSome
    split <;> simp [index_append_isSome_of_right b h a]

/-- The two pieces `SplitN(s, sep, 2)` returns are the parts of `s` around a separator. -/
theorem splitNChars_two_eq {s sep a b : List Char} (h : splitNChars s sep 2 = [a, b]) :
    s = a ++ sep ++ b := by
  simp only [splitNChars] at h
  split at h
  · cases h
  · rename_i m hm
    obtain ⟨rfl, rfl⟩ : s.take m = a ∧ s.drop (m + sep.length) = b := by simpa using h
    obtain ⟨t, ht⟩ := index_prefix hm
    rw [← List.drop_drop, ← ht, List.drop_left, List.append_assoc, ht, List.take_append_drop]

/-! ## Splitting at one character -/

/-- Past a character other than the separator, `SplitN` extends the first piece. -/
theorem splitNChars_cons_of_ne {c c' : Char} (h : c' ≠ c) (s : List Char) (n : Nat) :
    splitNChars (c' :: s) [c] (n + 2) = (splitNChars s [c] (n + 2)).modifyHead (c' :: ·) := by
  have hidx : index (c' :: s) [c] = (index s [c]).map (· + 1) := by
    simp [index, Ne.symm h]
  simp only [splitNChars, hidx]
  cases index s [c] <;> rfl

/-- With more pieces allowed than there are characters, `SplitN` at one character splits at
each occurrence. -/
theorem splitNChars_singleton (c : Char) :
    ∀ (s : List Char) (n : Nat), s.length < n → splitNChars s [c] n = s.splitOn c
  | [], 1, _ => rfl
  | [], n + 2, _ => by simp [splitNChars, index]
  | c' :: s, n + 2, hn => by
    by_cases hc : c' = c
    · subst hc
      rw [List.splitOn, List.splitOnP_cons, if_pos (beq_self_eq_true c'), ← List.splitOn,
        ← splitNChars_singleton c' s (n + 1) (by simp at hn; omega)]
      simp [splitNChars, index]
    · rw [splitNChars_cons_of_ne hc, splitNChars_singleton c s (n + 2) (by simp at hn; omega)]
      simp [List.splitOn, List.splitOnP_cons, hc]

/-- **`strings.Split` at a one-character separator is `List.splitOn`.** -/
theorem split_eq_splitOn (s : String) (c : Char) :
    split s ⟨[c]⟩ = (s.data.splitOn c).map String.mk := by
  obtain ⟨d⟩ := s
  exact congrArg (List.map String.mk) (splitNChars_singleton c d _ (Nat.lt_succ_self _))

theorem splitOn_append_cons (c : Char) (b : List Char) :
    ∀ a : List Char, (a ++ c :: b).splitOn c = a.splitOn c ++ b.splitOn c
  | [] => by simp [List.splitOn, List.splitOnP_cons]
  | x :: a => by
    have ih := splitOn_append_cons c b a
    unfold List.splitOn at ih ⊢
    rw [List.cons_append, List.splitOnP_cons, List.splitOnP_cons, ih]
    split
    · rfl
    · obtain ⟨p, ps, hps⟩ := List.exists_cons_of_ne_nil (List.splitOnP_ne_nil (· == c) a)
      rw [hps]
      rfl

theorem splitOn_of_not_mem {c : Char} {l : List Char} (h : c ∉ l) : l.splitOn c = [l] :=
  List.splitOnP_eq_single _ _ fun x hx e => h (by rw [beq_iff_eq] at e; rwa [e] at hx)

/-- No piece of a split holds the separator. -/
theorem not_mem_of_mem_splitOn {c : Char} :
    ∀ {l p : List Char}, p ∈ l.splitOn c → c ∉ p
  | [], p, h => by simp_all [List.splitOn]
  | x :: l, p, h => by
    unfold List.splitOn at h
    rw [List.splitOnP_cons] at h
    split at h
    · rcases List.mem_cons.mp h with rfl | h
      · simp
      · exact not_mem_of_mem_splitOn h
    · rename_i hx
      obtain ⟨q, qs, hqs⟩ := List.exists_cons_of_ne_nil (List.splitOnP_ne_nil (· == c) l)
      have hrest := fun p (hp : p ∈ q :: qs) => @not_mem_of_mem_splitOn c l p (by
        unfold List.splitOn; rw [hqs]; exact hp)
      rw [hqs] at h
      rcases List.mem_cons.mp h with rfl | h
      · simp only [List.mem_cons, not_or]
        exact ⟨fun e => hx (by simp [e]), hrest q (List.mem_cons_self _ _)⟩
      · exact hrest p (List.mem_cons_of_mem _ h)

/-! ## Trimming, bytes and hex -/

/-- `strings.Trim(s, cutset)`: `s` without its leading and trailing characters in `cutset`. -/
def trim (s cutset : String) : String :=
  String.mk ((s.data.dropWhile (· ∈ cutset.data)).reverse.dropWhile (· ∈ cutset.data)).reverse

/-- `strings.TrimRight(s, cutset)`: `s` without its trailing characters in `cutset`. -/
def trimRight (s cutset : String) : String :=
  String.mk (s.data.reverse.dropWhile (· ∈ cutset.data)).reverse

/-- `strings.ToLower`, exact for the search of a word without `'i'` and `'k'` in the result:
outside ASCII, only `'İ'` and the Kelvin sign lower to ASCII characters, `'i'` and `'k'`. -/
def asciiLower (s : String) : String := ⟨s.data.map Char.toLower⟩

/-- `strings.EqualFold(s, word)` for a word of ASCII letters without `'k'` and `'s'`: equal up
to the case of ASCII letters, since no other character folds to the word's letters. -/
def equalFoldASCII (s word : String) : Bool := s.data.map Char.toLower = word.data.map Char.toLower

/-- `[]byte(s)`: a Go string's bytes, its UTF-8 encoding. -/
def bytes (s : String) : List UInt8 := s.toUTF8.data.toList

theorem bytes_eq_flatMap (s : String) : bytes s = s.data.flatMap String.utf8EncodeChar := rfl

/-- `hextable` of `encoding/hex`. -/
def hextable : List Char := "0123456789abcdef".data

/-- `hex.EncodeToString`: each byte as two lower-case hex digits, high half first. -/
def hexEncode (src : List UInt8) : String :=
  String.mk (src.flatMap fun v => [hextable.getD (v.toNat / 16) '0', hextable.getD (v.toNat % 16) '0'])

example : hexEncode [0x00, 0xab, 0x7f] = "00ab7f" := by decide

/-! ## Decimals -/

/-- `fmt`'s `%d` (and `strconv.Itoa`): the decimal digits, after a `-` when negative. -/
def formatInt : Int → String
  | .ofNat m => Nat.repr m
  | .negSucc m => "-" ++ Nat.repr (m + 1)

/-- A scanner's `accept(sign)`: whether a `'-'` leads, and the text after the sign. -/
def acceptSign : List Char → Bool × List Char
  | '+' :: r => (false, r)
  | '-' :: r => (true, r)
  | r => (false, r)

/-- One step of reading a decimal: shift in the next digit. -/
def decimalStep (acc : Nat) (c : Char) : Nat := 10 * acc + (c.toNat - 48)

/-- The number a string of decimal digits spells. -/
def decimalValue (cs : List Char) : Nat := cs.foldl decimalStep 0

theorem digitChar_ne : ∀ k < 10, Nat.digitChar k ≠ '_' ∧ Nat.digitChar k ≠ '-' := by decide

theorem digitChar_value : ∀ k < 10, (Nat.digitChar k).toNat - 48 = k := by decide

/-- One step of `Nat.toDigitsCore`: the last digit goes in front of the digits so far. -/
theorem toDigitsCore_succ (fuel n : Nat) (ds : List Char) :
    Nat.toDigitsCore 10 (fuel + 1) n ds =
      if n / 10 = 0 then Nat.digitChar (n % 10) :: ds
      else Nat.toDigitsCore 10 fuel (n / 10) (Nat.digitChar (n % 10) :: ds) := rfl

/-- The characters `Nat.toDigitsCore` adds are digits. -/
theorem mem_toDigitsCore {c : Char} :
    ∀ (fuel n : Nat) (ds : List Char), c ∈ Nat.toDigitsCore 10 fuel n ds →
      c ∈ ds ∨ ∃ k < 10, c = Nat.digitChar k
  | 0, _, _, h => .inl h
  | fuel + 1, n, ds, h => by
    have hd : c ∈ Nat.digitChar (n % 10) :: ds → c ∈ ds ∨ ∃ k < 10, c = Nat.digitChar k :=
      fun h => (List.mem_cons.mp h).elim
        (fun h => .inr ⟨n % 10, Nat.mod_lt _ (by decide), h⟩) .inl
    rw [toDigitsCore_succ] at h
    split at h
    · exact hd h
    · exact (mem_toDigitsCore fuel _ _ h).elim hd .inr

/-- A decimal is made of digits. -/
theorem mem_repr {c : Char} {n : Nat} (h : c ∈ (Nat.repr n).data) :
    ∃ k < 10, c = Nat.digitChar k :=
  (mem_toDigitsCore (n + 1) n [] h).resolve_left (List.not_mem_nil c)

theorem not_mem_repr {c : Char} (hc : c = '_' ∨ c = '-') (n : Nat) : c ∉ (Nat.repr n).data :=
  fun h => by
    obtain ⟨k, hk, rfl⟩ := mem_repr h
    rcases hc with hc | hc
    exacts [(digitChar_ne k hk).1 hc, (digitChar_ne k hk).2 hc]

theorem isDigit_of_mem_repr {c : Char} {n : Nat} (h : c ∈ (Nat.repr n).data) : c.isDigit := by
  have hdigit : ∀ k < 10, (Nat.digitChar k).isDigit := by decide
  obtain ⟨k, hk, rfl⟩ := mem_repr h
  exact hdigit k hk

/-- A decimal has no `'_'`. -/
theorem underscore_not_mem_formatInt (n : Int) : '_' ∉ (formatInt n).data := by
  cases n with
  | ofNat m => exact not_mem_repr (.inl rfl) m
  | negSucc m =>
    simp only [formatInt, String.data_append, List.mem_append, not_or]
    exact ⟨by decide, not_mem_repr (.inl rfl) _⟩

theorem foldl_decimalStep (cs : List Char) (acc : Nat) :
    cs.foldl decimalStep acc = acc * 10 ^ cs.length + cs.foldl decimalStep 0 := by
  induction cs generalizing acc with
  | nil => simp
  | cons c cs ih =>
    simp only [List.foldl_cons, List.length_cons]
    rw [ih (decimalStep acc c), ih (decimalStep 0 c)]
    simp only [decimalStep]
    ring

theorem decimalValue_toDigitsCore :
    ∀ (fuel n : Nat) (ds : List Char), n < fuel →
      decimalValue (Nat.toDigitsCore 10 fuel n ds) = n * 10 ^ ds.length + decimalValue ds
  | 0, _, _, h => absurd h (Nat.not_lt_zero _)
  | fuel + 1, n, ds, h => by
    have hdigit := digitChar_value (n % 10) (Nat.mod_lt _ (by decide))
    have hcons : decimalValue (Nat.digitChar (n % 10) :: ds) =
        n % 10 * 10 ^ ds.length + decimalValue ds := by
      rw [decimalValue, List.foldl_cons, foldl_decimalStep, decimalStep, hdigit, decimalValue]
      ring
    rw [toDigitsCore_succ]
    split
    · rename_i h0
      rw [hcons, Nat.mod_eq_of_lt (by omega)]
    · rw [decimalValue_toDigitsCore fuel (n / 10) _ (by omega), hcons, List.length_cons]
      have := Nat.div_add_mod n 10
      calc n / 10 * 10 ^ (ds.length + 1) + (n % 10 * 10 ^ ds.length + decimalValue ds)
          = (10 * (n / 10) + n % 10) * 10 ^ ds.length + decimalValue ds := by ring
        _ = n * 10 ^ ds.length + decimalValue ds := by rw [this]

/-- **Reading a decimal back** gives the number. -/
theorem decimalValue_repr (n : Nat) : decimalValue (Nat.repr n).data = n := by
  simpa using decimalValue_toDigitsCore (n + 1) n [] (Nat.lt_succ_self n)

theorem repr_data_ne_nil (n : Nat) : (Nat.repr n).data ≠ [] := fun h => by
  have hn := decimalValue_repr n
  rw [h] at hn
  obtain rfl : n = 0 := hn.symm
  exact absurd h (by decide)

/-- A decimal starts with a digit, so a scanner reads no sign before it. -/
theorem acceptSign_repr (n : Nat) : acceptSign (Nat.repr n).data = (false, (Nat.repr n).data) := by
  rcases h : (Nat.repr n).data with _ | ⟨d, rest⟩
  · exact absurd h (repr_data_ne_nil n)
  · have hd : d.isDigit := isDigit_of_mem_repr (h ▸ List.mem_cons_self d rest)
    have hplus : d ≠ '+' := by rintro rfl; exact absurd hd (by decide)
    have hminus : d ≠ '-' := by rintro rfl; exact absurd hd (by decide)
    simp [acceptSign, hplus, hminus]

theorem formatInt_injective {a b : Int} (h : formatInt a = formatInt b) : a = b := by
  have hminus : ∀ m k : Nat, "-" ++ Nat.repr m ≠ Nat.repr k := fun m k e =>
    not_mem_repr (.inr rfl) k (by rw [← e]; simp)
  have hrepr : ∀ m k : Nat, Nat.repr m = Nat.repr k → m = k := fun m k e => by
    rw [← decimalValue_repr m, ← decimalValue_repr k, e]
  cases a <;> cases b <;> simp only [formatInt] at h
  · rw [hrepr _ _ h]
  · exact absurd h.symm (hminus _ _)
  · exact absurd h (hminus _ _)
  · have hd := congrArg String.data h
    simp only [String.data_append, List.append_cancel_left_eq] at hd
    have := hrepr _ _ (String.ext hd)
    rw [Nat.succ.inj this]

/-! ## Reading fields back -/

/-- Two lists joined at a separator `c` that the left parts do not contain have equal parts. -/
theorem eq_of_append_cons_eq_left {c : Char} :
    ∀ {l₁ l₂ r₁ r₂ : List Char}, l₁ ++ c :: r₁ = l₂ ++ c :: r₂ → c ∉ l₁ → c ∉ l₂ →
      l₁ = l₂ ∧ r₁ = r₂
  | [], [], _, _, h, _, _ => ⟨rfl, List.cons.inj h |>.2⟩
  | [], b :: _, _, _, h, _, h₂ =>
    absurd (List.cons.inj h).1 (fun e => h₂ (e ▸ List.mem_cons_self _ _))
  | a :: _, [], _, _, h, h₁, _ =>
    absurd (List.cons.inj h).1.symm (fun e => h₁ (e ▸ List.mem_cons_self _ _))
  | a :: l₁, b :: l₂, r₁, r₂, h, h₁, h₂ => by
    obtain ⟨rfl, h'⟩ := List.cons.inj h
    obtain ⟨rfl, rfl⟩ := eq_of_append_cons_eq_left h' (fun m => h₁ (List.mem_cons_of_mem _ m))
      (fun m => h₂ (List.mem_cons_of_mem _ m))
    exact ⟨rfl, rfl⟩

/-- The same, read from the right: the parts after the last separator are equal. -/
theorem eq_of_append_cons_eq_right {c : Char} {l₁ l₂ r₁ r₂ : List Char}
    (h : l₁ ++ c :: r₁ = l₂ ++ c :: r₂) (h₁ : c ∉ r₁) (h₂ : c ∉ r₂) : l₁ = l₂ ∧ r₁ = r₂ := by
  have hr := congrArg List.reverse h
  simp only [List.reverse_append, List.reverse_cons, List.append_assoc,
    List.singleton_append] at hr
  obtain ⟨e₁, e₂⟩ := eq_of_append_cons_eq_left hr (by simpa using h₁) (by simpa using h₂)
  exact ⟨List.reverse_injective e₂, List.reverse_injective e₁⟩

/-! ## The order of decimals -/

/-- A list of decimal digits. -/
def IsDecimal (cs : List Char) : Prop := ∀ c ∈ cs, ∃ k < 10, c = Nat.digitChar k

theorem IsDecimal.tail {c : Char} {cs : List Char} (h : IsDecimal (c :: cs)) : IsDecimal cs :=
  fun d hd => h d (List.mem_cons_of_mem _ hd)

theorem isDecimal_append {u v : List Char} : IsDecimal (u ++ v) ↔ IsDecimal u ∧ IsDecimal v := by
  simp only [IsDecimal, List.mem_append, or_imp, forall_and]

theorem isDecimal_repr (n : Nat) : IsDecimal (Nat.repr n).data := fun _ => mem_repr

theorem digitChar_toNat : ∀ k < 10, (Nat.digitChar k).toNat = 48 + k := by decide

theorem decimalValue_append (u v : List Char) :
    decimalValue (u ++ v) = decimalValue u * 10 ^ v.length + decimalValue v := by
  rw [decimalValue, List.foldl_append, foldl_decimalStep]
  rfl

theorem decimalValue_digit_cons {k : Nat} (hk : k < 10) (cs : List Char) :
    decimalValue (Nat.digitChar k :: cs) = k * 10 ^ cs.length + decimalValue cs := by
  have hdigit : decimalValue [Nat.digitChar k] = k := by
    simp only [decimalValue, List.foldl, decimalStep, digitChar_toNat k hk]
    omega
  rw [← List.singleton_append, decimalValue_append, hdigit]

/-- A decimal of `n` digits is below `10 ^ n`. -/
theorem decimalValue_lt_pow : ∀ {cs : List Char}, IsDecimal cs → decimalValue cs < 10 ^ cs.length
  | [], _ => Nat.one_pos
  | c :: cs, h => by
    obtain ⟨k, hk, rfl⟩ := h c (List.mem_cons_self _ _)
    have ih := decimalValue_lt_pow h.tail
    rw [decimalValue_digit_cons hk, List.length_cons, pow_succ]
    calc k * 10 ^ cs.length + decimalValue cs < (k + 1) * 10 ^ cs.length := by
          rw [Nat.succ_mul]; omega
      _ ≤ 10 ^ cs.length * 10 := by rw [Nat.mul_comm]; exact Nat.mul_le_mul_left _ hk

/-- **Decimals of one length are ordered as their numbers**: the first digit that differs
decides both. -/
theorem lex_of_decimalValue_lt : ∀ {u v : List Char}, IsDecimal u → IsDecimal v →
    u.length = v.length → decimalValue u < decimalValue v → List.Lex (· < ·) u v
  | [], [], _, _, _, h => absurd h (Nat.lt_irrefl 0)
  | a :: u, b :: v, hu, hv, hlen, h => by
    obtain ⟨k, hk, rfl⟩ := hu a (List.mem_cons_self _ _)
    obtain ⟨k', hk', rfl⟩ := hv b (List.mem_cons_self _ _)
    have hlen' : u.length = v.length := Nat.succ.inj hlen
    have hv' := decimalValue_lt_pow hv.tail
    rw [decimalValue_digit_cons hk, decimalValue_digit_cons hk', hlen'] at h
    rcases Nat.lt_trichotomy k k' with hlt | rfl | hgt
    · exact .rel (show (Nat.digitChar k).toNat < (Nat.digitChar k').toNat by
        rw [digitChar_toNat k hk, digitChar_toNat k' hk']; omega)
    · exact .cons (lex_of_decimalValue_lt hu.tail hv.tail hlen' (by omega))
    · have : (k' + 1) * 10 ^ v.length ≤ k * 10 ^ v.length := Nat.mul_le_mul_right _ hgt
      rw [Nat.succ_mul] at this
      omega

/-- Between lists of one length, what follows them does not change their order. -/
theorem lex_append_of_length_eq {u v : List Char} (h : List.Lex (· < ·) u v)
    (hlen : u.length = v.length) (x y : List Char) : List.Lex (· < ·) (u ++ x) (v ++ y) := by
  induction h with
  | nil => exact absurd hlen (by simp only [List.length_nil, List.length_cons]; omega)
  | cons _ ih => exact .cons (ih (Nat.succ.inj hlen))
  | rel h => exact .rel h

end Picoclaw.Go
