import Picoclaw.Go.Strings

/-!
# `net/url.Parse` and `fmt.Sscanf` with `%d`

`url.Parse` cuts the fragment at the first `'#'`, rejects control characters, reads the scheme
(`getScheme`), cuts the query at the first `'?'`, and then takes an opaque rest, a relative
path, or an authority after `"//"`: the userinfo before its last `'@'`, and the host, whose
port after the last `':'` must be digits and whose `'%'` escapes may only encode `%25` and
non-ASCII bytes. The escapes of the path, the userinfo and the fragment must be well formed.
Only the scheme, lowered, and the host, unescaped, are kept (`URL`): they are all
`ParseAddress` reads, so the other fields and the error texts are left out. A host in brackets
is an IP literal, which Go checks with `net/netip`; that branch is the parameter
`parseIPLiteral`. `(*URL).Hostname` and `(*URL).Port` split the host at its last `':'` when a
valid port follows (`splitHostPort`).

A Go string is read here as its characters: every character the parser tests is ASCII, and an
ASCII byte never occurs inside the UTF-8 encoding of another character, so a character test
and a byte test agree. The unescaped host is a byte list.

`fmt.Sscanf(s, "%d", &n)` skips spaces (a newline is an error), reads an optional sign and
then the decimal digits up to the first other character (an underscore too: only `%v` reads
underscores), and converts them with `strconv.ParseInt(tok, 10, 64)`, which rejects values
outside `int64` (`scanInt`).

**The laws**: a decimal scans back to its value (`scanInt_repr`); an authority of letters,
digits, dots, hyphens and a port is read from `<scheme>://<authority>` as it was written
(`urlParse_authority`, with `parseHost_regName_port`), and `Hostname` and `Port` split it back
into the host and the port (`splitHostPort_regName_port`).
-/

namespace Picoclaw.Go

/-! ## Characters -/

/-- `ishex`. -/
def isHex (c : Char) : Bool := c.isDigit || ('a' ≤ c && c ≤ 'f') || ('A' ≤ c && c ≤ 'F')

/-- `unhex` of a hex digit. -/
def unhex (c : Char) : Nat :=
  if c.isDigit then c.toNat - 48
  else if 'a' ≤ c ∧ c ≤ 'f' then c.toNat - 87
  else if 'A' ≤ c ∧ c ≤ 'F' then c.toNat - 55
  else 0

/-- `stringContainsCTLByte`: a byte below `' '`, or DEL. -/
def isCTL (c : Char) : Bool := c.toNat < 0x20 || c.toNat = 0x7f

/-- The ASCII characters besides letters and digits that `shouldEscape(c, encodeHost)` lets
through: the sub-delimiters, `':'`, the brackets, `'<'`, `'>'`, the double quote, and the
marks `-_.~`. -/
def hostSafe : List Char :=
  ['!', '$', '&', Char.ofNat 39, '(', ')', '*', '+', ',', ';', '=', ':', '[', ']', '<', '>',
    Char.ofNat 34, '-', '_', '.', '~']

/-- `shouldEscape(c, encodeHost)` for an ASCII `c`. -/
def shouldEscapeHost (c : Char) : Bool := !(c.isAlphanum || hostSafe.contains c)

/-- The characters besides letters and digits `validUserinfo` accepts. -/
def userinfoSafe : List Char :=
  ['-', '.', '_', ':', '~', '!', '$', '&', Char.ofNat 39, '(', ')', '*', '+', ',', ';', '=',
    '%', '@']

/-- `validUserinfo`. -/
def validUserinfo (s : List Char) : Bool := s.all fun r => r.isAlphanum || userinfoSafe.contains r

/-- The check `unescape` makes in every mode: each `'%'` is followed by two hex digits. -/
def validEscapes : List Char → Bool
  | [] => true
  | c :: rest =>
    if c = '%' then
      match rest with
      | a :: b :: rest' => isHex a && isHex b && validEscapes rest'
      | _ => false
    else validEscapes rest

/-- `unescape(s, encodeHost)`: the bytes of the host, or `none` for a malformed escape, an
escape of an ASCII byte other than `%25`, or an ASCII character the host may not hold. -/
def unescapeHost : List Char → Option (List UInt8)
  | [] => some []
  | c :: rest =>
    if c = '%' then
      match rest with
      | a :: b :: rest' =>
        if isHex a ∧ isHex b ∧ (8 ≤ unhex a ∨ (a = '2' ∧ b = '5')) then
          (unescapeHost rest').map ((unhex a * 16 + unhex b).toUInt8 :: ·)
        else none
      | _ => none
    else if c.toNat < 0x80 ∧ shouldEscapeHost c then none
    else (unescapeHost rest).map (String.utf8EncodeChar c ++ ·)

/-- The parts before and after the last `x` of `l`, as `strings.LastIndex` and slicing give
them. -/
def cutLast {α : Type} [DecidableEq α] (x : α) (l : List α) : Option (List α × List α) :=
  match l.reverse.dropWhile (· ≠ x) with
  | [] => none
  | _ :: before => some (before.reverse, (l.reverse.takeWhile (· ≠ x)).reverse)

/-! ## `url.Parse` -/

/-- The fields of a parsed `*url.URL` that are read here: the scheme, lowered, and the host,
unescaped. -/
structure URL where
  scheme : List Char
  host : List UInt8
  deriving DecidableEq, Repr

/-- The loop of `getScheme`: `acc` holds the scheme read so far. -/
def schemeFrom (rawURL : List Char) : List Char → List Char → Option (List Char × List Char)
  | _, [] => some ([], rawURL)
  | acc, c :: cs =>
    if c.isAlpha then schemeFrom rawURL (acc ++ [c]) cs
    else if c.isDigit ∨ c = '+' ∨ c = '-' ∨ c = '.' then
      if acc = [] then some ([], rawURL) else schemeFrom rawURL (acc ++ [c]) cs
    else if c = ':' then
      if acc = [] then none else some (acc, cs)
    else some ([], rawURL)

/-- `getScheme(rawURL)`: the scheme and the rest; `none` is "missing protocol scheme". -/
def getScheme (rawURL : List Char) : Option (List Char × List Char) := schemeFrom rawURL [] rawURL

section Parse

variable (parseIPLiteral : List Char → Option (List UInt8))

/-- `parseHost`: an IP literal in brackets, or a host whose port, after its last `':'`, is
digits, unescaped. -/
def parseHost (host : List Char) : Option (List UInt8) :=
  if host.head? = some '[' then parseIPLiteral host
  else
    match cutLast ':' host with
    | some (_, port) => if port.all Char.isDigit then unescapeHost host else none
    | none => unescapeHost host

/-- `parseAuthority`: the host after the last `'@'`, then the userinfo before it checked. -/
def parseAuthority (authority : List Char) : Option (List UInt8) :=
  match cutLast '@' authority with
  | none => parseHost parseIPLiteral authority
  | some (userinfo, hostPart) =>
    match parseHost parseIPLiteral hostPart with
    | none => none
    | some host =>
      if !validUserinfo userinfo then none
      else if ':' ∉ userinfo then if validEscapes userinfo then some host else none
      else if validEscapes (userinfo.takeWhile (· ≠ ':')) ∧
          validEscapes ((userinfo.dropWhile (· ≠ ':')).drop 1) then some host
      else none

/-- `parse(rawURL, false)`. -/
def parse (rawURL : List Char) : Option URL :=
  if rawURL.any isCTL then none
  else if rawURL = ['*'] then some ⟨[], []⟩
  else
    match getScheme rawURL with
    | none => none
    | some (scheme, rest) =>
      let scheme := scheme.map Char.toLower
      let rest := rest.takeWhile (· ≠ '?')
      if rest.head? ≠ some '/' ∧ scheme ≠ [] then some ⟨scheme, []⟩
      else if rest.head? ≠ some '/' ∧ ':' ∈ rest.takeWhile (· ≠ '/') then none
      else if (scheme ≠ [] ∨ ¬ ['/', '/', '/'] <+: rest) ∧ ['/', '/'] <+: rest then
        match parseAuthority parseIPLiteral ((rest.drop 2).takeWhile (· ≠ '/')) with
        | none => none
        | some host =>
          if validEscapes ((rest.drop 2).dropWhile (· ≠ '/')) then some ⟨scheme, host⟩
          else none
      else if validEscapes rest then some ⟨scheme, []⟩ else none

/-- `url.Parse(rawURL)`: the fragment after the first `'#'` is cut off and its escapes
checked. -/
def urlParse (rawURL : List Char) : Option URL :=
  match parse parseIPLiteral (rawURL.takeWhile (· ≠ '#')) with
  | none => none
  | some url => if validEscapes ((rawURL.dropWhile (· ≠ '#')).drop 1) then some url else none

end Parse

/-- `splitHostPort(u.Host)`: the host and the port, split at the last `':'` when digits follow
it, with brackets around the host removed. -/
def splitHostPort (hostPort : List UInt8) : List UInt8 × List UInt8 :=
  let (host, port) : List UInt8 × List UInt8 :=
    match cutLast 58 hostPort with
    | some (host, port) =>
      if port.all (fun b => 48 ≤ b && b ≤ 57) then (host, port) else (hostPort, [])
    | none => (hostPort, [])
  if host.head? = some 91 ∧ host.getLast? = some 93 then ((host.drop 1).dropLast, port)
  else (host, port)

/-- `(*URL).Hostname`. -/
def URL.hostname (u : URL) : List UInt8 := (splitHostPort u.host).1

/-- `(*URL).Port`. -/
def URL.port (u : URL) : List UInt8 := (splitHostPort u.host).2

/-! ## `fmt.Sscanf(s, "%d", &n)` -/

/-- The `space` table of `fmt`'s scanner. -/
def fmtIsSpace (c : Char) : Bool :=
  (0x09 ≤ c.toNat && c.toNat ≤ 0x0d) || c.toNat = 0x20 || c.toNat = 0x85 || c.toNat = 0xa0 ||
  c.toNat = 0x1680 || (0x2000 ≤ c.toNat && c.toNat ≤ 0x200a) || c.toNat = 0x2028 ||
  c.toNat = 0x2029 || c.toNat = 0x202f || c.toNat = 0x205f || c.toNat = 0x3000

/-- `SkipSpace` of a scanner that does not take a newline for a space. -/
def skipSpace : List Char → Option (List Char)
  | [] => some []
  | c :: rest =>
    if c = '\n' then none else if fmtIsSpace c then skipSpace rest else some (c :: rest)

/-- `Sscanf(s, "%d", &n)`: the value it stores, or `none` when it fails and leaves `n`. -/
def scanInt (s : List Char) : Option Int :=
  match skipSpace s with
  | none => none
  | some s =>
    let signed := acceptSign s
    let tok := signed.2.takeWhile Char.isDigit
    if tok = [] then none
    else
      let v : Int := if signed.1 then -(decimalValue tok : Int) else decimalValue tok
      if -2 ^ 63 ≤ v ∧ v < 2 ^ 63 then some v else none

example : scanInt " 8443x".data = some 8443 := by decide
example : scanInt "1_0".data = some 1 := by decide
example : scanInt "\n1".data = none := by decide

/-! ## Plain hosts and decimals

The laws are about hosts of letters, digits, `'.'` and `'-'` (`isRegNameChar`): registered
names that need no escapes. Each fact about such a character is about an ASCII character, and
so is checked once on the 128 of them (`forall_ascii`).
-/

/-- A letter, a digit, `'.'` or `'-'`. -/
def isRegNameChar (c : Char) : Bool := c.isAlphanum || c = '.' || c = '-'

/-- To check a property of every ASCII character, check the 128 of them. -/
theorem forall_ascii {P : Char → Prop} (hall : ∀ n : Fin 128, P (Char.ofNat n)) {c : Char}
    (hc : c.toNat < 128) : P c :=
  Char.ofNat_toNat c ▸ hall ⟨c.toNat, hc⟩

theorem toNat_lt_of_le_z {c : Char} (h : c ≤ 'z') : c.toNat < 128 := by
  have : c.toNat ≤ 122 := h
  omega

theorem toNat_lt_of_isRegNameChar {c : Char} (h : isRegNameChar c) : c.toNat < 128 := by
  simp only [isRegNameChar, Char.isAlphanum, Char.isAlpha, Char.isUpper, Char.isLower,
    Char.isDigit, Bool.or_eq_true, Bool.and_eq_true, decide_eq_true_eq] at h
  rcases h with (((⟨-, h⟩ | ⟨-, h⟩) | ⟨-, h⟩) | rfl) | rfl
  · exact toNat_lt_of_le_z (UInt32.le_trans h (by decide))
  · exact toNat_lt_of_le_z h
  · exact toNat_lt_of_le_z (UInt32.le_trans h (by decide))
  all_goals decide

theorem isRegNameChar_of_isAlpha {c : Char} (h : c.isAlpha) : isRegNameChar c := by
  simp [isRegNameChar, Char.isAlphanum, h]

theorem isRegNameChar_of_isDigit {c : Char} (h : c.isDigit) : isRegNameChar c := by
  simp [isRegNameChar, Char.isAlphanum, h]

/-- What reading a URL needs of a character of a plain host, or of the `':'` before its port:
it is ASCII, no control character, needs no escape in a host, and is none of the characters
`url.Parse` cuts at. -/
structure HostChar (c : Char) : Prop where
  ascii : c.toNat < 128
  not_ctl : isCTL c = false
  not_escaped : shouldEscapeHost c = false
  ne_percent : c ≠ '%'
  ne_slash : c ≠ '/'
  ne_query : c ≠ '?'
  ne_hash : c ≠ '#'
  ne_at : c ≠ '@'
  ne_bracket : c ≠ '['

/-- A character of a plain host is moreover no `':'`, and its byte is neither `':'` nor `'['`. -/
structure RegNameChar (c : Char) extends HostChar c : Prop where
  ne_colon : c ≠ ':'
  byte_ne_colon : c.val.toUInt8 ≠ 58
  byte_ne_bracket : c.val.toUInt8 ≠ 91

/-- What `Sscanf` and `splitHostPort` need of a digit: no space, newline or sign, and a byte in
`'0'..'9'`. -/
structure DigitChar (c : Char) : Prop where
  not_space : fmtIsSpace c = false
  ne_newline : c ≠ '\n'
  ne_plus : c ≠ '+'
  ne_minus : c ≠ '-'
  byte_digit : (48 ≤ c.val.toUInt8 && c.val.toUInt8 ≤ 57) = true

theorem regNameChar {c : Char} (h : isRegNameChar c) : RegNameChar c :=
  have hlt := toNat_lt_of_isRegNameChar h
  have ⟨h1, h2, h3, h4, h5, h6, h7, h8, h9, h10, h11⟩ :=
    forall_ascii (P := fun c => isRegNameChar c → isCTL c = false ∧
      shouldEscapeHost c = false ∧ c ≠ '%' ∧ c ≠ '/' ∧ c ≠ '?' ∧ c ≠ '#' ∧ c ≠ '@' ∧ c ≠ '[' ∧
      c ≠ ':' ∧
      c.val.toUInt8 ≠ 58 ∧ c.val.toUInt8 ≠ 91) (by decide) hlt h
  ⟨⟨hlt, h1, h2, h3, h4, h5, h6, h7, h8⟩, h9, h10, h11⟩

theorem hostChar {c : Char} (h : isRegNameChar c ∨ c = ':') : HostChar c := by
  rcases h with h | rfl
  · exact (regNameChar h).toHostChar
  · exact ⟨by decide, rfl, rfl, by decide, by decide, by decide, by decide, by decide,
      by decide⟩

theorem digitChar {c : Char} (h : c.isDigit) : DigitChar c :=
  have ⟨h1, h2, h3, h4, h5⟩ :=
    forall_ascii (P := fun c => c.isDigit → fmtIsSpace c = false ∧ c ≠ '\n' ∧ c ≠ '+' ∧
      c ≠ '-' ∧ (48 ≤ c.val.toUInt8 && c.val.toUInt8 ≤ 57) = true) (by decide)
    (toNat_lt_of_isRegNameChar (isRegNameChar_of_isDigit h)) h
  ⟨h1, h2, h3, h4, h5⟩

/-- An ASCII character is encoded as its one byte. -/
theorem utf8EncodeChar_of_lt {c : Char} (h : c.toNat < 128) :
    String.utf8EncodeChar c = [c.val.toUInt8] := by
  have hle : c.val ≤ 0x7f := by rw [UInt32.le_def, BitVec.le_def]; exact Nat.le_of_lt_succ h
  simp [String.utf8EncodeChar, hle]

theorem flatMap_utf8EncodeChar_of_lt : ∀ {l : List Char}, (∀ c ∈ l, c.toNat < 128) →
    l.flatMap String.utf8EncodeChar = l.map (·.val.toUInt8)
  | [], _ => rfl
  | c :: l, h => by
    rw [List.forall_mem_cons] at h
    rw [List.flatMap_cons, utf8EncodeChar_of_lt h.1, flatMap_utf8EncodeChar_of_lt h.2]
    rfl

/-- An ASCII character read back from its byte. -/
theorem ofNat_toNat_toUInt8 {c : Char} (h : c.toNat < 128) :
    Char.ofNat c.val.toUInt8.toNat = c := by
  have hbyte : c.val.toUInt8.toNat = c.toNat :=
    UInt8.toNat_ofNat_of_lt (show c.toNat < 256 by omega)
  rw [hbyte, Char.ofNat_toNat]

/-- ASCII text read back from its bytes, one character a byte. -/
theorem map_ofNat_flatMap_utf8EncodeChar {l : List Char} (h : ∀ c ∈ l, c.toNat < 128) :
    (l.flatMap String.utf8EncodeChar).map (fun b => Char.ofNat b.toNat) = l := by
  rw [flatMap_utf8EncodeChar_of_lt h, List.map_map]
  exact (List.map_congr_left fun c hc => ofNat_toNat_toUInt8 (h c hc)).trans (List.map_id l)

/-! ## Reading a plain host -/

theorem cutLast_append_cons {α : Type} [DecidableEq α] {x : α} (a : List α) {b : List α}
    (hb : x ∉ b) : cutLast x (a ++ x :: b) = some (a, b) := by
  have hall : ∀ y ∈ b.reverse, decide (y ≠ x) = true := fun y hy =>
    decide_eq_true fun h => hb (List.mem_reverse.mp (h ▸ hy))
  unfold cutLast
  rw [List.reverse_append, List.reverse_cons, List.append_assoc, List.singleton_append,
    List.dropWhile_append_of_pos hall, List.takeWhile_append_of_pos hall]
  simp

theorem cutLast_of_not_mem {α : Type} [DecidableEq α] {x : α} {l : List α} (h : x ∉ l) :
    cutLast x l = none := by
  have hall : ∀ y ∈ l.reverse, decide (y ≠ x) = true := fun y hy =>
    decide_eq_true fun h' => h (List.mem_reverse.mp (h' ▸ hy))
  unfold cutLast
  rw [List.dropWhile_eq_nil_iff.mpr hall]

theorem schemeFrom_alpha (rawURL rest : List Char) :
    ∀ (s acc : List Char), (∀ c ∈ s, c.isAlpha) → acc ++ s ≠ [] →
      schemeFrom rawURL acc (s ++ ':' :: rest) = some (acc ++ s, rest)
  | [], acc, _, hne => by
    have hacc : acc ≠ [] := by simpa using hne
    simp [schemeFrom, hacc]
  | c :: s, acc, h, _ => by
    rw [List.forall_mem_cons] at h
    rw [List.cons_append, schemeFrom, if_pos h.1,
      schemeFrom_alpha rawURL rest s (acc ++ [c]) h.2 (by simp)]
    simp

/-- A scheme of letters is read up to its `':'`. -/
theorem getScheme_alpha {s : List Char} (hs : s ≠ []) (h : ∀ c ∈ s, c.isAlpha)
    (rest : List Char) : getScheme (s ++ ':' :: rest) = some (s, rest) := by
  simpa using schemeFrom_alpha (s ++ ':' :: rest) rest s [] h (by simpa using hs)

theorem unescapeHost_of_hostChars :
    ∀ {l : List Char}, (∀ c ∈ l, isRegNameChar c ∨ c = ':') →
    unescapeHost l = some (l.flatMap String.utf8EncodeChar)
  | [], _ => rfl
  | c :: l, h => by
    rw [List.forall_mem_cons] at h
    rw [unescapeHost.eq_def]
    simp only [(hostChar h.1).ne_percent, (hostChar h.1).not_escaped, if_false,
      Bool.false_eq_true, and_false, unescapeHost_of_hostChars h.2,
      Option.map_some', List.flatMap_cons]

theorem head?_ne_bracket {l : List Char} (h : ∀ c ∈ l, isRegNameChar c ∨ c = ':') :
    l.head? ≠ some '[' := fun hhead =>
  (hostChar (h _ (List.mem_of_mem_head? hhead))).ne_bracket rfl

section Parse

variable (parseIPLiteral : List Char → Option (List UInt8))

theorem parseHost_regName {host : List Char} (hh : ∀ c ∈ host, isRegNameChar c) :
    parseHost parseIPLiteral host = some (host.flatMap String.utf8EncodeChar) := by
  have hA : ∀ c ∈ host, isRegNameChar c ∨ c = ':' := fun c hc => .inl (hh c hc)
  rw [parseHost, if_neg (head?_ne_bracket hA),
    cutLast_of_not_mem fun hc => (regNameChar (hh _ hc)).ne_colon rfl]
  exact unescapeHost_of_hostChars hA

theorem parseHost_regName_port {host ds : List Char} (hh : ∀ c ∈ host, isRegNameChar c)
    (hds : ∀ c ∈ ds, c.isDigit) :
    parseHost parseIPLiteral (host ++ ':' :: ds) =
      some ((host ++ ':' :: ds).flatMap String.utf8EncodeChar) := by
  have hA : ∀ c ∈ host ++ ':' :: ds, isRegNameChar c ∨ c = ':' := by
    simp only [List.mem_append, List.mem_cons]
    rintro c (hc | rfl | hc)
    exacts [.inl (hh c hc), .inr rfl, .inl (isRegNameChar_of_isDigit (hds c hc))]
  have hcolon : ':' ∉ ds := fun hc =>
    (regNameChar (isRegNameChar_of_isDigit (hds _ hc))).ne_colon rfl
  simp only [parseHost, if_neg (head?_ne_bracket hA), cutLast_append_cons host hcolon,
    List.all_eq_true.mpr hds, if_true]
  exact unescapeHost_of_hostChars hA

/-- **`url.Parse` of `<scheme>://<authority>`**, for a scheme of letters and an authority of
plain host characters and `':'`, is the lowered scheme and the host `parseHost` reads. -/
theorem urlParse_authority {scheme authority : List Char} {host : List UInt8}
    (hs : scheme ≠ []) (halpha : ∀ c ∈ scheme, c.isAlpha)
    (hA : ∀ c ∈ authority, isRegNameChar c ∨ c = ':')
    (hhost : parseHost parseIPLiteral authority = some host) :
    urlParse parseIPLiteral (scheme ++ ':' :: '/' :: '/' :: authority) =
      some ⟨scheme.map Char.toLower, host⟩ := by
  have hraw : ∀ c ∈ scheme ++ ':' :: '/' :: '/' :: authority,
      isCTL c = false ∧ c ≠ '?' ∧ c ≠ '#' := by
    have hhost : ∀ c, isRegNameChar c ∨ c = ':' →
        isCTL c = false ∧ c ≠ '?' ∧ c ≠ '#' :=
      fun c hc => ⟨(hostChar hc).not_ctl, (hostChar hc).ne_query, (hostChar hc).ne_hash⟩
    simp only [List.mem_append, List.mem_cons]
    rintro c (hc | rfl | rfl | rfl | hc)
    exacts [hhost c (.inl (isRegNameChar_of_isAlpha (halpha c hc))), hhost _ (.inr rfl),
      by decide, by decide, hhost c (hA c hc)]
  have hslash : ∀ c ∈ authority, decide (c ≠ '/') = true := fun c hc => by
    simpa using (hostChar (hA c hc)).ne_slash
  have hat : '@' ∉ authority := fun hc => (hostChar (hA _ hc)).ne_at rfl
  have hrest : ('/' :: '/' :: authority).takeWhile (· ≠ '?') = '/' :: '/' :: authority :=
    List.takeWhile_eq_self_iff.mpr fun c hc => by
      simpa using (hraw c (List.mem_append_right _ (List.mem_cons_of_mem _ hc))).2.1
  have hstar : scheme ++ ':' :: '/' :: '/' :: authority ≠ ['*'] := fun h => by
    have := congrArg List.length h
    simp at this
    omega
  have hfrag : (scheme ++ ':' :: '/' :: '/' :: authority).takeWhile (· ≠ '#') =
      scheme ++ ':' :: '/' :: '/' :: authority :=
    List.takeWhile_eq_self_iff.mpr fun c hc => decide_eq_true (hraw c hc).2.2
  have hnofrag : (scheme ++ ':' :: '/' :: '/' :: authority).dropWhile (· ≠ '#') = [] :=
    List.dropWhile_eq_nil_iff.mpr fun c hc => decide_eq_true (hraw c hc).2.2
  have hctl : (scheme ++ ':' :: '/' :: '/' :: authority).any isCTL = false :=
    List.any_eq_false.mpr fun c hc => by simp [(hraw c hc).1]
  have hparse : parseAuthority parseIPLiteral authority = some host := by
    unfold parseAuthority
    rw [cutLast_of_not_mem hat]
    exact hhost
  rw [urlParse, hfrag, hnofrag]
  simp only [parse, hctl, hstar, getScheme_alpha hs halpha, hrest, List.drop_succ_cons,
    List.drop_zero, List.takeWhile_eq_self_iff.mpr hslash, List.dropWhile_eq_nil_iff.mpr hslash,
    hparse, Bool.false_eq_true, if_false]
  simp [hs, validEscapes]

end Parse

theorem head?_map_ne_bracket {host : List Char} (hh : ∀ c ∈ host, isRegNameChar c) :
    (host.map (·.val.toUInt8)).head? ≠ some 91 := by
  cases host with
  | nil => simp
  | cons c _ => simpa using (regNameChar (hh c (List.mem_cons_self _ _))).byte_ne_bracket

/-- A plain host has no port. -/
theorem splitHostPort_regName {host : List Char} (hh : ∀ c ∈ host, isRegNameChar c) :
    splitHostPort (host.flatMap String.utf8EncodeChar) =
      (host.flatMap String.utf8EncodeChar, []) := by
  rw [flatMap_utf8EncodeChar_of_lt fun c hc => toNat_lt_of_isRegNameChar (hh c hc)]
  have h58 : (58 : UInt8) ∉ host.map (·.val.toUInt8) := by
    simpa using fun c hc => (regNameChar (hh c hc)).byte_ne_colon
  unfold splitHostPort
  rw [cutLast_of_not_mem h58]
  dsimp only
  rw [if_neg fun h => head?_map_ne_bracket hh h.1]

/-- A plain host and a decimal port split at the `':'`. -/
theorem splitHostPort_regName_port {host ds : List Char} (hh : ∀ c ∈ host, isRegNameChar c)
    (hds : ∀ c ∈ ds, c.isDigit) :
    splitHostPort ((host ++ ':' :: ds).flatMap String.utf8EncodeChar) =
      (host.flatMap String.utf8EncodeChar, ds.flatMap String.utf8EncodeChar) := by
  have hhost := fun c hc => toNat_lt_of_isRegNameChar (hh c hc)
  have hdigits := fun c hc => toNat_lt_of_isRegNameChar (isRegNameChar_of_isDigit (hds c hc))
  have hcolon : String.utf8EncodeChar ':' = [58] := by decide
  rw [List.flatMap_append, List.flatMap_cons, hcolon, flatMap_utf8EncodeChar_of_lt hhost,
    flatMap_utf8EncodeChar_of_lt hdigits, List.singleton_append]
  have h58 : (58 : UInt8) ∉ ds.map (·.val.toUInt8) := by
    simpa using fun c hc => (regNameChar (isRegNameChar_of_isDigit (hds c hc))).byte_ne_colon
  have hport : (ds.map (·.val.toUInt8)).all (fun b => 48 ≤ b && b ≤ 57) := by
    simpa using fun c hc => (digitChar (hds c hc)).byte_digit
  unfold splitHostPort
  rw [cutLast_append_cons _ h58]
  dsimp only
  rw [if_pos hport, if_neg fun h => head?_map_ne_bracket hh h.1]

/-! ## Reading a decimal -/

/-- **`Sscanf` with `%d` reads digits as their value**, in the range of `int64`. -/
theorem scanInt_digits {ds : List Char} (hne : ds ≠ []) (hds : ∀ c ∈ ds, c.isDigit)
    (hlt : decimalValue ds < 2 ^ 63) : scanInt ds = some (decimalValue ds) := by
  obtain ⟨d, rest, rfl⟩ := List.exists_cons_of_ne_nil hne
  have hd := digitChar (hds d (List.mem_cons_self _ _))
  have htok : (d :: rest).takeWhile Char.isDigit = d :: rest :=
    List.takeWhile_eq_self_iff.mpr hds
  have hsign : acceptSign (d :: rest) = (false, d :: rest) := by
    simp [acceptSign, hd.ne_plus, hd.ne_minus]
  simp only [scanInt, skipSpace, hd.ne_newline, hd.not_space, if_false, Bool.false_eq_true, hsign,
    htok]
  simp
  omega

/-- A decimal below `2^63` scans back to its value. -/
theorem scanInt_repr {n : Nat} (h : n < 2 ^ 63) : scanInt (Nat.repr n).data = some n := by
  have := scanInt_digits (repr_data_ne_nil n) (fun c hc => isDigit_of_mem_repr hc)
    (by rwa [decimalValue_repr])
  rwa [decimalValue_repr] at this

end Picoclaw.Go
