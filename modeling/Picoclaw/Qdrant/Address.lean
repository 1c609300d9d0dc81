import Picoclaw.Go.Url

/-!
# The Qdrant address

`ParseAddress` turns the configured address into the host, the gRPC port and the TLS flag of
the Qdrant client. An address holding `"://"` is read by `url.Parse`: the hostname, the port,
and TLS for the scheme `https`; an address `url.Parse` rejects is kept whole as the host. Any
other address is split at `':'` and, when that gives exactly two parts, read as host and port.
Either way the REST port 6333 becomes the gRPC port 6334, another port is read with `Sscanf`
(`portOf`), and the port defaults to 6334. Go's bracketed IPv6 literals are checked by
`net/netip`, which is the parameter `parseIPLiteral` here.

**The law** (`parseAddress_agrees`): for a host of letters, digits, `'.'` and `'-'` and a port
up to 65535, `host:port`, `http://host:port` and `https://host:port` all give the host and the
port (6333 read as 6334), with TLS for `https` only, and the three forms without a port give
the port 6334: the hand-split path and the `url.Parse` path agree. The hand-split path is
`parseAddress_bare_port` and `parseAddress_bare`, the `url.Parse` path `parseAddress_url_port`
and `parseAddress_url`.
-/

namespace Picoclaw.Qdrant

open Picoclaw.Go

/-- The port `ParseAddress` keeps for the text after the host: 6334 for the REST port 6333,
else what `Sscanf(p, "%d", &port)` reads, else the default 6334 it leaves. -/
def portOf (p : List Char) : Int := if p = "6333".data then 6334 else (scanInt p).getD 6334

section Address

variable (parseIPLiteral : List Char → Option (List UInt8))

/-- `ParseAddress(rawURL)`: the host (as bytes), the port and whether to use TLS. The port of
a parsed URL is digits (`splitHostPort`), so reading its bytes as characters is exact. -/
def parseAddress (rawURL : String) : List UInt8 × Int × Bool :=
  if contains rawURL "://" then
    match urlParse parseIPLiteral rawURL.data with
    | none => (bytes rawURL, 6334, false)
    | some u =>
      let p := u.port.map fun b => Char.ofNat b.toNat
      (u.hostname, if p = [] then 6334 else portOf p, u.scheme = "https".data)
  else
    match split rawURL ":" with
    | [host, p] => (bytes host, portOf p.data, false)
    | _ => (bytes rawURL, 6334, false)

example : parseAddress (fun _ => none) "localhost:x" = (bytes "localhost", 6334, false) := by
  decide

end Address

/-- A decimal port is itself, but 6333 is 6334. -/
theorem portOf_repr {n : Nat} (hn : n < 2 ^ 63) :
    portOf (Nat.repr n).data = if n = 6333 then 6334 else (n : Int) := by
  by_cases h : n = 6333
  · subst h
    decide
  · have hne : (Nat.repr n).data ≠ "6333".data := fun e => h (by
      rw [← decimalValue_repr n, e]
      decide)
    rw [portOf, if_neg hne, if_neg h, scanInt_repr hn]
    rfl

/-- A text with no `'/'` holds no `"://"`. -/
theorem contains_scheme_sep_of_not_mem {s : String} (h : '/' ∉ s.data) :
    contains s "://" = false := by
  have hnone : index s.data "://".data = none :=
    index_eq_none_of_not_mem (show '/' ∈ "://".data by decide) h
  simp [contains, hnone]

/-- A text with a `"://"` in it holds `"://"`. -/
theorem contains_scheme_sep {s : String} {a b : List Char}
    (h : s.data = a ++ ':' :: '/' :: '/' :: b) : contains s "://" = true := by
  have hsep : (index [':', '/', '/'] "://".data).isSome := by decide
  have := index_append_isSome b (index_append_isSome_of_right _ hsep a)
  rw [contains, h]
  simpa using this

/-- The characters of `host:port`: a plain host, the `':'`, and the digits. -/
theorem hostPort_chars {h : String} (hh : ∀ c ∈ h.data, isRegNameChar c) (n : Nat) :
    ∀ c ∈ h.data ++ ':' :: (Nat.repr n).data, isRegNameChar c ∨ c = ':' := by
  simp only [List.mem_append, List.mem_cons]
  rintro c (hc | rfl | hc)
  exacts [.inl (hh c hc), .inr rfl, .inl (isRegNameChar_of_isDigit (isDigit_of_mem_repr hc))]

theorem hostPort_data (h p : String) : (h ++ ":" ++ p).data = h.data ++ ':' :: p.data := by
  rw [String.data_append, String.data_append, List.append_assoc]
  rfl

/-- `strings.Split` of `host:port` at `':'`. -/
theorem split_hostPort {h p : String} (hh : ':' ∉ h.data) (hp : ':' ∉ p.data) :
    split (h ++ ":" ++ p) ":" = [h, p] :=
  calc split (h ++ ":" ++ p) ":" = ((h ++ ":" ++ p).data.splitOn ':').map String.mk :=
        split_eq_splitOn _ ':'
    _ = [h, p] := by
        rw [hostPort_data, splitOn_append_cons, splitOn_of_not_mem hh, splitOn_of_not_mem hp]
        rfl

section Address

variable (parseIPLiteral : List Char → Option (List UInt8))

/-- **The hand-split path** with a port. -/
theorem parseAddress_bare_port {h : String} (hh : ∀ c ∈ h.data, isRegNameChar c) {n : Nat}
    (hn : n < 2 ^ 63) :
    parseAddress parseIPLiteral (h ++ ":" ++ Nat.repr n) =
      (bytes h, if n = 6333 then 6334 else (n : Int), false) := by
  have hchars := hostPort_chars hh n
  have hslash : '/' ∉ (h ++ ":" ++ Nat.repr n).data := fun hc =>
    (hostChar (hchars _ (hostPort_data h _ ▸ hc))).ne_slash rfl
  have hcolon : ':' ∉ (Nat.repr n).data := fun hc =>
    (regNameChar (isRegNameChar_of_isDigit (isDigit_of_mem_repr hc))).ne_colon rfl
  simp only [parseAddress, contains_scheme_sep_of_not_mem hslash, Bool.false_eq_true, if_false,
    split_hostPort (fun hc => (regNameChar (hh _ hc)).ne_colon rfl) hcolon, portOf_repr hn]

/-- **The hand-split path** without a port. -/
theorem parseAddress_bare {h : String} (hh : ∀ c ∈ h.data, isRegNameChar c) :
    parseAddress parseIPLiteral h = (bytes h, 6334, false) := by
  have hslash : '/' ∉ h.data := fun hc => (regNameChar (hh _ hc)).ne_slash rfl
  have hsplit : split h ":" = [h] :=
    (split_eq_splitOn h ':').trans (by
      rw [splitOn_of_not_mem fun hc => (regNameChar (hh _ hc)).ne_colon rfl]
      rfl)
  simp only [parseAddress, contains_scheme_sep_of_not_mem hslash, Bool.false_eq_true, if_false,
    hsplit]

/-- **The `url.Parse` path** with a port. -/
theorem parseAddress_url_port {scheme h : String} (hs : scheme.data ≠ [])
    (halpha : ∀ c ∈ scheme.data, c.isAlpha) (hh : ∀ c ∈ h.data, isRegNameChar c) {n : Nat}
    (hn : n < 2 ^ 63) :
    parseAddress parseIPLiteral (scheme ++ "://" ++ h ++ ":" ++ Nat.repr n) =
      (bytes h, if n = 6333 then 6334 else (n : Int),
        decide (scheme.data.map Char.toLower = "https".data)) := by
  have hraw : (scheme ++ "://" ++ h ++ ":" ++ Nat.repr n).data =
      scheme.data ++ ':' :: '/' :: '/' :: (h.data ++ ':' :: (Nat.repr n).data) := by
    simp only [String.data_append, List.append_assoc]
    rfl
  have hdigits : ∀ c ∈ (Nat.repr n).data, c.isDigit := fun c hc => isDigit_of_mem_repr hc
  have hport := map_ofNat_flatMap_utf8EncodeChar fun c hc =>
    toNat_lt_of_isRegNameChar (isRegNameChar_of_isDigit (hdigits c hc))
  simp only [parseAddress, contains_scheme_sep hraw, if_true, hraw,
    urlParse_authority parseIPLiteral hs halpha (hostPort_chars hh n)
      (parseHost_regName_port parseIPLiteral hh hdigits),
    URL.hostname, URL.port, splitHostPort_regName_port hh hdigits, hport, repr_data_ne_nil,
    if_false, portOf_repr hn, bytes_eq_flatMap]

/-- **The `url.Parse` path** without a port. -/
theorem parseAddress_url {scheme h : String} (hs : scheme.data ≠ [])
    (halpha : ∀ c ∈ scheme.data, c.isAlpha) (hh : ∀ c ∈ h.data, isRegNameChar c) :
    parseAddress parseIPLiteral (scheme ++ "://" ++ h) =
      (bytes h, 6334, decide (scheme.data.map Char.toLower = "https".data)) := by
  have hraw : (scheme ++ "://" ++ h).data = scheme.data ++ ':' :: '/' :: '/' :: h.data := by
    simp only [String.data_append, List.append_assoc]
    rfl
  simp only [parseAddress, contains_scheme_sep hraw, if_true, hraw,
    urlParse_authority parseIPLiteral hs halpha (fun c hc => .inl (hh c hc))
      (parseHost_regName parseIPLiteral hh),
    URL.hostname, URL.port, splitHostPort_regName hh, List.map_nil, bytes_eq_flatMap]

/-- **The bare address and the URL agree.** For every host `h` of letters, digits, `'.'` and
`'-'` and every port `n` up to 65535, `h:n`, `http://h:n` and `https://h:n` give `h` and the
port `n`, 6333 read as 6334, with TLS for `https` only; `h`, `http://h` and `https://h` give
`h` and the port 6334. -/
theorem parseAddress_agrees (h : String) (hh : ∀ c ∈ h.data, isRegNameChar c) (n : Nat)
    (hn : n ≤ 65535) :
    let p : Int := if n = 6333 then 6334 else n
    parseAddress parseIPLiteral (h ++ ":" ++ Nat.repr n) = (bytes h, p, false) ∧
    parseAddress parseIPLiteral ("http://" ++ h ++ ":" ++ Nat.repr n) = (bytes h, p, false) ∧
    parseAddress parseIPLiteral ("https://" ++ h ++ ":" ++ Nat.repr n) = (bytes h, p, true) ∧
    parseAddress parseIPLiteral h = (bytes h, 6334, false) ∧
    parseAddress parseIPLiteral ("http://" ++ h) = (bytes h, 6334, false) ∧
    parseAddress parseIPLiteral ("https://" ++ h) = (bytes h, 6334, true) := by
  have hn' : n < 2 ^ 63 := by omega
  have hhttp : "http://" = "http" ++ "://" := rfl
  have hhttps : "https://" = "https" ++ "://" := rfl
  have hs : "http".data ≠ [] ∧ ∀ c ∈ "http".data, c.isAlpha := by decide
  have hs' : "https".data ≠ [] ∧ ∀ c ∈ "https".data, c.isAlpha := by decide
  rw [hhttp, hhttps, parseAddress_url_port parseIPLiteral hs.1 hs.2 hh hn',
    parseAddress_url_port parseIPLiteral hs'.1 hs'.2 hh hn',
    parseAddress_url parseIPLiteral hs.1 hs.2 hh, parseAddress_url parseIPLiteral hs'.1 hs'.2 hh]
  exact ⟨parseAddress_bare_port parseIPLiteral hh hn', rfl, rfl,
    parseAddress_bare parseIPLiteral hh, rfl, rfl⟩

end Address

/-- The test's `https://qdrant.example.com:8443`: the host, the port 8443, and TLS. -/
theorem qdrant_https_address_agrees :
    (∀ c ∈ "qdrant.example.com".data, isRegNameChar c) ∧ 8443 ≤ 65535 ∧
      parseAddress (fun _ => none) ("https://" ++ "qdrant.example.com" ++ ":" ++ Nat.repr 8443) =
        (bytes "qdrant.example.com", 8443, true) :=
  have hh : ∀ c ∈ "qdrant.example.com".data, isRegNameChar c := by decide
  ⟨hh, by decide,
    (parseAddress_agrees (fun _ => none) "qdrant.example.com" hh 8443 (by decide)).2.2.1⟩

end Picoclaw.Qdrant
