import ActixHttp.Message.Basic
/-!
# Reading the headers (`HttpMessage::content_type`, `encoding`, `chunked`, `Content-Length`)

The negotiation half of `HttpMessage` (`src/httpmessage.rs:57-113`) and the
`Content-Length` block that `MessageBody::new` and `UrlEncoded::new` share
(`readContentLength`). Header values become text through `HeaderValue::to_str`, which
accepts visible ASCII and tab only; every such value is UTF-8 (`toStr_valid`), so the
`&str` results are modelled by their bytes.

`s.parse::<usize>()` is the standard library's: an optional `+`, then at least one
decimal digit, with a value at most `usize::MAX` (64-bit).

Results:
* `readContentLength_decimal`: a `Content-Length` written as `toString n` is read back
  as `n` when `n ≤ usize::MAX`, and reported as the caller's `UnknownLength` above.
-/
namespace ActixHttp

/-- `is_visible_ascii` of `http::HeaderValue`. -/
def isVisibleAscii (b : UInt8) : Bool := (32 ≤ b && b < 127) || b == 9

theorem lt_of_isVisibleAscii {b : UInt8} (h : isVisibleAscii b = true) : b < 0x80 := by
  simp only [isVisibleAscii, Bool.or_eq_true, Bool.and_eq_true, decide_eq_true_eq,
    beq_iff_eq] at h
  rcases h with ⟨-, h⟩ | rfl
  · exact UInt8.lt_trans h (by decide)
  · decide

theorem toStr_valid {v : HeaderValue} (h : v.all isVisibleAscii = true) :
    Utf8.valid v = true :=
  Utf8.valid_of_ascii fun b hb => lt_of_isVisibleAscii (List.all_eq_true.1 h b hb)

/-- `HeaderValue::to_str`. -/
def HeaderValue.toStr (v : HeaderValue) : Option RStr :=
  if h : v.all isVisibleAscii = true then some ⟨v, toStr_valid h⟩ else none

/-- The bytes of an ASCII string literal. -/
def ascii (s : String) : Bytes := s.toList.map (·.toNat.toUInt8)

/-- `char::is_whitespace` on an ASCII byte. -/
def isAsciiWhitespace (b : UInt8) : Bool := b == 32 || (9 ≤ b && b ≤ 13)

/-- `str::trim` on ASCII text. -/
def trimAscii (bs : Bytes) : Bytes :=
  ((bs.dropWhile isAsciiWhitespace).reverse.dropWhile isAsciiWhitespace).reverse

/-- `str::to_lowercase` on ASCII text. -/
def toLowercase (bs : Bytes) : Bytes :=
  bs.map fun b => if 65 ≤ b ∧ b ≤ 90 then b + 32 else b

/-- `str::contains` for a byte pattern. -/
def containsBytes (needle : Bytes) : Bytes → Bool
  | [] => needle.isEmpty
  | b :: bs => needle.isPrefixOf (b :: bs) || containsBytes needle bs

def isDigit (b : UInt8) : Bool := 48 ≤ b && b ≤ 57

/-- The digits of `s.parse::<usize>()`: one leading `+` is dropped. -/
def usizeDigits (s : Bytes) : Bytes := if s.head? = some 43 then s.tail else s

/-- `usize::MAX` on a 64-bit target. -/
def usizeMax : Nat := 18446744073709551615

def decimal (ds : Bytes) : Nat := ds.foldl (fun acc d => acc * 10 + (d.toNat - 48)) 0

/-- `s.parse::<usize>()`. -/
def parseUsize (s : Bytes) : Option Nat :=
  if usizeDigits s ≠ [] ∧ (usizeDigits s).all isDigit = true ∧
      decimal (usizeDigits s) ≤ usizeMax then some (decimal (usizeDigits s))
  else none

theorem parseUsize_le {s : Bytes} {n : Nat} (h : parseUsize s = some n) : n ≤ usizeMax := by
  unfold parseUsize at h
  split_ifs at h with hc
  cases h
  exact hc.2.2

/-! ### What a client writes: the digits of `toString n` -/

/-- The byte of a decimal digit of `Nat.toDigits`. -/
theorem digitChar_byte : ∀ k < 10, ((Nat.digitChar k).toNat.toUInt8).toNat = 48 + k ∧
    isDigit (Nat.digitChar k).toNat.toUInt8 = true := by decide

theorem toDigitsCore_succ (fuel n : Nat) (ds : List Char) :
    Nat.toDigitsCore 10 (fuel + 1) n ds =
      if n / 10 = 0 then Nat.digitChar (n % 10) :: ds
      else Nat.toDigitsCore 10 fuel (n / 10) (Nat.digitChar (n % 10) :: ds) := rfl

theorem toDigitsCore_acc : ∀ (fuel n : Nat) (ds : List Char),
    Nat.toDigitsCore 10 fuel n ds = Nat.toDigitsCore 10 fuel n [] ++ ds
  | 0, _, ds => rfl
  | fuel + 1, n, ds => by
    rw [toDigitsCore_succ, toDigitsCore_succ]
    split
    · rfl
    · rw [toDigitsCore_acc fuel _ (_ :: ds), toDigitsCore_acc fuel _ [_]]
      simp

theorem toDigitsCore_ne_nil (fuel n : Nat) : Nat.toDigitsCore 10 (fuel + 1) n [] ≠ [] := by
  rw [toDigitsCore_succ]
  split
  · exact List.cons_ne_nil _ _
  · rw [toDigitsCore_acc]; simp

theorem decimal_snoc (ds : Bytes) (d : UInt8) :
    decimal (ds ++ [d]) = decimal ds * 10 + (d.toNat - 48) := by
  simp [decimal, List.foldl_append]

/-- Reading back the digits `toDigits` prints gives the number. -/
theorem decimal_toDigitsCore : ∀ (fuel n : Nat), n < fuel →
    decimal ((Nat.toDigitsCore 10 fuel n []).map (·.toNat.toUInt8)) = n ∧
      ((Nat.toDigitsCore 10 fuel n []).map (·.toNat.toUInt8)).all isDigit = true
  | 0, _, h => absurd h (Nat.not_lt_zero _)
  | fuel + 1, n, h => by
    obtain ⟨hb, hd⟩ := digitChar_byte (n % 10) (Nat.mod_lt _ (by decide))
    rw [toDigitsCore_succ]
    split
    · simp only [List.map_cons, List.map_nil, List.all_cons, List.all_nil, hd, Bool.and_true]
      refine ⟨?_, trivial⟩
      simp only [decimal, List.foldl_cons, List.foldl_nil, hb]
      omega
    · rw [toDigitsCore_acc, List.map_append, List.all_append, List.map_singleton, decimal_snoc, hb]
      obtain ⟨ih1, ih2⟩ := decimal_toDigitsCore fuel (n / 10) (by omega)
      exact ⟨by rw [ih1]; omega, by simp [ih2, hd]⟩

theorem visible_of_isDigit {b : UInt8} (h : isDigit b = true) : isVisibleAscii b = true := by
  simp only [isDigit, Bool.and_eq_true, decide_eq_true_eq] at h
  simp only [isVisibleAscii, Bool.or_eq_true, Bool.and_eq_true, decide_eq_true_eq]
  exact .inl ⟨UInt8.le_trans (by decide) h.1,
    UInt8.not_le.1 fun h' => absurd (UInt8.le_trans h' h.2) (by decide)⟩

namespace HttpMessage

/-- `HttpMessage::content_type`: the trimmed text before the first `;` of
`Content-Type`, empty when the header is absent or not text. -/
def contentType (hdrs : HeaderMap) : Bytes :=
  match hdrs.get header.contentType with
  | some v =>
    match v.toStr with
    | some s => trimAscii (s.bytes.takeWhile (· != 59))
    | none => []
  | none => []

/-- `HttpMessage::mime_type`. -/
def mimeType (d : Deps) (hdrs : HeaderMap) : Except ContentTypeError (Option d.Mime) :=
  match hdrs.get header.contentType with
  | some v =>
    match v.toStr with
    | some s =>
      match d.parseMime s with
      | some mt => .ok (some mt)
      | none => .error .parseError
    | none => .error .parseError
  | none => .ok none

/-- `HttpMessage::encoding`: the `charset` parameter's charset, UTF-8 by default. -/
def encoding (d : Deps) (hdrs : HeaderMap) : Except ContentTypeError Encoding :=
  match mimeType d hdrs with
  | .error e => .error e
  | .ok (some mt) =>
    match d.charset mt with
    | some cs =>
      match d.encodingFromWhatwgLabel cs with
      | some enc => .ok enc
      | none => .error .unknownEncoding
    | none => .ok .utf8
  | .ok none => .ok .utf8

/-- `HttpMessage::chunked`. -/
def chunked (hdrs : HeaderMap) : Except ParseError Bool :=
  match hdrs.get header.transferEncoding with
  | some v =>
    match v.toStr with
    | some s => .ok (containsBytes (ascii "chunked") (toLowercase s.bytes))
    | none => .error .header
  | none => .ok false

/-- The `Content-Length` block of `MessageBody::new` and `UrlEncoded::new`, each with
its own `UnknownLength`: absent, the declared `usize`, or `unknown` when the value is
not text or not a `usize`. -/
def readContentLength {ε : Type} (unknown : ε) (hdrs : HeaderMap) : Except ε (Option Nat) :=
  match hdrs.get header.contentLength with
  | some l =>
    match l.toStr with
    | some s =>
      match parseUsize s.bytes with
      | some n => .ok (some n)
      | none => .error unknown
    | none => .error unknown
  | none => .ok none

/-- The error passed in is only ever reported as it is, so relabelling it commutes. -/
theorem readContentLength_mapError {ε ε' : Type} (f : ε → ε') (unknown : ε) (hdrs : HeaderMap) :
    (readContentLength unknown hdrs).mapError f = readContentLength (f unknown) hdrs := by
  unfold readContentLength
  split
  · split
    · split <;> rfl
    · rfl
  · rfl

theorem encoding_of_no_contentType {d : Deps} {hdrs : HeaderMap}
    (h : hdrs.get header.contentType = none) : encoding d hdrs = .ok .utf8 := by
  simp [encoding, mimeType, h]

/-- A declared length is a `usize`, and an error is only ever the one passed in. -/
theorem readContentLength_cases {ε : Type} (unknown : ε) (hdrs : HeaderMap) :
    readContentLength unknown hdrs = .error unknown ∨
      ∃ len : Option Nat, readContentLength unknown hdrs = .ok len ∧ ∀ n ∈ len, n ≤ usizeMax := by
  unfold readContentLength
  split
  · split
    · split
      · next n hn => exact .inr ⟨some n, rfl, fun m hm => by cases hm; exact parseUsize_le hn⟩
      · exact .inl rfl
    · exact .inl rfl
  · exact .inr ⟨none, rfl, fun _ h => by cases h⟩

/-- Round trip: a `Content-Length` written as `toString n` is read back as `n` up to
`usize::MAX`; above it, `parse::<usize>` fails and the block reports `unknown`, not an
overflow. -/
theorem readContentLength_decimal {ε : Type} (unknown : ε) (hdrs : HeaderMap) (n : Nat)
    (h : hdrs.get header.contentLength = some (ascii (toString n))) :
    readContentLength unknown hdrs = if n ≤ usizeMax then .ok (some n) else .error unknown := by
  have hb : ascii (toString n) = (Nat.toDigitsCore 10 (n + 1) n []).map (·.toNat.toUInt8) := rfl
  obtain ⟨hdec, hall⟩ := decimal_toDigitsCore (n + 1) n (Nat.lt_succ_self n)
  rw [← hb] at hdec hall
  have hne : ascii (toString n) ≠ [] := by rw [hb]; simpa using toDigitsCore_ne_nil n n
  have hvis : (ascii (toString n)).all isVisibleAscii = true :=
    List.all_eq_true.2 fun b hm => visible_of_isDigit (List.all_eq_true.1 hall b hm)
  have hus : usizeDigits (ascii (toString n)) = ascii (toString n) := by
    cases hc : ascii (toString n) with
    | nil => exact absurd hc hne
    | cons d ds =>
      have hd : isDigit d = true := List.all_eq_true.1 hall d (by simp [hc])
      have : d ≠ 43 := fun e => by subst e; cases hd
      simp [usizeDigits, this]
  simp only [readContentLength, h, HeaderValue.toStr, hvis, dif_pos, parseUsize, hus, hdec, hne, hall]
  by_cases hn : n ≤ usizeMax <;> simp [hn, hne]

/-- `2^64` bytes declared: one more than `usize::MAX`. -/
theorem readContentLength_decimal_over :
    HeaderMap.get [("content-length", ascii (toString 18446744073709551616))] header.contentLength =
        some (ascii (toString 18446744073709551616)) ∧
      readContentLength PayloadError.unknownLength
          [("content-length", ascii (toString 18446744073709551616))] =
        if 18446744073709551616 ≤ usizeMax then .ok (some 18446744073709551616)
        else .error PayloadError.unknownLength :=
  ⟨rfl, readContentLength_decimal _ _ _ rfl⟩

end HttpMessage

/-- The crates with no charset parameter anywhere: every `Content-Type` parses and names
none, so every message is read as UTF-8. -/
def Deps.plain : Deps where
  Mime := Unit
  parseMime _ := some ()
  charset _ := none
  encodingFromWhatwgLabel _ := none

end ActixHttp
