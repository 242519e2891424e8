import Mathlib.Data.List.Basic
/-!
# UTF-8 text (`str::from_utf8`)

`src/httpmessage.rs` turns bytes into text in three places: `str::from_utf8` on a
`Cookie` header (`HttpMessage::cookies`), on a line of `Readlines` when the charset is
UTF-8, and `HeaderValue::to_str` on header values. A Rust `str` is its bytes, known to
be well-formed UTF-8; `RStr` is that, with the proof as a field.

`decode` follows the well-formed byte sequences of the Unicode standard (Table 3-7),
which is what `str::from_utf8` accepts: no overlong forms, no surrogates, nothing above
U+10FFFF.

Results:
* `decode_ascii`: a string of ASCII bytes decodes byte for byte, so every value
  `HeaderValue::to_str` accepts is text (`valid_of_ascii`).
* `valid_split_ascii`: an ASCII byte is always a character boundary, so bytes split at
  one are text exactly when both sides are; cutting valid text after any newline leaves
  two valid texts (`valid_split_newline`).
-/
namespace ActixHttp

abbrev Bytes := List UInt8

namespace Utf8

/-- The decoder of `str::from_utf8` as the byte-at-a-time automaton of Table 3-7: `need`
continuation bytes are still expected for the character whose bits so far are `acc`,
and the next one must lie in `lo..hi` (the narrower second-byte ranges after `E0`,
`ED`, `F0` and `F4` exclude overlong forms, surrogates and values above U+10FFFF). -/
def decodeFrom : Nat → UInt8 → UInt8 → Nat → Bytes → Option (List Char)
  | 0, _, _, _, [] => some []
  | 0, _, _, _, b :: bs =>
    if b < 0x80 then (decodeFrom 0 0 0 0 bs).map (Char.ofNat b.toNat :: ·)
    else if b < 0xC2 then none
    else if b < 0xE0 then decodeFrom 1 0x80 0xBF (b.toNat - 0xC0) bs
    else if b < 0xF0 then
      decodeFrom 2 (if b = 0xE0 then 0xA0 else 0x80) (if b = 0xED then 0x9F else 0xBF)
        (b.toNat - 0xE0) bs
    else if b < 0xF5 then
      decodeFrom 3 (if b = 0xF0 then 0x90 else 0x80) (if b = 0xF4 then 0x8F else 0xBF)
        (b.toNat - 0xF0) bs
    else none
  | _ + 1, _, _, _, [] => none
  | n + 1, lo, hi, acc, b :: bs =>
    if lo ≤ b ∧ b ≤ hi then
      if n = 0 then (decodeFrom 0 0 0 0 bs).map (Char.ofNat (acc * 0x40 + (b.toNat - 0x80)) :: ·)
      else decodeFrom n 0x80 0xBF (acc * 0x40 + (b.toNat - 0x80)) bs
    else none

/-- The characters of a well-formed UTF-8 byte string, `none` if it is not one. -/
def decode (bs : Bytes) : Option (List Char) := decodeFrom 0 0 0 0 bs

/-- `str::from_utf8(bytes).is_ok()`. -/
def valid (bs : Bytes) : Bool := (decode bs).isSome

end Utf8

/-- A Rust `str` or `String`: bytes that are well-formed UTF-8. -/
structure RStr where
  bytes : Bytes
  valid : Utf8.valid bytes = true

/-- The characters of the text. -/
def RStr.chars (s : RStr) : List Char := (Utf8.decode s.bytes).get s.valid

/-- `str::from_utf8`: the same bytes, viewed as text, when they are well-formed. -/
def fromUtf8 (bs : Bytes) : Option RStr :=
  if h : Utf8.valid bs = true then some ⟨bs, h⟩ else none

theorem fromUtf8_bytes {bs : Bytes} {s : RStr} (h : fromUtf8 bs = some s) : s.bytes = bs := by
  unfold fromUtf8 at h
  split at h
  · cases h; rfl
  · cases h

theorem fromUtf8_isSome (bs : Bytes) : (fromUtf8 bs).isSome = Utf8.valid bs := by
  unfold fromUtf8; split <;> simp_all

namespace Utf8

/-- Between characters the automaton's other registers are unused. -/
theorem decodeFrom_zero (lo hi : UInt8) (acc : Nat) (bs : Bytes) :
    decodeFrom 0 lo hi acc bs = decode bs := by
  cases bs <;> rfl

theorem decode_ascii_cons {b : UInt8} (hb : b < 0x80) (bs : Bytes) :
    decode (b :: bs) = (decode bs).map (Char.ofNat b.toNat :: ·) := by
  simp only [decode, decodeFrom, if_pos hb]

theorem decode_ascii : ∀ bs : Bytes, (∀ b ∈ bs, b < 0x80) →
    decode bs = some (bs.map fun b => Char.ofNat b.toNat)
  | [], _ => rfl
  | b :: bs, h => by
    rw [decode_ascii_cons (h b (List.mem_cons_self _ _)),
      decode_ascii bs fun x hx => h x (List.mem_cons_of_mem _ hx)]
    rfl

theorem valid_of_ascii {bs : Bytes} (h : ∀ b ∈ bs, b < 0x80) : valid bs = true := by
  simp [valid, decode_ascii bs h]

/-- An ASCII byte is a character of its own. Inside a character every remaining byte is
a continuation byte (`0x80 ≤ lo`), so the automaton is between characters when it reads
one, and the text splits there. -/
theorem decodeFrom_split_ascii {c : UInt8} (hc : c < 0x80) (post : Bytes) :
    ∀ (pre : Bytes) (n : Nat) (lo hi : UInt8) (acc : Nat), (0 < n → 0x80 ≤ lo) →
      decodeFrom n lo hi acc (pre ++ c :: post) =
        (decodeFrom n lo hi acc pre).bind fun cs =>
          (decode post).map (cs ++ Char.ofNat c.toNat :: ·)
  | [], 0, lo, hi, acc, _ => by
    rw [List.nil_append, decodeFrom_zero, decode_ascii_cons hc]
    rfl
  | [], n + 1, lo, hi, acc, hp => by
    simp only [List.nil_append, decodeFrom]
    rw [if_neg fun h => UInt8.not_le.2 hc (UInt8.le_trans (hp (Nat.succ_pos n)) h.1)]
    rfl
  | x :: xs, 0, lo, hi, acc, _ => by
    rw [List.cons_append, decodeFrom.eq_2, decodeFrom.eq_2]
    by_cases h1 : x < 0x80
    · rw [if_pos h1, if_pos h1, decodeFrom_split_ascii hc post xs 0 0 0 0 (absurd · (by decide))]
      cases decodeFrom 0 0 0 0 xs <;> simp [Function.comp_def]
    rw [if_neg h1, if_neg h1]
    by_cases h2 : x < 0xC2
    · rw [if_pos h2, if_pos h2]; rfl
    rw [if_neg h2, if_neg h2]
    by_cases h3 : x < 0xE0
    · rw [if_pos h3, if_pos h3]
      exact decodeFrom_split_ascii hc post xs _ _ _ _ fun _ => by decide
    rw [if_neg h3, if_neg h3]
    by_cases h4 : x < 0xF0
    · rw [if_pos h4, if_pos h4]
      exact decodeFrom_split_ascii hc post xs _ _ _ _ fun _ => by split <;> decide
    rw [if_neg h4, if_neg h4]
    by_cases h5 : x < 0xF5
    · rw [if_pos h5, if_pos h5]
      exact decodeFrom_split_ascii hc post xs _ _ _ _ fun _ => by split <;> decide
    rw [if_neg h5, if_neg h5]; rfl
  | x :: xs, n + 1, lo, hi, acc, _ => by
    simp only [List.cons_append, decodeFrom, List.append_eq]
    split_ifs
    · rw [decodeFrom_split_ascii hc post xs 0 0 0 0 (absurd · (by decide))]
      cases decodeFrom 0 0 0 0 xs <;> simp [Function.comp_def]
    · exact decodeFrom_split_ascii hc post xs _ _ _ _ fun _ => by decide
    · rfl

/-- Text split at an ASCII byte: the whole is text exactly when both sides are. -/
theorem valid_split_ascii {c : UInt8} (hc : c < 0x80) (pre post : Bytes) :
    valid (pre ++ c :: post) = true ↔ valid pre = true ∧ valid post = true := by
  simp only [valid, decode, decodeFrom_split_ascii hc post pre 0 0 0 0 (absurd · (by decide))]
  cases decodeFrom 0 0 0 0 pre <;> cases decodeFrom 0 0 0 0 post <;> simp

theorem valid_split_newline {pre post : Bytes} (h : valid (pre ++ 10 :: post) = true) :
    valid (pre ++ [10]) = true ∧ valid post = true := by
  obtain ⟨hpre, hpost⟩ := (valid_split_ascii (by decide) pre post).1 h
  exact ⟨(valid_split_ascii (by decide) pre []).2 ⟨hpre, rfl⟩, hpost⟩

end Utf8
end ActixHttp
