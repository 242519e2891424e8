import Mathlib.Data.List.Forall2
import ActixHttp.Message.Negotiate
/-!
# `HttpMessage::cookies`: the cookie jar, parsed once and cached

`cookies()` (`src/httpmessage.rs:115-134`) parses every `Cookie` header on the first
call: each value must be UTF-8, is split on `;`, each piece trimmed, and every
non-empty piece is parsed by `Cookie::parse_encoded`; the first failure returns at
once. Only a complete jar is inserted into the extensions store, where every later call
finds it. `cookie(name)` (136-146) looks a name up in that jar.

The `cookie` crate is a parameter (`CookieCrate`). The extensions store is the entry
`Cookies` and the other entries, which `cookies()` never touches.

Results:
* `parseHeaders_ok`: the two loops succeed exactly when every value is UTF-8 and every
  non-empty trimmed segment parses, and then yield those cookies in order.
* `cookies_parsed_once`: from a store without a jar, `cookies()` returns such a jar
  exactly when all of it parses; it then caches exactly that jar, which every later
  call returns whatever the headers; on an error the store is left as it was.
* `cookies_split_fields`: `Cookie` fields give the same jar as the one field they make
  joined with `"; "`; when every field is UTF-8, `cookies()` returns the same, error
  included.
-/
namespace ActixHttp

/-- Modelled from the spec: `CookieParseError` (§7). -/
inductive CookieParseError where
  /-- `CookieParseError::from(Utf8Error)` -/
  | invalidEncoding
  | malformedCookie
  deriving DecidableEq, Repr

/-- The parts of the `cookie` crate the file calls. -/
structure CookieCrate where
  Cookie : Type
  /-- `Cookie::name` -/
  name : Cookie → String
  /-- `Cookie::parse_encoded(s).map(Cookie::into_owned)` -/
  parseEncoded : String → Except CookieParseError Cookie

/-- `Extensions`: the `Cookies` entry, and the others. -/
structure Extensions (C α : Type) where
  cookies : Option (List C)
  others : α

/-- `char::is_whitespace`: the Unicode `White_Space` property. -/
def isWhitespace (c : Char) : Bool :=
  (9 ≤ c.toNat && c.toNat ≤ 13) || c.toNat == 0x20 || c.toNat == 0x85 || c.toNat == 0xA0 ||
    c.toNat == 0x1680 || (0x2000 ≤ c.toNat && c.toNat ≤ 0x200A) || c.toNat == 0x2028 ||
    c.toNat == 0x2029 || c.toNat == 0x202F || c.toNat == 0x205F || c.toNat == 0x3000

/-- `str::trim`. -/
def trim (cs : List Char) : List Char :=
  ((cs.dropWhile isWhitespace).reverse.dropWhile isWhitespace).reverse

/-- `s.split(';').map(|s| s.trim())`. -/
def cookieStrs (s : RStr) : List (List Char) := (s.chars.splitOn ';').map trim

/-- The trimmed `;`-separated pieces of a header value read as text; none when it is
not text. -/
def cookieStrsOf (hv : HeaderValue) : List (List Char) := ((fromUtf8 hv).map cookieStrs).getD []

namespace HttpMessage

variable (cc : CookieCrate)

/-- The inner loop of `cookies()`: every non-empty piece is parsed and pushed. -/
def parseSegments : List (List Char) → List cc.Cookie → Except CookieParseError (List cc.Cookie)
  | [], acc => .ok acc
  | seg :: segs, acc =>
    if seg.isEmpty then parseSegments segs acc
    else
      match cc.parseEncoded (String.mk seg) with
      | .ok c => parseSegments segs (acc ++ [c])
      | .error e => .error e

/-- The outer loop of `cookies()`, over `get_all(COOKIE)`. -/
def parseHeaders : List HeaderValue → List cc.Cookie → Except CookieParseError (List cc.Cookie)
  | [], acc => .ok acc
  | hdr :: hdrs, acc =>
    match fromUtf8 hdr with
    | none => .error .invalidEncoding
    | some s =>
      match parseSegments cc (cookieStrs s) acc with
      | .ok acc' => parseHeaders hdrs acc'
      | .error e => .error e

/-- `HttpMessage::cookies`: the jar or the error, and the extensions store after. -/
def cookies {α : Type} (hdrs : HeaderMap) (ext : Extensions cc.Cookie α) :
    Except CookieParseError (List cc.Cookie) × Extensions cc.Cookie α :=
  match ext.cookies with
  | some v => (.ok v, ext)
  | none =>
    match parseHeaders cc (hdrs.getAll header.cookie) [] with
    | .ok v => (.ok v, { ext with cookies := some v })
    | .error e => (.error e, ext)

/-- `HttpMessage::cookie`: the first cookie of the jar with that name; none when the
jar does not parse. -/
def cookie {α : Type} (hdrs : HeaderMap) (ext : Extensions cc.Cookie α) (name : String) :
    Option cc.Cookie × Extensions cc.Cookie α :=
  match cookies cc hdrs ext with
  | (.ok v, ext') => (v.find? (cc.name · == name), ext')
  | (.error _, ext') => (none, ext')

/-! ## What the loops compute -/

theorem forall₂_append_left_iff {α β : Type} {R : α → β → Prop} :
    ∀ {A B : List α} {v : List β}, List.Forall₂ R (A ++ B) v ↔
      ∃ v₁ v₂, v = v₁ ++ v₂ ∧ List.Forall₂ R A v₁ ∧ List.Forall₂ R B v₂
  | [], B, v => ⟨fun h => ⟨[], v, rfl, .nil, h⟩, fun ⟨_, _, e, h1, h2⟩ => by cases h1; rw [e]; exact h2⟩
  | a :: A, B, v => by
    simp only [List.cons_append, List.forall₂_cons_left_iff, forall₂_append_left_iff]
    constructor
    · rintro ⟨b, u, hab, ⟨v₁, v₂, rfl, h1, h2⟩, rfl⟩
      exact ⟨b :: v₁, v₂, rfl, ⟨b, v₁, hab, h1, rfl⟩, h2⟩
    · rintro ⟨_, v₂, rfl, ⟨b, v₁, hab, h1, rfl⟩, h2⟩
      exact ⟨b, v₁ ++ v₂, hab, ⟨v₁, v₂, rfl, h1, h2⟩, rfl⟩

/-- The inner loop succeeds exactly when every non-empty piece parses, and then pushes
those cookies in order. -/
theorem parseSegments_ok : ∀ (segs : List (List Char)) (acc w : List cc.Cookie),
    parseSegments cc segs acc = .ok w ↔ ∃ v, w = acc ++ v ∧
      List.Forall₂ (fun seg c => cc.parseEncoded (String.mk seg) = .ok c)
        (segs.filter (!·.isEmpty)) v
  | [], acc, w => by simp [parseSegments, eq_comm]
  | seg :: segs, acc, w => by
    by_cases he : seg.isEmpty
    · simp only [parseSegments, he, if_true, List.filter_cons, Bool.not_true, Bool.false_eq_true]
      exact parseSegments_ok segs acc w
    · simp only [parseSegments, he, List.filter_cons, Bool.not_false, if_true,
        List.forall₂_cons_left_iff, Bool.false_eq_true, if_false]
      cases hp : cc.parseEncoded (String.mk seg) with
      | error e => simp
      | ok c =>
        simp only [parseSegments_ok segs (acc ++ [c]) w, Except.ok.injEq]
        constructor
        · rintro ⟨v, rfl, hv⟩
          exact ⟨c :: v, by simp, c, v, rfl, hv, rfl⟩
        · rintro ⟨_, rfl, b, v, rfl, hv, rfl⟩
          exact ⟨v, by simp, hv⟩

/-- The two loops succeed exactly when every header value is UTF-8 and every non-empty
trimmed segment parses, and then push those cookies in order. -/
theorem parseHeaders_ok : ∀ (hs : List HeaderValue) (acc w : List cc.Cookie),
    parseHeaders cc hs acc = .ok w ↔ (∀ hv ∈ hs, Utf8.valid hv = true) ∧ ∃ v, w = acc ++ v ∧
      List.Forall₂ (fun seg c => cc.parseEncoded (String.mk seg) = .ok c)
        ((hs.flatMap cookieStrsOf).filter (!·.isEmpty)) v
  | [], acc, w => by
    simp only [parseHeaders, Except.ok.injEq, List.flatMap_nil, List.filter_nil,
      List.forall₂_nil_left_iff]
    constructor
    · rintro rfl
      exact ⟨fun _ h => absurd h (List.not_mem_nil _), [], by simp, rfl⟩
    · rintro ⟨-, _, rfl, rfl⟩
      simp
  | hdr :: hs, acc, w => by
    have hv := fromUtf8_isSome hdr
    simp only [parseHeaders, List.forall_mem_cons, List.flatMap_cons, List.filter_append,
      forall₂_append_left_iff]
    cases hu : fromUtf8 hdr with
    | none =>
      simp only [hu, Option.isSome_none] at hv
      simp only [reduceCtorEq, false_iff, not_and]
      exact fun h => absurd (hv.trans h.1) Bool.false_ne_true
    | some s =>
      simp only [hu, Option.isSome_some] at hv
      simp only [cookieStrsOf, hu, Option.map_some', Option.getD_some, hv.symm, true_and]
      cases hp : parseSegments cc (cookieStrs s) acc with
      | error e =>
        simp only [reduceCtorEq, false_iff, not_and, not_exists]
        rintro - _ - v₁ v₂ rfl h1 -
        cases hp.symm.trans ((parseSegments_ok cc _ acc _).2 ⟨v₁, rfl, h1⟩)
      | ok acc' =>
        obtain ⟨v₁, rfl, h1⟩ := (parseSegments_ok cc _ acc acc').1 hp
        simp only [parseHeaders_ok hs (acc ++ v₁) w]
        constructor
        · rintro ⟨hvs, v₂, rfl, h2⟩
          exact ⟨hvs, v₁ ++ v₂, by simp, v₁, v₂, rfl, h1, h2⟩
        · rintro ⟨hvs, _, rfl, v₁', v₂, rfl, h1', h2⟩
          have := hp.symm.trans ((parseSegments_ok cc _ acc _).2 ⟨v₁', rfl, h1'⟩)
          simp only [Except.ok.injEq, List.append_cancel_left_eq] at this
          exact ⟨hvs, v₂, by simp [this], h2⟩

/-! ## The cache -/

theorem cookies_parsed_once {α : Type} (hdrs : HeaderMap) (ext : Extensions cc.Cookie α)
    (h : ext.cookies = none) :
    (∀ v, (cookies cc hdrs ext).1 = .ok v ↔
      (∀ hv ∈ hdrs.getAll header.cookie, Utf8.valid hv = true) ∧
        List.Forall₂ (fun seg c => cc.parseEncoded (String.mk seg) = .ok c)
          (((hdrs.getAll header.cookie).flatMap cookieStrsOf).filter (!·.isEmpty)) v) ∧
    (∀ v, (cookies cc hdrs ext).1 = .ok v →
      (cookies cc hdrs ext).2 = { ext with cookies := some v } ∧
      ∀ hdrs', cookies cc hdrs' (cookies cc hdrs ext).2 = (.ok v, (cookies cc hdrs ext).2)) ∧
    (∀ e, (cookies cc hdrs ext).1 = .error e → (cookies cc hdrs ext).2 = ext) := by
  have hok := parseHeaders_ok cc (hdrs.getAll header.cookie) []
  simp only [List.nil_append, exists_eq_left'] at hok
  simp only [cookies, h]
  cases hp : parseHeaders cc (hdrs.getAll header.cookie) [] with
  | error e =>
    dsimp only
    refine ⟨fun v => ?_, fun v hv => (by cases hv), fun _ _ => rfl⟩
    rw [← hok v, hp]
  | ok w =>
    dsimp only
    refine ⟨fun v => ?_, fun v hv => ?_, fun _ he => (by cases he)⟩
    · rw [← hok v, hp]
    · cases hv
      exact ⟨rfl, fun _ => rfl⟩

example : (cookies ⟨String, id, .ok⟩ [("cookie", ascii " a=1;; b=2 ")]
    (⟨none, ()⟩ : Extensions String Unit)).1 = .ok ["a=1", "b=2"] := by
  rfl

theorem cookies_parsed_once_pair :
    (cookies ⟨String, id, .ok⟩ [("cookie", ascii "a=1; b=2")] (⟨none, ()⟩ : Extensions String Unit)).1 =
      .ok ["a=1", "b=2"] ↔
    (∀ hv ∈ HeaderMap.getAll [("cookie", ascii "a=1; b=2")] header.cookie, Utf8.valid hv = true) ∧
      List.Forall₂ (fun seg c => (Except.ok (String.mk seg) : Except CookieParseError String) = .ok c)
        (((HeaderMap.getAll [("cookie", ascii "a=1; b=2")] header.cookie).flatMap
          cookieStrsOf).filter (!·.isEmpty)) ["a=1", "b=2"] :=
  (cookies_parsed_once ⟨String, id, .ok⟩ [("cookie", ascii "a=1; b=2")] ⟨none, ()⟩ rfl).1 _

/-! ## A `Cookie` field split into several

An HTTP/2 client may send the cookie-pairs of one `Cookie` field as several fields,
which are equivalent to the one field they make joined with `"; "`. The loops of
`cookies()` read the same pieces either way: the text of `"a; b"` is that of `a`, `;`,
a blank and that of `b` (`Utf8.valid_split_ascii`), the split on `;` cuts there
(`splitOn_append_sep`), and `trim` removes the blank. -/

theorem splitOn_append_sep (xs ys : List Char) :
    (xs ++ ';' :: ys).splitOn ';' = xs.splitOn ';' ++ ys.splitOn ';' := by
  induction xs with
  | nil => simp [List.splitOn]
  | cons x xs ih =>
    simp only [List.splitOn, List.cons_append, List.splitOnP_cons] at ih ⊢
    split
    · rw [ih]; rfl
    · rw [ih]
      cases h : xs.splitOnP (· == ';') with
      | nil => exact absurd h (List.splitOnP_ne_nil _ _)
      | cons seg segs => rfl

theorem trim_space_cons (cs : List Char) : trim (' ' :: cs) = trim cs := by
  have hw : isWhitespace ' ' = true := by decide
  simp [trim, List.dropWhile_cons, hw]

/-- The trimmed pieces of two texts joined with `"; "` are those of the first, then
those of the second. -/
theorem pieces_join (ca cb : List Char) :
    ((ca ++ ';' :: ' ' :: cb).splitOn ';').map trim =
      (ca.splitOn ';').map trim ++ (cb.splitOn ';').map trim := by
  rw [splitOn_append_sep, List.map_append]
  congr 1
  simp only [List.splitOn, List.splitOnP_cons, show (' ' == ';') = false from rfl,
    Bool.false_eq_true, if_false]
  cases h : cb.splitOnP (· == ';') with
  | nil => exact absurd h (List.splitOnP_ne_nil _ _)
  | cons seg segs => simp [trim_space_cons]

theorem cookieStrsOf_of_decode {hv : HeaderValue} {cs : List Char} (h : Utf8.decode hv = some cs) :
    cookieStrsOf hv = (cs.splitOn ';').map trim := by
  have hv' : Utf8.valid hv = true := by simp [Utf8.valid, h]
  simp [cookieStrsOf, fromUtf8, hv', cookieStrs, RStr.chars, h]

theorem decode_join {a b : Bytes} {ca cb : List Char} (ha : Utf8.decode a = some ca)
    (hb : Utf8.decode b = some cb) :
    Utf8.decode (a ++ 59 :: 32 :: b) = some (ca ++ ';' :: ' ' :: cb) := by
  rw [Utf8.decode, Utf8.decodeFrom_split_ascii (by decide) _ a 0 0 0 0 (absurd · (by decide)),
    ← Utf8.decode, ha, Utf8.decode_ascii_cons (by decide), hb]
  rfl

theorem valid_join (a b : Bytes) :
    Utf8.valid (a ++ 59 :: 32 :: b) = true ↔ Utf8.valid a = true ∧ Utf8.valid b = true := by
  rw [Utf8.valid_split_ascii (by decide)]
  simp [Utf8.valid, Utf8.decode_ascii_cons (show (32 : UInt8) < 0x80 by decide)]

theorem intercalate_cons_cons {β : Type} (sep a b : List β) (l : List (List β)) :
    List.intercalate sep (a :: b :: l) = a ++ (sep ++ List.intercalate sep (b :: l)) := by
  simp [List.intercalate, List.intersperse]

/-- Fields joined with `"; "` are text exactly when every field is. -/
theorem valid_intercalate : ∀ hs : List HeaderValue,
    Utf8.valid (List.intercalate [59, 32] hs) = true ↔ ∀ hv ∈ hs, Utf8.valid hv = true
  | [] => by simp [Utf8.valid, Utf8.decode, Utf8.decodeFrom]
  | [a] => by simp [List.intercalate]
  | a :: b :: l => by
    rw [intercalate_cons_cons, List.cons_append, List.cons_append, List.nil_append, valid_join,
      valid_intercalate (b :: l)]
    simp only [List.forall_mem_cons]

/-- The pieces of fields joined with `"; "` are those of the fields, in order. -/
theorem cookieStrsOf_intercalate : ∀ hs : List HeaderValue, hs ≠ [] →
    (∀ hv ∈ hs, Utf8.valid hv = true) →
      cookieStrsOf (List.intercalate [59, 32] hs) = hs.flatMap cookieStrsOf
  | [], h, _ => absurd rfl h
  | [a], _, _ => by simp [List.intercalate]
  | a :: b :: l, _, hv => by
    obtain ⟨ca, hca⟩ := Option.isSome_iff_exists.1 (hv a (List.mem_cons_self _ _))
    have hr := (valid_intercalate (b :: l)).2 fun x hx => hv x (List.mem_cons_of_mem _ hx)
    obtain ⟨cr, hcr⟩ := Option.isSome_iff_exists.1 hr
    rw [intercalate_cons_cons, List.cons_append, List.cons_append, List.nil_append,
      cookieStrsOf_of_decode (decode_join hca hcr), pieces_join, ← cookieStrsOf_of_decode hca,
      ← cookieStrsOf_of_decode hcr, cookieStrsOf_intercalate (b :: l) (List.cons_ne_nil _ _)
        fun x hx => hv x (List.mem_cons_of_mem _ hx)]
    rfl

theorem parseSegments_append : ∀ (xs ys : List (List Char)) (acc : List cc.Cookie),
    parseSegments cc (xs ++ ys) acc = (parseSegments cc xs acc).bind (parseSegments cc ys)
  | [], ys, acc => rfl
  | seg :: xs, ys, acc => by
    simp only [List.cons_append, parseSegments]
    split
    · exact parseSegments_append xs ys acc
    · cases cc.parseEncoded (String.mk seg) with
      | ok c => exact parseSegments_append xs ys _
      | error e => rfl

/-- When every field is text, the outer loop is the inner loop over all their pieces. -/
theorem parseHeaders_of_valid : ∀ (hs : List HeaderValue) (acc : List cc.Cookie),
    (∀ hv ∈ hs, Utf8.valid hv = true) →
      parseHeaders cc hs acc = parseSegments cc (hs.flatMap cookieStrsOf) acc
  | [], acc, _ => rfl
  | hdr :: hs, acc, hv => by
    obtain ⟨s, hs'⟩ := Option.isSome_iff_exists.1
      ((fromUtf8_isSome hdr).trans (hv hdr (List.mem_cons_self _ _)))
    have hc : cookieStrsOf hdr = cookieStrs s := by simp [cookieStrsOf, hs']
    simp only [parseHeaders, hs', List.flatMap_cons, parseSegments_append, hc]
    cases parseSegments cc (cookieStrs s) acc with
    | ok acc' => exact parseHeaders_of_valid hs acc' fun x hx => hv x (List.mem_cons_of_mem _ hx)
    | error e => rfl

/-- Read as one field joined with `"; "`, text fields give the same result, error included. -/
theorem parseHeaders_intercalate (hs : List HeaderValue) (acc : List cc.Cookie)
    (hv : ∀ hv ∈ hs, Utf8.valid hv = true) :
    parseHeaders cc [List.intercalate [59, 32] hs] acc = parseHeaders cc hs acc := by
  rw [parseHeaders_of_valid cc _ _ hv, parseHeaders_of_valid cc _ _
    (List.forall_mem_singleton.2 ((valid_intercalate hs).2 hv)), List.flatMap_singleton]
  cases hs with
  | nil => rfl
  | cons a l => rw [cookieStrsOf_intercalate _ (List.cons_ne_nil _ _) hv]

theorem cookies_split_fields {α : Type} (hdrs hdrs' : HeaderMap) (ext : Extensions cc.Cookie α)
    (hj : hdrs'.getAll header.cookie = [List.intercalate [59, 32] (hdrs.getAll header.cookie)]) :
    (∀ v, (cookies cc hdrs ext).1 = .ok v ↔ (cookies cc hdrs' ext).1 = .ok v) ∧
    ((∀ hv ∈ hdrs.getAll header.cookie, Utf8.valid hv = true) →
      cookies cc hdrs ext = cookies cc hdrs' ext) := by
  unfold cookies
  rw [hj]
  cases ext.cookies with
  | some v => exact ⟨fun _ => Iff.rfl, fun _ => rfl⟩
  | none =>
    dsimp only
    by_cases hv : ∀ hv ∈ hdrs.getAll header.cookie, Utf8.valid hv = true
    · rw [parseHeaders_intercalate cc _ _ hv]
      exact ⟨fun _ => Iff.rfl, fun _ => rfl⟩
    · refine ⟨fun v => ?_, fun h => absurd h hv⟩
      have hl : ∀ w, parseHeaders cc (hdrs.getAll header.cookie) [] ≠ .ok w :=
        fun w h => hv ((parseHeaders_ok cc _ [] w).1 h).1
      have hr : ∀ w, parseHeaders cc [List.intercalate [59, 32] (hdrs.getAll header.cookie)] [] ≠ .ok w :=
        fun w h => hv ((valid_intercalate _).1
          (((parseHeaders_ok cc _ [] w).1 h).1 _ (List.mem_singleton_self _)))
      cases hp : parseHeaders cc (hdrs.getAll header.cookie) [] with
      | ok w => exact absurd hp (hl w)
      | error e =>
        cases hq : parseHeaders cc [List.intercalate [59, 32] (hdrs.getAll header.cookie)] [] with
        | ok w => exact absurd hq (hr w)
        | error e' => simp

/-- Two fields `a=1` and `b=2`, and the one field `a=1; b=2`. -/
theorem cookies_split_fields_pair :
    HeaderMap.getAll [("cookie", ascii "a=1; b=2")] header.cookie =
      [List.intercalate [59, 32]
        (HeaderMap.getAll [("cookie", ascii "a=1"), ("cookie", ascii "b=2")] header.cookie)] ∧
    (∀ v, (cookies ⟨String, id, .ok⟩ [("cookie", ascii "a=1"), ("cookie", ascii "b=2")]
          (⟨none, ()⟩ : Extensions String Unit)).1 = .ok v ↔
        (cookies ⟨String, id, .ok⟩ [("cookie", ascii "a=1; b=2")]
          (⟨none, ()⟩ : Extensions String Unit)).1 = .ok v) ∧
    ((∀ hv ∈ HeaderMap.getAll [("cookie", ascii "a=1"), ("cookie", ascii "b=2")] header.cookie,
        Utf8.valid hv = true) →
      cookies ⟨String, id, .ok⟩ [("cookie", ascii "a=1"), ("cookie", ascii "b=2")]
          (⟨none, ()⟩ : Extensions String Unit) =
        cookies ⟨String, id, .ok⟩ [("cookie", ascii "a=1; b=2")] (⟨none, ()⟩ : Extensions String Unit)) :=
  ⟨by decide, cookies_split_fields ⟨String, id, .ok⟩ _ _ _ (by decide)⟩

end HttpMessage
end ActixHttp
