import ActixHttp.Text.Utf8
/-!
# Polls, the payload stream, errors and headers

The vocabulary `src/httpmessage.rs` is written in.

* futures 0.1: `Poll<T, E> = Result<Async<T>, E>`.
* The payload stream (`crate::payload::Payload`, not in the snapshot) as the list of
  answers it gives to successive polls; once they are used up, and for
  `Payload::None`, it answers end-of-data. Any finite behaviour of a stream is a
  prefix of such a list, so quantifying over the list covers every stream.
* The error enums of `crate::error` (not in the snapshot), with the variants the spec
  lists and the ones the code constructs.
* `EncodingRef`: UTF-8, or another charset given by its strict decoder. The code's
  pointer comparison `enc == UTF_8` is the constructor test.
* `http::HeaderMap`: a list of (lower-case name, value) pairs in insertion order;
  `get` is the first value of a name and `get_all` all of them.
-/
namespace ActixHttp

/-- futures 0.1 `Async<T>`. -/
inductive Async (α : Type) where
  | ready (a : α)
  | notReady
  deriving DecidableEq, Repr

/-- futures 0.1 `Poll<T, E>`. -/
abbrev Poll (α ε : Type) := Except ε (Async α)

/-- Modelled from the spec: `PayloadError` of `error.rs`, which is not in the snapshot
(§7: `UnknownLength`, `Overflow`, and the source's own errors, here told apart by a
code). -/
inductive PayloadError where
  | unknownLength
  | overflow
  | source (code : Nat)
  deriving DecidableEq, Repr

/-- Modelled from the spec: `ContentTypeError` of `error.rs` (§7). -/
inductive ContentTypeError where
  | parseError
  | unknownEncoding
  deriving DecidableEq, Repr

/-- Modelled from the spec: the one variant of `ParseError` this file builds. -/
inductive ParseError where
  | header
  deriving DecidableEq, Repr

/-- Modelled from the spec: `UrlencodedError` of `error.rs` (§7), with the payload
error wrapped by its `From<PayloadError>`. -/
inductive UrlencodedError where
  | contentType
  | unknownLength
  | overflow
  | parse
  | payload (e : PayloadError)
  deriving DecidableEq, Repr

/-- Modelled from the spec: `ReadlinesError` of `error.rs` (§7), with the wrappers
that `ReadlinesError::from(e)` and `err.into()` in `Readlines::new` need. -/
inductive ReadlinesError where
  | encodingError
  | payload (e : PayloadError)
  | limitOverflow
  | contentTypeError (e : ContentTypeError)
  deriving DecidableEq, Repr

/-- One answer of the payload stream's `poll`. -/
inductive Ev where
  /-- `Ok(Async::Ready(Some(bytes)))` -/
  | chunk (b : Bytes)
  /-- `Ok(Async::NotReady)` -/
  | notReady
  /-- `Ok(Async::Ready(None))` -/
  | eof
  /-- `Err(e)` -/
  | fail (e : PayloadError)
  deriving DecidableEq, Repr

/-- Modelled from the spec: `Payload<S>` (`payload.rs` is not in the snapshot), as the
answers of its successive polls; past the last one, and for `Payload::None`, it
answers end-of-data. -/
abbrev Payload := List Ev

/-- `Stream::poll` of the payload: the next answer and the rest of the stream. -/
def Payload.poll : Payload → Ev × Payload
  | [] => (.eof, [])
  | e :: es => (e, es)

@[simp] theorem Payload.poll_nil : Payload.poll [] = (.eof, []) := rfl
@[simp] theorem Payload.poll_cons (e : Ev) (es : Payload) : Payload.poll (e :: es) = (e, es) :=
  rfl

@[simp] theorem Payload.poll_snd (p : Payload) : (Payload.poll p).2 = p.tail := by
  cases p <;> rfl

theorem Payload.poll_eq_cons {p rest : Payload} {e : Ev} (h : Payload.poll p = (e, rest))
    (he : e ≠ .eof) : p = e :: rest := by
  cases p with
  | nil => exact absurd (Prod.mk.inj h).1.symm he
  | cons e' es => simpa using h

/-- How a run of the stream delivers data: `some c` is chunk `c`, `none` a `NotReady`. -/
def Ev.ofDelivery : Option Bytes → Ev
  | some c => .chunk c
  | none => .notReady

/-- The chunks of a run of deliveries, in order. -/
def chunks (ds : List (Option Bytes)) : List Bytes := ds.filterMap id

@[simp] theorem chunks_nil : chunks [] = [] := rfl
@[simp] theorem chunks_cons_some (c : Bytes) (ds : List (Option Bytes)) :
    chunks (some c :: ds) = c :: chunks ds := rfl
@[simp] theorem chunks_cons_none (ds : List (Option Bytes)) : chunks (none :: ds) = chunks ds :=
  rfl

/-- How a run of the stream ends after its chunks. -/
inductive Terminal where
  | eof
  | fail (e : PayloadError)
  deriving DecidableEq, Repr

def Terminal.toEv : Terminal → Ev
  | .eof => .eof
  | .fail e => .fail e

/-- A run of the payload: the deliveries `ds` (chunks, and `NotReady` for `none`), then
the terminal answer `t` (end-of-data or an error), then whatever the stream answers after
it. -/
def Payload.ofRun (ds : List (Option Bytes)) (t : Terminal) (rest : Payload) : Payload :=
  ds.map Ev.ofDelivery ++ t.toEv :: rest

/-- An `EncodingRef`: the `UTF_8` static, or another charset given by its strict
decoder (`decode(.., DecoderTrap::Strict)`). -/
inductive Encoding where
  | utf8
  | other (decode : Bytes → Option RStr)

abbrev HeaderName := String
abbrev HeaderValue := Bytes
abbrev HeaderMap := List (HeaderName × HeaderValue)

/-- `HeaderMap::get`: the first value of the name. -/
def HeaderMap.get (h : HeaderMap) (n : HeaderName) : Option HeaderValue :=
  (h.find? (·.1 == n)).map (·.2)

/-- `HeaderMap::get_all`: every value of the name, in order. -/
def HeaderMap.getAll (h : HeaderMap) (n : HeaderName) : List HeaderValue :=
  (h.filter (·.1 == n)).map (·.2)

namespace header

def contentType : HeaderName := "content-type"
def contentLength : HeaderName := "content-length"
def transferEncoding : HeaderName := "transfer-encoding"
def cookie : HeaderName := "cookie"

end header

/-- What the file reads of an `HttpMessage`: its headers and its payload. -/
structure Message where
  headers : HeaderMap
  payload : Payload

/-- The parts of the `mime` and `encoding` crates the file calls. -/
structure Deps where
  Mime : Type
  /-- `content_type.parse::<Mime>()` -/
  parseMime : RStr → Option Mime
  /-- `mime_type.get_param("charset")` -/
  charset : Mime → Option RStr
  /-- `encoding_from_whatwg_label(label)` -/
  encodingFromWhatwgLabel : RStr → Option Encoding

end ActixHttp
