import ActixHttp.Body.MessageBody
/-!
# `UrlEncoded`: the form body, and its agreement with `MessageBody`

`UrlEncoded::new` (`src/httpmessage.rs:559-591`) checks the content type and the
charset, then reads `Content-Length` as `MessageBody::new` does. `UrlEncoded::poll`
(620-663) repeats the declared-length check and the fold of `MessageBody::poll`, then
decodes the body (`decodeForm`). It is modelled as its own copy, as the source has it;
`drive_new` is what says the two copies agree.

The form type `U` stays abstract: `serde_urlencoded::from_bytes::<U>` is a parameter,
and `from_str` is `from_bytes` of the text's bytes, which is how `serde_urlencoded`
defines it.

Results:
* `drive_new`: for a form request, `UrlEncoded` resolves to `collectBody`, reported as
  `UrlencodedError`s, then decoded.
* `urlEncoded_source_overflow`: a stream that fails with `PayloadError::Overflow` makes
  `MessageBody` fail with `Overflow` and `UrlEncoded` with `Payload(Overflow)`.
  `MessageBody` reports the stream's own `Overflow` or `UnknownLength` under the names
  of its own checks, so its error alone does not say which cause it was.
* `urlEncoded_agrees_messageBody`: on the same form request, limit and run, both futures
  stop for the same cause, and the bytes `UrlEncoded` decodes are those `MessageBody`
  resolves to.
-/
namespace ActixHttp

/-- How `UrlEncoded` reports a cause: its own variants, and the stream's error wrapped
by `From<PayloadError>`. -/
def BodyCause.toUrlencoded : BodyCause → UrlencodedError
  | .unknownLength => .unknownLength
  | .overflow => .overflow
  | .source e => .payload e

/-- The `and_then` closure of `UrlEncoded::poll` (649-659): `from_bytes` on a UTF-8
body; otherwise the strict decoding of the charset, then `from_str`. -/
def decodeForm {U : Type} (fromBytes : Bytes → Option U) (enc : Encoding) (body : Bytes) :
    Except UrlencodedError U :=
  match enc with
  | .utf8 =>
    match fromBytes body with
    | some u => .ok u
    | none => .error .parse
  | .other decode =>
    match decode body with
    | some s =>
      match fromBytes s.bytes with
      | some u => .ok u
      | none => .error .parse
    | none => .error .parse

/-- The state of `UrlEncoded<T, U>`. The boxed future is the fold with the limit and
the charset its closures captured. -/
structure UrlEncoded where
  stream : Payload
  limit : Nat
  length : Option Nat
  encoding : Encoding
  err : Option UrlencodedError
  fut : Option (Nat × Encoding × Fold)

namespace UrlEncoded

variable {U : Type} (fromBytes : Bytes → Option U)

/-- `UrlEncoded::err`. -/
def ofErr (e : UrlencodedError) : UrlEncoded := ⟨[], 262144, none, .utf8, some e, none⟩

/-- `UrlEncoded::new`. -/
def new (d : Deps) (req : Message) : UrlEncoded :=
  if toLowercase (HttpMessage.contentType req.headers) ≠ ascii "application/x-www-form-urlencoded"
  then ofErr .contentType
  else
    match HttpMessage.encoding d req.headers with
    | .error _ => ofErr .contentType
    | .ok enc =>
      match HttpMessage.readContentLength UrlencodedError.unknownLength req.headers with
      | .ok len => ⟨req.payload, 262144, len, enc, none, none⟩
      | .error e => ofErr e

/-- `UrlEncoded::limit`. -/
def setLimit (ue : UrlEncoded) (limit : Nat) : UrlEncoded := { ue with limit }

/-- One poll of `fold(..).and_then(..)`, given the fold's: a ready body is decoded at
once, since the closure's `Result` is an immediate future. -/
def thenDecode (enc : Encoding) : Poll Bytes UrlencodedError → Poll U UrlencodedError
  | .ok (.ready body) => (decodeForm fromBytes enc body).map .ready
  | .ok .notReady => .ok .notReady
  | .error e => .error e

/-- The first branch of `poll`: poll the boxed future. -/
def pollFut (ue : UrlEncoded) (limit : Nat) (enc : Encoding) (fd : Fold) :
    Option (Poll U UrlencodedError × UrlEncoded) :=
  (fd.poll UrlencodedError.payload (bodyStep .overflow limit)).map fun r =>
    (thenDecode fromBytes enc r.1, { ue with fut := some (limit, enc, r.2) })

/-- The `// future` block: the stream moves into a fold from an empty body. -/
def startFold (ue : UrlEncoded) : Option (Poll U UrlencodedError × UrlEncoded) :=
  pollFut fromBytes { ue with stream := [] } ue.limit ue.encoding ⟨ue.stream, some []⟩

/-- `<UrlEncoded as Future>::poll`; `none` is a panic of the completed future. -/
def poll (ue : UrlEncoded) : Option (Poll U UrlencodedError × UrlEncoded) :=
  match ue.fut with
  | some (limit, enc, fd) => pollFut fromBytes ue limit enc fd
  | none =>
    match ue.err with
    | some e => some (.error e, { ue with err := none })
    | none =>
      match ue.length with
      | some len =>
        if len > ue.limit then some (.error .overflow, { ue with length := none })
        else startFold fromBytes { ue with length := none }
      | none => startFold fromBytes ue

/-! ## Driving the boxed future -/

/-- Once the future is boxed, driving `UrlEncoded` is driving the fold, then decoding. -/
theorem drive_fut (limit : Nat) (enc : Encoding) :
    ∀ (n : Nat) (ue : UrlEncoded) (fd : Fold), ue.fut = some (limit, enc, fd) →
      drive (poll fromBytes) n ue =
        (drive (Fold.poll .payload (bodyStep .overflow limit)) n fd).map
          (·.bind (decodeForm fromBytes enc))
  | 0, _, _, _ => rfl
  | n + 1, ue, ⟨stream, acc⟩, h => by
    cases acc with
    | none => simp [drive, poll, h, pollFut, Fold.poll]
    | some acc =>
      simp only [drive, poll, h, pollFut, Fold.poll, Option.map_some']
      generalize Fold.loop UrlencodedError.payload (bodyStep UrlencodedError.overflow limit)
        stream acc = q
      rcases q with ⟨_ | body | _, fd'⟩
      · rfl
      · show _ = some (decodeForm fromBytes enc body)
        simp only [thenDecode]
        cases decodeForm fromBytes enc body <;> rfl
      · exact drive_fut limit enc n _ fd' rfl

theorem poll_startFold {ue : UrlEncoded} (hf : ue.fut = none) (he : ue.err = none)
    (hl : ∀ len ∈ ue.length, len ≤ ue.limit) :
    poll fromBytes ue =
      poll fromBytes
        { ue with stream := [], length := none, fut := some (ue.limit, ue.encoding, ⟨ue.stream, some []⟩) } := by
  cases ue with
  | mk stream limit length encoding err fut =>
    cases hf; cases he
    cases length with
    | none => rfl
    | some len => simp [poll, Nat.not_lt.2 (hl len rfl), startFold, pollFut]

/-- From a state that has not started, the first poll starts the fold, which then
folds the whole run; the body is decoded with the charset `new` found. -/
theorem drive_start {ue : UrlEncoded} (hf : ue.fut = none) (he : ue.err = none)
    (hl : ∀ len ∈ ue.length, len ≤ ue.limit) (ds : List (Option Bytes)) (t : Terminal)
    (rest : Payload) (k : Nat) (hs : ue.stream = Payload.ofRun ds t rest) :
    drive (poll fromBytes) (ds.length + k + 1) ue =
      some ((foldRun .payload (bodyStep .overflow ue.limit) [] (chunks ds) t).bind
        (decodeForm fromBytes ue.encoding)) := by
  rw [drive_succ_congr (poll_startFold fromBytes hf he hl),
    drive_fut fromBytes ue.limit ue.encoding _ _ _ rfl, hs, Payload.ofRun,
    Fold.drive_fold_run _ _ t rest ds [] _ (by omega)]
  rfl

/-- Refinement: for a form request, `UrlEncoded` resolves to `collectBody`, reported as
`UrlencodedError`s, then decoded. -/
theorem drive_new (d : Deps) (hdrs : HeaderMap) (enc : Encoding)
    (hct : toLowercase (HttpMessage.contentType hdrs) = ascii "application/x-www-form-urlencoded")
    (henc : HttpMessage.encoding d hdrs = .ok enc) (L : Nat) (ds : List (Option Bytes))
    (t : Terminal) (rest : Payload) (k : Nat) :
    drive (poll fromBytes) (ds.length + 1 + k)
        ((new d ⟨hdrs, Payload.ofRun ds t rest⟩).setLimit L) =
      some (((collectBody hdrs L (chunks ds) t).mapError BodyCause.toUrlencoded).bind
        (decodeForm fromBytes enc)) := by
  have hr : HttpMessage.readContentLength UrlencodedError.unknownLength hdrs =
      (HttpMessage.readContentLength BodyCause.unknownLength hdrs).mapError
        BodyCause.toUrlencoded :=
    (HttpMessage.readContentLength_mapError BodyCause.toUrlencoded BodyCause.unknownLength hdrs).symm
  rw [show ds.length + 1 + k = ds.length + k + 1 by omega]
  simp only [new, hct, ne_eq, not_true_eq_false, if_false, henc, collectBody, hr]
  cases HttpMessage.readContentLength BodyCause.unknownLength hdrs with
  | error c => rfl
  | ok len =>
    by_cases hov : (len.any fun n => decide (L < n)) = true
    · obtain ⟨n, rfl, hn⟩ : ∃ n, len = some n ∧ L < n := by cases len <;> simp_all
      simp [drive, poll, setLimit, hn, Except.mapError, BodyCause.toUrlencoded, Except.bind]
    · have hl : ∀ n ∈ len, n ≤ L := fun n hn => by cases hn; simpa using hov
      rw [drive_start fromBytes rfl rfl hl ds t rest k rfl]
      simp only [setLimit, foldRun_bodyStep, hov, Bool.false_or, decide_eq_true_eq]
      split
      · rfl
      · cases t <;> rfl

/-! ## Agreement with `MessageBody` -/

theorem urlEncoded_source_overflow :
    drive MessageBody.poll 1 (MessageBody.new
        ⟨[("content-type", ascii "application/x-www-form-urlencoded")], [.fail .overflow]⟩) =
      some (.error .overflow) ∧
    drive (poll (U := Bytes) some) 1 (new Deps.plain
        ⟨[("content-type", ascii "application/x-www-form-urlencoded")], [.fail .overflow]⟩) =
      some (.error (.payload .overflow)) :=
  ⟨rfl, rfl⟩

theorem urlEncoded_agrees_messageBody (d : Deps) (hdrs : HeaderMap) (enc : Encoding)
    (hct : toLowercase (HttpMessage.contentType hdrs) = ascii "application/x-www-form-urlencoded")
    (henc : HttpMessage.encoding d hdrs = .ok enc) (L : Nat) (ds : List (Option Bytes))
    (t : Terminal) (rest : Payload) (k : Nat) :
    drive MessageBody.poll (ds.length + 1 + k)
        ((MessageBody.new ⟨hdrs, Payload.ofRun ds t rest⟩).setLimit L) =
      some ((collectBody hdrs L (chunks ds) t).mapError BodyCause.toPayload) ∧
    drive (poll fromBytes) (ds.length + 1 + k)
        ((new d ⟨hdrs, Payload.ofRun ds t rest⟩).setLimit L) =
      some (((collectBody hdrs L (chunks ds) t).mapError BodyCause.toUrlencoded).bind
        (decodeForm fromBytes enc)) :=
  ⟨MessageBody.drive_new hdrs L ds t rest k, drive_new fromBytes d hdrs enc hct henc L ds t rest k⟩

theorem urlEncoded_agrees_messageBody_form :
    drive MessageBody.poll 2 ((MessageBody.new
        ⟨[("content-type", ascii "application/x-www-form-urlencoded")],
          Payload.ofRun [some [97]] .eof []⟩).setLimit 4) =
      some ((collectBody [("content-type", ascii "application/x-www-form-urlencoded")] 4
        [[97]] .eof).mapError BodyCause.toPayload) ∧
    drive (poll some) 2 ((new Deps.plain
        ⟨[("content-type", ascii "application/x-www-form-urlencoded")],
          Payload.ofRun [some [97]] .eof []⟩).setLimit 4) =
      some (((collectBody [("content-type", ascii "application/x-www-form-urlencoded")] 4
        [[97]] .eof).mapError BodyCause.toUrlencoded).bind (decodeForm some .utf8)) :=
  urlEncoded_agrees_messageBody some Deps.plain
    [("content-type", ascii "application/x-www-form-urlencoded")] .utf8 rfl rfl 4 [some [97]] .eof [] 0

end UrlEncoded
end ActixHttp
