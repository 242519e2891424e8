import Mathlib.Data.List.Infix
import ActixHttp.Body.Fold
/-!
# `MessageBody`: the whole payload, or why not

`MessageBody::new` (`src/httpmessage.rs:461-483`) reads `Content-Length`;
`MessageBody::poll` (510-541) rejects a declared length over the limit, then moves the
payload into a fold of `bodyStep` and polls it. The body a caller gets is described
once, independently of the future that computes it, by `collectBody`: the cause a
collection stops for (`BodyCause`), or the bytes. `MessageBody` reports a cause as a
`PayloadError`; `UrlEncoded` (next module) reports the same causes as
`UrlencodedError`s.

Results:
* `drive_new`: driving `MessageBody` from `new` and `limit`, over a run of chunks and
  `NotReady`s that ends with end-of-data or an error, resolves within one poll more
  than the run has deliveries, to `collectBody` reported as `PayloadError`s.
* `overflow_then_reads_body`: the `Overflow` for a declared length over the limit is
  not final; polled again, the future folds the payload it never consumed.
* `Reachable.bufferFits`: in every state polls reach, the fold's body fits the limit
  its closure captured, which is the limit the future was given.
* `messageBody_resolves`: the documented outcome, `specBody`, is what every run gives,
  and the body never holds more than the limit.
-/
namespace ActixHttp

/-- Why collecting a body stops, whichever future collects it. -/
inductive BodyCause where
  /-- `Content-Length` is not a `usize` -/
  | unknownLength
  /-- the declared length, or the chunks, exceed the limit -/
  | overflow
  /-- the payload stream failed -/
  | source (e : PayloadError)
  deriving DecidableEq, Repr

/-- What collecting a message body is for: the declared length, if any, and the
delivered chunks both fit the limit, and the stream ends normally. -/
def collectBody (hdrs : HeaderMap) (L : Nat) (cs : List Bytes) (t : Terminal) :
    Except BodyCause Bytes :=
  match HttpMessage.readContentLength BodyCause.unknownLength hdrs with
  | .error c => .error c
  | .ok len =>
    if (len.any fun n => decide (L < n)) || decide (L < cs.flatten.length) then .error .overflow
    else t.close .source cs.flatten

/-- How `MessageBody` reports a cause: its own `PayloadError`s, and the stream's error
as it is. -/
def BodyCause.toPayload : BodyCause → PayloadError
  | .unknownLength => .unknownLength
  | .overflow => .overflow
  | .source e => e

/-- The state of `MessageBody<T>`. The boxed future is the fold with the limit its
closure captured (`.map(|body| body.freeze())` changes nothing in the model). -/
structure MessageBody where
  limit : Nat
  length : Option Nat
  stream : Payload
  err : Option PayloadError
  fut : Option (Nat × Fold)

namespace MessageBody

/-- `MessageBody::err`. -/
def ofErr (e : PayloadError) : MessageBody := ⟨262144, none, [], some e, none⟩

/-- `MessageBody::new`. -/
def new (req : Message) : MessageBody :=
  match HttpMessage.readContentLength PayloadError.unknownLength req.headers with
  | .ok len => ⟨262144, len, req.payload, none, none⟩
  | .error e => ofErr e

/-- `MessageBody::limit`. -/
def setLimit (mb : MessageBody) (limit : Nat) : MessageBody := { mb with limit }

/-- The first branch of `poll`: poll the boxed fold. -/
def pollFut (mb : MessageBody) (limit : Nat) (fd : Fold) :
    Option (Poll Bytes PayloadError × MessageBody) :=
  (fd.poll id (bodyStep .overflow limit)).map fun r => (r.1, { mb with fut := some (limit, r.2) })

/-- The `// future` block: the stream moves into a fold from an empty body, which the
recursive `self.poll()` then polls. -/
def startFold (mb : MessageBody) : Option (Poll Bytes PayloadError × MessageBody) :=
  pollFut { mb with stream := [] } mb.limit ⟨mb.stream, some []⟩

/-- `<MessageBody as Future>::poll`; `none` is a panic of the completed fold. -/
def poll (mb : MessageBody) : Option (Poll Bytes PayloadError × MessageBody) :=
  match mb.fut with
  | some (limit, fd) => pollFut mb limit fd
  | none =>
    match mb.err with
    | some e => some (.error e, { mb with err := none })
    | none =>
      match mb.length with
      | some len =>
        if len > mb.limit then some (.error .overflow, { mb with length := none })
        else startFold { mb with length := none }
      | none => startFold mb

/-- The states polls reach from `s0`. -/
inductive Reachable (s0 : MessageBody) : MessageBody → Prop
  | init : Reachable s0 s0
  | poll {s s' : MessageBody} {r : Poll Bytes PayloadError} :
    Reachable s0 s → poll s = some (r, s') → Reachable s0 s'

/-! ## Driving the fold -/

/-- Once the fold is boxed, driving `MessageBody` is driving the fold. -/
theorem drive_fut (limit : Nat) :
    ∀ (n : Nat) (mb : MessageBody) (fd : Fold), mb.fut = some (limit, fd) →
      drive poll n mb = drive (Fold.poll id (bodyStep .overflow limit)) n fd
  | 0, _, _, _ => rfl
  | n + 1, mb, ⟨stream, acc⟩, h => by
    cases acc with
    | none => simp [drive, poll, h, pollFut, Fold.poll]
    | some acc =>
      simp only [drive, poll, h, pollFut, Fold.poll, Option.map_some']
      generalize Fold.loop id (bodyStep .overflow limit) stream acc = q
      rcases q with ⟨_ | _ | _, fd'⟩
      · rfl
      · rfl
      · exact drive_fut limit n _ fd' rfl

theorem poll_startFold {mb : MessageBody} (hf : mb.fut = none) (he : mb.err = none)
    (hl : ∀ len ∈ mb.length, len ≤ mb.limit) :
    poll mb =
      poll { mb with stream := [], length := none, fut := some (mb.limit, ⟨mb.stream, some []⟩) } := by
  cases mb with
  | mk limit length stream err fut =>
    cases hf; cases he
    cases length with
    | none => rfl
    | some len => simp [poll, Nat.not_lt.2 (hl len rfl), startFold, pollFut]

/-- From a state that has not started, the first poll starts the fold, which then
folds the whole run. -/
theorem drive_start {mb : MessageBody} (hf : mb.fut = none) (he : mb.err = none)
    (hl : ∀ len ∈ mb.length, len ≤ mb.limit) (ds : List (Option Bytes)) (t : Terminal)
    (rest : Payload) (k : Nat) (hs : mb.stream = Payload.ofRun ds t rest) :
    drive poll (ds.length + k + 1) mb =
      some (foldRun id (bodyStep .overflow mb.limit) [] (chunks ds) t) := by
  rw [drive_succ_congr (poll_startFold hf he hl), drive_fut mb.limit _ _ _ rfl, hs]
  exact Fold.drive_fold_run id _ t rest ds [] _ (by omega)

/-- Refinement: `MessageBody` resolves to `collectBody`, reported as `PayloadError`s. -/
theorem drive_new (hdrs : HeaderMap) (L : Nat) (ds : List (Option Bytes)) (t : Terminal)
    (rest : Payload) (k : Nat) :
    drive poll (ds.length + 1 + k) ((new ⟨hdrs, Payload.ofRun ds t rest⟩).setLimit L) =
      some ((collectBody hdrs L (chunks ds) t).mapError BodyCause.toPayload) := by
  have hr : HttpMessage.readContentLength PayloadError.unknownLength hdrs =
      (HttpMessage.readContentLength BodyCause.unknownLength hdrs).mapError BodyCause.toPayload :=
    (HttpMessage.readContentLength_mapError BodyCause.toPayload BodyCause.unknownLength hdrs).symm
  rw [show ds.length + 1 + k = ds.length + k + 1 by omega]
  simp only [new, collectBody, hr]
  cases HttpMessage.readContentLength BodyCause.unknownLength hdrs with
  | error c => rfl
  | ok len =>
    by_cases hov : (len.any fun n => decide (L < n)) = true
    · obtain ⟨n, rfl, hn⟩ : ∃ n, len = some n ∧ L < n := by cases len <;> simp_all
      simp [drive, poll, setLimit, hn, Except.mapError, BodyCause.toPayload]
    · have hl : ∀ n ∈ len, n ≤ L := fun n hn => by cases hn; simpa using hov
      rw [drive_start rfl rfl hl ds t rest k rfl]
      simp only [setLimit, foldRun_bodyStep, hov, Bool.false_or, decide_eq_true_eq]
      split
      · rfl
      · cases t <;> rfl

/-- The declared-length `Overflow` is not final: `self.length.take()` has cleared the
declared length, so a further poll folds the stream that was never consumed. -/
theorem overflow_then_reads_body (hdrs : HeaderMap) (L n : Nat) (ds : List (Option Bytes))
    (t : Terminal) (rest : Payload) (k : Nat)
    (hlen : HttpMessage.readContentLength PayloadError.unknownLength hdrs = .ok (some n))
    (hn : L < n) :
    ∃ mb, poll ((new ⟨hdrs, Payload.ofRun ds t rest⟩).setLimit L) = some (.error .overflow, mb) ∧
      drive poll (ds.length + k + 1) mb =
        some (if L < (chunks ds).flatten.length then .error .overflow
          else t.close id (chunks ds).flatten) := by
  refine ⟨⟨L, none, Payload.ofRun ds t rest, none, none⟩, by simp [poll, new, hlen, setLimit, hn], ?_⟩
  rw [drive_start rfl rfl (fun _ h => by cases h) ds t rest k rfl, foldRun_bodyStep]

theorem overflow_then_reads_body_nine :
    ∃ mb, poll ((new ⟨[("content-length", ascii "9")], Payload.ofRun [some [97]] .eof []⟩).setLimit
        4) = some (.error .overflow, mb) ∧
      drive poll ([some [97]].length + 0 + 1) mb =
        some (if 4 < (chunks [some [97]]).flatten.length then .error .overflow
          else Terminal.eof.close id (chunks [some [97]]).flatten) :=
  overflow_then_reads_body _ 4 9 [some [97]] .eof [] 0 rfl (by decide)

/-! ## The body never holds more than the limit -/

/-- The limit is `L`, the boxed fold captured `L`, and the body it holds fits `L`. -/
def BufferFits (L : Nat) (mb : MessageBody) : Prop :=
  mb.limit = L ∧ ∀ lim fd, mb.fut = some (lim, fd) → lim = L ∧ ∀ acc ∈ fd.acc, acc.length ≤ L

/-- A poll of a boxed fold whose body fits `L` runs the fold loop, which keeps it so. -/
theorem pollFut_bufferFits {L : Nat} {mb mb' : MessageBody} {fd : Fold}
    {r : Poll Bytes PayloadError} (h : pollFut mb L fd = some (r, mb')) (hl : mb.limit = L)
    (hacc : ∀ acc ∈ fd.acc, acc.length ≤ L) : BufferFits L mb' := by
  obtain ⟨stream, _ | acc⟩ := fd
  · cases h
  · simp only [pollFut, Fold.poll, Option.map_some', Option.some.injEq, Prod.mk.injEq] at h
    obtain ⟨-, rfl⟩ := h
    refine ⟨hl, fun lim fd' h' => ?_⟩
    cases h'
    exact ⟨rfl, Fold.loop_acc_le id .overflow L stream acc (hacc acc rfl)⟩

/-- The step lemma: every poll keeps `BufferFits`, whichever branch it takes. -/
theorem poll_bufferFits {L : Nat} {mb mb' : MessageBody} {r : Poll Bytes PayloadError}
    (hi : BufferFits L mb) (h : poll mb = some (r, mb')) : BufferFits L mb' := by
  obtain ⟨hl, hf⟩ := hi
  have idle : ∀ m : MessageBody, m.limit = L → m.fut = none → BufferFits L m :=
    fun m hl hn => ⟨hl, fun _ _ h => by rw [hn] at h; cases h⟩
  have start : ∀ m : MessageBody, startFold m = some (r, mb') → m.limit = L → BufferFits L mb' := by
    intro m h hm
    subst hm
    unfold startFold at h
    exact pollFut_bufferFits h rfl fun acc h => by cases h; exact Nat.zero_le _
  cases hfut : mb.fut with
  | some p =>
    obtain ⟨lim, fd⟩ := p
    obtain ⟨rfl, hacc⟩ := hf lim fd hfut
    simp only [poll, hfut] at h
    exact pollFut_bufferFits h hl hacc
  | none =>
    simp only [poll, hfut] at h
    split at h
    · cases h; exact idle _ hl rfl
    · split at h
      · split_ifs at h
        · cases h; exact idle _ hl rfl
        · exact start _ h hl
      · exact start _ h hl

theorem new_bufferFits (req : Message) (L : Nat) : BufferFits L ((new req).setLimit L) := by
  refine ⟨rfl, fun _ _ h => ?_⟩
  unfold new at h
  split at h <;> cases h

/-- The run lemma: `BufferFits` holds in every state polls reach. -/
theorem Reachable.bufferFits {L : Nat} {s0 s : MessageBody} (hr : Reachable s0 s)
    (h0 : BufferFits L s0) : BufferFits L s := by
  induction hr with
  | init => exact h0
  | poll _ hp ih => exact poll_bufferFits ih hp

/-! ## The documented outcome -/

/-- The outcome after the declared length, as documented: `Overflow` when some prefix of
the chunks exceeds the limit, else the stream's error, else the concatenation. -/
def specChunks (L : Nat) (cs : List Bytes) (t : Terminal) : Except PayloadError Bytes :=
  if cs.inits.any fun p => decide (L < p.flatten.length) then .error .overflow
  else
    match t with
    | .fail e => .error e
    | .eof => .ok cs.flatten

/-- The outcome as documented: `UnknownLength` when `Content-Length` is present and is
not text that parses as a `usize`; else `Overflow` when the declared length exceeds the
limit; else `specChunks`. -/
def specBody (hdrs : HeaderMap) (L : Nat) (cs : List Bytes) (t : Terminal) :
    Except PayloadError Bytes :=
  match hdrs.get header.contentLength with
  | some v =>
    match v.toStr.bind fun s => parseUsize s.bytes with
    | none => .error .unknownLength
    | some len => if L < len then .error .overflow else specChunks L cs t
  | none => specChunks L cs t

/-- Some prefix exceeds the limit exactly when the whole does. -/
theorem any_inits_flatten (L : Nat) (cs : List Bytes) :
    (cs.inits.any fun p => decide (L < p.flatten.length)) = decide (L < cs.flatten.length) := by
  refine Bool.eq_iff_iff.2 ?_
  simp only [List.any_eq_true, List.mem_inits, decide_eq_true_eq]
  constructor
  · rintro ⟨p, ⟨q, rfl⟩, hp⟩
    simp only [List.flatten_append, List.length_append]
    omega
  · exact fun h => ⟨cs, List.prefix_refl cs, h⟩

theorem specChunks_eq (L : Nat) (cs : List Bytes) (t : Terminal) :
    specChunks L cs t = (if L < cs.flatten.length then .error .overflow
      else t.close BodyCause.source cs.flatten : Except BodyCause Bytes).mapError BodyCause.toPayload := by
  simp only [specChunks, any_inits_flatten, decide_eq_true_eq]
  by_cases h : L < cs.flatten.length
  · simp only [if_pos h]; rfl
  · simp only [if_neg h]; cases t <;> rfl

/-- The documented outcome is the cause-level one, reported as `PayloadError`s. -/
theorem specBody_eq (hdrs : HeaderMap) (L : Nat) (cs : List Bytes) (t : Terminal) :
    specBody hdrs L cs t = (collectBody hdrs L cs t).mapError BodyCause.toPayload := by
  unfold specBody collectBody HttpMessage.readContentLength
  cases hdrs.get header.contentLength with
  | none => simp [specChunks_eq]
  | some v =>
    dsimp only
    cases v.toStr with
    | none => rfl
    | some s =>
      dsimp only [Option.bind]
      cases parseUsize s.bytes with
      | none => rfl
      | some n =>
        by_cases hn : L < n <;> simp [hn, specChunks_eq, Except.mapError, BodyCause.toPayload]

theorem messageBody_resolves (hdrs : HeaderMap) (L : Nat) (ds : List (Option Bytes))
    (t : Terminal) (rest : Payload) :
    (∀ k, drive poll (ds.length + 1 + k) ((new ⟨hdrs, Payload.ofRun ds t rest⟩).setLimit L) =
      some (specBody hdrs L (chunks ds) t)) ∧
    ∀ s, Reachable ((new ⟨hdrs, Payload.ofRun ds t rest⟩).setLimit L) s →
      ∀ lim fd acc, s.fut = some (lim, fd) → fd.acc = some acc → acc.length ≤ L := by
  refine ⟨fun k => by rw [drive_new, specBody_eq], fun s hr lim fd acc hf hacc => ?_⟩
  exact ((hr.bufferFits (new_bufferFits _ L)).2 lim fd hf).2 acc hacc

theorem messageBody_resolves_suspended :
    drive poll 3 ((new ⟨[], Payload.ofRun [some [97], none] .eof []⟩).setLimit 4) =
      some (specBody [] 4 [[97]] .eof) ∧ ([97] : Bytes).length ≤ 4 :=
  ⟨(messageBody_resolves [] 4 [some [97], none] .eof []).1 0,
    (messageBody_resolves [] 4 [some [97], none] .eof []).2 _ (.poll .init rfl) 4
      ⟨[.eof], some [97]⟩ [97] rfl rfl⟩

end MessageBody
end ActixHttp
