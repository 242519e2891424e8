import ActixHttp.Message.Negotiate
/-!
# `Readlines` (`src/httpmessage.rs:296-444`)

The line reader is a state machine over `(stream, buff, limit, checked_buff, encoding,
err)`. One `poll`, as the code writes it:

* `err` set: return it (`err.take()`).
* `checked_buff` false: look for `\n` in `buff`. Found at `ind`: fail `LimitOverflow`
  if `ind + 1 > limit`, else cut `buff[..=ind]` off and decode it (`pollBuff`). Not
  found: set `checked_buff` and go on to the stream.
* Poll the stream (`pollStream`): a chunk with `\n` at `ind` yields the chunk's own
  `bytes[..=ind]` and appends the rest to `buff` (`onChunk`); a chunk without `\n` is
  appended and the poll returns `NotReady`; `NotReady` is passed on; end-of-data yields
  the residual as a last line, or ends the stream if it is empty (`onEof`); an error is
  wrapped.

`collect` is the caller's loop with a bound on the number of polls, and `Reachable`
the states a run of polls reaches.

Results:
* `newlinePos_eq_some`, `newlinePos_eq_none`: the scan finds the first `\n`.
* `poll_notReady_iff`: `poll` suspends exactly when the stream answered `NotReady`, or
  answered a chunk without `\n`.
* `poll_limit`: a poll never changes the limit.
-/
namespace ActixHttp

/-- `Readlines<T>`. -/
structure Readlines where
  stream : Payload
  buff : Bytes
  limit : Nat
  checkedBuff : Bool
  encoding : Encoding
  err : Option ReadlinesError

namespace Readlines

/-- `Readlines::err`. -/
def ofErr (e : ReadlinesError) : Readlines :=
  { stream := [], buff := [], limit := 262144, checkedBuff := true, encoding := .utf8,
    err := some e }

/-- The value `Readlines::new` builds once the charset is known. -/
def init (enc : Encoding) (stream : Payload) : Readlines :=
  { stream, buff := [], limit := 262144, checkedBuff := true, err := none, encoding := enc }

/-- `Readlines::new`. -/
def new (d : Deps) (req : Message) : Readlines :=
  match HttpMessage.encoding d req.headers with
  | .ok enc => init enc req.payload
  | .error e => ofErr (.contentTypeError e)

/-- `Readlines::limit`. -/
def setLimit (s : Readlines) (limit : Nat) : Readlines := { s with limit }

/-- The scan `for (ind, b) in bytes.iter().enumerate()` for the first `b'\n'`. -/
def newlinePos : Bytes → Option Nat
  | [] => none
  | b :: bs => if b = 10 then some 0 else (newlinePos bs).map (· + 1)

/-- The decode the three `Ready(Some(line))` returns share: `str::from_utf8` when the
charset is `UTF_8`, `encoding.decode(.., DecoderTrap::Strict)` otherwise. -/
def decodeLine : Encoding → Bytes → Option RStr
  | .utf8, bs => fromUtf8 bs
  | .other dec, bs => dec bs

/-- What one `poll` returns, with the state it leaves. -/
abbrev Step := Poll (Option RStr) ReadlinesError × Readlines

/-- Lines 389-420: the stream delivered `bytes`. -/
def onChunk (s : Readlines) (bytes : Bytes) : Step :=
  match newlinePos bytes with
  | some ind =>
    if ind + 1 > s.limit then (.error .limitOverflow, s)
    else
      match decodeLine s.encoding (bytes.take (ind + 1)) with
      | some line =>
        (.ok (.ready (some line)),
          { s with buff := s.buff ++ bytes.drop (ind + 1), checkedBuff := false })
      | none => (.error .encodingError, s)
  | none => (.ok .notReady, { s with buff := s.buff ++ bytes })

/-- Lines 422-441: the stream ended. -/
def onEof (s : Readlines) : Step :=
  if s.buff.isEmpty then (.ok (.ready none), s)
  else if s.buff.length > s.limit then (.error .limitOverflow, s)
  else
    match decodeLine s.encoding s.buff with
    | some line => (.ok (.ready (some line)), { s with buff := [] })
    | none => (.error .encodingError, s)

/-- Lines 387-443: poll the payload for more bytes. -/
def pollStream (s : Readlines) : Step :=
  match Payload.poll s.stream with
  | (.chunk bytes, rest) => onChunk { s with stream := rest } bytes
  | (.notReady, rest) => (.ok .notReady, { s with stream := rest })
  | (.eof, rest) => onEof { s with stream := rest }
  | (.fail e, rest) => (.error (.payload e), { s with stream := rest })

/-- Lines 359-386: look for a line in the residual buffer. -/
def pollBuff (s : Readlines) : Step :=
  match newlinePos s.buff with
  | some ind =>
    if ind + 1 > s.limit then (.error .limitOverflow, s)
    else
      match decodeLine s.encoding (s.buff.take (ind + 1)) with
      | some line => (.ok (.ready (some line)), { s with buff := s.buff.drop (ind + 1) })
      | none => (.error .encodingError, { s with buff := s.buff.drop (ind + 1) })
  | none => pollStream { s with checkedBuff := true }

/-- `<Readlines as Stream>::poll`. -/
def poll (s : Readlines) : Step :=
  match s.err with
  | some e => (.error e, { s with err := none })
  | none => if s.checkedBuff then pollStream s else pollBuff s

/-- How the caller's loop over `poll` ends. -/
inductive Outcome where
  | done
  | failed (e : ReadlinesError)
  | outOfFuel
  deriving DecidableEq, Repr

/-- The caller's loop: poll until `Ready(None)` or an error, at most `fuel` times,
collecting the lines. -/
def collect : Nat → Readlines → List RStr × Outcome
  | 0, _ => ([], .outOfFuel)
  | n + 1, s =>
    match s.poll with
    | (.error e, _) => ([], .failed e)
    | (.ok .notReady, s') => collect n s'
    | (.ok (.ready none), _) => ([], .done)
    | (.ok (.ready (some l)), s') => ((l :: (collect n s').1), (collect n s').2)

/-- The states polls lead to from `s0`, whatever each poll returned. -/
inductive Reachable (s0 : Readlines) : Readlines → Prop where
  | init : Reachable s0 s0
  | poll {s : Readlines} : Reachable s0 s → Reachable s0 (poll s).2

theorem new_eq_init {d : Deps} {req : Message} {enc : Encoding}
    (h : HttpMessage.encoding d req.headers = .ok enc) : new d req = init enc req.payload := by
  simp [new, h]

/-- With no `Content-Type` the charset is UTF-8. -/
theorem new_nil_headers (d : Deps) (p : Payload) : new d ⟨[], p⟩ = init .utf8 p :=
  new_eq_init (HttpMessage.encoding_of_no_contentType rfl)

/-! ## The newline scan -/

theorem newlinePos_eq_none {bs : Bytes} : newlinePos bs = none ↔ (10 : UInt8) ∉ bs := by
  induction bs with
  | nil => simp [newlinePos]
  | cons b bs ih =>
    by_cases hb : b = 10
    · simp [newlinePos, hb]
    · simp [newlinePos, hb, ih, Ne.symm hb]

theorem newlinePos_eq_some {bs : Bytes} {i : Nat} (h : newlinePos bs = some i) :
    ∃ pre post, bs = pre ++ 10 :: post ∧ (10 : UInt8) ∉ pre ∧ pre.length = i := by
  induction bs generalizing i with
  | nil => cases h
  | cons b bs ih =>
    by_cases hb : b = 10
    · simp only [newlinePos, hb, if_true, Option.some.injEq] at h
      exact ⟨[], bs, by simp [hb], by simp, h⟩
    · simp only [newlinePos, hb, if_false, Option.map_eq_some'] at h
      obtain ⟨j, hj, rfl⟩ := h
      obtain ⟨pre, post, rfl, hpre, rfl⟩ := ih hj
      exact ⟨b :: pre, post, rfl, by simp [hpre, Ne.symm hb], rfl⟩

theorem newlinePos_split {pre : Bytes} (hpre : (10 : UInt8) ∉ pre) (post : Bytes) :
    newlinePos (pre ++ 10 :: post) = some pre.length := by
  induction pre with
  | nil => simp [newlinePos]
  | cons b pre ih =>
    have hb : b ≠ 10 := fun h => hpre (h ▸ List.mem_cons_self _ _)
    simp [newlinePos, hb, ih (fun h => hpre (List.mem_cons_of_mem _ h))]

theorem exists_newline {bs : Bytes} (h : (10 : UInt8) ∈ bs) :
    ∃ pre post, bs = pre ++ 10 :: post ∧ (10 : UInt8) ∉ pre := by
  cases hp : newlinePos bs with
  | none => exact absurd h (newlinePos_eq_none.1 hp)
  | some i => obtain ⟨pre, post, e, hpre, -⟩ := newlinePos_eq_some hp; exact ⟨pre, post, e, hpre⟩

theorem take_drop_newline {pre post : Bytes} :
    (pre ++ 10 :: post).take (pre.length + 1) = pre ++ [10] ∧
      (pre ++ 10 :: post).drop (pre.length + 1) = post := by
  constructor
  · rw [List.take_append_eq_append_take]; simp
  · rw [List.drop_append_eq_append_drop]; simp

/-! ## One equation per branch -/

theorem onChunk_of_not_mem {s : Readlines} {bytes : Bytes} (h : (10 : UInt8) ∉ bytes) :
    onChunk s bytes = (.ok .notReady, { s with buff := s.buff ++ bytes }) := by
  rw [onChunk, newlinePos_eq_none.2 h]

theorem onChunk_split (s : Readlines) {pre : Bytes} (hpre : (10 : UInt8) ∉ pre) (post : Bytes) :
    onChunk s (pre ++ 10 :: post) =
      if pre.length + 1 > s.limit then (.error .limitOverflow, s)
      else
        match decodeLine s.encoding (pre ++ [10]) with
        | some line =>
          (.ok (.ready (some line)), { s with buff := s.buff ++ post, checkedBuff := false })
        | none => (.error .encodingError, s) := by
  simp only [onChunk, newlinePos_split hpre, take_drop_newline]

theorem pollBuff_split (s : Readlines) {pre post : Bytes} (hb : s.buff = pre ++ 10 :: post)
    (hpre : (10 : UInt8) ∉ pre) :
    pollBuff s =
      if pre.length + 1 > s.limit then (.error .limitOverflow, s)
      else
        match decodeLine s.encoding (pre ++ [10]) with
        | some line => (.ok (.ready (some line)), { s with buff := post })
        | none => (.error .encodingError, { s with buff := post }) := by
  simp only [pollBuff, hb, newlinePos_split hpre, take_drop_newline]

theorem onEof_nil {s : Readlines} (hb : s.buff = []) : onEof s = (.ok (.ready none), s) := by
  simp [onEof, hb]

theorem onEof_line {s : Readlines} {l : RStr} (hb : s.buff ≠ []) (hl : s.buff.length ≤ s.limit)
    (hd : decodeLine s.encoding s.buff = some l) :
    onEof s = (.ok (.ready (some l)), { s with buff := [] }) := by
  simp [onEof, hb, Nat.not_lt.2 hl, hd]

theorem onEof_overflow {s : Readlines} (hb : s.buff ≠ []) (hl : s.limit < s.buff.length) :
    onEof s = (.error .limitOverflow, s) := by
  simp [onEof, hb, hl]

theorem err_eq_none {s : Readlines} {r : Poll (Option RStr) ReadlinesError} {s' : Readlines}
    (h : poll s = (r, s')) (hr : ∀ e, r ≠ .error e) : s.err = none := by
  cases herr : s.err with
  | some e => rw [poll, herr] at h; exact absurd (Prod.mk.inj h).1.symm (hr e)
  | none => rfl

/-- A poll without a stored error either takes a line from the residual buffer or
polls the stream with `checked_buff` set. -/
theorem poll_eq {s : Readlines} (herr : s.err = none) :
    poll s = if s.checkedBuff = false ∧ (10 : UInt8) ∈ s.buff then pollBuff s
      else pollStream { s with checkedBuff := true } := by
  cases s with
  | mk stream buff limit checked enc err =>
    subst herr
    cases checked
    · by_cases hm : (10 : UInt8) ∈ buff
      · simp [poll, hm]
      · simp [poll, hm, pollBuff, newlinePos_eq_none.2 hm]
    · simp [poll]

/-! ## What a poll can do -/

/-- The stream branch yields a line in two ways: from a chunk holding `\n`, or the
residual at end-of-data. -/
theorem pollStream_ready_some {t t' : Readlines} {l : RStr}
    (h : pollStream t = (.ok (.ready (some l)), t')) :
    (∃ pre post rest, t.stream = .chunk (pre ++ 10 :: post) :: rest ∧ (10 : UInt8) ∉ pre ∧
      pre.length + 1 ≤ t.limit ∧ decodeLine t.encoding (pre ++ [10]) = some l ∧
      t' = { t with stream := rest, buff := t.buff ++ post, checkedBuff := false }) ∨
    ((Payload.poll t.stream).1 = .eof ∧ t.buff ≠ [] ∧ t.buff.length ≤ t.limit ∧
      decodeLine t.encoding t.buff = some l ∧
      t' = { t with stream := (Payload.poll t.stream).2, buff := [] }) := by
  unfold pollStream at h
  split at h
  · next bytes rest hp =>
    have hs := Payload.poll_eq_cons hp (by simp)
    by_cases hm : (10 : UInt8) ∈ bytes
    · obtain ⟨pre, post, rfl, hpre⟩ := exists_newline hm
      rw [onChunk_split _ hpre] at h
      split_ifs at h with hl
      · cases h
      split at h
      · next line hd =>
        cases h
        exact .inl ⟨pre, post, rest, hs, hpre, by simpa using hl, hd, rfl⟩
      · cases h
    · rw [onChunk_of_not_mem hm] at h; cases h
  · cases h
  · next rest hp =>
    unfold onEof at h
    split_ifs at h with he hl
    · cases h
    · cases h
    split at h
    · next line hd =>
      cases h
      exact .inr ⟨by rw [hp], by simpa using he, by simpa using hl, hd, by rw [hp]⟩
    · cases h
  · cases h

/-- A poll that yields a line took it from the residual buffer, or from the stream
branch (`pollStream_ready_some`). -/
theorem poll_ready_some {s s' : Readlines} {l : RStr}
    (h : poll s = (.ok (.ready (some l)), s')) :
    s.err = none ∧
    ((s.checkedBuff = false ∧ ∃ pre post, s.buff = pre ++ 10 :: post ∧ (10 : UInt8) ∉ pre ∧
        pre.length + 1 ≤ s.limit ∧ decodeLine s.encoding (pre ++ [10]) = some l ∧
        s' = { s with buff := post }) ∨
      (¬(s.checkedBuff = false ∧ (10 : UInt8) ∈ s.buff) ∧
        pollStream { s with checkedBuff := true } = (.ok (.ready (some l)), s'))) := by
  have herr := err_eq_none h (fun _ => by simp)
  refine ⟨herr, ?_⟩
  rw [poll_eq herr] at h
  split_ifs at h with hc
  · refine .inl ⟨hc.1, ?_⟩
    obtain ⟨pre, post, hb, hpre⟩ := exists_newline hc.2
    rw [pollBuff_split s hb hpre] at h
    split_ifs at h with hl
    · cases h
    split at h
    · next line hd => cases h; exact ⟨pre, post, hb, hpre, by simpa using hl, hd, rfl⟩
    · cases h
  · exact .inr ⟨hc, h⟩

/-- A poll suspends only on the stream's `NotReady` or on a chunk without `\n`, which
it appends to the residual. -/
theorem poll_notReady {s s' : Readlines} (h : poll s = (.ok .notReady, s')) :
    s.err = none ∧ ¬(s.checkedBuff = false ∧ (10 : UInt8) ∈ s.buff) ∧
      ((∃ rest, s.stream = .notReady :: rest ∧
          s' = { s with stream := rest, checkedBuff := true }) ∨
        (∃ c rest, s.stream = .chunk c :: rest ∧ (10 : UInt8) ∉ c ∧
          s' = { s with stream := rest, buff := s.buff ++ c, checkedBuff := true })) := by
  have herr := err_eq_none h (fun _ => by simp)
  rw [poll_eq herr] at h
  split_ifs at h with hc
  · obtain ⟨pre, post, hb, hpre⟩ := exists_newline hc.2
    rw [pollBuff_split s hb hpre] at h
    split_ifs at h
    · cases h
    split at h <;> cases h
  · refine ⟨herr, hc, ?_⟩
    unfold pollStream at h
    split at h
    · next bytes rest hp =>
      have hs := Payload.poll_eq_cons hp (by simp)
      by_cases hm : (10 : UInt8) ∈ bytes
      · obtain ⟨pre, post, rfl, hpre⟩ := exists_newline hm
        rw [onChunk_split _ hpre] at h
        split_ifs at h
        · cases h
        split at h <;> cases h
      · rw [onChunk_of_not_mem hm] at h
        cases h
        exact .inr ⟨bytes, rest, hs, hm, rfl⟩
    · next rest hp =>
      cases h
      exact .inl ⟨rest, Payload.poll_eq_cons hp (by simp), rfl⟩
    · unfold onEof at h
      split_ifs at h
      · cases h
      · cases h
      split at h <;> cases h
    · cases h

/-- `Readlines::poll` suspends exactly when the stream answered `NotReady`, or answered
a chunk without `\n`; in the second case it took a ready chunk and still suspends. -/
theorem poll_notReady_iff (s : Readlines) :
    (poll s).1 = .ok .notReady ↔
      s.err = none ∧ ¬(s.checkedBuff = false ∧ (10 : UInt8) ∈ s.buff) ∧
        ((Payload.poll s.stream).1 = .notReady ∨
          ∃ c, (Payload.poll s.stream).1 = .chunk c ∧ (10 : UInt8) ∉ c) := by
  constructor
  · intro h
    obtain ⟨herr, hc, hs⟩ := poll_notReady (Prod.ext h rfl : poll s = (_, (poll s).2))
    refine ⟨herr, hc, ?_⟩
    rcases hs with ⟨rest, hs, -⟩ | ⟨c, rest, hs, hc, -⟩
    · exact .inl (by rw [hs]; rfl)
    · exact .inr ⟨c, by rw [hs]; rfl, hc⟩
  · rintro ⟨herr, hc, hs⟩
    rw [poll_eq herr, if_neg hc]
    cases hst : s.stream with
    | nil => rw [hst] at hs; simp at hs
    | cons e rest =>
      rw [hst] at hs
      rcases hs with hs | ⟨c, hs, hn⟩ <;> simp only [Payload.poll_cons] at hs <;> subst hs
      · simp [pollStream, hst]
      · simp [pollStream, hst, onChunk_of_not_mem hn]

/-- On the first poll of a UTF-8 reader whose payload delivers `b"a"`, the stream
answers with a ready chunk and `poll` still returns `NotReady` (lines 418-419). -/
theorem poll_notReady_after_chunk :
    (Payload.poll (new Deps.plain ⟨[], [.chunk [97]]⟩).stream).1 = .chunk [97] ∧
      (poll (new Deps.plain ⟨[], [.chunk [97]]⟩)).1 = .ok .notReady := by
  rw [new_nil_headers]
  exact ⟨rfl, rfl⟩

/-! ## What a poll keeps -/

@[simp] theorem onChunk_limit (s : Readlines) (b : Bytes) : (onChunk s b).2.limit = s.limit := by
  unfold onChunk; split
  · split
    · rfl
    · split <;> rfl
  · rfl

@[simp] theorem onEof_limit (s : Readlines) : (onEof s).2.limit = s.limit := by
  unfold onEof; split
  · rfl
  · split
    · rfl
    · split <;> rfl

@[simp] theorem pollStream_limit (s : Readlines) : (pollStream s).2.limit = s.limit := by
  unfold pollStream; split <;> simp

theorem onChunk_stream (s : Readlines) (b : Bytes) : (onChunk s b).2.stream = s.stream := by
  unfold onChunk; split
  · split
    · rfl
    · split <;> rfl
  · rfl

theorem onEof_stream (s : Readlines) : (onEof s).2.stream = s.stream := by
  unfold onEof; split
  · rfl
  · split
    · rfl
    · split <;> rfl

theorem pollStream_stream (s : Readlines) : (pollStream s).2.stream = s.stream.tail := by
  unfold pollStream
  split <;> rename_i hp <;> rw [← Payload.poll_snd, hp] <;> simp [onChunk_stream, onEof_stream]

/-- A poll consumes at most one answer of the stream. -/
theorem poll_stream (s : Readlines) :
    (poll s).2.stream = s.stream ∨ (poll s).2.stream = s.stream.tail := by
  unfold poll pollBuff
  split
  · exact .inl rfl
  · split
    · exact .inr (pollStream_stream _)
    · split
      · split
        · exact .inl rfl
        · split <;> exact .inl rfl
      · exact .inr (pollStream_stream _)

theorem poll_limit (s : Readlines) : (poll s).2.limit = s.limit := by
  unfold poll pollBuff; split
  · rfl
  · split
    · simp
    · split
      · split
        · rfl
        · split <;> rfl
      · simp

end Readlines
end ActixHttp
