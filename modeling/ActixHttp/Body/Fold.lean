import ActixHttp.Message.Negotiate
/-!
# Folding the payload (`Stream::fold` of futures 0.1)

`MessageBody::poll` and `UrlEncoded::poll` both move the payload into
`stream.from_err().fold(BytesMut::with_capacity(8192), f)` with the same closure
(`bodyStep`, lines 530-537 and 641-648): a chunk that would take the body past the limit
fails with the collector's own `Overflow`, any other chunk is appended.

`Fold::poll` loops inside one call: it pulls answers and applies the closure until the
stream is not ready, ends or fails. After it completes its state is `State::Empty` and
another poll panics ("cannot poll Fold twice"); the model returns `none` there.

`drive` is a caller polling a future until it is ready or fails.

Results:
* `drive_fold_run`: on a run of chunks and `NotReady`s followed by end-of-data or an
  error, the fold's result is `List.foldlM` of the closure over the chunks, then the
  end (`foldRun`), whatever the interleaving of `NotReady`s.
* `foldlM_bodyStep`: the closure's fold fails with `Overflow` exactly when the chunks
  take the body past the limit, and otherwise concatenates them.
* `loop_acc_le`: a fold with `bodyStep` never holds more than the limit.
-/
namespace ActixHttp

/-- `Fold` over the payload: what is left of the stream, and `State::Ready(acc)`
(`some acc`) or `State::Empty` (`none`, completed). -/
structure Fold where
  stream : Payload
  acc : Option Bytes

namespace Fold

variable {ε : Type} (lift : PayloadError → ε) (f : Bytes → Bytes → Except ε Bytes)

/-- The loop of `Fold::poll` from `State::Ready(acc)`; `lift` is `from_err`. -/
def loop : Payload → Bytes → Poll Bytes ε × Fold
  | [], acc => (.ok (.ready acc), ⟨[], none⟩)
  | .chunk c :: rest, acc =>
    match f acc c with
    | .ok acc' => loop rest acc'
    | .error e => (.error e, ⟨rest, none⟩)
  | .notReady :: rest, acc => (.ok .notReady, ⟨rest, some acc⟩)
  | .eof :: rest, acc => (.ok (.ready acc), ⟨rest, none⟩)
  | .fail e :: rest, _ => (.error (lift e), ⟨rest, none⟩)

/-- `<Fold as Future>::poll`; `none` is the panic on a completed fold. -/
def poll (fd : Fold) : Option (Poll Bytes ε × Fold) := fd.acc.map (loop lift f fd.stream)

end Fold

/-- The closure `MessageBody::poll` and `UrlEncoded::poll` fold with, each with its own
`Overflow`. -/
def bodyStep {ε : Type} (overflow : ε) (limit : Nat) (body chunk : Bytes) : Except ε Bytes :=
  if body.length + chunk.length > limit then .error overflow else .ok (body ++ chunk)

/-- A caller polling a future at most `fuel` times until it is ready or fails; `none`
when the fuel runs out or the future panics. -/
def drive {σ α ε : Type} (poll : σ → Option (Poll α ε × σ)) : Nat → σ → Option (Except ε α)
  | 0, _ => none
  | n + 1, s =>
    match poll s with
    | some (.ok .notReady, s') => drive poll n s'
    | some (.ok (.ready a), _) => some (.ok a)
    | some (.error e, _) => some (.error e)
    | none => none

/-- The end of a run: end-of-data keeps the body, an error is lifted. -/
def Terminal.close {ε : Type} (lift : PayloadError → ε) (body : Bytes) : Terminal → Except ε Bytes
  | .eof => .ok body
  | .fail e => .error (lift e)

/-- What folding a run gives: the closure over the chunks, then the end. -/
def foldRun {ε : Type} (lift : PayloadError → ε) (f : Bytes → Bytes → Except ε Bytes)
    (acc : Bytes) (cs : List Bytes) (t : Terminal) : Except ε Bytes :=
  (cs.foldlM f acc).bind fun body => t.close lift body

namespace Fold

variable {ε : Type} (lift : PayloadError → ε) (f : Bytes → Bytes → Except ε Bytes)

/-- A chunk the closure accepts is folded within the same poll. -/
theorem drive_chunk {acc acc' c : Bytes} (h : f acc c = .ok acc') (n : Nat) (rest : Payload) :
    drive (poll lift f) (n + 1) ⟨.chunk c :: rest, some acc⟩ =
      drive (poll lift f) (n + 1) ⟨rest, some acc'⟩ := by
  simp only [drive, poll, Option.map_some', loop, h]

theorem drive_fold_run (t : Terminal) (rest : Payload) :
    ∀ (ds : List (Option Bytes)) (acc : Bytes) (n : Nat), ds.length < n →
      drive (poll lift f) n ⟨ds.map Ev.ofDelivery ++ t.toEv :: rest, some acc⟩ =
        some (foldRun lift f acc (chunks ds) t)
  | [], acc, n + 1, _ => by cases t <;> rfl
  | none :: ds, acc, n + 1, h => by
    simp only [List.map_cons, Ev.ofDelivery, List.cons_append, drive, poll, Option.map_some',
      loop]
    exact drive_fold_run t rest ds acc n (by simp at h; omega)
  | some c :: ds, acc, n + 1, h => by
    simp only [List.map_cons, Ev.ofDelivery, List.cons_append]
    cases hf : f acc c with
    | error e =>
      simp only [drive, poll, Option.map_some', loop, hf, foldRun, chunks_cons_some,
        List.foldlM_cons]
      rfl
    | ok acc' =>
      rw [drive_chunk lift f hf, drive_fold_run t rest ds acc' (n + 1) (by simp at h; omega)]
      simp only [foldRun, chunks_cons_some, List.foldlM_cons, hf]
      rfl

end Fold

theorem foldlM_bodyStep {ε : Type} (overflow : ε) (L : Nat) :
    ∀ (cs : List Bytes) (acc : Bytes), acc.length ≤ L →
      cs.foldlM (bodyStep overflow L) acc =
        if L < acc.length + cs.flatten.length then .error overflow else .ok (acc ++ cs.flatten)
  | [], acc, h => by simp only [List.flatten_nil, List.length_nil, Nat.add_zero,
      Nat.not_lt.2 h, if_false, List.append_nil]; rfl
  | c :: cs, acc, h => by
    rw [List.foldlM_cons]
    by_cases hc : acc.length + c.length > L
    · have : L < acc.length + (c :: cs).flatten.length := by simp; omega
      simp only [bodyStep, hc, if_true, this]
      rfl
    · simp only [bodyStep, hc, if_false]
      show (cs.foldlM (bodyStep overflow L) (acc ++ c)) = _
      rw [foldlM_bodyStep overflow L cs (acc ++ c) (by simp; omega)]
      simp [Nat.add_assoc]

/-- A `bodyStep` fold of a run from an empty body: `Overflow` when the chunks exceed the
limit, else the end of the run applied to their concatenation. -/
theorem foldRun_bodyStep {ε : Type} (lift : PayloadError → ε) (overflow : ε) (L : Nat)
    (cs : List Bytes) (t : Terminal) :
    foldRun lift (bodyStep overflow L) [] cs t =
      if L < cs.flatten.length then .error overflow else t.close lift cs.flatten := by
  simp only [foldRun, foldlM_bodyStep overflow L cs [] (Nat.zero_le _), List.length_nil,
    Nat.zero_add, List.nil_append]
  split <;> rfl

/-- States that poll alike drive alike. -/
theorem drive_succ_congr {σ α ε : Type} {poll : σ → Option (Poll α ε × σ)} {s s' : σ}
    (h : poll s = poll s') (n : Nat) : drive poll (n + 1) s = drive poll (n + 1) s' := by
  simp only [drive, h]

/-- Every accumulator a `bodyStep` fold leaves behind fits the limit. -/
theorem Fold.loop_acc_le {ε : Type} (lift : PayloadError → ε) (overflow : ε) (L : Nat) :
    ∀ (p : Payload) (acc : Bytes), acc.length ≤ L →
      ∀ acc', (loop lift (bodyStep overflow L) p acc).2.acc = some acc' → acc'.length ≤ L
  | [], _, _, _, h => by cases h
  | .chunk c :: rest, acc, _, acc', h => by
    by_cases hc : acc.length + c.length > L
    · simp [loop, bodyStep, hc] at h
    · simp only [loop, bodyStep, hc, if_false] at h
      exact loop_acc_le lift overflow L rest (acc ++ c) (by simp; omega) acc' h
  | .notReady :: _, acc, hacc, acc', h => by
    simp only [loop, Option.some.injEq] at h; exact h ▸ hacc
  | .eof :: rest, _, _, _, h => by cases h
  | .fail e :: rest, _, _, _, h => by cases h

end ActixHttp
