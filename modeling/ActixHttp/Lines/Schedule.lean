import ActixHttp.Lines.Termination
/-!
# `NotReady` answers do not change what `Readlines` reads

When the payload answers `NotReady` depends on the network and the executor, not on the
request. A `NotReady` that reaches `pollStream` is passed on (line 421) and only sets
`checked_buff`, which a scan of the residual would have set anyway: the residual then
holds no `\n` (otherwise `pollBuff` would have answered without polling the stream).
So a reader is determined, up to its `NotReady` answers, by `canon s`: the stream
without them, and the flag set exactly when a scan would find nothing. A poll that
passes a `NotReady` on keeps `canon` (`canon_skip`); every other poll does the same on
`s` as on `canon s` (`poll_canon`). With the fuel-independence of the caller's loop
(`collect_fuel`), the loop run to its end gives the same lines and the same outcome from
`s` and from `canon s` (`collect_canon`).

Results:
* `readlines_notReady_independent`: two payloads that give the same answers apart from
  `NotReady` (chunks, end-of-data and errors, in order) make the caller's loop over a
  reader with the same headers and limit yield the same lines and end the same way.
-/
namespace ActixHttp
namespace Readlines

/-- The answers of a stream, without its `NotReady`s. -/
def dropNotReady (p : Payload) : Payload := p.filter (· != .notReady)

/-- A reader up to its `NotReady` answers: the stream without them, and `checked_buff`
set exactly when a scan of the residual would find no `\n`. -/
def canon (s : Readlines) : Readlines :=
  { s with stream := dropNotReady s.stream,
           checkedBuff := !decide (s.checkedBuff = false ∧ (10 : UInt8) ∈ s.buff) }

/-- The next poll passes a `NotReady` of the stream on. -/
def Skips (s : Readlines) : Prop :=
  s.err = none ∧ ¬(s.checkedBuff = false ∧ (10 : UInt8) ∈ s.buff) ∧
    s.stream.head? = some .notReady

@[simp] theorem dropNotReady_nil : dropNotReady [] = [] := rfl

@[simp] theorem dropNotReady_dropNotReady (p : Payload) :
    dropNotReady (dropNotReady p) = dropNotReady p := by
  simp [dropNotReady, List.filter_filter]

@[simp] theorem dropNotReady_cons_notReady (p : Payload) :
    dropNotReady (.notReady :: p) = dropNotReady p := by
  simp [dropNotReady, List.filter_cons]

theorem dropNotReady_cons {e : Ev} (he : e ≠ .notReady) (p : Payload) :
    dropNotReady (e :: p) = e :: dropNotReady p := by
  simp [dropNotReady, List.filter_cons, he]

theorem weight_dropNotReady_le : ∀ p : Payload, weight (dropNotReady p) ≤ weight p
  | [] => le_refl _
  | e :: p => by
    by_cases he : e = .notReady
    · subst he
      rw [dropNotReady_cons_notReady, weight]
      exact (weight_dropNotReady_le p).trans (Nat.le_add_left _ _)
    · rw [dropNotReady_cons he, weight, weight]
      exact Nat.add_le_add_left (weight_dropNotReady_le p) _

theorem measure_canon_le (s : Readlines) : measure (canon s) ≤ measure s := by
  simpa [measure, canon] using weight_dropNotReady_le s.stream

theorem canon_setStream_self {s : Readlines} {q : Payload} (h : s.stream = q) :
    canon { s with stream := dropNotReady q } = canon s := by
  subst h; simp [canon]

/-! ## One poll -/

theorem onChunk_setStream (s : Readlines) (q : Payload) (c : Bytes) :
    onChunk { s with stream := q } c = ((onChunk s c).1, { (onChunk s c).2 with stream := q }) := by
  unfold onChunk
  dsimp only
  split
  · split_ifs
    · rfl
    · split <;> rfl
  · rfl

theorem onEof_setStream (s : Readlines) (q : Payload) :
    onEof { s with stream := q } = ((onEof s).1, { (onEof s).2 with stream := q }) := by
  unfold onEof
  dsimp only
  split_ifs
  · rfl
  · rfl
  · split <;> rfl

theorem pollBuff_setStream (s : Readlines) (q : Payload) (hm : (10 : UInt8) ∈ s.buff) :
    pollBuff { s with stream := q } = ((pollBuff s).1, { (pollBuff s).2 with stream := q }) := by
  obtain ⟨pre, post, hb, hpre⟩ := exists_newline hm
  rw [pollBuff_split s hb hpre, pollBuff_split { s with stream := q } hb hpre]
  dsimp only
  split_ifs
  · rfl
  · split <;> rfl

/-- Without a `NotReady` in front, the stream branch reads the same answer from the
stream with or without its `NotReady`s. -/
theorem pollStream_dropNotReady (s : Readlines) (hs : s.stream.head? ≠ some .notReady) :
    (pollStream { s with stream := dropNotReady s.stream }).1 = (pollStream s).1 ∧
      canon (pollStream { s with stream := dropNotReady s.stream }).2 = canon (pollStream s).2 := by
  obtain ⟨stream, buff, limit, cb, enc, err⟩ := s
  cases stream with
  | nil => exact ⟨rfl, rfl⟩
  | cons e rest =>
    have he : e ≠ .notReady := fun h => hs (by simp [h])
    simp only [dropNotReady_cons he]
    cases e with
    | chunk c =>
      have h := onChunk_setStream ⟨rest, buff, limit, cb, enc, err⟩ (dropNotReady rest) c
      have h1 := congrArg Prod.fst h
      have h2 := (congrArg (canon ∘ Prod.snd) h).trans (canon_setStream_self (onChunk_stream _ c))
      exact ⟨h1, h2⟩
    | notReady => exact absurd rfl he
    | eof =>
      have h := onEof_setStream ⟨rest, buff, limit, cb, enc, err⟩ (dropNotReady rest)
      have h1 := congrArg Prod.fst h
      have h2 := (congrArg (canon ∘ Prod.snd) h).trans (canon_setStream_self (onEof_stream _))
      exact ⟨h1, h2⟩
    | fail e => exact ⟨rfl, canon_setStream_self (s := ⟨rest, buff, limit, cb, enc, err⟩) rfl⟩

/-- A poll that passes a `NotReady` on consumes it and sets `checked_buff` (line 421). -/
theorem poll_skip {s : Readlines} (h : Skips s) :
    poll s = (.ok .notReady, { s with stream := s.stream.tail, checkedBuff := true }) := by
  obtain ⟨herr, hc, hs⟩ := h
  rw [poll_eq herr, if_neg hc]
  obtain ⟨rest, hst⟩ : ∃ rest, s.stream = .notReady :: rest := by
    cases hst : s.stream with
    | nil => rw [hst] at hs; cases hs
    | cons e rest => rw [hst] at hs; cases hs; exact ⟨rest, rfl⟩
  simp [pollStream, hst]

theorem canon_skip {s : Readlines} (h : Skips s) :
    canon { s with stream := s.stream.tail, checkedBuff := true } = canon s := by
  obtain ⟨-, hc, hs⟩ := h
  cases hst : s.stream with
  | nil => rw [hst] at hs; cases hs
  | cons e rest =>
    rw [hst] at hs; cases hs
    simp [canon, hst, hc]

/-- The step lemma: unless it passes a `NotReady` on, a poll returns the same on `s` as
on `canon s`, and leads to states with the same `canon`. -/
theorem poll_canon {s : Readlines} (h : ¬Skips s) :
    (poll (canon s)).1 = (poll s).1 ∧ canon (poll (canon s)).2 = canon (poll s).2 := by
  cases herr : s.err with
  | some e =>
    have hc : (canon s).err = some e := herr
    rw [poll, poll, herr, hc]
    exact ⟨rfl, by simp [canon]⟩
  | none =>
    have hc : (canon s).err = none := herr
    rw [poll_eq herr, poll_eq hc]
    by_cases hb : s.checkedBuff = false ∧ (10 : UInt8) ∈ s.buff
    · have hcs : canon s = { s with stream := dropNotReady s.stream } := by
        simp [canon, hb]
      rw [if_pos hb, hcs, if_pos hb, pollBuff_setStream s _ hb.2]
      exact ⟨rfl, canon_setStream_self (by
        obtain ⟨pre, post, hbuf, hpre⟩ := exists_newline hb.2
        rw [pollBuff_split s hbuf hpre]
        split_ifs
        · rfl
        · split <;> rfl)⟩
    · have hcb : ¬((canon s).checkedBuff = false ∧ (10 : UInt8) ∈ (canon s).buff) := by
        simpa [canon] using hb
      rw [if_neg hb, if_neg hcb]
      exact pollStream_dropNotReady { s with checkedBuff := true } fun hs => h ⟨herr, hb, hs⟩

/-! ## Whole runs -/

/-- Once the loop has fuel for every poll, more fuel changes nothing. -/
theorem collect_add : ∀ (n k : Nat) (s : Readlines), measure s < n → collect (n + k) s = collect n s
  | 0, _, _, h => absurd h (Nat.not_lt_zero _)
  | n + 1, k, s, h => by
    rw [show n + 1 + k = n + k + 1 by omega]
    unfold collect
    split
    · rfl
    · next s' hp => exact collect_add n k s' (by have := measure_poll hp (.inl rfl); omega)
    · rfl
    · next l s' hp => rw [collect_add n k s' (by have := measure_poll hp (.inr ⟨l, rfl⟩); omega)]

theorem collect_fuel {s : Readlines} {n m : Nat} (hn : measure s < n) (hm : measure s < m) :
    collect n s = collect m s := by
  rcases le_total n m with h | h
  · obtain ⟨k, rfl⟩ := Nat.exists_eq_add_of_le h
    exact (collect_add n k s hn).symm
  · obtain ⟨k, rfl⟩ := Nat.exists_eq_add_of_le h
    exact collect_add m k s hm

/-- The run lemma: with fuel for every poll, the caller's loop gives the same from `s`
as from `canon s`. -/
theorem collect_canon : ∀ (n : Nat) (s : Readlines), measure s < n → collect n s = collect n (canon s)
  | 0, _, h => absurd h (Nat.not_lt_zero _)
  | n + 1, s, h => by
    have hcs := measure_canon_le s
    by_cases hs : Skips s
    · have hp := poll_skip hs
      have hm := measure_poll hp (.inl rfl)
      have hm' := measure_canon_le { s with stream := s.stream.tail, checkedBuff := true }
      rw [collect, hp]
      dsimp only
      rw [collect_canon n _ (by omega), canon_skip hs]
      rw [canon_skip hs] at hm'
      exact collect_fuel (by omega) (by omega)
    · obtain ⟨h1, h2⟩ := poll_canon hs
      rw [collect, collect]
      rcases hps : poll s with ⟨r, s'⟩
      rcases hpc : poll (canon s) with ⟨r', c'⟩
      rw [hps, hpc] at h1 h2
      dsimp only at h1 h2
      subst h1
      have ih : (r' = .ok .notReady ∨ ∃ l, r' = .ok (.ready (some l))) →
          collect n c' = collect n s' := fun hr => by
        have := measure_poll hps hr
        have := measure_poll hpc hr
        rw [collect_canon n s' (by omega), collect_canon n c' (by omega), h2]
      rcases r' with e | ((_ | l) | _)
      · rfl
      · rfl
      · dsimp only
        rw [ih (.inr ⟨l, rfl⟩)]
      · exact (ih (.inl rfl)).symm

theorem readlines_notReady_independent (d : Deps) (hdrs : HeaderMap) (L : Nat) (p p' : Payload)
    (h : dropNotReady p = dropNotReady p') :
    collect (measure ((new d ⟨hdrs, p⟩).setLimit L) + 1) ((new d ⟨hdrs, p⟩).setLimit L) =
      collect (measure ((new d ⟨hdrs, p'⟩).setLimit L) + 1) ((new d ⟨hdrs, p'⟩).setLimit L) := by
  have hc : canon ((new d ⟨hdrs, p⟩).setLimit L) = canon ((new d ⟨hdrs, p'⟩).setLimit L) := by
    cases he : HttpMessage.encoding d hdrs <;> simp [new, he, canon, setLimit, init, ofErr, h]
  have hm := measure_canon_le ((new d ⟨hdrs, p⟩).setLimit L)
  have hm' := measure_canon_le ((new d ⟨hdrs, p'⟩).setLimit L)
  rw [collect_canon _ _ (Nat.lt_succ_self _), collect_canon _ ((new d ⟨hdrs, p'⟩).setLimit L)
    (Nat.lt_succ_self _), hc]
  rw [hc] at hm
  exact collect_fuel (by omega) (by omega)

/-- The same two chunks, with `NotReady` answers placed differently, under a limit that
reads both: each run yields `a\n` and then `b`, the second across a `NotReady`. -/
theorem readlines_notReady_independent_moved :
    dropNotReady [.chunk [97, 10], .notReady, .chunk [98]] =
      dropNotReady [.notReady, .chunk [97, 10], .chunk [98], .notReady] ∧
    collect (measure ((new Deps.plain ⟨[], [.chunk [97, 10], .notReady, .chunk [98]]⟩).setLimit 2) + 1)
        ((new Deps.plain ⟨[], [.chunk [97, 10], .notReady, .chunk [98]]⟩).setLimit 2) =
      collect (measure ((new Deps.plain
          ⟨[], [.notReady, .chunk [97, 10], .chunk [98], .notReady]⟩).setLimit 2) + 1)
        ((new Deps.plain ⟨[], [.notReady, .chunk [97, 10], .chunk [98], .notReady]⟩).setLimit 2) :=
  ⟨by decide, readlines_notReady_independent Deps.plain [] 2 _ _ (by decide)⟩

end Readlines
end ActixHttp
