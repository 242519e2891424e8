import ActixHttp.Lines.Readlines
/-!
# What `checked_buff` promises, and what the residual buffer does not

`checked_buff` lets `poll` skip the rescan of the residual buffer. The skip is sound
because in every reachable state a set flag means the residual holds no `\n` (`Inv`):
it is set only after a scan that found none, or while appending a chunk that has none,
and every branch that puts a `\n` into the residual clears it.

Results:
* `checkedBuff_no_newline`: from `Readlines::new`, whatever the polls returned, the flag
  means no `\n`; with UTF-8 every line from the residual or a fresh chunk ends in its
  only `\n`, a line at end-of-data has none, and every line fits the limit.
* `residual_exceeds_limit`: a chunk without `\n` is appended to the residual with no
  limit check, so for every limit `L` a reachable state holds `L + 1` bytes with the
  flag set.
-/
namespace ActixHttp
namespace Readlines

/-- A set `checked_buff` means the residual holds no `\n`. -/
def Inv (s : Readlines) : Prop := s.checkedBuff = true → (10 : UInt8) ∉ s.buff

theorem onChunk_inv {s : Readlines} (h : Inv s) (bytes : Bytes) : Inv (onChunk s bytes).2 := by
  by_cases hm : (10 : UInt8) ∈ bytes
  · obtain ⟨pre, post, rfl, hpre⟩ := exists_newline hm
    rw [onChunk_split _ hpre]
    split_ifs
    · exact h
    · split
      · intro hc; cases hc
      · exact h
  · rw [onChunk_of_not_mem hm]
    intro hc hb
    rcases List.mem_append.1 hb with hb | hb
    · exact h hc hb
    · exact hm hb

theorem onEof_inv {s : Readlines} (h : Inv s) : Inv (onEof s).2 := by
  unfold onEof
  split_ifs
  · exact h
  · exact h
  · split
    · intro _ hb; cases hb
    · exact h

theorem pollStream_inv {s : Readlines} (h : Inv s) : Inv (pollStream s).2 := by
  unfold pollStream
  split
  · next bytes rest _ => exact onChunk_inv (s := { s with stream := rest }) h bytes
  · exact h
  · exact onEof_inv h
  · exact h

/-- The step lemma: every poll keeps `Inv`, errors included. -/
theorem poll_inv {s : Readlines} (h : Inv s) : Inv (poll s).2 := by
  cases herr : s.err with
  | some e => rw [poll, herr]; exact h
  | none =>
    rw [poll_eq herr]
    split_ifs with hc
    · obtain ⟨pre, post, hb, hpre⟩ := exists_newline hc.2
      rw [pollBuff_split s hb hpre]
      split_ifs
      · exact h
      · split <;> exact fun h' => absurd (hc.1 ▸ h') (by simp)
    · refine pollStream_inv fun _ hm => ?_
      cases hch : s.checkedBuff
      · exact hc ⟨hch, hm⟩
      · exact h hch hm

theorem new_inv (d : Deps) (req : Message) (L : Nat) : Inv ((new d req).setLimit L) := by
  unfold new
  split <;> intro _ hb <;> cases hb

/-- The run lemma: `Inv` holds in every state polls reach from `s0`. -/
theorem Reachable.inv {s0 s : Readlines} (hr : Reachable s0 s) (h0 : Inv s0) : Inv s := by
  induction hr with
  | init => exact h0
  | poll _ ih => exact poll_inv ih

theorem Reachable.limit {s0 s : Readlines} (hr : Reachable s0 s) : s.limit = s0.limit := by
  induction hr with
  | init => rfl
  | poll _ ih => rw [poll_limit, ih]

/-- The branch of `Readlines::poll` a line comes from. -/
inductive LineOrigin where
  | residual
  | chunk
  | endOfData
  deriving DecidableEq, Repr

/-- Where a poll of `s` takes its line from, if it yields one: the residual buffer
(lines 359-384), a fresh chunk (398-416) or the residual at end-of-data (422-440). -/
def lineOrigin (s : Readlines) : LineOrigin :=
  if s.checkedBuff = false ∧ (10 : UInt8) ∈ s.buff then .residual
  else
    match (Payload.poll s.stream).1 with
    | .chunk _ => .chunk
    | _ => .endOfData

/-- The bytes a yielded line was decoded from: within the limit, ending in their only
`\n`, except at end-of-data, where they have none. -/
theorem poll_line_bytes {s s' : Readlines} {l : RStr} (hi : Inv s)
    (h : poll s = (.ok (.ready (some l)), s')) :
    ∃ b, decodeLine s.encoding b = some l ∧ b.length ≤ s.limit ∧
      (lineOrigin s = .endOfData → (10 : UInt8) ∉ b) ∧
      (lineOrigin s ≠ .endOfData → ∃ pre, b = pre ++ [10] ∧ (10 : UInt8) ∉ pre) := by
  obtain ⟨-, ⟨hc, pre, post, hb, hpre, hl, hd, -⟩ | ⟨hc, h⟩⟩ := poll_ready_some h
  · have hm : (10 : UInt8) ∈ s.buff := by simp [hb]
    have ho : lineOrigin s = .residual := by simp [lineOrigin, hc, hm]
    exact ⟨_, hd, by simpa using hl, by simp [ho], fun _ => ⟨pre, rfl, hpre⟩⟩
  · have hnl : (10 : UInt8) ∉ s.buff := fun hm => by
      cases hch : s.checkedBuff
      · exact hc ⟨hch, hm⟩
      · exact hi hch hm
    rcases pollStream_ready_some h with
      ⟨pre, post, rest, hs, hpre, hl, hd, -⟩ | ⟨he, -, hl, hd, -⟩
    · have ho : lineOrigin s = .chunk := by simp [lineOrigin, hc, show s.stream = _ from hs]
      exact ⟨_, hd, by simpa using hl, by simp [ho], fun _ => ⟨pre, rfl, hpre⟩⟩
    · have ho : lineOrigin s = .endOfData := by
        simp only [lineOrigin, hc, if_false]
        simp only at he
        rw [he]
      exact ⟨_, hd, hl, fun _ => hnl, by simp [ho]⟩

theorem checkedBuff_no_newline (d : Deps) (req : Message) (L : Nat) (s : Readlines)
    (hr : Reachable ((new d req).setLimit L) s) :
    (s.checkedBuff = true → (10 : UInt8) ∉ s.buff) ∧
    (s.encoding = .utf8 → ∀ l s', poll s = (.ok (.ready (some l)), s') →
      l.bytes.length ≤ L ∧
      (lineOrigin s = .endOfData → (10 : UInt8) ∉ l.bytes) ∧
      (lineOrigin s ≠ .endOfData → ∃ pre, l.bytes = pre ++ [10] ∧ (10 : UInt8) ∉ pre)) := by
  have hi := hr.inv (new_inv d req L)
  refine ⟨hi, fun he l s' h => ?_⟩
  obtain ⟨b, hd, hl, h1, h2⟩ := poll_line_bytes hi h
  rw [he] at hd
  have hL : s.limit = L := hr.limit
  rw [fromUtf8_bytes hd, ← hL]
  exact ⟨hl, h1, h2⟩

/-- After the chunk `b"a"`, which has no `\n`, the flag is set and the residual `a` has no
`\n`; the next poll yields the UTF-8 line `b\n` of the chunk `b"b\n"`, within the limit and
ending in its only `\n`. -/
theorem checkedBuff_no_newline_after_chunk :
    (poll ((new Deps.plain ⟨[], [.chunk [97], .chunk [98, 10]]⟩).setLimit 4)).2.checkedBuff = true ∧
    (10 : UInt8) ∉ (poll ((new Deps.plain ⟨[], [.chunk [97], .chunk [98, 10]]⟩).setLimit 4)).2.buff ∧
    poll (poll ((new Deps.plain ⟨[], [.chunk [97], .chunk [98, 10]]⟩).setLimit 4)).2 =
      (.ok (.ready (some ⟨[98, 10], rfl⟩)),
        (poll (poll ((new Deps.plain ⟨[], [.chunk [97], .chunk [98, 10]]⟩).setLimit 4)).2).2) ∧
    lineOrigin (poll ((new Deps.plain ⟨[], [.chunk [97], .chunk [98, 10]]⟩).setLimit 4)).2 = .chunk ∧
    ([98, 10] : Bytes).length ≤ 4 ∧ ∃ pre, ([98, 10] : Bytes) = pre ++ [10] ∧ (10 : UInt8) ∉ pre := by
  have h := checkedBuff_no_newline Deps.plain ⟨[], [.chunk [97], .chunk [98, 10]]⟩ 4 _ (.poll .init)
  obtain ⟨hl, -, hn⟩ := h.2 rfl ⟨[98, 10], rfl⟩ _ rfl
  exact ⟨rfl, h.1 rfl, rfl, rfl, hl, hn (by decide)⟩

/-! ## The residual is not bounded by the limit -/

/-- A chunk without `\n` is appended whatever the limit: the `NotReady` branch of
lines 418-419 has no length check. -/
theorem poll_absorbs {s : Readlines} {c : Bytes} {rest : Payload} (herr : s.err = none)
    (hc : ¬(s.checkedBuff = false ∧ (10 : UInt8) ∈ s.buff)) (hs : s.stream = .chunk c :: rest)
    (hn : (10 : UInt8) ∉ c) :
    poll s = (.ok .notReady, { s with stream := rest, buff := s.buff ++ c, checkedBuff := true }) := by
  rw [poll_eq herr, if_neg hc]
  simp [pollStream, hs, onChunk_of_not_mem hn]

theorem residual_exceeds_limit (L : Nat) :
    ∃ s, Reachable ((new Deps.plain ⟨[], [.chunk (List.replicate (L + 1) 97)]⟩).setLimit L) s ∧
      s.checkedBuff = true ∧ L < s.buff.length := by
  have hn : (10 : UInt8) ∉ List.replicate (L + 1) (97 : UInt8) := by simp
  refine ⟨_, .poll .init, ?_⟩
  rw [new_nil_headers, poll_absorbs rfl (by simp [init, setLimit]) rfl hn]
  simp [init, setLimit]

end Readlines
end ActixHttp
