import ActixHttp.Lines.Readlines
/-!
# A larger limit reads the same lines, and perhaps more

`Readlines::limit` only feeds the three length checks of `poll` (lines 370, 400 and
426). Each check that passes under a limit passes under every larger one, and the
checks are the only place the limit is read, so a reader with a larger limit takes the
same branch at every poll until the smaller limit's first `LimitOverflow`
(`poll_setLimit`). By induction over the caller's loop (`collect_setLimit`), the lines
read under a limit are a prefix of those read under a larger one, with the same number
of polls; and a run that does not fail on the limit is the same under both.

Results:
* `readlines_limit_mono`: for every request, payload and number of polls, raising the
  limit with `Readlines::limit` keeps every line already read, in order, and changes
  nothing in a run that did not fail with `LimitOverflow`.
-/
namespace ActixHttp
namespace Readlines

/-! ## One poll -/

theorem onChunk_setLimit (s : Readlines) (c : Bytes) {L : Nat} (hL : s.limit ≤ L)
    (h : (onChunk s c).1 ≠ .error .limitOverflow) :
    onChunk (s.setLimit L) c = ((onChunk s c).1, (onChunk s c).2.setLimit L) := by
  by_cases hm : (10 : UInt8) ∈ c
  · obtain ⟨pre, post, rfl, hpre⟩ := exists_newline hm
    rw [onChunk_split s hpre] at h ⊢
    rw [onChunk_split (s.setLimit L) hpre]
    by_cases h1 : pre.length + 1 > s.limit
    · rw [if_pos h1] at h; exact absurd rfl h
    · have h2 : ¬pre.length + 1 > (s.setLimit L).limit := by simp only [setLimit]; omega
      rw [if_neg h1, if_neg h2]
      dsimp only [setLimit]
      split <;> rfl
  · rw [onChunk_of_not_mem hm, onChunk_of_not_mem hm]
    rfl

theorem onEof_setLimit (s : Readlines) {L : Nat} (hL : s.limit ≤ L)
    (h : (onEof s).1 ≠ .error .limitOverflow) :
    onEof (s.setLimit L) = ((onEof s).1, (onEof s).2.setLimit L) := by
  unfold onEof at h ⊢
  dsimp only [setLimit] at h ⊢
  by_cases h0 : s.buff.isEmpty
  · rw [if_pos h0, if_pos h0]
  · by_cases h1 : s.buff.length > s.limit
    · rw [if_neg h0, if_pos h1] at h; exact absurd rfl h
    · rw [if_neg h0, if_neg h1, if_neg h0, if_neg (show ¬s.buff.length > L by omega)]
      split <;> rfl

theorem pollStream_setLimit (s : Readlines) {L : Nat} (hL : s.limit ≤ L)
    (h : (pollStream s).1 ≠ .error .limitOverflow) :
    pollStream (s.setLimit L) = ((pollStream s).1, (pollStream s).2.setLimit L) := by
  unfold pollStream at h ⊢
  rw [show (s.setLimit L).stream = s.stream from rfl]
  generalize Payload.poll s.stream = q at h ⊢
  obtain ⟨e, rest⟩ := q
  cases e with
  | chunk c => exact onChunk_setLimit { s with stream := rest } c hL h
  | notReady => rfl
  | eof => exact onEof_setLimit { s with stream := rest } hL h
  | fail e => rfl

theorem pollBuff_setLimit (s : Readlines) {L : Nat} (hL : s.limit ≤ L)
    (hm : (10 : UInt8) ∈ s.buff) (h : (pollBuff s).1 ≠ .error .limitOverflow) :
    pollBuff (s.setLimit L) = ((pollBuff s).1, (pollBuff s).2.setLimit L) := by
  obtain ⟨pre, post, hb, hpre⟩ := exists_newline hm
  rw [pollBuff_split s hb hpre] at h ⊢
  rw [pollBuff_split (s.setLimit L) hb hpre]
  by_cases h1 : pre.length + 1 > s.limit
  · rw [if_pos h1] at h; exact absurd rfl h
  · have h2 : ¬pre.length + 1 > (s.setLimit L).limit := by simp only [setLimit]; omega
    rw [if_neg h1, if_neg h2]
    dsimp only [setLimit]
    split <;> rfl

/-- The step lemma: unless it fails on the limit, a poll does the same under a larger
limit. -/
theorem poll_setLimit (s : Readlines) {L : Nat} (hL : s.limit ≤ L)
    (h : (poll s).1 ≠ .error .limitOverflow) :
    poll (s.setLimit L) = ((poll s).1, (poll s).2.setLimit L) := by
  cases herr : s.err with
  | some e =>
    have : (s.setLimit L).err = some e := herr
    rw [poll, poll, herr, this]
    rfl
  | none =>
    have herr' : (s.setLimit L).err = none := herr
    rw [poll_eq herr] at h ⊢
    rw [poll_eq herr']
    by_cases hc : s.checkedBuff = false ∧ (10 : UInt8) ∈ s.buff
    · have hc' : (s.setLimit L).checkedBuff = false ∧ (10 : UInt8) ∈ (s.setLimit L).buff := hc
      rw [if_pos hc] at h ⊢
      rw [if_pos hc']
      exact pollBuff_setLimit s hL hc.2 h
    · have hc' : ¬((s.setLimit L).checkedBuff = false ∧ (10 : UInt8) ∈ (s.setLimit L).buff) := hc
      rw [if_neg hc] at h ⊢
      rw [if_neg hc']
      exact pollStream_setLimit { s with checkedBuff := true } hL h

/-! ## Whole runs -/

/-- The run lemma: with the same number of polls, a larger limit reads the lines of the
smaller one, then perhaps more, and makes the same run when the smaller one did not fail
on the limit. -/
theorem collect_setLimit : ∀ (n : Nat) (s : Readlines) {L : Nat}, s.limit ≤ L →
    List.IsPrefix (collect n s).1 (collect n (s.setLimit L)).1 ∧
      ((collect n s).2 ≠ .failed .limitOverflow → collect n (s.setLimit L) = collect n s)
  | 0, _, _, _ => ⟨List.prefix_refl _, fun _ => rfl⟩
  | n + 1, s, L, hL => by
    by_cases hov : (poll s).1 = .error .limitOverflow
    · rw [collect, show poll s = (_, (poll s).2) from Prod.ext hov rfl]
      exact ⟨List.nil_prefix, fun h => absurd rfl h⟩
    · have hL' : (poll s).2.limit ≤ L := by rw [poll_limit]; exact hL
      rw [collect, collect, poll_setLimit s hL hov]
      generalize Readlines.poll s = st at hL' ⊢
      rcases st with ⟨e | ((_ | l) | _), s'⟩
      · exact ⟨List.prefix_refl _, fun _ => rfl⟩
      · exact ⟨List.prefix_refl _, fun _ => rfl⟩
      · obtain ⟨ih1, ih2⟩ := collect_setLimit n s' hL'
        exact ⟨List.prefix_cons_inj l |>.2 ih1, fun h => by dsimp only at h ⊢; rw [ih2 h]⟩
      · exact collect_setLimit n s' hL'

theorem readlines_limit_mono (d : Deps) (req : Message) (n : Nat) {L L' : Nat} (h : L ≤ L') :
    List.IsPrefix (collect n ((new d req).setLimit L)).1 (collect n ((new d req).setLimit L')).1 ∧
      ((collect n ((new d req).setLimit L)).2 ≠ .failed .limitOverflow →
        collect n ((new d req).setLimit L') = collect n ((new d req).setLimit L)) :=
  collect_setLimit n ((new d req).setLimit L) h

/-- Limits 2 and 4 on the chunks `b"a\n"` and `b"bcd\n"`: the first run reads `a\n` and
fails on `bcd\n`, the second reads both lines and ends. -/
theorem readlines_limit_mono_two_four :
    2 ≤ 4 ∧
    (List.IsPrefix
        (collect 4 ((new Deps.plain ⟨[], [.chunk [97, 10], .chunk [98, 99, 100, 10]]⟩).setLimit 2)).1
        (collect 4 ((new Deps.plain ⟨[], [.chunk [97, 10], .chunk [98, 99, 100, 10]]⟩).setLimit 4)).1 ∧
      ((collect 4 ((new Deps.plain ⟨[], [.chunk [97, 10], .chunk [98, 99, 100, 10]]⟩).setLimit 2)).2 ≠
          .failed .limitOverflow →
        collect 4 ((new Deps.plain ⟨[], [.chunk [97, 10], .chunk [98, 99, 100, 10]]⟩).setLimit 4) =
          collect 4 ((new Deps.plain ⟨[], [.chunk [97, 10], .chunk [98, 99, 100, 10]]⟩).setLimit 2))) :=
  ⟨by decide, readlines_limit_mono Deps.plain ⟨[], [.chunk [97, 10], .chunk [98, 99, 100, 10]]⟩ 4
    (by decide)⟩

end Readlines
end ActixHttp
