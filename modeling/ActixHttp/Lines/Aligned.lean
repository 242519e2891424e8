import ActixHttp.Lines.Invariant
import ActixHttp.Lines.Termination
import ActixHttp.Lines.Split
/-!
# When `Readlines` is right: chunks that end at a line end

`Readlines` loses the start of a line that begins in the residual buffer and ends in a
later chunk (`readlines_splits_line`), and checks the limit against the fragment only
(`readlines_misses_overlong_line`). Neither can happen when every chunk but the last
ends with `\n`. The residual is then empty whenever a chunk arrives, unless no chunk
is left. Under that condition, with UTF-8 input, the reader yields the lines of the
input up to the first one over the limit, and then fails with `LimitOverflow`, or ends
if there is none.

`Aligned L s R` relates a state to the deliveries `R` still to come. `unread s R`, the
residual then the chunks, is what is left to read. The residual is empty or ends with
`\n` unless no chunk is left, every chunk left but the last ends with `\n`, and what
is left is UTF-8. Each poll keeps `Aligned` (`poll_aligned`). It ends the stream only
when nothing is left, yields the first line of what is left if it fits the limit, and
fails with `LimitOverflow` if it does not. By induction a whole run does the same
(`collect_aligned`).

Results:
* `readlines_aligned`: for a UTF-8 reader whose chunks, but the last, end with `\n`,
  driven to the end, the lines are those of the input before the first one over the
  limit; the run ends if there is none, and fails with `LimitOverflow` otherwise.
-/
namespace ActixHttp
namespace Readlines

/-- What is left to read: the residual, then the chunks still to come. -/
def unread (s : Readlines) (R : List (Option Bytes)) : Bytes := s.buff ++ (chunks R).flatten

/-- A UTF-8 reader with limit `L` whose stream still delivers `R`, and whose residual
ends at a line end unless no chunk is left. -/
structure Aligned (L : Nat) (s : Readlines) (R : List (Option Bytes)) : Prop where
  err : s.err = none
  utf8 : s.encoding = .utf8
  limit : s.limit = L
  stream : s.stream = R.map Ev.ofDelivery
  inv : Inv s
  residual : chunks R = [] ∨ s.buff = [] ∨ s.buff.getLast? = some 10
  chunksEnd : ∀ c ∈ (chunks R).dropLast, c.getLast? = some 10
  valid : Utf8.valid (unread s R) = true

/-- After a cut at a `\n`, the rest of something that ends with `\n` is empty or ends
with `\n`. -/
theorem getLast?_of_cons {pre post : Bytes} {a : UInt8}
    (h : (pre ++ a :: post).getLast? = some 10) : post = [] ∨ post.getLast? = some 10 := by
  rcases List.eq_nil_or_concat post with rfl | ⟨ys, b, rfl⟩
  · exact .inl rfl
  · rw [List.concat_eq_append, show pre ++ a :: (ys ++ [b]) = (pre ++ a :: ys) ++ [b] by simp,
      List.getLast?_concat] at h
    exact .inr (by rw [List.concat_eq_append, List.getLast?_concat, h])

/-- The first line of valid input is text, and the rest is valid. -/
theorem front_line {pre rest : Bytes} (hv : Utf8.valid (pre ++ 10 :: rest) = true) :
    decodeLine .utf8 (pre ++ [10]) = some ⟨pre ++ [10], (Utf8.valid_split_newline hv).1⟩ ∧
      Utf8.valid rest = true :=
  ⟨by simp [decodeLine, fromUtf8, (Utf8.valid_split_newline hv).1], (Utf8.valid_split_newline hv).2⟩

/-- Once a chunk has arrived, the residual is empty: it has no `\n` and would end with
one otherwise. -/
theorem Aligned.buff_nil {L : Nat} {s : Readlines} {c : Bytes} {R : List (Option Bytes)}
    (h : Aligned L s (some c :: R)) (hn : (10 : UInt8) ∉ s.buff) : s.buff = [] := by
  rcases h.residual with hc | hb | hl
  · cases hc
  · exact hb
  · exact absurd (List.mem_of_getLast?_eq_some hl) hn

/-- What one poll does to an aligned reader: end the stream when nothing is left,
suspend without consuming input, yield the first line of what is left when it fits the
limit, or fail with `LimitOverflow` when it does not. -/
def StepOK (L : Nat) (s : Readlines) (R : List (Option Bytes)) (st : Step) : Prop :=
  (st.1 = .ok (.ready none) ∧ unread s R = []) ∨
  (∃ R', st.1 = .ok .notReady ∧ Aligned L st.2 R' ∧ unread st.2 R' = unread s R) ∨
  (∃ R' l, st.1 = .ok (.ready (some l)) ∧ l.bytes.length ≤ L ∧ Aligned L st.2 R' ∧
    lines (unread s R) = l.bytes :: lines (unread st.2 R')) ∨
  (st.1 = .error .limitOverflow ∧ ∃ l ls, lines (unread s R) = l :: ls ∧ L < l.length)

/-- A line from the residual buffer. -/
theorem pollBuff_aligned {L : Nat} {s : Readlines} {R : List (Option Bytes)} (h : Aligned L s R)
    (hck : s.checkedBuff = false) (hc : (10 : UInt8) ∈ s.buff) : StepOK L s R (pollBuff s) := by
  obtain ⟨pre, post, hb, hpre⟩ := exists_newline hc
  have hu : unread s R = pre ++ 10 :: (post ++ (chunks R).flatten) := by simp [unread, hb]
  have hlines : lines (unread s R) = (pre ++ [10]) :: lines (post ++ (chunks R).flatten) := by
    rw [hu, lines_newline hpre]
  obtain ⟨hd, hv⟩ := front_line (hu ▸ h.valid)
  rw [pollBuff_split s hb hpre, h.limit]
  split_ifs with hl
  · exact .inr (.inr (.inr ⟨rfl, _, _, hlines, by simpa using hl⟩))
  rw [h.utf8, hd]
  refine .inr (.inr (.inl ⟨R, _, rfl, by simpa using hl, ⟨h.err, rfl, rfl, h.stream,
    fun h' => absurd (hck.symm.trans h') Bool.false_ne_true, ?_, h.chunksEnd, hv⟩, hlines⟩))
  rcases h.residual with hr | hr | hr
  · exact .inl hr
  · simp [hb] at hr
  · rw [hb] at hr
    exact (getLast?_of_cons hr).elim (.inr ∘ .inl) (.inr ∘ .inr)

/-- The stream branch, entered with no `\n` in the residual. -/
theorem pollStream_aligned {L : Nat} {s : Readlines} {R : List (Option Bytes)}
    (h : Aligned L s R) (hn : (10 : UInt8) ∉ s.buff) :
    StepOK L s R (pollStream { s with checkedBuff := true }) := by
  cases R with
  | nil =>
    have hu : unread s [] = s.buff := List.append_nil _
    simp only [pollStream, h.stream, List.map_nil, Payload.poll_nil]
    by_cases hb : s.buff = []
    · rw [onEof_nil (s := { s with stream := [], checkedBuff := true }) hb]
      exact .inl ⟨rfl, by rw [hu, hb]⟩
    have hv : Utf8.valid s.buff = true := hu ▸ h.valid
    have hlines : lines (unread s []) = s.buff :: lines [] := by rw [hu, lines_tail hn hb, lines_nil]
    by_cases hl : s.buff.length ≤ L
    · rw [onEof_line (s := { s with stream := [], checkedBuff := true }) (l := ⟨s.buff, hv⟩) hb
        (h.limit ▸ hl) (by simp [h.utf8, decodeLine, fromUtf8, hv])]
      exact .inr (.inr (.inl ⟨[], _, rfl, hl, ⟨h.err, h.utf8, h.limit, rfl,
        fun _ => List.not_mem_nil _, .inl rfl, fun _ h => (by cases h), rfl⟩, hlines⟩))
    · rw [onEof_overflow (s := { s with stream := [], checkedBuff := true }) hb
        (by show s.limit < s.buff.length; rw [h.limit]; omega)]
      exact .inr (.inr (.inr ⟨rfl, _, _, hlines, by omega⟩))
  | cons o R =>
    cases o with
    | none =>
      simp only [pollStream, h.stream, List.map_cons, Ev.ofDelivery, Payload.poll_cons]
      exact .inr (.inl ⟨R, rfl, ⟨h.err, h.utf8, h.limit, rfl, fun _ => hn, h.residual,
        h.chunksEnd, h.valid⟩, rfl⟩)
    | some c =>
      have hb := h.buff_nil hn
      have hend : chunks R ≠ [] → c.getLast? = some 10 := fun hR =>
        h.chunksEnd c (by
          rw [chunks_cons_some, List.dropLast_cons_of_ne_nil hR]
          exact List.mem_cons_self _ _)
      simp only [pollStream, h.stream, List.map_cons, Ev.ofDelivery, Payload.poll_cons]
      by_cases hm : (10 : UInt8) ∈ c
      · obtain ⟨pre, post, rfl, hpre⟩ := exists_newline hm
        have hu : unread s (some (pre ++ 10 :: post) :: R) =
            pre ++ 10 :: (post ++ (chunks R).flatten) := by
          simp [unread, hb]
        have hlines : lines (unread s (some (pre ++ 10 :: post) :: R)) =
            (pre ++ [10]) :: lines (s.buff ++ post ++ (chunks R).flatten) := by
          rw [hu, lines_newline hpre, hb, List.nil_append]
        obtain ⟨hd, hv⟩ := front_line (hu ▸ h.valid)
        rw [onChunk_split _ hpre]
        simp only [h.limit]
        split_ifs with hl
        · exact .inr (.inr (.inr ⟨rfl, _, _, hlines, by simpa using hl⟩))
        simp only [h.utf8, hd]
        refine .inr (.inr (.inl ⟨R, _, rfl, by simpa using hl, ⟨h.err, rfl, rfl, rfl,
          fun h' => (by cases h'), ?_, fun c' hc' => h.chunksEnd c' ?_,
          by simpa [unread, hb] using hv⟩, hlines⟩))
        · by_cases hR : chunks R = []
          · exact .inl hR
          · simpa [hb] using .inr (getLast?_of_cons (hend hR))
        · rw [chunks_cons_some,
            List.dropLast_cons_of_ne_nil (List.ne_nil_of_mem (List.dropLast_subset _ hc'))]
          exact List.mem_cons_of_mem _ hc'
      · rw [onChunk_of_not_mem hm]
        have hR : chunks R = [] := by
          by_contra hR
          exact hm (List.mem_of_getLast?_eq_some (hend hR))
        refine .inr (.inl ⟨R, rfl, ⟨h.err, h.utf8, h.limit, rfl, fun _ => (by simpa [hb] using hm),
          .inl hR, by simp [hR], by simpa [unread, hb] using h.valid⟩, by simp [unread, hb]⟩)

/-- The step lemma: every poll of an aligned reader is `StepOK`. -/
theorem poll_aligned {L : Nat} {s : Readlines} {R : List (Option Bytes)} (h : Aligned L s R) :
    StepOK L s R (poll s) := by
  rw [poll_eq h.err]
  split_ifs with hc
  · exact pollBuff_aligned h hc.1 hc.2
  · refine pollStream_aligned h fun hm => hc ⟨?_, hm⟩
    cases hck : s.checkedBuff
    · rfl
    · exact absurd hm (h.inv hck)

/-- The run lemma: driven to the end, an aligned reader yields the lines of what is
left up to the first one over the limit, then fails there or ends. -/
theorem collect_aligned {L : Nat} : ∀ (n : Nat) (s : Readlines) (R : List (Option Bytes)),
    Aligned L s R → measure s < n →
      (collect n s).1.map RStr.bytes = (lines (unread s R)).takeWhile (·.length ≤ L) ∧
      (collect n s).2 =
        if (lines (unread s R)).all (·.length ≤ L) then .done else .failed .limitOverflow
  | 0, _, _, _, hm => absurd hm (Nat.not_lt_zero _)
  | n + 1, s, R, h, hm => by
    rcases poll_aligned h with ⟨hr, hu⟩ | ⟨R', hr, h', hu⟩ | ⟨R', l, hr, hl, h', hls⟩ |
      ⟨hr, l, ls, hls, hl⟩
    · rw [collect, show poll s = (_, (poll s).2) from Prod.ext hr rfl, hu, lines_nil]
      exact ⟨rfl, rfl⟩
    · have hp : poll s = (.ok .notReady, (poll s).2) := Prod.ext hr rfl
      have := measure_poll hp (.inl rfl)
      rw [collect, hp, ← hu]
      exact collect_aligned n _ R' h' (by omega)
    · have hp : poll s = (.ok (.ready (some l)), (poll s).2) := Prod.ext hr rfl
      have := measure_poll hp (.inr ⟨l, rfl⟩)
      obtain ⟨ih1, ih2⟩ := collect_aligned n _ R' h' (by omega)
      rw [collect, hp, hls]
      exact ⟨by simp [ih1, hl], by simp [ih2, hl]⟩
    · rw [collect, show poll s = (_, (poll s).2) from Prod.ext hr rfl, hls]
      exact ⟨by simp [Nat.not_le.2 hl], by simp [Nat.not_le.2 hl]⟩

theorem readlines_aligned (d : Deps) (hdrs : HeaderMap) (ds : List (Option Bytes)) (L : Nat)
    (henc : HttpMessage.encoding d hdrs = .ok .utf8)
    (hend : ∀ c ∈ (chunks ds).dropLast, c.getLast? = some 10)
    (hvalid : Utf8.valid (chunks ds).flatten = true) :
    (collect (measure ((new d ⟨hdrs, ds.map Ev.ofDelivery⟩).setLimit L) + 1)
        ((new d ⟨hdrs, ds.map Ev.ofDelivery⟩).setLimit L)).1.map RStr.bytes =
      (lines (chunks ds).flatten).takeWhile (·.length ≤ L) ∧
    (collect (measure ((new d ⟨hdrs, ds.map Ev.ofDelivery⟩).setLimit L) + 1)
        ((new d ⟨hdrs, ds.map Ev.ofDelivery⟩).setLimit L)).2 =
      if (lines (chunks ds).flatten).all (·.length ≤ L) then .done else .failed .limitOverflow := by
  rw [new_eq_init henc]
  exact collect_aligned _ _ ds ⟨rfl, rfl, rfl, rfl, fun _ h => (by cases h), .inr (.inl rfl),
    hend, hvalid⟩ (Nat.lt_succ_self _)

theorem readlines_aligned_overlong :
    (collect (measure ((new Deps.plain
          ⟨[], [some [97, 10], none, some [98, 99, 100, 10]].map Ev.ofDelivery⟩).setLimit 3) + 1)
        ((new Deps.plain
          ⟨[], [some [97, 10], none, some [98, 99, 100, 10]].map Ev.ofDelivery⟩).setLimit 3)).1.map
        RStr.bytes =
      (lines (chunks [some [97, 10], none, some [98, 99, 100, 10]]).flatten).takeWhile
        (·.length ≤ 3) ∧
    (collect (measure ((new Deps.plain
          ⟨[], [some [97, 10], none, some [98, 99, 100, 10]].map Ev.ofDelivery⟩).setLimit 3) + 1)
        ((new Deps.plain
          ⟨[], [some [97, 10], none, some [98, 99, 100, 10]].map Ev.ofDelivery⟩).setLimit 3)).2 =
      if (lines (chunks [some [97, 10], none, some [98, 99, 100, 10]]).flatten).all
        (·.length ≤ 3) then .done else .failed .limitOverflow :=
  readlines_aligned Deps.plain [] [some [97, 10], none, some [98, 99, 100, 10]] 3 rfl (by decide) rfl

end Readlines
end ActixHttp
