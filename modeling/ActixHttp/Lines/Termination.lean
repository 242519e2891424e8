import ActixHttp.Lines.Readlines
/-!
# Every run of `Readlines` ends, with at most one line more than it has newlines

A poll that does not end the stream (it suspends, or yields a line) always consumes
something: an answer of the stream, or bytes of the residual. `measure` counts one per
answer left, the bytes of the chunks left and the residual; such a poll makes it
smaller (`measure_poll`), even when a chunk moves into the residual. So the caller's
loop ends (`collect_ne_outOfFuel`) on every payload, whatever it answers.

For the line count, `pending` counts the `\n` bytes not yet consumed plus one for the
unterminated tail: every line consumes one `\n`, except the line at end-of-data, which
consumes the tail (`pending_poll`).

Results:
* `readlines_finite`: for every run of chunks and `NotReady` answers, every charset
  and every limit, the loop reaches `Ready(None)` or an error within `measure + 1`
  polls, and yields at most one line more than the chunks hold `\n` bytes.
-/
namespace ActixHttp
namespace Readlines

/-- One for the answer, plus the bytes it delivers. -/
def Ev.weight : Ev → Nat
  | .chunk c => c.length + 1
  | _ => 1

def weight : Payload → Nat
  | [] => 0
  | e :: es => Ev.weight e + weight es

/-- What a run of polls can still consume. -/
def measure (s : Readlines) : Nat := weight s.stream + s.buff.length

/-- A poll that suspends or yields a line leaves less to consume. -/
theorem measure_poll {s s' : Readlines} {r : Poll (Option RStr) ReadlinesError}
    (h : poll s = (r, s')) (hr : r = .ok .notReady ∨ ∃ l, r = .ok (.ready (some l))) :
    measure s' < measure s := by
  rcases hr with rfl | ⟨l, rfl⟩
  · obtain ⟨-, -, ⟨rest, hs, rfl⟩ | ⟨c, rest, hs, -, rfl⟩⟩ := poll_notReady h
    · simp [measure, hs, Ev.weight, weight]
    · simp [measure, hs, Ev.weight, weight]; omega
  · obtain ⟨-, ⟨-, pre, post, hb, -, -, -, rfl⟩ | ⟨-, h⟩⟩ := poll_ready_some h
    · simp [measure, hb]; omega
    · rcases pollStream_ready_some h with
        ⟨pre, post, rest, hs, -, -, -, rfl⟩ | ⟨he, hne, -, -, rfl⟩
      · simp only at hs
        simp [measure, hs, Ev.weight, weight]; omega
      · have : s.buff.length ≠ 0 := by simpa using hne
        simp only at he ⊢
        cases hs : s.stream with
        | nil => simp [measure, hs]; omega
        | cons e rest => rw [hs] at he; simp at he; subst he; simp [measure, hs, Ev.weight, weight]; omega

/-- The loop ends within `measure s + 1` polls, on every payload. -/
theorem collect_ne_outOfFuel : ∀ (n : Nat) (s : Readlines), measure s < n →
    (collect n s).2 ≠ .outOfFuel
  | 0, _, h => absurd h (Nat.not_lt_zero _)
  | n + 1, s, h => by
    unfold collect
    split
    · simp
    · next s' hp => exact collect_ne_outOfFuel n s' (by have := measure_poll hp (.inl rfl); omega)
    · simp
    · next l s' hp =>
      exact collect_ne_outOfFuel n s' (by have := measure_poll hp (.inr ⟨l, rfl⟩); omega)

/-! ## Counting lines -/

/-- A payload that only delivers chunks and `NotReady` before it ends. -/
def DataOnly (p : Payload) : Prop := ∀ e ∈ p, e = .notReady ∨ ∃ c, e = .chunk c

def Ev.newlines : Ev → Nat
  | .chunk c => c.count 10
  | _ => 0

def newlines : Payload → Nat
  | [] => 0
  | e :: es => Ev.newlines e + newlines es

/-- The `\n` bytes not yet consumed, plus one for the tail after the last of them. -/
def pending (s : Readlines) : Nat :=
  s.buff.count 10 + newlines s.stream +
    if s.stream = [] ∧ s.buff = [] then 0 else 1

theorem flag_le (s : Readlines) : (if s.stream = [] ∧ s.buff = [] then 0 else 1) ≤ 1 := by
  split <;> omega

/-- A suspending poll consumes no `\n`; a yielding one consumes one, or the tail. -/
theorem pending_poll {s s' : Readlines} {r : Poll (Option RStr) ReadlinesError}
    (hd : DataOnly s.stream) (h : poll s = (r, s')) :
    DataOnly s'.stream ∧ (r = .ok .notReady → pending s' ≤ pending s) ∧
      ∀ l, r = .ok (.ready (some l)) → pending s' + 1 ≤ pending s := by
  have hf := flag_le s'
  refine ⟨?_, fun hr => ?_, fun l hr => ?_⟩
  · have hs' : s'.stream = (poll s).2.stream := by rw [h]
    rcases poll_stream s with e | e <;> rw [hs', e]
    · exact hd
    · exact fun x hx => hd x (List.mem_of_mem_tail hx)
  · subst hr
    obtain ⟨-, -, ⟨rest, hs, rfl⟩ | ⟨c, rest, hs, -, rfl⟩⟩ := poll_notReady h
    · simp only [pending, hs, newlines, Ev.newlines] at hf ⊢
      simp only [reduceCtorEq, false_and, if_false]; omega
    · simp only [pending, hs, newlines, Ev.newlines, List.count_append] at hf ⊢
      simp only [reduceCtorEq, false_and, if_false]; omega
  · subst hr
    obtain ⟨-, ⟨-, pre, post, hb, hpre, -, -, rfl⟩ | ⟨-, h⟩⟩ := poll_ready_some h
    · simp only [pending, hb, List.count_append, List.count_cons_self,
        List.count_eq_zero_of_not_mem hpre] at hf ⊢
      simp only [List.append_eq_nil, reduceCtorEq, and_false, if_false]; omega
    · rcases pollStream_ready_some h with
        ⟨pre, post, rest, hs, hpre, -, -, rfl⟩ | ⟨he, hne, -, -, rfl⟩
      · simp only at hs
        simp only [pending, hs, newlines, Ev.newlines, List.count_append,
          List.count_cons_self, List.count_eq_zero_of_not_mem hpre] at hf ⊢
        simp only [reduceCtorEq, false_and, if_false]; omega
      · simp only at he hne ⊢
        cases hs : s.stream with
        | nil => simp [pending, hs, hne]
        | cons e rest =>
          rw [hs] at he hd; simp only [Payload.poll_cons] at he; subst he
          simpa using hd _ (List.mem_cons_self _ _)

theorem collect_length_le : ∀ (n : Nat) (s : Readlines), DataOnly s.stream →
    (collect n s).1.length ≤ pending s
  | 0, _, _ => Nat.zero_le _
  | n + 1, s, hd => by
    unfold collect
    split
    · exact Nat.zero_le _
    · next s' hp =>
      obtain ⟨hd', h1, -⟩ := pending_poll hd hp
      exact le_trans (collect_length_le n s' hd') (h1 rfl)
    · exact Nat.zero_le _
    · next l s' hp =>
      obtain ⟨hd', -, h2⟩ := pending_poll hd hp
      have := collect_length_le n s' hd'
      have := h2 l rfl
      simp only [List.length_cons]; omega

theorem pending_new (d : Deps) (hdrs : HeaderMap) (ds : List (Option Bytes)) (L : Nat) :
    pending ((new d ⟨hdrs, ds.map Ev.ofDelivery⟩).setLimit L) ≤ (chunks ds).flatten.count 10 + 1 := by
  have hsum : newlines (ds.map Ev.ofDelivery) = (chunks ds).flatten.count 10 := by
    induction ds with
    | nil => rfl
    | cons o ds ih => cases o <;> simpa [chunks, Ev.ofDelivery, Ev.newlines, newlines] using ih
  unfold new
  split
  · simp only [pending, setLimit, init, List.count_nil, hsum]
    have := flag_le ((init .utf8 (ds.map Ev.ofDelivery)).setLimit L)
    simp only [setLimit, init] at this; omega
  · simp [pending, setLimit, ofErr, newlines]

theorem readlines_finite (d : Deps) (hdrs : HeaderMap) (ds : List (Option Bytes)) (L : Nat) :
    (collect (measure ((new d ⟨hdrs, ds.map Ev.ofDelivery⟩).setLimit L) + 1)
        ((new d ⟨hdrs, ds.map Ev.ofDelivery⟩).setLimit L)).2 ≠ .outOfFuel ∧
      ∀ n, (collect n ((new d ⟨hdrs, ds.map Ev.ofDelivery⟩).setLimit L)).1.length ≤
        (chunks ds).flatten.count 10 + 1 := by
  refine ⟨collect_ne_outOfFuel _ _ (Nat.lt_succ_self _), fun n => ?_⟩
  have hd : DataOnly ((new d ⟨hdrs, ds.map Ev.ofDelivery⟩).setLimit L).stream := by
    unfold new
    split
    · intro e he
      simp only [setLimit, init, List.mem_map] at he
      obtain ⟨o, -, rfl⟩ := he
      cases o <;> simp [Ev.ofDelivery]
    · intro e he; simp [setLimit, ofErr] at he
  exact le_trans (collect_length_le n _ hd) (pending_new d hdrs ds L)

end Readlines
end ActixHttp
