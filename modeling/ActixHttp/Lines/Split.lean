import ActixHttp.Lines.Termination
/-!
# The lines of a payload, and where `Readlines` departs from them

`lines B` is what a line reader should yield for the bytes `B`: each maximal segment
ending in `\n`, newline included, then the segment after the last newline if it is not
empty. Concatenating them gives `B` back (`flatten_lines`).

`Readlines::poll` yields the line of a fresh chunk from the chunk alone
(`bytes.split_to(ind + 1)`, line 405) and appends the rest of the chunk after the
residual buffer (line 414). When a line starts in the residual and ends in a later
chunk, its start is left behind and comes out later, glued to the next fragment:
* `readlines_splits_line`: chunks `ab`, `c\nd` give `c\n`, `abd` instead of `abc\n`,
  `d`.
* `readlines_misses_overlong_line`: with limit 2, chunks `ab`, `c\n` give `c\n`, `ab`
  and end normally, though the line `abc\n` has 4 bytes; the limit is checked against
  each fragment, never against the line.
-/
namespace ActixHttp

/-- The lines of `B`, with `cur` the part of the current line read so far. -/
def linesFrom (cur : Bytes) : Bytes → List Bytes
  | [] => if cur = [] then [] else [cur]
  | b :: bs => if b = 10 then (cur ++ [10]) :: linesFrom [] bs else linesFrom (cur ++ [b]) bs

/-- Each maximal segment ending in `\n`, then the unterminated tail if not empty. -/
def lines (B : Bytes) : List Bytes := linesFrom [] B

theorem linesFrom_newline (post : Bytes) :
    ∀ (pre cur : Bytes), (10 : UInt8) ∉ pre →
      linesFrom cur (pre ++ 10 :: post) = (cur ++ pre ++ [10]) :: lines post
  | [], cur, _ => by simp [linesFrom, lines]
  | b :: pre, cur, h => by
    have hb : b ≠ 10 := fun e => h (e ▸ List.mem_cons_self _ _)
    simp only [List.cons_append, linesFrom, hb, if_false, List.append_eq]
    rw [linesFrom_newline post pre _ (fun m => h (List.mem_cons_of_mem _ m))]
    simp

theorem linesFrom_tail : ∀ (bs cur : Bytes), (10 : UInt8) ∉ bs →
    linesFrom cur bs = if cur ++ bs = [] then [] else [cur ++ bs]
  | [], cur, _ => by simp [linesFrom]
  | b :: bs, cur, h => by
    have hb : b ≠ 10 := fun e => h (e ▸ List.mem_cons_self _ _)
    simp only [linesFrom, hb, if_false]
    rw [linesFrom_tail bs _ (fun m => h (List.mem_cons_of_mem _ m))]
    simp

theorem lines_newline {pre : Bytes} (h : (10 : UInt8) ∉ pre) (post : Bytes) :
    lines (pre ++ 10 :: post) = (pre ++ [10]) :: lines post := by
  simpa using linesFrom_newline post pre [] h

theorem lines_tail {bs : Bytes} (h : (10 : UInt8) ∉ bs) (hne : bs ≠ []) : lines bs = [bs] := by
  simp [lines, linesFrom_tail bs [] h, hne]

theorem lines_nil : lines [] = [] := rfl

theorem flatten_linesFrom : ∀ (bs cur : Bytes), (linesFrom cur bs).flatten = cur ++ bs
  | [], cur => by by_cases h : cur = [] <;> simp [linesFrom, h]
  | b :: bs, cur => by
    by_cases hb : b = 10
    · simp [linesFrom, hb, flatten_linesFrom bs []]
    · simp [linesFrom, hb, flatten_linesFrom bs (cur ++ [b])]

/-- Splitting into lines loses and adds nothing. -/
theorem flatten_lines (B : Bytes) : (lines B).flatten = B := flatten_linesFrom B []

namespace Readlines

theorem readlines_splits_line :
    lines ([97, 98] ++ [99, 10, 100]) = [[97, 98, 99, 10], [100]] ∧
      ((collect 8 (new Deps.plain ⟨[], [.chunk [97, 98], .chunk [99, 10, 100]]⟩)).1.map
          RStr.bytes = [[99, 10], [97, 98, 100]] ∧
        (collect 8 (new Deps.plain ⟨[], [.chunk [97, 98], .chunk [99, 10, 100]]⟩)).2 = .done) := by
  rw [new_nil_headers]
  decide

theorem readlines_misses_overlong_line :
    lines ([97, 98] ++ [99, 10]) = [[97, 98, 99, 10]] ∧
      ((collect 8 ((new Deps.plain ⟨[], [.chunk [97, 98], .chunk [99, 10]]⟩).setLimit 2)).1.map
          RStr.bytes = [[99, 10], [97, 98]] ∧
        (collect 8 ((new Deps.plain ⟨[], [.chunk [97, 98], .chunk [99, 10]]⟩).setLimit 2)).2 =
          .done) := by
  rw [new_nil_headers]
  decide

end Readlines
end ActixHttp
