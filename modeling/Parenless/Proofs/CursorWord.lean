import Parenless.Proofs.Hover
import Parenless.Proofs.Printing
import Mathlib.Data.List.DropRight
/-!
The word under a cursor, line by line.

A cursor names a line of the text, as editors count lines (`Text.linesKeepingEnds`,
each line with its ending), and a column of that line. Reading the word under it walks
back from the column over non-blank characters and forward from it over non-blank
characters (`Text.wordAround`). The walk back reads the character before the column
without asking whether the column lies in the line; so a column past the end of its
line, ending included, is refused, and one at the very end is not.

What the cursor finds is said without the walks (`CursorFinds`): past the last line,
nothing; past the end of its line, a refusal; else the maximal run of non-blank
characters of the line that holds the column's character or ends just before it
(`Text.RunAt`), or nothing when no run does. The two walks find exactly that run: what
they find is a maximal run around the column (`Text.runAt_wordAround`), and any maximal
run around the column is what they find (`Text.wordAround_eq_of_runAt`), so there is
at most one. The main statement, `wordAt_eq_iff`, says that the answer is the one
`CursorFinds` describes, for every text, line and column.
-/

namespace Parenless

namespace Text

/-- The non-blank characters around column `C` of a line: those just before it, and
those from it on. -/
def wordAround (l : List Char) (C : Nat) : List Char :=
  (l.take C).rtakeWhile (fun c => !isBlank c) ++ (l.drop C).takeWhile fun c => !isBlank c

/-- `w` is the maximal run of non-blank characters of the line `l` that holds the
character at column `C` or ends just before it. -/
def RunAt (l : List Char) (C : Nat) (w : List Char) : Prop :=
  ∃ pre post, l = pre ++ w ++ post ∧ IsRun pre w post ∧ pre.length ≤ C ∧ C ≤ pre.length + w.length

theorem RunAt.ne_nil {l : List Char} {C : Nat} {w : List Char} (h : RunAt l C w) : w ≠ [] := by
  obtain ⟨_, _, _, hrun, _⟩ := h
  exact hrun.ne_nil

theorem rtakeWhile_append_word {pre w : List Char} (hw : ∀ c ∈ w, isBlank c = false)
    (hpre : ∀ c ∈ pre.getLast?, isBlank c = true) :
    (pre ++ w).rtakeWhile (fun c => !isBlank c) = w := by
  have hback : (w.reverse ++ pre.reverse).takeWhile (fun c => !isBlank c) = w.reverse :=
    Lexer.takeWhile_word (by simpa using hw) (by rwa [Lexer.EndsWord, List.head?_reverse])
  rw [List.rtakeWhile, List.reverse_append, hback, List.reverse_reverse]

/-- What the walks find around a column of a line is a maximal run around it, unless
they find nothing. -/
theorem runAt_wordAround {l : List Char} {C : Nat} (hC : C ≤ l.length) (hne : wordAround l C ≠ []) :
    RunAt l C (wordAround l C) := by
  -- the line is cut at the column; each side is cut where the blanks begin
  have hleft := List.rdropWhile_append_rtakeWhile (p := fun c => !isBlank c) (l := l.take C)
  have hright := List.takeWhile_append_dropWhile (p := fun c => !isBlank c) (l := l.drop C)
  have hlen : ((l.take C).rdropWhile fun c => !isBlank c).length +
      ((l.take C).rtakeWhile fun c => !isBlank c).length = C := by
    rw [← List.length_append, hleft, List.length_take_of_le hC]
  refine ⟨(l.take C).rdropWhile (fun c => !isBlank c), (l.drop C).dropWhile (fun c => !isBlank c),
    ?_, ⟨hne, ?_, ?_, ?_⟩, by omega, ?_⟩
  · conv_lhs => rw [← List.take_append_drop C l, ← hleft, ← hright]
    simp only [wordAround, List.append_assoc]
  · intro c hc
    rcases List.mem_append.mp hc with hc | hc
    · simpa using List.mem_rtakeWhile_imp hc
    · simpa using Lexer.of_mem_takeWhile hc
  · intro c hc
    have hnot := List.head?_dropWhile_not (fun c => !isBlank c) (l.take C).reverse
    rw [List.rdropWhile, List.getLast?_reverse] at hc
    rw [hc] at hnot
    simpa using hnot
  · intro c hc
    have hnot := List.head?_dropWhile_not (fun c => !isBlank c) (l.drop C)
    rw [hc] at hnot
    simpa using hnot
  · rw [wordAround, List.length_append]
    omega

/-- A maximal run around a column is what the walks find there. -/
theorem wordAround_eq_of_runAt {l : List Char} {C : Nat} {w : List Char} (h : RunAt l C w) :
    wordAround l C = w := by
  obtain ⟨pre, post, rfl, hrun, hpre, hpost⟩ := h
  -- the column cuts the run after its first `k` characters
  obtain ⟨k, rfl⟩ : ∃ k, C = pre.length + k := ⟨C - pre.length, by omega⟩
  have hk : k ≤ w.length := by omega
  have htake : (pre ++ w ++ post).take (pre.length + k) = pre ++ w.take k := by
    rw [List.append_assoc, List.take_append, List.take_of_length_le (by omega),
      Nat.add_sub_cancel_left, List.take_append_of_le_length hk]
  have hdrop : (pre ++ w ++ post).drop (pre.length + k) = w.drop k ++ post := by
    rw [List.append_assoc, List.drop_append, List.drop_of_length_le (by omega), List.nil_append,
      Nat.add_sub_cancel_left, List.drop_append_of_le_length hk]
  have hunblank : ∀ c ∈ w, isBlank c = false := hrun.unblank
  rw [wordAround, htake, hdrop,
    rtakeWhile_append_word (fun c hc => hunblank c (List.mem_of_mem_take hc)) hrun.left,
    Lexer.takeWhile_word (fun c hc => hunblank c (List.mem_of_mem_drop hc)) hrun.right,
    List.take_append_drop]

end Text

/-- What a cursor at column `C` of the line `l` finds: past the end of the line, its
ending included, a refusal; else the maximal run of non-blank characters around the
column, or nothing when there is none. -/
def CursorFinds (l : List Char) (C : Nat) : Except Refusal (Option String) → Prop
  | .error r => l.length < C ∧ r = .pastLineEnd
  | .ok (some w) => C ≤ l.length ∧ Text.RunAt l C w.toList
  | .ok none => C ≤ l.length ∧ ∀ w, ¬ Text.RunAt l C w

theorem CursorFinds.unique {l : List Char} {C : Nat} {r r' : Except Refusal (Option String)}
    (h : CursorFinds l C r) (h' : CursorFinds l C r') : r = r' := by
  rcases r with r | _ | w <;> rcases r' with r' | _ | w' <;> simp only [CursorFinds] at h h'
  · rw [h.2, h'.2]
  · omega
  · omega
  · omega
  · rfl
  · exact absurd h'.2 (h.2 _)
  · omega
  · exact absurd h.2 (h'.2 _)
  · have hsame := (Text.wordAround_eq_of_runAt h.2).symm.trans (Text.wordAround_eq_of_runAt h'.2)
    rw [String.toList_inj.mp hsame]

theorem wordAt_of_line {text : String} {L : Nat} {l : String}
    (h : (Text.linesKeepingEnds text)[L]? = some l) (C : Nat) :
    wordAt text L C =
      if l.toList.length < C then .error .pastLineEnd
      else if Text.wordAround l.toList C = [] then .ok none
      else .ok (some (String.ofList (Text.wordAround l.toList C))) := by
  unfold wordAt
  rw [h]
  dsimp only
  split_ifs with hC hnil
  · rfl
  · rw [Text.wordAround, List.rtakeWhile] at hnil
    rw [hnil]
  · rw [Text.wordAround, List.rtakeWhile] at hnil
    split
    · contradiction
    · rfl

theorem cursorFinds_wordAt {text : String} {L : Nat} {l : String}
    (h : (Text.linesKeepingEnds text)[L]? = some l) (C : Nat) :
    CursorFinds l.toList C (wordAt text L C) := by
  rw [wordAt_of_line h C]
  split_ifs with hC hnil
  · exact ⟨hC, rfl⟩
  · refine ⟨by omega, fun w hw => hw.ne_nil ?_⟩
    rw [← Text.wordAround_eq_of_runAt hw]
    exact hnil
  · refine ⟨by omega, ?_⟩
    rw [String.toList_ofList]
    exact Text.runAt_wordAround (by omega) hnil

/-! ### Main statement -/

/-- The word under a cursor at line `L` and column `C` of a text is nothing past the
last line; on a line, it is a refusal exactly when the column lies past the end of the
line, ending included, and otherwise the maximal run of non-blank characters of the
line that holds the column's character or ends just before it, or nothing when there is
no such run. -/
theorem wordAt_eq_iff (text : String) (L C : Nat) (r : Except Refusal (Option String)) :
    wordAt text L C = r ↔
      if hL : L < (Text.linesKeepingEnds text).length then
        CursorFinds (Text.linesKeepingEnds text)[L].toList C r
      else r = .ok none := by
  split
  · rename_i hL
    have hline : (Text.linesKeepingEnds text)[L]? = some (Text.linesKeepingEnds text)[L] :=
      List.getElem?_eq_getElem hL
    exact ⟨fun h => h ▸ cursorFinds_wordAt hline C,
      fun h => (cursorFinds_wordAt hline C).unique h⟩
  · rename_i hL
    have hnone : (Text.linesKeepingEnds text)[L]? = none := List.getElem?_eq_none (by omega)
    unfold wordAt
    rw [hnone]
    exact ⟨Eq.symm, Eq.symm⟩

/-- A cursor at the very end of a line, after its line feed, finds nothing; one column
further is refused; a run that ends just before the cursor is found. -/
example : wordAt "ab cd\n" 0 5 = .ok (some "cd") ∧ wordAt "ab cd\n" 0 6 = .ok none ∧
    wordAt "ab cd\n" 0 7 = .error .pastLineEnd ∧ wordAt "ab cd\n" 1 0 = .ok none :=
  ⟨rfl, rfl, rfl, rfl⟩

end Parenless
