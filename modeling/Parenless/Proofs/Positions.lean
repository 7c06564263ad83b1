import Parenless.Diagnostic
import Parenless.Proofs.Hover
/-!
Lines and columns.

A diagnostic quotes its source line by line, the lines split at line feeds
(`sourceLines`), and names a place by a line and a column: how many line feeds come
before it, and how many characters since the last of them (`position`). The two ways
of counting agree: offset `o` is column `C` of line `L` exactly when line `L` exists,
`C` is at most its length, and `o` is where the line starts plus `C` (`Placed`).

The lines give the source back when joined with line feeds, and the proof goes over
that joining one line at a time: within the first line a place is its column
(`position_within_line`), and past the line feed that ends it a place is one line
further down (`position_after_line`). So every place of a line is named by its line
and column (`position_placed`), and every offset of the source is such a place
(`exists_placed`).

Main statement (`positions_read_back`): offsets and positions are converted faithfully,
offsets outside the source are moved to its nearest end, and a diagnostic quotes the
line of its span's start under that line's number and puts its carets under exactly
the characters of the span on that line.
-/

namespace Parenless

/-- Where line `L` of `lines` starts: the lengths of the lines before it, each with the
line feed that ends it. -/
def lineStart (lines : List (List Char)) (L : Nat) : Nat :=
  ((lines.take L).map (·.length + 1)).sum

/-- Offset `o` is column `C` of line `L`: the line exists, the column is at most its
length (the place after its last character included), and `o` is `C` characters past
the line's start. -/
def Placed (lines : List (List Char)) (o L C : Nat) : Prop :=
  ∃ h : L < lines.length, C ≤ lines[L].length ∧ o = lineStart lines L + C

@[simp] theorem lineStart_zero (lines : List (List Char)) : lineStart lines 0 = 0 := by
  simp [lineStart]

@[simp] theorem lineStart_succ (l : List Char) (lines : List (List Char)) (L : Nat) :
    lineStart (l :: lines) (L + 1) = l.length + 1 + lineStart lines L := by
  simp [lineStart]

/-! ### The lines of a source -/

/-- No line holds a line feed. -/
theorem newline_not_mem_of_mem_sourceLines :
    ∀ {cs l : List Char}, l ∈ sourceLines cs → '\n' ∉ l := by
  intro cs
  induction cs with
  | nil =>
    intro l hl
    simp only [sourceLines, List.splitOn_nil, List.mem_singleton] at hl
    simp [hl]
  | cons x xs ih =>
    intro l hl
    simp only [sourceLines, List.splitOn_cons_eq_if_modifyHead, beq_iff_eq] at hl
    split at hl
    · rcases List.mem_cons.mp hl with rfl | hl
      · simp
      · exact ih hl
    · rename_i hx
      obtain ⟨first, more, hsplit⟩ := List.exists_cons_of_ne_nil (List.splitOn_ne_nil '\n' xs)
      have hfirst : '\n' ∉ first := ih (by rw [sourceLines, hsplit]; exact List.mem_cons_self)
      rw [hsplit, List.modifyHead_cons] at hl
      rcases List.mem_cons.mp hl with rfl | hl
      · simp [Ne.symm hx, hfirst]
      · exact ih (by rw [sourceLines, hsplit]; exact List.mem_cons_of_mem _ hl)

theorem intercalate_sourceLines (cs : List Char) : ['\n'].intercalate (sourceLines cs) = cs :=
  List.intercalate_splitOn '\n'

/-! ### Places line by line -/

theorem takeWhile_append_newline (xs ys : List Char) :
    (xs ++ '\n' :: ys).takeWhile (· ≠ '\n') = xs.takeWhile (· ≠ '\n') := by
  induction xs with
  | nil => simp
  | cons x xs ih =>
    by_cases hx : x = '\n'
    · subst hx
      simp
    · simp_all

/-- Within the first line, a place is on line zero at its own offset. -/
theorem position_within_line {l : List Char} (hl : '\n' ∉ l) (rest : List Char) {C : Nat}
    (hC : C ≤ l.length) : position (l ++ rest) C = (0, C) := by
  have htake : '\n' ∉ l.take C := fun h => hl (List.mem_of_mem_take h)
  have hrev : '\n' ∉ (l.take C).reverse := by simpa using htake
  dsimp only [position]
  rw [List.take_append_of_le_length hC, List.count_eq_zero_of_not_mem htake,
    Text.takeWhile_ne_newline_of_not_mem hrev]
  simp [hC]

/-- Past the line feed that ends the first line, a place is one line further down, at
the column it has in what follows. -/
theorem position_after_line {l : List Char} (hl : '\n' ∉ l) (rest : List Char) (o : Nat) :
    position (l ++ '\n' :: rest) (l.length + 1 + o) =
      ((position rest o).1 + 1, (position rest o).2) := by
  have htake : (l ++ '\n' :: rest).take (l.length + 1 + o) = l ++ '\n' :: rest.take o := by
    rw [Nat.add_assoc, List.take_length_add_append, Nat.add_comm, List.take_succ_cons]
  dsimp only [position]
  rw [htake, List.reverse_append, List.reverse_cons, List.append_assoc, List.singleton_append,
    takeWhile_append_newline]
  simp [List.count_eq_zero_of_not_mem hl]

/-- Every place of a line is named by its line and column. The induction is on the
lines: a place past the first line is a place of the lines after it. -/
theorem position_placed :
    ∀ {lines : List (List Char)}, (∀ l ∈ lines, '\n' ∉ l) →
      ∀ {o L C : Nat}, Placed lines o L C → position (['\n'].intercalate lines) o = (L, C)
  | [], _, _, _, _, ⟨h, _⟩ => absurd h (Nat.not_lt_zero _)
  | l :: lines, hnl, o, 0, C, ⟨_, hC, ho⟩ => by
    simp only [lineStart_zero, Nat.zero_add] at ho
    subst ho
    have hl := hnl l List.mem_cons_self
    cases lines with
    | nil => simpa using position_within_line hl [] hC
    | cons l' lines =>
      rw [List.intercalate_cons_cons, List.append_assoc]
      exact position_within_line hl _ hC
  | l :: lines, hnl, o, L + 1, C, ⟨hL, hC, ho⟩ => by
    have hne : lines ≠ [] := by rintro rfl; simp at hL
    have hrest : Placed lines (lineStart lines L + C) L C :=
      ⟨by simpa using hL, by simpa using hC, rfl⟩
    rw [lineStart_succ] at ho
    rw [ho, List.intercalate_cons_of_ne_nil hne, List.append_assoc, List.singleton_append,
      Nat.add_assoc, position_after_line (hnl l List.mem_cons_self),
      position_placed (fun l' hl' => hnl l' (List.mem_cons_of_mem _ hl')) hrest]

/-- Every offset of the joined lines, its end included, is a place of one of them. -/
theorem exists_placed :
    ∀ {lines : List (List Char)}, lines ≠ [] →
      ∀ {o : Nat}, o ≤ (['\n'].intercalate lines).length → ∃ L C, Placed lines o L C
  | [], hne, _, _ => absurd rfl hne
  | l :: lines, _, o, ho => by
    by_cases hfirst : o ≤ l.length
    · exact ⟨0, o, by simp, by simpa using hfirst, by simp⟩
    · have hne : lines ≠ [] := by rintro rfl; simp at ho; omega
      rw [List.intercalate_cons_of_ne_nil hne] at ho
      simp only [List.length_append, List.length_singleton] at ho
      obtain ⟨L, C, hL, hC, hoL⟩ := exists_placed hne (o := o - (l.length + 1)) (by omega)
      exact ⟨L + 1, C, by simpa using hL, by simpa using hC, by rw [lineStart_succ]; omega⟩

theorem drop_lineStart :
    ∀ {lines : List (List Char)} {L : Nat} (h : L < lines.length),
      ∃ rest, (['\n'].intercalate lines).drop (lineStart lines L) = lines[L] ++ rest
  | [], _, h => absurd h (Nat.not_lt_zero _)
  | l :: lines, 0, _ => by
    cases lines with
    | nil => exact ⟨[], by simp⟩
    | cons l' lines => exact ⟨'\n' :: ['\n'].intercalate (l' :: lines), by simp⟩
  | l :: lines, L + 1, h => by
    have hne : lines ≠ [] := by rintro rfl; simp at h
    obtain ⟨rest, hrest⟩ := @drop_lineStart lines L (by simpa using h)
    refine ⟨rest, ?_⟩
    rw [lineStart_succ, List.intercalate_cons_of_ne_nil hne, List.append_assoc,
      List.singleton_append, Nat.add_assoc, List.drop_length_add_append, Nat.add_comm,
      List.drop_succ_cons, hrest]
    simp

theorem position_eq_iff {cs : List Char} {o L C : Nat} (ho : o ≤ cs.length) :
    position cs o = (L, C) ↔ Placed (sourceLines cs) o L C := by
  have hnl : ∀ l ∈ sourceLines cs, '\n' ∉ l := fun _ hl => newline_not_mem_of_mem_sourceLines hl
  constructor
  · intro h
    have ho' : o ≤ (['\n'].intercalate (sourceLines cs)).length := by
      rwa [intercalate_sourceLines]
    obtain ⟨L', C', hplaced⟩ := exists_placed (List.splitOn_ne_nil '\n' cs) ho'
    have h' := position_placed hnl hplaced
    rw [intercalate_sourceLines, h] at h'
    obtain ⟨rfl, rfl⟩ := Prod.mk.inj h'
    exact hplaced
  · intro h
    have h' := position_placed hnl h
    rwa [intercalate_sourceLines] at h'

/-! ### Offsets outside the source -/

theorem lineColumn_of_le {source : String} {o : Nat} (ho : o ≤ source.length) :
    lineColumn source o = position source.toList o := by
  have h : (max 0 (min (o : Int) source.toList.length)).toNat = o := by
    simp only [String.length_toList]
    omega
  simp only [lineColumn, h]

theorem lineColumn_of_neg {source : String} {o : Int} (ho : o < 0) : lineColumn source o = (0, 0) := by
  have h : (max 0 (min o source.toList.length)).toNat = 0 := by omega
  simp [lineColumn, h, position]

theorem lineColumn_of_length_lt {source : String} {o : Int} (ho : (source.length : Int) < o) :
    lineColumn source o = lineColumn source source.length := by
  have h₁ : (max 0 (min o source.toList.length)).toNat = source.length := by
    simp only [String.length_toList]
    omega
  have h₂ : (max 0 (min (source.length : Int) source.toList.length)).toNat = source.length := by
    simp only [String.length_toList]
    omega
  simp only [lineColumn, h₁, h₂]

/-! ### Diagnostics -/

theorem render?_of_placed {d : Diagnostic} {source : String} {start stop L C : Nat}
    (hsrc : d.source = some source) (hspan : d.span = some ((start : Int), (stop : Int)))
    (hle : start ≤ stop)
    (hstop : stop ≤ source.length) (hplaced : Placed (sourceLines source.toList) start L C)
    {line : List Char} (hline : (sourceLines source.toList)[L]? = some line) :
    d.render? = some ("\n".intercalate [d.headline,
      String.ofList (List.replicate (Nat.repr (L + 1)).length ' ') ++ "--> " ++ d.originName ++
        ":" ++ Nat.repr (L + 1) ++ ":" ++ Nat.repr (C + 1),
      Nat.repr (L + 1) ++ " | " ++ String.ofList line,
      String.ofList (List.replicate (Nat.repr (L + 1)).length ' ') ++ " | " ++
        String.ofList (List.replicate C ' ') ++
        String.ofList (List.replicate (max 1 (min (stop - start) (line.length - C))) '^')]) := by
  have hpos : lineColumn source start = (L, C) := by
    rw [lineColumn_of_le (by omega), position_eq_iff (by rw [String.length_toList]; omega)]
    exact hplaced
  have hwidth : ((stop : Int) - start).toNat = stop - start := by omega
  unfold Diagnostic.render?
  simp only [hsrc, hspan, if_neg (show ¬ (stop : Int) < start by omega), hpos, hline,
    Option.getD_some, hwidth]

theorem carets_cover_span {source : String} {start stop L C : Nat}
    (hplaced : Placed (sourceLines source.toList) start L C) {line : List Char}
    (hline : (sourceLines source.toList)[L]? = some line) (hspan : start < stop)
    (hcol : C < line.length) :
    start + max 1 (min (stop - start) (line.length - C)) =
        min stop (lineStart (sourceLines source.toList) L + line.length) ∧
      (line.drop C).take (max 1 (min (stop - start) (line.length - C))) =
        (source.toList.drop start).take (max 1 (min (stop - start) (line.length - C))) := by
  obtain ⟨hL, hC, hstart⟩ := hplaced
  have hget : (sourceLines source.toList)[L] = line := by
    rw [List.getElem?_eq_getElem hL] at hline
    exact Option.some.inj hline
  refine ⟨by omega, ?_⟩
  obtain ⟨rest, hrest⟩ := drop_lineStart hL
  rw [intercalate_sourceLines, hget] at hrest
  rw [hstart, ← List.drop_drop, hrest,
    List.drop_append_of_le_length (by omega), List.take_append_of_le_length (by simp; omega)]

/-! ### Main statement -/

/-- Offsets and line-column positions are converted faithfully. An offset of a source,
its end included, is named line `L`, column `C` exactly when it is column `C` of line `L`
of the source's lines; an offset before the source is named as its start and one past it
as its end; and the reader of declaration heads names places the same way. A diagnostic
whose span lies in the source quotes the line of the span's start under its one-based
number, names that place one-based, and starts its carets at its column, as many as the
span covers on the line and at least one; under a non-empty span that starts before the
end of its line, the carets cover exactly the span's characters on that line. -/
theorem positions_read_back (source : String) :
    (∀ o L C : Nat, o ≤ source.length →
      (lineColumn source o = (L, C) ↔ Placed (sourceLines source.toList) o L C)) ∧
    (∀ o : Int, o < 0 → lineColumn source o = (0, 0)) ∧
    (∀ o : Int, (source.length : Int) < o → lineColumn source o = lineColumn source source.length) ∧
    (∀ o : Nat, o ≤ source.length → position source.toList o = lineColumn source o) ∧
    (∀ (d : Diagnostic) (start stop L C : Nat), d.source = some source →
      d.span = some ((start : Int), (stop : Int)) → start ≤ stop → stop ≤ source.length →
      Placed (sourceLines source.toList) start L C →
      ∃ line, (sourceLines source.toList)[L]? = some line ∧
        d.render? = some ("\n".intercalate [d.headline,
          String.ofList (List.replicate (Nat.repr (L + 1)).length ' ') ++ "--> " ++
            d.originName ++ ":" ++ Nat.repr (L + 1) ++ ":" ++ Nat.repr (C + 1),
          Nat.repr (L + 1) ++ " | " ++ String.ofList line,
          String.ofList (List.replicate (Nat.repr (L + 1)).length ' ') ++ " | " ++
            String.ofList (List.replicate C ' ') ++
            String.ofList (List.replicate (max 1 (min (stop - start) (line.length - C))) '^')]) ∧
        (start < stop → C < line.length →
          start + max 1 (min (stop - start) (line.length - C)) =
              min stop (lineStart (sourceLines source.toList) L + line.length) ∧
            (line.drop C).take (max 1 (min (stop - start) (line.length - C))) =
              (source.toList.drop start).take (max 1 (min (stop - start) (line.length - C))))) := by
  refine ⟨fun o L C ho => ?_, fun o ho => lineColumn_of_neg ho,
    fun o ho => lineColumn_of_length_lt ho, fun o ho => (lineColumn_of_le ho).symm, ?_⟩
  · rw [lineColumn_of_le ho]
    exact position_eq_iff (by rw [String.length_toList]; exact ho)
  · intro d start stop L C hsrc hspan hle hstop hplaced
    have hL := hplaced.fst
    refine ⟨(sourceLines source.toList)[L], List.getElem?_eq_getElem hL, ?_, ?_⟩
    · exact render?_of_placed hsrc hspan hle hstop hplaced (List.getElem?_eq_getElem hL)
    · exact carets_cover_span hplaced (List.getElem?_eq_getElem hL)

end Parenless
