import Parenless.Server
import Parenless.Proofs.Layout
import Mathlib.Data.List.TakeWhile
/-!
Words under a cursor.

The service reports a place as a line and a column counted from line feeds
(`position`), and reads the word under a cursor from the lines editors count
(`Text.linesKeepingEnds`), which also end at a carriage return on its own, a vertical
tab, a form feed, the separators and the next-line character. The two counts agree up
to the first lone break: a line break that is neither a line feed nor the carriage
return of a CRLF pair (`Text.IsLoneBreak`). Every line break is blank, so no word spans
one.

The lines of a text are read off one equation (`Text.linesFrom_append_of_noLoneBreak`):
a prefix with no lone break gives one line per line feed, and the line after them
starts with the characters since the last line feed. The word under a cursor is the
non-blank run of its line around the cursor (`wordAt_split`). The main statement
(`words_at_positions_iff`): every word of a text is found at the position of each of
its characters exactly when only blanks follow a lone break. Otherwise the first word
after the first lone break is not found at its own position, which names a line the
line-feed count has not reached yet.
-/

namespace Parenless

namespace Text

/-- A line break that a line-feed count misses: any break but a line feed, unless it is
the carriage return of a CRLF pair. `after` is what follows it. -/
def IsLoneBreak (c : Char) (after : List Char) : Prop :=
  isLineBreak c = true ∧ c ≠ '\n' ∧ ¬ (c = '\r' ∧ after.head? = some '\n')

/-- No line break of the characters is lone. -/
def NoLoneBreak (cs : List Char) : Prop :=
  ∀ pre c post, cs = pre ++ c :: post → ¬ IsLoneBreak c post

/-- Only blanks follow a lone break. -/
def BlankAfterLoneBreaks (cs : List Char) : Prop :=
  ∀ pre c post, cs = pre ++ c :: post → IsLoneBreak c post → ∀ d ∈ post, isBlank d = true

/-- `w` is a maximal run of non-blank characters, between `pre` and `post`. -/
structure IsRun (pre w post : List Char) : Prop where
  ne_nil : w ≠ []
  unblank : ∀ c ∈ w, isBlank c = false
  left : ∀ c ∈ pre.getLast?, isBlank c = true
  right : ∀ c ∈ post.head?, isBlank c = true

theorem isBlank_of_isLineBreak {c : Char} (h : isLineBreak c = true) : isBlank c = true := by
  simp only [isLineBreak, Bool.or_eq_true, beq_iff_eq] at h
  rcases h with (((((((((h | h) | h) | h) | h) | h) | h) | h) | h) | h) <;> subst h <;> rfl

theorem ne_newline_of_unblank {c : Char} (h : isBlank c = false) : c ≠ '\n' := by
  rintro rfl
  cases h

theorem takeWhile_unblank_of_head {cs : List Char} (h : ∀ c ∈ cs.head?, isBlank c = true) :
    cs.takeWhile (fun c => !isBlank c) = [] := by
  cases cs with
  | nil => rfl
  | cons c rest =>
    have hc : isBlank c = true := h c rfl
    simp [hc]

theorem mem_head?_of_mem_head?_takeWhile {p : Char → Bool} {l : List Char} {x : Char}
    (hx : x ∈ (l.takeWhile p).head?) : x ∈ l.head? := by
  cases l with
  | nil => cases hx
  | cons y l =>
    rw [List.takeWhile_cons] at hx
    split at hx
    · exact hx
    · cases hx

/-! ### Lone breaks -/

theorem noLoneBreak_nil : NoLoneBreak [] := by
  intro pre c post h
  cases pre <;> cases h

theorem noLoneBreak_cons {c : Char} {cs : List Char} :
    NoLoneBreak (c :: cs) ↔ ¬ IsLoneBreak c cs ∧ NoLoneBreak cs := by
  constructor
  · intro h
    exact ⟨h [] c cs rfl, fun pre d post hcs => h (c :: pre) d post (by rw [hcs]; rfl)⟩
  · rintro ⟨hc, hcs⟩ pre d post h
    cases pre with
    | nil =>
      obtain ⟨rfl, rfl⟩ := List.cons.inj h
      exact hc
    | cons e pre =>
      exact hcs pre d post (List.cons.inj h).2

theorem noLoneBreak_of_unblank {cs : List Char} (h : ∀ c ∈ cs, isBlank c = false) : NoLoneBreak cs := by
  intro pre c post hcs hl
  have hc : isBlank c = false := h c (by rw [hcs]; simp)
  rw [isBlank_of_isLineBreak hl.1] at hc
  cases hc

theorem IsLoneBreak.append {c : Char} {xs ys : List Char} (h : IsLoneBreak c xs)
    (hys : xs = [] → ∀ e ∈ ys.head?, e ≠ '\n') : IsLoneBreak c (xs ++ ys) := by
  refine ⟨h.1, h.2.1, fun ⟨hr, hhead⟩ => ?_⟩
  cases xs with
  | nil => exact hys rfl '\n' hhead rfl
  | cons x xs => exact h.2.2 ⟨hr, hhead⟩

theorem IsLoneBreak.of_append {c : Char} {xs ys : List Char} (h : IsLoneBreak c (xs ++ ys)) :
    IsLoneBreak c xs := by
  refine ⟨h.1, h.2.1, fun ⟨hr, hhead⟩ => h.2.2 ⟨hr, ?_⟩⟩
  cases xs with
  | nil => cases hhead
  | cons x xs => exact hhead

theorem noLoneBreak_of_blankAfter {P R : List Char} {d : Char}
    (h : BlankAfterLoneBreaks (P ++ d :: R)) (hd : isBlank d = false) : NoLoneBreak P := by
  intro pre c post hP hl
  have hlone : IsLoneBreak c (post ++ d :: R) :=
    hl.append fun _ e he => by
      cases he
      exact ne_newline_of_unblank hd
  have := h pre c (post ++ d :: R) (by rw [hP]; simp) hlone d (by simp)
  rw [hd] at this
  cases this

/-- A word after a lone break comes after a first lone break, before which there is none. -/
theorem exists_first_lone : ∀ cs : List Char,
    (∃ A c B, cs = A ++ c :: B ∧ IsLoneBreak c B ∧ ∃ d ∈ B, isBlank d = false) →
      ∃ A c B, cs = A ++ c :: B ∧ IsLoneBreak c B ∧ NoLoneBreak A ∧ ∃ d ∈ B, isBlank d = false
  | [], ⟨A, _, _, h, _⟩ => by cases A <;> cases h
  | x :: cs, ⟨A, c, B, hcs, hl, d, hd, hdb⟩ => by
    by_cases hx : IsLoneBreak x cs
    · refine ⟨[], x, cs, rfl, hx, noLoneBreak_nil, d, ?_, hdb⟩
      cases A with
      | nil =>
        obtain ⟨-, rfl⟩ := List.cons.inj hcs
        exact hd
      | cons a A =>
        rw [(List.cons.inj hcs).2]
        simp [hd]
    · cases A with
      | nil =>
        obtain ⟨rfl, rfl⟩ := List.cons.inj hcs
        exact absurd hl hx
      | cons a A =>
        obtain ⟨rfl, hcs'⟩ := List.cons.inj hcs
        obtain ⟨A₁, c₁, B₁, rfl, hl₁, hA₁, hword⟩ := exists_first_lone cs ⟨A, c, B, hcs', hl, d, hd, hdb⟩
        refine ⟨x :: A₁, c₁, B₁, rfl, hl₁, noLoneBreak_cons.mpr ⟨fun ha => hx ?_, hA₁⟩, hword⟩
        -- the first character is lone in the whole text as soon as it is lone before `c₁`
        exact ha.append fun _ e he => by
          cases he
          exact hl₁.2.1

/-! ### Lines -/

-- The equations below come from `linesFrom.eq_def`: the equation lemmas Lean would
-- generate for its overlapping patterns are slow to build.

theorem linesFrom_nil (cur : List Char) :
    linesFrom cur [] = if cur.isEmpty then [] else [cur.reverse] := by
  rw [linesFrom.eq_def]

theorem linesFrom_cons {c : Char} {rest : List Char} (h : ¬ (c = '\r' ∧ rest.head? = some '\n'))
    (cur : List Char) :
    linesFrom cur (c :: rest) =
      if isLineBreak c then (c :: cur).reverse :: linesFrom [] rest else linesFrom (c :: cur) rest := by
  rw [linesFrom.eq_def]
  split
  · rename_i hnil
    cases hnil
  · rename_i rest' hcr
    cases hcr
    exact absurd ⟨rfl, rfl⟩ h
  · rename_i c' rest' _ hc
    cases hc
    rfl

theorem linesFrom_newline (cur rest : List Char) :
    linesFrom cur ('\n' :: rest) = ('\n' :: cur).reverse :: linesFrom [] rest := by
  rw [linesFrom_cons (fun h => absurd h.1 (by decide)) cur, if_pos (show isLineBreak '\n' = true from rfl)]

theorem linesFrom_cons_of_lone {c : Char} {rest : List Char} (h : IsLoneBreak c rest) (cur : List Char) :
    linesFrom cur (c :: rest) = (c :: cur).reverse :: linesFrom [] rest := by
  rw [linesFrom_cons h.2.2 cur, if_pos h.1]

theorem linesFrom_cons_of_ends {c : Char} {rest : List Char} (h : c = '\n' ∨ IsLoneBreak c rest)
    (cur : List Char) : linesFrom cur (c :: rest) = (c :: cur).reverse :: linesFrom [] rest := by
  rcases h with rfl | h
  · exact linesFrom_newline cur rest
  · exact linesFrom_cons_of_lone h cur

theorem linesFrom_cons_of_not_lone {c : Char} {rest : List Char} (hc : c ≠ '\n')
    (h : ¬ IsLoneBreak c rest) (cur : List Char) :
    linesFrom cur (c :: rest) = linesFrom (c :: cur) rest := by
  by_cases hcr : c = '\r' ∧ rest.head? = some '\n'
  · obtain ⟨rfl, hhead⟩ := hcr
    obtain ⟨rest', rfl⟩ : ∃ rest', rest = '\n' :: rest' := by
      cases rest with
      | nil => cases hhead
      | cons d rest' =>
        cases hhead
        exact ⟨rest', rfl⟩
    rw [linesFrom_newline]
    rfl
  · rw [linesFrom_cons hcr cur, if_neg fun hb => h ⟨hb, hc, hcr⟩]

theorem takeWhile_ne_newline_append {xs ys : List Char} (h : '\n' ∈ xs) :
    (xs ++ ys).takeWhile (· ≠ '\n') = xs.takeWhile (· ≠ '\n') := by
  rw [List.takeWhile_append, if_neg]
  intro hlen
  have hall := List.takeWhile_eq_self_iff.mp ((List.takeWhile_prefix _).eq_of_length hlen)
  simp at hall
  exact hall '\n' h rfl

theorem ne_newline_of_not_mem {xs : List Char} (h : '\n' ∉ xs) :
    ∀ c ∈ xs, decide (c ≠ '\n') = true := fun c hc => by
  simp only [ne_eq, decide_eq_true_eq]
  rintro rfl
  exact h hc

theorem takeWhile_ne_newline_of_not_mem {xs : List Char} (h : '\n' ∉ xs) :
    xs.takeWhile (· ≠ '\n') = xs :=
  List.takeWhile_eq_self_iff.mpr (ne_newline_of_not_mem h)

theorem takeWhile_reverse_cons_newline (P : List Char) :
    ('\n' :: P).reverse.takeWhile (· ≠ '\n') = P.reverse.takeWhile (· ≠ '\n') := by
  rw [List.reverse_cons]
  by_cases hmem : '\n' ∈ P
  · exact takeWhile_ne_newline_append (List.mem_reverse.mpr hmem)
  · have hrev : '\n' ∉ P.reverse := by simpa using hmem
    rw [List.takeWhile_append_of_pos (ne_newline_of_not_mem hrev), takeWhile_ne_newline_of_not_mem hrev]
    simp

theorem takeWhile_reverse_cons_of_ne {c : Char} (hc : c ≠ '\n') (P : List Char) :
    (c :: P).reverse.takeWhile (· ≠ '\n') =
      if '\n' ∈ P then P.reverse.takeWhile (· ≠ '\n') else P.reverse ++ [c] := by
  rw [List.reverse_cons]
  by_cases hmem : '\n' ∈ P
  · rw [if_pos hmem]
    exact takeWhile_ne_newline_append (List.mem_reverse.mpr hmem)
  · rw [if_neg hmem]
    exact takeWhile_ne_newline_of_not_mem (by simp [hmem, Ne.symm hc])

/-- The one equation lines follow from. A prefix with no lone break gives one line per
line feed, and the line after them starts with the characters since the last line
feed, after the line under way when there is no line feed. -/
theorem linesFrom_append_of_noLoneBreak :
    ∀ {P : List Char}, NoLoneBreak P → ∀ (cur Q : List Char), ∃ lines : List (List Char),
      lines.length = P.count '\n' ∧
      linesFrom cur (P ++ Q) =
        lines ++ linesFrom (P.reverse.takeWhile (· ≠ '\n') ++ if '\n' ∈ P then [] else cur) Q
  | [], _, cur, Q => ⟨[], rfl, by simp⟩
  | c :: P, h, cur, Q => by
    obtain ⟨hc, hP⟩ := noLoneBreak_cons.mp h
    by_cases hnl : c = '\n'
    · subst hnl
      obtain ⟨lines, hlen, heq⟩ := linesFrom_append_of_noLoneBreak hP [] Q
      refine ⟨('\n' :: cur).reverse :: lines, by rw [List.length_cons, hlen, List.count_cons_self], ?_⟩
      rw [List.cons_append, linesFrom_newline, heq, takeWhile_reverse_cons_newline,
        if_pos List.mem_cons_self, ite_self]
      rfl
    · obtain ⟨lines, hlen, heq⟩ := linesFrom_append_of_noLoneBreak hP (c :: cur) Q
      refine ⟨lines, by rw [hlen, List.count_cons_of_ne hnl], ?_⟩
      rw [List.cons_append, linesFrom_cons_of_not_lone hnl fun hl => hc hl.of_append, heq,
        takeWhile_reverse_cons_of_ne hnl]
      by_cases hmem : '\n' ∈ P
      · rw [if_pos hmem, if_pos hmem, if_pos (List.mem_cons_of_mem c hmem)]
      · have hmem' : '\n' ∉ c :: P := by simp [Ne.symm hnl, hmem]
        rw [if_neg hmem, if_neg hmem, if_neg hmem',
          takeWhile_ne_newline_of_not_mem (by simpa using hmem), List.append_assoc]
        rfl

theorem linesFrom_first_lone {A B : List Char} {c : Char} (hA : NoLoneBreak A) (hc : IsLoneBreak c B) :
    ∃ lines : List (List Char), lines.length = A.count '\n' ∧
      linesFrom [] (A ++ c :: B) =
        lines ++ (c :: A.reverse.takeWhile (· ≠ '\n')).reverse :: linesFrom [] B := by
  obtain ⟨lines, hlen, heq⟩ := linesFrom_append_of_noLoneBreak hA [] (c :: B)
  refine ⟨lines, hlen, ?_⟩
  rw [heq, ite_self, List.append_nil, linesFrom_cons_of_lone hc]

theorem mem_of_mem_reverse_cons {x c : Char} {cur B : List Char} (hx : x ∈ (c :: cur).reverse) :
    x ∈ cur ∨ x ∈ c :: B := by
  rcases List.mem_cons.mp (List.mem_reverse.mp hx) with rfl | h
  · exact .inr List.mem_cons_self
  · exact .inl h

/-- The lines that end before the last line feed of a prefix hold only characters of the
line under way and of that prefix. -/
theorem getElem?_linesFrom_of_lt_count :
    ∀ (B cur rest : List Char) (i : Nat), i < B.count '\n' →
      ∃ l, (linesFrom cur (B ++ rest))[i]? = some l ∧ ∀ x ∈ l, x ∈ cur ∨ x ∈ B
  | [], _, _, i, hi => absurd hi (Nat.not_lt_zero i)
  | c :: B, cur, rest, i, hi => by
    rw [List.cons_append]
    by_cases hends : c = '\n' ∨ IsLoneBreak c (B ++ rest)
    · rw [linesFrom_cons_of_ends hends]
      cases i with
      | zero => exact ⟨_, rfl, fun x hx => mem_of_mem_reverse_cons hx⟩
      | succ i =>
        have hi' : i < B.count '\n' := by
          rw [List.count_cons] at hi
          split at hi <;> omega
        obtain ⟨l, hl, hmem⟩ := getElem?_linesFrom_of_lt_count B [] rest i hi'
        refine ⟨l, hl, fun x hx => .inr ?_⟩
        rcases hmem x hx with h | h
        · cases h
        · exact List.mem_cons_of_mem _ h
    · obtain ⟨hnl, hl⟩ := not_or.mp hends
      rw [List.count_cons_of_ne hnl] at hi
      rw [linesFrom_cons_of_not_lone hnl hl]
      obtain ⟨l, hl', hmem⟩ := getElem?_linesFrom_of_lt_count B (c :: cur) rest i hi
      refine ⟨l, hl', fun x hx => ?_⟩
      rcases hmem x hx with h | h
      · rcases List.mem_cons.mp h with rfl | h
        · exact .inr List.mem_cons_self
        · exact .inl h
      · exact .inr (List.mem_cons_of_mem _ h)

theorem head?_linesFrom_cons :
    ∀ (rest cur : List Char) (b : Char),
      ∃ more, (linesFrom cur (b :: rest)).head? = some (cur.reverse ++ b :: more)
  | rest, cur, b => by
    by_cases hends : b = '\n' ∨ IsLoneBreak b rest
    · exact ⟨[], by rw [linesFrom_cons_of_ends hends]; simp⟩
    obtain ⟨hnl, hlone⟩ := not_or.mp hends
    rw [linesFrom_cons_of_not_lone hnl hlone]
    cases rest with
    | nil => exact ⟨[], by simp [linesFrom_nil]⟩
    | cons b' rest =>
      obtain ⟨more, h⟩ := head?_linesFrom_cons rest (b :: cur) b'
      exact ⟨b' :: more, by rw [h]; simp⟩

theorem head?_linesFrom_of_blank (cur : List Char) {post : List Char} (hcur : cur ≠ [])
    (hpost : ∀ b ∈ post.head?, isBlank b = true) :
    ∃ X, (linesFrom cur post).head? = some (cur.reverse ++ X) ∧ ∀ x ∈ X.head?, isBlank x = true := by
  cases post with
  | nil =>
    refine ⟨[], ?_, fun x hx => by cases hx⟩
    simp [linesFrom_nil, List.isEmpty_iff, hcur]
  | cons b post =>
    obtain ⟨more, h⟩ := head?_linesFrom_cons post cur b
    refine ⟨b :: more, h, fun x hx => ?_⟩
    cases hx
    exact hpost b rfl

/-- Every non-blank character lies in a maximal run: the non-blank characters just before
it, and it with those just after it. -/
theorem exists_run {A D : List Char} {c : Char} (hc : isBlank c = false) :
    ∃ pre w post, A ++ c :: D = pre ++ w ++ post ∧ IsRun pre w post ∧ pre.length ≤ A.length ∧
      A.length < pre.length + w.length := by
  have hA : A = (A.reverse.dropWhile fun c => !isBlank c).reverse ++
      (A.reverse.takeWhile fun c => !isBlank c).reverse := by
    rw [← List.reverse_append, List.takeWhile_append_dropWhile, List.reverse_reverse]
  have hlen := congrArg List.length hA
  rw [List.length_append] at hlen
  refine ⟨(A.reverse.dropWhile fun c => !isBlank c).reverse,
    (A.reverse.takeWhile fun c => !isBlank c).reverse ++ c :: D.takeWhile fun c => !isBlank c,
    D.dropWhile fun c => !isBlank c, ?_, ⟨by simp, ?_, ?_, ?_⟩, by omega, ?_⟩
  · conv_lhs => rw [hA, ← List.takeWhile_append_dropWhile (p := fun c => !isBlank c) (l := D)]
    simp only [List.append_assoc, List.cons_append]
  · intro d hd
    simp only [List.mem_append, List.mem_reverse, List.mem_cons] at hd
    rcases hd with hd | rfl | hd
    · simpa using Lexer.of_mem_takeWhile hd
    · exact hc
    · simpa using Lexer.of_mem_takeWhile hd
  · intro d hd
    rw [List.getLast?_reverse] at hd
    have hnot := List.head?_dropWhile_not (fun c => !isBlank c) A.reverse
    rw [hd] at hnot
    simpa using hnot
  · intro d hd
    have hnot := List.head?_dropWhile_not (fun c => !isBlank c) D
    rw [hd] at hnot
    simpa using hnot
  · rw [List.length_append, List.length_cons]
    omega

/-- With no lone break before it, a run of non-blank characters followed by a blank or
the end lies on the line that the line feeds before it count to, after the characters
since the last of them. -/
theorem getElem?_linesFrom_of_run {P wk post : List Char} (hP : NoLoneBreak P) (hne : wk ≠ [])
    (hwk : ∀ c ∈ wk, isBlank c = false) (hpost : ∀ b ∈ post.head?, isBlank b = true) :
    ∃ X, (linesFrom [] (P ++ (wk ++ post)))[P.count '\n']? =
        some ((P.reverse.takeWhile (· ≠ '\n')).reverse ++ (wk ++ X)) ∧
      ∀ x ∈ X.head?, isBlank x = true := by
  obtain ⟨lines, hlen, hlines⟩ := linesFrom_append_of_noLoneBreak hP [] (wk ++ post)
  -- the run holds no line break, so it joins the line under way
  have hnl : '\n' ∉ wk := fun h => absurd (hwk '\n' h) (by decide)
  obtain ⟨lines', hlen', hlines'⟩ := linesFrom_append_of_noLoneBreak (noLoneBreak_of_unblank hwk)
    (P.reverse.takeWhile (· ≠ '\n')) post
  rw [List.count_eq_zero.mpr hnl, List.length_eq_zero_iff] at hlen'
  have hwk_rev : wk.reverse.takeWhile (· ≠ '\n') = wk.reverse :=
    takeWhile_ne_newline_of_not_mem (by simpa using hnl)
  rw [hlen', List.nil_append, if_neg hnl, hwk_rev] at hlines'
  obtain ⟨X, hX, hXblank⟩ := head?_linesFrom_of_blank
    (wk.reverse ++ P.reverse.takeWhile (· ≠ '\n')) (by simp [hne]) hpost
  refine ⟨X, ?_, hXblank⟩
  rw [hlines, ite_self, List.append_nil, List.getElem?_append_right (by omega), hlen, Nat.sub_self,
    hlines', ← List.head?_eq_getElem?, hX]
  simp

end Text

/-! ### The word under a cursor -/

theorem position_append (P Q : List Char) :
    position (P ++ Q) P.length = (P.count '\n', (P.reverse.takeWhile (· ≠ '\n')).length) := by
  unfold position
  rw [List.take_left]

/-- The word under a cursor in its line: the non-blank characters just before the cursor
and those from it on. -/
theorem wordAt_split {text : String} {L : Nat} {u v : List Char}
    (h : (Text.linesFrom [] text.toList)[L]? = some (u ++ v)) :
    wordAt text L u.length =
      if ((u.reverse.takeWhile fun c => !Text.isBlank c).reverse ++
          v.takeWhile (fun c => !Text.isBlank c)).isEmpty then .ok none
      else .ok (some (String.ofList ((u.reverse.takeWhile fun c => !Text.isBlank c).reverse ++
          v.takeWhile (fun c => !Text.isBlank c)))) := by
  unfold wordAt
  rw [Text.linesKeepingEnds, List.getElem?_map, h, Option.map_some]
  dsimp only
  rw [String.toList_ofList, if_neg (by rw [List.length_append]; omega), List.take_left, List.drop_left]
  split
  · rename_i hnil
    rw [hnil]
    rfl
  · rename_i w hw
    rw [if_neg fun h => hw (List.isEmpty_iff.mp h)]

theorem wordAt_past_end {text : String} {L C : Nat} {l : List Char}
    (h : (Text.linesFrom [] text.toList)[L]? = some l) (hC : l.length < C) :
    wordAt text L C = .error .pastLineEnd := by
  unfold wordAt
  rw [Text.linesKeepingEnds, List.getElem?_map, h, Option.map_some]
  dsimp only
  rw [String.toList_ofList, if_pos hC]

theorem wordAt_ne_of_blank_edges {text : String} {L C : Nat} {l : List Char}
    (h : (Text.linesFrom [] text.toList)[L]? = some l)
    (hbefore : ∀ x ∈ (l.take C).getLast?, Text.isBlank x = true)
    (hafter : ∀ x ∈ (l.drop C).head?, Text.isBlank x = true) (v : String) :
    wordAt text L C ≠ .ok (some v) := by
  by_cases hC : l.length < C
  · rw [wordAt_past_end h hC]
    intro h'
    cases h'
  · have hsplit : (Text.linesFrom [] text.toList)[L]? = some (l.take C ++ l.drop C) := by
      rw [List.take_append_drop]
      exact h
    have hlen : (l.take C).length = C := List.length_take_of_le (by omega)
    rw [← hlen, wordAt_split hsplit, Text.takeWhile_unblank_of_head (by rwa [List.head?_reverse]),
      Text.takeWhile_unblank_of_head hafter]
    simp

/-- Where only blanks follow a lone break, a cursor at the position of any character of a
maximal run finds the run. -/
theorem wordAt_position_of_run {text : String} (hgood : Text.BlankAfterLoneBreaks text.toList)
    {pre w post : List Char} (hcs : text.toList = pre ++ w ++ post) (hrun : Text.IsRun pre w post)
    {o : Nat} (ho : pre.length ≤ o) (ho' : o < pre.length + w.length) :
    wordAt text (position text.toList o).1 (position text.toList o).2 =
      .ok (some (String.ofList w)) := by
  obtain ⟨k, rfl⟩ : ∃ k, o = pre.length + k := ⟨o - pre.length, by omega⟩
  have hk : k < w.length := by omega
  obtain ⟨d, rest, hd⟩ : ∃ d rest, w.drop k = d :: rest := List.exists_cons_of_ne_nil fun h => by
    rw [List.drop_eq_nil_iff] at h
    omega
  have hunblank : ∀ c ∈ w.drop k, Text.isBlank c = false :=
    fun c hc => hrun.unblank c (List.mem_of_mem_drop hc)
  have htext : text.toList = (pre ++ w.take k) ++ (w.drop k ++ post) := by
    rw [hcs, List.append_assoc, List.append_assoc, ← List.append_assoc (w.take k), List.take_append_drop]
  have hPlen : (pre ++ w.take k).length = pre.length + k := by
    rw [List.length_append, List.length_take_of_le hk.le]
  have hnoP : Text.NoLoneBreak (pre ++ w.take k) := by
    refine Text.noLoneBreak_of_blankAfter (R := rest ++ post) ?_ (hunblank d (by rw [hd]; exact List.mem_cons_self))
    rw [← List.cons_append, ← hd, ← htext]
    exact hgood
  obtain ⟨X, hline, hXblank⟩ := Text.getElem?_linesFrom_of_run hnoP (by rw [hd]; exact List.cons_ne_nil d rest)
    hunblank hrun.right
  rw [← htext] at hline
  rw [htext, ← hPlen, position_append]
  dsimp only
  rw [← List.length_reverse, wordAt_split hline, List.reverse_reverse]
  have hbefore : (((pre ++ w.take k).reverse.takeWhile (· ≠ '\n')).takeWhile
      fun c => !Text.isBlank c).reverse = w.take k := by
    have hrun_nl : ∀ c ∈ (w.take k).reverse, decide (c ≠ '\n') = true := fun c hc =>
      Text.ne_newline_of_not_mem (fun h => absurd (hrun.unblank '\n' (List.mem_of_mem_take
        (List.mem_reverse.mp h))) (by decide)) c hc
    have hrun_nb : ∀ c ∈ (w.take k).reverse, (!Text.isBlank c) = true := fun c hc => by
      simp [hrun.unblank c (List.mem_of_mem_take (List.mem_reverse.mp hc))]
    rw [List.reverse_append, List.takeWhile_append_of_pos hrun_nl, List.takeWhile_append_of_pos hrun_nb,
      Text.takeWhile_unblank_of_head, List.append_nil, List.reverse_reverse]
    intro x hx
    exact hrun.left x (by rw [← List.head?_reverse]; exact Text.mem_head?_of_mem_head?_takeWhile hx)
  have hafter : (w.drop k ++ X).takeWhile (fun c => !Text.isBlank c) = w.drop k := by
    rw [List.takeWhile_append_of_pos (fun c hc => by simp [hunblank c hc]),
      Text.takeWhile_unblank_of_head hXblank, List.append_nil]
  rw [hbefore, hafter, List.take_append_drop, if_neg fun h => hrun.ne_nil (List.isEmpty_iff.mp h)]

/-- At the position of the first word after a lone break that follows no other, a cursor
finds no word: the position names the line the break ends, at or past its end, or a line
of blanks between the break and the word. -/
theorem wordAt_position_after_lone {text : String} {A Bl R : List Char} {c d : Char}
    (htext : text.toList = A ++ c :: (Bl ++ d :: R)) (hA : Text.NoLoneBreak A)
    (hc : Text.IsLoneBreak c (Bl ++ d :: R)) (hBl : ∀ x ∈ Bl, Text.isBlank x = true) (v : String) :
    wordAt text (position text.toList (A ++ c :: Bl).length).1
      (position text.toList (A ++ c :: Bl).length).2 ≠ .ok (some v) := by
  obtain ⟨lines, hlen, hlines⟩ := Text.linesFrom_first_lone hA hc
  have htext' : text.toList = (A ++ c :: Bl) ++ d :: R := by
    rw [htext]
    simp
  rw [htext', position_append, List.count_append, List.count_cons_of_ne hc.2.1]
  dsimp only
  by_cases hzero : Bl.count '\n' = 0
  · -- the line the lone break ends; the cursor is at its end or past it
    have hline : (Text.linesFrom [] text.toList)[A.count '\n' + Bl.count '\n']? =
        some (c :: A.reverse.takeWhile (· ≠ '\n')).reverse := by
      rw [hzero, Nat.add_zero, htext, hlines, List.getElem?_append_right (by omega), hlen, Nat.sub_self]
      rfl
    have hnl : '\n' ∉ Bl.reverse ++ [c] := by
      simp [List.count_eq_zero.mp hzero, Ne.symm hc.2.1]
    have hcol : (c :: A.reverse.takeWhile (· ≠ '\n')).reverse.length ≤
        ((A ++ c :: Bl).reverse.takeWhile (· ≠ '\n')).length := by
      have hrev : (A ++ c :: Bl).reverse = (Bl.reverse ++ [c]) ++ A.reverse := by simp
      rw [hrev, List.takeWhile_append_of_pos (Text.ne_newline_of_not_mem hnl)]
      simp
    refine wordAt_ne_of_blank_edges hline (fun x hx => ?_) (fun x hx => ?_) v
    · rw [List.take_of_length_le hcol, List.reverse_cons, List.getLast?_concat] at hx
      cases hx
      exact Text.isBlank_of_isLineBreak hc.1
    · rw [List.drop_of_length_le hcol] at hx
      cases hx
  · obtain ⟨l, hl, hmem⟩ := Text.getElem?_linesFrom_of_lt_count Bl [] (d :: R) (Bl.count '\n' - 1) (by omega)
    have hline : (Text.linesFrom [] text.toList)[A.count '\n' + Bl.count '\n']? = some l := by
      rw [htext, hlines, List.getElem?_append_right (by omega), hlen,
        show A.count '\n' + Bl.count '\n' - A.count '\n' = (Bl.count '\n' - 1) + 1 by omega,
        List.getElem?_cons_succ]
      exact hl
    have hblank : ∀ x ∈ l, Text.isBlank x = true := fun x hx =>
      (hmem x hx).elim (fun h => absurd h List.not_mem_nil) (hBl x)
    exact wordAt_ne_of_blank_edges hline
      (fun x hx => hblank x (List.mem_of_mem_take (List.mem_of_mem_getLast? hx)))
      (fun x hx => hblank x (List.mem_of_mem_drop (List.mem_of_mem_head? hx))) v

/-- Where every word is found at the position of each of its characters, only blanks
follow a lone break. -/
theorem blankAfter_of_words_found {text : String}
    (hall : ∀ pre w post o, text.toList = pre ++ w ++ post → Text.IsRun pre w post →
      pre.length ≤ o → o < pre.length + w.length →
      wordAt text (position text.toList o).1 (position text.toList o).2 = .ok (some (String.ofList w))) :
    Text.BlankAfterLoneBreaks text.toList := by
  intro A c B hcs hl d hd
  by_contra hdb
  obtain ⟨A₁, c₁, B₁, hcs₁, hl₁, hA₁, d₁, hd₁, hdb₁⟩ :=
    Text.exists_first_lone _ ⟨A, c, B, hcs, hl, d, hd, by simpa using hdb⟩
  obtain ⟨e, R, hR⟩ : ∃ e R, B₁.dropWhile Text.isBlank = e :: R := List.exists_cons_of_ne_nil fun h => by
    rw [List.dropWhile_eq_nil_iff] at h
    rw [h d₁ hd₁] at hdb₁
    cases hdb₁
  have he : Text.isBlank e = false := by
    have hnot := List.head?_dropWhile_not Text.isBlank B₁
    rw [hR] at hnot
    exact hnot
  have hB₁ : B₁ = B₁.takeWhile Text.isBlank ++ e :: R := by
    rw [← hR, List.takeWhile_append_dropWhile]
  have htext : text.toList = A₁ ++ c₁ :: (B₁.takeWhile Text.isBlank ++ e :: R) := by
    rw [hcs₁, ← hB₁]
  obtain ⟨pre, w, post, hsplit, hrun, hle, hlt⟩ :=
    Text.exists_run (A := A₁ ++ c₁ :: B₁.takeWhile Text.isBlank) (D := R) he
  have hfound := hall pre w post _ (by rw [htext, ← hsplit]; simp) hrun hle hlt
  exact wordAt_position_after_lone htext hA₁ (by rw [← hB₁]; exact hl₁)
    (fun x hx => Lexer.of_mem_takeWhile hx) _ hfound

/-! ### Main statement -/

/-- Positions and words agree up to the first lone break. Every non-blank character of a
text lies in a maximal run of non-blank characters; and a cursor at the position of any
character of any maximal run finds that run, for every run of the text, exactly when
only blanks follow a lone break: a line break that is neither a line feed nor the
carriage return of a CRLF pair. -/
theorem words_at_positions_iff (text : String) :
    (∀ A c D, text.toList = A ++ c :: D → Text.isBlank c = false →
      ∃ pre w post, text.toList = pre ++ w ++ post ∧ Text.IsRun pre w post ∧
        pre.length ≤ A.length ∧ A.length < pre.length + w.length) ∧
    ((∀ pre w post o, text.toList = pre ++ w ++ post → Text.IsRun pre w post →
        pre.length ≤ o → o < pre.length + w.length →
        wordAt text (position text.toList o).1 (position text.toList o).2 =
          .ok (some (String.ofList w))) ↔
      Text.BlankAfterLoneBreaks text.toList) := by
  refine ⟨fun A c D htext hc => ?_, blankAfter_of_words_found,
    fun hgood _ _ _ _ hcs hrun ho ho' => wordAt_position_of_run hgood hcs hrun ho ho'⟩
  rw [htext]
  exact Text.exists_run hc

/-- In "a", carriage return, "b", the word "b" is the maximal run at offset 2, whose
position counts no line feed: line 0, column 2. The lines editors count start with "a"
and the carriage return, so the cursor there is at the end of that line and finds no
word. -/
theorem lone_return_hides_word :
    Text.IsRun ['a', '\r'] ['b'] [] ∧ position "a\rb".toList 2 = (0, 2) ∧
      wordAt "a\rb" 0 2 = .ok none := by
  refine ⟨⟨List.cons_ne_nil _ _, fun c hc => ?_, fun c hc => ?_, fun c hc => by cases hc⟩, by decide, by decide⟩
  · rw [List.mem_singleton.mp hc]
    rfl
  · cases hc
    rfl

end Parenless
