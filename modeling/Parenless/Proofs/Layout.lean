import Parenless.Proofs.Literals
/-!
What a successful read says of the source.

Reading a source into tokens loses nothing and invents nothing: the tokens are the
source's words and literals in order, and what lies between them is blanks and
comments. `Lexer.Faithful` lists what that means for offsets: every span lies in the
source and is not empty; the written forms (the span, and the backslash before a
declaration head's name) come in order without overlapping; each token is what the
source holds at its span (`Token.Spelled`); every token but a text ends at a blank or at
the end; and every character outside the written forms is a blank or lies in a comment
that starts with `#` where a token could start and runs up to the next line feed.

The proof goes through `Lexer.Reads`, which says what the scanner does at each offset
of the whole source rather than of the suffix it holds: skip a blank, skip a comment,
read a text literal, or read a word. The scanner reads that way (`reads_of_scanFrom`),
and each part of `Faithful` follows by induction on the reading.

Main statement: `scan_faithful`.
-/

namespace Parenless

namespace Token

/-- The offset where a token's written form starts: its span's, or the backslash's
before a declaration head's name. -/
def front (tok : Token) : Nat :=
  match tok.lexeme with
  | .decl _ => tok.span.start - 1
  | _ => tok.span.start

/-- What the source `src` holds at a token's span: a name or a declared name as it is,
after a backslash for a declared name; the arrow as `->`; a number as ASCII digits
spelling it in base ten; a text as a literal between double quotes whose body stands for
the text. -/
def Spelled (src : List Char) (tok : Token) : Prop :=
  match tok.lexeme with
  | .name s => src.extract tok.span.start tok.span.stop = s.toList
  | .arrow => src.extract tok.span.start tok.span.stop = ['-', '>']
  | .decl s => src.extract tok.span.start tok.span.stop = s.toList ∧ 0 < tok.span.start ∧
      src[tok.span.start - 1]? = some '\\'
  | .number v => (∀ c ∈ src.extract tok.span.start tok.span.stop, c.isDigit = true) ∧
      Nat.ofDigits 10 ((src.extract tok.span.start tok.span.stop).reverse.map
        fun c => c.toNat - '0'.toNat) = v
  | .text s => ∃ body, src.extract tok.span.start tok.span.stop = '"' :: body ++ ['"'] ∧
      Lexer.Unescapes body s.toList

/-- The offset `i` lies in the written form of one of the tokens. -/
def Covers (toks : List Token) (i : Nat) : Prop :=
  ∃ tok ∈ toks, tok.front ≤ i ∧ i < tok.span.stop

end Token

namespace Lexer

/-- A token could start at offset `j` of `src` read as `toks`: at the start, after a
blank, or right where a token ends. -/
def CanBegin (src : List Char) (toks : List Token) (j : Nat) : Prop :=
  j = 0 ∨ (∃ c, src[j - 1]? = some c ∧ Text.isBlank c = true) ∨ ∃ tok ∈ toks, tok.span.stop = j

/-- The offset `i` lies in a comment: after a `#` at an offset `j` where a token could
start and that no token covers, with no line feed from `j` to `i`. -/
def InComment (src : List Char) (toks : List Token) (i : Nat) : Prop :=
  ∃ j ≤ i, src[j]? = some '#' ∧ CanBegin src toks j ∧ ¬ Token.Covers toks j ∧
    ∀ k, j ≤ k → k ≤ i → src[k]? ≠ some '\n'

/-- The tokens `toks` are a faithful reading of `src`. -/
structure Faithful (src : List Char) (toks : List Token) : Prop where
  within : ∀ tok ∈ toks, tok.span.start < tok.span.stop ∧ tok.span.stop ≤ src.length
  ordered : toks.Pairwise fun a b => a.span.stop ≤ b.front
  spelled : ∀ tok ∈ toks, tok.Spelled src
  endsAtBlank : ∀ tok ∈ toks, tok.kind ≠ .text →
    ∀ c, src[tok.span.stop]? = some c → Text.isBlank c = true
  outside : ∀ i c, src[i]? = some c → ¬ Token.Covers toks i →
    Text.isBlank c = true ∨ InComment src toks i

/-- Reading `src` from offset `pos` gives `toks`, one step of the scanner at a time. -/
inductive Reads (src : List Char) : Nat → List Token → Prop
  | done {pos : Nat} : src.length ≤ pos → Reads src pos []
  | blank {pos : Nat} {c : Char} {toks : List Token} : src[pos]? = some c →
      Text.isBlank c = true → Reads src (pos + 1) toks → Reads src pos toks
  | comment {pos : Nat} {body : List Char} {toks : List Token} :
      src.extract pos (pos + 1 + body.length) = '#' :: body → '\n' ∉ body →
      (∀ c, src[pos + 1 + body.length]? = some c → c = '\n') →
      Reads src (pos + 1 + body.length) toks → Reads src pos toks
  | text {pos : Nat} {body value : List Char} {toks : List Token} :
      src.extract pos (pos + body.length + 2) = '"' :: body ++ ['"'] → Unescapes body value →
      Reads src (pos + body.length + 2) toks →
      Reads src pos (⟨.text (String.ofList value), ⟨pos, pos + body.length + 2⟩⟩ :: toks)
  | word {pos : Nat} {w : List Char} {tok : Token} {toks : List Token} :
      src.extract pos (pos + w.length) = w → w ≠ [] → (∀ c ∈ w, Text.isBlank c = false) →
      (∀ c, src[pos + w.length]? = some c → Text.isBlank c = true) →
      word w pos = .ok tok → Reads src (pos + w.length) toks → Reads src pos (tok :: toks)

/-! ### Offsets into the source -/

section Offsets

variable {src l : List Char} {a b : Nat}

theorem getElem?_of_extract (h : src.extract a b = l) (i : Nat) (hi : i < l.length) :
    src[a + i]? = l[i]? := by
  subst h
  simp only [List.extract_eq_take_drop, List.length_take] at hi ⊢
  rw [List.getElem?_take_of_lt (by omega), List.getElem?_drop]

theorem le_length_of_extract (h : src.extract a b = l) (hl : l.length = b - a) (hab : a < b) :
    b ≤ src.length := by
  subst h
  simp only [List.extract_eq_take_drop, List.length_take, List.length_drop] at hl
  omega

theorem extract_succ_of_cons {c : Char} (h : src.extract a b = c :: l) :
    src.extract (a + 1) b = l := by
  simp only [List.extract_eq_take_drop] at h ⊢
  obtain ⟨k, hk⟩ : ∃ k, b - a = k + 1 := by
    rcases hba : b - a with _ | k
    · rw [hba] at h
      simp at h
    · exact ⟨k, rfl⟩
  rcases hd : src.drop a with _ | ⟨d, rest⟩
  · rw [hd] at h
    simp at h
  rw [hk, hd, List.take_succ_cons, List.cons.injEq] at h
  rw [show b - (a + 1) = k by omega, ← List.drop_drop, hd]
  exact h.2

theorem extract_of_drop {X D : List Char} {e : Nat} (h : src.drop a = X ++ D)
    (he : e = a + X.length) : src.extract a e = X ∧ src.drop e = D := by
  subst he
  refine ⟨?_, ?_⟩
  · simp [h]
  · rw [← List.drop_drop, h, List.drop_left]

end Offsets

theorem drop_length_takeWhile (p : Char → Bool) (l : List Char) :
    l.drop (l.takeWhile p).length = l.dropWhile p := by
  induction l with
  | nil => rfl
  | cons x xs ih => by_cases h : p x <;> simp [h, ih]

theorem of_mem_takeWhile {p : Char → Bool} {l : List Char} {x : Char}
    (h : x ∈ l.takeWhile p) : p x = true :=
  List.all_eq_true.1 List.all_takeWhile x h

theorem of_getElem?_dropWhile {p : Char → Bool} {l : List Char} {x : Char}
    (h : (l.dropWhile p)[0]? = some x) : p x = false := by
  have := List.head?_dropWhile_not p l
  rw [List.head?_eq_getElem?, h] at this
  exact this

/-! ### A word's token -/

/-- The token of a non-empty word found at offset `pos` of `src`: its written form is
the word, and it is what the source holds there. -/
theorem word_ok {src w : List Char} {pos : Nat} {tok : Token}
    (hx : src.extract pos (pos + w.length) = w) (hne : w ≠ []) (h : word w pos = .ok tok) :
    tok.front = pos ∧ tok.span.stop = pos + w.length ∧ tok.span.start < tok.span.stop ∧
      tok.kind ≠ .text ∧ tok.Spelled src := by
  cases w with
  | nil => exact absurd rfl hne
  | cons c rest =>
  simp only [word] at h
  split_ifs at h with hq harrow hback hrest hdigit hnum hlimit hmax
  · cases h
    refine ⟨rfl, rfl, by simp, by simp [Token.kind, Lexeme.kind], ?_⟩
    show src.extract pos (pos + (c :: rest).length) = ['-', '>']
    rw [hx, harrow]
  · cases h
    refine ⟨rfl, rfl, ?_, by simp [Token.kind, Lexeme.kind], ?_⟩
    · cases rest with
      | nil => simp at hrest
      | cons _ _ => simp
    · subst hback
      refine ⟨?_, Nat.succ_pos _, ?_⟩
      · rw [String.toList_ofList]
        exact extract_succ_of_cons hx
      · simpa using getElem?_of_extract hx 0 (by simp)
  · cases h
    refine ⟨rfl, rfl, by simp, by simp [Token.kind, Lexeme.kind], ?_⟩
    show (∀ d ∈ src.extract pos (pos + (c :: rest).length), d.isDigit = true) ∧ _
    rw [hx]
    exact ⟨by simpa [isNumeral] using hnum, (numeralValue_eq_ofDigits _).symm⟩
  · cases h
    refine ⟨rfl, rfl, by simp, by simp [Token.kind, Lexeme.kind], ?_⟩
    show src.extract pos (pos + (c :: rest).length) = (String.ofList (c :: rest)).toList
    rw [hx, String.toList_ofList]

/-! ### The scanner reads -/

theorem eq_cons_of_map_eq_ok {tok : Token} {x : Except Failure (List Token)}
    {toks : List Token} (h : (tok :: ·) <$> x = .ok toks) :
    ∃ toks', x = .ok toks' ∧ toks = tok :: toks' := by
  cases x with
  | error f => cases h
  | ok toks' =>
    cases h
    exact ⟨toks', rfl, rfl⟩

/-- The scanner reads the source one step at a time. The induction is on the length of
what is left to read, and each case is one of the scanner's steps. -/
theorem reads_of_scanFrom (src : List Char) :
    ∀ (n pos : Nat) (toks : List Token), (src.drop pos).length = n →
      scanFrom pos (src.drop pos) = .ok toks → Reads src pos toks := by
  intro n
  induction n using Nat.strong_induction_on with
  | _ n ih =>
  intro pos toks hn h
  cases hcs : src.drop pos with
  | nil =>
    rw [hcs, scanFrom_nil] at h
    cases h
    exact .done (List.drop_eq_nil_iff.1 hcs)
  | cons c rest =>
    rw [hcs] at h
    rw [hcs, List.length_cons] at hn
    have hcs' : src.drop pos = [c] ++ rest := hcs
    have hc : src[pos]? = some c := by
      simpa using getElem?_of_extract (extract_of_drop hcs' rfl).1 0 (by simp)
    have hrest : src.drop (pos + 1) = rest := (extract_of_drop hcs' rfl).2
    by_cases hb : Text.isBlank c = true
    · rw [scanFrom_blank pos rest hb, ← hrest] at h
      exact .blank hc hb (ih _ (by rw [hrest]; omega) (pos + 1) toks rfl h)
    by_cases hhash : c = '#'
    · subst hhash
      rw [scanFrom_comment] at h
      obtain ⟨hx, hd⟩ := extract_of_drop (by rw [hcs, List.cons_append, List.takeWhile_append_dropWhile] :
        src.drop pos = ('#' :: rest.takeWhile (· ≠ '\n')) ++ rest.dropWhile (· ≠ '\n'))
        (show pos + 1 + (rest.takeWhile (· ≠ '\n')).length = _ by simp; omega)
      have hnext : src.drop (pos + 1 + (rest.takeWhile (· ≠ '\n')).length) =
          rest.drop (rest.takeWhile (· ≠ '\n')).length := by
        rw [← hrest, List.drop_drop]
      rw [← hnext] at h
      refine .comment hx ?_ ?_ (ih _ ?_ _ toks rfl h)
      · intro hmem
        simpa using of_mem_takeWhile hmem
      · intro d hd'
        rw [← Nat.add_zero (pos + 1 + _), ← List.getElem?_drop, hd] at hd'
        simpa using of_getElem?_dropWhile hd'
      · rw [hnext, List.length_drop]
        omega
    by_cases hlit : c = '"' ∧ (quoted rest).isSome
    · obtain ⟨rfl, hsome⟩ := hlit
      obtain ⟨⟨body, after⟩, hq⟩ := Option.isSome_iff_exists.1 hsome
      rw [scanFrom_text pos hq] at h
      have hsplit : src.drop pos = ('"' :: body ++ ['"']) ++ after := by
        rw [hcs, eq_of_quoted hq]
        simp
      obtain ⟨hx, hd⟩ := extract_of_drop hsplit (show pos + body.length + 2 = _ by simp; omega)
      rcases hu : unescape (pos + 1) body with err | value
      · rw [hu] at h
        cases h
      rw [hu] at h
      obtain ⟨toks', h', rfl⟩ := eq_cons_of_map_eq_ok h
      have hlen : after.length < n := by
        rw [eq_of_quoted hq] at hn
        simp at hn
        omega
      rw [← hd] at h' hlen
      exact .text hx (unescapes_of_quoted hq hu) (ih _ hlen _ toks' rfl h')
    · have hq : c = '"' → quoted rest = none := fun hc' =>
        Option.not_isSome_iff_eq_none.1 fun hs => hlit ⟨hc', hs⟩
      rw [scanFrom_word pos rest (by simpa using hb) hhash hq] at h
      rcases hw : word ((c :: rest).takeWhile fun d => !Text.isBlank d) pos with err | tok
      · rw [hw] at h
        cases h
      rw [hw] at h
      set w := (c :: rest).takeWhile fun d => !Text.isBlank d with hwdef
      obtain ⟨toks', h', rfl⟩ := eq_cons_of_map_eq_ok h
      obtain ⟨hx, hd⟩ := extract_of_drop
        (by rw [hcs, hwdef, List.takeWhile_append_dropWhile] :
          src.drop pos = w ++ (c :: rest).dropWhile fun d => !Text.isBlank d) rfl
      have hne : w ≠ [] := by simp [hwdef, hb]
      have hafter : (c :: rest).drop w.length = src.drop (pos + w.length) := by
        rw [hd, hwdef, drop_length_takeWhile]
      rw [hafter] at h'
      refine .word hx hne ?_ ?_ hw (ih _ ?_ _ toks' rfl h')
      · intro d hd'
        simpa using of_mem_takeWhile hd'
      · intro d hd'
        rw [← Nat.add_zero (pos + w.length), ← List.getElem?_drop, hd] at hd'
        simpa using of_getElem?_dropWhile hd'
      · rw [← hafter, List.length_drop, List.length_cons]
        have := List.length_pos_iff.2 hne
        omega

/-! ### What a reading says -/

section Reading

variable {src : List Char}

/-- Every token read from `pos` is written at or after `pos`, has a span that is not
empty, and ends within the source. -/
theorem Reads.bounds {pos : Nat} {toks : List Token} (h : Reads src pos toks) :
    ∀ tok ∈ toks, pos ≤ tok.front ∧ tok.span.start < tok.span.stop ∧
      tok.span.stop ≤ src.length := by
  induction h with
  | done => simp
  | blank _ _ _ ih => exact fun tok htok => ⟨by have := (ih tok htok).1; omega, (ih tok htok).2⟩
  | comment _ _ _ _ ih => exact fun tok htok => ⟨by have := (ih tok htok).1; omega, (ih tok htok).2⟩
  | @text pos body value toks hx _ _ ih =>
    intro tok htok
    rcases List.mem_cons.1 htok with rfl | htok
    · have hlt : pos < pos + body.length + 2 := by omega
      exact ⟨le_refl _, hlt, le_length_of_extract hx (by simp; omega) hlt⟩
    · exact ⟨by have := (ih tok htok).1; omega, (ih tok htok).2⟩
  | @word pos w tok' toks hx hne _ _ hw _ ih =>
    intro tok htok
    obtain ⟨hfront, hstop, hlt, -⟩ := word_ok hx hne hw
    rcases List.mem_cons.1 htok with rfl | htok
    · refine ⟨hfront.ge, hlt, hstop ▸ le_length_of_extract hx (by simp) ?_⟩
      have := List.length_pos_iff.2 hne
      omega
    · exact ⟨by have := (ih tok htok).1; omega, (ih tok htok).2⟩

theorem Reads.ordered {pos : Nat} {toks : List Token} (h : Reads src pos toks) :
    toks.Pairwise fun a b => a.span.stop ≤ b.front := by
  induction h with
  | done => exact .nil
  | blank _ _ _ ih => exact ih
  | comment _ _ _ _ ih => exact ih
  | text _ _ hrest ih => exact .cons (fun b hb => (hrest.bounds b hb).1) ih
  | word hx hne _ _ hw hrest ih =>
    obtain ⟨-, hstop, -⟩ := word_ok hx hne hw
    exact .cons (fun b hb => hstop ▸ (hrest.bounds b hb).1) ih

theorem Reads.spelled {pos : Nat} {toks : List Token} (h : Reads src pos toks) :
    ∀ tok ∈ toks, tok.Spelled src := by
  induction h with
  | done => simp
  | blank _ _ _ ih => exact ih
  | comment _ _ _ _ ih => exact ih
  | @text pos body value toks hx hu _ ih =>
    intro tok htok
    rcases List.mem_cons.1 htok with rfl | htok
    · exact ⟨body, hx, by rwa [String.toList_ofList]⟩
    · exact ih tok htok
  | word hx hne _ _ hw _ ih =>
    intro tok htok
    rcases List.mem_cons.1 htok with rfl | htok
    · exact (word_ok hx hne hw).2.2.2.2
    · exact ih tok htok

theorem Reads.endsAtBlank {pos : Nat} {toks : List Token} (h : Reads src pos toks) :
    ∀ tok ∈ toks, tok.kind ≠ .text → ∀ c, src[tok.span.stop]? = some c →
      Text.isBlank c = true := by
  induction h with
  | done => simp
  | blank _ _ _ ih => exact ih
  | comment _ _ _ _ ih => exact ih
  | text _ _ _ ih =>
    intro tok htok hk
    rcases List.mem_cons.1 htok with rfl | htok
    · exact absurd rfl hk
    · exact ih tok htok hk
  | word hx hne _ hend hw _ ih =>
    intro tok htok hk
    rcases List.mem_cons.1 htok with rfl | htok
    · rw [(word_ok hx hne hw).2.1]
      exact hend
    · exact ih tok htok hk

/-- A comment that starts at the reading's own offset, or at an offset where a token
could start: what the induction on a reading carries. -/
def CommentFrom (src : List Char) (pos : Nat) (toks : List Token) (i : Nat) : Prop :=
  ∃ j, pos ≤ j ∧ j ≤ i ∧ src[j]? = some '#' ∧ (j = pos ∨ CanBegin src toks j) ∧
    ¬ Token.Covers toks j ∧ ∀ k, j ≤ k → k ≤ i → src[k]? ≠ some '\n'

theorem commentFrom_cons {pos i : Nat} (tok : Token) {toks : List Token}
    (hstop : tok.span.stop = pos) (hfront : tok.front ≤ pos)
    (h : CommentFrom src pos toks i) : CommentFrom src tok.front (tok :: toks) i := by
  obtain ⟨j, hpj, hji, hj, hbegin, hcov, hnl⟩ := h
  refine ⟨j, by omega, hji, hj, .inr ?_, ?_, hnl⟩
  · rcases hbegin with rfl | hb
    · exact .inr (.inr ⟨tok, List.mem_cons_self, hstop⟩)
    · rcases hb with h0 | hb | ⟨t, ht, hts⟩
      · exact .inl h0
      · exact .inr (.inl hb)
      · exact .inr (.inr ⟨t, List.mem_cons_of_mem _ ht, hts⟩)
  · rintro ⟨t, ht, hlo, hhi⟩
    rcases List.mem_cons.1 ht with rfl | ht
    · omega
    · exact hcov ⟨t, ht, hlo, hhi⟩

/-- Every character from `pos` on that no written form covers is a blank or lies in a
comment. The induction is on the reading; a comment found later that starts right
after a blank, a comment or a token is where a token could start. -/
theorem Reads.outside {pos : Nat} {toks : List Token} (h : Reads src pos toks) :
    ∀ i c, pos ≤ i → src[i]? = some c → ¬ Token.Covers toks i →
      Text.isBlank c = true ∨ CommentFrom src pos toks i := by
  induction h with
  | done hlen =>
    intro i c hi hc _
    have := (List.getElem?_eq_some_iff.1 hc).1
    omega
  | @blank pos c₀ toks hc₀ hb _ ih =>
    intro i c hi hc hcov
    rcases Nat.eq_or_lt_of_le hi with rfl | hi
    · rw [hc₀] at hc
      cases hc
      exact .inl hb
    rcases ih i c hi hc hcov with hblank | ⟨j, hpj, hji, hj, hbegin, hjcov, hnl⟩
    · exact .inl hblank
    · refine .inr ⟨j, by omega, hji, hj, .inr ?_, hjcov, hnl⟩
      rcases hbegin with rfl | hb'
      · exact .inr (.inl ⟨c₀, by simpa using hc₀, hb⟩)
      · exact hb'
  | @comment pos body toks hx hbody hend hrest ih =>
    intro i c hi hc hcov
    by_cases hin : i < pos + 1 + body.length
    · have hfront := hrest.bounds
      refine .inr ⟨pos, le_refl _, hi, ?_, .inl rfl, ?_, ?_⟩
      · simpa using getElem?_of_extract hx 0 (by simp)
      · rintro ⟨t, ht, hlo, -⟩
        have := (hfront t ht).1
        omega
      · intro k hk hki hk'
        have hget := getElem?_of_extract hx (k - pos) (by simp; omega)
        rw [Nat.add_sub_cancel' hk, hk'] at hget
        rcases Nat.eq_zero_or_pos (k - pos) with h0 | hpos
        · rw [h0] at hget
          simp at hget
        · obtain ⟨m, hm⟩ : ∃ m, k - pos = m + 1 := ⟨k - pos - 1, by omega⟩
          rw [hm, List.getElem?_cons_succ] at hget
          exact hbody (List.mem_of_getElem? hget.symm)
    · rcases ih i c (by omega) hc hcov with hblank | ⟨j, hpj, hji, hj, hbegin, hjcov, hnl⟩
      · exact .inl hblank
      · -- a later comment cannot start at the line feed that ends this one
        refine .inr ⟨j, by omega, hji, hj, .inr ?_, hjcov, hnl⟩
        rcases hbegin with rfl | hb'
        · have := hend '#' hj
          simp at this
        · exact hb'
  | @text pos body value toks hx _ hrest ih =>
    intro i c hi hc hcov
    have hi' : pos + body.length + 2 ≤ i := by
      by_contra hlt
      exact hcov ⟨_, List.mem_cons_self, by simp [Token.front]; omega, by simp; omega⟩
    have hcov' : ¬ Token.Covers toks i := fun ⟨t, ht, hlo, hhi⟩ =>
      hcov ⟨t, List.mem_cons_of_mem _ ht, hlo, hhi⟩
    rcases ih i c hi' hc hcov' with hblank | hcomment
    · exact .inl hblank
    · exact .inr (commentFrom_cons ⟨.text (String.ofList value), ⟨pos, pos + body.length + 2⟩⟩
        rfl (show pos ≤ pos + body.length + 2 by omega) hcomment)
  | @word pos w tok toks hx hne _ _ hw _ ih =>
    intro i c hi hc hcov
    obtain ⟨hfront, hstop, -⟩ := word_ok hx hne hw
    have hi' : pos + w.length ≤ i := by
      by_contra hlt
      exact hcov ⟨tok, List.mem_cons_self, by omega, by omega⟩
    have hcov' : ¬ Token.Covers toks i := fun ⟨t, ht, hlo, hhi⟩ =>
      hcov ⟨t, List.mem_cons_of_mem _ ht, hlo, hhi⟩
    rcases ih i c hi' hc hcov' with hblank | hcomment
    · exact .inl hblank
    · exact .inr (hfront ▸ commentFrom_cons tok hstop (by omega) hcomment)

end Reading

/-! ### Main statement -/

/-- A source that reads into tokens is faithfully read: spans lie in the source, are not
empty and come in order without overlapping, a declaration head's backslash included;
each token is what the source holds at its span; every token but a text ends at a blank
or at the end; and every character outside the written forms is a blank or lies in a
comment that starts with `#` where a token could start and runs up to the next line
feed. -/
theorem scan_faithful {source : String} {toks : List Token} (h : Token.scan source = .ok toks) :
    Faithful source.toList toks := by
  have hr : Reads source.toList 0 toks :=
    reads_of_scanFrom source.toList _ 0 toks rfl (by simpa [Token.scan] using h)
  refine ⟨fun tok htok => (hr.bounds tok htok).2, hr.ordered, hr.spelled, hr.endsAtBlank, ?_⟩
  intro i c hc hcov
  rcases hr.outside i c (Nat.zero_le i) hc hcov with hblank | ⟨j, -, hji, hj, hbegin, hjcov, hnl⟩
  · exact .inl hblank
  · refine .inr ⟨j, hji, hj, ?_, hjcov, hnl⟩
    rcases hbegin with rfl | hb
    · exact .inl rfl
    · exact hb

/-- A declaration head, a name, the arrow, a numeral, a text with an escape and a comment
at the end. -/
theorem scan_faithful_sample :
    Token.scan "\\f x -> x 12 \"a\\tb\" # c" =
      .ok [⟨.decl "f", ⟨1, 2⟩⟩, ⟨.name "x", ⟨3, 4⟩⟩, ⟨.arrow, ⟨5, 7⟩⟩, ⟨.name "x", ⟨8, 9⟩⟩,
        ⟨.number 12, ⟨10, 12⟩⟩, ⟨.text "a\tb", ⟨13, 19⟩⟩] ∧
    Faithful "\\f x -> x 12 \"a\\tb\" # c".toList
      [⟨.decl "f", ⟨1, 2⟩⟩, ⟨.name "x", ⟨3, 4⟩⟩, ⟨.arrow, ⟨5, 7⟩⟩, ⟨.name "x", ⟨8, 9⟩⟩,
        ⟨.number 12, ⟨10, 12⟩⟩, ⟨.text "a\tb", ⟨13, 19⟩⟩] := by
  refine (fun h => ⟨h, scan_faithful h⟩) ?_
  simp [Token.scan, scanFrom, word, Text.isBlank, Text.inRanges, Text.blankRanges,
    Text.isDigitLike, Text.digitRanges, quoted, unescape, escape?, isNumeral, digitLimit,
    maxNumber, numeralValue]

end Lexer

end Parenless
