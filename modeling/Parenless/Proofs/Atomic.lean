import Parenless.Proofs.Declarations
/-!
Atomic loads and input lines.

A session changes its table in one way only: a load, or an input line that is a run of
declarations, whose source reads in full. Everything else leaves the session exactly as
it was: a source that cannot be scanned or read, a failure at any token of any
declaration, however many declarations before it were read, an expression line
whatever its evaluation does, and an empty line.

When a load succeeds, the table is the old one with the declarations its source spells
installed one after another, and the load returns their names. `names_foldl_install`
says where the names end up: a name the table had keeps its place, and a new name goes
at the end, in the order the source first declares it.

Main statement: `loads_and_lines_atomic`.
-/

namespace Parenless

namespace Declaration

/-- Installing declarations in turn keeps the names the table had where they were and
adds each new name at the end, in order of its first declaration. -/
theorem names_foldl_install :
    ∀ (ds : List Declaration) (t : Table), (ds.foldl install t).names =
      t.names ++ ((ds.map name).filter fun n => !t.contains n).eraseDups := by
  intro ds
  induction ds with
  | nil => intro t; simp [List.eraseDups]
  | cons d ds ih =>
    intro t
    rw [List.foldl_cons, ih, install, Table.names_declare]
    by_cases hc : t.contains d.name
    · have hpred : (fun n => !(t.declare d.name d.fn).contains n) = fun n => !t.contains n := by
        funext n
        by_cases hn : n = d.name
        · simp [Table.contains_declare, hn, hc]
        · simp [Table.contains_declare, hn]
      simp [hc, hpred]
    · have hpred : (fun n => !(t.declare d.name d.fn).contains n) =
          fun n => !n == d.name && !t.contains n := by
        funext n
        by_cases hn : n = d.name
        · simp [Table.contains_declare, hn]
        · simp [Table.contains_declare, hn]
      simp [hc, hpred, List.eraseDups_cons, List.filter_filter]

end Declaration

namespace Session

variable {s : Session} {source origin : String}

/-! ### What a load does -/

theorem load_error {r : Report} (h : (s.load source origin).result = .error r) :
    (s.load source origin).session = s := by
  unfold load at h ⊢
  rcases hs : Token.scan source with f | ts
  · rfl
  · rw [hs] at h
    rcases hd : (Parse.decls (s.stack.room - 1) s.table ts).result with f | ⟨names, t⟩
    · simp only [hd]
    · simp only [hd] at h
      cases h

theorem load_ok {names : List String} (h : (s.load source origin).result = .ok names) :
    ∃ ts ds, Token.scan source = .ok ts ∧
      ts.map Token.lexeme = (ds.map Declaration.tokens).flatten ∧
      Declaration.Chain s.table ds ∧ names = ds.map Declaration.name ∧
      (s.load source origin).session = { s with table := ds.foldl Declaration.install s.table } := by
  unfold load at h ⊢
  rcases hs : Token.scan source with f | ts
  · rw [hs] at h
    cases h
  · rw [hs] at h
    rcases hd : (Parse.decls (s.stack.room - 1) s.table ts).result with f | ⟨names', t⟩
    · simp only [hd] at h
      cases h
    · simp only [hd, Except.ok.injEq] at h
      subst h
      obtain ⟨ds, hts, hchain, -, rfl, rfl⟩ := Parse.decls_sound s.table ts hd
      exact ⟨ts, ds, rfl, hts, hchain, rfl, by simp only [hd]⟩

/-! ### What loading a file does -/

theorem loadFile_error {path : String} {r : Report} (h : (s.loadFile path).result = .error r) :
    (s.loadFile path).session = s := by
  unfold loadFile at h ⊢
  dsimp only at h ⊢
  split
  · rfl
  · rename_i hnul
    rw [if_neg hnul] at h
    split
    · rfl
    · rfl
    · rename_i src hread
      rw [hread] at h
      -- the text is loaded one call deeper, and the stack is put back afterwards
      show { ((s.deeper 1).load src _).session with stack := s.stack } = s
      rw [load_error h]
      rfl

/-- A file load that succeeds installs, in order, the declarations the file's text
spells. -/
theorem loadFile_ok {path : String} {names : List String}
    (h : (s.loadFile path).result = .ok names) :
    ∃ src ts ds, s.files.read (s.files.resolve s.roots path) = .text src ∧
      Token.scan src = .ok ts ∧ ts.map Token.lexeme = (ds.map Declaration.tokens).flatten ∧
      Declaration.Chain s.table ds ∧ names = ds.map Declaration.name ∧
      (s.loadFile path).session = { s with table := ds.foldl Declaration.install s.table } := by
  unfold loadFile at h ⊢
  dsimp only at h ⊢
  split
  · rename_i hnul
    rw [if_pos hnul] at h
    cases h
  · rename_i hnul
    rw [if_neg hnul] at h
    split
    · rename_i hread
      rw [hread] at h
      cases h
    · rename_i hread
      rw [hread] at h
      cases h
    · rename_i src hread
      rw [hread] at h
      obtain ⟨ts, ds, hs, hts, hchain, hnames, hsession⟩ := load_ok h
      refine ⟨src, ts, ds, hread, hs, hts, hchain, hnames, ?_⟩
      show { ((s.deeper 1).load src _).session with stack := s.stack } = _
      rw [hsession]
      rfl

/-! ### What an input line does -/

theorem line_of_decl_head {room : Nat} {t : Table} {tok : Token} {more : List Token} {n : String}
    (hn : tok.lexeme = .decl n) :
    Parse.line room t (tok :: more) =
      ((Parse.decls (room - 1) t (tok :: more)).notices,
        (Parse.decls (room - 1) t (tok :: more)).result.map fun r => (.decls r.1, r.2)) := by
  rw [Parse.line.eq_2]
  split
  · rfl
  · rename_i hnot
    exact absurd hn (hnot n)

theorem line_decls {room : Nat} {t t' : Table} {ts : List Token} {names : List String}
    (h : (Parse.line room t ts).2 = .ok (.decls names, t')) :
    (∃ tok more n, ts = tok :: more ∧ tok.lexeme = .decl n) ∧
      (Parse.decls (room - 1) t ts).result = .ok (names, t') := by
  cases ts with
  | nil => simp [Parse.line] at h
  | cons tok more =>
    by_cases hd : ∃ n, tok.lexeme = .decl n
    · obtain ⟨n, hn⟩ := hd
      refine ⟨⟨tok, more, n, rfl, hn⟩, ?_⟩
      rw [line_of_decl_head hn] at h
      rcases hr : (Parse.decls (room - 1) t (tok :: more)).result with f | ⟨names', t''⟩
      · simp [hr, Except.map] at h
      · simp only [hr, Except.map, Except.ok.injEq, Prod.mk.injEq, Parse.Line.decls.injEq] at h
        obtain ⟨rfl, rfl⟩ := h
        rfl
    · obtain ⟨e, he, -⟩ := (Parse.line_eq_ok_iff (fun n hn => hd ⟨n, hn⟩)).mp h
      cases he

/-- An input line leaves the session as it was, unless it is a run of declarations that
reads in full; then the session takes the table that installs them in turn. -/
theorem eval_cases :
    (s.eval source).session = s ∨
      ∃ ts ds, Token.scan source = .ok ts ∧ (∃ tok more n, ts = tok :: more ∧ tok.lexeme = .decl n) ∧
        ts.map Token.lexeme = (ds.map Declaration.tokens).flatten ∧
        Declaration.Chain s.table ds ∧ (s.eval source).result = .ok none ∧
        (s.eval source).session = { s with table := ds.foldl Declaration.install s.table } := by
  unfold eval
  rcases hs : Token.scan source with f | ts
  · exact .inl rfl
  · dsimp only
    rcases hl : Parse.line (s.stack.room - 1) s.table ts with ⟨notices, _ | ⟨line, t⟩⟩
    · exact .inl rfl
    · cases line with
      | empty => exact .inl rfl
      | decls names =>
        obtain ⟨hhead, hd⟩ := line_decls (by rw [hl])
        obtain ⟨ds, hts, hchain, -, -, rfl⟩ := Parse.decls_sound s.table ts hd
        exact .inr ⟨ts, ds, rfl, hhead, hts, hchain, rfl, rfl⟩
      | expr e =>
        left
        simp only
        split <;> rfl

theorem eval_error {r : Report} (h : (s.eval source).result = .error r) :
    (s.eval source).session = s := by
  rcases @eval_cases s source with hsame | ⟨_, _, _, _, _, _, hok, _⟩
  · exact hsame
  · rw [hok] at h
    cases h

theorem eval_not_decls {ts : List Token} (hs : Token.scan source = .ok ts)
    (hts : ∀ tok more, ts = tok :: more → ∀ n, tok.lexeme ≠ .decl n) :
    (s.eval source).session = s := by
  rcases @eval_cases s source with hsame | ⟨ts', _, hs', ⟨tok, more, n, rfl, hn⟩, _⟩
  · exact hsame
  · rw [hs] at hs'
    cases hs'
    exact absurd hn (hts tok more rfl n)

theorem eval_decls_ok {tok : Token} {more : List Token} {n : String} {v : Option Value}
    (hs : Token.scan source = .ok (tok :: more)) (hn : tok.lexeme = .decl n)
    (h : (s.eval source).result = .ok v) :
    ∃ ds, (tok :: more).map Token.lexeme = (ds.map Declaration.tokens).flatten ∧
      Declaration.Chain s.table ds ∧ v = none ∧
      (s.eval source).session = { s with table := ds.foldl Declaration.install s.table } := by
  unfold eval at h ⊢
  rw [hs] at h ⊢
  dsimp only at h ⊢
  rw [line_of_decl_head hn] at h ⊢
  rcases hd : (Parse.decls (s.stack.room - 1 - 1) s.table (tok :: more)).result with f | ⟨names, t⟩
  · simp [hd, Except.map] at h
  · simp only [hd, Except.map, Except.ok.injEq] at h ⊢
    obtain ⟨ds, hts, hchain, -, -, rfl⟩ := Parse.decls_sound s.table (tok :: more) hd
    exact ⟨ds, hts, hchain, h.symm, rfl⟩

/-! ### Main statement -/

/-- Loads and input lines are atomic. A load, a file load or an input line that fails
leaves the session exactly as it was. A load that succeeds returns the names of the
declarations its source spells and installs them in turn, and so does an input line
that starts with a declaration head and succeeds; an empty line or an expression line
never changes the session. Installing declarations keeps the place of every name the
table had and appends new names in order of first declaration. -/
theorem loads_and_lines_atomic (s : Session) (source origin path : String) :
    (∀ r, (s.load source origin).result = .error r → (s.load source origin).session = s) ∧
    (∀ r, (s.loadFile path).result = .error r → (s.loadFile path).session = s) ∧
    (∀ r, (s.eval source).result = .error r → (s.eval source).session = s) ∧
    (∀ names, (s.load source origin).result = .ok names →
      ∃ ts ds, Token.scan source = .ok ts ∧
        ts.map Token.lexeme = (ds.map Declaration.tokens).flatten ∧
        Declaration.Chain s.table ds ∧ names = ds.map Declaration.name ∧
        (s.load source origin).session = { s with table := ds.foldl Declaration.install s.table }) ∧
    (∀ tok more n v, Token.scan source = .ok (tok :: more) → tok.lexeme = .decl n →
      (s.eval source).result = .ok v →
      ∃ ds, (tok :: more).map Token.lexeme = (ds.map Declaration.tokens).flatten ∧
        Declaration.Chain s.table ds ∧ v = none ∧
        (s.eval source).session = { s with table := ds.foldl Declaration.install s.table }) ∧
    (∀ ts, Token.scan source = .ok ts → (∀ tok more, ts = tok :: more → ∀ n, tok.lexeme ≠ .decl n) →
      (s.eval source).session = s) ∧
    (∀ (t : Table) (ds : List Declaration), (ds.foldl Declaration.install t).names =
      t.names ++ ((ds.map Declaration.name).filter fun n => !t.contains n).eraseDups) :=
  ⟨fun _ h => load_error h, fun _ h => loadFile_error h, fun _ h => eval_error h,
    fun _ h => load_ok h, fun _ _ _ _ hs hn h => eval_decls_ok hs hn h,
    fun _ hs hts => eval_not_decls hs hts, fun t ds => Declaration.names_foldl_install ds t⟩

end Session

end Parenless
