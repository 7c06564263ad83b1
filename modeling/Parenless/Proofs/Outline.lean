import Parenless.Proofs.Scoping
import Parenless.Index
import Mathlib.Data.List.Forall2
/-!
The outline of a document.

An index lists a document's declaration heads from a scan of its tokens that never
reads a body: a declaration head followed by names and the arrow. On a document that
parses, that scan finds what the parser found. The tokens of a parsed run split into one
segment per declaration (`segments`); a segment begins with the only declaration head
it holds, because no body prints one (`Expr.tokens_declared?`), so the scan records one
head per declaration, in order (`scanHeads_declaration`). Recording a head in the place
of an earlier one of its name keeps the names in order of first declaration and the
values of the last declaration, and the table the parser builds gives each name the
arity of its last declaration: `ScanInv` carries these along the run.

The note about `main` is a second reading of the rule running `main` applies: the parsed
table has no user function `main` without arguments. Evaluation never fails for want of
`main` (`Expr.eval_ofEval`), so after a load, running `main` reports a missing `main`
exactly when the index notes it.

Main statement: `index_agrees_with_parse`.
-/

namespace Parenless

/-! ### What evaluation fails with -/

/-- What evaluating an expression can fail with: running out of stack, an error a
builtin raises (a condition that is not a boolean among them), or a broken invariant of
the interpreter. -/
def Failure.OfEval : Failure → Prop
  | .tooDeep => True
  | .error e => e.OfBuiltin ∨ e.errorClass = .internal
  | _ => False

namespace Builtin

theorem callWithin_ofEval (room : Nat) (b : Builtin) (vs : List Value) :
    (b.callWithin room vs).FailsOnly Failure.OfEval := by
  unfold callWithin
  split
  · exact Run.failsOnly_fail trivial
  · intro f h
    unfold call at h
    split at h
    · cases h
    · rename_i e he
      cases h
      exact .inl (apply_ofBuiltin he)

end Builtin

namespace Expr

theorem evalAll_ofEval {t : Table} {room : Nat} {frame : List Value}
    (heval : ∀ e : Expr, (e.eval t room frame).FailsOnly Failure.OfEval) :
    ∀ args : List Expr, (evalAll t room frame args).FailsOnly Failure.OfEval := by
  intro args
  induction args with
  | nil =>
    rw [evalAll_nil]
    exact Run.failsOnly_pure _
  | cons a rest ih =>
    rw [evalAll_cons]
    refine (heval a).andThen fun v _ => ih.andThen fun vs _ => ?_
    exact Run.failsOnly_pure _

/-- Evaluation fails only by running out of stack, at an error a builtin raises, or at a
broken invariant of the interpreter; never, in particular, for want of `main`. The
induction is on the room, and the cases are the evaluator's. -/
theorem eval_ofEval (t : Table) :
    ∀ (room : Nat) (frame : List Value) (e : Expr),
      (e.eval t room frame).FailsOnly Failure.OfEval := by
  intro room
  induction room using Nat.strongRecOn with
  | ind room ih =>
  intro frame e
  rw [eval.eq_def]
  split
  · exact Run.failsOnly_fail trivial
  · split
    · exact Run.failsOnly_pure _
    · split
      · exact Run.failsOnly_fail trivial
      · exact Run.failsOnly_fail (Or.inr rfl)
  · exact Run.failsOnly_pure _
  · exact Run.failsOnly_fail trivial
  · rename_i room f args
    have hsub : ∀ e : Expr, (e.eval t room frame).FailsOnly Failure.OfEval :=
      ih room (by omega) frame
    split
    · exact Run.failsOnly_fail (Or.inr rfl)
    · split
      · exact (evalAll_ofEval hsub args).andThen fun vs _ => ih (room + 1) (by omega) vs _
      · refine (evalAll_ofEval hsub args).andThen fun _ _ => ?_
        split
        · exact Run.failsOnly_fail trivial
        · exact Run.failsOnly_fail (Or.inr rfl)
      · split
        · split
          · refine (hsub _).andThen fun v _ => ?_
            split
            · exact hsub _
            · exact hsub _
            · split
              · exact Run.failsOnly_fail trivial
              · exact Run.failsOnly_fail (Or.inl trivial)
          · exact Run.failsOnly_pure _
        · exact (evalAll_ofEval hsub args).andThen fun vs _ => Builtin.callWithin_ofEval _ _ _

end Expr

/-! ### Declaration heads among the tokens -/

namespace Declaration

theorem of_segment {d : Declaration} {tok : Token} {rest : List Token}
    (h : (tok :: rest).map Token.lexeme = d.tokens) :
    tok.lexeme = .decl d.name ∧
      rest.map Token.lexeme = d.params.map .name ++ .arrow :: d.body.tokens d.params ∧
      ∀ u ∈ rest, u.lexeme.declared? = none := by
  simp only [List.map_cons, tokens, List.cons_append, List.cons.injEq] at h
  obtain ⟨htok, hrest⟩ := h
  exact ⟨htok, hrest, fun u hu => d.declared?_tail _ (hrest ▸ List.mem_map_of_mem hu)⟩

end Declaration

namespace Parse

/-- Tokens that spell a run of declarations split into one segment per declaration. -/
theorem segments : ∀ (ds : List Declaration) (ts : List Token),
    ts.map Token.lexeme = (ds.map Declaration.tokens).flatten →
    ∃ segs : List (List Token), ts = segs.flatten ∧
      List.Forall₂ (fun seg d => seg.map Token.lexeme = d.tokens) segs ds
  | [], ts, h => ⟨[], by simpa using h, .nil⟩
  | d :: ds, ts, h => by
    rw [List.map_cons, List.flatten_cons] at h
    obtain ⟨seg, rest, rfl, hseg, hrest⟩ := List.map_eq_append_iff.1 h
    obtain ⟨segs, rfl, hall⟩ := segments ds rest hrest
    exact ⟨seg :: segs, by simp, .cons hseg hall⟩

end Parse

/-! ### Recording heads -/

namespace Index

variable {cs : List Char}

/-- The head the scan records for the declaration `d` whose head token is `tok`. -/
def headerOf (cs : List Char) (tok : Token) (d : Declaration) : Header :=
  ⟨d.name, d.params, (position cs tok.span.start).1, (position cs tok.span.start).2⟩

theorem names_record (hs : List Header) (h : Header) :
    (record hs h).map Header.name =
      if h.name ∈ hs.map Header.name then hs.map Header.name
      else hs.map Header.name ++ [h.name] := by
  unfold record
  by_cases hin : h.name ∈ hs.map Header.name
  · have hany : hs.any (·.name == h.name) = true := by simpa using hin
    rw [if_pos hany, if_pos hin, List.map_map]
    apply List.map_congr_left
    intro g _
    by_cases hg : g.name = h.name <;> simp [hg]
  · have hany : hs.any (·.name == h.name) = false := by simpa using hin
    rw [if_neg (by simp [hany]), if_neg hin, List.map_append]
    rfl

theorem mem_record {hs : List Header} {h g : Header} (hg : g ∈ record hs h) :
    g = h ∨ (g ∈ hs ∧ g.name ≠ h.name) := by
  unfold record at hg
  by_cases hany : hs.any (·.name == h.name) = true
  · rw [if_pos hany] at hg
    obtain ⟨g', hg', rfl⟩ := List.mem_map.1 hg
    by_cases hn : g'.name = h.name
    · exact .inl (by simp [hn])
    · exact .inr ⟨by simpa [hn] using hg', by simp [hn]⟩
  · rw [if_neg hany] at hg
    rcases List.mem_append.1 hg with hg | hg
    · exact .inr ⟨hg, fun hn => hany (List.any_eq_true.2 ⟨g, hg, by simp [hn]⟩)⟩
    · exact .inl (List.mem_singleton.1 hg)

theorem scanHeads_skip (hs : List Header) :
    ∀ {pre : List Token} (more : List Token), (∀ u ∈ pre, u.lexeme.declared? = none) →
      scanHeads cs hs (pre ++ more) = scanHeads cs hs more
  | [], _, _ => rfl
  | u :: pre, more, h => by
    have hu := h u List.mem_cons_self
    rw [List.cons_append, scanHeads]
    cases hl : u.lexeme with
    | decl n => simp [hl, Lexeme.declared?] at hu
    | name n => exact scanHeads_skip hs more fun v hv => h v (List.mem_cons_of_mem u hv)
    | number k => exact scanHeads_skip hs more fun v hv => h v (List.mem_cons_of_mem u hv)
    | text s => exact scanHeads_skip hs more fun v hv => h v (List.mem_cons_of_mem u hv)
    | arrow => exact scanHeads_skip hs more fun v hv => h v (List.mem_cons_of_mem u hv)

/-- The scan reads a declaration's segment as one head, whatever follows it. -/
theorem scanHeads_declaration (hs : List Header) {tok : Token} {rest : List Token}
    {d : Declaration} (hseg : (tok :: rest).map Token.lexeme = d.tokens) (more : List Token) :
    scanHeads cs hs (tok :: rest ++ more) = scanHeads cs (record hs (headerOf cs tok d)) more := by
  obtain ⟨htok, hrest, hnone⟩ := Declaration.of_segment hseg
  obtain ⟨pre, r, rfl, hpre, hr⟩ := List.map_eq_append_iff.1 hrest
  obtain ⟨arrow, body, rfl, harrow, -⟩ := List.map_eq_cons_iff.1 hr
  have hparams : Parse.params (pre ++ arrow :: (body ++ more)) =
      (d.params, arrow :: (body ++ more)) := Parse.params_names_arrow d.params hpre harrow
  rw [List.cons_append, scanHeads, htok]
  simp only [List.append_assoc, List.cons_append, hparams, harrow]
  rw [← List.cons_append, ← List.append_assoc, scanHeads_skip _ more hnone]
  rfl

end Index

/-! ### The scan along a parsed run -/

theorem Table.find?_initial_main : Table.initial.find? "main" = none := rfl

/-- What the scan has found after the declarations read so far, whose tokens are `done`
and which `todo` follows: `names` are their names, `t` is the table they made from `t₀`,
and `hs` are the heads recorded. -/
structure ScanInv (cs : List Char) (t₀ : Table) (done todo : List Token)
    (names : List String) (t : Table) (hs : List Header) : Prop where
  /-- Heads are kept by name, in the order names are first declared. -/
  order : hs.map Header.name = names.eraseDups
  /-- Each head is read from the last declaration of its name: a head token of the name
  that no later token declares again, followed by the head's parameters and the arrow,
  at the head's position. -/
  last : ∀ h ∈ hs, ∃ pre tok mid more, done = pre ++ tok :: mid ∧
    tok.lexeme = .decl h.name ∧ (∀ u ∈ mid, u.lexeme ≠ .decl h.name) ∧
    (mid ++ todo).map Token.lexeme = h.params.map .name ++ .arrow :: more ∧
    (h.line, h.col) = position cs tok.span.start
  /-- The table gives each head's name a user function of the head's arity. -/
  table : ∀ h ∈ hs, ∃ body, t.find? h.name = some ⟨h.arity, .user body⟩
  /-- A name not declared yet keeps its function. -/
  untouched : ∀ n, n ∉ names → t.find? n = t₀.find? n

namespace ScanInv

variable {cs : List Char} {t₀ t : Table} {done todo : List Token} {names : List String}
  {hs : List Header}

theorem start (cs : List Char) (t₀ : Table) (ts : List Token) :
    ScanInv cs t₀ [] ts [] t₀ [] where
  order := rfl
  last := by simp
  table := by simp
  untouched := fun _ _ => rfl

/-- Reading one more declaration, whose segment is `tok :: rest`, keeps the invariant. -/
theorem step {tok : Token} {rest more : List Token} {d : Declaration}
    (hinv : ScanInv cs t₀ done (tok :: rest ++ more) names t hs)
    (hseg : (tok :: rest).map Token.lexeme = d.tokens) :
    ScanInv cs t₀ (done ++ tok :: rest) more (names ++ [d.name]) (Declaration.install t d)
      (Index.record hs (Index.headerOf cs tok d)) := by
  obtain ⟨htok, hrest, hheads⟩ := Declaration.of_segment hseg
  have hnone : ∀ u ∈ rest, ∀ n, u.lexeme ≠ .decl n := by
    intro u hu n hn
    have := hheads u hu
    rw [hn] at this
    cases this
  refine ⟨?_, ?_, ?_, ?_⟩
  · rw [Index.names_record, List.eraseDups_append, ← hinv.order]
    have hiff : d.name ∈ hs.map Header.name ↔ d.name ∈ names := by
      rw [hinv.order, List.mem_eraseDups]
    by_cases hmem : d.name ∈ names
    · simp [Index.headerOf, hiff.2 hmem, hmem, List.removeAll]
    · simp [Index.headerOf, mt hiff.1 hmem, hmem, List.removeAll, List.eraseDups_cons]
  · intro g hg
    rcases Index.mem_record hg with rfl | ⟨hg, hne⟩
    · refine ⟨done, tok, rest, d.body.tokens d.params ++ more.map Token.lexeme, rfl, htok,
        fun u hu => hnone u hu _, ?_, rfl⟩
      simp [Index.headerOf, hrest]
    · obtain ⟨pre, tok', mid, m, hdone, htok', hmid, hm, hpos⟩ := hinv.last g hg
      refine ⟨pre, tok', mid ++ tok :: rest, m, by simp [hdone], htok', ?_, by simpa using hm,
        hpos⟩
      intro u hu
      rcases List.mem_append.1 hu with hu | hu
      · exact hmid u hu
      · rcases List.mem_cons.1 hu with rfl | hu
        · rw [htok]
          exact fun h => hne (Lexeme.decl.inj h).symm
        · exact hnone u hu _
  · intro g hg
    rcases Index.mem_record hg with rfl | ⟨hg, hne⟩
    · exact ⟨d.body, by simp [Declaration.install, Table.find?_declare, Declaration.fn,
        Index.headerOf, Header.arity]⟩
    · obtain ⟨body, hbody⟩ := hinv.table g hg
      exact ⟨body, by
        rw [Declaration.install, Table.find?_declare, if_neg (show g.name ≠ d.name from hne), hbody]⟩
  · intro n hn
    simp only [List.mem_append, List.mem_singleton, not_or] at hn
    rw [Declaration.install, Table.find?_declare, if_neg hn.2, hinv.untouched n hn.1]

theorem run {segs : List (List Token)} {ds : List Declaration}
    (hsegs : List.Forall₂ (fun seg d => seg.map Token.lexeme = d.tokens) segs ds) :
    ∀ {done : List Token} {names : List String} {t : Table} {hs : List Header},
      ScanInv cs t₀ done segs.flatten names t hs →
      ScanInv cs t₀ (done ++ segs.flatten) [] (names ++ ds.map Declaration.name)
        (ds.foldl Declaration.install t) (Index.scanHeads cs hs segs.flatten) := by
  induction hsegs with
  | nil =>
    intro done names t hs hinv
    simpa [Index.scanHeads] using hinv
  | @cons seg d segs ds hseg _ ih =>
    intro done names t hs hinv
    cases seg with
    | nil => simp [Declaration.tokens] at hseg
    | cons tok rest =>
      rw [List.flatten_cons] at hinv ⊢
      rw [Index.scanHeads_declaration hs hseg]
      simpa [List.append_assoc] using ih (hinv.step hseg)

theorem mainBody?_eq_none_iff (hinv : ScanInv cs Table.initial done todo names t hs) :
    Session.mainBody? t = none ↔ ∀ m, hs.find? (·.name == "main") = some m → m.arity ≠ 0 := by
  unfold Session.mainBody?
  rcases hfind : hs.find? (·.name == "main") with _ | m
  · have hno : "main" ∉ names := by
      intro hin
      obtain ⟨m, hm, hname⟩ := List.mem_map.1 (hinv.order ▸ List.mem_eraseDups.2 hin)
      have := List.find?_eq_none.1 hfind m hm
      simp [hname] at this
    rw [hinv.untouched _ hno, Table.find?_initial_main]
    simp [hfind]
  · have hm := List.mem_of_find?_eq_some hfind
    have hname : m.name = "main" := by simpa using List.find?_some hfind
    obtain ⟨body, hb⟩ := hinv.table m hm
    rw [hname] at hb
    rw [hb]
    cases har : m.arity <;> simp [hfind, har]

end ScanInv

/-! ### The index and the session -/

namespace Parse

theorem decls_of_le {room room' : Nat} {t : Table} {ts : List Token} {r : List String × Table}
    (h : (decls room t ts).result = .ok r) (hle : room ≤ room') :
    (decls room' t ts).result = .ok r := by
  obtain ⟨names, t'⟩ := r
  obtain ⟨ds, hts, hchain, hroom, rfl, rfl⟩ := decls_sound t ts h
  exact decls_complete ds t ts hts hchain fun d hd => Nat.le_trans (hroom d hd) hle

end Parse

namespace Index

theorem build_of_parsed {room : Nat} {text : String} {ts : List Token}
    {r : List String × Table} (hs : Token.scan text = .ok ts)
    (hp : (Parse.decls room Table.initial ts).result = .ok r) :
    ∃ notes, build room text = .ok ⟨scanHeads text.toList [] ts, notes⟩ ∧
      (notes = [] ↔ ∃ m, (scanHeads text.toList [] ts).find? (·.name == "main") = some m ∧
        m.arity = 0) ∧
      ∀ n ∈ notes, n.message = Error.noMain.message ∧ n.severity = .information := by
  unfold build
  rw [hs]
  simp only [hp]
  rcases hfind : (scanHeads text.toList [] ts).find? (·.name == "main") with _ | m
  · exact ⟨[⟨"no main function found", (0, 0), (0, 0), .information⟩], by simp [hfind],
      by simp [hfind], fun n hn => by rw [List.mem_singleton.1 hn]; exact ⟨rfl, rfl⟩⟩
  · by_cases har : m.arity = 0
    · exact ⟨[], by simp [hfind, har], by simp [hfind, har], by simp⟩
    · exact ⟨[⟨"no main function found", (m.line, m.col), (m.line, m.col), .information⟩],
        by simp [hfind, har], by simp [hfind, har],
        fun n hn => by rw [List.mem_singleton.1 hn]; exact ⟨rfl, rfl⟩⟩

end Index

namespace Session

theorem load_of_decls {s : Session} {text : String} {ts : List Token} {names : List String}
    {t' : Table} (hs : Token.scan text = .ok ts)
    (hp : (Parse.decls (s.stack.room - 1) s.table ts).result = .ok (names, t')) :
    (s.load text).result = .ok names ∧ (s.load text).session = { s with table := t' } := by
  unfold load
  rw [hs]
  simp [hp]

theorem runMain_noMain_iff (s : Session) :
    (∃ r, s.runMain.result = .error r ∧ r.failure = .error .noMain) ↔
      mainBody? s.table = none := by
  unfold runMain
  rcases hb : mainBody? s.table with _ | body
  · simp
  · simp only [reduceCtorEq, iff_false, not_exists, not_and]
    intro r hr hf
    rcases he : (body.eval s.table s.stack.room []).result with f | v
    · rw [he] at hr
      cases hr
      subst hf
      have := Expr.eval_ofEval s.table _ [] body _ he
      simp [Failure.OfEval, Error.OfBuiltin, Error.errorClass] at this
    · rw [he] at hr
      cases hr

end Session

/-! ### Main statement -/

/-- On a document that reads and whose declarations parse against the fresh table, the
index agrees with the parser. Its heads are the declared names, in order of first
declaration (the declaration heads among the tokens being exactly the declarations
read). Each head is read from the last declaration of its name: the last head token of
the name, followed by the head's parameters and the arrow, at the head's position; and
the table gives the name a user function of the head's arity. The index notes nothing
but a missing `main`, and notes it exactly when, in a fresh session with at least the
room the index read with, loading the document and running `main` reports a missing
`main`. -/
theorem index_agrees_with_parse {room : Nat} {text : String} {ts : List Token}
    {names : List String} {t' : Table} (hs : Token.scan text = .ok ts)
    (hp : (Parse.decls room Table.initial ts).result = .ok (names, t')) :
    ∃ idx, Index.build room text = .ok idx ∧
      (ts.map Token.lexeme).filterMap Lexeme.declared? = names ∧
      idx.headers.map Header.name = names.eraseDups ∧
      (∀ h ∈ idx.headers,
        (∃ pre tok post more, ts = pre ++ tok :: post ∧ tok.lexeme = .decl h.name ∧
          (∀ u ∈ post, u.lexeme ≠ .decl h.name) ∧
          post.map Token.lexeme = h.params.map .name ++ .arrow :: more ∧
          (h.line, h.col) = position text.toList tok.span.start) ∧
        ∃ body, t'.find? h.name = some ⟨h.arity, .user body⟩) ∧
      (∀ n ∈ idx.notes, n.message = Error.noMain.message ∧ n.severity = .information) ∧
      ∀ s : Session, s.table = Table.initial → room ≤ s.stack.room - 1 →
        (s.load text).result = .ok names ∧
        (idx.notes ≠ [] ↔
          ∃ r, (s.load text).session.runMain.result = .error r ∧ r.failure = .error .noMain) := by
  obtain ⟨notes, hbuild, hnotes, hmsg⟩ := Index.build_of_parsed hs hp
  -- the parse is a run of declarations, whose tokens split into one segment each
  obtain ⟨ds, hts, -, -, rfl, rfl⟩ := Parse.decls_sound Table.initial ts hp
  obtain ⟨segs, rfl, hsegs⟩ := Parse.segments ds _ hts
  have hinv := ScanInv.run hsegs (ScanInv.start text.toList Table.initial segs.flatten)
  rw [List.nil_append, List.nil_append] at hinv
  refine ⟨_, hbuild, by rw [hts]; exact Declaration.filterMap_declared? ds, hinv.order, ?_, hmsg, ?_⟩
  · intro h hh
    obtain ⟨pre, tok, mid, more, hdone, htok, hmid, hm, hpos⟩ := hinv.last h hh
    exact ⟨⟨pre, tok, mid, more, hdone, htok, hmid, by simpa using hm, hpos⟩, hinv.table h hh⟩
  · intro s htable hle
    have hp' : (Parse.decls (s.stack.room - 1) s.table segs.flatten).result =
        .ok (ds.map Declaration.name, ds.foldl Declaration.install Table.initial) := by
      rw [htable]
      exact Parse.decls_of_le hp hle
    obtain ⟨hload, hsession⟩ := Session.load_of_decls hs hp'
    refine ⟨hload, ?_⟩
    rw [hsession, Session.runMain_noMain_iff]
    show notes ≠ [] ↔ Session.mainBody? (ds.foldl Declaration.install Table.initial) = none
    rw [hinv.mainBody?_eq_none_iff, Ne, hnotes]
    simp

/-- A document that declares `f` twice, with `main` between: the index keeps `f` first
and `main` second. -/
theorem index_agrees_with_parse_sample :
    ∃ ts t', Token.scan "\\f x -> x \\main -> f 1 \\f -> 2" = .ok ts ∧
      (Parse.decls 100 Table.initial ts).result = .ok (["f", "main", "f"], t') ∧
      ∃ idx, Index.build 100 "\\f x -> x \\main -> f 1 \\f -> 2" = .ok idx ∧
        idx.headers.map Header.name = ["f", "main"] := by
  have hchain : Declaration.Chain Table.initial
      [⟨"f", ["x"], .arg 0⟩, ⟨"main", [], .app "f" [.lit (.num 1)]⟩, ⟨"f", [], .lit (.num 2)⟩] :=
    .cons (.arg (show ["x"].idxOf? "x" = some 0 from rfl))
      (.cons (.app List.not_mem_nil rfl rfl (by simpa using Expr.WellFormed.num 1))
        (.cons (.num 2) (.nil _)))
  obtain ⟨ts, hs, hts⟩ : ∃ ts, Token.scan "\\f x -> x \\main -> f 1 \\f -> 2" = .ok ts ∧
      ts.map Token.lexeme = (([⟨"f", ["x"], .arg 0⟩, ⟨"main", [], .app "f" [.lit (.num 1)]⟩,
        ⟨"f", [], .lit (.num 2)⟩] : List Declaration).map Declaration.tokens).flatten :=
    ⟨_, by
      simp [Token.scan, Lexer.scanFrom, Lexer.word, Text.isBlank, Text.inRanges,
        Text.blankRanges, Text.isDigitLike, Text.digitRanges, Lexer.isNumeral, Lexer.digitLimit,
        maxNumber, Lexer.numeralValue]
      rfl, rfl⟩
  have hp := @Parse.decls_complete 100 _ Table.initial ts hts hchain (by decide)
  obtain ⟨idx, hb, -, hnames, -⟩ := index_agrees_with_parse hs hp
  exact ⟨_, _, hs, hp, idx, hb, by rw [hnames]; rfl⟩

end Parenless
