import Parenless.Proofs.Failures
/-!
What a shell run does to the session.

The shell acts on its lines in turn until one of them stops it (`:quit`, `:exit` or
`:EOF`) or the input runs out. What one step leaves is said once, by `Session.commit`:
an input line or a file load that succeeds keeps the session it made, and everything
else keeps the session as it was: a line whose failure is printed as a diagnostic, a
call nested too deep among them, an expression line and every other command. Loads and
input lines being atomic, a committed session differs from the one before only by the
declarations that an accepted line or a successful load installs, in order
(`Session.commit_cases`).

A step fails, and the run with it, only on a failure the language does not report
(`Session.Escapes`): an input line holding an over-long numeral, or a load whose name
resolves to a path holding NUL or to a file holding an over-long numeral. The step
lemmas (`Shell.step_ok`, `Shell.step_error_iff`) are lifted to runs by induction on the
lines: a run acts on the processed lines, those up to and including the first that
stops the shell, gets through exactly when none of them escapes at the session it meets,
and ends with the fold of `commit` over them (`Shell.loop_commits_successes`).
-/

namespace Parenless

namespace Entry

/-- Whether an entry stops the shell: `:quit` and `:exit`, and `:EOF`. -/
def stops : Entry → Bool
  | .command .quit | .command .endOfInput => true
  | _ => false

theorem trim_of_unblank {line : String} (h : ∀ c ∈ line.toList, Text.isBlank c = false) :
    Text.trim line = line := by
  have hdrop : ∀ cs : List Char, (∀ c ∈ cs, Text.isBlank c = false) → cs.dropWhile Text.isBlank = cs := by
    intro cs hcs
    cases cs with
    | nil => rfl
    | cons c rest => exact List.dropWhile_cons_of_neg (by simp [hcs c List.mem_cons_self])
  have hrev : ∀ c ∈ line.toList.reverse, Text.isBlank c = false := fun c hc => h c (List.mem_reverse.mp hc)
  rw [Text.trim, Text.trimBlanks, hdrop _ h, hdrop _ hrev, List.reverse_reverse, String.ofList_toList]

theorem ofLine_of_unblank {line : String} {c : Char} {more : List Char} (hline : line.toList = c :: more)
    (hc : c ≠ ':') (h : ∀ d ∈ line.toList, Text.isBlank d = false) : ofLine line = .source line := by
  unfold ofLine
  dsimp only
  rw [trim_of_unblank h, hline]
  split
  · rename_i hnil
    cases hnil
  · rename_i rest hcolon
    cases hcolon
    exact absurd rfl hc
  · rfl

end Entry

namespace Session

/-- The session after an entry that does not escape. An input line or a file load that
succeeds keeps the session it made; anything else, every failure included, leaves the
session as it was. -/
def commit (s : Session) : Entry → Session
  | .source text =>
    match (s.eval text).result with
    | .ok _ => (s.eval text).session
    | .error _ => s
  | .command (.load arg) =>
    if arg.isEmpty then s
    else match (s.loadFile arg).result with
      | .ok _ => (s.loadFile arg).session
      | .error _ => s
  | _ => s

/-- An entry meets a failure the language does not report: an input line holding an
over-long numeral, or a load of a name that escapes. -/
def Escapes (s : Session) : Entry → Prop
  | .source text => ∃ n, Token.scan text = .error (.tooManyDigits n)
  | .command (.load arg) => arg ≠ "" ∧ s.LoadEscapes arg
  | _ => False

/-- The declarations an entry installs when it succeeds: those an accepted declaration
line spells, or those of the file a load reads in full. -/
def Installs (s : Session) : Entry → List Declaration → Prop
  | .source text, ds => ∃ ts, Token.scan text = .ok ts ∧
      (∃ tok more n, ts = tok :: more ∧ tok.lexeme = .decl n) ∧
      ts.map Token.lexeme = (ds.map Declaration.tokens).flatten ∧
      Declaration.Chain s.table ds ∧ (s.eval text).result = .ok none
  | .command (.load path), ds => path ≠ "" ∧ ∃ src ts,
      s.files.read (s.files.resolve s.roots path) = .text src ∧ Token.scan src = .ok ts ∧
      ts.map Token.lexeme = (ds.map Declaration.tokens).flatten ∧
      Declaration.Chain s.table ds ∧ (s.loadFile path).result = .ok (ds.map Declaration.name)
  | _, _ => False

variable {s : Session}

theorem commit_source_ok {text : String} {v : Option Value} (h : (s.eval text).result = .ok v) :
    s.commit (.source text) = (s.eval text).session := by
  rw [commit, h]

theorem commit_source_error {text : String} {r : Report} (h : (s.eval text).result = .error r) :
    s.commit (.source text) = s := by
  rw [commit, h]

theorem commit_load_ok {arg : String} {names : List String} (harg : arg.isEmpty = false)
    (h : (s.loadFile arg).result = .ok names) :
    s.commit (.command (.load arg)) = (s.loadFile arg).session := by
  rw [commit, if_neg (by rw [harg]; exact Bool.false_ne_true), h]

theorem commit_load_error {arg : String} {r : Report} (h : (s.loadFile arg).result = .error r) :
    s.commit (.command (.load arg)) = s := by
  rw [commit, h]
  split <;> rfl

/-- A committed session is the session as it was, or the session with the declarations
of an accepted declaration line, or of a file that loaded, installed in turn. -/
theorem commit_cases (s : Session) (e : Entry) :
    s.commit e = s ∨
      ∃ ds, s.Installs e ds ∧ s.commit e = { s with table := ds.foldl Declaration.install s.table } := by
  cases e with
  | source text =>
    rcases @eval_cases s text with hsame | ⟨ts, ds, hs, hhead, hts, hchain, hok, hsession⟩
    · left
      rcases hr : (s.eval text).result with r | v
      · exact commit_source_error hr
      · rw [commit_source_ok hr, hsame]
    · right
      exact ⟨ds, ⟨ts, hs, hhead, hts, hchain, hok⟩, by rw [commit_source_ok hok, hsession]⟩
  | command c =>
    cases c with
    | load path =>
      rcases hr : (s.loadFile path).result with r | names
      · exact .inl (commit_load_error hr)
      · by_cases hempty : path.isEmpty = true
        · left
          rw [commit, if_pos hempty]
        · obtain ⟨src, ts, ds, hread, hs, hts, hchain, rfl, hsession⟩ := loadFile_ok hr
          have hne : path ≠ "" := fun h => hempty (String.isEmpty_iff.mpr h)
          right
          refine ⟨ds, ⟨hne, src, ts, hread, hs, hts, hchain, hr⟩, ?_⟩
          rw [commit_load_ok (Bool.eq_false_iff.mpr hempty) hr, hsession]
    | _ => exact .inl rfl
  | blank => exact .inl rfl

end Session

namespace Shell

variable {s s' : Session} {e : Entry}

/-! ### One step -/

/-- A step that gets through leaves the committed session, and stops exactly on an
entry that stops the shell. -/
theorem step_ok {t : Transcript} {stop : Bool} (h : step s e = .ok (s', t, stop)) :
    s' = s.commit e ∧ stop = e.stops := by
  cases e with
  | source text =>
    unfold step at h
    dsimp only at h
    split at h
    · rename_i v hv
      cases h
      exact ⟨(Session.commit_source_ok hv).symm, rfl⟩
    · rename_i hv
      cases h
      exact ⟨(Session.commit_source_ok hv).symm, rfl⟩
    · rename_i r hr
      split at h
      · cases h
      · cases h
        exact ⟨(Session.eval_error hr).trans (Session.commit_source_error hr).symm, rfl⟩
  | command c =>
    cases c with
    | load arg =>
      dsimp only [step] at h
      split at h
      · rename_i hempty
        cases h
        exact ⟨by rw [Session.commit, if_pos hempty], rfl⟩
      · rename_i hempty
        split at h
        · rename_i names hr
          cases h
          exact ⟨(Session.commit_load_ok (Bool.eq_false_iff.mpr hempty) hr).symm, rfl⟩
        · rename_i r hr
          split at h
          · cases h
          · cases h
            exact ⟨(Session.loadFile_error hr).trans (Session.commit_load_error hr).symm, rfl⟩
    | functions | help | quit | endOfInput | unknown _ =>
      simp only [step, Except.ok.injEq, Prod.mk.injEq] at h
      obtain ⟨rfl, -, rfl⟩ := h
      exact ⟨rfl, rfl⟩
  | blank =>
    simp only [step, Except.ok.injEq, Prod.mk.injEq] at h
    obtain ⟨rfl, -, rfl⟩ := h
    exact ⟨rfl, rfl⟩

theorem exists_error_ite {r : Report} {x : Session × Transcript × Bool} :
    (∃ f, (if escapes r.failure then .error r.failure else .ok x) = Except.error f) ↔
      escapes r.failure = true := by
  by_cases hesc : escapes r.failure = true
  · rw [if_pos hesc]
    exact ⟨fun _ => hesc, fun _ => ⟨_, rfl⟩⟩
  · rw [if_neg hesc]
    exact ⟨fun ⟨_, h⟩ => (by cases h), fun h => absurd h hesc⟩

theorem step_source_error_iff {text : String} :
    (∃ f, step s (.source text) = .error f) ↔
      ∃ r, (s.eval text).result = .error r ∧ escapes r.failure = true := by
  unfold step
  dsimp only
  rcases hr : (s.eval text).result with r | (_ | v)
  · dsimp only
    rw [exists_error_ite]
    simp
  · simp
  · simp

theorem step_load_error_iff {arg : String} :
    (∃ f, step s (.command (.load arg)) = .error f) ↔
      arg ≠ "" ∧ ∃ r, (s.loadFile arg).result = .error r ∧ escapes r.failure = true := by
  dsimp only [step]
  by_cases hempty : arg.isEmpty = true
  · rw [if_pos hempty]
    simp [String.isEmpty_iff.mp hempty]
  · rw [if_neg hempty]
    have hne : arg ≠ "" := fun h => hempty (String.isEmpty_iff.mpr h)
    rcases hr : (s.loadFile arg).result with r | names
    · dsimp only
      rw [exists_error_ite]
      simp [hne]
    · simp

/-- A step fails exactly on an entry that escapes. -/
theorem step_error_iff : (∃ f, step s e = .error f) ↔ s.Escapes e := by
  have hunrep : ∀ f : Failure, escapes f = true ↔ ¬ f.Reported := fun f => by
    rw [← escapes_eq_false_iff, Bool.not_eq_false]
  cases e with
  | source text =>
    rw [step_source_error_iff, Session.Escapes, ← Session.eval_escapes_iff (s := s)]
    simp only [hunrep]
  | command c =>
    cases c with
    | load arg =>
      rw [step_load_error_iff, Session.Escapes, ← Session.loadFile_escapes_iff (s := s)]
      simp only [hunrep]
    | functions | help | quit | endOfInput | unknown _ =>
      simp [step, Session.Escapes]
  | blank => simp [step, Session.Escapes]

theorem not_escapes_of_step_ok {t : Transcript} {stop : Bool} (h : step s e = .ok (s', t, stop)) :
    ¬ s.Escapes e := by
  intro hesc
  obtain ⟨f, hf⟩ := step_error_iff.mpr hesc
  rw [h] at hf
  cases hf

theorem step_source_of_overlong {text : String} {n : Nat}
    (h : Token.scan text = .error (.tooManyDigits n)) :
    step s (.source text) = .error (.tooManyDigits n) := by
  unfold step
  dsimp only
  rw [(Session.eval_of_overlong h).1]
  rfl

/-! ### Runs -/

/-- The lines a run acts on: those up to and including the first that stops the shell. -/
def processed : List String → List String
  | [] => []
  | line :: rest => if (Entry.ofLine line).stops then [line] else line :: processed rest

/-- No line a run acts on escapes at the session it meets. -/
def Clean : Session → List String → Prop
  | _, [] => True
  | s, line :: rest => ¬ s.Escapes (Entry.ofLine line) ∧ Clean (s.commit (Entry.ofLine line)) rest

theorem processed_cases (lines : List String) :
    ((∀ line ∈ lines, (Entry.ofLine line).stops = false) ∧ processed lines = lines) ∨
      ∃ pre q post, lines = pre ++ q :: post ∧ (∀ line ∈ pre, (Entry.ofLine line).stops = false) ∧
        (Entry.ofLine q).stops = true ∧ processed lines = pre ++ [q] := by
  induction lines with
  | nil => exact .inl ⟨fun _ h => absurd h List.not_mem_nil, rfl⟩
  | cons line rest ih =>
    by_cases hstop : (Entry.ofLine line).stops = true
    · refine .inr ⟨[], line, rest, rfl, fun _ h => absurd h List.not_mem_nil, hstop, ?_⟩
      rw [processed, if_pos hstop, List.nil_append]
    · have hgo : (Entry.ofLine line).stops = false := Bool.eq_false_iff.mpr hstop
      rcases ih with ⟨hall, hp⟩ | ⟨pre, q, post, rfl, hpre, hq, hp⟩
      · refine .inl ⟨List.forall_mem_cons.mpr ⟨hgo, hall⟩, ?_⟩
        rw [processed, if_neg hstop, hp]
      · refine .inr ⟨line :: pre, q, post, rfl, List.forall_mem_cons.mpr ⟨hgo, hpre⟩, hq, ?_⟩
        rw [processed, if_neg hstop, hp, List.cons_append]

variable {acc : Transcript} {line : String} {rest : List String}

-- The run lemmas name the entry a line reads as (`he : Entry.ofLine line = e`) and work
-- with that name: unfolding the reading of a line while unifying is costly.

theorem processed_cons (he : Entry.ofLine line = e) :
    processed (line :: rest) = if e.stops then [line] else line :: processed rest := by
  rw [processed, he]

theorem clean_cons (he : Entry.ofLine line = e) :
    Clean s (line :: rest) ↔ ¬ s.Escapes e ∧ Clean (s.commit e) rest := by
  subst he
  exact Iff.rfl

theorem loop_nil : loop s acc [] = .ok (s, { acc with out := acc.out ++ prompt ++ "\n" }) := rfl

theorem loop_cons_error {f : Failure} (he : Entry.ofLine line = e) (h : step s e = .error f) :
    loop s acc (line :: rest) = .error f := by
  rw [loop.eq_def]
  dsimp only
  rw [he, h]

theorem loop_cons_ok {t : Transcript} {stop : Bool} (he : Entry.ofLine line = e)
    (h : step s e = .ok (s', t, stop)) :
    loop s acc (line :: rest) =
      if stop then .ok (s', { out := acc.out ++ prompt ++ t.out, err := acc.err ++ t.err })
      else loop s' { out := acc.out ++ prompt ++ t.out, err := acc.err ++ t.err } rest := by
  rw [loop.eq_def]
  dsimp only
  rw [he, h]

theorem loop_processed (acc : Transcript) (lines : List String) :
    loop s acc (processed lines) = loop s acc lines := by
  induction lines generalizing s acc with
  | nil => rfl
  | cons line rest ih =>
    obtain ⟨e, he⟩ : ∃ e, Entry.ofLine line = e := ⟨_, rfl⟩
    rw [processed_cons he]
    cases hstep : step s e with
    | error f =>
      -- the run ends at this line whatever follows it
      split <;> rw [loop_cons_error he hstep, loop_cons_error he hstep]
    | ok r =>
      obtain ⟨s₁, t, stop⟩ := r
      obtain ⟨-, rfl⟩ := step_ok hstep
      by_cases hstop : e.stops = true
      · rw [if_pos hstop, loop_cons_ok he hstep, loop_cons_ok he hstep, if_pos hstop, if_pos hstop]
      · rw [if_neg hstop, loop_cons_ok he hstep, loop_cons_ok he hstep, if_neg hstop, if_neg hstop, ih]

/-- A run gets through exactly when no line it acts on escapes. -/
theorem loop_ok_iff (acc : Transcript) (lines : List String) :
    (∃ r, loop s acc lines = .ok r) ↔ Clean s (processed lines) := by
  induction lines generalizing s acc with
  | nil => exact ⟨fun _ => trivial, fun _ => ⟨_, loop_nil⟩⟩
  | cons line rest ih =>
    obtain ⟨e, he⟩ : ∃ e, Entry.ofLine line = e := ⟨_, rfl⟩
    rw [processed_cons he]
    cases hstep : step s e with
    | error f =>
      have hesc := step_error_iff.mp ⟨f, hstep⟩
      rw [loop_cons_error he hstep]
      split <;> exact ⟨fun ⟨_, h⟩ => (by cases h), fun h => absurd hesc ((clean_cons he).mp h).1⟩
    | ok r =>
      obtain ⟨s₁, t, stop⟩ := r
      have hesc := not_escapes_of_step_ok hstep
      obtain ⟨rfl, rfl⟩ := step_ok hstep
      rw [loop_cons_ok he hstep]
      by_cases hstop : e.stops = true
      · rw [if_pos hstop, if_pos hstop, clean_cons he]
        exact ⟨fun _ => ⟨hesc, trivial⟩, fun _ => ⟨_, rfl⟩⟩
      · rw [if_neg hstop, if_neg hstop, ih, clean_cons he]
        exact ⟨fun h => ⟨hesc, h⟩, fun h => h.2⟩

/-- A run that gets through ends with the fold of `commit` over the lines it acts on. -/
theorem loop_session {t : Transcript} (lines : List String) (h : loop s acc lines = .ok (s', t)) :
    s' = (processed lines).foldl (fun s line => s.commit (Entry.ofLine line)) s := by
  induction lines generalizing s acc with
  | nil =>
    rw [loop_nil] at h
    exact (Prod.mk.inj (Except.ok.inj h)).1.symm
  | cons line rest ih =>
    obtain ⟨e, he⟩ : ∃ e, Entry.ofLine line = e := ⟨_, rfl⟩
    rw [processed_cons he]
    cases hstep : step s e with
    | error f =>
      rw [loop_cons_error he hstep] at h
      cases h
    | ok r =>
      obtain ⟨s₁, t₁, stop⟩ := r
      obtain ⟨rfl, rfl⟩ := step_ok hstep
      rw [loop_cons_ok he hstep] at h
      by_cases hstop : e.stops = true
      · rw [if_pos hstop] at h ⊢
        simp only [List.foldl_cons, List.foldl_nil, he]
        exact (Prod.mk.inj (Except.ok.inj h)).1.symm
      · rw [if_neg hstop] at h ⊢
        simp only [List.foldl_cons, he]
        exact ih h

/-! ### Main statement -/

/-- Failed shell lines leave no trace. A run acts on the processed lines: all of them
when none stops the shell, and otherwise those up to and including the first `:quit`,
`:exit` or `:EOF`, so that what follows is never read. It gets through exactly when none
of these lines escapes at the session it meets, and then its session is the fold of
`commit` over them. A committed session is the one before, unless the line is a
declaration line that was accepted or a load that succeeded, and then it is the one
before with their declarations installed in turn: a line whose failure is printed, an
expression line and every other command leave the session as it was. -/
theorem loop_commits_successes (s : Session) (acc : Transcript) (lines : List String) :
    loop s acc lines = loop s acc (processed lines) ∧
    (((∀ line ∈ lines, (Entry.ofLine line).stops = false) ∧ processed lines = lines) ∨
      ∃ pre q post, lines = pre ++ q :: post ∧ (∀ line ∈ pre, (Entry.ofLine line).stops = false) ∧
        (Entry.ofLine q).stops = true ∧ processed lines = pre ++ [q]) ∧
    ((∃ r, loop s acc lines = .ok r) ↔ Clean s (processed lines)) ∧
    (∀ s' t, loop s acc lines = .ok (s', t) →
      s' = (processed lines).foldl (fun s line => s.commit (Entry.ofLine line)) s) ∧
    (∀ (s : Session) (e : Entry), s.commit e = s ∨
      ∃ ds, s.Installs e ds ∧ s.commit e = { s with table := ds.foldl Declaration.install s.table }) :=
  ⟨(loop_processed acc lines).symm, processed_cases lines, loop_ok_iff acc lines,
    fun _ _ h => loop_session lines h, Session.commit_cases⟩

/-- A line that is one numeral of 4301 digits ends the run with the reader's digit-limit
failure, so the line after it is never acted on. -/
theorem overlong_line_ends_run :
    loop {} {} [String.ofList (List.replicate 4301 '1'), "2"] = .error (.tooManyDigits 4301) := by
  have hscan : Token.scan (String.ofList (List.replicate 4301 '1')) = .error (.tooManyDigits 4301) :=
    Lexer.scan_replicate_digit rfl (by decide)
  have hchars : (String.ofList (List.replicate 4301 '1')).toList = '1' :: List.replicate 4300 '1' := by
    rw [String.toList_ofList, List.replicate_succ]
  have hline : Entry.ofLine (String.ofList (List.replicate 4301 '1')) =
      .source (String.ofList (List.replicate 4301 '1')) := by
    refine Entry.ofLine_of_unblank hchars (by decide) fun d hd => ?_
    rw [String.toList_ofList] at hd
    rw [List.eq_of_mem_replicate hd]
    exact Lexer.isBlank_of_isDigit rfl
  exact loop_cons_error hline (step_source_of_overlong hscan)

end Shell

end Parenless
