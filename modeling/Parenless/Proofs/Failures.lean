import Parenless.Proofs.Outline
import Parenless.Proofs.ReadingErrors
import Parenless.Shell
import Parenless.Index
import Mathlib.Tactic.SplitIfs
/-!
Failures that escape.

Reading, parsing and evaluating report what goes wrong as errors of the language, or
stop for want of stack room; the shell and the indexer show both and go on
(`Failure.Reported`). Two failures come from outside the language and escape every
caller: a numeral with more digits than the decimal reader accepts, which the reader
meets before it can check the numeral's range, and a file name holding the NUL
character.

The reader fails only so, or at an over-long numeral (`Lexer.scan_failure`); the
parser and the evaluator fail only so (`Parse.decls_failure`, `Expr.eval_reported`).
So an input line fails with a failure that escapes exactly when its text holds an
over-long numeral (`Session.eval_escapes_iff`); a file load exactly when the name
resolves to a path holding NUL or the file's text holds an over-long numeral
(`Session.loadFile_escapes_iff`); and indexing a document fails exactly when its
text holds an over-long numeral (`Index.build_error_iff`).
-/

namespace Parenless

/-- A failure the language reports: one of its errors, or calls nested deeper than the
stack allows. -/
def Failure.Reported : Failure → Prop
  | .error _ | .tooDeep => True
  | _ => False

theorem Shell.escapes_eq_false_iff {f : Failure} : Shell.escapes f = false ↔ f.Reported := by
  cases f <;> simp [Shell.escapes, Failure.Reported]

/-! ### The reader -/

namespace Lexer

/-- The reader fails only as an error of the language or at an over-long numeral. -/
theorem scan_failure {source : String} {f : Failure} (h : Token.scan source = .error f) :
    (∃ e, f = .error e) ∨ ∃ k, f = .tooManyDigits k := by
  have hout : Outcome 0 source.toList (Token.scan source) := outcome_scanFrom 0 source.toList
  rw [h] at hout
  rcases f with e | _ | k | _ | _
  · exact .inl ⟨e, rfl⟩
  · exact hout.elim
  · exact .inr ⟨k, rfl⟩
  · exact hout.elim
  · exact hout.elim

end Lexer

/-! ### The parser -/

namespace Parse

variable {t : Table} {ps : List String}

theorem exprs_failure_of {r : Nat}
    (hexpr : ∀ {ts f}, expr t ps r ts = .error f → f.Reported) :
    ∀ {count ts f}, exprs t ps r count ts = .error f → f.Reported := by
  intro count
  induction count with
  | zero =>
    intro ts f h
    rw [exprs_zero] at h
    cases h
  | succ count ih =>
    intro ts f h
    rcases he : expr t ps r ts with err | ⟨e, after⟩
    · rw [exprs_succ_error_head he] at h
      cases h
      exact hexpr he
    rcases hes : exprs t ps r count after with err | ⟨es, rest⟩
    · rw [exprs_succ_error_tail he hes] at h
      cases h
      exact ih hes
    · rw [exprs_succ_ok he hes] at h
      cases h

/-- Reading an expression fails only as an error of the language or for want of room;
the arguments of a call are read two frames further up. -/
theorem expr_failure : ∀ {room ts f}, expr t ps room ts = .error f → f.Reported := by
  intro room
  induction room using Nat.strongRecOn with
  | ind room ih =>
    intro ts f h
    rw [expr.eq_def] at h
    split at h
    all_goals first
      | (cases h; exact trivial)
      | skip
    rename_i r tok more
    split at h
    · split at h
      · cases h
      · split at h
        · split at h <;> (cases h; exact trivial)
        · split at h
          · cases h
            exact trivial
          · split at h
            · cases h
            · rename_i err hargs
              cases h
              exact exprs_failure_of (fun h' => ih (r + 1) (by omega) h') hargs
    · cases h
    · cases h
    · cases h
      exact trivial

/-- Reading declarations fails only as an error of the language or for want of room. -/
theorem decls_failure {room : Nat} :
    ∀ (t : Table) (ts : List Token) {f : Failure}, (decls room t ts).result = .error f →
      f.Reported := by
  intro t ts
  induction t, ts using decls.induct room with
  | case1 t =>
    intro f h
    rw [decls_nil] at h
    cases h
  | case2 t tok rest name hd ps hp =>
    intro f h
    rw [decls_missing_arrow hd hp] at h
    cases h
    exact trivial
  | case3 t tok rest name hd ps arrow body hp ha held err =>
    rename_i he
    intro f h
    rw [decls_body_error hd hp ha he] at h
    cases h
    exact expr_failure he
  | case4 t tok rest name hd ps arrow body hp ha held e after he =>
    rename_i _ _ ih
    intro f h
    rw [decls_body_ok hd hp ha he] at h
    exact ih (map_eq_error.mp h)
  | case5 t tok rest name hd ps arrow body hp ha =>
    intro f h
    rw [decls_not_arrow hd hp ha] at h
    cases h
    exact trivial
  | case6 t tok rest hd =>
    intro f h
    rw [decls_not_decl (fun n hn => hd n hn)] at h
    cases h
    exact trivial

theorem line_failure {room : Nat} {ts : List Token} {f : Failure}
    (h : (line room t ts).2 = .error f) : f.Reported := by
  unfold line at h
  split at h
  · cases h
  · split at h
    · exact decls_failure t _ (map_eq_error.mp h)
    · split at h
      · cases h
      · cases h
        exact trivial
      · rename_i err hx
        cases h
        exact expr_failure hx

end Parse

/-! ### The evaluator -/

theorem Failure.reported_of_ofEval {f : Failure} (h : f.OfEval) : f.Reported := by
  cases f with
  | error e => trivial
  | tooDeep => trivial
  | tooManyDigits n => exact h.elim
  | nulInName => exact h.elim
  | limitTooLarge n => exact h.elim

namespace Expr

variable {t : Table}

/-- Evaluation fails only as an error of the language or for want of room, whatever the
table, the frame and the expression. -/
theorem eval_reported (room : Nat) (frame : List Value) (e : Expr) :
    (e.eval t room frame).FailsOnly Failure.Reported :=
  (eval_ofEval t room frame e).mono fun _ => Failure.reported_of_ofEval

end Expr

/-! ### Requests of a session -/

namespace Session

variable {s : Session}

/-- A load fails with a failure the language does not report only when reading its
source meets an over-long numeral. -/
theorem load_failure {source origin : String} {r : Report}
    (h : (s.load source origin).result = .error r) :
    r.failure.Reported ∨ ∃ n, Token.scan source = .error (.tooManyDigits n) ∧
      r.failure = .tooManyDigits n := by
  unfold load at h
  rcases hs : Token.scan source with f | ts
  · rw [hs] at h
    cases h
    rw [within_failure]
    rcases Lexer.scan_failure hs with ⟨e, rfl⟩ | ⟨n, rfl⟩
    · exact .inl trivial
    · exact .inr ⟨n, rfl, rfl⟩
  · rw [hs] at h
    dsimp only at h
    split at h
    · cases h
    · rename_i f hd
      cases h
      rw [within_failure]
      exact .inl (Parse.decls_failure _ _ hd)

/-- An input line fails with a failure the language does not report exactly when
reading its text meets an over-long numeral. -/
theorem eval_failure {source : String} {r : Report} (h : (s.eval source).result = .error r) :
    r.failure.Reported ∨ ∃ n, Token.scan source = .error (.tooManyDigits n) ∧
      r.failure = .tooManyDigits n := by
  unfold eval at h
  rcases hs : Token.scan source with f | ts
  · rw [hs] at h
    cases h
    rw [within_failure]
    rcases Lexer.scan_failure hs with ⟨e, rfl⟩ | ⟨n, rfl⟩
    · exact .inl trivial
    · exact .inr ⟨n, rfl, rfl⟩
  · rw [hs] at h
    dsimp only at h
    left
    rcases hline : Parse.line (s.stack.room - 1) s.table ts with ⟨notices, _ | ⟨line, t'⟩⟩
    · rw [hline] at h
      cases h
      rw [within_failure]
      exact Parse.line_failure (by rw [hline])
    · rw [hline] at h
      cases line with
      | empty => cases h
      | decls names => cases h
      | expr e =>
        dsimp only at h
        rcases hv : (e.eval s.table s.stack.room []).result with f | v
        · rw [hv] at h
          cases h
          rw [within_failure]
          exact Expr.eval_reported _ _ e f hv
        · rw [hv] at h
          cases h

theorem eval_of_overlong {source : String} {n : Nat}
    (h : Token.scan source = .error (.tooManyDigits n)) :
    (s.eval source).result = .error ⟨.tooManyDigits n, none, none⟩ ∧ (s.eval source).session = s := by
  unfold eval
  rw [h]
  exact ⟨rfl, rfl⟩

/-- A file load escapes when the name resolves to a path holding NUL, or to a file whose
text holds an over-long numeral. -/
def LoadEscapes (s : Session) (path : String) : Prop :=
  (s.files.resolve s.roots path).render.contains (Char.ofNat 0) = true ∨
    ∃ src n, s.files.read (s.files.resolve s.roots path) = .text src ∧
      Token.scan src = .error (.tooManyDigits n)

/-- A file load fails with a failure the language does not report exactly when the name
resolves to a path holding NUL, or to a file whose text holds an over-long numeral. -/
theorem loadFile_escapes_iff {path : String} :
    (∃ r, (s.loadFile path).result = .error r ∧ ¬ r.failure.Reported) ↔ s.LoadEscapes path := by
  unfold loadFile LoadEscapes
  dsimp only
  by_cases hnul : (s.files.resolve s.roots path).render.contains (Char.ofNat 0) = true
  · rw [if_pos hnul]
    exact ⟨fun _ => .inl hnul, fun _ => ⟨_, rfl, fun h => h⟩⟩
  · rw [if_neg hnul]
    constructor
    · rintro ⟨r, h, hr⟩
      split at h
      · cases h
        exact absurd trivial hr
      · cases h
        exact absurd trivial hr
      · rename_i src hread
        -- the text is loaded one call deeper; only its reading can escape
        rcases load_failure (s := s.deeper 1) h with hrep | ⟨n, hs, -⟩
        · exact absurd hrep hr
        · exact .inr ⟨src, n, hread, hs⟩
    · rintro (hnul' | ⟨src, n, hread, hs⟩)
      · exact absurd hnul' hnul
      · rw [hread]
        refine ⟨⟨.tooManyDigits n, none, none⟩, ?_, fun h => h⟩
        show ((s.deeper 1).load src _).result = _
        unfold load
        rw [hs]
        rfl

/-- An input line fails with a failure the language does not report exactly when
reading its text meets an over-long numeral. -/
theorem eval_escapes_iff {source : String} :
    (∃ r, (s.eval source).result = .error r ∧ ¬ r.failure.Reported) ↔
      ∃ n, Token.scan source = .error (.tooManyDigits n) := by
  constructor
  · rintro ⟨r, h, hr⟩
    rcases eval_failure h with hrep | ⟨n, hs, -⟩
    · exact absurd hrep hr
    · exact ⟨n, hs⟩
  · rintro ⟨n, hs⟩
    exact ⟨_, (eval_of_overlong hs).1, fun h => h⟩

end Session

/-! ### Indexes -/

namespace Index

theorem build_of_overlong {room : Nat} {text : String} {n : Nat}
    (h : Token.scan text = .error (.tooManyDigits n)) : build room text = .error (.tooManyDigits n) := by
  unfold build
  rw [h]

/-- Indexing a document fails exactly when reading its text meets an over-long numeral:
the errors of the language and the want of room become notes. -/
theorem build_error_iff {room : Nat} {text : String} :
    (∃ f, build room text = .error f) ↔ ∃ n, Token.scan text = .error (.tooManyDigits n) := by
  unfold build
  constructor
  · rintro ⟨f, h⟩
    rcases hs : Token.scan text with f' | ts
    · rw [hs] at h
      rcases Lexer.scan_failure hs with ⟨e, rfl⟩ | ⟨n, rfl⟩
      · cases h
      · exact ⟨n, rfl⟩
    · rw [hs] at h
      dsimp only at h
      split at h
      · cases h
      · cases h
      · rename_i f' hne hdeep hd
        have hrep := Parse.decls_failure _ _ hd
        cases f' with
        | error e => exact absurd rfl (hne e)
        | tooDeep => exact absurd rfl hdeep
        | _ => exact hrep.elim
      · split at h
        · split at h <;> cases h
        · cases h
  · rintro ⟨n, hs⟩
    exact ⟨_, build_of_overlong hs⟩

end Index

end Parenless
