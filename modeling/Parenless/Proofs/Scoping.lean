import Parenless.Proofs.Atomic
import Mathlib.Data.List.Nodup
/-!
Well-formed tables.

A table is well formed when no function is a placeholder, every builtin has its own
arity, and every user body is scoped by its function's arity: each argument reference
is below the arity, and each call names a function whose arity is the number of
arguments the call was read with.

Two facts make this the invariant of a session.

  * Evaluation against a well-formed table never meets a broken invariant of the
    interpreter: no argument out of range, no placeholder, no vanished function
    (`Expr.eval_noInternal`); and every eager builtin gets as many values as its arity.
  * The table a session starts from is well formed, and every load, file load, input
    line and run of `main` keeps it so, as long as no declaration gives a name that
    has a function another arity (`Session.serveAll_wellFormed`). A declaration that
    did would leave in place the calls read against the old arity.

Main statement: `tables_stay_wellFormed`.
-/

namespace Parenless

/-! ### Scoped expressions and well-formed tables -/

namespace Expr

/-- Every argument reference is below `m`, and every call names a function of `t`
whose arity is the number of its arguments. -/
inductive Scoped (t : Table) (m : Nat) : Expr → Prop
  | arg {i : Nat} : i < m → Scoped t m (.arg i)
  | lit (v : Value) : Scoped t m (.lit v)
  | app {f : String} {args : List Expr} {fn : Fn} : t.find? f = some fn →
      fn.arity = args.length → (∀ a ∈ args, Scoped t m a) → Scoped t m (.app f args)

end Expr

namespace Table

/-- `t'` has a function of the same arity for every name `t` has a function for. -/
def KeepsArities (t t' : Table) : Prop :=
  ∀ {f : String} {fn : Fn}, t.find? f = some fn →
    ∃ fn', t'.find? f = some fn' ∧ fn'.arity = fn.arity

/-- No placeholder, every builtin at its own arity, every user body scoped by its
arity. -/
structure WellFormed (t : Table) : Prop where
  builtin : ∀ {n : String} {k : Nat} {b : Builtin}, t.find? n = some ⟨k, .builtin b⟩ → k = b.arity
  user : ∀ {n : String} {k : Nat} {e : Expr}, t.find? n = some ⟨k, .user e⟩ → e.Scoped t k
  noPlaceholder : ∀ {n : String} {k : Nat}, t.find? n ≠ some ⟨k, .placeholder⟩

end Table

theorem Expr.Scoped.keepsArities {t t' : Table} {m : Nat} {e : Expr} (h : e.Scoped t m)
    (ht : t.KeepsArities t') : e.Scoped t' m := by
  induction h with
  | arg hi => exact .arg hi
  | lit v => exact .lit v
  | app hf ha _ ih =>
    obtain ⟨fn', hf', ha'⟩ := ht hf
    exact .app hf' (ha'.trans ha) ih

theorem Expr.WellFormed.scoped {t : Table} {ps : List String} {e : Expr}
    (h : e.WellFormed t ps) : e.Scoped t ps.length := by
  induction h with
  | arg hi => exact .arg (List.idxOf?_eq_some_iff.mp hi).1
  | num k => exact .lit _
  | text s => exact .lit _
  | app _ hf ha _ ih => exact .app hf ha ih

namespace Table

theorem find?_initial {n : String} {fn : Fn} (h : initial.find? n = some fn) :
    ∃ b, fn = ⟨b.arity, .builtin b⟩ := by
  obtain ⟨e, he, rfl⟩ := Option.map_eq_some_iff.mp h
  obtain ⟨b, -, rfl⟩ := List.mem_map.mp (List.mem_of_find?_eq_some he)
  exact ⟨b, rfl⟩

theorem initial_wellFormed : initial.WellFormed where
  builtin h := by
    obtain ⟨b, hb⟩ := find?_initial h
    cases hb
    rfl
  user h := by
    obtain ⟨b, hb⟩ := find?_initial h
    cases hb
  noPlaceholder h := by
    obtain ⟨b, hb⟩ := find?_initial h
    cases hb

end Table

/-! ### Declarations keep tables well formed -/

namespace Declaration

/-- The declaration gives its name the arity the name's function has, if it has one. -/
def SameArity (t : Table) (d : Declaration) : Prop :=
  ∀ {fn : Fn}, t.find? d.name = some fn → fn.arity = d.params.length

/-- Each declaration keeps the arity of its name in the table the earlier ones made. -/
def SameArities : Table → List Declaration → Prop
  | _, [] => True
  | t, d :: ds => d.SameArity t ∧ SameArities (install t d) ds

variable {t : Table} {d : Declaration}

theorem find?_install (n : String) :
    (install t d).find? n = if n = d.name then some d.fn else t.find? n :=
  Table.find?_declare t d.name n d.fn

theorem keepsArities_install (hd : d.SameArity t) : t.KeepsArities (install t d) := by
  intro f fn hf
  rw [find?_install]
  by_cases hfn : f = d.name
  · subst hfn
    exact ⟨d.fn, if_pos rfl, (hd hf).symm⟩
  · exact ⟨fn, by rw [if_neg hfn, hf], rfl⟩

theorem held_keepsArities : (t.declare d.name d.held).KeepsArities (install t d) := by
  intro f fn hf
  rw [Table.find?_declare] at hf
  rw [find?_install]
  by_cases hfn : f = d.name
  · rw [if_pos hfn] at hf
    cases hf
    exact ⟨d.fn, if_pos hfn, rfl⟩
  · rw [if_neg hfn] at hf
    exact ⟨fn, by rw [if_neg hfn, hf], rfl⟩

/-- Installing a declaration whose body was read against the held table, and which
keeps its name's arity, keeps a table well formed. -/
theorem install_wellFormed (ht : t.WellFormed) (hd : d.SameArity t)
    (hb : d.body.WellFormed (t.declare d.name d.held) d.params) : (install t d).WellFormed where
  builtin {n k b} h := by
    rw [find?_install] at h
    by_cases hn : n = d.name
    · rw [if_pos hn] at h
      cases h
    · rw [if_neg hn] at h
      exact ht.builtin h
  user {n k e} h := by
    rw [find?_install] at h
    by_cases hn : n = d.name
    · -- the new body: read against the held table, which has the same arities
      rw [if_pos hn] at h
      cases h
      exact hb.scoped.keepsArities held_keepsArities
    · -- an old body: every name it calls keeps its arity
      rw [if_neg hn] at h
      exact (ht.user h).keepsArities (keepsArities_install hd)
  noPlaceholder {n k} h := by
    rw [find?_install] at h
    by_cases hn : n = d.name
    · rw [if_pos hn] at h
      cases h
    · rw [if_neg hn] at h
      exact ht.noPlaceholder h

theorem foldl_install_wellFormed {ds : List Declaration} (hc : Chain t ds) (ht : t.WellFormed)
    (hs : SameArities t ds) : (ds.foldl install t).WellFormed := by
  induction hc with
  | nil => exact ht
  | cons hb _ ih => exact ih (install_wellFormed ht hs.1 hb) hs.2

end Declaration

/-! ### Names a source declares -/

namespace Lexeme

/-- The name a declaration head declares; other lexemes declare none. -/
def declared? : Lexeme → Option String
  | .decl n => some n
  | _ => none

end Lexeme

namespace Expr

mutual

theorem tokens_declared? (ps : List String) :
    ∀ (e : Expr), ∀ l ∈ e.tokens ps, l.declared? = none
  | .app f args => by
    intro l hl
    rw [tokens_app, List.mem_cons] at hl
    rcases hl with rfl | hl
    · rfl
    · exact tokensAll_declared? ps args l hl
  | .arg i => by
    intro l hl
    simp only [tokens, List.mem_singleton] at hl
    subst hl
    rfl
  | .lit v => by
    intro l hl
    cases v <;> simp only [tokens, List.mem_singleton, List.not_mem_nil] at hl <;> subst hl <;> rfl

theorem tokensAll_declared? (ps : List String) :
    ∀ (args : List Expr), ∀ l ∈ tokensAll ps args, l.declared? = none
  | [] => by simp
  | a :: as => by
    intro l hl
    rw [tokensAll_cons, List.mem_append] at hl
    rcases hl with hl | hl
    · exact tokens_declared? ps a l hl
    · exact tokensAll_declared? ps as l hl

end

end Expr

namespace Declaration

theorem declared?_tail (d : Declaration) :
    ∀ l ∈ d.params.map .name ++ .arrow :: d.body.tokens d.params, l.declared? = none := by
  intro l hl
  simp only [List.mem_append, List.mem_map, List.mem_cons] at hl
  rcases hl with ⟨p, -, rfl⟩ | rfl | hl
  · rfl
  · rfl
  · exact Expr.tokens_declared? d.params d.body l hl

theorem filterMap_declared? (ds : List Declaration) :
    (ds.map tokens).flatten.filterMap Lexeme.declared? = ds.map name := by
  induction ds with
  | nil => rfl
  | cons d ds ih =>
    have htail : (d.params.map Lexeme.name ++ Lexeme.arrow :: d.body.tokens d.params).filterMap
        Lexeme.declared? = [] := List.filterMap_eq_nil_iff.2 d.declared?_tail
    rw [List.map_cons, List.flatten_cons, List.filterMap_append, ih, tokens, List.cons_append,
      List.filterMap_cons, htail]
    rfl

theorem sameArities_of_fresh : ∀ {t : Table} {ds : List Declaration},
    (∀ d ∈ ds, t.find? d.name = none) → (ds.map name).Nodup → SameArities t ds
  | _, [], _, _ => trivial
  | t, d :: ds, hfresh, hnd => by
    have hd : t.find? d.name = none := hfresh d List.mem_cons_self
    rw [List.map_cons, List.nodup_cons] at hnd
    have hsame : d.SameArity t := fun h => by
      rw [hd] at h
      cases h
    refine ⟨hsame, sameArities_of_fresh (fun d' hd' => ?_) hnd.2⟩
    have hne : d'.name ≠ d.name := fun h => hnd.1 (h ▸ List.mem_map_of_mem hd')
    rw [find?_install, if_neg hne]
    exact hfresh d' (List.mem_cons_of_mem d hd')

end Declaration

/-! ### Requests keep tables well formed -/

namespace Table

/-- Every run of declarations that `source` spells over `t` keeps the arities of the
names it declares again. -/
def SameAritiesIn (t : Table) (source : String) : Prop :=
  ∀ ts ds, Token.scan source = .ok ts → ts.map Token.lexeme = (ds.map Declaration.tokens).flatten →
    Declaration.Chain t ds → Declaration.SameArities t ds

/-- Whether every name a source declares is new to the table and declared only once. A
source that does not read declares nothing. -/
def declaresFresh (t : Table) (source : String) : Bool :=
  match Token.scan source with
  | .ok ts =>
    let names := (ts.map Token.lexeme).filterMap Lexeme.declared?
    names.all fun n => (t.find? n).isNone && names.count n == 1
  | .error _ => true

theorem sameAritiesIn_of_declaresFresh {t : Table} {source : String}
    (h : t.declaresFresh source = true) : t.SameAritiesIn source := by
  intro ts ds hs hlex _
  simp only [declaresFresh, hs, hlex, Declaration.filterMap_declared?, List.all_eq_true,
    Bool.and_eq_true, Option.isNone_iff_eq_none, beq_iff_eq] at h
  exact Declaration.sameArities_of_fresh (fun d hd => (h _ (List.mem_map_of_mem hd)).1)
    (List.nodup_iff_count_eq_one.mpr fun n hn => (h n hn).2)

end Table

namespace Session

/-- A request a session serves. -/
inductive Request where
  | load (source origin : String)
  | loadFile (path : String)
  | eval (source : String)
  | runMain

/-- The session after a request, whether it succeeds or fails. -/
def serve (s : Session) : Request → Session
  | .load source origin => (s.load source origin).session
  | .loadFile path => (s.loadFile path).session
  | .eval source => (s.eval source).session
  | .runMain => s.runMain.session

/-- The session after requests served in turn. -/
def serveAll (s : Session) (rs : List Request) : Session := rs.foldl serve s

/-- The declarations a request may install keep the arities of the names they
declare again. -/
def Request.SameArities (s : Session) : Request → Prop
  | .load source _ => s.table.SameAritiesIn source
  | .loadFile path =>
    ∀ src, s.files.read (s.files.resolve s.roots path) = .text src → s.table.SameAritiesIn src
  | .eval source => s.table.SameAritiesIn source
  | .runMain => True

/-- Every request of a run keeps arities, in the session the requests before it left. -/
def SameAritiesAlong : Session → List Request → Prop
  | _, [] => True
  | s, r :: rs => r.SameArities s ∧ SameAritiesAlong (s.serve r) rs

variable {s : Session}

theorem runMain_session : s.runMain.session = s := by
  unfold runMain
  split <;> rfl

theorem load_wellFormed {source origin : String} (ht : s.table.WellFormed)
    (hk : s.table.SameAritiesIn source) : (s.load source origin).session.table.WellFormed := by
  rcases hr : (s.load source origin).result with r | names
  · rw [load_error hr]
    exact ht
  · obtain ⟨ts, ds, hs, hts, hchain, -, hsession⟩ := load_ok hr
    rw [hsession]
    exact Declaration.foldl_install_wellFormed hchain ht (hk ts ds hs hts hchain)

theorem loadFile_wellFormed {path : String} (ht : s.table.WellFormed)
    (hk : ∀ src, s.files.read (s.files.resolve s.roots path) = .text src →
      s.table.SameAritiesIn src) :
    (s.loadFile path).session.table.WellFormed := by
  rcases hr : (s.loadFile path).result with r | names
  · rw [loadFile_error hr]
    exact ht
  · obtain ⟨src, ts, ds, hread, hs, hts, hchain, -, hsession⟩ := loadFile_ok hr
    rw [hsession]
    exact Declaration.foldl_install_wellFormed hchain ht (hk src hread ts ds hs hts hchain)

theorem eval_wellFormed {source : String} (ht : s.table.WellFormed)
    (hk : s.table.SameAritiesIn source) : (s.eval source).session.table.WellFormed := by
  rcases @eval_cases s source with hsame | ⟨ts, ds, hs, -, hts, hchain, -, hsession⟩
  · rw [hsame]
    exact ht
  · rw [hsession]
    exact Declaration.foldl_install_wellFormed hchain ht (hk ts ds hs hts hchain)

theorem serve_wellFormed {r : Request} (ht : s.table.WellFormed) (hr : r.SameArities s) :
    (s.serve r).table.WellFormed := by
  cases r with
  | load source origin => exact load_wellFormed ht hr
  | loadFile path => exact loadFile_wellFormed ht hr
  | eval source => exact eval_wellFormed ht hr
  | runMain =>
    show s.runMain.session.table.WellFormed
    rw [runMain_session]
    exact ht

/-- A run of requests keeps the table well formed. -/
theorem serveAll_wellFormed {rs : List Request} (ht : s.table.WellFormed)
    (hr : SameAritiesAlong s rs) : (s.serveAll rs).table.WellFormed := by
  induction rs generalizing s with
  | nil => exact ht
  | cons r rs ih => exact ih (serve_wellFormed ht hr.1) hr.2

end Session

/-! ### Evaluation against a well-formed table -/

/-- Every failure of the run is one that `P` allows. -/
def Run.FailsOnly (P : Failure → Prop) (r : Run α) : Prop :=
  ∀ f, r.result = .error f → P f

/-- A failure that reports a broken invariant of the interpreter itself. -/
def Failure.IsInternal (f : Failure) : Prop :=
  ∃ e, f = .error e ∧ e.errorClass = .internal

/-- A run that does not stop at a broken invariant of the interpreter. -/
def Run.NoInternal (r : Run α) : Prop :=
  ∀ f, r.result = .error f → ¬ f.IsInternal

namespace Run

variable {P : Failure → Prop}

theorem failsOnly_pure (a : α) : (Run.pure a).FailsOnly P := by
  intro f h
  cases h

theorem failsOnly_fail {f : Failure} (h : P f) : (Run.fail f : Run α).FailsOnly P := by
  intro f' hf
  cases hf
  exact h

theorem FailsOnly.mono {r : Run α} {Q : Failure → Prop} (hr : r.FailsOnly P)
    (hPQ : ∀ f, P f → Q f) : r.FailsOnly Q :=
  fun f hf => hPQ f (hr f hf)

theorem FailsOnly.andThen {r : Run α} {k : α → Run β} (hr : r.FailsOnly P)
    (hk : ∀ a, r.result = .ok a → (k a).FailsOnly P) : (r.andThen k).FailsOnly P := by
  intro f h
  unfold Run.andThen at h
  rcases hres : r.result with e | a
  · rw [hres] at h
    cases h
    exact hr f hres
  · rw [hres] at h
    exact hk a hres f h

theorem noInternal_pure (a : α) : (Run.pure a).NoInternal := failsOnly_pure a

theorem noInternal_tooDeep : (Run.fail .tooDeep : Run α).NoInternal :=
  failsOnly_fail fun ⟨_, he, _⟩ => Failure.noConfusion he

theorem noInternal_fail {e : Error} (he : e.errorClass ≠ .internal) :
    (Run.fail (.error e) : Run α).NoInternal := by
  refine failsOnly_fail ?_
  rintro ⟨e', he', hclass⟩
  cases he'
  exact he hclass

theorem NoInternal.andThen {r : Run α} {k : α → Run β} (hr : r.NoInternal)
    (hk : ∀ a, r.result = .ok a → (k a).NoInternal) : (r.andThen k).NoInternal :=
  FailsOnly.andThen hr hk

theorem andThen_eq_ok {r : Run α} {k : α → Run β} {b : β} (h : (r.andThen k).result = .ok b) :
    ∃ a, r.result = .ok a ∧ (k a).result = .ok b := by
  unfold Run.andThen at h
  rcases hres : r.result with e | a
  · rw [hres] at h
    cases h
  · rw [hres] at h
    exact ⟨a, rfl, h⟩

end Run

theorem bind_eq_error {ε α β : Type} {x : Except ε α} {k : α → Except ε β} {e : ε}
    (h : x >>= k = .error e) : x = .error e ∨ ∃ a, x = .ok a ∧ k a = .error e := by
  cases x with
  | error e' => exact .inl (by simpa [bind, Except.bind] using h)
  | ok a => exact .inr ⟨a, rfl, by simpa [bind, Except.bind] using h⟩

theorem Value.checked_error {op : ArithOp} {n : Int} {e : Error}
    (h : Value.checked op n = .error e) : e = .overflow op := by
  unfold Value.checked at h
  split at h
  · cases h
    rfl
  · cases h

theorem Value.numbers_error {a b : Value} {e : Error} (h : Value.numbers a b = .error e) :
    ∃ i k, e = .wrongType i .number k := by
  unfold Value.numbers at h
  split at h
  · cases h
  · cases h
    exact ⟨_, _, rfl⟩
  · cases h
    exact ⟨_, _, rfl⟩

theorem Value.items_error {v : Value} {e : Error} (h : Value.items v = .error e) :
    ∃ k, e = .wrongType 1 .list k := by
  unfold Value.items at h
  split at h
  · cases h
  · cases h
    exact ⟨_, rfl⟩

/-- The errors a builtin raises: an argument of the wrong kind, a sum of kinds that do
not add, an overflow, a division or a remainder by zero, and the head or the tail of an
empty list. -/
def Error.OfBuiltin : Error → Prop
  | .wrongType _ _ _ | .cannotAdd _ _ | .overflow _ | .divisionByZero | .remainderByZero
  | .emptyHead | .emptyTail => True
  | _ => False

namespace Builtin

/-- A builtin fails only on the kinds or the numbers it is given. -/
theorem apply_ofBuiltin {b : Builtin} {vs : List Value} {e : Error}
    (h : b.apply vs = .error e) : e.OfBuiltin := by
  unfold Builtin.apply at h
  split at h
  all_goals first
    | (cases h; done)
    | (obtain rfl := Value.checked_error h; simp [Error.OfBuiltin])
    | (cases h; simp [Error.OfBuiltin])
    | (obtain hn | ⟨⟨x, y⟩, -, hk⟩ := bind_eq_error h
       · obtain ⟨i, k, rfl⟩ := Value.numbers_error hn
         simp [Error.OfBuiltin]
       · dsimp only at hk
         first
           | (obtain rfl := Value.checked_error hk; simp [Error.OfBuiltin])
           | (split at hk <;> cases hk <;> simp [Error.OfBuiltin])
           | cases hk)
    | (obtain hn | ⟨xs, -, hk⟩ := bind_eq_error h
       · obtain ⟨k, rfl⟩ := Value.items_error hn
         simp [Error.OfBuiltin]
       · split at hk
         · cases hk
         · cases hk
           simp [Error.OfBuiltin])

theorem apply_errorClass {b : Builtin} {vs : List Value} {e : Error}
    (h : b.apply vs = .error e) : e.errorClass ≠ .internal := by
  have hb := apply_ofBuiltin h
  cases e <;> simp_all [Error.OfBuiltin, Error.errorClass]

theorem callWithin_noInternal (room : Nat) (b : Builtin) (vs : List Value) :
    (b.callWithin room vs).NoInternal := by
  unfold callWithin
  split
  · exact Run.noInternal_tooDeep
  · rintro f h ⟨e, rfl, he⟩
    unfold call at h
    split at h
    · cases h
    · rename_i e' he'
      cases h
      exact apply_errorClass he' he

end Builtin

namespace Expr

variable {t : Table}

theorem evalAll_length {room : Nat} {frame : List Value} :
    ∀ {args : List Expr} {vs : List Value}, (evalAll t room frame args).result = .ok vs →
      vs.length = args.length
  | [], vs, h => by
    rw [evalAll_nil] at h
    cases h
    rfl
  | a :: rest, vs, h => by
    rw [evalAll_cons] at h
    obtain ⟨v, -, h⟩ := Run.andThen_eq_ok h
    obtain ⟨vs', hrest, h⟩ := Run.andThen_eq_ok h
    cases h
    simp [evalAll_length hrest]

theorem evalAll_length_of_scoped {room m : Nat} {frame : List Value} {f : String}
    {args : List Expr} {fn : Fn} (he : (Expr.app f args).Scoped t m) (hf : t.find? f = some fn)
    {vs : List Value} (h : (evalAll t room frame args).result = .ok vs) : vs.length = fn.arity := by
  cases he with
  | app hf' ha _ =>
    rw [hf] at hf'
    cases hf'
    rw [evalAll_length h, ha]

theorem evalAll_noInternal {room : Nat} {frame : List Value}
    (heval : ∀ e : Expr, e.Scoped t frame.length → (e.eval t room frame).NoInternal) :
    ∀ {args : List Expr}, (∀ a ∈ args, a.Scoped t frame.length) →
      (evalAll t room frame args).NoInternal
  | [], _ => by
    rw [evalAll_nil]
    exact Run.noInternal_pure _
  | a :: rest, hargs => by
    rw [evalAll_cons]
    refine (heval a (hargs a List.mem_cons_self)).andThen fun v _ => ?_
    refine (evalAll_noInternal heval fun a ha => hargs a (List.mem_cons_of_mem _ ha)).andThen
      fun vs _ => ?_
    exact Run.noInternal_pure _

theorem eval_cond_noInternal {room k : Nat} {frame : List Value} {f : String}
    {args : List Expr} {b : Builtin} (hf : t.find? f = some ⟨k, .builtin b⟩) (hb : b.isLazy = true)
    (hparts : ∀ a ∈ args, (a.eval t room frame).NoInternal) :
    ((Expr.app f args).eval t (room + 2) frame).NoInternal := by
  rw [eval.eq_def]
  simp only [hf, hb, if_true]
  split
  · rename_i c x y rest
    refine (hparts c (by simp)).andThen fun v _ => ?_
    split
    · exact hparts x (by simp)
    · exact hparts y (by simp)
    · split
      · exact Run.noInternal_tooDeep
      · exact Run.noInternal_fail (by simp [Error.errorClass])
  · exact Run.noInternal_pure _

/-- Evaluating a scoped expression against a well-formed table, with a frame of the
size its scope asks for, never stops at a broken invariant of the interpreter. -/
theorem eval_noInternal (ht : t.WellFormed) :
    ∀ (room : Nat) (frame : List Value) (e : Expr), e.Scoped t frame.length →
      (e.eval t room frame).NoInternal := by
  intro room
  induction room using Nat.strongRecOn with
  | ind room ih =>
    intro frame e he
    cases he with
    | arg hi =>
      rcases room with _ | room
      · rw [eval_zero]
        exact Run.noInternal_tooDeep
      · rw [eval_arg t room _ frame _ (List.getElem?_eq_getElem hi)]
        exact Run.noInternal_pure _
    | lit v =>
      rcases room with _ | room
      · rw [eval_zero]
        exact Run.noInternal_tooDeep
      · rw [eval_lit]
        exact Run.noInternal_pure _
    | @app f args fn hf ha hargs =>
      match room with
      | 0 =>
        rw [eval_zero]
        exact Run.noInternal_tooDeep
      | 1 =>
        rw [eval_app_one]
        exact Run.noInternal_tooDeep
      | room + 2 =>
        have hargsOk : (evalAll t room frame args).NoInternal :=
          evalAll_noInternal (fun e he => ih room (by omega) frame e he) hargs
        obtain ⟨k, body⟩ := fn
        cases body with
        | user body =>
          rw [eval_user t room frame f args k body hf]
          refine hargsOk.andThen fun vs hvs => ?_
          have hlen : vs.length = k := by
            rw [evalAll_length hvs]
            exact ha.symm
          exact ih (room + 1) (by omega) vs body (hlen ▸ ht.user hf)
        | placeholder => exact absurd hf ht.noPlaceholder
        | builtin b =>
          cases hb : b.isLazy with
          | false =>
            rw [eval_eager t room frame f args k b hf hb]
            exact hargsOk.andThen fun vs _ => Builtin.callWithin_noInternal (room + 1) b vs
          | true =>
            exact eval_cond_noInternal hf hb fun a ha => ih room (by omega) frame a (hargs a ha)

theorem eager_call_arity (ht : t.WellFormed) {m : Nat} {f : String} {args : List Expr}
    {k : Nat} {b : Builtin} (he : (Expr.app f args).Scoped t m)
    (hf : t.find? f = some ⟨k, .builtin b⟩) (hb : b.isLazy = false) (room : Nat)
    (frame : List Value) :
    (Expr.app f args).eval t (room + 2) frame =
        (evalAll t room frame args).andThen (b.callWithin (room + 1)) ∧
      ∀ vs, (evalAll t room frame args).result = .ok vs → vs.length = b.arity := by
  refine ⟨eval_eager t room frame f args k b hf hb, fun vs hvs => ?_⟩
  rw [evalAll_length_of_scoped he hf hvs]
  exact ht.builtin hf

end Expr

/-! ### Input lines and `main` -/

namespace Session

variable {s : Session}

theorem line_expr_wellFormed {room : Nat} {t t' : Table} {ts : List Token} {e : Expr}
    (h : (Parse.line room t ts).2 = .ok (.expr e, t')) : e.WellFormed t [] := by
  cases ts with
  | nil => simp [Parse.line] at h
  | cons tok more =>
    by_cases hd : ∃ n, tok.lexeme = .decl n
    · obtain ⟨n, hn⟩ := hd
      rw [line_of_decl_head hn] at h
      rcases hr : (Parse.decls (room - 1) t (tok :: more)).result with f | ⟨names, t''⟩
      · simp [hr, Except.map] at h
      · simp [hr, Except.map] at h
    · obtain ⟨e', he', -, -, hwf, -⟩ := (Parse.line_eq_ok_iff (fun n hn => hd ⟨n, hn⟩)).mp h
      cases he'
      exact hwf

theorem within_failure (source origin : String) (f : Failure) :
    (Report.within source origin f).failure = f := by
  cases f <;> rfl

/-- Evaluating an input line read as an expression, against a well-formed table, never
stops at a broken invariant of the interpreter. -/
theorem eval_noInternal {source : String} {ts : List Token} {e : Expr} {t' : Table}
    (ht : s.table.WellFormed) (hs : Token.scan source = .ok ts)
    (hl : (Parse.line (s.stack.room - 1) s.table ts).2 = .ok (.expr e, t')) {r : Report}
    (h : (s.eval source).result = .error r) : ¬ r.failure.IsInternal := by
  have hrun := Expr.eval_noInternal ht s.stack.room [] e (line_expr_wellFormed hl).scoped
  unfold eval at h
  rw [hs] at h
  dsimp only at h
  rcases hline : Parse.line (s.stack.room - 1) s.table ts with ⟨notices, res⟩
  rw [hline] at hl h
  dsimp only at hl
  subst hl
  dsimp only at h
  rcases hv : (e.eval s.table s.stack.room []).result with f | v
  · rw [hv] at h
    cases h
    rw [within_failure]
    exact hrun f hv
  · rw [hv] at h
    cases h

theorem find?_of_mainBody? {t : Table} {body : Expr} (h : mainBody? t = some body) :
    t.find? "main" = some ⟨0, .user body⟩ := by
  unfold mainBody? at h
  split at h
  · cases h
    assumption
  · cases h

theorem runMain_noInternal (ht : s.table.WellFormed) {r : Report}
    (h : s.runMain.result = .error r) : ¬ r.failure.IsInternal := by
  unfold runMain at h
  split at h
  · rintro ⟨e, he, hc⟩
    cases h
    cases he
    cases hc
  · rename_i body hbody
    -- `main` is a user function of no arguments, so its body is scoped by no arguments
    have hrun := Expr.eval_noInternal ht s.stack.room [] body (ht.user (find?_of_mainBody? hbody))
    dsimp only at h
    rcases hv : (body.eval s.table s.stack.room []).result with f | v
    · rw [hv] at h
      cases h
      exact hrun f hv
    · rw [hv] at h
      cases h

/-! ### Main statement -/

/-- Tables stay well formed. A fresh table is well formed; any run of loads, file
loads, input lines and runs of `main`, each of which may succeed or fail, keeps a table
well formed, as long as no declaration gives a name that has a function another arity.
Against a well-formed table, evaluating a scoped expression, an input line read as an
expression, or `main` never stops at a broken invariant of the interpreter, and a
scoped call of an eager builtin hands it exactly as many values as its arity. -/
theorem tables_stay_wellFormed :
    Table.initial.WellFormed ∧
    (∀ (s : Session) (rs : List Request), s.table.WellFormed → SameAritiesAlong s rs →
      (s.serveAll rs).table.WellFormed) ∧
    (∀ (t : Table) room frame (e : Expr), t.WellFormed → e.Scoped t frame.length →
      (e.eval t room frame).NoInternal) ∧
    (∀ (s : Session) source ts (e : Expr) t', s.table.WellFormed → Token.scan source = .ok ts →
      (Parse.line (s.stack.room - 1) s.table ts).2 = .ok (.expr e, t') →
      ∀ r, (s.eval source).result = .error r → ¬ r.failure.IsInternal) ∧
    (∀ (s : Session), s.table.WellFormed →
      ∀ r, s.runMain.result = .error r → ¬ r.failure.IsInternal) ∧
    (∀ (t : Table) m f args k (b : Builtin), t.WellFormed → (Expr.app f args).Scoped t m →
      t.find? f = some ⟨k, .builtin b⟩ → b.isLazy = false → ∀ room frame,
      (Expr.app f args).eval t (room + 2) frame =
          (Expr.evalAll t room frame args).andThen (b.callWithin (room + 1)) ∧
        ∀ vs, (Expr.evalAll t room frame args).result = .ok vs → vs.length = b.arity) :=
  ⟨Table.initial_wellFormed,
    fun _ _ ht hr => serveAll_wellFormed ht hr,
    fun _ room frame e ht he => Expr.eval_noInternal ht room frame e he,
    fun _ _ _ _ _ ht hs hl _ h => eval_noInternal ht hs hl h,
    fun _ ht _ h => runMain_noInternal ht h,
    fun _ _ _ _ _ _ ht he hf hb room frame => Expr.eager_call_arity ht he hf hb room frame⟩

/-- A fresh session that declares `inc`, calls it and runs `main` keeps its table well
formed. -/
theorem tables_stay_wellFormed_declaring_run :
    ({} : Session).table.WellFormed ∧
      SameAritiesAlong {} [.load "\\inc x -> + x 1" "<input>", .eval "inc 2", .runMain] ∧
      (({} : Session).serveAll
        [.load "\\inc x -> + x 1" "<input>", .eval "inc 2", .runMain]).table.WellFormed := by
  have hwf : ({} : Session).table.WellFormed := Table.initial_wellFormed
  have hrun : SameAritiesAlong {} [.load "\\inc x -> + x 1" "<input>", .eval "inc 2", .runMain] :=
    ⟨Table.sameAritiesIn_of_declaresFresh (by decide +kernel),
      Table.sameAritiesIn_of_declaresFresh (by decide +kernel),
      trivial, trivial⟩
  exact ⟨hwf, hrun, tables_stay_wellFormed.2.1 {} _ hwf hrun⟩

end Session

end Parenless
