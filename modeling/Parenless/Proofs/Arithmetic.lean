import Parenless.Proofs.Scoping
import Parenless.Proofs.Layout
/-!
Numbers stay in range.

The numeric builtins are checked unsigned 64-bit arithmetic. On numbers in
`[0, 2^64 - 1]` a sum, a difference or a product is the exact one when it lies in the
range and an overflow error otherwise; division and remainder round down and refuse a
zero divisor; and the comparisons compare.

Three facts keep every number of a session in the range.

  * Every builtin given values in range gives a value in range (`Builtin.apply_inRange`),
    so evaluating an expression whose literals are in range, against a table whose
    bodies have literals in range and with a frame of values in range, gives a value in
    range (`Expr.eval_inRange`).
  * The reader makes only numbers of at most 2^64 - 1 (`Lexer.scan_number_le`), and an
    expression read from tokens has no literal the tokens do not spell.
  * So every body a load or an input line installs, and every expression line, has its
    literals in range, and every table a session reaches keeps them so
    (`Session.serveAll_litsInRange`).

Main statement: `numbers_stay_in_range`.
-/

namespace Parenless

/-! ### Values and expressions in range -/

/-- Every number anywhere inside the value lies in `[0, 2^64 - 1]`. -/
inductive Value.InRange : Value → Prop
  | num {n : Int} : 0 ≤ n → n ≤ maxNumber → Value.InRange (.num n)
  | text (s : String) : Value.InRange (.text s)
  | bool (b : Bool) : Value.InRange (.bool b)
  | list {items : List Value} : (∀ v ∈ items, Value.InRange v) → Value.InRange (.list items)
  | unit : Value.InRange .unit

/-- Every literal of the expression is a value in range. -/
inductive Expr.LitsInRange : Expr → Prop
  | arg (i : Nat) : Expr.LitsInRange (.arg i)
  | lit {v : Value} : v.InRange → Expr.LitsInRange (.lit v)
  | app {f : String} {args : List Expr} : (∀ a ∈ args, Expr.LitsInRange a) →
      Expr.LitsInRange (.app f args)

/-- Every user body of the table has its literals in range. -/
def Table.LitsInRange (t : Table) : Prop :=
  ∀ {n : String} {k : Nat} {e : Expr}, t.find? n = some ⟨k, .user e⟩ → e.LitsInRange

namespace Value

theorem inRange_natCast {n : Nat} (h : n ≤ maxNumber) : (Value.num n).InRange :=
  .num (Int.natCast_nonneg n) (by exact_mod_cast h)

theorem InRange.items {items : List Value} (h : (Value.list items).InRange) :
    ∀ v ∈ items, v.InRange := by
  cases h with
  | list h => exact h

theorem InRange.asList {v : Value} (h : v.InRange) : ∀ w ∈ v.asList, w.InRange := by
  cases h with
  | list h => exact h
  | num h₀ h₁ => exact List.forall_mem_singleton.mpr (.num h₀ h₁)
  | text s => exact List.forall_mem_singleton.mpr (.text s)
  | bool b => exact List.forall_mem_singleton.mpr (.bool b)
  | unit => exact List.forall_mem_singleton.mpr .unit

/-! ### Checked arithmetic -/

theorem checked_natCast (op : ArithOp) (n : Nat) :
    checked op n = if n ≤ maxNumber then .ok (.num n) else .error (.overflow op) := by
  unfold checked
  by_cases h : n ≤ maxNumber
  · rw [if_neg (by omega), if_pos h]
  · rw [if_pos (by omega), if_neg h]

theorem checked_sub_natCast (op : ArithOp) {a b : Nat} (ha : a ≤ maxNumber) :
    checked op ((a : Int) - b) = if b ≤ a then .ok (.num ↑(a - b)) else .error (.overflow op) := by
  by_cases h : b ≤ a
  · rw [← Int.ofNat_sub h, checked_natCast, if_pos (by omega), if_pos h]
  · unfold checked
    rw [if_pos (by omega), if_neg h]

theorem checked_ok {op : ArithOp} {n : Int} {v : Value} (h : checked op n = .ok v) :
    v.InRange := by
  unfold checked at h
  split at h
  · cases h
  · cases h
    exact .num (by omega) (by omega)

theorem numbers_ok {a b : Value} {x y : Int} (h : numbers a b = .ok (x, y)) :
    a = .num x ∧ b = .num y := by
  unfold numbers at h
  split at h
  · cases h
    exact ⟨rfl, rfl⟩
  · cases h
  · cases h

theorem items_ok {v : Value} {xs : List Value} (h : items v = .ok xs) : v = .list xs := by
  unfold items at h
  split at h
  · cases h
    rfl
  · cases h

end Value

theorem bind_eq_ok {ε α β : Type} {x : Except ε α} {k : α → Except ε β} {b : β}
    (h : x >>= k = .ok b) : ∃ a, x = .ok a ∧ k a = .ok b := by
  cases x with
  | error e => cases h
  | ok a => exact ⟨a, rfl, h⟩

/-! ### Builtins keep the range -/

namespace Builtin

theorem numbers_inRange {a b : Value} {x y : Int} (ha : a.InRange) (hb : b.InRange)
    (h : Value.numbers a b = .ok (x, y)) : 0 ≤ x ∧ x ≤ maxNumber ∧ 0 ≤ y ∧ y ≤ maxNumber := by
  obtain ⟨rfl, rfl⟩ := Value.numbers_ok h
  cases ha with
  | num hx₀ hx₁ =>
    cases hb with
    | num hy₀ hy₁ => exact ⟨hx₀, hx₁, hy₀, hy₁⟩

/-- A builtin given values in range gives a value in range. -/
theorem apply_inRange {b : Builtin} {vs : List Value} {v : Value}
    (hvs : ∀ x ∈ vs, x.InRange) (h : b.apply vs = .ok v) : v.InRange := by
  unfold apply at h
  split at h
  · exact Value.checked_ok h
  · cases h
    exact .text _
  · cases h
  · obtain ⟨_, -, hk⟩ := bind_eq_ok h
    exact Value.checked_ok hk
  · obtain ⟨_, -, hk⟩ := bind_eq_ok h
    exact Value.checked_ok hk
  -- quotient and remainder of numbers in range round down into the range
  · rename_i a c
    obtain ⟨⟨x, y⟩, hxy, hk⟩ := bind_eq_ok h
    obtain ⟨hx₀, hx₁, hy₀, hy₁⟩ :=
      numbers_inRange (hvs a (by simp)) (hvs c (by simp)) hxy
    dsimp only at hk
    split at hk
    · cases hk
    · rename_i hy
      cases hk
      rw [Int.fdiv_eq_ediv_of_nonneg x hy₀]
      exact .num (Int.ediv_nonneg hx₀ hy₀) ((Int.ediv_le_self y hx₀).trans hx₁)
  · rename_i a c
    obtain ⟨⟨x, y⟩, hxy, hk⟩ := bind_eq_ok h
    obtain ⟨hx₀, hx₁, hy₀, hy₁⟩ :=
      numbers_inRange (hvs a (by simp)) (hvs c (by simp)) hxy
    dsimp only at hk
    split at hk
    · cases hk
    · rename_i hy
      cases hk
      rw [Int.fmod_eq_emod_of_nonneg x hy₀]
      have hlt := Int.emod_lt_of_pos x (b := y) (by omega)
      exact .num (Int.emod_nonneg x hy) (by omega)
  · obtain ⟨_, -, hk⟩ := bind_eq_ok h
    cases hk
    exact .bool _
  · obtain ⟨_, -, hk⟩ := bind_eq_ok h
    cases hk
    exact .bool _
  · obtain ⟨_, -, hk⟩ := bind_eq_ok h
    cases hk
    exact .bool _
  · cases h
    exact .bool _
  · cases h
    exact .bool _
  · cases h
    exact .unit
  · cases h
    exact .list (by simpa using hvs)
  · rename_i a
    obtain ⟨xs, hxs, hk⟩ := bind_eq_ok h
    obtain rfl := Value.items_ok hxs
    have hitems := (hvs (.list xs) (List.mem_singleton_self _)).items
    split at hk
    · cases hk
      exact hitems _ (by simp)
    · cases hk
  · rename_i a
    obtain ⟨xs, hxs, hk⟩ := bind_eq_ok h
    obtain rfl := Value.items_ok hxs
    have hitems := (hvs (.list xs) (List.mem_singleton_self _)).items
    split at hk
    · cases hk
      exact .list fun w hw => hitems w (by simp [hw])
    · cases hk
  · rename_i a c
    cases h
    refine .list fun w hw => ?_
    rcases List.mem_append.mp hw with hw | hw
    · exact (hvs a (by simp)).asList w hw
    · exact (hvs c (by simp)).asList w hw
  · cases h
    exact .unit

theorem callWithin_inRange (room : Nat) (b : Builtin) {vs : List Value}
    (hvs : ∀ x ∈ vs, x.InRange) {v : Value} (h : (b.callWithin room vs).result = .ok v) :
    v.InRange := by
  unfold callWithin call at h
  split at h
  · cases h
  · dsimp only at h
    split at h
    · rename_i v' hv'
      cases h
      exact apply_inRange hvs hv'
    · cases h

/-- The numeric builtins on numbers in range: the exact sum, difference and product when
it lies in the range and an overflow otherwise; the quotient and remainder rounded down,
refusing a zero divisor; and the comparisons. -/
theorem apply_natCast {a b : Nat} (ha : a ≤ maxNumber) :
    add.apply [.num a, .num b] =
      (if a + b ≤ maxNumber then .ok (.num ↑(a + b)) else .error (.overflow .add)) ∧
    sub.apply [.num a, .num b] =
      (if b ≤ a then .ok (.num ↑(a - b)) else .error (.overflow .subtract)) ∧
    mul.apply [.num a, .num b] =
      (if a * b ≤ maxNumber then .ok (.num ↑(a * b)) else .error (.overflow .multiply)) ∧
    div.apply [.num a, .num b] =
      (if b = 0 then .error .divisionByZero else .ok (.num ↑(a / b))) ∧
    mod.apply [.num a, .num b] =
      (if b = 0 then .error .remainderByZero else .ok (.num ↑(a % b))) ∧
    lt.apply [.num a, .num b] = .ok (.bool (decide (a < b))) ∧
    gt.apply [.num a, .num b] = .ok (.bool (decide (a > b))) ∧
    eq.apply [.num a, .num b] = .ok (.bool (decide (a = b))) := by
  have hdiv : div.apply [.num a, .num b] =
      if (b : Int) = 0 then .error .divisionByZero else .ok (.num ((a : Int).fdiv b)) := rfl
  have hmod : mod.apply [.num a, .num b] =
      if (b : Int) = 0 then .error .remainderByZero else .ok (.num ((a : Int).fmod b)) := rfl
  refine ⟨Value.checked_natCast .add (a + b), Value.checked_sub_natCast .subtract ha,
    Value.checked_natCast .multiply (a * b), ?_, ?_, ?_, ?_, ?_⟩
  · rw [hdiv]
    by_cases hb : b = 0
    · rw [if_pos (by omega), if_pos hb]
    · rw [if_neg (by omega), if_neg hb, Int.fdiv_eq_ediv_of_nonneg _ (Int.natCast_nonneg b),
        Int.natCast_div]
  · rw [hmod]
    by_cases hb : b = 0
    · rw [if_pos (by omega), if_pos hb]
    · rw [if_neg (by omega), if_neg hb, Int.fmod_eq_emod_of_nonneg _ (Int.natCast_nonneg b),
        Int.natCast_mod]
  · show (Except.ok (Value.bool (decide ((a : Int) < b))) : Except Error Value) = _
    simp
  · show (Except.ok (Value.bool (decide ((b : Int) < a))) : Except Error Value) = _
    simp
  · show (Except.ok (Value.bool (decide ((a : Int) = b))) : Except Error Value) = _
    simp

end Builtin

/-! ### Evaluation keeps the range -/

/-- Every value the run gives satisfies `P`. -/
def Run.Yields (P : α → Prop) (r : Run α) : Prop :=
  ∀ a, r.result = .ok a → P a

namespace Run

variable {P : α → Prop} {Q : β → Prop}

theorem yields_pure {a : α} (h : P a) : (Run.pure a).Yields P := by
  intro a' ha
  cases ha
  exact h

theorem yields_fail (f : Failure) : (Run.fail f : Run α).Yields P := by
  intro a h
  cases h

theorem Yields.andThen {r : Run α} {k : α → Run β} (hr : r.Yields P)
    (hk : ∀ a, P a → (k a).Yields Q) : (r.andThen k).Yields Q := by
  intro b h
  obtain ⟨a, ha, hb⟩ := andThen_eq_ok h
  exact hk a (hr a ha) b hb

end Run

namespace Expr

variable {t : Table}

theorem evalAll_inRange {room : Nat} {frame : List Value} :
    ∀ {args : List Expr}, (∀ a ∈ args, (a.eval t room frame).Yields Value.InRange) →
      (evalAll t room frame args).Yields fun vs => ∀ v ∈ vs, v.InRange
  | [], _ => by
    rw [evalAll_nil]
    exact Run.yields_pure (by simp)
  | a :: rest, hargs => by
    rw [evalAll_cons]
    refine (hargs a List.mem_cons_self).andThen fun v hv => ?_
    refine (evalAll_inRange fun a ha => hargs a (List.mem_cons_of_mem _ ha)).andThen
      fun vs hvs => Run.yields_pure ?_
    intro w hw
    rcases List.mem_cons.mp hw with rfl | hw
    · exact hv
    · exact hvs w hw

theorem eval_cond_inRange {room k : Nat} {frame : List Value} {f : String}
    {args : List Expr} {b : Builtin} (hf : t.find? f = some ⟨k, .builtin b⟩) (hb : b.isLazy = true)
    (hparts : ∀ a ∈ args, (a.eval t room frame).Yields Value.InRange) :
    ((Expr.app f args).eval t (room + 2) frame).Yields Value.InRange := by
  rw [eval.eq_def]
  simp only [hf, hb, if_true]
  split
  · rename_i c x y rest
    refine (hparts c (by simp)).andThen fun v _ => ?_
    split
    · exact hparts x (by simp)
    · exact hparts y (by simp)
    · split
      · exact Run.yields_fail _
      · exact Run.yields_fail _
  · exact Run.yields_pure .unit

/-- Evaluating an expression whose literals are in range, against a table whose bodies
have literals in range and with a frame of values in range, gives a value in range. -/
theorem eval_inRange (ht : t.LitsInRange) :
    ∀ (room : Nat) (frame : List Value) (e : Expr), e.LitsInRange → (∀ v ∈ frame, v.InRange) →
      (e.eval t room frame).Yields Value.InRange := by
  intro room
  induction room using Nat.strongRecOn with
  | ind room ih =>
    intro frame e he hframe
    cases he with
    | arg i =>
      rcases room with _ | room
      · rw [eval_zero]
        exact Run.yields_fail _
      · rcases hi : frame[i]? with _ | v
        · rw [eval.eq_def]
          simp only [hi]
          split
          · exact Run.yields_fail _
          · exact Run.yields_fail _
        · rw [eval_arg t room i frame v hi]
          exact Run.yields_pure (hframe v (List.mem_of_getElem? hi))
    | lit hv =>
      rcases room with _ | room
      · rw [eval_zero]
        exact Run.yields_fail _
      · rw [eval_lit]
        exact Run.yields_pure hv
    | @app f args hargs =>
      match room with
      | 0 =>
        rw [eval_zero]
        exact Run.yields_fail _
      | 1 =>
        rw [eval_app_one]
        exact Run.yields_fail _
      | room + 2 =>
        have hargsIn := evalAll_inRange fun a ha => ih room (by omega) frame a (hargs a ha) hframe
        rcases hf : t.find? f with _ | ⟨k, body⟩
        · rw [eval.eq_def]
          simp only [hf]
          exact Run.yields_fail _
        · cases body with
          | user body =>
            rw [eval_user t room frame f args k body hf]
            exact hargsIn.andThen fun vs hvs => ih (room + 1) (by omega) vs body (ht hf) hvs
          | placeholder =>
            rw [eval_placeholder t room frame f args k hf]
            refine hargsIn.andThen fun _ _ => ?_
            split
            · exact Run.yields_fail _
            · exact Run.yields_fail _
          | builtin b =>
            cases hb : b.isLazy with
            | false =>
              rw [eval_eager t room frame f args k b hf hb]
              exact hargsIn.andThen fun vs hvs v h => Builtin.callWithin_inRange (room + 1) b hvs h
            | true =>
              exact eval_cond_inRange hf hb fun a ha => ih room (by omega) frame a (hargs a ha) hframe

end Expr

/-! ### The reader makes numbers in range -/

namespace Lexer

theorem word_number_le {w : List Char} {pos k : Nat} {tok : Token} (h : word w pos = .ok tok)
    (hk : tok.lexeme = .number k) : k ≤ maxNumber := by
  unfold word at h
  split at h
  · cases h
    cases hk
  · split_ifs at h with hq harrow hback hrest hdigit hnum hlimit hmax
    all_goals cases h
    all_goals cases hk
    omega

theorem Reads.number_le {src : List Char} {pos : Nat} {toks : List Token}
    (h : Reads src pos toks) : ∀ tok ∈ toks, ∀ k, tok.lexeme = .number k → k ≤ maxNumber := by
  induction h with
  | done => simp
  | blank _ _ _ ih => exact ih
  | comment _ _ _ _ ih => exact ih
  | text _ _ _ ih =>
    intro tok htok k hk
    rcases List.mem_cons.mp htok with rfl | htok
    · cases hk
    · exact ih tok htok k hk
  | word _ _ _ _ hw _ ih =>
    intro tok htok k hk
    rcases List.mem_cons.mp htok with rfl | htok
    · exact word_number_le hw hk
    · exact ih tok htok k hk

/-- Every number the reader makes is at most 2^64 - 1. -/
theorem scan_number_le {source : String} {toks : List Token} (h : Token.scan source = .ok toks) :
    ∀ tok ∈ toks, ∀ k, tok.lexeme = .number k → k ≤ maxNumber :=
  (reads_of_scanFrom source.toList _ 0 toks rfl (by simpa [Token.scan] using h)).number_le

end Lexer

/-- Every number lexeme among the tokens is at most 2^64 - 1. -/
def Token.NumbersInRange (ts : List Token) : Prop :=
  ∀ k, Lexeme.number k ∈ ts.map Token.lexeme → k ≤ maxNumber

theorem Token.numbersInRange_of_scan {source : String} {ts : List Token}
    (h : Token.scan source = .ok ts) : Token.NumbersInRange ts := by
  intro k hk
  obtain ⟨tok, htok, hlex⟩ := List.mem_map.mp hk
  exact Lexer.scan_number_le h tok htok k hlex

namespace Expr

theorem mem_tokensAll {ps : List String} {l : Lexeme} :
    ∀ {args : List Expr} {a : Expr}, a ∈ args → l ∈ a.tokens ps → l ∈ tokensAll ps args
  | b :: rest, a, ha, hl => by
    rw [tokensAll_cons, List.mem_append]
    rcases List.mem_cons.mp ha with rfl | ha
    · exact .inl hl
    · exact .inr (mem_tokensAll ha hl)

theorem WellFormed.litsInRange {t : Table} {ps : List String} {e : Expr} (h : e.WellFormed t ps)
    (hn : ∀ k, Lexeme.number k ∈ e.tokens ps → k ≤ maxNumber) : e.LitsInRange := by
  induction h with
  | arg _ => exact .arg _
  | num k => exact .lit (Value.inRange_natCast (hn k (by simp)))
  | text s => exact .lit (.text s)
  | app _ _ _ _ ih =>
    refine .app fun a ha => ih a ha fun k hk => hn k ?_
    rw [tokens_app]
    exact List.mem_cons_of_mem _ (mem_tokensAll ha hk)

end Expr

theorem Parse.expr_litsInRange {t : Table} {ps : List String} {room : Nat} {ts rest : List Token}
    {e : Expr} (hn : Token.NumbersInRange ts) (h : Parse.expr t ps room ts = .ok (e, rest)) :
    e.LitsInRange := by
  obtain ⟨⟨pre, rfl, hpre⟩, hwf, -⟩ := Parse.expr_sound h
  refine hwf.litsInRange fun k hk => hn k ?_
  rw [List.map_append, hpre]
  exact List.mem_append_left _ hk

/-! ### Sessions keep literals in range -/

namespace Declaration

variable {t : Table}

theorem install_litsInRange {d : Declaration} (ht : t.LitsInRange) (hd : d.body.LitsInRange) :
    (install t d).LitsInRange := by
  intro n k e h
  rw [find?_install] at h
  by_cases hn : n = d.name
  · rw [if_pos hn] at h
    cases h
    exact hd
  · rw [if_neg hn] at h
    exact ht h

theorem foldl_install_litsInRange {ds : List Declaration} (hc : Chain t ds) (ht : t.LitsInRange)
    (hn : ∀ k, Lexeme.number k ∈ (ds.map tokens).flatten → k ≤ maxNumber) :
    (ds.foldl install t).LitsInRange := by
  induction hc with
  | nil => exact ht
  | @cons t d ds hb _ ih =>
    -- the body's numbers are among the declaration's tokens, which come first
    have hbody : d.body.LitsInRange := hb.litsInRange fun k hk => hn k (by simp [tokens, hk])
    have hrest : ∀ k, Lexeme.number k ∈ (ds.map tokens).flatten → k ≤ maxNumber := by
      intro k hk
      refine hn k ?_
      rw [List.map_cons, List.flatten_cons]
      exact List.mem_append_right _ hk
    rw [List.foldl_cons]
    exact @ih (install_litsInRange ht hbody) hrest

end Declaration

namespace Session

variable {s : Session}

theorem foldl_install_of_scan {source : String} {ts : List Token} {ds : List Declaration}
    (ht : s.table.LitsInRange) (hs : Token.scan source = .ok ts)
    (hts : ts.map Token.lexeme = (ds.map Declaration.tokens).flatten)
    (hc : Declaration.Chain s.table ds) : (ds.foldl Declaration.install s.table).LitsInRange :=
  Declaration.foldl_install_litsInRange hc ht fun k hk =>
    Token.numbersInRange_of_scan hs k (hts ▸ hk)

/-- One request, whether it succeeds or fails, keeps the table's literals in range. -/
theorem serve_litsInRange {r : Request} (ht : s.table.LitsInRange) :
    (s.serve r).table.LitsInRange := by
  cases r with
  | load source origin =>
    show (s.load source origin).session.table.LitsInRange
    rcases hr : (s.load source origin).result with r | names
    · rw [load_error hr]
      exact ht
    · obtain ⟨ts, ds, hs, hts, hc, -, hsession⟩ := load_ok hr
      rw [hsession]
      exact foldl_install_of_scan ht hs hts hc
  | loadFile path =>
    show (s.loadFile path).session.table.LitsInRange
    rcases hr : (s.loadFile path).result with r | names
    · rw [loadFile_error hr]
      exact ht
    · obtain ⟨src, ts, ds, -, hs, hts, hc, -, hsession⟩ := loadFile_ok hr
      rw [hsession]
      exact foldl_install_of_scan ht hs hts hc
  | eval source =>
    show (s.eval source).session.table.LitsInRange
    rcases @eval_cases s source with hsame | ⟨ts, ds, hs, -, hts, hc, -, hsession⟩
    · rw [hsame]
      exact ht
    · rw [hsession]
      exact foldl_install_of_scan ht hs hts hc
  | runMain =>
    show s.runMain.session.table.LitsInRange
    rw [runMain_session]
    exact ht

/-- Every run of requests keeps the table's literals in range. -/
theorem serveAll_litsInRange {rs : List Request} (ht : s.table.LitsInRange) :
    (s.serveAll rs).table.LitsInRange := by
  induction rs generalizing s with
  | nil => exact ht
  | cons r rs ih => exact ih (serve_litsInRange ht)

theorem line_expr_litsInRange {room : Nat} {t t' : Table} {ts : List Token} {e : Expr}
    (hn : Token.NumbersInRange ts) (h : (Parse.line room t ts).2 = .ok (.expr e, t')) :
    e.LitsInRange := by
  cases ts with
  | nil => simp [Parse.line] at h
  | cons tok more =>
    by_cases hd : ∃ n, tok.lexeme = .decl n
    · obtain ⟨n, hn⟩ := hd
      rw [line_of_decl_head hn] at h
      rcases hr : (Parse.decls (room - 1) t (tok :: more)).result with f | ⟨names, t''⟩
      · simp [hr, Except.map] at h
      · simp [hr, Except.map] at h
    · obtain ⟨e', he', -, ⟨pre, hpre, hlex⟩, hwf, -⟩ :=
        (Parse.line_eq_ok_iff (fun n hn => hd ⟨n, hn⟩)).mp h
      cases he'
      rw [List.append_nil] at hpre
      subst hpre
      exact hwf.litsInRange fun k hk => hn k (hlex ▸ hk)

/-- An input line evaluated as an expression gives a value in range. -/
theorem eval_value_inRange {source : String} {v : Value} (ht : s.table.LitsInRange)
    (h : (s.eval source).result = .ok (some v)) : v.InRange := by
  unfold eval at h
  rcases hs : Token.scan source with f | ts
  · rw [hs] at h
    cases h
  · rw [hs] at h
    dsimp only at h
    rcases hline : Parse.line (s.stack.room - 1) s.table ts with ⟨notices, _ | ⟨line, t'⟩⟩
    · rw [hline] at h
      cases h
    · rw [hline] at h
      cases line with
      | empty => cases h
      | decls names => cases h
      | expr e =>
        have he := line_expr_litsInRange (Token.numbersInRange_of_scan hs) (by rw [hline])
        dsimp only at h
        rcases hv : (e.eval s.table s.stack.room []).result with f | w
        · rw [hv] at h
          cases h
        · rw [hv] at h
          cases h
          exact Expr.eval_inRange ht _ [] e he (by simp) v hv

theorem runMain_inRange {v : Value} (ht : s.table.LitsInRange) (h : s.runMain.result = .ok v) :
    v.InRange := by
  unfold runMain at h
  split at h
  · cases h
  · rename_i body hbody
    dsimp only at h
    rcases hv : (body.eval s.table s.stack.room []).result with f | w
    · rw [hv] at h
      cases h
    · rw [hv] at h
      cases h
      exact Expr.eval_inRange ht _ [] body (ht (find?_of_mainBody? hbody)) (by simp) v hv

end Session

/-! ### Main statement -/

/-- Numbers stay in the unsigned 64-bit range. On numbers in `[0, 2^64 - 1]`, `+`, `-`
and `*` give the exact result when it lies in the range and otherwise fail with an
overflow error of the arithmetic family, `/` and `%` round down and refuse a zero divisor,
and `<`, `>` and `=` compare. A fresh table has no literal out of range, and no request
of a session brings one in; every expression the reader makes has its literals in range;
and evaluating such an expression against such a table, with a frame of values in
range, gives a value with every number inside it in range, as do input lines and
`main`. -/
theorem numbers_stay_in_range :
    (∀ a b : Nat, a ≤ maxNumber → b ≤ maxNumber →
      Builtin.add.apply [.num a, .num b] =
        (if a + b ≤ maxNumber then .ok (.num ↑(a + b)) else .error (.overflow .add)) ∧
      Builtin.sub.apply [.num a, .num b] =
        (if b ≤ a then .ok (.num ↑(a - b)) else .error (.overflow .subtract)) ∧
      Builtin.mul.apply [.num a, .num b] =
        (if a * b ≤ maxNumber then .ok (.num ↑(a * b)) else .error (.overflow .multiply)) ∧
      Builtin.div.apply [.num a, .num b] =
        (if b = 0 then .error .divisionByZero else .ok (.num ↑(a / b))) ∧
      Builtin.mod.apply [.num a, .num b] =
        (if b = 0 then .error .remainderByZero else .ok (.num ↑(a % b))) ∧
      Builtin.lt.apply [.num a, .num b] = .ok (.bool (decide (a < b))) ∧
      Builtin.gt.apply [.num a, .num b] = .ok (.bool (decide (a > b))) ∧
      Builtin.eq.apply [.num a, .num b] = .ok (.bool (decide (a = b)))) ∧
    (Error.overflow .add).message = "attempt to add with overflow" ∧
    (Error.overflow .subtract).message = "attempt to subtract with overflow" ∧
    (Error.overflow .multiply).message = "attempt to multiply with overflow" ∧
    Error.divisionByZero.message = "attempt to divide by zero" ∧
    Error.remainderByZero.message = "attempt to calculate the remainder with a divisor of zero" ∧
    (∀ op, (Error.overflow op).errorClass = .arithmetic) ∧
    Error.divisionByZero.errorClass = .arithmetic ∧ Error.remainderByZero.errorClass = .arithmetic ∧
    Table.initial.LitsInRange ∧
    (∀ (s : Session) (rs : List Session.Request), s.table.LitsInRange →
      (s.serveAll rs).table.LitsInRange) ∧
    (∀ (t : Table) (ps : List String) (room : Nat) (source : String) (ts rest : List Token)
      (e : Expr), Token.scan source = .ok ts → Parse.expr t ps room ts = .ok (e, rest) →
      e.LitsInRange) ∧
    (∀ (t : Table) (room : Nat) (frame : List Value) (e : Expr) (v : Value), t.LitsInRange →
      e.LitsInRange → (∀ x ∈ frame, x.InRange) → (e.eval t room frame).result = .ok v →
      v.InRange) ∧
    (∀ (s : Session) (source : String) (v : Value), s.table.LitsInRange →
      (s.eval source).result = .ok (some v) → v.InRange) ∧
    (∀ (s : Session) (v : Value), s.table.LitsInRange → s.runMain.result = .ok v → v.InRange) := by
  refine ⟨fun a b ha _ => Builtin.apply_natCast ha, rfl, rfl, rfl, rfl, rfl, fun _ => rfl, rfl,
    rfl, ?_, fun _ _ ht => Session.serveAll_litsInRange ht, ?_, ?_,
    fun _ _ _ ht h => Session.eval_value_inRange ht h, fun _ _ ht h => Session.runMain_inRange ht h⟩
  · intro n k e h
    obtain ⟨b, hb⟩ := Table.find?_initial h
    cases hb
  · intro t ps room source ts rest e hs h
    exact Parse.expr_litsInRange (Token.numbersInRange_of_scan hs) h
  · intro t room frame e v ht he hframe h
    exact Expr.eval_inRange ht room frame e he hframe v h

end Parenless
