import Parenless.Session
/-!
The prefix grammar of expressions.

Reading has no brackets to go by: a name that is not a parameter is followed by as
many expressions as the table says its function takes. So the grammar is fixed by a
table and a parameter list, and an expression of it has one printed form, the prefix
token sequence `Expr.tokens`: a parameter reference prints the parameter's name, a
literal its token, and a call the callee's name and then each argument in turn.
`Expr.WellFormed` says which trees the grammar derives: references to the first
position of a parameter name, number and text literals, and calls of functions that
are not shadowed by a parameter, with as many arguments as the function takes.

Reading nests on the stack, and `Expr.readRoom` is the room reading a tree takes: three
frames for a leaf, four for a call, and two more than the deepest argument.

Main statement (`read_iff_spells`): reading gives `e` and leaves `rest` exactly when the
tokens spell `e` followed by `rest`, `e` is well formed, and `e` fits the room. From it,
a split of a token list into an expression and what follows is unique; a list that
spells a well-formed expression fails only for want of room; one that stops inside the
expression fails at its end; and a line that does not start with a declaration is one
expression over no parameters.
-/

namespace Parenless

namespace Expr

/-! ### The printed form of an expression -/

mutual

/-- The tokens that print an expression, over the parameter names `ps`. -/
def tokens (ps : List String) : Expr → List Lexeme
  | .arg i => [.name (ps.getD i "")]
  | .lit (.num n) => [.number n.toNat]
  | .lit (.text s) => [.text s]
  | .lit _ => []
  | .app f args => .name f :: tokensAll ps args

/-- The tokens of a list of expressions, one after another. -/
def tokensAll (ps : List String) : List Expr → List Lexeme
  | [] => []
  | a :: as => tokens ps a ++ tokensAll ps as

end

@[simp] theorem tokens_num (ps : List String) (k : Nat) :
    (Expr.lit (.num k)).tokens ps = [.number k] := by
  simp [tokens]

@[simp] theorem tokens_text (ps : List String) (s : String) :
    (Expr.lit (.text s)).tokens ps = [.text s] := by
  simp [tokens]

@[simp] theorem tokens_app (ps : List String) (f : String) (args : List Expr) :
    (Expr.app f args).tokens ps = .name f :: tokensAll ps args := by
  simp [tokens]

@[simp] theorem tokensAll_nil (ps : List String) : tokensAll ps [] = [] := by
  simp [tokensAll]

@[simp] theorem tokensAll_cons (ps : List String) (a : Expr) (as : List Expr) :
    tokensAll ps (a :: as) = a.tokens ps ++ tokensAll ps as := by
  simp [tokensAll]

/-! ### Well-formed expressions -/

/-- The trees the grammar of the table `t` and the parameters `ps` derives. -/
inductive WellFormed (t : Table) (ps : List String) : Expr → Prop
  /-- A reference to the first position a parameter name has. -/
  | arg {n : String} {i : Nat} : ps.idxOf? n = some i → WellFormed t ps (.arg i)
  | num (k : Nat) : WellFormed t ps (.lit (.num k))
  | text (s : String) : WellFormed t ps (.lit (.text s))
  /-- A call of a function no parameter shadows, with as many arguments as it takes. -/
  | app {f : String} {fn : Fn} {args : List Expr} : f ∉ ps → t.find? f = some fn →
      fn.arity = args.length → (∀ a ∈ args, WellFormed t ps a) → WellFormed t ps (.app f args)

theorem tokens_arg {ps : List String} {n : String} {i : Nat} (h : ps.idxOf? n = some i) :
    (Expr.arg i).tokens ps = [.name n] := by
  obtain ⟨hi, hn, -⟩ := List.idxOf?_eq_some_iff.mp h
  simp [tokens, List.getD_eq_getElem?_getD, List.getElem?_eq_getElem hi, hn]

/-! ### The room reading takes -/

mutual

/-- The frames of stack reading an expression takes, its own included. -/
def readRoom : Expr → Nat
  | .app _ args => max 4 (2 + readRoomAll args)
  | _ => 3

/-- The room the most demanding of a list of expressions takes. -/
def readRoomAll : List Expr → Nat
  | [] => 0
  | a :: as => max a.readRoom (readRoomAll as)

end

@[simp] theorem readRoom_app (f : String) (args : List Expr) :
    (Expr.app f args).readRoom = max 4 (2 + readRoomAll args) := by
  simp [readRoom]

theorem readRoomAll_le_iff {args : List Expr} {k : Nat} :
    readRoomAll args ≤ k ↔ ∀ a ∈ args, a.readRoom ≤ k := by
  induction args with
  | nil => simp [readRoomAll]
  | cons a as ih => simp only [readRoomAll, Nat.max_le, ih, List.mem_cons, forall_eq_or_imp]

end Expr

namespace Parse

/-! ### Tokens that spell a printed form -/

/-- `ts` begins with tokens whose lexemes are `ls`, and `rest` follows them. -/
def Spells (ts : List Token) (ls : List Lexeme) (rest : List Token) : Prop :=
  ∃ pre, ts = pre ++ rest ∧ pre.map Token.lexeme = ls

theorem spells_nil (ts : List Token) : Spells ts [] ts := ⟨[], rfl, rfl⟩

theorem spells_cons {tok : Token} {ts rest : List Token} {l : Lexeme} {ls : List Lexeme} :
    Spells (tok :: ts) (l :: ls) rest ↔ tok.lexeme = l ∧ Spells ts ls rest := by
  constructor
  · rintro ⟨pre, hts, hpre⟩
    cases pre with
    | nil => simp at hpre
    | cons p pre =>
      simp only [List.cons_append, List.cons.injEq, List.map_cons] at hts hpre
      obtain ⟨rfl, rfl⟩ := hts
      exact ⟨hpre.1, pre, rfl, hpre.2⟩
  · rintro ⟨hl, pre, rfl, hpre⟩
    exact ⟨tok :: pre, rfl, by simp [hl, hpre]⟩

theorem spells_cons_inv {ts rest : List Token} {l : Lexeme} {ls : List Lexeme}
    (h : Spells ts (l :: ls) rest) :
    ∃ tok more, ts = tok :: more ∧ tok.lexeme = l ∧ Spells more ls rest := by
  cases ts with
  | nil =>
    obtain ⟨pre, hts, hpre⟩ := h
    cases pre <;> simp_all
  | cons tok more => exact ⟨tok, more, rfl, spells_cons.mp h⟩

theorem Spells.append {ts mid rest : List Token} {l₁ l₂ : List Lexeme}
    (h₁ : Spells ts l₁ mid) (h₂ : Spells mid l₂ rest) : Spells ts (l₁ ++ l₂) rest := by
  obtain ⟨p₁, rfl, rfl⟩ := h₁
  obtain ⟨p₂, rfl, rfl⟩ := h₂
  exact ⟨p₁ ++ p₂, by simp, by simp⟩

theorem Spells.split {ts rest : List Token} {l₁ l₂ : List Lexeme}
    (h : Spells ts (l₁ ++ l₂) rest) : ∃ mid, Spells ts l₁ mid ∧ Spells mid l₂ rest := by
  obtain ⟨pre, rfl, hpre⟩ := h
  obtain ⟨p₁, p₂, rfl, rfl, rfl⟩ := List.map_eq_append_iff.mp hpre
  exact ⟨p₂ ++ rest, ⟨p₁, by simp, rfl⟩, ⟨p₂, rfl, rfl⟩⟩

theorem spells_nil_iff {ts rest : List Token} : Spells ts [] rest ↔ ts = rest := by
  constructor
  · rintro ⟨pre, rfl, hpre⟩
    simp [List.map_eq_nil_iff.mp hpre]
  · rintro rfl
    exact spells_nil ts

/-! ### Reading step by step -/

variable {t : Table} {ps : List String}

theorem expr_of_lt_three {room : Nat} (ts : List Token) (h : room < 3) :
    expr t ps room ts = .error .tooDeep := by
  match room, h with
  | 0, _ | 1, _ | 2, _ => rw [expr.eq_def]

theorem expr_nil (r : Nat) : expr t ps (r + 3) [] = .error (.error .expectedExpr) := by
  rw [expr.eq_def]

theorem expr_param (r : Nat) {tok : Token} (more : List Token) {n : String} {i : Nat}
    (hn : tok.lexeme = .name n) (hi : ps.idxOf? n = some i) :
    expr t ps (r + 3) (tok :: more) = .ok (.arg i, more) := by
  rw [expr.eq_def]
  simp [hn, hi]

theorem expr_number (r : Nat) {tok : Token} (more : List Token) {v : Nat}
    (hv : tok.lexeme = .number v) : expr t ps (r + 3) (tok :: more) = .ok (.lit (.num v), more) := by
  rw [expr.eq_def]
  simp [hv]

theorem expr_text (r : Nat) {tok : Token} (more : List Token) {s : String}
    (hs : tok.lexeme = .text s) : expr t ps (r + 3) (tok :: more) = .ok (.lit (.text s), more) := by
  rw [expr.eq_def]
  simp [hs]

theorem expr_call_three {tok : Token} (more : List Token) {n : String} {f : Fn}
    (hn : tok.lexeme = .name n) (hi : ps.idxOf? n = none) (hf : t.find? n = some f) :
    expr t ps 3 (tok :: more) = .error .tooDeep := by
  rw [expr.eq_def]
  simp [hn, hi, hf]

theorem expr_call_ok (r : Nat) {tok : Token} {more after : List Token} {n : String} {f : Fn}
    {args : List Expr} (hn : tok.lexeme = .name n) (hi : ps.idxOf? n = none)
    (hf : t.find? n = some f) (hargs : exprs t ps (r + 2) f.arity more = .ok (args, after)) :
    expr t ps (r + 4) (tok :: more) = .ok (.app n args, after) := by
  rw [expr.eq_def]
  simp only [hn, hi, hf, Nat.succ_ne_zero, if_false]
  rw [hargs]

theorem expr_call_error (r : Nat) {tok : Token} {more : List Token} {n : String} {f : Fn}
    {err : Failure} (hn : tok.lexeme = .name n) (hi : ps.idxOf? n = none)
    (hf : t.find? n = some f) (hargs : exprs t ps (r + 2) f.arity more = .error err) :
    expr t ps (r + 4) (tok :: more) = .error err := by
  rw [expr.eq_def]
  simp only [hn, hi, hf, Nat.succ_ne_zero, if_false]
  rw [hargs]

theorem exprs_zero (r : Nat) (ts : List Token) : exprs t ps r 0 ts = .ok ([], ts) := by
  rw [exprs.eq_def]

theorem exprs_succ_ok {r count : Nat} {ts after rest : List Token} {e : Expr}
    {es : List Expr} (he : expr t ps r ts = .ok (e, after))
    (hes : exprs t ps r count after = .ok (es, rest)) :
    exprs t ps r (count + 1) ts = .ok (e :: es, rest) := by
  rw [exprs.eq_def]
  simp only [he, hes]

theorem exprs_succ_error_tail {r count : Nat} {ts after : List Token} {e : Expr} {err : Failure}
    (he : expr t ps r ts = .ok (e, after)) (hes : exprs t ps r count after = .error err) :
    exprs t ps r (count + 1) ts = .error err := by
  rw [exprs.eq_def]
  simp only [he, hes]

theorem exprs_succ_error_head {r count : Nat} {ts : List Token} {err : Failure}
    (he : expr t ps r ts = .error err) : exprs t ps r (count + 1) ts = .error err := by
  rw [exprs.eq_def]
  simp only [he]

/-- What a successful read of one expression can be. -/
theorem expr_eq_ok_cases {room : Nat} {ts rest : List Token} {e : Expr}
    (h : expr t ps room ts = .ok (e, rest)) :
    ∃ r tok more, room = r + 3 ∧ ts = tok :: more ∧
      ((∃ n i, tok.lexeme = .name n ∧ ps.idxOf? n = some i ∧ e = .arg i ∧ rest = more) ∨
       (∃ v : Nat, tok.lexeme = .number v ∧ e = .lit (.num v) ∧ rest = more) ∨
       (∃ s, tok.lexeme = .text s ∧ e = .lit (.text s) ∧ rest = more) ∨
       (∃ n f args, tok.lexeme = .name n ∧ ps.idxOf? n = none ∧ t.find? n = some f ∧ r ≠ 0 ∧
          exprs t ps (r + 1) f.arity more = .ok (args, rest) ∧ e = .app n args)) := by
  rw [expr.eq_def] at h
  split at h
  · simp at h
  · simp at h
  · simp at h
  · simp at h
  · rename_i r tok more
    refine ⟨r, tok, more, rfl, rfl, ?_⟩
    split at h
    · rename_i n hn
      split at h
      · rename_i i hi
        simp only [Except.ok.injEq, Prod.mk.injEq] at h
        exact .inl ⟨n, i, hn, hi, h.1.symm, h.2.symm⟩
      · rename_i hi
        split at h
        · split at h <;> simp at h
        · rename_i f hf
          split at h
          · simp at h
          · rename_i hr
            split at h
            · rename_i args after hargs
              simp only [Except.ok.injEq, Prod.mk.injEq] at h
              obtain ⟨rfl, rfl⟩ := h
              exact .inr (.inr (.inr ⟨n, f, args, hn, hi, hf, hr, hargs, rfl⟩))
            · simp at h
    · rename_i v hv
      simp only [Except.ok.injEq, Prod.mk.injEq] at h
      exact .inr (.inl ⟨v, hv, h.1.symm, h.2.symm⟩)
    · rename_i s hs
      simp only [Except.ok.injEq, Prod.mk.injEq] at h
      exact .inr (.inr (.inl ⟨s, hs, h.1.symm, h.2.symm⟩))
    · simp at h

theorem exprs_succ_eq_ok {r count : Nat} {ts rest : List Token} {es : List Expr}
    (h : exprs t ps r (count + 1) ts = .ok (es, rest)) :
    ∃ e after es', expr t ps r ts = .ok (e, after) ∧
      exprs t ps r count after = .ok (es', rest) ∧ es = e :: es' := by
  rcases he : expr t ps r ts with err | ⟨e, after⟩
  · rw [exprs_succ_error_head he] at h
    cases h
  rcases hes : exprs t ps r count after with err | ⟨es', rest'⟩
  · rw [exprs_succ_error_tail he hes] at h
    cases h
  rw [exprs_succ_ok he hes] at h
  obtain ⟨rfl, rfl⟩ := Prod.mk.inj (Except.ok.inj h)
  exact ⟨e, after, es', rfl, hes, rfl⟩

/-! ### What is read is printed

Soundness is by induction on the room: a call reads its arguments two frames further
up, and the loop over the arguments by induction on their count.
-/

theorem exprs_sound_of {r : Nat}
    (hexpr : ∀ {ts e rest}, expr t ps r ts = .ok (e, rest) →
      Spells ts (e.tokens ps) rest ∧ e.WellFormed t ps ∧ e.readRoom ≤ r) :
    ∀ {count ts es rest}, exprs t ps r count ts = .ok (es, rest) →
      Spells ts (Expr.tokensAll ps es) rest ∧ es.length = count ∧
        ∀ a ∈ es, a.WellFormed t ps ∧ a.readRoom ≤ r := by
  intro count
  induction count with
  | zero =>
    intro ts es rest h
    rw [exprs_zero] at h
    obtain ⟨rfl, rfl⟩ := Prod.mk.inj (Except.ok.inj h)
    exact ⟨spells_nil ts, rfl, by simp⟩
  | succ count ih =>
    intro ts es rest h
    obtain ⟨e, after, es', he, hes, rfl⟩ := exprs_succ_eq_ok h
    obtain ⟨hsp, hwf, hroom⟩ := hexpr he
    obtain ⟨hsp', hlen, hall⟩ := ih hes
    refine ⟨by simpa using hsp.append hsp', by simp [hlen], ?_⟩
    intro a ha
    rcases List.mem_cons.mp ha with rfl | ha
    · exact ⟨hwf, hroom⟩
    · exact hall a ha

theorem expr_sound : ∀ {room ts e rest}, expr t ps room ts = .ok (e, rest) →
    Spells ts (e.tokens ps) rest ∧ e.WellFormed t ps ∧ e.readRoom ≤ room := by
  intro room
  induction room using Nat.strongRecOn with
  | ind room ih =>
    intro ts e rest h
    obtain ⟨r, tok, more, rfl, rfl, hcase⟩ := expr_eq_ok_cases h
    rcases hcase with ⟨n, i, hn, hi, rfl, rfl⟩ | ⟨v, hv, rfl, rfl⟩ | ⟨s, hs, rfl, rfl⟩ |
      ⟨n, f, args, hn, hi, hf, hr, hargs, rfl⟩
    · refine ⟨?_, .arg hi, by simp [Expr.readRoom]⟩
      rw [Expr.tokens_arg hi]
      exact spells_cons.mpr ⟨hn, spells_nil _⟩
    · exact ⟨spells_cons.mpr ⟨by simpa using hv, spells_nil _⟩, .num v,
        by simp [Expr.readRoom]⟩
    · exact ⟨spells_cons.mpr ⟨hs, spells_nil _⟩, .text s, by simp [Expr.readRoom]⟩
    · obtain ⟨hsp, hlen, hall⟩ :=
        exprs_sound_of (fun h => ih (r + 1) (by omega) h) hargs
      have hmax : Expr.readRoomAll args ≤ r + 1 :=
        Expr.readRoomAll_le_iff.mpr fun a ha => (hall a ha).2
      refine ⟨by simpa using spells_cons.mpr ⟨hn, hsp⟩, ?_, by simp only [Expr.readRoom_app]; omega⟩
      exact .app (List.idxOf?_eq_none_iff.mp hi) hf hlen.symm fun a ha => (hall a ha).1

/-! ### What is printed is read

Completeness is by induction on the derivation of well-formedness; a call's arguments
are read one after another, by induction on the list of them.
-/

theorem exprs_complete_of {r : Nat} :
    ∀ {args : List Expr}, (∀ a ∈ args, ∀ {ts rest}, a.readRoom ≤ r →
        Spells ts (a.tokens ps) rest → expr t ps r ts = .ok (a, rest)) →
      (∀ a ∈ args, a.readRoom ≤ r) →
      ∀ {ts rest}, Spells ts (Expr.tokensAll ps args) rest →
        exprs t ps r args.length ts = .ok (args, rest) := by
  intro args
  induction args with
  | nil =>
    intro _ _ ts rest hsp
    rw [spells_nil_iff.mp hsp]
    exact exprs_zero r rest
  | cons a as ih =>
    intro hread hroom ts rest hsp
    obtain ⟨mid, hsa, hsas⟩ := Spells.split (by simpa using hsp)
    have ha := hread a (by simp) (hroom a (by simp)) hsa
    have has := ih (fun b hb => hread b (by simp [hb])) (fun b hb => hroom b (by simp [hb])) hsas
    exact exprs_succ_ok ha has

theorem expr_complete {e : Expr} (hwf : e.WellFormed t ps) :
    ∀ {room ts rest}, e.readRoom ≤ room → Spells ts (e.tokens ps) rest →
      expr t ps room ts = .ok (e, rest) := by
  induction hwf with
  | arg hi =>
    intro room ts rest hroom hsp
    obtain ⟨r, rfl⟩ : ∃ r, room = r + 3 := ⟨room - 3, by simp [Expr.readRoom] at hroom; omega⟩
    rw [Expr.tokens_arg hi] at hsp
    obtain ⟨tok, more, rfl, hn, hmore⟩ := spells_cons_inv hsp
    rw [spells_nil_iff.mp hmore]
    exact expr_param r rest hn hi
  | num k =>
    intro room ts rest hroom hsp
    obtain ⟨r, rfl⟩ : ∃ r, room = r + 3 := ⟨room - 3, by simp [Expr.readRoom] at hroom; omega⟩
    obtain ⟨tok, more, rfl, hv, hmore⟩ := spells_cons_inv (by simpa using hsp)
    rw [spells_nil_iff.mp hmore]
    exact expr_number r rest hv
  | text s =>
    intro room ts rest hroom hsp
    obtain ⟨r, rfl⟩ : ∃ r, room = r + 3 := ⟨room - 3, by simp [Expr.readRoom] at hroom; omega⟩
    obtain ⟨tok, more, rfl, hs, hmore⟩ := spells_cons_inv (by simpa using hsp)
    rw [spells_nil_iff.mp hmore]
    exact expr_text r rest hs
  | @app f fn args hnot hf harity _ ih =>
    intro room ts rest hroom hsp
    simp only [Expr.readRoom_app, Nat.max_le] at hroom
    obtain ⟨r, rfl⟩ : ∃ r, room = r + 4 := ⟨room - 4, by omega⟩
    have hargs : ∀ a ∈ args, a.readRoom ≤ r + 2 :=
      Expr.readRoomAll_le_iff.mp (by omega)
    obtain ⟨tok, more, rfl, hn, hmore⟩ := spells_cons_inv (by simpa using hsp)
    have hread := exprs_complete_of (fun a ha => ih a ha) hargs hmore
    rw [← harity] at hread
    exact expr_call_ok r hn (List.idxOf?_eq_none_iff.mpr hnot) hf hread

theorem expr_eq_ok_iff {room : Nat} {ts rest : List Token} {e : Expr} :
    expr t ps room ts = .ok (e, rest) ↔
      Spells ts (e.tokens ps) rest ∧ e.WellFormed t ps ∧ e.readRoom ≤ room :=
  ⟨expr_sound, fun ⟨hsp, hwf, hroom⟩ => expr_complete hwf hroom hsp⟩

theorem spells_unique {ts rest₁ rest₂ : List Token} {e₁ e₂ : Expr}
    (h₁ : Spells ts (e₁.tokens ps) rest₁) (h₂ : Spells ts (e₂.tokens ps) rest₂)
    (hw₁ : e₁.WellFormed t ps) (hw₂ : e₂.WellFormed t ps) : e₁ = e₂ ∧ rest₁ = rest₂ := by
  have hr₁ := expr_complete hw₁ (Nat.le_max_left e₁.readRoom e₂.readRoom) h₁
  have hr₂ := expr_complete hw₂ (Nat.le_max_right e₁.readRoom e₂.readRoom) h₂
  rw [hr₁] at hr₂
  exact Prod.mk.inj (Except.ok.inj hr₂)

/-! ### Too little room, too few tokens -/

theorem exists_lt_readRoom {args : List Expr} {k : Nat} (h : k < Expr.readRoomAll args) :
    ∃ a ∈ args, k < a.readRoom := by
  have hnot : ¬ ∀ a ∈ args, a.readRoom ≤ k := fun hall =>
    Nat.not_le_of_lt h (Expr.readRoomAll_le_iff.mpr hall)
  simpa using hnot

theorem exprs_tooDeep_of {r : Nat} :
    ∀ {args : List Expr}, (∀ a ∈ args, a.WellFormed t ps) →
      (∀ a ∈ args, ∀ {ts rest}, r < a.readRoom → Spells ts (a.tokens ps) rest →
        expr t ps r ts = .error .tooDeep) →
      (∃ a ∈ args, r < a.readRoom) →
      ∀ {ts rest}, Spells ts (Expr.tokensAll ps args) rest →
        exprs t ps r args.length ts = .error .tooDeep := by
  intro args
  induction args with
  | nil => intro _ _ hex; simp at hex
  | cons a as ih =>
    intro hwf hdeep hex ts rest hsp
    obtain ⟨mid, hsa, hsas⟩ := Spells.split (by simpa using hsp)
    rw [List.length_cons]
    by_cases hfit : a.readRoom ≤ r
    · have hlater : ∃ b ∈ as, r < b.readRoom := by
        obtain ⟨b, hb, hlt⟩ := hex
        rcases List.mem_cons.mp hb with rfl | hb
        · omega
        · exact ⟨b, hb, hlt⟩
      exact exprs_succ_error_tail (expr_complete (hwf a (by simp)) hfit hsa)
        (ih (fun b hb => hwf b (by simp [hb])) (fun b hb => hdeep b (by simp [hb])) hlater hsas)
    · exact exprs_succ_error_head (hdeep a (by simp) (by omega) hsa)

/-- Tokens that spell a well-formed expression too deep for the room fail for want
of room, and for nothing else. -/
theorem expr_tooDeep {e : Expr} (hwf : e.WellFormed t ps) :
    ∀ {room ts rest}, room < e.readRoom → Spells ts (e.tokens ps) rest →
      expr t ps room ts = .error .tooDeep := by
  induction hwf with
  | arg _ =>
    intro room ts rest hroom _
    exact expr_of_lt_three ts (by simpa [Expr.readRoom] using hroom)
  | num _ =>
    intro room ts rest hroom _
    exact expr_of_lt_three ts (by simpa [Expr.readRoom] using hroom)
  | text _ =>
    intro room ts rest hroom _
    exact expr_of_lt_three ts (by simpa [Expr.readRoom] using hroom)
  | @app f fn args hnot hf harity hwfs ih =>
    intro room ts rest hroom hsp
    obtain ⟨tok, more, rfl, hn, hmore⟩ := spells_cons_inv (by simpa using hsp)
    have hi : ps.idxOf? f = none := List.idxOf?_eq_none_iff.mpr hnot
    -- below four frames the call itself does not fit; above, one argument does not
    rcases Nat.lt_or_ge room 3 with h3 | h3
    · exact expr_of_lt_three _ h3
    rcases Nat.eq_or_lt_of_le h3 with rfl | h4
    · exact expr_call_three more hn hi hf
    obtain ⟨r, rfl⟩ : ∃ r, room = r + 4 := ⟨room - 4, by omega⟩
    simp only [Expr.readRoom_app] at hroom
    have hex := exists_lt_readRoom (show r + 2 < Expr.readRoomAll args by omega)
    have hread := exprs_tooDeep_of hwfs (fun a ha => ih a ha) hex hmore
    rw [← harity] at hread
    exact expr_call_error r hn hi hf hread

theorem exprs_of_truncated {r : Nat} :
    ∀ {args : List Expr}, (∀ a ∈ args, a.WellFormed t ps ∧ a.readRoom ≤ r) →
      (∀ a ∈ args, ∀ {ts : List Token} {more : List Lexeme},
        ts.map Token.lexeme ++ more = a.tokens ps → more ≠ [] →
        expr t ps r ts = .error (.error .expectedExpr)) →
      ∀ {ts : List Token} {more : List Lexeme},
        ts.map Token.lexeme ++ more = Expr.tokensAll ps args → more ≠ [] →
        exprs t ps r args.length ts = .error (.error .expectedExpr) := by
  intro args
  induction args with
  | nil => intro _ _ ts more h hmore; simp_all
  | cons a as ih =>
    intro hall heof ts more h hmore
    rw [List.length_cons]
    have hafter : ∀ c, ts.map Token.lexeme = a.tokens ps ++ c →
        Expr.tokensAll ps as = c ++ more →
        exprs t ps r (as.length + 1) ts = .error (.error .expectedExpr) := by
      intro c hts hc
      obtain ⟨p₁, p₂, rfl, hp₁, hp₂⟩ := List.map_eq_append_iff.mp hts
      exact exprs_succ_error_tail
        (expr_complete (hall a (by simp)).1 (hall a (by simp)).2 ⟨p₁, rfl, hp₁⟩)
        (ih (fun b hb => hall b (by simp [hb])) (fun b hb => heof b (by simp [hb]))
          (by rw [hp₂, hc]) hmore)
    rcases List.append_eq_append_iff.mp (by simpa using h) with ⟨c, hc, hmore'⟩ | ⟨c, hts, hc⟩
    · by_cases hc0 : c = []
      · subst hc0
        exact hafter [] (by simpa using hc.symm) (by simpa using hmore'.symm)
      · exact exprs_succ_error_head (heof a (by simp) hc.symm hc0)
    · exact hafter c hts hc

/-- Tokens that stop inside a well-formed expression that fits the room fail at
their end. -/
theorem expr_of_truncated {e : Expr} (hwf : e.WellFormed t ps) :
    ∀ {room ts} {more : List Lexeme}, e.readRoom ≤ room →
      ts.map Token.lexeme ++ more = e.tokens ps → more ≠ [] →
      expr t ps room ts = .error (.error .expectedExpr) := by
  -- a leaf is one token, so only the empty list stops inside it
  have hleaf : ∀ {room : Nat} {ts : List Token} {l : Lexeme} {more : List Lexeme},
      3 ≤ room → ts.map Token.lexeme ++ more = [l] → more ≠ [] →
      expr t ps room ts = .error (.error .expectedExpr) := by
    intro room ts l more hroom h hmore
    obtain ⟨r, rfl⟩ : ∃ r, room = r + 3 := ⟨room - 3, by omega⟩
    cases ts with
    | nil => exact expr_nil r
    | cons tok ts => simp at h; simp_all
  induction hwf with
  | arg hi =>
    intro room ts more hroom h hmore
    exact hleaf (by simpa [Expr.readRoom] using hroom) (h.trans (Expr.tokens_arg hi)) hmore
  | num k =>
    intro room ts more hroom h hmore
    exact hleaf (by simpa [Expr.readRoom] using hroom) (h.trans (Expr.tokens_num ps k)) hmore
  | text s =>
    intro room ts more hroom h hmore
    exact hleaf (by simpa [Expr.readRoom] using hroom) (h.trans (Expr.tokens_text ps s)) hmore
  | @app f fn args hnot hf harity hwfs ih =>
    intro room ts more hroom h hmore
    simp only [Expr.readRoom_app, Nat.max_le] at hroom
    obtain ⟨r, rfl⟩ : ∃ r, room = r + 4 := ⟨room - 4, by omega⟩
    cases ts with
    | nil => exact expr_nil (r + 1)
    | cons tok ts =>
      simp only [List.map_cons, List.cons_append, Expr.tokens_app, List.cons.injEq] at h
      have hall : ∀ a ∈ args, a.WellFormed t ps ∧ a.readRoom ≤ r + 2 :=
        fun a ha => ⟨hwfs a ha, Expr.readRoomAll_le_iff.mp (by omega) a ha⟩
      have hread := exprs_of_truncated hall (fun a ha => ih a ha (hall a ha).2) h.2 hmore
      rw [← harity] at hread
      exact expr_call_error r h.1 (List.idxOf?_eq_none_iff.mpr hnot) hf hread

/-! ### Input lines that are expressions -/

section Line

variable {room : Nat} {tok : Token} {more : List Token}

theorem line_of_expr_ok (h : ∀ n, tok.lexeme ≠ .decl n) {e : Expr}
    (hx : expr t [] room (tok :: more) = .ok (e, [])) :
    line room t (tok :: more) = ([], .ok (.expr e, t)) := by
  rw [line.eq_2, hx]
  split
  · rename_i n hn; exact absurd hn (h n)
  · rfl

theorem line_of_expr_trailing (h : ∀ n, tok.lexeme ≠ .decl n) {e : Expr} {extra : Token}
    {rest : List Token} (hx : expr t [] room (tok :: more) = .ok (e, extra :: rest)) :
    line room t (tok :: more) = ([], .error (.error (.trailingToken extra.kind extra.span))) := by
  rw [line.eq_2, hx]
  split
  · rename_i n hn; exact absurd hn (h n)
  · rfl

theorem line_of_expr_error (h : ∀ n, tok.lexeme ≠ .decl n) {err : Failure}
    (hx : expr t [] room (tok :: more) = .error err) :
    line room t (tok :: more) = ([], .error err) := by
  rw [line.eq_2, hx]
  split
  · rename_i n hn; exact absurd hn (h n)
  · rfl

theorem line_eq_ok_iff (h : ∀ n, tok.lexeme ≠ .decl n) {l : Line} {t' : Table} :
    (line room t (tok :: more)).2 = .ok (l, t') ↔
      ∃ e, l = .expr e ∧ t' = t ∧ Spells (tok :: more) (e.tokens []) [] ∧
        e.WellFormed t [] ∧ e.readRoom ≤ room := by
  constructor
  · intro hl
    rcases hx : expr t [] room (tok :: more) with err | ⟨e, _ | ⟨extra, rest⟩⟩
    · rw [line_of_expr_error h hx] at hl
      cases hl
    · rw [line_of_expr_ok h hx] at hl
      obtain ⟨rfl, rfl⟩ := Prod.mk.inj (Except.ok.inj hl)
      exact ⟨e, rfl, rfl, expr_sound hx⟩
    · rw [line_of_expr_trailing h hx] at hl
      cases hl
  · rintro ⟨e, rfl, rfl, hread⟩
    rw [line_of_expr_ok h (expr_eq_ok_iff.mpr hread)]

theorem line_trailing (h : ∀ n, tok.lexeme ≠ .decl n) {e : Expr} {extra : Token}
    {rest : List Token} (hsp : Spells (tok :: more) (e.tokens []) (extra :: rest))
    (hwf : e.WellFormed t []) (hroom : e.readRoom ≤ room) :
    (line room t (tok :: more)).2 = .error (.error (.trailingToken extra.kind extra.span)) := by
  rw [line_of_expr_trailing h (expr_complete hwf hroom hsp)]

end Line

/-! ### Main statement -/

/-- Reading an expression against a table and parameter names accepts exactly the
prefix grammar within the room: it gives `e` and leaves `rest` if and only if the
tokens spell `e` and then `rest`, `e` is well formed and fits. Such a split is unique.
Tokens that spell a well-formed expression too deep for the room fail for want of
room; tokens that stop inside one that fits fail with `expected expression, found
<eof>`, which blames no span. A line whose first token is not a declaration reads one
expression over no parameters, keeps the table, and blames the first token left
over. -/
theorem expr_reads_prefix_grammar (t : Table) (ps : List String) :
    (∀ (room : Nat) (ts rest : List Token) (e : Expr), expr t ps room ts = .ok (e, rest) ↔
        Spells ts (e.tokens ps) rest ∧ e.WellFormed t ps ∧ e.readRoom ≤ room) ∧
    (∀ (ts rest₁ rest₂ : List Token) (e₁ e₂ : Expr), Spells ts (e₁.tokens ps) rest₁ →
        Spells ts (e₂.tokens ps) rest₂ → e₁.WellFormed t ps → e₂.WellFormed t ps →
        e₁ = e₂ ∧ rest₁ = rest₂) ∧
    (∀ (room : Nat) (ts rest : List Token) (e : Expr), Spells ts (e.tokens ps) rest →
        e.WellFormed t ps → room < e.readRoom → expr t ps room ts = .error .tooDeep) ∧
    (∀ (room : Nat) (ts : List Token) (e : Expr) (more : List Lexeme),
        ts.map Token.lexeme ++ more = e.tokens ps → more ≠ [] →
        e.WellFormed t ps → e.readRoom ≤ room →
        expr t ps room ts = .error (.error .expectedExpr) ∧
          Error.expectedExpr.message = "expected expression, found <eof>" ∧
          Error.expectedExpr.span? = none) ∧
    (∀ (room : Nat) (tok : Token) (more : List Token), (∀ n, tok.lexeme ≠ .decl n) →
        (∀ (l : Line) (t' : Table), (line room t (tok :: more)).2 = .ok (l, t') ↔
          ∃ e : Expr, l = .expr e ∧ t' = t ∧ Spells (tok :: more) (e.tokens []) [] ∧
            e.WellFormed t [] ∧ e.readRoom ≤ room) ∧
        (∀ (e : Expr) (extra : Token) (rest : List Token),
          Spells (tok :: more) (e.tokens []) (extra :: rest) →
          e.WellFormed t [] → e.readRoom ≤ room →
          (line room t (tok :: more)).2 =
            .error (.error (.trailingToken extra.kind extra.span)))) := by
  refine ⟨fun _ _ _ _ => expr_eq_ok_iff,
    fun _ _ _ _ _ h₁ h₂ hw₁ hw₂ => spells_unique h₁ h₂ hw₁ hw₂,
    fun _ _ _ _ hsp hwf hroom => expr_tooDeep hwf hroom hsp, ?_, ?_⟩
  · intro room ts e more h hmore hwf hroom
    exact ⟨expr_of_truncated hwf hroom h hmore, rfl, rfl⟩
  · intro room tok more h
    exact ⟨fun _ _ => line_eq_ok_iff h, fun _ _ _ hsp hwf hroom => line_trailing h hsp hwf hroom⟩

/-! ### A chain too deep for the stack

Every level of nesting takes two more frames, so a chain of twenty thousand calls of
`head` is well formed over the fresh table but does not fit the ten thousand frames
of the usual stack.
-/

/-- `head` applied `k` times to the literal 1. -/
def headChain : Nat → Expr
  | 0 => .lit (.num 1)
  | k + 1 => .app "head" [headChain k]

/-- The tokens of `headChain k`, with spans that nothing reads. -/
def headChainTokens (k : Nat) : List Token :=
  List.replicate k ⟨.name "head", ⟨0, 0⟩⟩ ++ [⟨.number 1, ⟨0, 0⟩⟩]

theorem headChain_tokens (k : Nat) :
    (headChain k).tokens [] = List.replicate k (.name "head") ++ [.number 1] := by
  induction k with
  | zero => rfl
  | succ k ih => simp [headChain, ih, List.replicate_succ]

theorem headChain_wellFormed {t : Table} {fn : Fn} (hf : t.find? "head" = some fn)
    (h1 : fn.arity = 1) (k : Nat) : (headChain k).WellFormed t [] := by
  induction k with
  | zero => exact .num 1
  | succ k ih => exact .app List.not_mem_nil hf h1 (by simpa using ih)

theorem headChainTokens_spells (k : Nat) :
    Spells (headChainTokens k) ((headChain k).tokens []) [] := by
  refine ⟨headChainTokens k, (List.append_nil _).symm, ?_⟩
  rw [headChain_tokens, headChainTokens, List.map_append, List.map_replicate]
  rfl

theorem headChain_readRoom (k : Nat) : (headChain k).readRoom = 2 * k + 3 := by
  induction k with
  | zero => simp [headChain, Expr.readRoom]
  | succ k ih => simp [headChain, Expr.readRoomAll, ih]; omega

/-- Twenty thousand nested calls of `head` spell a well-formed expression, yet reading
them with the room of a line in a fresh session fails for want of room. -/
theorem head_chain_exceeds_stack :
    Spells (headChainTokens 20000) ((headChain 20000).tokens []) [] ∧
      (headChain 20000).WellFormed Table.initial [] ∧
      expr Table.initial [] (Stack.standard.room - 1) (headChainTokens 20000) = .error .tooDeep := by
  have hhead : Table.initial.find? "head" = some ⟨1, .builtin .head⟩ := rfl
  have hwf : (headChain 20000).WellFormed Table.initial [] := headChain_wellFormed hhead rfl 20000
  refine ⟨headChainTokens_spells 20000, hwf, expr_tooDeep hwf ?_ (headChainTokens_spells 20000)⟩
  rw [headChain_readRoom]
  decide

end Parse

end Parenless
