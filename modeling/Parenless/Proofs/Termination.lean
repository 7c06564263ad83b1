import Parenless.Proofs.Declarations
import Parenless.Proofs.Failures
/-!
Reading ends within the tokens.

Reading an expression takes one token before it reads anything else, and reads a
call's arguments from the tokens after the callee's name. However many arguments the
table asks for, the loop over them stops at the first one that cannot be read, at the
latest the first that finds no token left. So reading nests at most once per token: two
frames per token, above the three every read takes, are always enough
(`expr_ne_tooDeep`).
Room is nothing but a resource bound: a read that did not run out of it gives the same
answer with more (`expr_room_mono`). Beyond `2 * ts.length + 3` frames the answer no
longer depends on the room, so what reading does is decided by the tokens alone.

A declaration takes its head, its arrow and at least one token of body, so a run of
declarations declares at most a third as many names as it has tokens; every body is
read with the same room, and the same bound keeps the run from running out of it.

Main statement: `reading_ends_within_tokens`.
-/

namespace Parenless

namespace Parse

variable {t : Table} {ps : List String}

/-! ### The remaining steps of reading one expression -/

theorem expr_unknown (r : Nat) {tok : Token} (more : List Token) {n : String}
    (hn : tok.lexeme = .name n) (hi : ps.idxOf? n = none) (hf : t.find? n = none) :
    expr t ps (r + 3) (tok :: more) =
      if r < 2 then .error .tooDeep else .error (.error (.unknownName n tok.span)) := by
  rw [expr.eq_def]
  simp [hn, hi, hf]

theorem expr_unexpected (r : Nat) {tok : Token} (more : List Token)
    (hl : tok.lexeme = .arrow ∨ ∃ d, tok.lexeme = .decl d) :
    expr t ps (r + 3) (tok :: more) = .error (.error (.unexpectedToken tok.kind tok.span)) := by
  rw [expr.eq_def]
  rcases hl with hl | ⟨d, hl⟩ <;> simp [hl]

theorem exists_add_three_of_ne_tooDeep {room : Nat} {ts : List Token}
    (h : expr t ps room ts ≠ .error .tooDeep) : ∃ r, room = r + 3 := by
  refine ⟨room - 3, ?_⟩
  by_contra hlt
  exact h (expr_of_lt_three ts (by omega))

/-! ### More room keeps a finished answer -/

theorem exprs_room_mono_of {r r' : Nat}
    (hexpr : ∀ {ts}, expr t ps r ts ≠ .error .tooDeep → expr t ps r' ts = expr t ps r ts) :
    ∀ {count ts}, exprs t ps r count ts ≠ .error .tooDeep →
      exprs t ps r' count ts = exprs t ps r count ts := by
  intro count
  induction count with
  | zero => intro ts _; rw [exprs_zero, exprs_zero]
  | succ count ih =>
    intro ts h
    rcases he : expr t ps r ts with err | ⟨e, after⟩
    · rw [exprs_succ_error_head he] at h ⊢
      have he' : expr t ps r' ts = .error err := by rw [hexpr (by rw [he]; simpa using h), he]
      exact exprs_succ_error_head he'
    have he' : expr t ps r' ts = .ok (e, after) := by rw [hexpr (by rw [he]; simp), he]
    rcases hes : exprs t ps r count after with err | ⟨es, rest⟩
    · rw [exprs_succ_error_tail he hes] at h ⊢
      exact exprs_succ_error_tail he' (by rw [ih (hes ▸ h), hes])
    · rw [exprs_succ_ok he hes]
      exact exprs_succ_ok he' (by rw [ih (by rw [hes]; simp), hes])

/-- A read that did not run out of room gives the same answer with more room. The
induction is on the room: a call reads its arguments two frames further up. -/
theorem expr_room_mono : ∀ {room room' : Nat} {ts : List Token},
    expr t ps room ts ≠ .error .tooDeep → room ≤ room' →
      expr t ps room' ts = expr t ps room ts := by
  intro room
  induction room using Nat.strongRecOn with
  | ind room ih =>
  intro room' ts h hle
  obtain ⟨r, rfl⟩ := exists_add_three_of_ne_tooDeep h
  obtain ⟨r', rfl⟩ : ∃ r', room' = r' + 3 := ⟨room' - 3, by omega⟩
  cases ts with
  | nil => rw [expr_nil, expr_nil]
  | cons tok more =>
  cases hl : tok.lexeme with
  | name n =>
    cases hi : ps.idxOf? n with
    | some i => rw [expr_param r' more hl hi, expr_param r more hl hi]
    | none =>
      cases hf : t.find? n with
      | none =>
        rw [expr_unknown r more hl hi hf] at h ⊢
        rw [expr_unknown r' more hl hi hf]
        by_cases hr : r < 2
        · rw [if_pos hr] at h
          exact absurd rfl h
        · rw [if_neg hr, if_neg (by omega)]
      | some f =>
        -- a call with no room for its arguments ran out; otherwise they are read with
        -- more room too
        obtain ⟨r, rfl⟩ : ∃ r₀, r = r₀ + 1 := by
          cases r with
          | zero => exact absurd (expr_call_three more hl hi hf) h
          | succ r => exact ⟨r, rfl⟩
        obtain ⟨r', rfl⟩ := Nat.exists_eq_add_of_le' (show 1 ≤ r' by omega)
        have hargs : exprs t ps (r + 2) f.arity more ≠ .error .tooDeep →
            exprs t ps (r' + 2) f.arity more = exprs t ps (r + 2) f.arity more :=
          exprs_room_mono_of (fun {ts} h' => @ih (r + 2) (by omega) (r' + 2) ts h' (by omega))
        rcases hes : exprs t ps (r + 2) f.arity more with err | ⟨args, after⟩
        · rw [expr_call_error r hl hi hf hes] at h ⊢
          exact expr_call_error r' hl hi hf (by rw [hargs (by rw [hes]; simpa using h), hes])
        · rw [expr_call_ok r hl hi hf hes]
          exact expr_call_ok r' hl hi hf (by rw [hargs (by rw [hes]; simp), hes])
  | number v => rw [expr_number r' more hl, expr_number r more hl]
  | text s => rw [expr_text r' more hl, expr_text r more hl]
  | decl d =>
    rw [expr_unexpected r' more (.inr ⟨d, hl⟩), expr_unexpected r more (.inr ⟨d, hl⟩)]
  | arrow => rw [expr_unexpected r' more (.inl hl), expr_unexpected r more (.inl hl)]

/-! ### Room for two frames per token is enough -/

theorem exprs_ne_tooDeep_of {r n : Nat}
    (hexpr : ∀ {ts : List Token}, ts.length ≤ n → expr t ps r ts ≠ .error .tooDeep) :
    ∀ {count ts}, ts.length ≤ n → exprs t ps r count ts ≠ .error .tooDeep := by
  intro count
  induction count with
  | zero => intro ts _; rw [exprs_zero]; simp
  | succ count ih =>
    intro ts hts
    rcases he : expr t ps r ts with err | ⟨e, after⟩
    · rw [exprs_succ_error_head he]
      have h := hexpr hts
      rw [he] at h
      simpa using h
    -- each argument read takes a token, so the rest is read from fewer
    have hafter : after.length ≤ n := by have := expr_rest he; omega
    rcases hes : exprs t ps r count after with err | ⟨es, rest⟩
    · rw [exprs_succ_error_tail he hes, ← hes]
      exact ih hafter
    · rw [exprs_succ_ok he hes]
      simp

/-- Reading from at most `n` tokens never runs out of `2 * n + 3` frames. The induction
is on `n`: the arguments of a call are read from the tokens after its name, two frames
further up. -/
theorem expr_ne_tooDeep : ∀ (n : Nat) {room : Nat} {ts : List Token}, ts.length ≤ n →
    2 * n + 3 ≤ room → expr t ps room ts ≠ .error .tooDeep := by
  intro n
  induction n with
  | zero =>
    intro room ts hts hroom
    obtain ⟨r, rfl⟩ : ∃ r, room = r + 3 := ⟨room - 3, by omega⟩
    rw [List.eq_nil_of_length_eq_zero (Nat.le_zero.mp hts), expr_nil]
    simp
  | succ n ih =>
    intro room ts hts hroom
    obtain ⟨r, rfl⟩ : ∃ r, room = r + 3 := ⟨room - 3, by omega⟩
    cases ts with
    | nil => rw [expr_nil]; simp
    | cons tok more =>
    have hmore : more.length ≤ n := by simp at hts; omega
    cases hl : tok.lexeme with
    | name n' =>
      cases hi : ps.idxOf? n' with
      | some i => rw [expr_param r more hl hi]; simp
      | none =>
        cases hf : t.find? n' with
        | none => rw [expr_unknown r more hl hi hf, if_neg (by omega)]; simp
        | some f =>
          obtain ⟨r, rfl⟩ : ∃ r₀, r = r₀ + 1 := ⟨r - 1, by omega⟩
          have hargs : exprs t ps (r + 2) f.arity more ≠ .error .tooDeep :=
            exprs_ne_tooDeep_of (fun {ts} h' => @ih (r + 2) ts h' (by omega)) hmore
          rcases hes : exprs t ps (r + 2) f.arity more with err | ⟨args, after⟩
          · rw [expr_call_error r hl hi hf hes]
            rw [hes] at hargs
            simpa using hargs
          · rw [expr_call_ok r hl hi hf hes]
            simp
    | number v => rw [expr_number r more hl]; simp
    | text s => rw [expr_text r more hl]; simp
    | decl d => rw [expr_unexpected r more (.inr ⟨d, hl⟩)]; simp
    | arrow => rw [expr_unexpected r more (.inl hl)]; simp

theorem expr_room_stable {room : Nat} {ts : List Token} (h : 2 * ts.length + 3 ≤ room) :
    expr t ps room ts = expr t ps (2 * ts.length + 3) ts :=
  expr_room_mono (expr_ne_tooDeep ts.length le_rfl le_rfl) h

/-! ### Runs of declarations -/

theorem length_body_lt {rest body : List Token} {ps' : List String} {arrow : Token}
    (hp : params rest = (ps', arrow :: body)) : body.length < rest.length := by
  have h := length_params_le rest
  rw [hp] at h
  simp at h
  omega

/-- Every declaration takes at least three tokens: its head, its arrow and a body. -/
theorem decls_consumes {room : Nat} :
    ∀ (t : Table) (ts : List Token) {names : List String} {t' : Table},
      (decls room t ts).result = .ok (names, t') → 3 * names.length ≤ ts.length := by
  intro t ts
  induction t, ts using decls.induct room with
  | case1 t =>
    intro names t' h
    rw [decls_nil] at h
    cases h
    simp
  | case2 t tok rest name hd ps hp =>
    intro names t' h
    rw [decls_missing_arrow hd hp] at h
    cases h
  | case3 t tok rest name hd ps arrow body hp ha held err =>
    rename_i he
    intro names t' h
    rw [decls_body_error hd hp ha he] at h
    cases h
  | case4 t tok rest name hd ps arrow body hp ha held e after he =>
    rename_i _ _ ih
    intro names t' h
    rw [decls_body_ok hd hp ha he] at h
    cases hr : (decls room ((t.declare name ⟨ps.length, .placeholder⟩).declare name
        ⟨ps.length, .user e⟩) after).result with
    | error err => simp [hr, Except.map] at h
    | ok r =>
      simp only [hr, Except.map, Except.ok.injEq] at h
      obtain ⟨rfl, rfl⟩ := Prod.mk.inj h
      have hafter : after.length < body.length := expr_rest he
      have hbody := length_body_lt hp
      have hmore := ih hr
      simp only [List.length_cons]
      omega
  | case5 t tok rest name hd ps arrow body hp ha =>
    intro names t' h
    rw [decls_not_arrow hd hp ha] at h
    cases h
  | case6 t tok rest hd =>
    intro names t' h
    rw [decls_not_decl (fun n hn => hd n hn)] at h
    cases h

/-- A run of declarations never runs out of two frames per token and three more: each
body is read from fewer tokens than the run has. -/
theorem decls_ne_tooDeep {room : Nat} :
    ∀ (t : Table) (ts : List Token), 2 * ts.length + 3 ≤ room →
      (decls room t ts).result ≠ .error .tooDeep := by
  intro t ts
  induction t, ts using decls.induct room with
  | case1 t => intro _; rw [decls_nil]; simp
  | case2 t tok rest name hd ps hp => intro _; rw [decls_missing_arrow hd hp]; simp
  | case3 t tok rest name hd ps arrow body hp ha held err =>
    rename_i he
    intro hroom
    have hbody := length_body_lt hp
    have hne : expr (t.declare name ⟨ps.length, .placeholder⟩) ps room body ≠ .error .tooDeep :=
      expr_ne_tooDeep body.length le_rfl (by simp at hroom; omega)
    rw [decls_body_error hd hp ha he]
    rw [he] at hne
    simpa using hne
  | case4 t tok rest name hd ps arrow body hp ha held e after he =>
    rename_i _ _ ih
    intro hroom
    have hafter : after.length < body.length := expr_rest he
    have hbody := length_body_lt hp
    rw [decls_body_ok hd hp ha he]
    intro h
    exact ih (by simp at hroom; omega) (map_eq_error.mp h)
  | case5 t tok rest name hd ps arrow body hp ha => intro _; rw [decls_not_arrow hd hp ha]; simp
  | case6 t tok rest hd => intro _; rw [decls_not_decl (fun n hn => hd n hn)]; simp

/-- A run of declarations that did not run out of room declares the same with more. -/
theorem decls_room_mono {room room' : Nat} (hle : room ≤ room') :
    ∀ (t : Table) (ts : List Token), (decls room t ts).result ≠ .error .tooDeep →
      (decls room' t ts).result = (decls room t ts).result := by
  intro t ts
  induction t, ts using decls.induct room with
  | case1 t => intro _; rw [decls_nil, decls_nil]
  | case2 t tok rest name hd ps hp =>
    intro _; rw [decls_missing_arrow hd hp, decls_missing_arrow hd hp]
  | case3 t tok rest name hd ps arrow body hp ha held err =>
    rename_i he
    intro h
    rw [decls_body_error hd hp ha he] at h ⊢
    have he' := expr_room_mono (by rw [he]; simpa using h) hle
    rw [he] at he'
    exact decls_body_error hd hp ha he'
  | case4 t tok rest name hd ps arrow body hp ha held e after he =>
    rename_i _ _ ih
    intro h
    rw [decls_body_ok hd hp ha he] at h ⊢
    have he' := expr_room_mono (by rw [he]; simp) hle
    rw [he] at he'
    rw [decls_body_ok hd hp ha he', ih (fun h' => h (map_eq_error.mpr h'))]
  | case5 t tok rest name hd ps arrow body hp ha =>
    intro _; rw [decls_not_arrow hd hp ha, decls_not_arrow hd hp ha]
  | case6 t tok rest hd =>
    intro _; rw [decls_not_decl (fun n hn => hd n hn), decls_not_decl (fun n hn => hd n hn)]

/-! ### Main statement -/

/-- Reading is decided by the tokens. With room for two frames per token and three more,
neither an expression nor a run of declarations runs out of room, and more room changes
nothing; an expression read takes at least one token, and every declaration at least
three. -/
theorem reading_ends_within_tokens (t : Table) (ps : List String) (ts : List Token) {room : Nat}
    (hroom : 2 * ts.length + 3 ≤ room) :
    expr t ps room ts ≠ .error .tooDeep ∧
      expr t ps room ts = expr t ps (2 * ts.length + 3) ts ∧
      (∀ e rest, expr t ps room ts = .ok (e, rest) → rest.length < ts.length) ∧
      (decls room t ts).result ≠ .error .tooDeep ∧
      (decls room t ts).result = (decls (2 * ts.length + 3) t ts).result ∧
      (∀ names t', (decls room t ts).result = .ok (names, t') → 3 * names.length ≤ ts.length) :=
  ⟨expr_ne_tooDeep ts.length le_rfl hroom, expr_room_stable hroom, fun _ _ h => expr_rest h,
    decls_ne_tooDeep t ts hroom,
    decls_room_mono hroom t ts (decls_ne_tooDeep t ts le_rfl),
    fun _ _ h => decls_consumes t ts h⟩

/-- A call of `+` with one argument short: seven frames are enough for its two tokens. -/
theorem reading_ends_within_tokens_short_call :
    2 * [(⟨.name "+", ⟨0, 1⟩⟩ : Token), ⟨.number 1, ⟨2, 3⟩⟩].length + 3 ≤ 7 ∧
      expr Table.initial [] 7 [⟨.name "+", ⟨0, 1⟩⟩, ⟨.number 1, ⟨2, 3⟩⟩] ≠ .error .tooDeep ∧
      expr Table.initial [] 7 [⟨.name "+", ⟨0, 1⟩⟩, ⟨.number 1, ⟨2, 3⟩⟩] =
        expr Table.initial [] (2 * [(⟨.name "+", ⟨0, 1⟩⟩ : Token), ⟨.number 1, ⟨2, 3⟩⟩].length + 3)
          [⟨.name "+", ⟨0, 1⟩⟩, ⟨.number 1, ⟨2, 3⟩⟩] ∧
      (∀ e rest, expr Table.initial [] 7 [⟨.name "+", ⟨0, 1⟩⟩, ⟨.number 1, ⟨2, 3⟩⟩] =
          .ok (e, rest) → rest.length < 2) ∧
      (decls 7 Table.initial [⟨.name "+", ⟨0, 1⟩⟩, ⟨.number 1, ⟨2, 3⟩⟩]).result ≠ .error .tooDeep ∧
      (decls 7 Table.initial [⟨.name "+", ⟨0, 1⟩⟩, ⟨.number 1, ⟨2, 3⟩⟩]).result =
        (decls (2 * [(⟨.name "+", ⟨0, 1⟩⟩ : Token), ⟨.number 1, ⟨2, 3⟩⟩].length + 3) Table.initial
          [⟨.name "+", ⟨0, 1⟩⟩, ⟨.number 1, ⟨2, 3⟩⟩]).result ∧
      (∀ names t', (decls 7 Table.initial [⟨.name "+", ⟨0, 1⟩⟩, ⟨.number 1, ⟨2, 3⟩⟩]).result =
          .ok (names, t') → 3 * names.length ≤ 2) :=
  ⟨by decide, reading_ends_within_tokens Table.initial [] _ (by decide)⟩

end Parse

end Parenless
