import Parenless.Proofs.Grammar
import Parenless.Proofs.TableUpdate
/-!
Runs of declarations.

A declaration is a name, parameter names and a body, and it is spelled by a declaration
head, the parameter names, the arrow and the body's tokens (`Declaration.tokens`). Each
declaration changes the grammar of the ones after it: its body is read against the
table the earlier declarations made, with the declared name held by a placeholder of
the new arity, so the body may call itself but no later declaration; afterwards the
name gets the body (`Declaration.install`). `Declaration.Chain` is that condition on a
whole run.

Main statement (`decls_reads_chains`): reading declarations succeeds exactly on the
token lists that spell a chain whose bodies fit the room, returns the declared names in
order, and leaves the table that installing them one after another makes; a chain with
a body too deep for the room fails for want of room; and no placeholder survives a
successful read.
-/

namespace Parenless

/-- A declaration: its name, its parameter names and its body. -/
structure Declaration where
  name : String
  params : List String
  body : Expr

namespace Declaration

/-- The tokens that spell a declaration. -/
def tokens (d : Declaration) : List Lexeme :=
  .decl d.name :: d.params.map .name ++ .arrow :: d.body.tokens d.params

/-- The function a declaration gives its name. -/
def fn (d : Declaration) : Fn := ⟨d.params.length, .user d.body⟩

/-- What holds the name while the body is read: a placeholder of the new arity. -/
def held (d : Declaration) : Fn := ⟨d.params.length, .placeholder⟩

/-- The table after a declaration. -/
def install (t : Table) (d : Declaration) : Table := t.declare d.name d.fn

/-- A run of declarations in which each body is well formed over its own parameters
and the table the declarations before it made, with its own name held at its arity. -/
inductive Chain : Table → List Declaration → Prop
  | nil (t : Table) : Chain t []
  | cons {t : Table} {d : Declaration} {ds : List Declaration} :
      d.body.WellFormed (t.declare d.name d.held) d.params → Chain (install t d) ds →
      Chain t (d :: ds)

theorem install_held (t : Table) (d : Declaration) :
    (t.declare d.name ⟨d.params.length, .placeholder⟩).declare d.name
      ⟨d.params.length, .user d.body⟩ = install t d :=
  Table.declare_declare t d.name d.held d.fn

theorem placeholder_of_foldl_install :
    ∀ (ds : List Declaration) (t : Table) (n : String) (f : Fn),
      (ds.foldl install t).find? n = some f → f.isPlaceholder = true → t.find? n = some f := by
  intro ds
  induction ds with
  | nil => intro t n f h _; exact h
  | cons d ds ih =>
    intro t n f h hp
    have hd := ih (install t d) n f h hp
    rw [install, Table.find?_declare] at hd
    by_cases hn : n = d.name
    · rw [if_pos hn] at hd
      cases hd
      simp [fn, Fn.isPlaceholder] at hp
    · rwa [if_neg hn] at hd

end Declaration

namespace Parse

/-! ### The parameter names of a declaration head -/

theorem params_spec (ts : List Token) :
    ∃ pre, ts = pre ++ (params ts).2 ∧ pre.map Token.lexeme = (params ts).1.map .name := by
  induction ts with
  | nil => exact ⟨[], rfl, rfl⟩
  | cons tok rest ih =>
    obtain ⟨pre, hpre, hmap⟩ := ih
    cases hl : tok.lexeme with
    | name n =>
      refine ⟨tok :: pre, ?_, ?_⟩
      · simp only [params, hl, List.cons_append, List.cons.injEq, true_and]
        exact hpre
      · simp [params, hl, hmap]
    | decl n => exact ⟨[], by simp [params, hl], by simp [params, hl]⟩
    | number v => exact ⟨[], by simp [params, hl], by simp [params, hl]⟩
    | text s => exact ⟨[], by simp [params, hl], by simp [params, hl]⟩
    | arrow => exact ⟨[], by simp [params, hl], by simp [params, hl]⟩

theorem params_names_arrow :
    ∀ (ps : List String) {pre body : List Token} {arrow : Token},
      pre.map Token.lexeme = ps.map .name → arrow.lexeme = .arrow →
      params (pre ++ arrow :: body) = (ps, arrow :: body) := by
  intro ps
  induction ps with
  | nil =>
    intro pre body arrow hpre ha
    have hnil : pre = [] := by simpa using hpre
    subst hnil
    simp [params, ha]
  | cons p ps ih =>
    intro pre body arrow hpre ha
    cases pre with
    | nil => simp at hpre
    | cons tok pre =>
      simp only [List.map_cons, List.cons.injEq] at hpre
      simp [params, hpre.1, ih hpre.2 ha]

/-! ### Reading declarations step by step -/

variable {room : Nat} {t : Table}

theorem decls_nil : decls room t [] = ⟨[], .ok ([], t)⟩ := by
  rw [decls.eq_def]

theorem decls_not_decl {tok : Token} {rest : List Token}
    (hd : ∀ name, tok.lexeme ≠ .decl name) :
    (decls room t (tok :: rest)).result = .error (.error (.expectedDecl tok.kind tok.span)) := by
  rw [decls.eq_def]
  cases hl : tok.lexeme with
  | decl name => exact absurd hl (hd name)
  | name n => simp [hl]
  | number v => simp [hl]
  | text s => simp [hl]
  | arrow => simp [hl]

theorem decls_missing_arrow {tok : Token} {rest : List Token} {name : String}
    {ps : List String} (hd : tok.lexeme = .decl name) (hp : params rest = (ps, [])) :
    (decls room t (tok :: rest)).result = .error (.error .expectedArrowAtEnd) := by
  rw [decls.eq_def]
  simp only [hd]
  split
  · rfl
  · rename_i h; rw [hp] at h; simp at h

theorem decls_not_arrow {tok arrow : Token} {rest body : List Token} {name : String}
    {ps : List String} (hd : tok.lexeme = .decl name) (hp : params rest = (ps, arrow :: body))
    (ha : arrow.lexeme ≠ .arrow) :
    (decls room t (tok :: rest)).result =
      .error (.error (.expectedArrow arrow.kind arrow.span)) := by
  rw [decls.eq_def]
  simp only [hd]
  split
  · rename_i h; rw [hp] at h; simp at h
  · rename_i ps' arrow' body' h
    rw [hp] at h
    simp only [Prod.mk.injEq, List.cons.injEq] at h
    obtain ⟨rfl, rfl, rfl⟩ := h
    split
    · rename_i hl; exact absurd hl ha
    · rfl

theorem decls_body_error {tok arrow : Token} {rest body : List Token} {name : String}
    {ps : List String} {err : Failure}
    (hd : tok.lexeme = .decl name) (hp : params rest = (ps, arrow :: body))
    (ha : arrow.lexeme = .arrow)
    (he : expr (t.declare name ⟨ps.length, .placeholder⟩) ps room body = .error err) :
    (decls room t (tok :: rest)).result = .error err := by
  rw [decls.eq_def]
  simp only [hd]
  split
  · rename_i h; rw [hp] at h; simp at h
  · rename_i ps' arrow' body' h
    rw [hp] at h
    simp only [Prod.mk.injEq, List.cons.injEq] at h
    obtain ⟨rfl, rfl, rfl⟩ := h
    simp only [ha]
    split
    · rename_i e' h'
      rw [he] at h'
      cases h'
      rfl
    · rename_i e after h'
      rw [he] at h'
      cases h'

/-- A declaration whose body is read goes on with the table that gives the name its
body, and puts the name in front of the names after it. -/
theorem decls_body_ok {tok arrow : Token} {rest body after : List Token} {name : String}
    {ps : List String} {e : Expr}
    (hd : tok.lexeme = .decl name) (hp : params rest = (ps, arrow :: body))
    (ha : arrow.lexeme = .arrow)
    (he : expr (t.declare name ⟨ps.length, .placeholder⟩) ps room body = .ok (e, after)) :
    (decls room t (tok :: rest)).result =
      (decls room ((t.declare name ⟨ps.length, .placeholder⟩).declare name ⟨ps.length, .user e⟩)
        after).result.map fun r => (name :: r.1, r.2) := by
  rw [decls.eq_def]
  simp only [hd]
  split
  · rename_i h; rw [hp] at h; simp at h
  · rename_i ps' arrow' body' h
    rw [hp] at h
    simp only [Prod.mk.injEq, List.cons.injEq] at h
    obtain ⟨rfl, rfl, rfl⟩ := h
    simp only [ha]
    split
    · rename_i e' h'
      rw [he] at h'
      cases h'
    · rename_i e2 after2 h'
      rw [he] at h'
      cases h'
      rfl

/-- Tokens that begin with a declaration's tokens: its head, then its parameter names
up to the arrow, then a body that spells the declaration's body. -/
theorem spells_declaration {d : Declaration} {ts : List Token} {more : List Lexeme}
    (h : ts.map Token.lexeme = d.tokens ++ more) :
    ∃ tok rest arrow body after, ts = tok :: rest ∧ tok.lexeme = .decl d.name ∧
      params rest = (d.params, arrow :: body) ∧ arrow.lexeme = .arrow ∧
      Spells body (d.body.tokens d.params) after ∧ after.map Token.lexeme = more := by
  cases ts with
  | nil => simp [Declaration.tokens] at h
  | cons tok rest =>
    simp only [Declaration.tokens, List.map_cons, List.cons_append, List.cons.injEq,
      List.append_assoc] at h
    obtain ⟨hd, hrest⟩ := h
    obtain ⟨pre, r, rfl, hpre, hr⟩ := List.map_eq_append_iff.mp hrest
    cases r with
    | nil => simp at hr
    | cons arrow r =>
      simp only [List.map_cons, List.cons.injEq] at hr
      obtain ⟨ha, hbody⟩ := hr
      obtain ⟨bpre, after, rfl, hbpre, hafter⟩ := List.map_eq_append_iff.mp hbody
      exact ⟨tok, pre ++ arrow :: (bpre ++ after), arrow, bpre ++ after, after, rfl, hd,
        params_names_arrow d.params hpre ha, ha, ⟨bpre, rfl, hbpre⟩, hafter⟩

theorem lexemes_of_declaration {d : Declaration} {tok arrow : Token} {rest body after : List Token}
    (hd : tok.lexeme = .decl d.name) (hp : params rest = (d.params, arrow :: body))
    (ha : arrow.lexeme = .arrow) (hb : Spells body (d.body.tokens d.params) after) :
    (tok :: rest).map Token.lexeme = d.tokens ++ after.map Token.lexeme := by
  obtain ⟨pre, hrest, hpre⟩ := params_spec rest
  obtain ⟨bpre, rfl, hbpre⟩ := hb
  rw [hp] at hrest hpre
  simp [Declaration.tokens, hrest, hd, hpre, ha, hbpre]

/-! ### What is read is a chain -/

theorem decls_sound :
    ∀ (t : Table) (ts : List Token) {names : List String} {t' : Table},
      (decls room t ts).result = .ok (names, t') →
      ∃ ds : List Declaration, ts.map Token.lexeme = (ds.map Declaration.tokens).flatten ∧
        Declaration.Chain t ds ∧ (∀ d ∈ ds, d.body.readRoom ≤ room) ∧
        names = ds.map Declaration.name ∧ t' = ds.foldl Declaration.install t := by
  intro t ts
  induction t, ts using decls.induct room with
  | case1 t =>
    intro names t' h
    rw [decls_nil] at h
    obtain ⟨rfl, rfl⟩ := Prod.mk.inj (Except.ok.inj h)
    exact ⟨[], rfl, .nil t, by simp, rfl, rfl⟩
  | case2 t tok rest name hd ps hp =>
    intro names t' h
    rw [decls_missing_arrow hd hp] at h
    cases h
  | case3 t tok rest name hd ps arrow body hp ha held err =>
    rename_i he
    intro names t' h
    rw [decls_body_error hd hp ha he] at h
    cases h
  | case4 t tok rest name hd ps arrow body hp ha held e after he =>
    rename_i _ _ ih
    intro names t' h
    rw [decls_body_ok hd hp ha he] at h
    cases hr : (decls room ((t.declare name ⟨ps.length, .placeholder⟩).declare name
        ⟨ps.length, .user e⟩) after).result with
    | error err => simp [hr, Except.map] at h
    | ok r =>
      simp only [hr, Except.map, Except.ok.injEq] at h
      obtain ⟨rfl, rfl⟩ := Prod.mk.inj h
      obtain ⟨ds, hts, hchain, hroom, hnames, htable⟩ := ih hr
      obtain ⟨hsp, hwf, hfit⟩ := expr_sound he
      let d : Declaration := ⟨name, ps, e⟩
      have htok : (tok :: rest).map Token.lexeme = d.tokens ++ after.map Token.lexeme :=
        lexemes_of_declaration hd hp ha hsp
      refine ⟨d :: ds, by rw [htok, hts]; simp, .cons hwf ?_, ?_, ?_, ?_⟩
      · rwa [← Declaration.install_held]
      · intro d' hd'
        rcases List.mem_cons.mp hd' with rfl | hd'
        · exact hfit
        · exact hroom d' hd'
      · rw [hnames]
        rfl
      · rw [htable]
        exact congrArg (List.foldl Declaration.install · ds) (Declaration.install_held t d)
  | case5 t tok rest name hd ps arrow body hp ha =>
    intro names t' h
    rw [decls_not_arrow hd hp ha] at h
    cases h
  | case6 t tok rest hd =>
    intro names t' h
    rw [decls_not_decl (fun n hn => hd n hn)] at h
    cases h

/-! ### A chain that fits is read -/

theorem decls_complete :
    ∀ (ds : List Declaration) (t : Table) (ts : List Token),
      ts.map Token.lexeme = (ds.map Declaration.tokens).flatten →
      Declaration.Chain t ds → (∀ d ∈ ds, d.body.readRoom ≤ room) →
      (decls room t ts).result = .ok (ds.map Declaration.name, ds.foldl Declaration.install t) := by
  intro ds
  induction ds with
  | nil =>
    intro t ts hts _ _
    have hnil : ts = [] := by simpa using hts
    subst hnil
    rw [decls_nil]
    rfl
  | cons d ds ih =>
    intro t ts hts hchain hroom
    cases hchain with
    | cons hwf hrest =>
      obtain ⟨tok, rest, arrow, body, after, rfl, hd, hp, ha, hsp, hafter⟩ :=
        spells_declaration (by simpa using hts)
      have hbody := expr_complete hwf (hroom d (by simp)) hsp
      rw [decls_body_ok hd hp ha hbody, Declaration.install_held,
        ih (Declaration.install t d) after hafter hrest fun d' hd' => hroom d' (by simp [hd'])]
      rfl

/-- A chain with a body too deep for the room fails for want of room. -/
theorem decls_tooDeep :
    ∀ (ds : List Declaration) (t : Table) (ts : List Token),
      ts.map Token.lexeme = (ds.map Declaration.tokens).flatten →
      Declaration.Chain t ds → (∃ d ∈ ds, room < d.body.readRoom) →
      (decls room t ts).result = .error .tooDeep := by
  intro ds
  induction ds with
  | nil => intro t ts _ _ hex; simp at hex
  | cons d ds ih =>
    intro t ts hts hchain hex
    cases hchain with
    | cons hwf hrest =>
      obtain ⟨tok, rest, arrow, body, after, rfl, hd, hp, ha, hsp, hafter⟩ :=
        spells_declaration (by simpa using hts)
      by_cases hfit : d.body.readRoom ≤ room
      · have hlater : ∃ d' ∈ ds, room < d'.body.readRoom := by
          obtain ⟨d', hd', hlt⟩ := hex
          rcases List.mem_cons.mp hd' with rfl | hd'
          · omega
          · exact ⟨d', hd', hlt⟩
        rw [decls_body_ok hd hp ha (expr_complete hwf hfit hsp), Declaration.install_held,
          ih (Declaration.install t d) after hafter hrest hlater]
        rfl
      · exact decls_body_error hd hp ha (expr_tooDeep hwf (by omega) hsp)

/-! ### Main statement -/

/-- Reading declarations into a table succeeds exactly on the token lists that spell a
chain of declarations whose bodies fit the room: it returns their names in order and
the table that installs them one after another, so each body could call its own name
at its new arity and the names declared before it, and no placeholder is left. A chain
with a body too deep for the room fails for want of room. -/
theorem decls_reads_chains (room : Nat) (t : Table) (ts : List Token) :
    (∀ (names : List String) (t' : Table), (decls room t ts).result = .ok (names, t') ↔
      ∃ ds : List Declaration, ts.map Token.lexeme = (ds.map Declaration.tokens).flatten ∧
        Declaration.Chain t ds ∧ (∀ d ∈ ds, d.body.readRoom ≤ room) ∧
        names = ds.map Declaration.name ∧ t' = ds.foldl Declaration.install t) ∧
    (∀ ds : List Declaration, ts.map Token.lexeme = (ds.map Declaration.tokens).flatten →
      Declaration.Chain t ds → (∃ d ∈ ds, room < d.body.readRoom) →
      (decls room t ts).result = .error .tooDeep) ∧
    (∀ (names : List String) (t' : Table), (decls room t ts).result = .ok (names, t') →
      ∀ n f, t'.find? n = some f → f.isPlaceholder = true → t.find? n = some f) := by
  refine ⟨fun names t' => ⟨decls_sound t ts, ?_⟩, fun ds hts hchain hex =>
    decls_tooDeep ds t ts hts hchain hex, ?_⟩
  · rintro ⟨ds, hts, hchain, hroom, rfl, rfl⟩
    exact decls_complete ds t ts hts hchain hroom
  · intro names t' h n f hf hp
    obtain ⟨ds, -, -, -, -, rfl⟩ := decls_sound t ts h
    exact Declaration.placeholder_of_foldl_install ds t n f hf hp

/-- A declaration whose body nests twenty thousand calls of `head` spells a chain over
the fresh table, yet reading it with the room of a load in a fresh session fails for
want of room. -/
theorem head_chain_declaration_exceeds_stack :
    (⟨.decl "f", ⟨1, 2⟩⟩ :: ⟨.arrow, ⟨3, 5⟩⟩ :: headChainTokens 20000).map Token.lexeme =
        ([⟨"f", [], headChain 20000⟩].map Declaration.tokens).flatten ∧
      Declaration.Chain Table.initial [⟨"f", [], headChain 20000⟩] ∧
      (decls (Stack.standard.room - 1) Table.initial
        (⟨.decl "f", ⟨1, 2⟩⟩ :: ⟨.arrow, ⟨3, 5⟩⟩ :: headChainTokens 20000)).result =
        .error .tooDeep := by
  have hts : (⟨.decl "f", ⟨1, 2⟩⟩ :: ⟨.arrow, ⟨3, 5⟩⟩ :: headChainTokens 20000).map
      Token.lexeme = ([⟨"f", [], headChain 20000⟩].map Declaration.tokens).flatten := by
    obtain ⟨pre, hpre, hmap⟩ := headChainTokens_spells 20000
    rw [List.append_nil] at hpre
    subst hpre
    simp [Declaration.tokens, hmap]
  have hhead : (Table.initial.declare "f" ⟨0, .placeholder⟩).find? "head" =
      some ⟨1, .builtin .head⟩ := by
    rw [Table.find?_declare]
    rfl
  have hchain : Declaration.Chain Table.initial [⟨"f", [], headChain 20000⟩] :=
    .cons (headChain_wellFormed hhead rfl 20000) (.nil _)
  refine ⟨hts, hchain, decls_tooDeep _ _ _ hts hchain ⟨_, List.mem_singleton_self _, ?_⟩⟩
  show Stack.standard.room - 1 < (headChain 20000).readRoom
  rw [headChain_readRoom]
  decide

end Parse

end Parenless
