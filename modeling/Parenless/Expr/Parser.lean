import Parenless.Table
import Parenless.Error
import Parenless.Notice
/-!
Parsing tokens against a function table.

There are no parentheses: a name is followed by as many argument expressions as its
function takes, read from the table when the name is met. A name that is a parameter
of the declaration being parsed stands for that argument (the first position it has
among the parameters), even if a function has the same name.

A declaration is a declaration head, parameter names, the arrow and one body
expression. While its body is parsed the table gives the name a placeholder of the
new arity, so the body can call the function itself; afterwards the name gets the
parsed body. Each declaration thus sees itself and the declarations before it.

An input line is empty, a run of declarations (when it starts with a declaration
head), or exactly one expression.

Reading nests on the call stack: a caller gives the room it has, in frames, and an
expression nested deeper than the room allows stops parsing with `Failure.tooDeep`.
-/

namespace Parenless

namespace Parse

mutual

/-- Reads one expression from the front of `ts` with `room` frames of stack, its own
included; returns it with the tokens after it. Reading needs three frames (its own,
the stream's and the look at the next token); a name of a function needs a fourth to
look the name up, and an unknown name a fifth to record it; each argument is read
two frames further up. -/
def expr (t : Table) (params : List String) : Nat → List Token → Except Failure (Expr × List Token)
  | 0, _ | 1, _ | 2, _ => .error .tooDeep
  | _ + 3, [] => .error (.error .expectedExpr)
  | room + 3, tok :: rest =>
    match tok.lexeme with
    | .name n =>
      match params.idxOf? n with
      | some i => .ok (.arg i, rest)
      | none =>
        match t.find? n with
        | none => if room < 2 then .error .tooDeep else .error (.error (.unknownName n tok.span))
        | some f =>
          if room = 0 then .error .tooDeep
          else
            match exprs t params (room + 1) f.arity rest with
            | .ok (args, after) => .ok (.app n args, after)
            | .error e => .error e
    | .number v => .ok (.lit (.num v), rest)
    | .text s => .ok (.lit (.text s), rest)
    | _ => .error (.error (.unexpectedToken tok.kind tok.span))
termination_by room _ => (room, 0)

/-- Reads `count` expressions in a row from the front of `ts`, each with `room`
frames. -/
def exprs (t : Table) (params : List String) : Nat → Nat → List Token →
    Except Failure (List Expr × List Token)
  | _, 0, ts => .ok ([], ts)
  | room, count + 1, ts =>
    match expr t params room ts with
    | .ok (e, after) =>
      match exprs t params room count after with
      | .ok (es, rest) => .ok (e :: es, rest)
      | .error err => .error err
    | .error err => .error err
termination_by room count _ => (room, count + 1)

end

mutual

/-- What `expr` leaves is a suffix of its input, and a shorter one. -/
theorem expr_rest {t : Table} {params : List String} :
    ∀ {room : Nat} {ts : List Token} {e : Expr} {rest : List Token},
    expr t params room ts = .ok (e, rest) → rest.length < ts.length
  | 0, _, _, _, h | 1, _, _, _, h | 2, _, _, _, h => by simp [expr] at h
  | _ + 3, [], _, _, h => by simp [expr] at h
  | room + 3, tok :: more, e, rest, h => by
    simp only [expr] at h
    split at h
    · split at h
      · simp only [Except.ok.injEq, Prod.mk.injEq] at h
        obtain ⟨-, rfl⟩ := h
        simp
      · split at h
        · split at h <;> simp at h
        · split at h
          · simp at h
          · split at h
            · rename_i h2
              simp only [Except.ok.injEq, Prod.mk.injEq] at h
              obtain ⟨-, rfl⟩ := h
              have := exprs_rest h2
              simp; omega
            · simp at h
    · simp only [Except.ok.injEq, Prod.mk.injEq] at h
      obtain ⟨-, rfl⟩ := h
      simp
    · simp only [Except.ok.injEq, Prod.mk.injEq] at h
      obtain ⟨-, rfl⟩ := h
      simp
    · simp at h
termination_by room => (room, 0)

/-- What `exprs` leaves is a suffix of its input, never a longer one. -/
theorem exprs_rest {t : Table} {params : List String} :
    ∀ {room count : Nat} {ts : List Token} {es : List Expr} {rest : List Token},
    exprs t params room count ts = .ok (es, rest) → rest.length ≤ ts.length
  | _, 0, _, _, _, h => by
    simp only [exprs, Except.ok.injEq, Prod.mk.injEq] at h
    obtain ⟨-, rfl⟩ := h
    exact Nat.le_refl _
  | room, count + 1, ts, es, rest, h => by
    simp only [exprs] at h
    split at h
    · rename_i e after h1
      split at h
      · rename_i es' rest' h2
        simp only [Except.ok.injEq, Prod.mk.injEq] at h
        obtain ⟨-, rfl⟩ := h
        have := expr_rest h1
        have := exprs_rest h2
        omega
      · simp at h
    · simp at h
termination_by room count => (room, count + 1)

end

/-- What reading declarations gives: the notices of the way (also when it fails
later), and the declared names with the new table, or why it stopped. -/
structure Declared where
  notices : List Notice
  result : Except Failure (List String × Table)
  deriving Inhabited

/-- The leading parameter names of a declaration head and the tokens after them. -/
def params : List Token → List String × List Token
  | tok :: rest =>
    match tok.lexeme with
    | .name n => let r := params rest; (n :: r.1, r.2)
    | _ => ([], tok :: rest)
  | [] => ([], [])

/-- The parameters are taken from the front. -/
theorem length_params_le (ts : List Token) : (params ts).2.length ≤ ts.length := by
  induction ts with
  | nil => simp [params]
  | cons tok rest ih =>
    simp only [params]
    split <;> simp
    omega

/-- The notice for declaring a name again, when it held a real function and not a
placeholder; it names the arity the function had. -/
def redeclared? (t : Table) (name : String) : Option Notice :=
  match t.find? name with
  | some f => if f.isPlaceholder then none else some (.redeclared name f.arity)
  | none => none

/-- Reads declarations until the tokens run out, into the table `t`; each body is
read with `room` frames. -/
def decls (room : Nat) (t : Table) (ts : List Token) : Declared :=
  match ts with
  | [] => ⟨[], .ok ([], t)⟩
  | tok :: rest =>
    match tok.lexeme with
    | .decl name =>
      match hp : params rest with
      | (_, []) => ⟨[], .error (.error .expectedArrowAtEnd)⟩
      | (ps, arrow :: body) =>
        match arrow.lexeme with
        | .arrow =>
          let notice := (redeclared? t name).toList
          let held := t.declare name ⟨ps.length, .placeholder⟩
          match h : expr held ps room body with
          | .error e => ⟨notice, .error e⟩
          | .ok (e, after) =>
            let t' := held.declare name ⟨ps.length, .user e⟩
            have : after.length < rest.length + 1 := by
              have h1 := expr_rest h
              have h2 := length_params_le rest
              rw [hp] at h2
              simp only [List.length_cons] at h2
              omega
            let more := decls room t' after
            ⟨notice ++ .declared name ps.length :: more.notices,
              more.result.map fun r => (name :: r.1, r.2)⟩
        | _ => ⟨[], .error (.error (.expectedArrow arrow.kind arrow.span))⟩
    | _ => ⟨[], .error (.error (.expectedDecl tok.kind tok.span))⟩
termination_by ts.length

/-- What an input line is. -/
inductive Line where
  | empty
  | decls (names : List String)
  | expr (e : Expr)
  deriving Inhabited

/-- Reads an input line: nothing, declarations into `t`, or one expression that
must use up every token. `room` is the room of a call made by the reader of the line:
an expression is read with it, and the bodies of declarations one frame further up,
under the reader of declarations. -/
def line (room : Nat) (t : Table) (ts : List Token) :
    List Notice × Except Failure (Line × Table) :=
  match ts with
  | [] => ([], .ok (.empty, t))
  | tok :: _ =>
    match tok.lexeme with
    | .decl _ =>
      let d := decls (room - 1) t ts
      (d.notices, d.result.map fun r => (.decls r.1, r.2))
    | _ =>
      match expr t [] room ts with
      | .ok (e, []) => ([], .ok (.expr e, t))
      | .ok (_, extra :: _) => ([], .error (.error (.trailingToken extra.kind extra.span)))
      | .error err => ([], .error err)

end Parse

end Parenless
