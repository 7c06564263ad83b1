import Parenless.Eval
/-!
Strict evaluation, left to right.

A call of a user function or an eager builtin evaluates its argument expressions one
after another against the caller's frame, and enters the callee only when all of them
gave a value. `StrictCall` says what such a call gives without naming the evaluator's
own loop: either every argument gives a value, and the call prints what the arguments
printed in order and then what the callee printed, with the callee's result; or some
argument is the first to fail, and the call prints what the arguments up to it printed
and stops with its failure, whatever the later arguments and the callee would do.

The conditional is the exception: it evaluates its condition and then only the branch
the condition picks. A condition that is not a boolean is a type error, but raising it
takes two frames of its own, so with less room left the conditional stops for want of
room instead.

Every call first needs two frames, its own and one to look its callee up; with less it
stops before anything is evaluated.

Main statement: `calls_evaluate_strictly`.
-/

namespace Parenless

namespace Run

/-- Running on after a value: what was printed, then what the rest prints. -/
@[simp] theorem ok_andThen (o : String) (a : α) (k : α → Run β) :
    (⟨o, .ok a⟩ : Run α).andThen k = ⟨o ++ (k a).out, (k a).result⟩ := rfl

/-- Running on after a failure: nothing more runs. -/
@[simp] theorem error_andThen (o : String) (f : Failure) (k : α → Run β) :
    (⟨o, .error f⟩ : Run α).andThen k = ⟨o, .error f⟩ := rfl

theorem andThen_assoc (r : Run α) (f : α → Run β) (k : β → Run γ) :
    (r.andThen f).andThen k = r.andThen fun a => (f a).andThen k := by
  rcases r with ⟨o, _ | a⟩
  · rfl
  · simp only [ok_andThen]
    generalize f a = r
    rcases r with ⟨o', _ | b⟩ <;> simp [String.append_assoc]

end Run

namespace Expr

variable {t : Table} {room : Nat} {frame : List Value}

/-- What the expressions `as` print when each is evaluated against `frame` with `room`
frames, first to last. -/
def printed (t : Table) (room : Nat) (frame : List Value) (as : List Expr) : String :=
  String.join (as.map fun a => (a.eval t room frame).out)

@[simp] theorem printed_nil : printed t room frame [] = "" := rfl

@[simp] theorem printed_cons (a : Expr) (as : List Expr) :
    printed t room frame (a :: as) = (a.eval t room frame).out ++ printed t room frame as := by
  simp [printed]

/-- `r` is what a strict call of `callee` on `args` gives, the arguments evaluated
against `frame` with `room` frames: either every argument gives its value, and `r`
prints what they printed and then what the callee printed on those values, with the
callee's result; or the argument `a` is the first to fail, and `r` prints what the
arguments up to `a` printed and fails as `a` did, with no later argument and no callee
in sight. -/
def StrictCall (t : Table) (room : Nat) (frame : List Value) (args : List Expr)
    (callee : List Value → Run Value) (r : Run Value) : Prop :=
  (∃ vs : List Value, args.map (fun a => (a.eval t room frame).result) = vs.map .ok ∧
      r = ⟨printed t room frame args ++ (callee vs).out, (callee vs).result⟩) ∨
  (∃ (pre : List Expr) (a : Expr) (post : List Expr) (vs : List Value) (f : Failure),
      args = pre ++ a :: post ∧
      pre.map (fun a => (a.eval t room frame).result) = vs.map .ok ∧
      (a.eval t room frame).result = .error f ∧
      r = ⟨printed t room frame (pre ++ [a]), .error f⟩)

/-- Evaluating arguments and running a callee on their values is a strict call. The
induction is on the arguments, with the callee taking in the values already found. -/
theorem evalAll_andThen_strictCall :
    ∀ (args : List Expr) (callee : List Value → Run Value),
      StrictCall t room frame args callee ((evalAll t room frame args).andThen callee) := by
  intro args
  induction args with
  | nil =>
    intro callee
    exact .inl ⟨[], rfl, by rw [evalAll_nil, Run.pure_andThen]; rfl⟩
  | cons a rest ih =>
    intro callee
    rw [evalAll_cons, Run.andThen_assoc]
    rcases ha : a.eval t room frame with ⟨o, _ | v⟩
    · refine .inr ⟨[], a, rest, [], _, rfl, rfl, by rw [ha], ?_⟩
      simp [ha]
    · -- the first argument gives `v`; the rest is a strict call of the callee on `v :: ·`
      simp only [Run.ok_andThen, Run.andThen_assoc, Run.pure_andThen]
      rcases ih fun vs => callee (v :: vs) with
        ⟨vs, hvs, hr⟩ | ⟨pre, b, post, vs, f, hargs, hpre, hb, hr⟩
      · refine .inl ⟨v :: vs, by simp [ha, hvs], ?_⟩
        rw [hr, printed_cons, ha, String.append_assoc]
      · refine .inr ⟨a :: pre, b, post, v :: vs, f, by rw [hargs]; rfl, by simp [ha, hpre], hb, ?_⟩
        rw [hr, List.cons_append, printed_cons, ha]

theorem eval_app_of_lt_two (f : String) (args : List Expr) (h : room < 2) :
    (Expr.app f args).eval t room frame = .fail .tooDeep := by
  rcases room with _ | _ | room
  · exact eval_zero t frame _
  · exact eval_app_one t frame f args
  · omega

/-! ### The conditional -/

/-- `r` is what the conditional gives when its condition runs as `rc` and its branches
would run as `rx` and `ry`, each with `room` frames: the condition's failure; for a
condition that is not a boolean, the type error, or a stop for want of room when fewer
than two frames are left to raise it; or what the condition printed followed by the
outcome of the branch it picks. -/
def CondCall (room : Nat) (rc rx ry r : Run Value) : Prop :=
  (∃ f, rc.result = .error f ∧ r = ⟨rc.out, .error f⟩) ∨
  (∃ v, rc.result = .ok v ∧ v.kind ≠ .boolean ∧
    r = ⟨rc.out, .error (if room < 2 then .tooDeep
      else .error (.wrongType 1 .boolean v.kind))⟩) ∨
  (rc.result = .ok (.bool true) ∧ r = ⟨rc.out ++ rx.out, rx.result⟩) ∨
  (rc.result = .ok (.bool false) ∧ r = ⟨rc.out ++ ry.out, ry.result⟩)

/-- Running the branch a condition picks is a call of the conditional; the split is on
the kind of value the condition gave. -/
theorem condCall_andThen (room : Nat) (rc rx ry : Run Value) :
    CondCall room rc rx ry (rc.andThen fun
      | .bool true => rx
      | .bool false => ry
      | v => if room < 2 then .fail .tooDeep
        else .fail (.error (.wrongType 1 .boolean v.kind))) := by
  have hne : ∀ w : Value, (if room < 2 then Run.fail .tooDeep
      else Run.fail (.error (.wrongType 1 .boolean w.kind)) : Run Value) =
      ⟨"", .error (if room < 2 then .tooDeep else .error (.wrongType 1 .boolean w.kind))⟩ := by
    intro w
    split <;> rfl
  rcases rc with ⟨o, f | v⟩
  · exact .inl ⟨f, rfl, rfl⟩
  rcases v with _ | _ | (_ | _) | _ | _
  · exact .inr (.inl ⟨_, rfl, by simp [Value.kind],
      by simp only [Run.ok_andThen, hne, String.append_empty]⟩)
  · exact .inr (.inl ⟨_, rfl, by simp [Value.kind],
      by simp only [Run.ok_andThen, hne, String.append_empty]⟩)
  · exact .inr (.inr (.inr ⟨rfl, rfl⟩))
  · exact .inr (.inr (.inl ⟨rfl, rfl⟩))
  · exact .inr (.inl ⟨_, rfl, by simp [Value.kind],
      by simp only [Run.ok_andThen, hne, String.append_empty]⟩)
  · exact .inr (.inl ⟨_, rfl, by simp [Value.kind],
      by simp only [Run.ok_andThen, hne, String.append_empty]⟩)

theorem eval_cond_of_true {f : String} {n : Nat} (hf : t.find? f = some ⟨n, .builtin .cond⟩)
    {c : Expr} (hc : (c.eval t room frame).result = .ok (.bool true)) (x y y' : Expr) :
    (Expr.app f [c, x, y]).eval t (room + 2) frame =
      (Expr.app f [c, x, y']).eval t (room + 2) frame := by
  rw [eval_lazy t room frame f c x y [] n .cond hf rfl,
    eval_lazy t room frame f c x y' [] n .cond hf rfl]
  generalize c.eval t room frame = rc at hc ⊢
  obtain ⟨o, r⟩ := rc
  subst hc
  rfl

/-! ### Main statement -/

/-- Evaluation is strict and left to right, except for the conditional. For a name `f`
of the table:

* with less than two frames a call of `f` stops for want of room before evaluating
  anything;
* when `f` is a user function, a call evaluates the arguments two frames up against the
  caller's frame, and then the body one frame up against the argument values alone;
* when `f` is an eager builtin, a call evaluates the arguments the same way and then
  runs the builtin on their values one frame up;
* when `f` is the conditional, a call on `c`, `x`, `y` gives `c`'s failure, or the type
  error for a condition that is not a boolean (stopping for want of room when fewer than
  two frames are left to raise it), or what `c` printed followed by the outcome of `x`
  (for true) or of `y` (for false); so with a true condition the third argument never
  matters. -/
theorem calls_evaluate_strictly (t : Table) (frame : List Value) (f : String) (fn : Fn)
    (hf : t.find? f = some fn) :
    (∀ (args : List Expr) (room : Nat), room < 2 →
      (Expr.app f args).eval t room frame = .fail .tooDeep) ∧
    (∀ body : Expr, fn.body = .user body → ∀ (args : List Expr) (room : Nat),
      StrictCall t room frame args (fun vs => body.eval t (room + 1) vs)
        ((Expr.app f args).eval t (room + 2) frame)) ∧
    (∀ b : Builtin, fn.body = .builtin b → b.isLazy = false → ∀ (args : List Expr) (room : Nat),
      StrictCall t room frame args (b.callWithin (room + 1))
        ((Expr.app f args).eval t (room + 2) frame)) ∧
    (fn.body = .builtin .cond → ∀ (c x y : Expr) (room : Nat),
      CondCall room (c.eval t room frame) (x.eval t room frame) (y.eval t room frame)
        ((Expr.app f [c, x, y]).eval t (room + 2) frame) ∧
      ((c.eval t room frame).result = .ok (.bool true) → ∀ y' : Expr,
        (Expr.app f [c, x, y]).eval t (room + 2) frame =
          (Expr.app f [c, x, y']).eval t (room + 2) frame)) := by
  obtain ⟨n, body⟩ := fn
  refine ⟨fun args room h => eval_app_of_lt_two f args h, ?_, ?_, ?_⟩
  · rintro e rfl args room
    rw [eval_user t room frame f args n e hf]
    exact evalAll_andThen_strictCall args _
  · rintro b rfl hb args room
    rw [eval_eager t room frame f args n b hf hb]
    exact evalAll_andThen_strictCall args _
  · rintro rfl c x y room
    refine ⟨?_, fun htrue y' => ?_⟩
    · rw [eval_lazy t room frame f c x y [] n .cond hf rfl]
      exact condCall_andThen room _ _ _
    · exact eval_cond_of_true hf htrue x y y'

/-- In the fresh table, a sum of two literals and a conditional on `true` evaluated with
ten frames: the sum is a strict call of the builtin, and the conditional picks its first
branch whatever its second. -/
theorem calls_evaluate_strictly_initial :
    Table.initial.find? "+" = some ⟨2, .builtin .add⟩ ∧
    StrictCall Table.initial 8 [] [.lit (.num 1), .lit (.num 2)] (Builtin.add.callWithin 9)
      ((Expr.app "+" [.lit (.num 1), .lit (.num 2)]).eval Table.initial 10 []) ∧
    Table.initial.find? "if" = some ⟨3, .builtin .cond⟩ ∧
    CondCall 8 ((Expr.app "true" []).eval Table.initial 8 []) ((Expr.lit (.num 1)).eval Table.initial 8 [])
      ((Expr.lit (.num 2)).eval Table.initial 8 [])
      ((Expr.app "if" [.app "true" [], .lit (.num 1), .lit (.num 2)]).eval Table.initial 10 []) :=
  ⟨rfl, (calls_evaluate_strictly Table.initial [] "+" _ rfl).2.2.1 .add rfl rfl _ 8, rfl,
    ((calls_evaluate_strictly Table.initial [] "if" _ rfl).2.2.2 rfl _ _ _ 8).1⟩

/-! ### The type error needs room -/

/-- A conditional on the number 5, evaluated with three frames in the fresh table: the
condition gives its value with the one frame it is left, yet the conditional stops for
want of room instead of raising the type error. -/
theorem cond_type_error_needs_room :
    (Expr.lit (.num 5)).eval Table.initial 1 [] = .pure (.num 5) ∧
    (Expr.app "if" [.lit (.num 5), .lit (.num 1), .lit (.num 2)]).eval Table.initial 3 [] =
      .fail .tooDeep := by
  refine ⟨eval_lit _ 0 _ _, ?_⟩
  rw [eval_lazy Table.initial 1 [] "if" _ _ _ [] 3 .cond rfl rfl, eval_lit]
  rfl

end Expr

end Parenless
