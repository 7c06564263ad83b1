import Parenless.Table
import Parenless.Error
/-!
Evaluation.

An expression is evaluated against a function table and the argument values of the
call in scope (the frame). Evaluation is strict and left to right: a call of a user
function or an eager builtin evaluates its arguments in order, stops at the first
error, and only then runs the callee; a user body sees only its own arguments. The
conditional `if` evaluates its condition, which must be a boolean, and then only the
branch it picks.

Numbers are checked unsigned 64-bit arithmetic: a sum, difference or product outside
`[0, 2^64 - 1]` is an overflow error, and division and remainder refuse a zero
divisor. `print` writes a value's text and a line feed, and gives the unit value.

Evaluation records everything printed, also when it stops with an error.

Evaluation nests on the call stack, and the caller gives the room it has, in frames.
Evaluating an expression takes a frame; a call takes one more to look its callee up.
A user function's arguments are evaluated two frames up (under the comprehension that
gathers them) and its body one frame up; so are an eager builtin's arguments, and the
builtin itself runs one frame up with its own helpers above it (`Builtin.reach`); the
conditional runs one frame up and evaluates its parts two frames up. A call of a declaration that
is still being parsed evaluates its arguments as a user call does and then fails. A
step that would need more frames than the room holds stops with `Failure.tooDeep`.
-/

namespace Parenless

/-- What an evaluation printed, and its value or why it stopped. -/
structure Run (α : Type) where
  out : String
  result : Except Failure α

namespace Run

/-- A run that prints nothing and gives `a`. -/
def pure (a : α) : Run α := ⟨"", .ok a⟩

/-- A run that prints nothing and fails. -/
def fail (f : Failure) : Run α := ⟨"", .error f⟩

/-- Runs `k` on the value of `r`, after what `r` printed; stops with `r` if it failed. -/
def andThen (r : Run α) (k : α → Run β) : Run β :=
  match r.result with
  | .ok a => let r' := k a; ⟨r.out ++ r'.out, r'.result⟩
  | .error e => ⟨r.out, .error e⟩

/-- Running on after a run that printed nothing is running on its value. -/
theorem pure_andThen (a : α) (k : α → Run β) : (Run.pure a).andThen k = k a := by
  simp [andThen, Run.pure]

end Run

namespace Value

/-- A number result, or an overflow when it leaves `[0, 2^64 - 1]`. -/
def checked (op : ArithOp) (n : Int) : Except Error Value :=
  if n < 0 ∨ (maxNumber : Int) < n then .error (.overflow op) else .ok (.num n)

/-- The two numbers of a binary numeric builtin; the first argument is checked first. -/
def numbers : Value → Value → Except Error (Int × Int)
  | .num a, .num b => .ok (a, b)
  | .num _, b => .error (.wrongType 2 .number b.kind)
  | a, _ => .error (.wrongType 1 .number a.kind)

/-- The items of a list argument. -/
def items : Value → Except Error (List Value)
  | .list xs => .ok xs
  | v => .error (.wrongType 1 .list v.kind)

end Value

namespace Builtin

/-- What an eager builtin gives for its argument values. Calls are parsed with the
builtin's arity, so other argument counts do not occur. -/
def apply : Builtin → List Value → Except Error Value
  | .add, [.num a, .num b] => Value.checked .add (a + b)
  | .add, [.text a, .text b] => .ok (.text (a ++ b))
  | .add, [a, b] => .error (.cannotAdd a.kind b.kind)
  | .sub, [a, b] => do let (x, y) ← Value.numbers a b; Value.checked .subtract (x - y)
  | .mul, [a, b] => do let (x, y) ← Value.numbers a b; Value.checked .multiply (x * y)
  | .div, [a, b] => do
      let (x, y) ← Value.numbers a b
      if y = 0 then .error .divisionByZero else .ok (.num (x.fdiv y))
  | .mod, [a, b] => do
      let (x, y) ← Value.numbers a b
      if y = 0 then .error .remainderByZero else .ok (.num (x.fmod y))
  | .lt, [a, b] => do let (x, y) ← Value.numbers a b; .ok (.bool (decide (x < y)))
  | .gt, [a, b] => do let (x, y) ← Value.numbers a b; .ok (.bool (decide (y < x)))
  | .eq, [a, b] => do let (x, y) ← Value.numbers a b; .ok (.bool (decide (x = y)))
  | .true, [] => .ok (.bool Bool.true)
  | .false, [] => .ok (.bool Bool.false)
  | .none, [] => .ok .unit
  | .pair, [a, b] => .ok (.list [a, b])
  | .head, [a] => do
      match ← Value.items a with
      | x :: _ => .ok x
      | [] => .error .emptyHead
  | .tail, [a] => do
      match ← Value.items a with
      | _ :: xs => .ok (.list xs)
      | [] => .error .emptyTail
  | .fuse, [a, b] => .ok (.list (a.asList ++ b.asList))
  | _, _ => .ok .unit

/-- What an eager builtin prints: `print` writes its argument's text and a line feed. -/
def output : Builtin → List Value → String
  | .print, [v] => v.render ++ "\n"
  | _, _ => ""

/-- Calls an eager builtin on argument values. -/
def call (b : Builtin) (vs : List Value) : Run Value :=
  ⟨b.output vs, match b.apply vs with
    | .ok v => .ok v
    | .error e => .error (.error e)⟩

/-- The frames an eager builtin's own work stacks above its frame at the deepest:
its checks and helpers, the building of the error it raises, and the walk that copies
or shows a list argument. -/
def reach : Builtin → List Value → Nat
  | .add, [.num a, .num b] => if (Value.checked .add (a + b)).isOk then 1 else 2
  | .add, [.text _, .text _] => 1
  | .add, [_, _] => 2
  | .sub, [a, b] | .mul, [a, b] | .div, [a, b] | .mod, [a, b]
  | .lt, [a, b] | .gt, [a, b] | .eq, [a, b] =>
    match Value.numbers a b with
    | .ok _ => 2
    | .error _ => 4
  | .pair, [a, b] => 1 + max a.nesting b.nesting
  | .head, [.list (x :: _)] => 1 + x.nesting
  | .tail, [.list (_ :: xs)] => 1 + (Value.list xs).nesting
  | .head, [.list []] | .tail, [.list []] => 1
  | .head, [_] | .tail, [_] => 4
  | .fuse, [a, b] => 2 + max a.nesting b.nesting
  | .print, [v] => 1 + v.nesting
  | _, _ => 0

/-- Calls an eager builtin whose frame has `room` frames, its own included. -/
def callWithin (room : Nat) (b : Builtin) (vs : List Value) : Run Value :=
  if room < 1 + b.reach vs then .fail .tooDeep else b.call vs

/-- With room for its own work, a builtin call is the call itself. -/
theorem callWithin_of_le {room : Nat} {b : Builtin} {vs : List Value}
    (h : 1 + b.reach vs ≤ room) : b.callWithin room vs = b.call vs := by
  unfold callWithin
  rw [if_neg (by omega)]

end Builtin

namespace Expr

mutual

/-- Evaluates `e` against the table `t` and the frame, with `room` frames of stack,
its own included. -/
def eval (t : Table) : Nat → List Value → Expr → Run Value
  | 0, _, _ => .fail .tooDeep
  | room + 1, frame, .arg i =>
    match frame[i]? with
    | some v => .pure v
    | none =>
      if room = 0 then .fail .tooDeep
      else .fail (.error (.argumentOutOfRange i frame.length))
  | _ + 1, _, .lit v => .pure v
  | 1, _, .app _ _ => .fail .tooDeep
  | room + 2, frame, .app f args =>
    match t.find? f with
    | none => .fail (.error (.vanished f))
    | some fn =>
      match fn.body with
      | .user body => (evalAll t room frame args).andThen fun vs => eval t (room + 1) vs body
      | .placeholder =>
        -- a declaration still being parsed holds a body that cannot be evaluated: its
        -- arguments are evaluated as for a user call, and the body fails one frame up,
        -- where raising the error takes a frame more
        (evalAll t room frame args).andThen fun _ =>
          if room = 0 then .fail .tooDeep else .fail (.error .unfinished)
      | .builtin b =>
        if b.isLazy then
          match args with
          | c :: x :: y :: _ =>
            (eval t room frame c).andThen fun
              | .bool true => eval t room frame x
              | .bool false => eval t room frame y
              | v => if room < 2 then .fail .tooDeep else .fail (.error (.wrongType 1 .boolean v.kind))
          | _ => .pure .unit
        else (evalAll t room frame args).andThen (b.callWithin (room + 1))
termination_by room _ _ => (room, 0)

/-- Evaluates a list of argument expressions in order, each with `room` frames. -/
def evalAll (t : Table) : Nat → List Value → List Expr → Run (List Value)
  | _, _, [] => .pure []
  | room, frame, a :: rest =>
    (eval t room frame a).andThen fun v =>
      (evalAll t room frame rest).andThen fun vs => .pure (v :: vs)
termination_by room _ es => (room, es.length + 1)

end

/-! ### Evaluation step by step -/

/-- With no room left, evaluation stops. -/
theorem eval_zero (t : Table) (frame : List Value) (e : Expr) :
    e.eval t 0 frame = .fail .tooDeep := by
  rw [eval.eq_def]

/-- An argument reference gives the frame's value at its position. -/
theorem eval_arg (t : Table) (room i : Nat) (frame : List Value) (v : Value)
    (h : frame[i]? = some v) : (Expr.arg i).eval t (room + 1) frame = .pure v := by
  rw [eval.eq_def]
  simp [h]

/-- A literal gives its value. -/
theorem eval_lit (t : Table) (room : Nat) (frame : List Value) (v : Value) :
    (Expr.lit v).eval t (room + 1) frame = .pure v := by
  rw [eval.eq_def]

/-- An argument reference gives the frame's value whenever its own frame fits. -/
theorem eval_arg_of_pos (t : Table) {room : Nat} (i : Nat) (frame : List Value) (v : Value)
    (h0 : 0 < room) (h : frame[i]? = some v) : (Expr.arg i).eval t room frame = .pure v := by
  obtain ⟨r, rfl⟩ : ∃ r, room = r + 1 := ⟨room - 1, by omega⟩
  exact eval_arg t r i frame v h

/-- A call needs a frame to look its callee up. -/
theorem eval_app_one (t : Table) (frame : List Value) (f : String) (args : List Expr) :
    (Expr.app f args).eval t 1 frame = .fail .tooDeep := by
  rw [eval.eq_def]

/-- No arguments give no values. -/
theorem evalAll_nil (t : Table) (room : Nat) (frame : List Value) :
    evalAll t room frame [] = .pure [] := by
  rw [evalAll.eq_def]

/-- Arguments are evaluated first to last. -/
theorem evalAll_cons (t : Table) (room : Nat) (frame : List Value) (a : Expr)
    (rest : List Expr) :
    evalAll t room frame (a :: rest) =
      (a.eval t room frame).andThen fun v =>
        (evalAll t room frame rest).andThen fun vs => .pure (v :: vs) := by
  rw [evalAll.eq_def]

/-- A call of an eager builtin evaluates its arguments two frames up and then calls
the builtin one frame up. -/
theorem eval_eager (t : Table) (room : Nat) (frame : List Value) (f : String)
    (args : List Expr) (n : Nat) (b : Builtin) (hf : t.find? f = some ⟨n, .builtin b⟩)
    (hb : b.isLazy = false) :
    (Expr.app f args).eval t (room + 2) frame =
      (evalAll t room frame args).andThen (b.callWithin (room + 1)) := by
  rw [eval.eq_def]
  simp only [hf, hb, Bool.false_eq_true, if_false]

/-- A call of a user function evaluates its arguments two frames up and then the body
one frame up, against the argument values. -/
theorem eval_user (t : Table) (room : Nat) (frame : List Value) (f : String)
    (args : List Expr) (n : Nat) (body : Expr) (hf : t.find? f = some ⟨n, .user body⟩) :
    (Expr.app f args).eval t (room + 2) frame =
      (evalAll t room frame args).andThen fun vs => body.eval t (room + 1) vs := by
  rw [eval.eq_def]
  simp only [hf]

/-- A call of a declaration that is still being parsed evaluates its arguments two
frames up, as a user call does, and then fails one frame up. -/
theorem eval_placeholder (t : Table) (room : Nat) (frame : List Value) (f : String)
    (args : List Expr) (n : Nat) (hf : t.find? f = some ⟨n, .placeholder⟩) :
    (Expr.app f args).eval t (room + 2) frame =
      (evalAll t room frame args).andThen fun _ =>
        if room = 0 then .fail .tooDeep else .fail (.error .unfinished) := by
  rw [eval.eq_def]
  simp only [hf]

/-- A call of the conditional evaluates its condition two frames up and then only the
branch the condition picks, also two frames up. A condition that is not a boolean is an
error, and raising it takes two frames above the conditional's own. -/
theorem eval_lazy (t : Table) (room : Nat) (frame : List Value) (f : String) (c x y : Expr)
    (rest : List Expr) (n : Nat) (b : Builtin) (hf : t.find? f = some ⟨n, .builtin b⟩)
    (hb : b.isLazy = true) :
    (Expr.app f (c :: x :: y :: rest)).eval t (room + 2) frame =
      (c.eval t room frame).andThen fun
        | .bool true => x.eval t room frame
        | .bool false => y.eval t room frame
        | v => if room < 2 then .fail .tooDeep
          else .fail (.error (.wrongType 1 .boolean v.kind)) := by
  rw [eval.eq_def]
  simp only [hf, hb, if_true]

end Expr

end Parenless
