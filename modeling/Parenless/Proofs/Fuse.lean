import Parenless.Eval
/-!
Fusing lists.

`fuse` joins the items of its two arguments, where a value that is not a list counts
as a list of itself. Main statement (`fuse_items`): in a table where `fuse`, `head`
and `tail` are the builtins, and with room on the stack for the copies `fuse` makes,
evaluating `fuse` on two values gives that list, so fusing is associative, and fusing
the head and the tail of a list whose first item is not a list gives the list back.
-/

namespace Parenless.Expr

variable {t : Table}

theorem evalAll_two (room : Nat) (frame : List Value) (x y : Expr) (a b : Value)
    (hx : x.eval t room frame = .pure a) (hy : y.eval t room frame = .pure b) :
    evalAll t room frame [x, y] = .pure [a, b] := by
  rw [evalAll_cons, evalAll_cons, evalAll_nil, hx, hy]
  rfl

theorem evalAll_one (room : Nat) (frame : List Value) (x : Expr) (a : Value)
    (hx : x.eval t room frame = .pure a) : evalAll t room frame [x] = .pure [a] := by
  rw [evalAll_cons, evalAll_nil, hx]
  rfl

theorem eval_fuse (room : Nat) (frame : List Value) (x y : Expr) (a b : Value)
    (hf : t.find? "fuse" = some ⟨2, .builtin .fuse⟩)
    (hr : 4 + max a.nesting b.nesting ≤ room)
    (hx : x.eval t (room - 2) frame = .pure a) (hy : y.eval t (room - 2) frame = .pure b) :
    (Expr.app "fuse" [x, y]).eval t room frame = .pure (.list (a.asList ++ b.asList)) := by
  obtain ⟨r, rfl⟩ : ∃ r, room = r + 2 := ⟨room - 2, by omega⟩
  simp only [Nat.add_sub_cancel] at hx hy
  rw [eval_eager t r frame "fuse" [x, y] 2 .fuse hf rfl, evalAll_two r frame x y a b hx hy,
    Run.pure_andThen, Builtin.callWithin_of_le (by simp only [Builtin.reach]; omega)]
  rfl

theorem eval_head (room : Nat) (frame : List Value) (x : Expr) (v : Value) (rest : List Value)
    (hh : t.find? "head" = some ⟨1, .builtin .head⟩) (hr : 3 + v.nesting ≤ room)
    (hx : x.eval t (room - 2) frame = .pure (.list (v :: rest))) :
    (Expr.app "head" [x]).eval t room frame = .pure v := by
  obtain ⟨r, rfl⟩ : ∃ r, room = r + 2 := ⟨room - 2, by omega⟩
  simp only [Nat.add_sub_cancel] at hx
  rw [eval_eager t r frame "head" [x] 1 .head hh rfl, evalAll_one r frame x _ hx,
    Run.pure_andThen, Builtin.callWithin_of_le (by simp only [Builtin.reach]; omega)]
  rfl

theorem eval_tail (room : Nat) (frame : List Value) (x : Expr) (v : Value) (rest : List Value)
    (htl : t.find? "tail" = some ⟨1, .builtin .tail⟩)
    (hr : 3 + (Value.list rest).nesting ≤ room)
    (hx : x.eval t (room - 2) frame = .pure (.list (v :: rest))) :
    (Expr.app "tail" [x]).eval t room frame = .pure (.list rest) := by
  obtain ⟨r, rfl⟩ : ∃ r, room = r + 2 := ⟨room - 2, by omega⟩
  simp only [Nat.add_sub_cancel] at hx
  rw [eval_eager t r frame "tail" [x] 1 .tail htl rfl, evalAll_one r frame x _ hx,
    Run.pure_andThen, Builtin.callWithin_of_le (by simp only [Builtin.reach]; omega)]
  rfl

theorem asList_of_kind_ne {v : Value} (h : v.kind ≠ .list) : v.asList = [v] := by
  cases v with
  | list items => exact absurd rfl h
  | num _ => rfl
  | text _ => rfl
  | bool _ => rfl
  | unit => rfl

theorem nesting_fused (a b : Value) :
    (Value.list (a.asList ++ b.asList)).nesting ≤ 2 + max a.nesting b.nesting := by
  have h1 := Value.nesting_list_le (a.asList ++ b.asList)
  have h2 := Value.nestingItems_asList_le a
  have h3 := Value.nestingItems_asList_le b
  rw [Value.nestingItems_append] at h1
  omega

/-- In a table where `fuse`, `head` and `tail` are the builtins, and with room for the
copies, `fuse` of two values is the list of their items; fusing is associative; and
fusing the head and the tail of a list whose first item is not a list gives the list
back. -/
theorem fuse_items
    (hf : t.find? "fuse" = some ⟨2, .builtin .fuse⟩)
    (hh : t.find? "head" = some ⟨1, .builtin .head⟩)
    (htl : t.find? "tail" = some ⟨1, .builtin .tail⟩) :
    (∀ (a b : Value) (room : Nat), 4 + max a.nesting b.nesting ≤ room →
        (Expr.app "fuse" [.arg 0, .arg 1]).eval t room [a, b] =
          .pure (.list (a.asList ++ b.asList))) ∧
    (∀ (a b c : Value) (room : Nat), 6 + max a.nesting (max b.nesting c.nesting) ≤ room →
        (Expr.app "fuse" [.app "fuse" [.arg 0, .arg 1], .arg 2]).eval t room [a, b, c] =
        (Expr.app "fuse" [.arg 0, .app "fuse" [.arg 1, .arg 2]]).eval t room [a, b, c]) ∧
    (∀ (v : Value) (rest : List Value) (room : Nat), v.kind ≠ .list →
        5 + (Value.list (v :: rest)).nesting ≤ room →
        (Expr.app "fuse" [.app "head" [.arg 0], .app "tail" [.arg 0]]).eval t room
          [.list (v :: rest)] = .pure (.list (v :: rest))) := by
  refine ⟨?_, ?_, ?_⟩
  · intro a b room hr
    exact eval_fuse room [a, b] _ _ a b hf hr (eval_arg_of_pos t 0 _ a (by omega) rfl)
      (eval_arg_of_pos t 1 _ b (by omega) rfl)
  · intro a b c room hr
    have hab := nesting_fused a b
    have hbc := nesting_fused b c
    have hl := eval_fuse (room - 2) [a, b, c] (.arg 0) (.arg 1) a b hf (by omega)
      (eval_arg_of_pos t 0 _ a (by omega) rfl) (eval_arg_of_pos t 1 _ b (by omega) rfl)
    have hr' := eval_fuse (room - 2) [a, b, c] (.arg 1) (.arg 2) b c hf (by omega)
      (eval_arg_of_pos t 1 _ b (by omega) rfl) (eval_arg_of_pos t 2 _ c (by omega) rfl)
    rw [eval_fuse room [a, b, c] _ (.arg 2) _ c hf (by omega) hl
        (eval_arg_of_pos t 2 _ c (by omega) rfl),
      eval_fuse room [a, b, c] (.arg 0) _ a _ hf (by omega)
        (eval_arg_of_pos t 0 _ a (by omega) rfl) hr']
    simp [Value.asList]
  · intro v rest room hv hr
    have h0 := Value.nesting_of_kind_ne hv
    have htail := Value.nesting_tail_le v rest
    have hx := eval_arg_of_pos t 0 [.list (v :: rest)] _ (show 0 < room - 4 by omega) rfl
    rw [eval_fuse room _ _ _ v (.list rest) hf (by omega)
      (eval_head (room - 2) _ _ v rest hh (by omega) hx)
      (eval_tail (room - 2) _ _ v rest htl (by omega) hx), asList_of_kind_ne hv]
    rfl

/-- The fresh table has the builtin `fuse`, `head` and `tail`, and at the values 1,
`[2]` and `"c"`, and the list `[1, 2]`, with room for ten frames, the three laws
hold. -/
theorem fuse_items_initial :
    Table.initial.find? "fuse" = some ⟨2, .builtin .fuse⟩ ∧
    Table.initial.find? "head" = some ⟨1, .builtin .head⟩ ∧
    Table.initial.find? "tail" = some ⟨1, .builtin .tail⟩ ∧
    (Expr.app "fuse" [.arg 0, .arg 1]).eval Table.initial 10 [.num 1, .list [.num 2]] =
      .pure (.list [.num 1, .num 2]) ∧
    (Expr.app "fuse" [.app "fuse" [.arg 0, .arg 1], .arg 2]).eval Table.initial 10
        [.num 1, .list [.num 2], .text "c"] =
      (Expr.app "fuse" [.arg 0, .app "fuse" [.arg 1, .arg 2]]).eval Table.initial 10
        [.num 1, .list [.num 2], .text "c"] ∧
    (Expr.app "fuse" [.app "head" [.arg 0], .app "tail" [.arg 0]]).eval Table.initial 10
        [.list [.num 1, .num 2]] = .pure (.list [.num 1, .num 2]) :=
  have h := fuse_items (t := Table.initial) rfl rfl rfl
  ⟨rfl, rfl, rfl, h.1 (.num 1) (.list [.num 2]) 10 (by decide),
    h.2.1 (.num 1) (.list [.num 2]) (.text "c") 10 (by decide),
    h.2.2 (.num 1) [.num 2] 10 (by simp [Value.kind]) (by decide)⟩

end Parenless.Expr
