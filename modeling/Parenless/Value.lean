/-!
Runtime values.

A value is a number, a text, a boolean, a list of values or the unit value. Numbers
are integers: literals and arithmetic results stay within the unsigned 64-bit range
(the arithmetic checks it), but values handed in from outside may lie anywhere.

`Value.render` is how a value is shown to the user: numbers in decimal, `true`,
`false`, `none`, a text as it is (no quotes), a list as its items between brackets
with a comma and a space between them.
-/

namespace Parenless

/-- The largest number a literal or an arithmetic result may be: 2^64 - 1. -/
def maxNumber : Nat := 18446744073709551615

/-- A runtime value. -/
inductive Value where
  | num (n : Int)
  | text (s : String)
  | bool (b : Bool)
  | list (items : List Value)
  | unit
  deriving Repr, Inhabited

/-- The kind of a value, as error messages name it. -/
inductive Kind where
  | number
  | text
  | boolean
  | list
  | unit
  deriving Repr, DecidableEq, Inhabited

namespace Kind

/-- The word for a kind in messages. -/
def name : Kind → String
  | .number => "number"
  | .text => "text"
  | .boolean => "boolean"
  | .list => "list"
  | .unit => "unit"

end Kind

namespace Value

/-- The kind of a value. -/
def kind : Value → Kind
  | .num _ => .number
  | .text _ => .text
  | .bool _ => .boolean
  | .list _ => .list
  | .unit => .unit

/-- Decimal digits of an integer, with a minus sign when negative. -/
def numeral (n : Int) : String :=
  match n with
  | .ofNat k => Nat.repr k
  | .negSucc k => "-" ++ Nat.repr (k + 1)

mutual

/-- The text shown for a value. -/
def render : Value → String
  | .num n => numeral n
  | .text s => s
  | .bool true => "true"
  | .bool false => "false"
  | .list items => "[" ++ renderItems items ++ "]"
  | .unit => "none"

/-- The items of a list, shown and separated by a comma and a space. -/
def renderItems : List Value → String
  | [] => ""
  | [v] => v.render
  | v :: w :: rest => v.render ++ ", " ++ renderItems (w :: rest)

end

mutual

/-- The frames a walk over a value stacks above its own frame when it copies or
shows the value: none for a value that is not a list; for a list, a comprehension
over its items and, two frames up, the walk of each item, so one frame for the
empty list. -/
def nesting : Value → Nat
  | .list [] => 1
  | .list (v :: vs) => 2 + nestingItems (v :: vs)
  | _ => 0

/-- The deepest walk among a list's items. -/
def nestingItems : List Value → Nat
  | [] => 0
  | v :: rest => max v.nesting (nestingItems rest)

end

/-- The items of a value seen as a list: a list's own items, or the value alone. -/
def asList : Value → List Value
  | .list items => items
  | v => [v]

/-- The deepest walk among joined items is the deeper of the two parts' walks. -/
theorem nestingItems_append (xs ys : List Value) :
    nestingItems (xs ++ ys) = max (nestingItems xs) (nestingItems ys) := by
  induction xs with
  | nil => simp [nestingItems]
  | cons x xs ih => simp [nestingItems, ih, Nat.max_assoc]

/-- A list's walk is at most two frames above its deepest item's. -/
theorem nesting_list_le (items : List Value) :
    (Value.list items).nesting ≤ 2 + nestingItems items := by
  cases items <;> simp [nesting, nestingItems]

/-- The items a value stands for walk no deeper than the value itself. -/
theorem nestingItems_asList_le (v : Value) : nestingItems v.asList ≤ v.nesting := by
  cases v with
  | list items =>
    cases items with
    | nil => simp [asList, nestingItems, nesting]
    | cons x xs => simp [asList, nesting]
  | num _ => simp [asList, nestingItems, nesting]
  | text _ => simp [asList, nestingItems, nesting]
  | bool _ => simp [asList, nestingItems, nesting]
  | unit => simp [asList, nestingItems, nesting]

/-- A value that is not a list has no walk above its own frame. -/
theorem nesting_of_kind_ne {v : Value} (h : v.kind ≠ .list) : v.nesting = 0 := by
  cases v with
  | list _ => exact absurd rfl h
  | num _ => rfl
  | text _ => rfl
  | bool _ => rfl
  | unit => rfl

/-- Dropping a list's first item never deepens its walk. -/
theorem nesting_tail_le (v : Value) (rest : List Value) :
    (Value.list rest).nesting ≤ (Value.list (v :: rest)).nesting := by
  cases rest with
  | nil => simp only [nesting, nestingItems]; omega
  | cons w ws => simp only [nesting, nestingItems]; omega

example : (Value.list [.num 1, .text "a", .bool true, .unit, .list []]).render =
    "[1, a, true, none, []]" := by decide

example : (Value.num (-5)).render = "-5" := by decide

end Value

end Parenless
