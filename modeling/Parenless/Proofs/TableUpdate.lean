import Parenless.Table
/-!
Updating a function table.

A table is a list of entries in order of first declaration, and `Table.declare` is its
only update: a name that has a function gets the new one in its place, a new name goes
at the end. Three laws say all that later proofs need of it. Looking a name up after a
declaration finds the declared function for that name and the old answer for every
other (`find?_declare`); declaring a name twice is declaring it once, with the last
function (`declare_declare`); and the order of the names changes only by a new name at
the end (`names_declare`).
-/

namespace Parenless

namespace Table

/-- The names of a table's entries, in table order. -/
def names (t : Table) : List String := t.entries.map Prod.fst

theorem contains_eq_isSome (t : Table) (n : String) : t.contains n = (t.find? n).isSome := by
  simp only [contains, find?, Option.isSome_map]
  rw [Bool.eq_iff_iff, List.any_eq_true, List.find?_isSome]

private theorem find_pred_replace (n m : String) (f : Fn) :
    ((fun e : String × Fn => e.1 == m) ∘ fun e => if e.1 == n then (n, f) else e) =
      fun e => e.1 == m := by
  funext e
  by_cases h : e.1 = n
  · simp [h]
  · simp [h]

theorem find?_declare (t : Table) (n m : String) (f : Fn) :
    (t.declare n f).find? m = if m = n then some f else t.find? m := by
  unfold declare
  by_cases hc : t.contains n
  · rw [if_pos hc]
    simp only [find?, List.find?_map, find_pred_replace, Option.map_map]
    by_cases hmn : m = n
    · subst hmn
      rw [if_pos rfl]
      obtain ⟨e, he⟩ : ∃ e, t.entries.find? (fun e => e.1 == m) = some e :=
        Option.isSome_iff_exists.mp (by simpa [contains, List.find?_isSome] using hc)
      have hname : e.1 = m := by simpa using List.find?_some he
      simp [he, hname]
    · rw [if_neg hmn]
      cases he : t.entries.find? (fun e => e.1 == m) with
      | none => rfl
      | some e =>
        have hname : e.1 = m := by simpa using List.find?_some he
        simp [hname, hmn]
  · rw [if_neg hc]
    simp only [find?, List.find?_append]
    by_cases hmn : m = n
    · subst hmn
      have hnone : t.entries.find? (fun e => e.1 == m) = none :=
        List.find?_eq_none.mpr fun e he hme => hc (List.any_eq_true.mpr ⟨e, he, hme⟩)
      simp [hnone]
    · simp [hmn, Ne.symm hmn]

theorem contains_declare (t : Table) (n m : String) (f : Fn) :
    (t.declare n f).contains m = (decide (m = n) || t.contains m) := by
  rw [contains_eq_isSome, contains_eq_isSome, find?_declare]
  by_cases hmn : m = n
  · simp [hmn]
  · simp [hmn]

/-- Declaring a name twice is declaring it once, with the second function. -/
theorem declare_declare (t : Table) (n : String) (f g : Fn) :
    (t.declare n f).declare n g = t.declare n g := by
  have hc : (t.declare n f).contains n = true := by simp [contains_declare]
  unfold declare at hc ⊢
  rw [if_pos hc]
  by_cases h : t.contains n
  · simp only [if_pos h, List.map_map, Table.mk.injEq]
    apply List.map_congr_left
    intro e _
    by_cases he : e.1 = n
    · simp [he]
    · simp [he]
  · simp only [if_neg h, List.map_append, List.map_cons, List.map_nil, beq_self_eq_true,
      if_true, Table.mk.injEq, List.append_cancel_right_eq]
    -- no entry had the name, so the update leaves every old entry alone
    have hsame : t.entries.map (fun e => if e.1 == n then (n, g) else e) = t.entries.map id :=
      List.map_congr_left fun e he => by
        have hne : e.1 ≠ n := fun hen => h (List.any_eq_true.mpr ⟨e, he, by simp [hen]⟩)
        simp [hne]
    rw [hsame, List.map_id]

/-- A declaration keeps the order of the names, and adds a new name at the end. -/
theorem names_declare (t : Table) (n : String) (f : Fn) :
    (t.declare n f).names = if t.contains n then t.names else t.names ++ [n] := by
  unfold declare names
  by_cases h : t.contains n
  · simp only [if_pos h, List.map_map]
    apply List.map_congr_left
    intro e _
    by_cases he : e.1 = n
    · simp [he]
    · simp [he]
  · simp [h]

end Table

end Parenless
