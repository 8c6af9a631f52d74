/-
# Theory.Writes -- writing a list of values into a table

A table is a function of its keys.  Values are written one after the other, so a later one
hides an earlier one for the same key; with distinct keys nothing is hidden, and the order of
the writes does not matter (`writeAll_perm`).
-/
import Mathlib.Data.List.Nodup
import Mathlib.Logic.Function.Basic

namespace Dreamscape.Theory

set_option autoImplicit false

section Writes

variable {ι α : Type} [DecidableEq ι]

/-- The table after these values have been written. -/
def writeAll (table : ι → α) (writes : List (ι × α)) : ι → α :=
  writes.foldl (fun table w => Function.update table w.1 w.2) table

@[simp] theorem writeAll_nil (table : ι → α) : writeAll table [] = table := rfl

@[simp] theorem writeAll_cons (table : ι → α) (w : ι × α) (writes : List (ι × α)) :
    writeAll table (w :: writes) = writeAll (Function.update table w.1 w.2) writes := rfl

/-- A key nobody writes keeps its value. -/
theorem writeAll_other {writes : List (ι × α)} {k : ι} (other : k ∉ writes.map Prod.fst)
    (table : ι → α) : writeAll table writes k = table k := by
  induction writes generalizing table with
  | nil => rfl
  | cons w writes ih =>
      obtain ⟨apart, other⟩ := not_or.mp (List.mem_cons.not.mp other)
      rw [writeAll_cons, ih other, Function.update_of_ne apart]

/-- With distinct keys every write is found. -/
theorem writeAll_written {writes : List (ι × α)} (distinct : (writes.map Prod.fst).Nodup)
    {w : ι × α} (written : w ∈ writes) (table : ι → α) : writeAll table writes w.1 = w.2 := by
  induction writes generalizing table with
  | nil => cases written
  | cons first writes ih =>
      obtain ⟨fresh, distinct⟩ := List.nodup_cons.mp distinct
      rw [writeAll_cons]
      rcases List.mem_cons.mp written with rfl | later
      · rw [writeAll_other fresh, Function.update_self]
      · exact ih distinct later _

/-- **The order of the writes** does not matter when their keys are distinct. -/
theorem writeAll_perm {writes writes' : List (ι × α)} (distinct : (writes.map Prod.fst).Nodup)
    (reordered : writes.Perm writes') (table : ι → α) :
    writeAll table writes = writeAll table writes' := by
  refine reordered.foldl_eq' (fun v here w there table => ?_) table
  by_cases same : v.1 = w.1
  · rw [List.inj_on_of_nodup_map distinct here there same]
  · exact Function.update_comm same v.2 w.2 table

end Writes

end Dreamscape.Theory
