/-
# Theory.Tally -- adding up samples by key

A table is a list of keys with amounts from a commutative monoid.  `total` is what
a table says about a key, whatever the order of its rows and however often a key
occurs, so a list of samples is a table as well.  `record` is the table an
accumulator keeps: one row for each key, a new key in front.

`total_recordAll` says that the accumulated table and the samples have the same
totals; `keys_recordAll` gives its rows, the keys in reverse order of their first
occurrence.
-/
import Mathlib.Algebra.BigOperators.Group.List.Basic
import Mathlib.Data.List.Dedup
import Mathlib.Data.List.Induction

namespace Dreamscape.Theory.Tally

set_option autoImplicit false

variable {K M : Type} [DecidableEq K]

def keys (table : List (K × M)) : List K := table.map Prod.fst

section Record

variable [Add M]

/-- Add to the first row of the key. -/
def addTo (k : K) (v : M) : List (K × M) → List (K × M)
  | [] => []
  | row :: rest => if row.1 = k then (row.1, row.2 + v) :: rest else row :: addTo k v rest

/-- Add a sample: to the row of its key, or as a new row in front. -/
def record (table : List (K × M)) (sample : K × M) : List (K × M) :=
  if sample.1 ∈ keys table then addTo sample.1 sample.2 table else sample :: table

def recordAll (samples : List (K × M)) : List (K × M) := samples.foldl record []

@[simp] theorem keys_addTo (k : K) (v : M) (table : List (K × M)) :
    keys (addTo k v table) = keys table := by
  induction table with
  | nil => rfl
  | cons row rest ih =>
      simp only [keys] at ih ⊢
      by_cases hit : row.1 = k <;> simp [addTo, hit, ih]

theorem keys_record (table : List (K × M)) (sample : K × M) :
    keys (record table sample) =
      if sample.1 ∈ keys table then keys table else sample.1 :: keys table := by
  by_cases known : sample.1 ∈ keys table
  · simp only [record, known, if_true, keys_addTo]
  · simp only [record, known, if_false]
    rfl

theorem recordAll_append (samples later : List (K × M)) :
    recordAll (samples ++ later) = later.foldl record (recordAll samples) :=
  List.foldl_append

/-- The rows of the accumulated table are the keys of the samples, the last key to
appear first. -/
theorem keys_recordAll (samples : List (K × M)) :
    keys (recordAll samples) = (keys samples).reverse.dedup := by
  induction samples using List.reverseRecOn with
  | nil => rfl
  | append_singleton samples sample ih =>
      have split : (keys (samples ++ [sample])).reverse = sample.1 :: (keys samples).reverse := by
        simp [keys]
      rw [recordAll_append, List.foldl_cons, List.foldl_nil, keys_record, ih, split]
      by_cases known : sample.1 ∈ (keys samples).reverse
      · rw [if_pos (List.mem_dedup.mpr known), List.dedup_cons_of_mem known]
      · rw [if_neg (fun inside => known (List.mem_dedup.mp inside)),
          List.dedup_cons_of_notMem known]

theorem nodup_recordAll (samples : List (K × M)) : (keys (recordAll samples)).Nodup := by
  rw [keys_recordAll]
  exact List.nodup_dedup _

theorem mem_keys_recordAll (samples : List (K × M)) (k : K) :
    k ∈ keys (recordAll samples) ↔ k ∈ keys samples := by
  rw [keys_recordAll, List.mem_dedup, List.mem_reverse]

end Record

/-! ## Order of the rows -/

/-- Removing duplicates from the back of a list leaves later keys, which first occur
earlier in the reversed list, behind. -/
theorem pairwise_idxOf_reverse_dedup (ks : List K) :
    ks.reverse.dedup.Pairwise fun p q => ks.idxOf q < ks.idxOf p := by
  induction ks using List.reverseRecOn with
  | nil => exact List.Pairwise.nil
  | append_singleton ks k ih =>
      have old : ∀ {q}, q ∈ ks → (ks ++ [k]).idxOf q = ks.idxOf q :=
        fun inside => List.idxOf_append_of_mem inside
      have order : ks.reverse.dedup.Pairwise fun p q =>
          (ks ++ [k]).idxOf q < (ks ++ [k]).idxOf p := by
        apply ih.imp_of_mem
        intro p q hp hq earlier
        rw [List.mem_dedup, List.mem_reverse] at hp hq
        rw [old hp, old hq]
        exact earlier
      rw [List.reverse_append, List.reverse_singleton, List.singleton_append]
      by_cases known : k ∈ ks.reverse
      · rw [List.dedup_cons_of_mem known]
        exact order
      · rw [List.dedup_cons_of_notMem known]
        refine List.pairwise_cons.mpr ⟨fun q inside => ?_, order⟩
        rw [List.mem_dedup, List.mem_reverse] at inside
        rw [List.mem_reverse] at known
        rw [old inside, List.idxOf_append_of_notMem known]
        exact Nat.lt_add_right _ (List.idxOf_lt_length_iff.mpr inside)

/-! ## Totals -/

section Total

variable [AddCommMonoid M]

/-- What a table says about a key. -/
def total (table : List (K × M)) (k : K) : M :=
  ((table.filter fun row => row.1 = k).map Prod.snd).sum

/-- The amount of the whole table. -/
def amount (table : List (K × M)) : M := (table.map Prod.snd).sum

@[simp] theorem total_nil (k : K) : total ([] : List (K × M)) k = 0 := rfl

@[simp] theorem total_cons (row : K × M) (table : List (K × M)) (k : K) :
    total (row :: table) k = (if row.1 = k then row.2 else 0) + total table k := by
  by_cases hit : row.1 = k <;> simp [total, hit]

theorem total_eq_zero {table : List (K × M)} {k : K} (absent : k ∉ keys table) :
    total table k = 0 := by
  induction table with
  | nil => rfl
  | cons row rest ih =>
      have apart : row.1 ≠ k ∧ k ∉ keys rest := by
        simp only [keys, List.map_cons, List.mem_cons, not_or] at absent
        exact ⟨Ne.symm absent.1, absent.2⟩
      simp [apart.1, ih apart.2]

/-- In a table with one row for each key, the row holds the total. -/
theorem total_of_mem {table : List (K × M)} (distinct : (keys table).Nodup) {row : K × M}
    (inside : row ∈ table) : row.2 = total table row.1 := by
  induction table with
  | nil => cases inside
  | cons first rest ih =>
      have parts : first.1 ∉ keys rest ∧ (keys rest).Nodup := List.nodup_cons.mp distinct
      rcases List.mem_cons.mp inside with same | deeper
      · subst same
        simp [total_eq_zero parts.1]
      · have apart : first.1 ≠ row.1 := by
          rintro same
          exact parts.1 (same ▸ List.mem_map_of_mem deeper)
        simp [apart, ← ih parts.2 deeper]

theorem total_addTo {k : K} {table : List (K × M)} (known : k ∈ keys table) (v : M) (q : K) :
    total (addTo k v table) q = total table q + if k = q then v else 0 := by
  induction table with
  | nil => cases known
  | cons row rest ih =>
      by_cases hit : row.1 = k
      · subst hit
        by_cases asked : row.1 = q <;> simp [addTo, asked, add_assoc, add_comm]
      · have deeper : k ∈ keys rest := by
          simpa [keys, Ne.symm hit] using known
        simp [addTo, hit, ih deeper, add_assoc]

/-- Recording a sample adds it to its key and changes no other total. -/
theorem total_record (table : List (K × M)) (sample : K × M) (q : K) :
    total (record table sample) q =
      total table q + if sample.1 = q then sample.2 else 0 := by
  by_cases known : sample.1 ∈ keys table
  · simp only [record, known, if_true, total_addTo known]
  · simp only [record, known, if_false, total_cons, add_comm]

theorem amount_addTo {k : K} {table : List (K × M)} (known : k ∈ keys table) (v : M) :
    amount (addTo k v table) = amount table + v := by
  induction table with
  | nil => cases known
  | cons row rest ih =>
      simp only [amount] at ih ⊢
      by_cases hit : row.1 = k
      · simp [addTo, hit, add_assoc, add_comm]
      · have deeper : k ∈ keys rest := by
          simpa [keys, Ne.symm hit] using known
        simp [addTo, hit, ih deeper, add_assoc]

theorem amount_record (table : List (K × M)) (sample : K × M) :
    amount (record table sample) = amount table + sample.2 := by
  by_cases known : sample.1 ∈ keys table
  · simp only [record, known, if_true, amount_addTo known]
  · simp only [record, known, if_false, amount, List.map_cons, List.sum_cons, add_comm]

theorem total_foldl_record (samples table : List (K × M)) (q : K) :
    total (samples.foldl record table) q = total table q + total samples q := by
  induction samples generalizing table with
  | nil => simp
  | cons sample rest ih =>
      rw [List.foldl_cons, ih, total_record, total_cons, add_assoc]

/-- **The accumulated table has the totals of the samples.** -/
theorem total_recordAll (samples : List (K × M)) (q : K) :
    total (recordAll samples) q = total samples q := by
  rw [recordAll, total_foldl_record, total_nil, zero_add]

theorem total_perm {samples samples' : List (K × M)} (perm : samples.Perm samples') (q : K) :
    total samples q = total samples' q :=
  ((perm.filter _).map _).sum_eq

/-- A table with one row for each key is known by its keys and totals. -/
theorem mem_iff_total {table : List (K × M)} (distinct : (keys table).Nodup) (row : K × M) :
    row ∈ table ↔ row.1 ∈ keys table ∧ row.2 = total table row.1 := by
  constructor
  · intro inside
    exact ⟨List.mem_map_of_mem inside, total_of_mem distinct inside⟩
  · rintro ⟨known, value⟩
    obtain ⟨found, inside, same⟩ := List.mem_map.mp known
    have amounts : found.2 = row.2 := by rw [value, total_of_mem distinct inside, same]
    rwa [← Prod.ext same amounts]

/-- Permuting the samples only permutes the rows. -/
theorem recordAll_perm {samples samples' : List (K × M)} (perm : samples.Perm samples') :
    (recordAll samples).Perm (recordAll samples') := by
  have distinct := nodup_recordAll samples
  have distinct' := nodup_recordAll samples'
  apply (List.perm_ext_iff_of_nodup distinct.of_map distinct'.of_map).mpr
  intro row
  have sameKeys : row.1 ∈ keys samples ↔ row.1 ∈ keys samples' := (perm.map _).mem_iff
  rw [mem_iff_total distinct, mem_iff_total distinct', mem_keys_recordAll, mem_keys_recordAll,
    total_recordAll, total_recordAll, total_perm perm, sameKeys]

end Total

end Dreamscape.Theory.Tally
