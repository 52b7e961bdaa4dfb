import LotusAI.Lib.Dict

/-!
# Tables

Rows stored under one of their own columns: a lookup under a key finds a row whose column is
that key, and a write goes where the row says.
-/

namespace LotusAI.Lib

open List Dict

variable {κ ν : Type} [DecidableEq κ]

/-- Rows by the column `key`. -/
structure Table (key : ν → κ) where
  rows : Dict κ ν
  keyed : ∀ k row, rows.get? k = some row → key row = k

namespace Table

variable {key : ν → κ}

/-- The table without rows. -/
def empty : Table key := ⟨.empty, fun _ _ h => nomatch h⟩

def get? (table : Table key) (k : κ) : Option ν := table.rows.get? k

/-- Write a row under its own key. -/
def upsert (table : Table key) (row : ν) : Table key where
  rows := table.rows.insert (key row) row
  keyed := Dict.forall_insert rfl table.keyed

/-- The table of some rows, later ones over earlier ones. -/
def ofList (rows : List ν) : Table key := rows.foldl upsert empty

variable {row : ν} {table : Table key} {p : ν → Bool} {rows : List ν} {row' : ν}

theorem key_of_get? {k : κ} (h : table.get? k = some row) :
    key row = k := table.keyed k row h

theorem get?_upsert (table : Table key) (row : ν) (k : κ) :
    (table.upsert row).get? k = if k = key row then some row else table.get? k :=
  get?_insert ..

/-! ### Rows -/

/-- The rows, in the order in which their keys came. -/
def list (table : Table key) : List ν := table.rows.values

/-- A row of the table. -/
instance : Membership ν (Table key) := ⟨fun table row => table.get? (key row) = some row⟩

theorem mem_iff : row ∈ table ↔ table.get? (key row) = some row :=
  Iff.rfl

theorem mem_list : row ∈ table.list ↔ row ∈ table := by
  constructor
  · intro h
    obtain ⟨k, hk⟩ := mem_values_iff.mp h
    have hkey := table.keyed k row hk
    rw [mem_iff, hkey]
    exact hk
  · exact fun h => mem_values_iff.mpr ⟨key row, h⟩

/-- Rows with one key are one row. -/
theorem eq_of_key_eq (h : row ∈ table) (h' : row' ∈ table) (hkey : key row = key row') :
    row = row' := by
  rw [mem_iff, hkey] at h
  exact Option.mem_unique h h'

theorem keys_eq (table : Table key) : table.rows.keys = table.list.map key := by
  have hkeyed : ∀ e ∈ table.rows.entries, e.1 = key e.2 :=
    fun e he => (table.keyed e.1 e.2 (get?_eq_some_iff.mpr he)).symm
  rw [Dict.keys, list, values, map_map]
  exact map_congr_left hkeyed

theorem nodup_list (table : Table key) : (table.list.map key).Nodup :=
  keys_eq table ▸ table.rows.nodup_keys

/-! ### Deletion -/

/-- Delete the rows under some keys. -/
def delete (table : Table key) (ks : List κ) : Table key where
  rows := table.rows.restrict (· ∉ ks)
  keyed := by
    intro k row h
    rw [Dict.get?_restrict] at h
    split_ifs at h
    exact table.keyed k row h

/-- How many of the keys there are rows under: the row count of a deletion. -/
def countOf (table : Table key) (ks : List κ) : ℕ := table.rows.keys.countP (· ∈ ks)

theorem get?_delete (table : Table key) (ks : List κ) (k : κ) :
    (table.delete ks).get? k = if k ∈ ks then none else table.get? k := by
  change (table.rows.restrict _).get? k = _
  rw [get?_restrict]
  by_cases h : k ∈ ks <;> simp [h, get?]

@[simp] theorem delete_nil (table : Table key) : table.delete [] = table := by
  obtain ⟨rows, keyed⟩ := table
  have hrows : rows.restrict (· ∉ []) = rows :=
    eq_of_entries_eq (filter_eq_self.mpr fun _ _ => by simp)
  simp only [delete, hrows]

theorem mem_delete {ks : List κ} : row ∈ table.delete ks ↔ row ∈ table ∧ key row ∉ ks := by
  rw [mem_iff, get?_delete, mem_iff]
  split_ifs with h <;> simp [h]

/-- Rows that are deleted by their keys are deleted, and no others. -/
theorem mem_delete_map (hrows : ∀ row ∈ rows, row ∈ table) :
    row ∈ table.delete (rows.map key) ↔ row ∈ table ∧ row ∉ rows := by
  rw [mem_delete]
  refine and_congr_right fun hrow => not_congr ⟨fun h => ?_, mem_map_of_mem⟩
  obtain ⟨other, hother, hkey⟩ := mem_map.mp h
  rwa [← eq_of_key_eq (hrows other hother) hrow hkey]

theorem list_delete (table : Table key) (ks : List κ) :
    (table.delete ks).list = table.list.filter fun row => !decide (key row ∈ ks) := by
  have hkeyed : ∀ e ∈ table.rows.entries, e.1 = key e.2 :=
    fun e he => (table.keyed e.1 e.2 (get?_eq_some_iff.mpr he)).symm
  change (table.rows.entries.filter fun e => decide (e.1 ∉ ks)).map Prod.snd = _
  rw [list, values, filter_map]
  refine congrArg _ (filter_congr fun e he => ?_)
  simp [hkeyed e he]

theorem ext_rows {table' : Table key} (h : table.rows = table'.rows) : table = table' := by
  cases table
  cases h
  rfl

theorem delete_delete (table : Table key) (ks ks' : List κ) :
    (table.delete ks).delete ks' = table.delete (ks ++ ks') := by
  apply ext_rows
  apply eq_of_entries_eq
  change (table.rows.entries.filter _).filter _ = table.rows.entries.filter _
  rw [filter_filter]
  congr 1
  funext e
  by_cases hks : e.1 ∈ ks <;> simp [hks]

theorem delete_congr {ks ks' : List κ} (h : ∀ k, k ∈ ks ↔ k ∈ ks') :
    table.delete ks = table.delete ks' := by
  apply ext_rows
  apply eq_of_entries_eq
  change table.rows.entries.filter _ = table.rows.entries.filter _
  simp only [h]

/-- The rows that are left and those that are deleted make up the table. -/
theorem length_delete (table : Table key) (ks : List κ) :
    (table.delete ks).list.length + table.countOf ks = table.list.length := by
  rw [list_delete, countOf, keys_eq, countP_map, countP_eq_length_filter, Nat.add_comm]
  exact (length_eq_length_filter_add _).symm

theorem sublist_delete (table : Table key) (ks : List κ) :
    (table.delete ks).list.Sublist table.list :=
  filter_sublist.map Prod.snd

/-- Delete the rows of some kind. -/
def deleteWhere (table : Table key) (p : ν → Bool) : Table key :=
  table.delete ((table.list.filter p).map key)

theorem mem_deleteWhere :
    row ∈ table.deleteWhere p ↔ row ∈ table ∧ p row = false := by
  rw [deleteWhere, mem_delete_map fun row h => mem_list.mp (mem_of_mem_filter h)]
  refine and_congr_right fun hrow => ?_
  simp [mem_list, hrow]

theorem not_of_mem_deleteWhere {p : ν → Prop} [DecidablePred p]
    (h : row ∈ table.deleteWhere fun row => p row) : ¬ p row := by
  simpa using (mem_deleteWhere.mp h).2

theorem deleteWhere_eq_self (h : ∀ row, p row = false) :
    table.deleteWhere p = table := by
  have hnone : table.list.filter p = [] := filter_eq_nil_iff.mpr fun row _ => by simp [h]
  rw [deleteWhere, hnone, map_nil, delete_nil]

/-- A write raises a count by one at most. -/
theorem countP_upsert_le (table : Table key) (row : ν) (p : ν → Bool) :
    (table.upsert row).list.countP p ≤ table.list.countP p + 1 :=
  countP_values_insert_le table.rows (key row) row p

theorem length_upsert_le (table : Table key) (row : ν) :
    (table.upsert row).list.length ≤ table.list.length + 1 := by
  have hcount := countP_upsert_le table row fun _ => true
  simpa using hcount

theorem mem_upsert :
    row' ∈ table.upsert row ↔ row' = row ∨ row' ∈ table ∧ key row' ≠ key row := by
  rw [mem_iff, get?_upsert, mem_iff]
  split_ifs with h
  · simp [h, eq_comm]
  · simp only [h, ne_eq, not_false_eq_true, and_true]
    exact ⟨.inr, fun hor => hor.elim (fun heq => absurd (heq ▸ rfl) h) id⟩

/-- A deletion of rows that are listed, each once, reports their number. -/
theorem countOf_eq_length (hnodup : (rows.map key).Nodup)
    (hrows : ∀ row ∈ rows, row ∈ table) : table.countOf (rows.map key) = rows.length := by
  have hperm : (table.rows.keys.filter (· ∈ rows.map key)).Perm (rows.map key) := by
    refine (perm_ext_iff_of_nodup (table.rows.nodup_keys.filter _) hnodup).mpr fun k => ?_
    rw [mem_filter, decide_eq_true_eq, and_iff_right_iff_imp]
    intro hk
    obtain ⟨row, hrow, rfl⟩ := mem_map.mp hk
    exact mem_keys_iff.mpr ⟨row, hrows row hrow⟩
  rw [countOf, countP_eq_length_filter, hperm.length_eq, length_map]

theorem countOf_singleton (table : Table key) (k : κ) :
    table.countOf [k] = if (table.get? k).isSome then 1 else 0 := by
  cases hrow : table.get? k with
  | some row =>
    obtain rfl := key_of_get? hrow
    have hone : table.countOf ([row].map key) = [row].length :=
      countOf_eq_length (nodup_singleton _) fun other hother => by
        rwa [mem_singleton.mp hother]
    simpa using hone
  | none =>
    have habsent : k ∉ table.rows.keys := by
      intro hk
      obtain ⟨row, hfound⟩ := mem_keys_iff.mp hk
      cases hrow.symm.trans hfound
    have hnone : ∀ k' ∈ table.rows.keys, ¬ decide (k' ∈ [k]) = true := by
      intro k' hk' hsame
      exact habsent (mem_singleton.mp (of_decide_eq_true hsame) ▸ hk')
    exact countP_eq_zero.mpr hnone

theorem length_deleteWhere (table : Table key) (p : ν → Bool) :
    (table.deleteWhere p).list.length + table.list.countP p = table.list.length := by
  have hcount : table.countOf ((table.list.filter p).map key) = table.list.countP p := by
    rw [countOf_eq_length (table.nodup_list.sublist (filter_sublist.map key)),
      countP_eq_length_filter]
    exact fun row hrow => mem_list.mp (mem_of_mem_filter hrow)
  rw [← hcount]
  exact table.length_delete _

end Table

end LotusAI.Lib
