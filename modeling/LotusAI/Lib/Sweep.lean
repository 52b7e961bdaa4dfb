import LotusAI.Lib.Table
import Mathlib.Data.List.Sort

/-!
# Sweeps over listed rows

A sweep lists the rows of a table, up to a limit and in some order, picks those that are due,
and deletes them. It can only take what it lists: rows that are due and stand beyond the limit
are left, and stay left as long as the rows before them stay.
-/

namespace LotusAI.Lib

open List

variable {ρ κ : Type}

/-- The order in which a query yields its rows. -/
structure Listing (ρ : Type) where
  arrange : List ρ → List ρ
  perm : ∀ rows, (arrange rows).Perm rows

/-- In the order of the store. -/
def Listing.stored : Listing ρ := ⟨id, List.Perm.refl⟩

/-- Newest first by a column of texts; rows with one text keep their order. -/
def Listing.newestFirst (instant : ρ → String) : Listing ρ where
  arrange rows := rows.mergeSort fun a b => decide (instant b ≤ instant a)
  perm rows := rows.mergeSort_perm _

/-- A listing that stops after a number of rows, where it has a limit. -/
structure Scan (ρ : Type) where
  listing : Listing ρ
  limit : Option ℕ

/-- Every row, in the order of the store. -/
def Scan.all : Scan ρ := ⟨.stored, none⟩

namespace Scan

variable (scan : Scan ρ)

/-- The rows that are listed. -/
def window (rows : List ρ) : List ρ :=
  match scan.limit with
  | some limit => (scan.listing.arrange rows).take limit
  | none => scan.listing.arrange rows

theorem sublist_window (rows : List ρ) :
    (scan.window rows).Sublist (scan.listing.arrange rows) := by
  unfold window
  cases scan.limit with
  | some limit => exact take_sublist ..
  | none => exact .refl _

variable {row : ρ} {rows : List ρ}

theorem mem_of_mem_window (h : row ∈ scan.window rows) : row ∈ rows :=
  (scan.listing.perm rows).mem_iff.mp ((scan.sublist_window rows).subset h)

/-- A scan without limit lists every row. -/
theorem mem_window_of_limit_eq_none (hlimit : scan.limit = none) (h : row ∈ rows) :
    row ∈ scan.window rows := by
  rw [window, hlimit]
  exact (scan.listing.perm rows).mem_iff.mpr h

/-- A listing within the limit is of every row. -/
theorem mem_window_of_length_le (hlimit : ∀ limit, scan.limit = some limit → rows.length ≤ limit)
    (h : row ∈ rows) : row ∈ scan.window rows := by
  cases hscan : scan.limit with
  | none => exact scan.mem_window_of_limit_eq_none hscan h
  | some limit =>
    have hlength : (scan.listing.arrange rows).length ≤ limit := by
      rw [(scan.listing.perm rows).length_eq]
      exact hlimit limit hscan
    rw [window, hscan]
    simp only [take_of_length_le hlength]
    exact (scan.listing.perm rows).mem_iff.mpr h

theorem nodup_map_window {key : ρ → κ} (h : (rows.map key).Nodup) :
    ((scan.window rows).map key).Nodup := by
  have harranged : ((scan.listing.arrange rows).map key).Nodup :=
    ((scan.listing.perm rows).map key).nodup_iff.mpr h
  exact harranged.sublist ((scan.sublist_window rows).map key)

end Scan

variable [DecidableEq κ] {key : ρ → κ}

/-- The listed rows of a table that are due. -/
def Scan.due (scan : Scan ρ) (isDue : ρ → Bool) (table : Table key) : List ρ :=
  (scan.window table.list).filter isDue

namespace Table

variable (scan : Scan ρ) (isDue : ρ → Bool) (table : Table key)

/-- Delete the listed rows that are due. -/
def sweep : Table key := table.delete ((scan.due isDue table).map key)

variable {scan isDue table} {row : ρ}

theorem mem_due : row ∈ scan.due isDue table ↔ row ∈ scan.window table.list ∧ isDue row := by
  rw [Scan.due, mem_filter]

theorem mem_of_mem_due (h : row ∈ scan.due isDue table) : row ∈ table :=
  mem_list.mp (scan.mem_of_mem_window (mem_due.mp h).1)

/-- A row is left unless it is listed and due. -/
theorem mem_sweep :
    row ∈ table.sweep scan isDue ↔
      row ∈ table ∧ (row ∈ scan.window table.list → isDue row = false) := by
  rw [sweep, mem_delete_map fun _ => mem_of_mem_due, mem_due]
  simp only [not_and, Bool.not_eq_true]

theorem mem_sweep_of_due (hdue : isDue row) :
    row ∈ table.sweep scan isDue ↔ row ∈ table ∧ row ∉ scan.window table.list := by
  simp [mem_sweep, hdue]

/-- A sweep of every row leaves none that is due. -/
theorem not_due_of_mem_sweep_all (h : row ∈ table.sweep Scan.all isDue) : isDue row = false :=
  (mem_sweep.mp h).2 (mem_list.mpr (mem_sweep.mp h).1)

/-- A sweep leaves no row that is due exactly when every row that is due is listed. -/
theorem sweep_complete_iff :
    (∀ row ∈ table.sweep scan isDue, isDue row = false) ↔
      ∀ row ∈ table, isDue row → row ∈ scan.window table.list := by
  constructor
  · intro hcomplete row hrow hdue
    by_contra hlisted
    have hspared := hcomplete row ((mem_sweep_of_due hdue).mpr ⟨hrow, hlisted⟩)
    rw [hspared] at hdue
    cases hdue
  · intro hwindow row hleft
    obtain ⟨hrow, hspared⟩ := mem_sweep.mp hleft
    by_contra hdue
    exact hdue (hspared (hwindow row hrow (by simpa using hdue)))

theorem nodup_due : ((scan.due isDue table).map key).Nodup :=
  (scan.nodup_map_window table.nodup_list).sublist (filter_sublist.map key)

/-- A deletion of what is due reports the number of rows. -/
theorem countOf_due : table.countOf ((scan.due isDue table).map key) =
    (scan.due isDue table).length :=
  countOf_eq_length nodup_due fun _ => mem_of_mem_due

/-- The rows that are left and those that were due make up the table. -/
theorem length_sweep :
    (table.sweep scan isDue).list.length + (scan.due isDue table).length =
      table.list.length := by
  rw [← countOf_due]
  exact table.length_delete _

/-- A sweep takes no more rows than it lists. -/
theorem exists_mem_sweep_of_limit_lt {limit : ℕ} (hlimit : scan.limit = some limit)
    (h : limit < table.list.length) : ∃ row, row ∈ table.sweep scan isDue := by
  have hlength : (table.sweep scan isDue).list.length + (scan.due isDue table).length =
      table.list.length := length_sweep
  have hdue : (scan.due isDue table).length ≤ limit := by
    apply (length_filter_le ..).trans
    rw [Scan.window, hlimit]
    exact length_take_le ..
  have hpos : 0 < (table.sweep scan isDue).list.length := by omega
  obtain ⟨row, hrow⟩ := exists_mem_of_length_pos hpos
  exact ⟨row, mem_list.mp hrow⟩

/-- A sweep that changes nothing has found nothing. -/
theorem due_eq_nil_of_sweep_eq (h : table.sweep scan isDue = table) :
    scan.due isDue table = [] := by
  have hlength : (table.sweep scan isDue).list.length + (scan.due isDue table).length =
      table.list.length := length_sweep
  rw [h] at hlength
  exact eq_nil_of_length_eq_zero (by omega)

/-- Where nothing that is due is left, a second sweep finds nothing. -/
theorem due_eq_nil_of_complete (h : ∀ row ∈ table, isDue row = false) :
    scan.due isDue table = [] := by
  rw [Scan.due, filter_eq_nil_iff]
  intro row hlisted hdue
  rw [h row (mem_list.mp (scan.mem_of_mem_window hlisted))] at hdue
  cases hdue

/-- A sweep of every row takes all that is due. -/
theorem mem_due_all : row ∈ Scan.all.due isDue table ↔ row ∈ table ∧ isDue row := by
  rw [mem_due]
  exact and_congr_left' mem_list

theorem due_all_sweep : Scan.all.due isDue (table.sweep Scan.all isDue) = [] :=
  due_eq_nil_of_complete fun _ => not_due_of_mem_sweep_all

end Table

end LotusAI.Lib
