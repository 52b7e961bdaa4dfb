import Mathlib.Algebra.BigOperators.Group.List.Basic
import Mathlib.Data.List.Nodup
import Mathlib.Tactic.Abel

/-!
# Insertion-ordered dictionaries

A finite map that remembers the order in which its keys first arrived. Writing
to a key that is present keeps its position; writing to a new key appends it.
Iteration order is therefore observable, which an unordered finite map could
not express: a scan for the first matching value depends on it.
-/

namespace LotusAI.Lib

open List

/-- A dictionary: entries in insertion order, no key twice. -/
structure Dict (κ ν : Type*) where
  entries : List (κ × ν)
  nodup_keys : (entries.map Prod.fst).Nodup
  deriving DecidableEq

namespace Dict

variable {κ ν : Type*}

/-- The keys in insertion order. -/
def keys (d : Dict κ ν) : List κ := d.entries.map Prod.fst

/-- The values in the insertion order of their keys. -/
def values (d : Dict κ ν) : List ν := d.entries.map Prod.snd

/-- The dictionary with no entry. -/
def empty : Dict κ ν := ⟨[], List.nodup_nil⟩

instance : Inhabited (Dict κ ν) := ⟨empty⟩

variable [DecidableEq κ]

/-! ### Entry lists -/

/-- The value of the first entry at `k`. -/
def lookupEntry (k : κ) : List (κ × ν) → Option ν
  | [] => none
  | (k', v) :: rest => if k' = k then some v else lookupEntry k rest

/-- Overwrite the entry at `k` in place, or append one. -/
def setEntry (k : κ) (v : ν) : List (κ × ν) → List (κ × ν)
  | [] => [(k, v)]
  | (k', v') :: rest => if k' = k then (k, v) :: rest else (k', v') :: setEntry k v rest

theorem map_fst_setEntry (k : κ) (v : ν) (l : List (κ × ν)) :
    (setEntry k v l).map Prod.fst =
      if k ∈ l.map Prod.fst then l.map Prod.fst else l.map Prod.fst ++ [k] := by
  induction l with
  | nil => simp [setEntry]
  | cons e rest ih =>
    obtain ⟨k', v'⟩ := e
    by_cases h : k' = k
    · subst h; simp [setEntry]
    · have h' : k ≠ k' := Ne.symm h
      simp only [setEntry, h, if_false, map_cons, ih, mem_cons, h', false_or]
      split_ifs <;> rfl

theorem lookupEntry_setEntry (k k' : κ) (v : ν) (l : List (κ × ν)) :
    lookupEntry k' (setEntry k v l) = if k' = k then some v else lookupEntry k' l := by
  induction l with
  | nil =>
    by_cases h : k' = k
    · subst h; simp [setEntry, lookupEntry]
    · simp [setEntry, lookupEntry, h, Ne.symm h]
  | cons e rest ih =>
    obtain ⟨k₀, v₀⟩ := e
    by_cases h₀ : k₀ = k
    · subst h₀
      by_cases h : k' = k₀
      · subst h; simp [setEntry, lookupEntry]
      · simp [setEntry, lookupEntry, h, Ne.symm h]
    · by_cases h : k' = k
      · subst h; simp [setEntry, lookupEntry, h₀, ih]
      · simp only [setEntry, h₀, if_false, lookupEntry, ih, h]

theorem lookupEntry_filter (k k' : κ) (l : List (κ × ν)) :
    lookupEntry k' (l.filter fun e => e.1 ≠ k) = if k' = k then none else lookupEntry k' l := by
  induction l with
  | nil => simp [lookupEntry]
  | cons e rest ih =>
    obtain ⟨k₀, v₀⟩ := e
    by_cases h₀ : k₀ = k
    · subst h₀
      rw [filter_cons_of_neg (by simp), ih]
      by_cases h : k' = k₀
      · simp [h]
      · simp [lookupEntry, h, Ne.symm h]
    · rw [filter_cons_of_pos (by simpa using h₀)]
      by_cases h : k₀ = k'
      · subst h; simp [lookupEntry, h₀]
      · simp only [lookupEntry, h, if_false, ih]

theorem lookupEntry_eq_none_iff (k : κ) (l : List (κ × ν)) :
    lookupEntry k l = none ↔ k ∉ l.map Prod.fst := by
  induction l with
  | nil => simp [lookupEntry]
  | cons e rest ih =>
    obtain ⟨k', v'⟩ := e
    by_cases h : k' = k
    · subst h; simp [lookupEntry]
    · simp only [lookupEntry, h, if_false, ih, map_cons, mem_cons, not_or]
      exact ⟨fun hn => ⟨Ne.symm h, hn⟩, And.right⟩

/-- With distinct keys a lookup finds exactly the listed entry. -/
theorem lookupEntry_eq_some_iff {l : List (κ × ν)} (hl : (l.map Prod.fst).Nodup) (k : κ) (v : ν) :
    lookupEntry k l = some v ↔ (k, v) ∈ l := by
  induction l with
  | nil => simp [lookupEntry]
  | cons e rest ih =>
    obtain ⟨k', v'⟩ := e
    rw [map_cons, nodup_cons] at hl
    by_cases h : k' = k
    · subst h
      have hnot : (k', v) ∉ rest := fun hmem => hl.1 (mem_map.mpr ⟨_, hmem, rfl⟩)
      simp [lookupEntry, hnot, eq_comm]
    · simp [lookupEntry, h, ih hl.2, Ne.symm h]

/-! ### Operations -/

/-- The value stored at `k`. -/
def get? (d : Dict κ ν) (k : κ) : Option ν := lookupEntry k d.entries

/-- Assign `v` to `k`. -/
def insert (d : Dict κ ν) (k : κ) (v : ν) : Dict κ ν where
  entries := setEntry k v d.entries
  nodup_keys := by
    rw [map_fst_setEntry]
    split_ifs with h
    · exact d.nodup_keys
    · exact List.nodup_append.mpr
        ⟨d.nodup_keys, List.nodup_singleton k, by rintro a ha b hb rfl; simp_all⟩

/-- Remove `k`. -/
def erase (d : Dict κ ν) (k : κ) : Dict κ ν where
  entries := d.entries.filter fun e => e.1 ≠ k
  nodup_keys := d.nodup_keys.sublist (List.filter_sublist.map Prod.fst)

@[simp] theorem get?_empty (k : κ) : (empty : Dict κ ν).get? k = none := rfl

/-- A write is read back and frames every other key. -/
theorem get?_insert (d : Dict κ ν) (k k' : κ) (v : ν) :
    (d.insert k v).get? k' = if k' = k then some v else d.get? k' :=
  lookupEntry_setEntry k k' v d.entries

@[simp] theorem get?_insert_self (d : Dict κ ν) (k : κ) (v : ν) :
    (d.insert k v).get? k = some v := by
  simp [get?_insert]

variable {k : κ} {d : Dict κ ν} {v : ν}

theorem get?_insert_of_ne (d : Dict κ ν) {k' : κ} (h : k' ≠ k) (v : ν) :
    (d.insert k v).get? k' = d.get? k' := by
  simp [get?_insert, h]

/-- What holds of every entry holds after a write of one that has it. -/
theorem forall_insert {P : κ → ν → Prop} (hv : P k v)
    (h : ∀ k' v', d.get? k' = some v' → P k' v') (k' : κ) (v' : ν)
    (hget : (d.insert k v).get? k' = some v') : P k' v' := by
  rw [get?_insert] at hget
  split_ifs at hget with hk
  · rw [hk, ← Option.some.inj hget]
    exact hv
  · exact h k' v' hget

/-- A removal is seen at its key and nowhere else. -/
theorem get?_erase (d : Dict κ ν) (k k' : κ) :
    (d.erase k).get? k' = if k' = k then none else d.get? k' :=
  lookupEntry_filter k k' d.entries

@[simp] theorem get?_erase_self (d : Dict κ ν) (k : κ) : (d.erase k).get? k = none := by
  simp [get?_erase]

theorem get?_erase_of_ne (d : Dict κ ν) {k' : κ} (h : k' ≠ k) :
    (d.erase k).get? k' = d.get? k' := by
  simp [get?_erase, h]

theorem get?_eq_some_iff : d.get? k = some v ↔ (k, v) ∈ d.entries :=
  lookupEntry_eq_some_iff d.nodup_keys k v

theorem mem_keys_iff : k ∈ d.keys ↔ ∃ v, d.get? k = some v := by
  rw [← Option.isSome_iff_exists, ← not_iff_not, Bool.not_eq_true, Option.isSome_eq_false_iff,
    Option.isNone_iff_eq_none]
  exact (lookupEntry_eq_none_iff k d.entries).symm

/-- The iterated values are exactly the stored ones. -/
theorem mem_values_iff : v ∈ d.values ↔ ∃ k, d.get? k = some v := by
  simp [values, get?_eq_some_iff]

/-- A removal brings no value in. -/
theorem mem_values_of_mem_erase (h : v ∈ (d.erase k).values) : v ∈ d.values := by
  obtain ⟨k', hv⟩ := mem_values_iff.mp h
  rw [get?_erase] at hv
  split_ifs at hv
  exact mem_values_iff.mpr ⟨k', hv⟩

theorem countP_setEntry_le (p : ν → Bool) (k : κ) (v : ν) (l : List (κ × ν)) :
    ((setEntry k v l).map Prod.snd).countP p ≤ (l.map Prod.snd).countP p + 1 := by
  induction l with
  | nil =>
    simp only [setEntry, map_cons, map_nil, countP_cons, countP_nil]
    split_ifs <;> omega
  | cons e rest ih =>
    obtain ⟨k', v'⟩ := e
    by_cases h : k' = k
    · simp only [setEntry, h, if_true, map_cons, countP_cons]
      split_ifs <;> omega
    · simp only [setEntry, h, if_false, map_cons, countP_cons]
      omega

/-- An assignment brings in one value at most. -/
theorem countP_values_insert_le (d : Dict κ ν) (k : κ) (v : ν) (p : ν → Bool) :
    (d.insert k v).values.countP p ≤ d.values.countP p + 1 :=
  countP_setEntry_le p k v d.entries

/-! ### Restriction -/

section Restrict

omit [DecidableEq κ] in
/-- The entries whose keys satisfy `p`. -/
def restrict (d : Dict κ ν) (p : κ → Bool) : Dict κ ν where
  entries := d.entries.filter fun e => p e.1
  nodup_keys := d.nodup_keys.sublist (List.filter_sublist.map Prod.fst)

theorem get?_restrict (d : Dict κ ν) (p : κ → Bool) (k : κ) :
    (d.restrict p).get? k = if p k then d.get? k else none := by
  obtain ⟨l, hl⟩ := d
  simp only [get?, restrict]
  induction l with
  | nil => simp [lookupEntry]
  | cons e rest ih =>
    obtain ⟨k', v'⟩ := e
    have ih' := ih (nodup_cons.mp hl).2
    by_cases hp : p k'
    · by_cases h : k' = k
      · subst h; simp [lookupEntry, hp]
      · simp [lookupEntry, hp, h, ih']
    · by_cases h : k' = k
      · subst h; simpa [lookupEntry, hp] using ih'
      · simp [lookupEntry, hp, h, ih']

variable {p : κ → Bool}

theorem filter_setEntry_of_pos (hk : p k) (v : ν) (l : List (κ × ν)) :
    (setEntry k v l).filter (fun e => p e.1) = setEntry k v (l.filter fun e => p e.1) := by
  induction l with
  | nil => simp [setEntry, hk]
  | cons e rest ih =>
    obtain ⟨k', v'⟩ := e
    by_cases h : k' = k
    · subst h; simp [setEntry, hk]
    · by_cases hp : p k' <;> simp [setEntry, h, hp, ih]

theorem filter_setEntry_of_neg (hk : p k = false) (v : ν) (l : List (κ × ν)) :
    (setEntry k v l).filter (fun e => p e.1) = l.filter fun e => p e.1 := by
  induction l with
  | nil => simp [setEntry, hk]
  | cons e rest ih =>
    obtain ⟨k', v'⟩ := e
    by_cases h : k' = k
    · subst h; simp [setEntry, hk]
    · by_cases hp : p k' <;> simp [setEntry, h, hp, ih]

omit [DecidableEq κ] in
theorem eq_of_entries_eq {d' : Dict κ ν} (h : d.entries = d'.entries) : d = d' := by
  cases d
  cases d'
  cases h
  rfl

/-- An assignment inside a restriction is seen there. -/
theorem restrict_insert_of_pos (d : Dict κ ν) (hk : p k) (v : ν) :
    (d.insert k v).restrict p = (d.restrict p).insert k v :=
  eq_of_entries_eq (filter_setEntry_of_pos hk v d.entries)

/-- An assignment outside it is not. -/
theorem restrict_insert_of_neg (d : Dict κ ν) (hk : p k = false) (v : ν) :
    (d.insert k v).restrict p = d.restrict p :=
  eq_of_entries_eq (filter_setEntry_of_neg hk v d.entries)

end Restrict

/-! ### Totals -/

section Total

variable {G : Type*} [AddCommGroup G] (f : ν → G)

theorem sum_setEntry (k : κ) (v : ν) (l : List (κ × ν)) :
    ((setEntry k v l).map fun e => f e.2).sum =
      (l.map fun e => f e.2).sum + (f v - ((lookupEntry k l).map f).getD 0) := by
  induction l with
  | nil => simp [setEntry, lookupEntry]
  | cons e rest ih =>
    obtain ⟨k', v'⟩ := e
    by_cases h : k' = k
    · subst h; simp [setEntry, lookupEntry]; abel
    · simp only [setEntry, lookupEntry, h, if_false, map_cons, sum_cons, ih]
      abel

/-- An assignment moves a total by the new value minus the one it replaces. -/
theorem sum_values_insert (d : Dict κ ν) (k : κ) (v : ν) :
    ((d.insert k v).values.map f).sum =
      (d.values.map f).sum + (f v - ((d.get? k).map f).getD 0) := by
  simpa [values, insert, get?, map_map, Function.comp_def] using sum_setEntry f k v d.entries

end Total

/-- What a deletion takes away from a total. -/
theorem sum_values_erase (f : ν → ℕ) (d : Dict κ ν) (k : κ) :
    ((d.erase k).values.map f).sum + ((d.get? k).map f).getD 0 = (d.values.map f).sum := by
  obtain ⟨l, hl⟩ := d
  simp only [erase, values, get?, map_map]
  induction l with
  | nil => rfl
  | cons e rest ih =>
    obtain ⟨k', v'⟩ := e
    obtain ⟨habsent, hrest⟩ := nodup_cons.mp hl
    have hsum := ih hrest
    by_cases h : k' = k
    · -- the only entry under this key
      subst h
      have hothers : rest.filter (fun e => decide (e.1 ≠ k')) = rest :=
        filter_eq_self.mpr fun e he => decide_eq_true fun hsame =>
          habsent (mem_map.mpr ⟨e, he, hsame⟩)
      rw [filter_cons_of_neg (by simp), hothers]
      simp [lookupEntry, Nat.add_comm]
    · simp only [h, ne_eq, not_false_eq_true, decide_true, filter_cons_of_pos, map_cons,
        sum_cons, lookupEntry, if_false] at hsum ⊢
      omega

end Dict

end LotusAI.Lib
