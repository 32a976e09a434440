import Mathlib.Data.List.Basic
import Mathlib.Logic.Function.Basic

/-!
# Tables with a key

A table is a list of rows. `Represents` says that it holds the rows of a partial
map, each under its key and at most one under each, and every statement that
changes a table is an operation on the map.
-/

namespace Table

variable {κ ρ : Type} [DecidableEq κ] (key : ρ → κ)

/-- `SELECT .. WHERE key=k` -/
def select (k : κ) (rows : List ρ) : List ρ := rows.filter fun r => key r = k

/-- `UPDATE .. WHERE key=k` -/
def modify (k : κ) (f : ρ → ρ) (rows : List ρ) : List ρ :=
  rows.map fun r => if key r = k then f r else r

def Represents (rows : List ρ) (m : κ → Option ρ) : Prop := ∀ k, select key k rows = (m k).toList

variable {key} {rows : List ρ} {m : κ → Option ρ}

theorem represents_nil : Represents key [] fun _ => none := fun _ => rfl

theorem Represents.key_eq (h : Represents key rows m) {k : κ} {r : ρ} (hr : m k = some r) :
    key r = k := by
  have hmem : r ∈ select key k rows := by
    rw [h k, hr]
    exact List.mem_singleton_self r
  simpa using List.of_mem_filter hmem

theorem select_append (k : κ) (rows rows' : List ρ) :
    select key k (rows ++ rows') = select key k rows ++ select key k rows' :=
  List.filter_append _ _

/-- A row under a key that was free. -/
theorem Represents.insert (h : Represents key rows m) {r : ρ} (hfree : m (key r) = none) :
    Represents key (rows ++ [r]) (Function.update m (key r) (some r)) := by
  intro k
  rw [select_append, h k]
  by_cases he : k = key r
  · subst he
    simp [hfree, select]
  · simp [Function.update_of_ne he, Ne.symm he, select]

/-- A change of all rows that leaves their keys. -/
theorem select_map {f : ρ → ρ} (hf : ∀ r, key (f r) = key r) (k : κ) (rows : List ρ) :
    select key k (rows.map f) = (select key k rows).map f := by
  unfold select
  rw [List.filter_map]
  congr 1
  exact List.filter_congr fun r _ => by simp [hf]

/-- `UPDATE` of all rows. -/
theorem Represents.map (h : Represents key rows m) {f : ρ → ρ} (hf : ∀ r, key (f r) = key r) :
    Represents key (rows.map f) fun k => (m k).map f := by
  intro k
  rw [select_map hf, h k]
  cases hr : m k with
  | none => simp [hr]
  | some r => simp [hr]

theorem Represents.modify (h : Represents key rows m) (k : κ) {f : ρ → ρ}
    (hf : ∀ r, key (f r) = key r) :
    Represents key (modify key k f rows) (Function.update m k ((m k).map f)) := by
  have hkey : ∀ r, key (if key r = k then f r else r) = key r := by
    intro r
    split
    · exact hf r
    · rfl
  have hmap := h.map hkey
  have hm : (fun k' => (m k').map fun r => if key r = k then f r else r) =
      Function.update m k ((m k).map f) := by
    funext k'
    by_cases he : k' = k
    · subst he
      rw [Function.update_self]
      cases hr : m k' with
      | none => rfl
      | some r => simp [h.key_eq hr]
    · rw [Function.update_of_ne he]
      cases hr : m k' with
      | none => rfl
      | some r => simp [h.key_eq hr, he]
  rwa [hm] at hmap

/-- `DELETE .. WHERE p` -/
theorem Represents.filter (h : Represents key rows m) (p : ρ → Bool) :
    Represents key (rows.filter p) fun k => (m k).filter p := by
  intro k
  have hk := h k
  unfold select at hk ⊢
  rw [List.filter_comm, hk]
  show (m k).toList.filter p = ((m k).filter p).toList
  cases m k with
  | none => rfl
  | some r => cases hp : p r <;> simp [Option.filter, hp]

/-- `DELETE .. WHERE key=k` -/
theorem Represents.erase (h : Represents key rows m) (k : κ) :
    Represents key (rows.filter fun r => key r ≠ k) (Function.update m k none) := by
  have hfilter := h.filter fun r => key r ≠ k
  have hm : (fun k' => (m k').filter fun r => decide (key r ≠ k)) = Function.update m k none := by
    funext k'
    cases hr : m k' with
    | none => by_cases he : k' = k <;> simp [he, hr]
    | some r =>
      have hkey := h.key_eq hr
      by_cases he : k' = k
      · subst he
        simp [Option.filter, hkey]
      · simp [Option.filter, hkey, he, hr]
  rwa [hm] at hfilter

theorem Represents.mem_iff (h : Represents key rows m) (r : ρ) : r ∈ rows ↔ m (key r) = some r := by
  have hmem : r ∈ rows ↔ r ∈ select key (key r) rows := by simp [select]
  rw [hmem, h (key r), Option.mem_toList]

/-- No two rows have one key. -/
theorem Represents.nodup (h : Represents key rows m) : (rows.map key).Nodup := by
  rw [List.nodup_iff_count]
  intro k
  have hcount : (rows.map key).count k = (select key k rows).length := by
    rw [List.count, List.countP_map, List.countP_eq_length_filter]
    rfl
  rw [hcount, h k]
  cases m k with
  | none => exact Nat.zero_le 1
  | some r => exact Nat.le_refl 1

/-- Rows with different keys, each under its own. -/
theorem represents_of_nodup (h : (rows.map key).Nodup) :
    Represents key rows fun k => rows.find? fun r => key r = k := by
  induction rows with
  | nil => exact represents_nil
  | cons r rows ih =>
    rw [List.map_cons, List.nodup_cons] at h
    intro k
    have hrest := ih h.2 k
    unfold select at hrest ⊢
    beta_reduce at hrest ⊢
    by_cases hk : key r = k
    · have hfree : rows.find? (fun r => key r = k) = none := by
        rw [List.find?_eq_none]
        intro r' hr' he
        exact h.1 (List.mem_map.mpr ⟨r', hr', (of_decide_eq_true he).trans hk.symm⟩)
      rw [hfree] at hrest
      simp [hk, hrest]
    · simp [hk, hrest]

end Table
