import Mathlib.Data.List.Nodup
import Mathlib.Logic.Function.Basic

/-!
# Tables with a unique key

A table is a list of rows; where no two rows have the same key, looking a key up is a
partial map, and appending, deleting and changing rows are updates of it.
-/
namespace EncryptedTransfer.KeyedTable

variable {ρ κ : Type} (key : ρ → κ)

/-- No two rows share a key. -/
def Unique (rows : List ρ) : Prop := (rows.map key).Nodup

variable {key}

theorem unique_nil : Unique key ([] : List ρ) := List.nodup_nil

theorem Unique.eq {rows : List ρ} (h : Unique key rows) {r s : ρ} (hr : r ∈ rows) (hs : s ∈ rows)
    (hk : key r = key s) : r = s := List.inj_on_of_nodup_map h hr hs hk

theorem Unique.filter {rows : List ρ} (h : Unique key rows) (p : ρ → Bool) :
    Unique key (rows.filter p) := List.Nodup.sublist (List.filter_sublist.map key) h

theorem Unique.map {rows : List ρ} (h : Unique key rows) {g : ρ → ρ}
    (hg : ∀ r, key (g r) = key r) : Unique key (rows.map g) := by
  rw [Unique, List.map_map, show key ∘ g = key from funext hg]
  exact h

theorem map_eq_self {rows : List ρ} {g : ρ → ρ} : rows.map g = rows ↔ ∀ r ∈ rows, g r = r := by
  conv_lhs => rhs; rw [← List.map_id rows]
  exact List.map_inj_left

variable [DecidableEq κ]

variable (key) in
def lookup (rows : List ρ) (k : κ) : Option ρ := rows.find? (fun r => key r = k)

theorem lookup_some {rows : List ρ} {k : κ} {r : ρ} (h : lookup key rows k = some r) :
    r ∈ rows ∧ key r = k :=
  ⟨List.mem_of_find?_eq_some h, by simpa using List.find?_some h⟩

theorem lookup_eq_none {rows : List ρ} {k : κ} :
    lookup key rows k = none ↔ ∀ r ∈ rows, key r ≠ k := by
  simp [lookup]

theorem lookup_isSome {rows : List ρ} {k : κ} :
    (lookup key rows k).isSome = true ↔ ∃ r ∈ rows, key r = k := by
  simp [lookup]

theorem Unique.lookup_eq_some {rows : List ρ} (h : Unique key rows) {k : κ} {r : ρ} :
    lookup key rows k = some r ↔ r ∈ rows ∧ key r = k := by
  constructor
  · exact lookup_some
  · rintro ⟨hr, rfl⟩
    have hsome : (lookup key rows (key r)).isSome := lookup_isSome.mpr ⟨r, hr, rfl⟩
    obtain ⟨s, hs⟩ := Option.isSome_iff_exists.mp hsome
    rw [hs, h.eq hr (lookup_some hs).1 (lookup_some hs).2.symm]

/-- Tables with unique keys in which every key finds the same row have the same rows. -/
theorem Unique.perm {rows rows' : List ρ} (h : Unique key rows) (h' : Unique key rows')
    (hsame : lookup key rows = lookup key rows') : rows.Perm rows' := by
  rw [List.perm_ext_iff_of_nodup (List.Nodup.of_map key h) (List.Nodup.of_map key h')]
  intro r
  have hr := h.lookup_eq_some (k := key r) (r := r)
  rw [hsame, h'.lookup_eq_some] at hr
  simpa using hr.symm

theorem Unique.map_some {α : Type} {rows : List ρ} (h : Unique key rows) (g : ρ → α) :
    rows.map (fun r => some (g r)) = (rows.map key).map (fun k => (lookup key rows k).map g) := by
  rw [List.map_map]
  apply List.map_congr_left
  intro r hr
  rw [Function.comp_apply, h.lookup_eq_some.mpr ⟨hr, rfl⟩, Option.map_some]

/-- The rows with a key that is present are the one row with it. -/
theorem Unique.filter_eq_singleton {rows : List ρ} (h : Unique key rows) {k : κ} {r : ρ} :
    rows.filter (fun r => key r = k) = [r] ↔ lookup key rows k = some r := by
  rw [h.lookup_eq_some]
  constructor
  · intro hr
    have hm : r ∈ rows.filter (fun r => key r = k) := by simp [hr]
    simpa using hm
  · rintro ⟨hr, rfl⟩
    rw [← List.perm_singleton]
    rw [List.perm_ext_iff_of_nodup ((List.Nodup.of_map _ h).filter _) (List.nodup_singleton r)]
    intro s
    simp only [List.mem_filter, decide_eq_true_eq, List.mem_singleton]
    constructor
    · rintro ⟨hs, hk⟩
      exact h.eq hs hr hk
    · rintro rfl
      exact ⟨hr, rfl⟩

theorem Unique.append {rows : List ρ} (h : Unique key rows) {r : ρ}
    (hr : lookup key rows (key r) = none) : Unique key (rows ++ [r]) := by
  rw [Unique, List.map_append, List.map_singleton, List.nodup_append]
  refine ⟨h, List.nodup_singleton _, ?_⟩
  intro k hk k' hk' he
  obtain ⟨s, hs, rfl⟩ := List.mem_map.mp hk
  rw [List.mem_singleton] at hk'
  exact lookup_eq_none.mp hr s hs (he.trans hk')

theorem lookup_append {rows : List ρ} {r : ρ} (hr : lookup key rows (key r) = none) :
    lookup key (rows ++ [r]) = Function.update (lookup key rows) (key r) (some r) := by
  funext k
  by_cases hk : k = key r
  · subst hk
    have hr' : List.find? (fun s => key s = key r) rows = none := hr
    simp [lookup, List.find?_append, hr']
  · rw [Function.update_of_ne hk]
    simp [lookup, List.find?_append, Ne.symm hk]

theorem lookup_cons (r : ρ) (rows : List ρ) (k : κ) :
    lookup key (r :: rows) k = if key r = k then some r else lookup key rows k := by
  by_cases h : key r = k <;> simp [lookup, h]

theorem unique_cons {r : ρ} {rows : List ρ} :
    Unique key (r :: rows) ↔ lookup key rows (key r) = none ∧ Unique key rows := by
  simp [Unique, lookup_eq_none, List.nodup_cons]

theorem lookup_map {rows : List ρ} {g : ρ → ρ} (hg : ∀ r, key (g r) = key r) (k : κ) :
    lookup key (rows.map g) k = (lookup key rows k).map g := by
  rw [lookup, List.find?_map]
  simp only [lookup, Function.comp_def, hg]

theorem lookup_delete (rows : List ρ) (k : κ) :
    lookup key (rows.filter (fun r => key r ≠ k)) = Function.update (lookup key rows) k none := by
  funext l
  by_cases hl : l = k
  · subst hl
    rw [Function.update_self, lookup_eq_none]
    intro r hr
    simpa using (List.mem_filter.mp hr).2
  · rw [Function.update_of_ne hl, lookup, lookup, List.find?_filter]
    congr 1
    funext r
    by_cases hr : key r = l
    · simp [hr, hl]
    · simp [hr]

end EncryptedTransfer.KeyedTable
