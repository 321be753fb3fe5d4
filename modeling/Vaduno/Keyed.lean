import Mathlib.Data.List.Nodup
import Mathlib.Data.List.Count

/-! Tables whose rows are told apart by a key: a map in insertion order, or a relation with a
primary key. -/
namespace Vaduno

structure Keyed {α κ : Type} (key : α → κ) where
  rows : List α
  distinct : (rows.map key).Nodup

namespace Keyed
variable {α κ : Type} {key : α → κ} [DecidableEq κ]

def empty : Keyed key := ⟨[], List.nodup_nil⟩

def find (t : Keyed key) (k : κ) : Option α := t.rows.find? fun r => key r = k

theorem find_eq_some {t : Keyed key} : t.find k = some r ↔ r ∈ t.rows ∧ key r = k := by
  constructor
  · intro found
    exact ⟨List.mem_of_find?_eq_some found, by simpa using List.find?_some found⟩
  · rintro ⟨member, rfl⟩
    cases found : t.find (key r) with
    | none => simp [find] at found; exact absurd rfl (found r member)
    | some q =>
      have same : key q = key r := by simpa using List.find?_some found
      rw [List.inj_on_of_nodup_map t.distinct (List.mem_of_find?_eq_some found) member same]

theorem find_eq_none {t : Keyed key} : t.find k = none ↔ ∀ r ∈ t.rows, key r ≠ k := by
  simp [find]

/-- Adds a row under a key that is free. -/
def insert (t : Keyed key) (r : α) (free : t.find (key r) = none) : Keyed key where
  rows := t.rows ++ [r]
  distinct := by
    rw [List.map_append, List.map_singleton, ← List.concat_eq_append]
    refine List.Nodup.concat (fun member => ?_) t.distinct
    obtain ⟨q, held, same⟩ := List.mem_map.mp member
    exact find_eq_none.mp free q held same

theorem find_insert (t : Keyed key) (r : α) (free : t.find (key r) = none) (k : κ) :
    (t.insert r free).find k = if key r = k then some r else t.find k := by
  simp only [insert, find, List.find?_append] at free ⊢
  split_ifs with same
  · subst same
    simp [free]
  · simp [same]

/-- Rewrites the row under a key, if there is one. -/
def alter (t : Keyed key) (k : κ) (f : α → α) (keeps : ∀ r, key (f r) = key r) : Keyed key where
  rows := t.rows.map fun r => if key r = k then f r else r
  distinct := by
    have keys : (t.rows.map fun r => if key r = k then f r else r).map key = t.rows.map key := by
      rw [List.map_map]
      refine List.map_congr_left fun r _ => ?_
      dsimp only [Function.comp_apply]
      split_ifs
      · exact keeps r
      · rfl
    rw [keys]
    exact t.distinct

theorem find_alter (t : Keyed key) (k : κ) (f : α → α) (keeps : ∀ r, key (f r) = key r) (k' : κ) :
    (t.alter k f keeps).find k' = if k' = k then (t.find k').map f else t.find k' := by
  have same : ∀ r, key (if key r = k then f r else r) = key r := fun r => by
    split_ifs
    · exact keeps r
    · rfl
  simp only [alter, find, List.find?_map, Function.comp_def, same]
  cases found : t.rows.find? fun r => key r = k' with
  | none => simp
  | some r =>
    have held : key r = k' := by simpa using List.find?_some found
    by_cases chosen : k' = k <;> simp [held, chosen]

theorem countP_alter (t : Keyed key) (k : κ) (f : α → α) (keeps : ∀ r, key (f r) = key r)
    (p : α → Bool) (blind : ∀ r, p (f r) = p r) : (t.alter k f keeps).rows.countP p =
      t.rows.countP p := by
  rw [alter, List.countP_map]
  refine List.countP_congr fun r _ => ?_
  dsimp only [Function.comp_apply]
  split_ifs
  · rw [blind]
  · rfl

/-- Adds a row, or rewrites the row under its key. -/
def put (t : Keyed key) (r : α) : Keyed key :=
  match free : t.find (key r) with
  | none => t.insert r free
  | some _ => t.alter (key r) (fun q => if key q = key r then r else q) fun q => by
      split_ifs with same
      · exact same.symm
      · rfl

theorem find_put (t : Keyed key) (r : α) (k : κ) :
    (t.put r).find k = if key r = k then some r else t.find k := by
  unfold put
  split
  · rw [find_insert]
  · rename_i held found
    rw [find_alter]
    by_cases same : key r = k
    · subst same
      have own := (find_eq_some.mp found).2
      simp [found, own]
    · simp [same, Ne.symm same]

theorem rows_put (t : Keyed key) (r : α) (free : t.find (key r) = none) : (t.put r).rows = t.rows ++ [r] := by
  unfold put
  split
  · rfl
  · rename_i found
    rw [found] at free
    cases free

theorem length_put (t : Keyed key) (r : α) : (t.put r).rows.length ≤ t.rows.length + 1 := by
  unfold put
  split
  · simp [insert]
  · simp [alter]

/-- Drops the row under a key. -/
def erase (t : Keyed key) (k : κ) : Keyed key where
  rows := t.rows.filter fun r => key r ≠ k
  distinct := t.distinct.sublist (List.filter_sublist.map key)

theorem find_erase (t : Keyed key) (k k' : κ) :
    (t.erase k).find k' = if k' = k then none else t.find k' := by
  split_ifs with same
  · subst same
    rw [find_eq_none]
    intro r member
    simpa using (List.mem_filter.mp member).2
  · cases found : t.find k' with
    | none =>
      rw [find_eq_none] at found ⊢
      intro r member
      exact found r (List.mem_filter.mp member).1
    | some r =>
      obtain ⟨member, rfl⟩ := find_eq_some.mp found
      exact find_eq_some.mpr ⟨List.mem_filter.mpr ⟨member, by simpa using same⟩, rfl⟩

/-- Keeps some of the rows, in their order. -/
def restrict (t : Keyed key) (rows : List α) (sub : rows.Sublist t.rows) : Keyed key :=
  ⟨rows, t.distinct.sublist (sub.map key)⟩

theorem find_restrict_of_none {t : Keyed key} {rows : List α} {sub : rows.Sublist t.rows} {k : κ}
    (free : t.find k = none) : (t.restrict rows sub).find k = none :=
  find_eq_none.mpr fun r member => find_eq_none.mp free r (sub.subset member)

theorem find_of_restrict {t : Keyed key} {rows : List α} {sub : rows.Sublist t.rows} {k : κ}
    (found : (t.restrict rows sub).find k = some r) : t.find k = some r := by
  obtain ⟨member, own⟩ := find_eq_some.mp found
  exact find_eq_some.mpr ⟨sub.subset member, own⟩

theorem mem_rows {t : Keyed key} {r : α} : r ∈ t.rows ↔ t.find (key r) = some r :=
  ⟨fun member => find_eq_some.mpr ⟨member, rfl⟩, fun found => (find_eq_some.mp found).1⟩

end Keyed
end Vaduno
