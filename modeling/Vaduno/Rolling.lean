import Mathlib.Algebra.Order.BigOperators.Group.List

/-! Totals of weighted items under a selection. A bound on such totals survives removing items
and relabelling them, and it survives an admission that counted everything the selection sees. -/
namespace Vaduno.Rolling
variable {ι κ M : Type*} [AddCommMonoid M]

/-- The weight of the selected items. -/
def total (select : ι → Prop) [DecidablePred select] (weight : ι → M) (items : List ι) : M :=
  ((items.filter select).map weight).sum

section Selection
variable (select counted : ι → Prop) [DecidablePred select] [DecidablePred counted]
  (weight : ι → M)

@[simp] theorem total_nil : total select weight [] = 0 := rfl

theorem total_append (items more : List ι) :
    total select weight (items ++ more) =
      total select weight items + total select weight more := by
  simp [total]

theorem total_singleton (item : ι) :
    total select weight [item] = if select item then weight item else 0 := by
  by_cases selected : select item <;> simp [total, selected]

/-- Relabelling items without touching weight or selection keeps the total. -/
theorem total_map (relabel : ι → ι) (weights : ∀ i, weight (relabel i) = weight i)
    (selects : ∀ i, select (relabel i) ↔ select i) (items : List ι) :
    total select weight (items.map relabel) = total select weight items := by
  simp [total, List.filter_map, Function.comp_def, weights, selects]

theorem total_congr {items : List ι} (same : ∀ i ∈ items, select i ↔ counted i) :
    total select weight items = total counted weight items := by
  have filtered : items.filter select = items.filter counted :=
    List.filter_congr fun i member => by simp [same i member]
  rw [total, total, filtered]

/-- A total over images is one over what they are images of. -/
theorem total_image (image : κ → ι) (items : List κ) :
    total select weight (items.map image) =
      total (fun k => select (image k)) (fun k => weight (image k)) items := by
  simp [total, List.filter_map, Function.comp_def]

theorem total_filter (items : List ι) :
    total select weight (items.filter fun i => counted i) =
      total (fun i => counted i ∧ select i) weight items := by
  simp [total, List.filter_filter, and_comm]

theorem total_perm {items more : List ι} (perm : items.Perm more) :
    total select weight items = total select weight more :=
  ((perm.filter _).map weight).sum_eq

variable [PartialOrder M]

private theorem selected_nonneg {items : List ι} (nonneg : ∀ i ∈ items, 0 ≤ weight i) :
    ∀ m ∈ (items.filter select).map weight, 0 ≤ m := by
  simp only [List.mem_map, List.mem_filter, forall_exists_index, and_imp]
  rintro _ i member - rfl
  exact nonneg i member

variable [IsOrderedAddMonoid M]

theorem total_nonneg {items : List ι} (nonneg : ∀ i ∈ items, 0 ≤ weight i) :
    0 ≤ total select weight items :=
  List.sum_nonneg (selected_nonneg select weight nonneg)

/-- Removing items never raises the total. -/
theorem total_sublist {fewer items : List ι} (removed : fewer.Sublist items)
    (nonneg : ∀ i ∈ items, 0 ≤ weight i) :
    total select weight fewer ≤ total select weight items :=
  ((removed.filter _).map weight).sum_le_sum (selected_nonneg select weight nonneg)

/-- Selecting more never lowers the total. -/
theorem total_mono {items : List ι} (covers : ∀ i ∈ items, select i → counted i)
    (nonneg : ∀ i ∈ items, 0 ≤ weight i) :
    total select weight items ≤ total counted weight items := by
  have narrowed : items.filter select = (items.filter counted).filter select := by
    rw [List.filter_filter]
    refine List.filter_congr fun i member => ?_
    by_cases selected : select i <;> simp [selected, covers i member]
  rw [total, narrowed]
  exact (List.filter_sublist.map weight).sum_le_sum (selected_nonneg counted weight nonneg)

/-- An admission checked against everything the selection sees keeps the selection's bound. -/
theorem total_admit {items : List ι} {item : ι} {bound : M}
    (nonneg : ∀ i ∈ items, 0 ≤ weight i) (held : total select weight items ≤ bound)
    (covers : select item → ∀ i ∈ items, select i → counted i)
    (fits : total counted weight items + weight item ≤ bound) :
    total select weight (items ++ [item]) ≤ bound := by
  rw [total_append, total_singleton]
  split_ifs with selected
  · exact (add_le_add_left (total_mono _ _ _ (covers selected) nonneg) _).trans fits
  · simpa using held

end Selection
end Vaduno.Rolling
