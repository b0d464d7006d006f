import Mathlib.Tactic

/-!
# Gathering

Both exports gather the contributions of numbered voices into one list, from which those of one
voice can be picked out again (`flatMap_zipIdx_of_unique`), and then put the list in order of time.
The sort is stable: a part of the list that is in order keeps its order
(`filter_mergeSort_of_pairwise`).  Items with equal keys are such a part, and what holds along each
of these parts holds between any two of its items (`pairwise_of_forall_filter`).
-/

namespace ChipScore

/-- Of numbered items only one contributes if all others contribute nothing. -/
lemma flatMap_zipIdx_of_unique {α γ : Type} {f : α × Nat → List γ} {i : Nat}
    (h : ∀ a j, j ≠ i → f (a, j) = []) (items : List α) {k : Nat} (hk : k ≤ i) :
    (items.zipIdx k).flatMap f = (items[i - k]?).elim [] fun a => f (a, i) := by
  induction items generalizing k with
  | nil => rfl
  | cons a rest ih =>
    rw [List.zipIdx_cons, List.flatMap_cons]
    rcases Nat.eq_or_lt_of_le hk with rfl | hlt
    · have hrest : (rest.zipIdx (k + 1)).flatMap f = [] := by
        refine List.flatMap_eq_nil_iff.mpr fun (b, j) hb => h b j ?_
        have hj := List.le_snd_of_mem_zipIdx hb
        simp only at hj
        omega
      rw [hrest, List.append_nil, Nat.sub_self]
      rfl
    · have hindex : i - k = (i - (k + 1)) + 1 := by omega
      rw [h a k (by omega), List.nil_append, ih hlt, hindex, List.getElem?_cons_succ]

/-- A stable sort keeps the order of a part of a list that is in order. -/
lemma filter_mergeSort_of_pairwise {α : Type} {le : α → α → Bool}
    (htrans : ∀ a b c, le a b = true → le b c = true → le a c = true)
    (htotal : ∀ a b, (le a b || le b a) = true) {p : α → Bool} {items : List α}
    (h : (items.filter p).Pairwise fun a b => le a b = true) :
    (items.mergeSort le).filter p = items.filter p := by
  have hsub : (items.filter p).Sublist (items.mergeSort le) :=
    List.sublist_mergeSort htrans htotal h List.filter_sublist
  have hkept : (items.filter p).Sublist ((items.mergeSort le).filter p) := by
    have hfilter := hsub.filter p
    simpa using hfilter
  have hlength : (items.filter p).length = ((items.mergeSort le).filter p).length :=
    ((List.mergeSort_perm items le).filter p).length_eq.symm
  exact (hkept.eq_of_length hlength).symm

/-- A relation that holds along the items of every key holds between items of the same key. -/
lemma pairwise_of_forall_filter {α κ : Type} [DecidableEq κ] (key : α → κ) {R : α → α → Prop}
    {items : List α} (h : ∀ k, (items.filter fun a => key a = k).Pairwise R) :
    items.Pairwise fun a b => key a = key b → R a b := by
  induction items with
  | nil => exact .nil
  | cons a rest ih =>
    refine List.pairwise_cons.mpr ⟨?_, ih ?_⟩
    · intro b hb hkey
      have hsame := h (key a)
      rw [List.filter_cons_of_pos (by simp)] at hsame
      exact (List.pairwise_cons.mp hsame).1 b (List.mem_filter.mpr ⟨hb, by simp [hkey]⟩)
    · intro k
      exact (h k).sublist ((List.sublist_cons_self a rest).filter _)

end ChipScore
