import AtsigCommon.Paging.Pages

/-!
# Pages of a list that grows

The pages of a list are read one after the other, and the list gets more elements in between: each
page is cut out of a later list.

* `exists_crossing` — what only moves towards the end, and is before it at last, is met on the way.
* `Appends` — the list got elements at the end of the order only.
* `Sorting.begins` — then its sorting begins with the old one, and full pages stay as they are.
* `pages_eq_take` — the first pages of one list are its beginning.
-/

namespace Paging

variable {α : Type} {le : α → α → Bool} {l l' l'' m m' : List α} {a : α} {n : ℕ}

/-! ## New elements anywhere -/

/-- New elements move the others only towards the end. -/
lemma below_mono (h : l.Subperm l') (a : α) : below le l a ≤ below le l' a := h.countP_le _

/-- A position that only grows, while the pages are read from the first one on, is read on the way
if it is before the end of the last one. -/
lemma exists_crossing (hn : 0 < n) (position : ℕ → ℕ) {last : ℕ}
    (hgrows : ∀ k < last, position k ≤ position (k + 1))
    (hend : position last < (last + 1) * n) : ∃ k ≤ last, position k / n = k := by
  induction last with
  | zero =>
      refine ⟨0, le_rfl, ?_⟩
      rw [Nat.div_eq_of_lt]
      simpa using hend
  | succ last ih =>
      by_cases hbefore : position (last + 1) < (last + 1) * n
      · have hprev := hgrows last (Nat.lt_succ_self last)
        obtain ⟨k, hk, hpage⟩ := ih (fun k hk => hgrows k (by omega)) (by omega)
        exact ⟨k, by omega, hpage⟩
      · refine ⟨last + 1, le_rfl, ?_⟩
        rw [Nat.div_eq_iff hn]
        rw [Nat.add_mul (last + 1) 1 n] at hend
        omega

/-- An element stands before the end. -/
lemma below_lt_length (hle : TotalPreorder le) (ha : a ∈ l) : below le l a < l.length := by
  rw [below, List.countP_lt_length_iff]
  exact ⟨a, ha, by simp [hle.refl a]⟩

/-! ## New elements at the end -/

/-- The list got elements, none of them before an old one. -/
def Appends (le : α → α → Bool) (l l' : List α) : Prop :=
  ∃ new : List α, l'.Perm (l ++ new) ∧ ∀ a ∈ l, ∀ b ∈ new, le a b

lemma Appends.refl (le : α → α → Bool) (l : List α) : Appends le l l :=
  ⟨[], by simp, by simp⟩

lemma Appends.subperm (h : Appends le l l') : l.Subperm l' := by
  obtain ⟨new, hperm, -⟩ := h
  exact (List.sublist_append_left l new).subperm.trans hperm.symm.subperm

lemma Appends.trans (h : Appends le l l') (h' : Appends le l' l'') : Appends le l l'' := by
  have hsub := h.subperm.subset
  obtain ⟨new, hperm, hle⟩ := h
  obtain ⟨new', hperm', hle'⟩ := h'
  refine ⟨new ++ new', ?_, fun a ha b hb => ?_⟩
  · rw [← List.append_assoc]
    exact hperm'.trans (hperm.append_right new')
  · rcases List.mem_append.mp hb with hb | hb
    · exact hle a ha b hb
    · exact hle' a (hsub ha) b hb

/-- An element of the old list stands where it stood. -/
lemma Appends.below_eq (h : Appends le l l') (ha : a ∈ l) : below le l' a = below le l a := by
  obtain ⟨new, hperm, hle⟩ := h
  have hnew : new.countP (fun b => !le a b) = 0 := by
    simp only [List.countP_eq_zero, Bool.not_eq_true', Bool.not_eq_false]
    exact hle a ha
  rw [below, hperm.countP_eq, List.countP_append, hnew, Nat.add_zero, below]

/-- Elements that do not compare equal have one sorting. -/
lemma Sorting.eq (hanti : ∀ a ∈ l, ∀ b ∈ l, le a b → le b a → a = b) (h : Sorting le l m)
    (h' : Sorting le l m') : m = m' := by
  refine List.Perm.eq_of_pairwise ?_ h.2 h'.2 (h.1.trans h'.1.symm)
  intro a b ha hb hab hba
  exact hanti a (h.mem_iff.mp ha) b (h'.mem_iff.mp hb) hab hba

/-- The new sorting begins with the old one. -/
lemma Sorting.begins (hle : TotalPreorder le)
    (hanti : ∀ a ∈ l', ∀ b ∈ l', le a b → le b a → a = b) (happends : Appends le l l')
    (h : Sorting le l m) (h' : Sorting le l' m') : m <+: m' := by
  obtain ⟨new, hperm, hbehind⟩ := happends
  obtain ⟨sortedNew, hnew⟩ := exists_sorting hle new
  have hboth : Sorting le l' (m ++ sortedNew) := by
    refine ⟨(h.1.append hnew.1).trans hperm.symm, ?_⟩
    rw [List.pairwise_append]
    refine ⟨h.2, hnew.2, fun a ha b hb => ?_⟩
    exact hbehind a (h.mem_iff.mp ha) b (hnew.mem_iff.mp hb)
  rw [h'.eq hanti hboth]
  exact List.prefix_append m sortedNew

/-- A page that was full stays as it is. -/
lemma page_of_begins (h : m <+: m') {k : ℕ} (hfull : (k + 1) * n ≤ m.length) :
    page n k m' = page n k m := by
  obtain ⟨rest, rfl⟩ := h
  rw [Nat.add_mul, Nat.one_mul] at hfull
  rw [page, page, List.drop_append_of_le_length (by omega), List.take_append_of_le_length]
  rw [List.length_drop]
  omega

/-- The first pages of a list are its beginning. -/
lemma pages_eq_take (n : ℕ) (l : List α) : ∀ count : ℕ,
    ((List.range count).flatMap fun k => page n k l) = l.take (count * n)
  | 0 => by simp
  | count + 1 => by
      rw [List.range_succ, List.flatMap_append, pages_eq_take n l count, Nat.add_mul, Nat.one_mul,
        List.take_add]
      simp [page]

end Paging
