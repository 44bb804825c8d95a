import Mathlib.Data.List.Count
import Mathlib.Data.List.Perm.Subperm
import Mathlib.Data.List.Sort

/-!
# Pages of a list that is sorted again for each page

A list is sorted by a total preorder and cut into pages of `n`.  The elements that compare equal
may come in a different order each time the list is sorted, and each page is cut out of a sorting
of its own.

* `Sorting le l m` — `m` is one of the sortings of `l`.
* `below`, `upto` — where the group of the elements that compare equal to `a` begins and ends, the
  same in every sorting.
* `Unsplit` — no group is on two pages.
* `Unsplit.of_antisymm` — when nothing compares equal, no group is.
* `lex` — first by one order, then by the next one.
* `pages_perm`, `pages_pairwise` — then the pages make up a sorting of the list, whatever sorting
  each page comes from; `exists_repeated` — and only then.
-/

namespace Paging

variable {α : Type} {le : α → α → Bool} {l m : List α} {a b x : α} {n : ℕ}

/-- `m` is `l`, sorted. -/
def Sorting (le : α → α → Bool) (l m : List α) : Prop := m.Perm l ∧ m.Pairwise (le · ·)

/-- The `k`-th page, from `0` on. -/
def page (n k : ℕ) (l : List α) : List α := (l.drop (k * n)).take n

/-- How many elements come before the group of `a`. -/
def below (le : α → α → Bool) (l : List α) (a : α) : ℕ := l.countP fun b => !le a b

/-- How many elements come before the end of the group of `a`. -/
def upto (le : α → α → Bool) (l : List α) (a : α) : ℕ := l.countP fun b => le b a

/-- No group is on two pages: the first and the last element of each are on the same one. -/
def Unsplit (le : α → α → Bool) (n : ℕ) (l : List α) : Prop :=
  ∀ a ∈ l, below le l a / n = (upto le l a - 1) / n

/-- A total preorder. -/
structure TotalPreorder (le : α → α → Bool) : Prop where
  trans : ∀ a b c, le a b → le b c → le a c
  total : ∀ a b, le a b || le b a

lemma TotalPreorder.refl (h : TotalPreorder le) (a : α) : le a a := by
  have := h.total a a
  simpa using this

lemma TotalPreorder.of_not (h : TotalPreorder le) (hab : le a b = false) : le b a := by
  have := h.total a b
  simpa [hab] using this

lemma Sorting.mem_iff (h : Sorting le l m) : a ∈ m ↔ a ∈ l := h.1.mem_iff

lemma Sorting.below_eq (h : Sorting le l m) (a : α) : below le m a = below le l a :=
  h.1.countP_eq _

lemma Sorting.upto_eq (h : Sorting le l m) (a : α) : upto le m a = upto le l a := h.1.countP_eq _

/-- Every list has a sorting. -/
lemma exists_sorting (hle : TotalPreorder le) (l : List α) : ∃ m, Sorting le l m :=
  ⟨l.mergeSort le, List.mergeSort_perm l le, List.pairwise_mergeSort hle.trans hle.total l⟩

/-! ## Groups -/

/-- An element stands between the ends of its group. -/
lemma bounds_of_pairwise (hle : TotalPreorder le) {u v : List α}
    (h : (u ++ a :: v).Pairwise (le · ·)) :
    below le (u ++ a :: v) a ≤ u.length ∧ u.length < upto le (u ++ a :: v) a := by
  obtain ⟨hu, hav, hcross⟩ := List.pairwise_append.mp h
  obtain ⟨hav, -⟩ := List.pairwise_cons.mp hav
  have hself := hle.refl a
  constructor
  · have hv : (a :: v).countP (fun b => !le a b) = 0 := by
      simp only [List.countP_eq_zero, List.mem_cons, forall_eq_or_imp]
      simpa [hself] using hav
    have hu : u.countP (fun b => !le a b) ≤ u.length := List.countP_le_length
    rw [below, List.countP_append]
    omega
  · have hu : u.countP (fun b => le b a) = u.length := by
      rw [List.countP_eq_length]
      intro b hb
      exact hcross b hb a (List.mem_cons_self ..)
    have hv : 0 < (a :: v).countP (fun b => le b a) :=
      List.countP_pos_iff.mpr ⟨a, List.mem_cons_self .., hself⟩
    rw [upto, List.countP_append, hu]
    omega

lemma below_lt_upto (hle : TotalPreorder le) (ha : a ∈ l) : below le l a < upto le l a := by
  obtain ⟨m, hm⟩ := exists_sorting hle l
  obtain ⟨u, v, rfl⟩ := List.append_of_mem (hm.mem_iff.mpr ha)
  have := bounds_of_pairwise hle hm.2
  rw [hm.below_eq, hm.upto_eq] at this
  omega

/-- What stands between the ends of a group belongs to it. -/
lemma eq_of_bounds (hle : TotalPreorder le) {u v : List α}
    (h : (u ++ x :: v).Pairwise (le · ·)) (hbelow : below le (u ++ x :: v) a ≤ u.length)
    (hupto : u.length < upto le (u ++ x :: v) a) : le a x ∧ le x a := by
  obtain ⟨hu, hxv, hcross⟩ := List.pairwise_append.mp h
  obtain ⟨hxv, -⟩ := List.pairwise_cons.mp hxv
  constructor
  · by_contra hax
    have hlow : ∀ b ∈ u ++ [x], !le a b := by
      intro b hb
      by_contra hab
      simp only [Bool.not_eq_true', Bool.not_eq_false] at hab
      rcases List.mem_append.mp hb with hb | hb
      · exact hax (hle.trans a b x hab (hcross b hb x (List.mem_cons_self ..)))
      · obtain rfl := List.mem_singleton.mp hb
        exact hax hab
    have hcount := List.countP_eq_length.mpr hlow
    rw [below, show u ++ x :: v = (u ++ [x]) ++ v by simp, List.countP_append, hcount,
      List.length_append, List.length_singleton] at hbelow
    omega
  · by_contra hxa
    have hhigh : ∀ b ∈ x :: v, ¬ le b a := by
      intro b hb hba
      rcases List.mem_cons.mp hb with rfl | hb
      · exact hxa hba
      · exact hxa (hle.trans x b a (hxv b hb) hba)
    have hcount := List.countP_eq_zero.mpr hhigh
    have hu : u.countP (fun b => le b a) ≤ u.length := List.countP_le_length
    rw [upto, List.countP_append, hcount] at hupto
    omega

/-- What is strictly smaller is in an earlier group. -/
lemma le_of_below_lt (hle : TotalPreorder le) (h : below le l a < below le l b) : le a b := by
  by_contra hab
  have hba := hle.of_not (Bool.eq_false_iff.mpr hab)
  have : below le l b ≤ below le l a := by
    apply List.countP_mono_left
    intro c _ hc
    simp only [Bool.not_eq_true', Bool.eq_false_iff] at hc ⊢
    intro hac
    exact hc (hle.trans b a c hba hac)
  omega

/-- Groups of one element are not split. -/
lemma Unsplit.of_antisymm (hle : TotalPreorder le) (hl : l.Nodup)
    (hanti : ∀ a ∈ l, ∀ b ∈ l, le a b → le b a → a = b) (n : ℕ) : Unsplit le n l := by
  intro a ha
  have hone : l.countP (fun b => le a b && le b a) ≤ 1 := by
    rw [List.countP_eq_length_filter]
    have hsubset : l.filter (fun b => le a b && le b a) ⊆ [a] := by
      intro b hb
      simp only [List.mem_filter, Bool.and_eq_true] at hb
      obtain ⟨hb, hab, hba⟩ := hb
      rw [hanti b hb a ha hba hab]
      exact List.mem_singleton_self _
    exact (List.subperm_of_subset (hl.filter _) hsubset).length_le
  have hsum : upto le l a ≤ below le l a + l.countP (fun b => le a b && le b a) := by
    rw [upto, below]
    clear hone hanti ha hl
    induction l with
    | nil => simp
    | cons b l ih =>
        simp only [List.countP_cons]
        cases le a b <;> cases le b a <;> simp <;> omega
  have hgroup := below_lt_upto hle ha
  rw [show upto le l a - 1 = below le l a by omega]

/-! ## Lexicographic orders -/

/-- By the first order; what compares equal by the next one, and so on. -/
def lex : List (α → α → Bool) → α → α → Bool
  | [], _, _ => true
  | r :: rs, a, b => r a b && (!r b a || lex rs a b)

lemma lex_head {r : α → α → Bool} {rs : List (α → α → Bool)} (h : lex (r :: rs) a b) : r a b := by
  simp only [lex, Bool.and_eq_true] at h
  exact h.1

/-- What compares equal is equal in every order. -/
lemma lex_eq : ∀ {rs : List (α → α → Bool)}, lex rs a b → lex rs b a →
    ∀ r ∈ rs, r a b ∧ r b a
  | [], _, _ => by simp
  | r :: rs, hab, hba => by
      have h := lex_head hab
      have h' := lex_head hba
      simp only [lex, h, h', Bool.true_and, Bool.not_true, Bool.false_or] at hab hba
      intro s hs
      rcases List.mem_cons.mp hs with rfl | hs
      · exact ⟨h, h'⟩
      · exact lex_eq hab hba s hs

lemma lex_totalPreorder : ∀ {rs : List (α → α → Bool)}, (∀ r ∈ rs, TotalPreorder r) →
    TotalPreorder (lex rs)
  | [], _ => ⟨by simp [lex], by simp [lex]⟩
  | r :: rs, h => by
      have hr := h r (List.mem_cons_self ..)
      have hrs := lex_totalPreorder fun s hs => h s (List.mem_cons_of_mem r hs)
      constructor
      · intro a b c hab hbc
        simp only [lex, Bool.and_eq_true, Bool.or_eq_true, Bool.not_eq_true',
          Bool.eq_false_iff] at hab hbc ⊢
        refine ⟨hr.trans a b c hab.1 hbc.1, ?_⟩
        by_cases hca : r c a
        · right
          have hba := hr.trans b c a hbc.1 hca
          have hcb := hr.trans c a b hca hab.1
          exact hrs.trans a b c (hab.2.resolve_left (by simp [hba]))
            (hbc.2.resolve_left (by simp [hcb]))
        · exact Or.inl hca
      · intro a b
        have := hr.total a b
        have := hrs.total a b
        simp only [lex]
        cases hab : r a b <;> cases hba : r b a <;> simp_all

/-! ## Pages -/

lemma page_nodup (h : l.Nodup) (k : ℕ) : (page n k l).Nodup :=
  (h.sublist (List.drop_sublist ..)).sublist (List.take_sublist ..)

lemma page_pairwise (h : l.Pairwise (le · ·)) (k : ℕ) : (page n k l).Pairwise (le · ·) :=
  (h.sublist (List.drop_sublist ..)).sublist (List.take_sublist ..)

/-- An element is on the page on which it stands. -/
lemma mem_page {u v : List α} (h : (u ++ a :: v).Nodup) (hn : 0 < n) (k : ℕ) :
    a ∈ page n k (u ++ a :: v) ↔ u.length / n = k := by
  have hat : (u ++ a :: v)[u.length]? = some a := by simp
  rw [Nat.div_eq_iff hn, page, List.mem_iff_getElem?]
  constructor
  · rintro ⟨i, hi⟩
    rw [List.getElem?_take] at hi
    split at hi
    · rw [List.getElem?_drop] at hi
      have hlt : u.length < (u ++ a :: v).length := by simp
      have := (List.getElem?_inj hlt h).mp (hat.trans hi.symm)
      omega
    · cases hi
  · intro hk
    refine ⟨u.length - k * n, ?_⟩
    rw [List.getElem?_take, if_pos (by omega), List.getElem?_drop]
    rw [show k * n + (u.length - k * n) = u.length by omega]
    exact hat

/-- In every sorting, a group that is not split is on the page where it begins. -/
lemma Sorting.mem_page_iff (hle : TotalPreorder le) (hn : 0 < n) (hl : l.Nodup)
    (hunsplit : Unsplit le n l) (h : Sorting le l m) (k : ℕ) :
    a ∈ page n k m ↔ a ∈ l ∧ below le l a / n = k := by
  have hm : m.Nodup := h.1.nodup_iff.mpr hl
  have hplace : a ∈ l → (a ∈ page n k m ↔ below le l a / n = k) := by
    intro ha
    obtain ⟨u, v, rfl⟩ := List.append_of_mem (h.mem_iff.mpr ha)
    obtain ⟨hbelow, hupto⟩ := bounds_of_pairwise hle h.2
    rw [h.below_eq] at hbelow
    rw [h.upto_eq] at hupto
    have hfirst : below le l a / n ≤ u.length / n := Nat.div_le_div_right hbelow
    have hlast : u.length / n ≤ (upto le l a - 1) / n := Nat.div_le_div_right (by omega)
    have hgroup := hunsplit a ha
    rw [mem_page hm hn]
    omega
  constructor
  · intro ha
    have hmem : a ∈ l := h.mem_iff.mp (List.mem_of_mem_drop (List.mem_of_mem_take ha))
    exact ⟨hmem, (hplace hmem).mp ha⟩
  · rintro ⟨ha, hk⟩
    exact (hplace ha).mpr hk

section Pages

variable (hle : TotalPreorder le) (hn : 0 < n) (hl : l.Nodup) (hunsplit : Unsplit le n l)
  {sortings : ℕ → List α} {count : ℕ} (hsort : ∀ k < count, Sorting le l (sortings k))
include hle hn hl hunsplit hsort

/-- The pages have every element once. -/
theorem pages_perm (hcount : l.length ≤ count * n) :
    ((List.range count).flatMap fun k => page n k (sortings k)).Perm l := by
  have hnodup : ((List.range count).flatMap fun k => page n k (sortings k)).Nodup := by
    rw [List.nodup_flatMap]
    constructor
    · intro k hk
      exact page_nodup ((hsort k (List.mem_range.mp hk)).1.nodup_iff.mpr hl) k
    · refine List.nodup_range.imp_of_mem ?_
      intro j k hj hk hne a haj hak
      have hj := ((hsort j (List.mem_range.mp hj)).mem_page_iff hle hn hl hunsplit j).mp haj
      have hk := ((hsort k (List.mem_range.mp hk)).mem_page_iff hle hn hl hunsplit k).mp hak
      omega
  refine (List.perm_ext_iff_of_nodup hnodup hl).mpr fun a => ?_
  simp only [List.mem_flatMap, List.mem_range]
  constructor
  · rintro ⟨k, hk, ha⟩
    exact (((hsort k hk).mem_page_iff hle hn hl hunsplit k).mp ha).1
  · intro ha
    have hlt : below le l a / n < count := by
      have : below le l a < l.length := by
        rw [below, List.countP_lt_length_iff]
        exact ⟨a, ha, by simp [hle.refl a]⟩
      rw [Nat.div_lt_iff_lt_mul hn]
      omega
    exact ⟨_, hlt, ((hsort _ hlt).mem_page_iff hle hn hl hunsplit _).mpr ⟨ha, rfl⟩⟩

/-- The pages are sorted, one after the other. -/
theorem pages_pairwise :
    ((List.range count).flatMap fun k => page n k (sortings k)).Pairwise (le · ·) := by
  rw [List.pairwise_flatMap]
  constructor
  · intro k hk
    exact page_pairwise (hsort k (List.mem_range.mp hk)).2 k
  · refine List.pairwise_lt_range.imp_of_mem ?_
    intro j k hj hk hjk a ha b hb
    have hj := ((hsort j (List.mem_range.mp hj)).mem_page_iff hle hn hl hunsplit j).mp ha
    have hk := ((hsort k (List.mem_range.mp hk)).mem_page_iff hle hn hl hunsplit k).mp hb
    refine le_of_below_lt hle (l := l) ?_
    by_contra hge
    have := Nat.div_le_div_right (c := n) (Nat.le_of_not_lt hge)
    omega

end Pages

/-- Two neighbours that compare equal may come in either order. -/
lemma swap_pairwise {u v : List α} {y : α} (hyx : le y x)
    (h : (u ++ x :: y :: v).Pairwise (le · ·)) : (u ++ y :: x :: v).Pairwise (le · ·) := by
  simp only [List.pairwise_append, List.pairwise_cons, List.mem_cons, forall_eq_or_imp] at h ⊢
  obtain ⟨hu, ⟨⟨-, hxv⟩, hyv, hv⟩, hcross⟩ := h
  refine ⟨hu, ⟨⟨hyx, hyv⟩, hxv, hv⟩, fun b hb => ?_⟩
  obtain ⟨hx, hy, hv⟩ := hcross b hb
  exact ⟨hy, hx, hv⟩

/-- Two neighbours inside a list. -/
lemma exists_neighbours {i : ℕ} (h : i + 1 < l.length) :
    ∃ u x y v, l = u ++ x :: y :: v ∧ u.length = i := by
  refine ⟨l.take i, l[i], l[i + 1], l.drop (i + 2), ?_, ?_⟩
  · rw [← List.drop_eq_getElem_cons h, ← List.drop_eq_getElem_cons (by omega),
      List.take_append_drop]
  · rw [List.length_take]
    omega

/-- **When a group is on two pages, an element may be on both of them**, and another one on
none. -/
theorem exists_repeated (hle : TotalPreorder le) (hn : 0 < n) (hl : l.Nodup)
    (hsplit : ¬ Unsplit le n l) {count : ℕ} (hcount : l.length ≤ count * n) :
    ∃ sortings : ℕ → List α, (∀ k, Sorting le l (sortings k)) ∧
      ¬ ((List.range count).flatMap fun k => page n k (sortings k)).Perm l := by
  simp only [Unsplit, not_forall] at hsplit
  obtain ⟨a, ha, hne⟩ := hsplit
  obtain ⟨m, hm⟩ := exists_sorting hle l
  have hnodup : m.Nodup := hm.1.nodup_iff.mpr hl
  obtain ⟨k, hk⟩ : ∃ k, (upto le l a - 1) / n = k := ⟨_, rfl⟩
  -- The group of `a` begins before the page `k` and reaches into it.
  have hgroup := below_lt_upto hle ha
  have hbegin : below le l a < k * n := by
    have hfirst : below le l a / n ≤ (upto le l a - 1) / n := Nat.div_le_div_right (by omega)
    rw [← Nat.div_lt_iff_lt_mul hn]
    omega
  have hend : k * n < upto le l a := by
    have := Nat.div_mul_le_self (upto le l a - 1) n
    rw [hk] at this
    omega
  have hlength : upto le l a ≤ m.length := by
    rw [← hm.upto_eq]
    exact List.countP_le_length
  -- The elements on both sides of the boundary change places.
  obtain ⟨u, x, y, v, rfl, hu⟩ := exists_neighbours (l := m) (i := k * n - 1) (by omega)
  have hx : le a x ∧ le x a := by
    refine eq_of_bounds hle hm.2 ?_ ?_
    · rw [hm.below_eq]
      omega
    · rw [hm.upto_eq]
      omega
  have hy : le a y ∧ le y a := by
    have hshift : u ++ x :: y :: v = (u ++ [x]) ++ y :: v := by simp
    have hlen : (u ++ [x]).length = k * n := by simp; omega
    have hpairwise := hm.2
    rw [hshift] at hpairwise
    refine eq_of_bounds hle hpairwise ?_ ?_
    · rw [← hshift, hm.below_eq]
      omega
    · rw [← hshift, hm.upto_eq]
      omega
  have hswap : Sorting le l (u ++ y :: x :: v) := by
    refine ⟨.trans (.append_left u (.swap x y v)) hm.1, ?_⟩
    exact swap_pairwise (hle.trans y a x hy.2 hx.1) hm.2
  have hkpos : 0 < k := by
    by_contra hzero
    obtain rfl : k = 0 := by omega
    omega
  have hkcount : k < count := by
    by_contra hge
    have := Nat.mul_le_mul_right n (Nat.le_of_not_lt hge)
    have := hm.1.length_eq
    omega
  refine ⟨fun j => if j < k then u ++ x :: y :: v else u ++ y :: x :: v, fun j => ?_, ?_⟩
  · dsimp only
    split
    · exact hm
    · exact hswap
  · intro hperm
    have hdisjoint := (List.nodup_flatMap.mp (hperm.nodup_iff.mpr hl)).2
    have hbefore : x ∈ page n (k - 1) (u ++ x :: y :: v) := by
      rw [mem_page hnodup hn, Nat.div_eq_iff hn, Nat.sub_mul]
      omega
    have hafter : x ∈ page n k (u ++ y :: x :: v) := by
      have hshift : u ++ y :: x :: v = (u ++ [y]) ++ x :: v := by simp
      have hnodup' := hswap.1.nodup_iff.mpr hl
      rw [hshift] at hnodup' ⊢
      rw [mem_page hnodup' hn, Nat.div_eq_iff hn, List.length_append, List.length_singleton]
      omega
    have := List.pairwise_iff_getElem.mp hdisjoint (k - 1) k (by simp; omega) (by simp; omega)
      (by omega)
    simp only [Function.onFun, List.getElem_range, lt_self_iff_false, if_false] at this
    rw [if_pos (by omega)] at this
    exact this hbefore hafter

end Paging
