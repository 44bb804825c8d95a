import AtsigCommon.Pagination.Partition
import Mathlib.Data.Rat.Floor
import Mathlib.Tactic.Linarith

/-!
# The numbers of a page

`page`, `limit` and `offset` are computed with in four places: the pages are counted by a division,
`has_next` compares a sum, `has_previous` looks at the page, and the database skips and takes rows.

* `totalPages_eq_ceil` — the division rounds up, for a limit of at least one.
* `next_iff` — the sum and the number of pages agree.
* `length_results` — how many rows a page holds.
* `pagination_consistent_iff` — all of this holds for a limit of at least one, and for an empty
  list with the limit zero, and in no other case.
-/

namespace Atsig

open Paging Python

variable {ρ : Type} {model : Model ρ} {sortModel : Option (Model ρ)}
  {defaultSort defaultOrder : Option String} {rows results : List ρ}

/-! ## The number of pages -/

/-- `(total + limit - 1) // limit` is the quotient, rounded up. -/
lemma fdiv_eq_ceil {limit : ℤ} (hlimit : 1 ≤ limit) (total : ℤ) :
    (total + limit - 1).fdiv limit = ⌈(total : ℚ) / limit⌉ := by
  obtain ⟨n, hn⟩ : ∃ n : ℕ, limit = n := ⟨limit.toNat, by omega⟩
  subst hn
  have hpos : (0 : ℤ) < n := by omega
  rw [Int.cast_natCast, Rat.ceil_intCast_div_natCast, Int.fdiv_eq_ediv_of_nonneg _ (by omega)]
  have hleft := Int.mul_ediv_add_emod (total + n - 1) n
  have hright := Int.mul_ediv_add_emod (-total) n
  have hl := Int.emod_nonneg (total + n - 1) (by omega : (n : ℤ) ≠ 0)
  have hl' := Int.emod_lt_of_pos (total + n - 1) hpos
  have hr := Int.emod_nonneg (-total) (by omega : (n : ℤ) ≠ 0)
  have hr' := Int.emod_lt_of_pos (-total) hpos
  have hlow : (n : ℤ) * ((total + n - 1) / n + -total / n) < n * 1 := by
    rw [mul_add]
    omega
  have hhigh : (n : ℤ) * (-1) < n * ((total + n - 1) / n + -total / n) := by
    rw [mul_add]
    omega
  have := lt_of_mul_lt_mul_left hlow hpos.le
  have := lt_of_mul_lt_mul_left hhigh hpos.le
  omega

/-- The pages of a list, for a limit of at least one. -/
lemma totalPages_eq_ceil {pagination : PaginationParams} (hlimit : 1 ≤ pagination.limit)
    (total : ℕ) :
    totalPages pagination total = .ok ⌈(total : ℚ) / pagination.limit⌉ := by
  rw [totalPages]
  split_ifs with htotal
  · have hne : pagination.limit ≠ 0 := by omega
    have hceil := fdiv_eq_ceil hlimit total
    rw [floorDiv, if_neg hne, hceil, Int.cast_natCast]
  · have hzero : total = 0 := by omega
    subst hzero
    simp

/-- There is a page after this one if and only if the rows up to its end are not all. -/
lemma next_iff {pagination : PaginationParams} (hlimit : 1 ≤ pagination.limit) (total : ℕ) :
    pagination.offset + pagination.limit < total
      ↔ pagination.page < ⌈(total : ℚ) / pagination.limit⌉ := by
  have hpos : (0 : ℚ) < pagination.limit := by exact_mod_cast hlimit
  have hend : pagination.offset + pagination.limit = pagination.page * pagination.limit := by
    rw [PaginationParams.offset]
    ring
  rw [hend, Int.lt_ceil, lt_div_iff₀ hpos]
  exact_mod_cast Iff.rfl

/-! ## The rows of a page -/

/-- How many rows there are after `offset`, and at most `limit`. -/
lemma length_results {pagination : PaginationParams}
    (h : (paginateRaw (.select rows) model pagination sortModel defaultSort defaultOrder).Answers
      results)
    (hlimit : 0 ≤ pagination.limit) (hoffset : 0 ≤ pagination.offset) :
    (results.length : ℤ) = max 0 (min pagination.limit (rows.length - pagination.offset)) := by
  obtain ⟨sorted, hsorted, hresults⟩ := h
  have hrows : sorted.length = rows.length := hsorted.1.length_eq
  have hlength : results.length
      = min pagination.limit.toNat (rows.length - pagination.offset.toNat) := by
    rw [hresults]
    simp only [paginateRaw, List.length_take, List.length_drop, hrows]
  omega

/-- What the response and the page must be. -/
structure Consistent (pagination : PaginationParams) (total : ℕ)
    (response : PaginatedResponse ρ) : Prop where
  totalPages : response.totalPages = ⌈(total : ℚ) / pagination.limit⌉
  hasNext : response.hasNext = true ↔ pagination.page < response.totalPages
  hasPrevious : response.hasPrevious = true ↔ 1 < pagination.page
  items : (response.items.length : ℤ) = max 0 (min pagination.limit (total - pagination.offset))

lemma offset_nonneg {pagination : PaginationParams} (hlimit : 0 ≤ pagination.limit) :
    0 ≤ pagination.offset := by
  have hpage := pagination.page_ge
  exact mul_nonneg (by omega) hlimit

/-- A limit of at least one. -/
lemma consistent_of_pos {pagination : PaginationParams} (hlimit : 1 ≤ pagination.limit)
    (h : (paginateRaw (.select rows) model pagination sortModel defaultSort defaultOrder).Answers
      results) :
    ∃ response, buildPaginatedResponse pagination rows.length results = .ok response
      ∧ Consistent pagination rows.length response := by
  have hpages := totalPages_eq_ceil hlimit rows.length
  refine ⟨_, by rw [buildPaginatedResponse, hpages]; rfl, ⟨rfl, ?_, ?_, ?_⟩⟩
  · rw [decide_eq_true_eq]
    exact next_iff hlimit rows.length
  · rw [decide_eq_true_eq]
  · exact length_results h (by omega) (offset_nonneg (by omega))

/-- The limit zero: nothing is divided for an empty list. -/
lemma consistent_of_empty {pagination : PaginationParams} (hlimit : pagination.limit = 0)
    (h : (paginateRaw (.select ([] : List ρ)) model pagination sortModel defaultSort
      defaultOrder).Answers results) :
    ∃ response, buildPaginatedResponse pagination 0 results = .ok response
      ∧ Consistent pagination 0 response := by
  have hoffset : pagination.offset = 0 := by
    rw [PaginationParams.offset, hlimit, mul_zero]
  have hlength := length_results h (by omega) (by omega)
  have hpage := pagination.page_ge
  refine ⟨_, rfl, ⟨?_, ?_, ?_, hlength⟩⟩
  · simp
  · simp only [hoffset, hlimit, decide_eq_true_eq]
    omega
  · rw [decide_eq_true_eq]

/-- A negative limit says that there is always a next page, and counts at most one. -/
lemma not_consistent_of_neg {pagination : PaginationParams} (hlimit : pagination.limit < 0)
    {total : ℕ} {response : PaginatedResponse ρ}
    (h : buildPaginatedResponse pagination total results = .ok response) :
    ¬ Consistent pagination total response := by
  intro hconsistent
  have hpage := pagination.page_ge
  have hend : pagination.offset + pagination.limit = pagination.page * pagination.limit := by
    rw [PaginationParams.offset]
    ring
  have hneg : pagination.page * pagination.limit < 0 := mul_neg_of_pos_of_neg (by omega) hlimit
  have hceil : ⌈(total : ℚ) / pagination.limit⌉ ≤ 0 := by
    have hle : (pagination.limit : ℚ) ≤ 0 := by exact_mod_cast hlimit.le
    have hquotient := div_nonpos_of_nonneg_of_nonpos (Nat.cast_nonneg (α := ℚ) total) hle
    exact Int.ceil_le.mpr (by exact_mod_cast hquotient)
  have hnext : response.hasNext = true := by
    rw [buildPaginatedResponse] at h
    cases hpages : totalPages pagination total with
    | error e =>
        rw [hpages] at h
        cases h
    | ok count =>
        rw [hpages] at h
        cases h
        rw [decide_eq_true_eq, hend]
        omega
  have hlast := hconsistent.hasNext.mp hnext
  rw [hconsistent.totalPages] at hlast
  omega

/-- **The numbers of a page agree**, whatever the database answers, if and only if the limit is at
least one, or the list is empty and the limit is zero. -/
theorem pagination_consistent_iff (model : Model ρ) (sortModel : Option (Model ρ))
    (defaultSort defaultOrder : Option String) (pagination : PaginationParams) (rows : List ρ) :
    (0 ≤ pagination.offset ∧ ∀ results,
        (paginateRaw (.select rows) model pagination sortModel defaultSort defaultOrder).Answers
          results →
        ∃ response, buildPaginatedResponse pagination rows.length results = .ok response
          ∧ Consistent pagination rows.length response)
      ↔ 1 ≤ pagination.limit ∨ pagination.limit = 0 ∧ rows = [] := by
  constructor
  · rintro ⟨-, h⟩
    have hle := (paginateRaw (.select rows) model pagination sortModel defaultSort
      defaultOrder).isOrder
    obtain ⟨sorted, hsorted⟩ := exists_sorting hle rows
    obtain ⟨response, hresponse, hconsistent⟩ := h _ ⟨sorted, hsorted, rfl⟩
    rcases lt_trichotomy pagination.limit 0 with hlimit | hlimit | hlimit
    · exact absurd hconsistent (not_consistent_of_neg hlimit hresponse)
    · refine Or.inr ⟨hlimit, ?_⟩
      by_contra hrows
      have htotal : (rows.length : ℤ) > 0 := by
        have := List.length_pos_iff.mpr hrows
        omega
      rw [buildPaginatedResponse, totalPages, if_pos htotal, floorDiv, if_pos hlimit] at hresponse
      cases hresponse
    · exact Or.inl (by omega)
  · rintro (hlimit | ⟨hlimit, rfl⟩)
    · exact ⟨offset_nonneg (by omega), fun results => consistent_of_pos hlimit⟩
    · exact ⟨offset_nonneg (by omega), fun results => consistent_of_empty hlimit⟩

/-- **The limit zero is divided by**, although the validation accepts it. -/
theorem limit_zero_raises :
    buildPaginatedResponse { limit := 0 } 5 ([] : List ℕ) = .error zeroDivisionError := rfl

end Atsig
