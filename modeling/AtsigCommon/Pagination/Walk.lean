import AtsigCommon.Paging.Growing
import AtsigCommon.Pagination.Arithmetic

/-!
# A walk over the pages of a table that grows

A client asks for the first page, and for the next one as long as there is one.  The table gets
more rows in between; also within a request, since `paginate_raw` counts the rows before it selects
them.

* `PaginateQuery` — the responses of `paginate_query` to a count and to the rows.
* `Walk` — the requests of such a client, up to the first response that has no next page.
* `walk_complete` — what the client has got in the end.
-/

namespace Atsig

open Paging Python

variable {ρ : Type} {model : Model ρ} {pagination : PaginationParams} {sortModel : Option (Model ρ)}
  {defaultSort defaultOrder : Option String} {idColumn : Column ρ}

/-! ## Requests -/

/-- What a client asks of an endpoint: all but the page. -/
structure ListRequest (ρ : Type) where
  model : Model ρ
  pagination : PaginationParams
  sortModel : Option (Model ρ) := none
  defaultSort : Option String := some "id"
  defaultOrder : Option String := some "asc"

/-- One request: the table when it was counted and when its rows were selected, and the
response. -/
structure Visit (ρ : Type) where
  counted : List ρ
  rows : List ρ
  response : PaginatedResponse ρ

variable (request : ListRequest ρ)

/-- `paginate_query`, for the page `k + 1`. -/
def PaginateQuery (k : ℕ) (visit : Visit ρ) : Prop :=
  ∃ results, (paginateRaw (.select visit.rows) request.model (request.pagination.atPage k)
      request.sortModel request.defaultSort request.defaultOrder).Answers results
    ∧ buildPaginatedResponse (request.pagination.atPage k) visit.counted.length results
      = .ok visit.response

/-- The order of the clause, which does not depend on the rows. -/
def ListRequest.le : ρ → ρ → Bool :=
  (paginateRaw (.select []) request.model request.pagination request.sortModel
    request.defaultSort request.defaultOrder).le

/-- The rows on a page. -/
def ListRequest.size : ℕ := request.pagination.limit.toNat

/-- The rows have an order of their own: the clause ends with their `id`, or it is the clause of
their `id`. -/
def ListRequest.Ordered (idColumn : Column ρ) : Prop :=
  ∀ column, findSortColumn request.model request.sortModel
      (textOr request.pagination.sort request.defaultSort) = some column →
    Untied (textOr request.pagination.sort request.defaultSort) → column = idColumn

/-- The requests of a walk: they are answered, all but the last response have a next page, and the
table only gets more rows. -/
structure Walk (visits : ℕ → Visit ρ) (last : ℕ) : Prop where
  answered : ∀ k ≤ last, PaginateQuery request k (visits k)
  more : ∀ k < last, (visits k).response.hasNext = true
  done : (visits last).response.hasNext = false
  within : ∀ k ≤ last, (visits k).counted.Subperm (visits k).rows
  between : ∀ k < last, (visits k).rows.Subperm (visits (k + 1)).counted

/-- What the client has got. -/
def collected (visits : ℕ → Visit ρ) (last : ℕ) : List ρ :=
  (List.range (last + 1)).flatMap fun k => (visits k).response.items

variable {request} {visits : ℕ → Visit ρ} {last k : ℕ} {visit : Visit ρ} {rows : List ρ}

/-! ## One response -/

/-- Rows with ids of their own do not compare equal. -/
lemma ListRequest.Ordered.antisymm (hordered : request.Ordered idColumn)
    (hid : sortColumn request.model (some "id") = some idColumn)
    (hunique : idColumn.Unique rows) {a b : ρ} (ha : a ∈ rows) (hb : b ∈ rows)
    (hab : request.le a b) (hba : request.le b a) : a = b := by
  have hitem : ∃ item ∈ (paginateRaw (.select []) request.model request.pagination
      request.sortModel request.defaultSort request.defaultOrder).orderBy,
      item.column = idColumn := by
    simp only [paginateRaw, Query.select, Query.addOrder, List.nil_append]
    by_cases hties : ∃ column, findSortColumn request.model request.sortModel
        (textOr request.pagination.sort request.defaultSort) = some column
          ∧ Untied (textOr request.pagination.sort request.defaultSort)
    · obtain ⟨column, hfound, huntied⟩ := hties
      rw [hfound, orderItems]
      exact ⟨_, List.mem_cons_self .., hordered column hfound huntied⟩
    · simp only [not_exists, not_and] at hties
      exact orderItems_id hid hties _
  obtain ⟨item, hmem, rfl⟩ := hitem
  have heq := lex_eq hab hba item.le (List.mem_map_of_mem hmem)
  obtain ⟨column, direction⟩ := item
  cases direction with
  | asc => exact hunique.eq ha hb heq.1 heq.2
  | desc => exact hunique.eq ha hb heq.2 heq.1

lemma ListRequest.isOrder (request : ListRequest ρ) : TotalPreorder request.le :=
  Query.isOrder _

/-- What a response says. -/
lemma buildPaginatedResponse_ok {total : ℤ} {items : List ρ} {response : PaginatedResponse ρ}
    (h : buildPaginatedResponse pagination total items = .ok response) :
    response.items = items
      ∧ response.hasNext = decide (pagination.offset + pagination.limit < total)
      ∧ totalPages pagination total = .ok response.totalPages := by
  rw [buildPaginatedResponse] at h
  cases hpages : totalPages pagination total with
  | error e =>
      rw [hpages] at h
      cases h
  | ok pages =>
      rw [hpages] at h
      obtain rfl := Except.ok.inj h
      exact ⟨rfl, rfl, rfl⟩

/-- The items of a response are a page of a sorting of the table. -/
lemma PaginateQuery.items (hlimit : 1 ≤ request.pagination.limit)
    (h : PaginateQuery request k visit) :
    ∃ sorted, Sorting request.le visit.rows sorted
      ∧ visit.response.items = page request.size k sorted := by
  obtain ⟨results, hanswers, hresponse⟩ := h
  obtain ⟨sorted, hsorted, rfl⟩ := (answers_iff hlimit).mp hanswers
  exact ⟨sorted, hsorted, (buildPaginatedResponse_ok hresponse).1⟩

/-- `has_next` is about the count. -/
lemma PaginateQuery.hasNext_iff (hlimit : 1 ≤ request.pagination.limit)
    (h : PaginateQuery request k visit) :
    visit.response.hasNext = true ↔ (k + 1) * request.size < visit.counted.length := by
  obtain ⟨results, -, hresponse⟩ := h
  rw [(buildPaginatedResponse_ok hresponse).2.1, decide_eq_true_eq]
  obtain ⟨n, hn⟩ : ∃ n : ℕ, request.pagination.limit = n :=
    ⟨request.pagination.limit.toNat, by omega⟩
  simp only [ListRequest.size, PaginationParams.offset, PaginationParams.atPage, hn,
    Int.toNat_natCast]
  rw [show ((k : ℤ) + 1 - 1) * n = ((k * n : ℕ) : ℤ) by simp, Nat.add_mul, Nat.one_mul]
  omega

/-- `total_pages` is about the count, too. -/
lemma PaginateQuery.totalPages_eq (hlimit : 1 ≤ request.pagination.limit)
    (h : PaginateQuery request k visit) :
    visit.response.totalPages = ⌈(visit.counted.length : ℚ) / request.pagination.limit⌉
      ∧ (visit.response.hasNext = true ↔ (k : ℤ) + 1 < visit.response.totalPages) := by
  obtain ⟨results, -, hresponse⟩ := h
  obtain ⟨-, hnext, hpages⟩ := buildPaginatedResponse_ok hresponse
  have hlimit' : 1 ≤ (request.pagination.atPage k).limit := hlimit
  have hceil := Except.ok.inj
    (hpages.symm.trans (totalPages_eq_ceil hlimit' visit.counted.length))
  refine ⟨hceil, ?_⟩
  rw [hnext, decide_eq_true_eq, hceil]
  exact next_iff hlimit' visit.counted.length

/-! ## The whole walk -/

/-- What was counted at first is counted each time. -/
lemma Walk.counted_subset (hwalk : Walk request visits last) : ∀ k ≤ last,
    (visits 0).counted ⊆ (visits k).counted
  | 0, _ => List.Subset.refl _
  | k + 1, hk => by
      have hwithin := hwalk.within k (by omega)
      have hbetween := hwalk.between k (by omega)
      exact List.Subset.trans (hwalk.counted_subset k (by omega)) (hwithin.trans hbetween).subset

/-- The table of an earlier request is part of the last one. -/
lemma Walk.rows_subperm (hwalk : Walk request visits last) (hk : k ≤ last) :
    (visits k).rows.Subperm (visits last).rows := by
  induction hk using Nat.decreasingInduction with
  | self => exact List.Subperm.refl _
  | of_succ j hj ih =>
      exact (hwalk.between j hj).trans ((hwalk.within (j + 1) hj).trans ih)

/-- Rows with ids of their own stay so when others are left out. -/
lemma Column.Unique.of_subperm {rows' : List ρ} (h : idColumn.Unique rows)
    (hsub : rows'.Subperm rows) : idColumn.Unique rows' := by
  obtain ⟨kept, hperm, hsublist⟩ := hsub
  refine hperm.pairwise (h.sublist hsublist) ?_
  intro a b hne hab
  exact hne ⟨hab.2, hab.1⟩

section Walk

variable (hwalk : Walk request visits last) (hlimit : 1 ≤ request.pagination.limit)
  (hid : sortColumn request.model (some "id") = some idColumn)
  (hordered : request.Ordered idColumn) (hunique : idColumn.Unique (visits last).rows)
include hwalk hlimit

/-- What was counted at last fits on the pages. -/
lemma Walk.counted_fits : (visits last).counted.length ≤ (last + 1) * request.size := by
  have hnext := (hwalk.answered last le_rfl).hasNext_iff hlimit
  rw [hwalk.done] at hnext
  by_contra hmore
  exact absurd (hnext.mpr (by omega)) (by simp)

/-- As many requests as the last response says that there are pages, and at least one. -/
lemma Walk.length_eq : (last : ℤ) + 1 = max 1 (visits last).response.totalPages := by
  obtain ⟨hpages, hnext⟩ := (hwalk.answered last le_rfl).totalPages_eq hlimit
  rw [hwalk.done] at hnext
  have hle : (visits last).response.totalPages ≤ last + 1 := by
    by_contra hlt
    exact absurd (hnext.mpr (by omega)) (by simp)
  cases last with
  | zero => omega
  | succ last =>
      obtain ⟨hpages', hnext'⟩ := (hwalk.answered last (by omega)).totalPages_eq hlimit
      have hmore := hnext'.mp (hwalk.more last (by omega))
      have hgrown : (visits last).counted.length ≤ (visits (last + 1)).counted.length :=
        ((hwalk.within last (by omega)).trans (hwalk.between last (by omega))).length_le
      have hmono : (visits last).response.totalPages ≤ (visits (last + 1)).response.totalPages := by
        rw [hpages, hpages']
        apply Int.ceil_le_ceil
        have hpos : (0 : ℚ) ≤ request.pagination.limit := by exact_mod_cast (by omega)
        exact div_le_div_of_nonneg_right (by exact_mod_cast hgrown) hpos
      push_cast at hle ⊢
      omega

include hid hordered hunique

omit hlimit in
lemma Walk.antisymm (hk : k ≤ last) : ∀ a ∈ (visits k).rows, ∀ b ∈ (visits k).rows,
    request.le a b → request.le b a → a = b := by
  intro a ha b hb
  exact hordered.antisymm hid (hunique.of_subperm (hwalk.rows_subperm hk)) ha hb

/-- The items of a response are the rows that stand on its page. -/
lemma Walk.mem_items (hk : k ≤ last) {row : ρ} : row ∈ (visits k).response.items
    ↔ row ∈ (visits k).rows ∧ below request.le (visits k).rows row / request.size = k := by
  obtain ⟨sorted, hsorted, hitems⟩ := (hwalk.answered k hk).items hlimit
  have hn : 0 < request.size := by
    rw [ListRequest.size]
    omega
  have hnodup := (hunique.of_subperm (hwalk.rows_subperm hk)).nodup
  have hunsplit := Unsplit.of_antisymm request.isOrder hnodup
    (hwalk.antisymm hid hordered hunique hk) request.size
  rw [hitems]
  exact hsorted.mem_page_iff request.isOrder hn hnodup hunsplit k

/-- New rows move the others only to later pages, which are yet to come. -/
lemma Walk.collects_first
    (hlast : Appends request.le (visits last).counted (visits last).rows) :
    ∀ row ∈ (visits 0).counted, row ∈ collected visits last := by
  intro row hrow
  have hcounted : ∀ k ≤ last, row ∈ (visits k).counted := fun k hk => hwalk.counted_subset k hk hrow
  have hend : below request.le (visits last).rows row < (last + 1) * request.size := by
    rw [hlast.below_eq (hcounted last le_rfl)]
    have hlt := below_lt_length request.isOrder (hcounted last le_rfl)
    have hfits := hwalk.counted_fits hlimit
    omega
  have hn : 0 < request.size := by
    rw [ListRequest.size]
    omega
  have hgrows : ∀ k < last, below request.le (visits k).rows row
      ≤ below request.le (visits (k + 1)).rows row := fun k hk =>
    below_mono ((hwalk.between k hk).trans (hwalk.within (k + 1) hk)) row
  obtain ⟨k, hk, hpage⟩ := exists_crossing hn
    (fun k => below request.le (visits k).rows row) hgrows hend
  refine List.mem_flatMap.mpr ⟨k, List.mem_range.mpr (by omega), ?_⟩
  rw [hwalk.mem_items hlimit hid hordered hunique hk]
  exact ⟨(hwalk.within k hk).subset (hcounted k hk), hpage⟩

/-- New rows at the end of the order leave the pages as they were. -/
lemma Walk.collects_beginning
    (hwithin : ∀ k ≤ last, Appends request.le (visits k).counted (visits k).rows)
    (hbetween : ∀ k < last, Appends request.le (visits k).rows (visits (k + 1)).counted) :
    ∃ sorted, Sorting request.le (visits last).rows sorted
      ∧ collected visits last = sorted.take ((last + 1) * request.size)
      ∧ ∀ row ∈ (visits last).counted, row ∈ collected visits last := by
  have happends : ∀ k ≤ last, Appends request.le (visits k).rows (visits last).rows := by
    intro k hk
    induction hk using Nat.decreasingInduction with
    | self => exact Appends.refl _ _
    | of_succ j hj ih => exact (hbetween j hj).trans ((hwithin (j + 1) hj).trans ih)
  have hanti := hwalk.antisymm hid hordered hunique le_rfl
  obtain ⟨sorted, hsorted, hitems⟩ := (hwalk.answered last le_rfl).items hlimit
  have hpages : collected visits last
      = (List.range (last + 1)).flatMap fun k => page request.size k sorted := by
    apply List.flatMap_congr
    intro k hk
    have hk := Nat.le_of_lt_succ (List.mem_range.mp hk)
    rcases hk.eq_or_lt with rfl | hlt
    · exact hitems
    · obtain ⟨sorted', hsorted', hitems'⟩ := (hwalk.answered k hk).items hlimit
      have hfull := ((hwalk.answered k hk).hasNext_iff hlimit).mp (hwalk.more k hlt)
      have hrows := (hwalk.within k hk).length_le
      have hlength := hsorted'.1.length_eq
      rw [hitems', page_of_begins (hsorted'.begins request.isOrder hanti (happends k hk) hsorted)]
      omega
  have htake := hpages.trans (pages_eq_take request.size sorted (last + 1))
  refine ⟨sorted, hsorted, htake, fun row hrow => ?_⟩
  obtain ⟨sortedCounted, hcounted⟩ := exists_sorting request.isOrder (visits last).counted
  have hbegins := hcounted.begins request.isOrder hanti (hwithin last le_rfl) hsorted
  have hfits : sortedCounted.length ≤ (last + 1) * request.size := by
    rw [hcounted.1.length_eq]
    exact hwalk.counted_fits hlimit
  rw [htake]
  exact (List.prefix_take_iff.mpr ⟨hbegins, hfits⟩).subset (hcounted.mem_iff.mpr hrow)

end Walk

/-- **A walk over the pages.**  The table gets more rows while a client asks for one page after the
other.  The client asks as often as the last response says that there are pages.  It has got every
row that was counted at first, wherever the new ones come in the order, provided that between the
last count and the last selection they come at its end.  When all new rows come at the end of the
order, the client has got the beginning of the last table, in order and each row once, and with
every row that was counted at last. -/
theorem walk_complete (hwalk : Walk request visits last) (hlimit : 1 ≤ request.pagination.limit)
    (hid : sortColumn request.model (some "id") = some idColumn)
    (hordered : request.Ordered idColumn) (hunique : idColumn.Unique (visits last).rows) :
    (last : ℤ) + 1 = max 1 (visits last).response.totalPages
      ∧ (Appends request.le (visits last).counted (visits last).rows →
          ∀ row ∈ (visits 0).counted, row ∈ collected visits last)
      ∧ ((∀ k ≤ last, Appends request.le (visits k).counted (visits k).rows) →
          (∀ k < last, Appends request.le (visits k).rows (visits (k + 1)).counted) →
          ∃ sorted, Sorting request.le (visits last).rows sorted
            ∧ collected visits last = sorted.take ((last + 1) * request.size)
            ∧ ∀ row ∈ (visits last).counted, row ∈ collected visits last) :=
  ⟨hwalk.length_eq hlimit, hwalk.collects_first hlimit hid hordered hunique,
    hwalk.collects_beginning hlimit hid hordered hunique⟩

section Example

/-- Pages of two rows, by the `id`. -/
def byId : ListRequest (ℕ × ℕ) where
  model := items
  pagination := { byCreation with limit := 2, sort := some "id", limit_le := by decide }

/-- Three rows are counted for the first page, and a fourth one is there for the second. -/
def grown : ℕ → Visit (ℕ × ℕ)
  | 0 => ⟨[(2, 7), (1, 5), (3, 9)], [(2, 7), (1, 5), (3, 9)],
      ⟨3, 1, 2, [(1, 5), (2, 7)], true, false, 2⟩⟩
  | _ => ⟨[(2, 7), (1, 5), (3, 9)], [(4, 9), (2, 7), (1, 5), (3, 9)],
      ⟨3, 2, 2, [(3, 9), (4, 9)], false, true, 2⟩⟩

lemma grown_walk : Walk byId grown 1 where
  answered := by
    intro k hk
    rcases (by omega : k = 0 ∨ k = 1) with rfl | rfl
    · refine ⟨[(1, 5), (2, 7)], ?_, rfl⟩
      refine (answers_iff (by decide)).mpr ⟨[(1, 5), (2, 7), (3, 9)], ⟨?_, ?_⟩, rfl⟩
      · decide
      · decide
    · refine ⟨[(3, 9), (4, 9)], ?_, rfl⟩
      refine (answers_iff (by decide)).mpr ⟨[(1, 5), (2, 7), (3, 9), (4, 9)], ⟨?_, ?_⟩, rfl⟩
      · decide
      · decide
  more := by
    intro k hk
    obtain rfl : k = 0 := by omega
    rfl
  done := rfl
  within := by
    intro k hk
    rcases (by omega : k = 0 ∨ k = 1) with rfl | rfl
    · exact List.Subperm.refl _
    · exact (List.sublist_cons_self _ _).subperm
  between := by
    intro k hk
    obtain rfl : k = 0 := by omega
    exact List.Subperm.refl _

/-- The row that came in between is on the second page, and no row is lost. -/
theorem walk_complete_grown : [(2, 7), (1, 5), (3, 9)] ⊆ collected grown 1 := by
  have hcolumn : byId.Ordered (numbers Prod.fst) := by
    rintro _ ⟨⟩ -
    rfl
  have hunique : (numbers Prod.fst).Unique (grown 1).rows := by
    simp [Column.Unique, numbers, grown]
  have hlast : Appends byId.le (grown 1).counted (grown 1).rows := by
    refine ⟨[(4, 9)], ?_, ?_⟩
    · decide
    · decide
  obtain ⟨-, hfirst, -⟩ := walk_complete grown_walk (by decide) rfl hcolumn hunique
  intro row hrow
  exact hfirst hlast row hrow

end Example

end Atsig
