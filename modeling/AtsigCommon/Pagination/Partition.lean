import AtsigCommon.Pagination.Service
import Mathlib.Data.List.Pairwise

/-!
# The pages of a table

Whether the pages of `paginate_raw` make up the list.  The secondary column makes the order total
when it is there; it is left out by name, and a column named `created_at`, or an `id` of the model
of a join, need not tell rows apart.

* `orderItems_id` — the clause ends with the `id` of the model, unless the name that was asked for
  is `id` or `created_at`.
* `pages_partition_iff` — the pages of a table with unique ids make up the list in the requested
  order, whatever order the database gives to rows that compare equal, if and only if no such rows
  stand on two pages.
-/

namespace Atsig

open Paging Python

variable {ρ : Type} {model : Model ρ} {pagination : PaginationParams} {sortModel : Option (Model ρ)}
  {defaultSort defaultOrder : Option String} {rows : List ρ} {idColumn : Column ρ}

/-! ## Orders -/

lemma OrderItem.isOrder (item : OrderItem ρ) : TotalPreorder item.le := by
  obtain ⟨⟨le, htrans, htotal⟩, direction⟩ := item
  cases direction with
  | asc => exact ⟨htrans, htotal⟩
  | desc =>
      constructor
      · intro a b c hab hbc
        exact htrans c b a hbc hab
      · intro a b
        exact htotal b a

lemma Query.isOrder (query : Query ρ) : TotalPreorder query.le := by
  apply lex_totalPreorder
  simp only [List.mem_map]
  rintro _ ⟨item, -, rfl⟩
  exact item.isOrder

/-- No two rows have the same value. -/
def Column.Unique (c : Column ρ) (rows : List ρ) : Prop :=
  rows.Pairwise fun a b => ¬ (c.le a b ∧ c.le b a)

lemma Column.Unique.nodup {c : Column ρ} (h : c.Unique rows) : rows.Nodup := by
  refine h.imp ?_
  rintro a b hne rfl
  have hself := c.isOrder.refl a
  exact hne ⟨hself, hself⟩

lemma Column.Unique.eq {c : Column ρ} (h : c.Unique rows) {a b : ρ} (ha : a ∈ rows)
    (hb : b ∈ rows) (hab : c.le a b) (hba : c.le b a) : a = b := by
  by_contra hne
  have hsymm : Std.Symm fun a b => ¬ (c.le a b = true ∧ c.le b a = true) :=
    ⟨fun a b h h' => h ⟨h'.2, h'.1⟩⟩
  exact h.forall ha hb hne ⟨hab, hba⟩

/-- A clause that has a unique column makes a total order. -/
lemma Query.unsplit_of_unique {query : Query ρ} {item : OrderItem ρ} (hitem : item ∈ query.orderBy)
    (h : item.column.Unique rows) (n : ℕ) : Unsplit query.le n rows := by
  refine .of_antisymm query.isOrder h.nodup (fun a ha b hb hab hba => ?_) n
  have heq := lex_eq hab hba item.le (List.mem_map_of_mem hitem)
  obtain ⟨column, direction⟩ := item
  cases direction with
  | asc => exact h.eq ha hb heq.1 heq.2
  | desc => exact h.eq ha hb heq.2 heq.1

/-! ## The clause -/

/-- The names after which no secondary column comes. -/
def Untied (name : Option String) : Prop := name ∈ [some "id", some "created_at"]

instance (name : Option String) : Decidable (Untied name) :=
  decidable_of_iff (name = some "id" ∨ name = some "created_at") (by simp [Untied])

lemma defaultColumn_eq (hid : sortColumn model (some "id") = some idColumn) :
    defaultColumn model = some idColumn := by
  simp [defaultColumn, hid]

/-- The `id` of the model ends the clause, unless the name says otherwise. -/
lemma orderItems_id (hid : sortColumn model (some "id") = some idColumn) {name : Option String}
    {found : Option (Column ρ)} (h : ∀ c, found = some c → ¬ Untied name) (direction : Direction) :
    ∃ item ∈ orderItems model name found direction, item.column = idColumn := by
  cases found with
  | none => simp [orderItems, defaultColumn_eq hid]
  | some c =>
      have hname := h c rfl
      rw [Untied] at hname
      simp [orderItems, hname, defaultColumn_eq hid]

/-- The column and the direction that a request asks for: those of its sort, or of the default one
when it has none; of the `id` when no model can be sorted so. -/
def requestedOrder (model : Model ρ) (pagination : PaginationParams) (sortModel : Option (Model ρ))
    (defaultSort defaultOrder : Option String) : Option (OrderItem ρ) :=
  ((findSortColumn model sortModel (textOr pagination.sort defaultSort)).or
    (defaultColumn model)).map fun c => ⟨c, orderFunc (textOr pagination.order defaultOrder)⟩

/-- It is what the clause begins with. -/
lemma requestedOrder_eq_head (rows : List ρ) :
    requestedOrder model pagination sortModel defaultSort defaultOrder
    = (paginateRaw (.select rows) model pagination sortModel defaultSort
        defaultOrder).orderBy.head? := by
  simp only [requestedOrder, paginateRaw, Query.select, Query.addOrder, List.nil_append]
  cases findSortColumn model sortModel (textOr pagination.sort defaultSort) with
  | none => cases hcolumn : defaultColumn model <;> simp [orderItems, hcolumn]
  | some c => simp [orderItems]

/-! ## Pages -/

/-- A total of rows makes the least number of pages that has room for them. -/
lemma totalPages_eq (hlimit : 1 ≤ pagination.limit) (total : ℕ) :
    ∃ count : ℕ, totalPages pagination total = .ok count
      ∧ total ≤ count * pagination.limit.toNat := by
  obtain ⟨n, hn⟩ : ∃ n : ℕ, pagination.limit = n := ⟨pagination.limit.toNat, by omega⟩
  rw [totalPages, hn, Int.toNat_natCast]
  by_cases htotal : (total : ℤ) > 0
  · refine ⟨(total + n - 1) / n, ?_, ?_⟩
    · rw [if_pos htotal, floorDiv, if_neg (by omega)]
      rw [show (total : ℤ) + n - 1 = ((total + n - 1 : ℕ) : ℤ) by omega]
      simp [Int.fdiv_eq_ediv_of_nonneg]
    · have := Nat.div_add_mod' (total + n - 1) n
      have := Nat.mod_lt (total + n - 1) (show 0 < n by omega)
      omega
  · refine ⟨0, ?_, by omega⟩
    rw [if_neg htotal]
    rfl

/-- The answers to the query of a page are the pages of the sortings of the table. -/
lemma answers_iff (hlimit : 1 ≤ pagination.limit) {k : ℕ} {results : List ρ} :
    (paginateRaw (.select rows) model (pagination.atPage k) sortModel defaultSort
        defaultOrder).Answers results
      ↔ ∃ sorted, Sorting (paginateRaw (.select rows) model pagination sortModel defaultSort
          defaultOrder).le rows sorted ∧ results = page pagination.limit.toNat k sorted := by
  have hoffset : ((pagination.atPage k).offset).toNat = k * pagination.limit.toNat := by
    obtain ⟨n, hn⟩ : ∃ n : ℕ, pagination.limit = n := ⟨pagination.limit.toNat, by omega⟩
    simp only [PaginationParams.offset, PaginationParams.atPage, hn]
    rw [show ((k : ℤ) + 1 - 1) * n = ((k * n : ℕ) : ℤ) by simp, Int.toNat_natCast,
      Int.toNat_natCast]
  simp only [Query.Answers, paginateRaw, hoffset, page]
  rfl

/-- The order of a clause of one column. -/
lemma lex_singleton (r : ρ → ρ → Bool) : lex [r] = r := by
  funext a b
  simp [lex]

/-- When groups are split: only without the secondary column, and by the one column there is. -/
lemma unsplit_iff (hid : sortColumn model (some "id") = some idColumn)
    (hunique : idColumn.Unique rows) (n : ℕ) :
    Unsplit (paginateRaw (.select rows) model pagination sortModel defaultSort defaultOrder).le n
        rows
      ↔ ∀ column, findSortColumn model sortModel (textOr pagination.sort defaultSort) = some column →
        Untied (textOr pagination.sort defaultSort) →
        Unsplit (OrderItem.le ⟨column, orderFunc (textOr pagination.order defaultOrder)⟩) n rows := by
  by_cases htied : ∃ column, findSortColumn model sortModel (textOr pagination.sort defaultSort)
      = some column ∧ Untied (textOr pagination.sort defaultSort)
  · obtain ⟨column, hfound, huntied⟩ := htied
    have hclause : (paginateRaw (.select rows) model pagination sortModel defaultSort
        defaultOrder).le
        = OrderItem.le ⟨column, orderFunc (textOr pagination.order defaultOrder)⟩ := by
      rw [Untied] at huntied
      simp only [Query.le, paginateRaw, Query.select, Query.addOrder, List.nil_append, hfound,
        orderItems, if_pos huntied, List.map_cons, List.map_nil, lex_singleton]
    rw [hclause]
    constructor
    · intro h column' hfound' _
      obtain rfl := Option.some.inj (hfound.symm.trans hfound')
      exact h
    · intro h
      exact h column hfound huntied
  · simp only [not_exists, not_and] at htied
    obtain ⟨item, hitem, hcolumn⟩ := orderItems_id hid htied
      (orderFunc (textOr pagination.order defaultOrder))
    rw [← hcolumn] at hunique
    constructor
    · intro _ column hfound huntied
      exact absurd huntied (htied column hfound)
    · intro _
      exact Query.unsplit_of_unique hitem hunique n

/-- **The pages of a table.**  The rows have unique ids, and every query answers them in any order
that agrees with its `ORDER BY` clause.  Then the pages from the first one to the last one have
every row once, in the requested order, whatever the answers are, if and only if this holds of the
column that the request asks for, should it be named `id` or `created_at`: no rows that are equal
in it stand on two pages. -/
theorem pages_partition_iff (hid : sortColumn model (some "id") = some idColumn)
    (hunique : idColumn.Unique rows) (hlimit : 1 ≤ pagination.limit) :
    ∃ count : ℕ, totalPages pagination rows.length = .ok count ∧
      ((∀ results : ℕ → List ρ,
          (∀ k < count, (paginateRaw (.select rows) model (pagination.atPage k) sortModel
            defaultSort defaultOrder).Answers (results k)) →
          ((List.range count).flatMap results).Perm rows
            ∧ ∀ item, requestedOrder model pagination sortModel defaultSort defaultOrder
                = some item →
              ((List.range count).flatMap results).Pairwise (item.le · ·))
        ↔ ∀ column,
          findSortColumn model sortModel (textOr pagination.sort defaultSort) = some column →
          Untied (textOr pagination.sort defaultSort) →
          Unsplit (OrderItem.le ⟨column, orderFunc (textOr pagination.order defaultOrder)⟩)
            pagination.limit.toNat rows) := by
  obtain ⟨count, hcount, hroom⟩ := totalPages_eq hlimit rows.length
  refine ⟨count, hcount, ?_⟩
  rw [← unsplit_iff hid hunique]
  have hle := (paginateRaw (.select rows) model pagination sortModel defaultSort
    defaultOrder).isOrder
  have hn : 0 < pagination.limit.toNat := by omega
  constructor
  · intro h
    by_contra hsplit
    obtain ⟨sortings, hsort, hrepeated⟩ := exists_repeated hle hn hunique.nodup hsplit hroom
    refine hrepeated (h _ fun k _ => ?_).1
    rw [answers_iff hlimit]
    exact ⟨_, hsort k, rfl⟩
  · intro hunsplit results hresults
    have hanswers : ∀ k, ∃ sorted, k < count →
        Sorting (paginateRaw (.select rows) model pagination sortModel defaultSort
          defaultOrder).le rows sorted ∧ results k = page pagination.limit.toNat k sorted := by
      intro k
      by_cases hk : k < count
      · obtain ⟨sorted, hsorted⟩ := (answers_iff hlimit).mp (hresults k hk)
        exact ⟨sorted, fun _ => hsorted⟩
      · exact ⟨[], fun h => absurd h hk⟩
    choose sortings hsortings using hanswers
    have hpages : (List.range count).flatMap results
        = (List.range count).flatMap fun k => page pagination.limit.toNat k (sortings k) := by
      apply List.flatMap_congr
      intro k hk
      exact (hsortings k (List.mem_range.mp hk)).2
    have hsort := fun k hk => (hsortings k hk).1
    rw [hpages]
    refine ⟨pages_perm hle hn hunique.nodup hunsplit hsort hroom, fun item hitem => ?_⟩
    rw [requestedOrder_eq_head rows] at hitem
    obtain ⟨items, hitems⟩ := List.head?_eq_some_iff.mp hitem
    refine (pages_pairwise hle hn hunique.nodup hunsplit hsort).imp ?_
    intro a b hab
    rw [Query.le, hitems, List.map_cons] at hab
    exact lex_head hab

section Example

/-- A column of numbers. -/
def numbers (key : ρ → ℕ) : Column ρ where
  le a b := decide (key a ≤ key b)
  isOrder := by
    constructor
    · intro a b c
      simp only [decide_eq_true_eq]
      omega
    · intro a b
      simp only [Bool.or_eq_true, decide_eq_true_eq]
      omega

/-- A table of an id and the time of creation. -/
def items : Model (ℕ × ℕ) where
  mapped := true
  attributes := .ofPairs [("id", .column (numbers Prod.fst)),
    ("created_at", .column (numbers Prod.snd)), ("metadata", .other)]

/-- Pages of one row, by the time of creation. -/
def byCreation : PaginationParams := { limit := 1, sort := some "created_at" }

/-- Rows that were created one after the other. -/
theorem pages_partition_two : ∃ count : ℕ, totalPages byCreation 2 = .ok count ∧
    ∀ results : ℕ → List (ℕ × ℕ),
      (∀ k < count, (paginateRaw (.select [(1, 5), (2, 7)]) items (byCreation.atPage k) none
        (some "id") (some "asc")).Answers (results k)) →
      ((List.range count).flatMap results).Perm [(1, 5), (2, 7)] := by
  obtain ⟨count, hcount, hiff⟩ := @pages_partition_iff (ℕ × ℕ) items byCreation none (some "id")
    (some "asc") [(1, 5), (2, 7)] (numbers Prod.fst) rfl (by simp [Column.Unique, numbers])
    (by decide)
  refine ⟨count, hcount, fun results hresults => (hiff.mpr ?_ results hresults).1⟩
  rintro _ ⟨⟩ -
  unfold Unsplit
  decide

/-- **Rows that were created together may be lost.**  The first page and the second one have the
same row. -/
theorem row_lost : ∃ results : ℕ → List (ℕ × ℕ),
    totalPages byCreation 2 = .ok 2 ∧
    (∀ k < 2, (paginateRaw (.select [(1, 5), (2, 5)]) items (byCreation.atPage k) none
      (some "id") (some "asc")).Answers (results k)) ∧
    (List.range 2).flatMap results = [(1, 5), (1, 5)] := by
  refine ⟨fun _ => [(1, 5)], rfl, fun k hk => ?_, rfl⟩
  rw [answers_iff (by decide)]
  have hfirst : Sorting (paginateRaw (.select [(1, 5), (2, 5)]) items byCreation none
      (some "id") (some "asc")).le [(1, 5), (2, 5)] [(1, 5), (2, 5)] := by
    refine ⟨.refl _, ?_⟩
    decide
  have hsecond : Sorting (paginateRaw (.select [(1, 5), (2, 5)]) items byCreation none
      (some "id") (some "asc")).le [(1, 5), (2, 5)] [(2, 5), (1, 5)] := by
    refine ⟨.swap _ _ _, ?_⟩
    decide
  rcases (by omega : k = 0 ∨ k = 1) with rfl | rfl
  · exact ⟨_, hfirst, rfl⟩
  · exact ⟨_, hsecond, rfl⟩

end Example

end Atsig
