import AtsigCommon.Pagination.Partition
import Mathlib.Data.Fintype.EquivFin

/-!
# The default order

The caller of `paginate_raw` gives a default sort and a default order.  The parameters of a request
have a default order of their own, `asc`, which comes first; and a sort that no model has leads to
the `id` of the model, or its `created_at`.

* `orderBy_of_defaults` — the clause of a request that names neither a sort nor an order.
* `orderBy_of_unsortable` — the clause of a request with a sort that no model has.
* `default_order_iff` — when both are the default of the caller.
-/

namespace Atsig

open Paging Python

variable {ρ : Type} {model : Model ρ} {pagination : PaginationParams} {sortModel : Option (Model ρ)}
  {defaultSort defaultOrder : Option String} {column : Column ρ} {query : Query ρ}

/-! ## Requests -/

/-- The same request without a sort. -/
def PaginationParams.withoutSort (pagination : PaginationParams) : PaginationParams :=
  { pagination with sort := none }

/-- The request names neither a sort nor an order: its order is the default of the parameters. -/
structure PaginationParams.Unnamed (pagination : PaginationParams) : Prop where
  sort : pagination.sort = none
  order : pagination.order = ({} : PaginationParams).order

/-- No model can be sorted by the name. -/
def Unsortable (model : Model ρ) (sortModel : Option (Model ρ)) (name : String) : Prop :=
  findSortColumn model sortModel (some name) = none

lemma textOr_of_ne {s : String} (h : s ≠ "") (b : Option String) :
    textOr (some s) b = some s := by
  simp [textOr, h]

lemma sortColumn_of_notMem {name : String} (h : name ∉ sortableNames model) :
    sortColumn model (some name) = none := by
  rw [sortColumn, if_neg h]

lemma unsortable_of_notMem {name : String} (h : name ∉ sortableNames model)
    (hsort : ∀ sm, sortModel = some sm → name ∉ sortableNames sm) :
    Unsortable model sortModel name := by
  rw [Unsortable]
  cases sortModel with
  | none => simp only [findSortColumn, Option.getD_none, sortColumn_of_notMem h]
  | some sm =>
      simp only [findSortColumn, Option.getD_some, sortColumn_of_notMem (hsort sm rfl),
        sortColumn_of_notMem h]

/-- The models have finitely many names. -/
lemma exists_unsortable (model : Model ρ) (sortModel : Option (Model ρ)) :
    ∃ name, name ≠ "" ∧ Unsortable model sortModel name := by
  obtain ⟨name, hname⟩ := Infinite.exists_notMem_finset
    ("" :: sortableNames model ++ (sortModel.map sortableNames).getD []).toFinset
  simp only [List.mem_toFinset, List.cons_append, List.mem_cons, List.mem_append, not_or] at hname
  refine ⟨name, hname.1, unsortable_of_notMem hname.2.1 ?_⟩
  rintro sm rfl
  exact hname.2.2

/-! ## Clauses -/

/-- The secondary column, which makes ties in the column of that name deterministic. -/
def tieBreaker (model : Model ρ) (name : Option String) : List (OrderItem ρ) :=
  if Untied name then []
  else ((defaultColumn model).map fun secondary => ⟨secondary, .desc⟩).toList

/-- The clause of a column that was found. -/
lemma orderItems_some (name : Option String) (column : Column ρ) (direction : Direction) :
    orderItems model name (some column) direction
      = ⟨column, direction⟩ :: tieBreaker model name := by
  by_cases h : Untied name
  · have hmem : name ∈ [some "id", some "created_at"] := h
    rw [orderItems, tieBreaker, if_pos hmem, if_pos h]
  · have hmem : name ∉ [some "id", some "created_at"] := h
    rw [orderItems, tieBreaker, if_neg hmem, if_neg h]

/-- The clause that the caller asked for: the default sort in some direction. -/
def defaultClause (model : Model ρ) (defaultSort : Option String) (column : Column ρ)
    (direction : Direction) : List (OrderItem ρ) :=
  ⟨column, direction⟩ :: tieBreaker model defaultSort

/-- Without a sort, the column is that of the default one. -/
lemma orderBy_of_noSort (hsort : pagination.sort = none)
    (hcolumn : findSortColumn model sortModel defaultSort = some column) :
    (paginateRaw query model pagination sortModel defaultSort defaultOrder).orderBy
      = query.orderBy
        ++ defaultClause model defaultSort column
          (orderFunc (textOr pagination.order defaultOrder)) := by
  have hattr : textOr pagination.sort defaultSort = defaultSort := by
    rw [hsort]
    rfl
  simp only [paginateRaw, Query.addOrder, hattr, hcolumn, orderItems_some, defaultClause]

/-- The sort is read for the clause only. -/
lemma paginateRaw_withoutSort
    (h : (paginateRaw query model pagination sortModel defaultSort defaultOrder).orderBy
      = (paginateRaw query model pagination.withoutSort sortModel defaultSort
          defaultOrder).orderBy) :
    paginateRaw query model pagination sortModel defaultSort defaultOrder
      = paginateRaw query model pagination.withoutSort sortModel defaultSort defaultOrder := by
  simp only [paginateRaw, Query.addOrder] at h ⊢
  rw [h]
  rfl

/-- **A request that names nothing** is ordered from the smallest to the largest. -/
lemma orderBy_of_defaults (hnone : pagination.Unnamed)
    (hcolumn : findSortColumn model sortModel defaultSort = some column) :
    (paginateRaw query model pagination sortModel defaultSort defaultOrder).orderBy
      = query.orderBy ++ defaultClause model defaultSort column .asc := by
  rw [orderBy_of_noSort hnone.sort hcolumn, hnone.order]
  rfl

/-- **A request for a sort that no model has** is ordered by the `id` or the time of creation. -/
lemma orderBy_of_unsortable {name : String} (hsort : pagination.sort = some name)
    (hname : name ≠ "") (h : Unsortable model sortModel name) :
    (paginateRaw query model pagination sortModel defaultSort defaultOrder).orderBy
      = query.orderBy ++ ((defaultColumn model).map fun c =>
        ⟨c, orderFunc (textOr pagination.order defaultOrder)⟩).toList := by
  have hattr : textOr pagination.sort defaultSort = some name := by
    rw [hsort, textOr_of_ne hname]
  rw [Unsortable] at h
  simp only [paginateRaw, Query.addOrder, hattr, h, orderItems]

/-! ## When the defaults of the caller apply -/

/-- A request that names nothing gets the default sort in the default order. -/
def DefaultsApply (model : Model ρ) (sortModel : Option (Model ρ))
    (defaultSort defaultOrder : Option String) (column : Column ρ) : Prop :=
  ∀ (query : Query ρ) (pagination : PaginationParams), pagination.Unnamed →
    (paginateRaw query model pagination sortModel defaultSort defaultOrder).orderBy
      = query.orderBy ++ defaultClause model defaultSort column (orderFunc defaultOrder)

/-- A sort that no model has makes no difference. -/
def UnsortableIgnored (model : Model ρ) (sortModel : Option (Model ρ))
    (defaultSort defaultOrder : Option String) : Prop :=
  ∀ (query : Query ρ) (pagination : PaginationParams) (name : String),
    pagination.sort = some name → Unsortable model sortModel name →
    paginateRaw query model pagination sortModel defaultSort defaultOrder
      = paginateRaw query model pagination.withoutSort sortModel defaultSort defaultOrder

lemma defaultsApply_iff (hcolumn : findSortColumn model sortModel defaultSort = some column) :
    DefaultsApply model sortModel defaultSort defaultOrder column ↔ defaultOrder = some "asc" := by
  constructor
  · intro h
    have hclause := h (.select []) {} ⟨rfl, rfl⟩
    rw [orderBy_of_defaults ⟨rfl, rfl⟩ hcolumn, List.append_cancel_left_eq] at hclause
    have hdirection := congrArg OrderItem.direction (List.cons.inj hclause).1
    by_contra hne
    rw [orderFunc, if_neg hne] at hdirection
    cases hdirection
  · rintro rfl query pagination hnone
    exact orderBy_of_defaults hnone hcolumn

/-- The name is no name of a secondary column when the default clause is that of one column. -/
lemma clause_eq_iff (direction : Direction) :
    ((defaultColumn model).map fun c => (⟨c, direction⟩ : OrderItem ρ)).toList
        = defaultClause model defaultSort column direction
      ↔ defaultSort ∈ [some "id", some "created_at"] ∧ defaultColumn model = some column := by
  cases hdefault : defaultColumn model with
  | none => simp [defaultClause]
  | some c =>
      rw [defaultClause, tieBreaker, hdefault]
      split_ifs with hname
      · have hmem : defaultSort ∈ [some "id", some "created_at"] := hname
        simp [hmem]
      · have hmem : defaultSort ∉ [some "id", some "created_at"] := hname
        simp [hmem]

lemma unsortableIgnored_iff (hcolumn : findSortColumn model sortModel defaultSort = some column) :
    UnsortableIgnored model sortModel defaultSort defaultOrder
      ↔ defaultSort ∈ [some "id", some "created_at"] ∧ defaultColumn model = some column := by
  constructor
  · intro h
    obtain ⟨name, hname, hunsortable⟩ := exists_unsortable model sortModel
    have hquery := congrArg Query.orderBy (h (.select []) { sort := some name } name rfl hunsortable)
    rw [orderBy_of_unsortable rfl hname hunsortable, orderBy_of_noSort rfl hcolumn,
      List.append_cancel_left_eq] at hquery
    exact (clause_eq_iff _).mp hquery
  · rintro hclause query pagination name hsort hunsortable
    by_cases hname : name = ""
    · subst hname
      have hattr : textOr pagination.sort defaultSort = defaultSort := by
        rw [hsort]
        simp [textOr]
      apply paginateRaw_withoutSort
      simp only [paginateRaw, hattr, PaginationParams.withoutSort]
      rfl
    · apply paginateRaw_withoutSort
      rw [orderBy_of_unsortable hsort hname hunsortable, orderBy_of_noSort rfl hcolumn,
        (clause_eq_iff _).mpr hclause]
      rfl

/-- **The default order is the one the caller asked for**, for a request that names nothing and for
one whose sort no model has, if and only if the caller asks for `asc`, and by the column that is the
fallback anyway. -/
theorem default_order_iff (model : Model ρ) (sortModel : Option (Model ρ))
    (defaultSort defaultOrder : String) (column : Column ρ)
    (hcolumn : findSortColumn model sortModel (some defaultSort) = some column) :
    (DefaultsApply model sortModel (some defaultSort) (some defaultOrder) column
        ∧ UnsortableIgnored model sortModel (some defaultSort) (some defaultOrder))
      ↔ defaultOrder = "asc" ∧ (defaultSort = "id" ∨ defaultSort = "created_at")
        ∧ defaultColumn model = some column := by
  rw [defaultsApply_iff hcolumn, unsortableIgnored_iff hcolumn]
  simp only [Option.some.injEq, List.mem_cons, List.not_mem_nil, or_false]

/-- The defaults of `paginate_raw` itself. -/
theorem default_order_items :
    DefaultsApply items none (some "id") (some "asc") (numbers Prod.fst)
      ∧ UnsortableIgnored items none (some "id") (some "asc") :=
  (default_order_iff items none "id" "asc" (numbers Prod.fst) rfl).mpr ⟨rfl, Or.inl rfl, rfl⟩

/-- **Defaults that do not apply.**  A caller that wants the newest rows first gets the oldest, and
a sort that the model does not have leads away from the default one. -/
theorem default_order_lost :
    ¬ DefaultsApply items none (some "created_at") (some "desc") (numbers Prod.snd)
      ∧ ¬ UnsortableIgnored items none (some "created_at") (some "desc") := by
  refine ⟨fun h => ?_, fun h => ?_⟩
  · have hclause := h (.select []) {} ⟨rfl, rfl⟩
    have hdirection := congrArg OrderItem.direction (List.cons.inj hclause).1
    cases hdirection
  · have hquery := congrArg Query.orderBy (h (.select []) { sort := some "nope" } "nope" rfl rfl)
    have hcolumn := congrArg OrderItem.column (List.cons.inj hquery).1
    have hle := congrArg (fun c : Column (ℕ × ℕ) => c.le (0, 1) (1, 0)) hcolumn
    cases hle

end Atsig
