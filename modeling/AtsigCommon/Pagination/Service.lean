import AtsigCommon.Logger.Context
import AtsigCommon.Paging.Pages
import AtsigCommon.Python.Values

/-!
# Sorted pages of a query

`paginate_raw` and what it uses: the parameters of a request, the attributes by which a model can
be sorted, the `ORDER BY` clause, and the page.  A table is what it needs of one: the rows of the
query, in no order, and a total preorder on them for every attribute that stands for a column or
an SQL expression.

`Query.Answers` is what SQL promises: the rows in one of the orders that agree with `ORDER BY`,
without the first `OFFSET` ones, and at most `LIMIT` of them.
-/

namespace Atsig

open Paging Python

/-! ## Parameters -/

/-- `PaginationParams`, validated. -/
structure PaginationParams where
  page : ℤ := 1
  limit : ℤ := 10
  sort : Option String := none
  order : Option String := some "asc"
  page_ge : 1 ≤ page := by decide
  limit_le : limit ≤ 1000 := by decide
  order_eq : ∀ o, order = some o → o = "asc" ∨ o = "desc" := by simp

/-- `offset` -/
def PaginationParams.offset (pagination : PaginationParams) : ℤ :=
  (pagination.page - 1) * pagination.limit

/-- The same request for another page, the first one being the page `1`. -/
def PaginationParams.atPage (pagination : PaginationParams) (k : ℕ) : PaginationParams where
  page := k + 1
  limit := pagination.limit
  sort := pagination.sort
  order := pagination.order
  page_ge := by omega
  limit_le := pagination.limit_le
  order_eq := pagination.order_eq

/-! ## Models -/

variable {ρ : Type}

/-- What rows can be ordered by. -/
structure Column (ρ : Type) where
  le : ρ → ρ → Bool
  isOrder : TotalPreorder le

/-- An attribute of a mapped class. -/
inductive Attribute (ρ : Type)
  | column (c : Column ρ)
  | hybrid (c : Column ρ)
  | other

/-- What `ORDER BY` makes of an attribute. -/
def Attribute.column? : Attribute ρ → Option (Column ρ)
  | .column c => some c
  | .hybrid c => some c
  | .other => none

/-- A class, and whether SQLAlchemy has a mapper for it. -/
structure Model (ρ : Type) where
  mapped : Bool
  attributes : Dict String (Attribute ρ)

/-- `sortable_names` -/
def sortableNames (model : Model ρ) : List String :=
  if model.mapped then
    (model.attributes.items.filter fun item => item.2.column?.isSome).map Prod.fst
  else []

/-- `_sort_column` -/
def sortColumn (model : Model ρ) (name : Option String) : Option (Column ρ) :=
  match name with
  | none => none
  | some name =>
      if name ∈ sortableNames model then (model.attributes.get? name).bind Attribute.column?
      else none

/-! ## Queries -/

/-- `asc` and `desc` -/
inductive Direction
  | asc
  | desc

/-- One item of an `ORDER BY` clause. -/
structure OrderItem (ρ : Type) where
  column : Column ρ
  direction : Direction

/-- `a` may come before `b`. -/
def OrderItem.le (item : OrderItem ρ) (a b : ρ) : Bool :=
  match item.direction with
  | .asc => item.column.le a b
  | .desc => item.column.le b a

/-- A statement: the rows that it selects, and its clauses. -/
structure Query (ρ : Type) where
  rows : List ρ
  orderBy : List (OrderItem ρ) := []
  offset : ℤ := 0
  limit : Option ℤ := none

/-- A statement without clauses. -/
def Query.select (rows : List ρ) : Query ρ := { rows := rows }

/-- `query.order_by` -/
def Query.addOrder (query : Query ρ) (items : List (OrderItem ρ)) : Query ρ :=
  { query with orderBy := query.orderBy ++ items }

/-- The order of the clause. -/
def Query.le (query : Query ρ) : ρ → ρ → Bool := lex (query.orderBy.map OrderItem.le)

/-- The results that a database may answer. -/
def Query.Answers (query : Query ρ) (results : List ρ) : Prop :=
  ∃ sorted, Sorting query.le query.rows sorted ∧
    results = (match query.limit with
      | none => sorted.drop query.offset.toNat
      | some limit => (sorted.drop query.offset.toNat).take limit.toNat)

/-! ## `paginate_raw` -/

/-- The column for a name: of `sort_model` if there is one, or else of the model. -/
def findSortColumn (model : Model ρ) (sortModel : Option (Model ρ)) (name : Option String) :
    Option (Column ρ) :=
  match sortColumn (sortModel.getD model) name, sortModel with
  | none, some _ => sortColumn model name
  | found, _ => found

/-- `id`, or else `created_at` -/
def defaultColumn (model : Model ρ) : Option (Column ρ) :=
  (sortColumn model (some "id")).or (sortColumn model (some "created_at"))

/-- `asc if order_type == "asc" else desc` -/
def orderFunc (orderType : Option String) : Direction :=
  if orderType = some "asc" then .asc else .desc

/-- The `ORDER BY` clause: the column that was found, and the secondary one unless the column was
named `id` or `created_at`; or the default column. -/
def orderItems (model : Model ρ) (sortAttr : Option String) (found : Option (Column ρ))
    (direction : Direction) : List (OrderItem ρ) :=
  match found with
  | some column =>
      ⟨column, direction⟩ ::
        if sortAttr ∈ [some "id", some "created_at"] then []
        else ((defaultColumn model).map fun secondary => ⟨secondary, .desc⟩).toList
  | none => ((defaultColumn model).map fun column => ⟨column, direction⟩).toList

/-- The query of `paginate_raw`. -/
def paginateRaw (query : Query ρ) (model : Model ρ) (pagination : PaginationParams)
    (sortModel : Option (Model ρ)) (defaultSort defaultOrder : Option String) : Query ρ :=
  let sortAttr := textOr pagination.sort defaultSort
  let orderType := textOr pagination.order defaultOrder
  let found := findSortColumn model sortModel sortAttr
  let query := query.addOrder (orderItems model sortAttr found (orderFunc orderType))
  { query with offset := pagination.offset, limit := some pagination.limit }

/-- The number of characters and the start of a requested sort that no model has; they are what
the warning names. -/
def ignoredSort (model : Model ρ) (pagination : PaginationParams) (sortModel : Option (Model ρ))
    (defaultSort : Option String) : Option (ℕ × String) :=
  match findSortColumn model sortModel (textOr pagination.sort defaultSort), pagination.sort with
  | none, some sort => if sort = "" then none else some (sort.length, .ofList (sort.toList.take 20))
  | _, _ => none

/-! ## `build_paginated_response` -/

/-- `PaginatedResponse` -/
structure PaginatedResponse (ρ : Type) where
  total : ℤ
  page : ℤ
  limit : ℤ
  items : List ρ
  hasNext : Bool
  hasPrevious : Bool
  totalPages : ℤ

/-- `total_pages` -/
def totalPages (pagination : PaginationParams) (total : ℤ) : Except PyException ℤ :=
  if total > 0 then floorDiv (total + pagination.limit - 1) pagination.limit else .ok 0

/-- `build_paginated_response` -/
def buildPaginatedResponse (pagination : PaginationParams) (total : ℤ) (items : List ρ) :
    Except PyException (PaginatedResponse ρ) := do
  let totalPages ← totalPages pagination total
  return {
    total := total
    page := pagination.page
    limit := pagination.limit
    items := items
    hasNext := decide (pagination.offset + pagination.limit < total)
    hasPrevious := decide (pagination.page > 1)
    totalPages := totalPages }

end Atsig
