import Mathlib.Data.List.Nodup

/-!
# Tables with constraints

Rows of nullable columns under an integer key that counts up, and a schema with NOT NULL and
UNIQUE columns, as SQLite documents them: `INSERT OR IGNORE` drops a row that violates a
constraint, `ON CONFLICT(c) DO UPDATE` needs a UNIQUE column `c`, and a column that is added
later has no constraint. Two tables are alike if they have the same values in the columns
they share; what only reads these columns cannot tell them apart.
-/

namespace SqlTables

universe u v w

abbrev Record (Column : Type u) (Value : Type v) := Column → Option Value

structure Schema (Column : Type u) where
  columns : List Column
  notNull : List Column
  unique : List Column

/-- The rows stand in the order of their keys, and no key is above `seq`. -/
structure Table (Column : Type u) (Value : Type v) where
  schema : Schema Column
  rows : List (Int × Record Column Value)
  seq : Int

variable {Column : Type u} {Value : Type v}

/-- The columns that a statement assigns. -/
def assign (values : Column → Option (Option Value)) (record : Record Column Value) :
    Record Column Value :=
  fun c => (values c).getD (record c)

namespace Table

variable (t : Table Column Value)

def complete (record : Record Column Value) : Bool :=
  t.schema.notNull.all fun c => (record c).isSome

/-- A row has the same value in the column; NULLs are all different. -/
def clashes [DecidableEq Value] (record : Record Column Value) (c : Column) : Bool :=
  (record c).isSome && t.rows.any fun row => row.2 c == record c

def append (record : Record Column Value) : Table Column Value :=
  { t with rows := t.rows ++ [(t.seq + 1, record)], seq := t.seq + 1 }

def insertOrIgnore [DecidableEq Value] (record : Record Column Value) :
    Option Int × Table Column Value :=
  if t.complete record && !t.schema.unique.any (t.clashes record) then
    (some (t.seq + 1), t.append record)
  else (none, t)

def update (test : Int × Record Column Value → Bool) (values : Column → Option (Option Value)) :
    Table Column Value :=
  { t with rows := t.rows.map fun row => if test row then (row.1, assign values row.2) else row }

/-- `INSERT … ON CONFLICT(target) DO UPDATE SET` of the given columns. -/
def upsert [DecidableEq Column] [DecidableEq Value] (target : Column)
    (record : Record Column Value) (set : List Column) :
    Except String (Option Int × Table Column Value) :=
  if target ∉ t.schema.unique then
    .error "ON CONFLICT clause does not match any PRIMARY KEY or UNIQUE constraint"
  else if !t.complete record then .error "NOT NULL constraint failed"
  else if t.clashes record target then
    .ok (none, t.update (fun row => row.2 target == record target)
      fun c => if c ∈ set then some (record c) else none)
  else if t.schema.unique.any (t.clashes record) then .error "UNIQUE constraint failed"
  else .ok (some (t.seq + 1), t.append record)

def addColumn (c : Column) : Table Column Value :=
  { t with schema := { t.schema with columns := t.schema.columns ++ [c] } }

@[simp] theorem update_schema (test : Int × Record Column Value → Bool)
    (values : Column → Option (Option Value)) : (t.update test values).schema = t.schema := rfl

@[simp] theorem length_update (test : Int × Record Column Value → Bool)
    (values : Column → Option (Option Value)) :
    (t.update test values).rows.length = t.rows.length :=
  List.length_map _

variable {t}

theorem insertOrIgnore_of_incomplete [DecidableEq Value] {record : Record Column Value} {c : Column}
    (required : c ∈ t.schema.notNull) (missing : record c = none) :
    t.insertOrIgnore record = (none, t) := by
  have incomplete : t.complete record = false := by
    rw [complete, List.all_eq_false]
    exact ⟨c, required, by simp [missing]⟩
  rw [insertOrIgnore, incomplete]
  rfl

theorem insertOrIgnore_of_clash [DecidableEq Value] {record : Record Column Value} {c : Column}
    (unique : c ∈ t.schema.unique) (clash : t.clashes record c = true) :
    t.insertOrIgnore record = (none, t) := by
  have clashing : t.schema.unique.any (t.clashes record) = true :=
    List.any_eq_true.mpr ⟨c, unique, clash⟩
  rw [insertOrIgnore, clashing]
  simp

/-- An upsert on the only UNIQUE column cannot fail. -/
theorem upsert_ok [DecidableEq Column] [DecidableEq Value] {target : Column}
    {record : Record Column Value} (set : List Column) (only : t.schema.unique = [target])
    (complete : t.complete record = true) :
    ∃ id after, t.upsert target record set = .ok (id, after) ∧ after.schema = t.schema := by
  have targeted : ¬ target ∉ t.schema.unique := by simp [only]
  rw [upsert, if_neg targeted, complete]
  cases clash : t.clashes record target with
  | true => exact ⟨_, _, rfl, rfl⟩
  | false =>
    have free : t.schema.unique.any (t.clashes record) = false := by simp [only, clash]
    rw [free]
    exact ⟨_, _, rfl, rfl⟩

theorem foldlM_update {Error : Type w}
    {values : Int × Record Column Value → Column → Option (Option Value)}
    {change : Table Column Value → Int × Record Column Value → Except Error (Table Column Value)}
    (todo : List (Int × Record Column Value)) {done : List (Int × Record Column Value)}
    (each : ∀ row ∈ todo, ∀ t, change t row = .ok (t.update (fun r => r.1 == row.1) (values row)))
    (distinct : ((done ++ todo).map Prod.fst).Nodup) :
    todo.foldlM change { t with rows := done ++ todo } =
      .ok { t with rows := done ++ todo.map fun row => (row.1, assign (values row) row.2) } := by
  induction todo generalizing done with
  | nil => rfl
  | cons row rest ih =>
    have other : ∀ r ∈ done ++ rest, (r.1 == row.1) = false := by
      intro r member
      rw [List.map_append, List.map_cons, List.nodup_middle, List.nodup_cons] at distinct
      refine beq_false_of_ne fun same => distinct.1 ?_
      rw [← same, ← List.map_append]
      exact List.mem_map_of_mem member
    have kept : ∀ rows : List (Int × Record Column Value), (∀ r ∈ rows, (r.1 == row.1) = false) →
        rows.map (fun r => if r.1 == row.1 then (r.1, assign (values row) r.2) else r) = rows := by
      intro rows apart
      refine (List.map_congr_left fun r member => ?_).trans (List.map_id _)
      rw [apart r member]
      rfl
    have one : change { t with rows := done ++ row :: rest } row =
        .ok { t with rows := (done ++ [(row.1, assign (values row) row.2)]) ++ rest } := by
      rw [each row List.mem_cons_self, update]
      simp only [List.map_append, List.map_cons, beq_self_eq_true, if_true, List.append_assoc,
        List.singleton_append]
      rw [kept done fun r member => other r (List.mem_append_left _ member),
        kept rest fun r member => other r (List.mem_append_right _ member)]
    have still : (((done ++ [(row.1, assign (values row) row.2)]) ++ rest).map Prod.fst).Nodup := by
      simpa only [List.map_append, List.map_cons, List.map_nil, List.append_assoc,
        List.singleton_append] using distinct
    have tail := ih (fun r member => each r (List.mem_cons_of_mem _ member)) still
    rw [List.foldlM_cons, one]
    exact tail.trans (by simp only [List.map_cons, List.append_assoc, List.singleton_append])

/-- Rows that are changed one by one, each by its key. -/
theorem foldlM_update_all {Error : Type w}
    {values : Int × Record Column Value → Column → Option (Option Value)}
    {change : Table Column Value → Int × Record Column Value → Except Error (Table Column Value)}
    (each : ∀ row ∈ t.rows, ∀ u, change u row = .ok (u.update (fun r => r.1 == row.1) (values row)))
    (ascending : (t.rows.map Prod.fst).Pairwise (· < ·)) :
    t.rows.foldlM change t =
      .ok { t with rows := t.rows.map fun row => (row.1, assign (values row) row.2) } :=
  @foldlM_update _ _ t _ _ _ t.rows [] each (ascending.imp Int.ne_of_lt)

end Table

variable [DecidableEq Column]

/-- A row with nothing but the shared columns. -/
def restrict (shared : List Column) (row : Int × Record Column Value) :
    Int × Record Column Value :=
  (row.1, fun c => if c ∈ shared then row.2 c else none)

def Alike (shared : List Column) (t u : Table Column Value) : Prop :=
  t.rows.map (restrict shared) = u.rows.map (restrict shared)

/-- The function only looks at the shared columns. -/
def Reads {Result : Type w} (shared : List Column)
    (read : Int × Record Column Value → Result) : Prop :=
  ∀ row, read (restrict shared row) = read row

variable {shared : List Column} {t u : Table Column Value}

theorem Alike.map_eq {Result : Type w} {read : Int × Record Column Value → Result}
    (alike : Alike shared t u) (reads : Reads shared read) :
    t.rows.map read = u.rows.map read := by
  have through : ∀ rows : List (Int × Record Column Value),
      rows.map read = (rows.map (restrict shared)).map read := by
    intro rows
    rw [List.map_map]
    exact List.map_congr_left fun row _ => (reads row).symm
  rw [through t.rows, through u.rows, alike]

theorem Alike.length_eq (alike : Alike shared t u) : t.rows.length = u.rows.length := by
  have lengths := congrArg List.length alike
  rwa [List.length_map, List.length_map] at lengths

/-- What is selected by shared columns and read from shared columns is the same. -/
theorem Alike.select_eq {Result : Type w} {test : Int × Record Column Value → Bool}
    {read : Int × Record Column Value → Result} (alike : Alike shared t u)
    (tests : Reads shared test) (reads : Reads shared read) :
    (t.rows.filter test).map read = (u.rows.filter test).map read := by
  have through : ∀ rows : List (Int × Record Column Value),
      (rows.filter test).map read = ((rows.map (restrict shared)).filter test).map read := by
    intro rows
    rw [List.filter_map, List.map_map]
    have sameTest : test ∘ restrict shared = test := funext tests
    rw [sameTest]
    exact List.map_congr_left fun row _ => (reads row).symm
  rw [through t.rows, through u.rows, alike]

theorem restrict_assign (values : Column → Option (Option Value))
    (row : Int × Record Column Value) :
    restrict shared (row.1, assign values row.2) =
      restrict shared (row.1, assign values (restrict shared row).2) := by
  refine Prod.ext rfl (funext fun c => ?_)
  simp only [restrict, assign]
  split
  · rfl
  · rfl

/-- The same update of rows that are picked by shared columns keeps two tables alike. -/
theorem Alike.update {test : Int × Record Column Value → Bool} (alike : Alike shared t u)
    (tests : Reads shared test) (values : Column → Option (Option Value)) :
    Alike shared (t.update test values) (u.update test values) := by
  rw [Alike, Table.update, Table.update, List.map_map, List.map_map]
  refine alike.map_eq fun row => ?_
  simp only [Function.comp_apply, tests row]
  split
  · exact (restrict_assign values row).symm
  · refine Prod.ext rfl (funext fun c => ?_)
    simp only [restrict]
    split
    · rfl
    · rfl

end SqlTables
