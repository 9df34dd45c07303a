/-
Queries: a SELECT over one entity, put together step by step and built once.

Each step compiles its expression at once, so its constants are bound in the
order of the steps. A step that fails leaves the clauses as they were. Rows can
be limited once. Building freezes the query: its text stays, and every later step
is refused.

A `Session` adds the cache that joins look their entities up in. The look-ups
come before anything else, so even a refused join can fill the cache.
-/
import SqlCompose.Compile
import SqlCompose.Query.Paging
import SqlCompose.Schema.Cache

namespace SqlCompose

structure Query where
  target : Target
  table : Table
  clauses : Clauses
  params : Parameters
  paged : Bool := false
  sql : Option String := none

namespace Query

def ofTable (target : Target) (table : Table) : Query where
  target := target
  table := table
  clauses := { table := table.name, source := target.selectableTable table.name }
  params := { tag := target.dialect.parameterTag }

def isBuilt (q : Query) : Bool := q.sql.isSome

/-- The outcome of a step and the query after it. -/
abbrev Outcome (α : Type) := Except Error α × Query

/-- Refuses a step on a query that is built. -/
def whileOpen (q : Query) (step : Outcome Unit) : Outcome Unit :=
  if q.isBuilt then (.error .alreadyBuilt, q) else step

/-- Compiles an expression and puts its text into a clause. Parameters bound before an error
stay. -/
def place (q : Query) (mode : Mode) (e : Expr) (put : String → Clauses → Clauses) : Outcome Unit :=
  q.whileOpen <|
    match ((q.target.compile mode e).run).run q.params with
    | (.ok text, params) => (.ok (), { q with clauses := put text q.clauses, params := params })
    | (.error err, params) => (.error err, { q with params := params })

def select (q : Query) (f : Table → Expr) : Outcome Unit :=
  q.place .projection (f q.table) Clauses.addColumn

def filter (q : Query) (f : Table → Expr) : Outcome Unit :=
  q.place .predicate (f q.table) (Clauses.addFilter .and)

def orFilter (q : Query) (f : Table → Expr) : Outcome Unit :=
  q.place .predicate (f q.table) (Clauses.addFilter .or)

def groupBy (q : Query) (f : Table → Expr) : Outcome Unit :=
  q.place .projection (f q.table) Clauses.addGroupBy

def having (q : Query) (f : Table → Expr) : Outcome Unit :=
  q.place .predicate (f q.table) Clauses.addHaving

def orderBy (q : Query) (direction : Direction) (f : Table → Expr) : Outcome Unit :=
  q.place (.ordering direction) (f q.table) Clauses.addOrderBy

/-- Joins the table `right` on a condition over two tables. -/
def joinOn (q : Query) (kind : JoinKind) (left right : Table) (on : Table → Table → Expr) :
    Outcome Unit :=
  q.place .predicate (on left right)
    (Clauses.addJoin kind.keyword (q.target.selectableTable right.name))

/-- Limits the rows, once. -/
def pageWith (q : Query) (act : Clauses → Parameters → Clauses × Parameters) : Outcome Unit :=
  q.whileOpen <|
    if q.paged then (.error .pagingConflict, q)
    else
      let (clauses, params) := act q.clauses q.params
      (.ok (), { q with clauses := clauses, params := params, paged := true })

def top (q : Query) (n : UInt64) : Outcome Unit := q.pageWith (q.target.dialect.limit n)

/-- Page `page` of `size` rows, counted from one. -/
def paginate (q : Query) (size page : UInt64) : Outcome Unit :=
  q.pageWith (q.target.dialect.page size page)

def count (q : Query) : Outcome Unit :=
  q.whileOpen (.ok (),
    { q with clauses := { q.clauses with format := { q.clauses.format with count := true } } })

def distinct (q : Query) : Outcome Unit :=
  q.whileOpen (.ok (),
    { q with clauses := { q.clauses with format := { q.clauses.format with distinct := true } } })

/-- All columns of the table, where nothing was selected. -/
def withColumns (q : Query) : Clauses :=
  if isBlank q.clauses.columns then
    q.table.fields.foldl
      (fun c f => c.addColumn (q.target.columnRef q.table.name f.name)) q.clauses
  else q.clauses

/-- The statement. The first call settles it for good. -/
def build (q : Query) : String × Query :=
  match q.sql with
  | some sql => (sql, q)
  | none =>
    let clauses := q.withColumns
    let sql := clauses.assemble q.target.dialect.defaultOrder?
    (sql, { q with clauses := clauses, sql := some sql })

/-- The statement asked for rows at all. -/
def probe (q : Query) : String × Query :=
  let (sql, q) := q.build
  (q.target.dialect.existsProbe sql, q)

def finish (q : Query) : String × Parameters :=
  let (sql, q) := q.build
  (sql, q.params)

end Query

end SqlCompose
