/-
Queries with a schema cache. A session starts by looking up the entity the query
is over; joins look up theirs, the left one first, before they ask whether the
query is still open.

`Step` is every operation on a session, so that a run is a list of steps.
-/
import SqlCompose.Query

namespace SqlCompose

structure Session (κ : Type) where
  cache : Cache κ
  query : Query

/-- The operations on a query. Entities are named by keys of type `κ`. -/
inductive Step (κ : Type) where
  | select (f : Table → Expr)
  | filter (f : Table → Expr)
  | orFilter (f : Table → Expr)
  | groupBy (f : Table → Expr)
  | having (f : Table → Expr)
  | orderBy (direction : Direction) (f : Table → Expr)
  /-- Joins an entity to the one queried. -/
  | join (kind : JoinKind) (right : κ) (on : Table → Table → Expr)
  /-- Joins an entity to one that is joined already. -/
  | joinPair (kind : JoinKind) (left right : κ) (on : Table → Table → Expr)
  | top (n : UInt64)
  | paginate (size page : UInt64)
  | count
  | distinct
  | build
  | probe

namespace Session

variable {κ : Type} [DecidableEq κ]

def start (describe : κ → Description) (target : Target) (k : κ) (cache : Cache κ) :
    Except Error (Session κ) :=
  match cache.table describe k with
  | (.ok table, cache) => .ok ⟨cache, .ofTable target table⟩
  | (.error e, _) => .error e

def onQuery (s : Session κ) (step : Query → Query.Outcome Unit) :
    Except Error (Option String) × Session κ :=
  let (result, query) := step s.query
  (result.map fun _ => none, { s with query := query })

def answering (s : Session κ) (step : Query → String × Query) :
    Except Error (Option String) × Session κ :=
  let (sql, query) := step s.query
  (.ok (some sql), { s with query := query })

/-- Looks an entity up and goes on with its table. -/
def withTable (describe : κ → Description) (k : κ) (s : Session κ)
    (next : Table → Session κ → Except Error (Option String) × Session κ) :
    Except Error (Option String) × Session κ :=
  match s.cache.table describe k with
  | (.ok table, cache) => next table { s with cache := cache }
  | (.error e, cache) => (.error e, { s with cache := cache })

/-- Does one step. Only building and probing answer a text. -/
def step (describe : κ → Description) (s : Session κ) :
    Step κ → Except Error (Option String) × Session κ
  | .select f => s.onQuery (·.select f)
  | .filter f => s.onQuery (·.filter f)
  | .orFilter f => s.onQuery (·.orFilter f)
  | .groupBy f => s.onQuery (·.groupBy f)
  | .having f => s.onQuery (·.having f)
  | .orderBy direction f => s.onQuery (·.orderBy direction f)
  | .join kind right on =>
    s.withTable describe right fun right s =>
      s.onQuery fun q => q.joinOn kind q.table right on
  | .joinPair kind left right on =>
    s.withTable describe left fun left s =>
      s.withTable describe right fun right s => s.onQuery (·.joinOn kind left right on)
  | .top n => s.onQuery (·.top n)
  | .paginate size page => s.onQuery (·.paginate size page)
  | .count => s.onQuery (·.count)
  | .distinct => s.onQuery (·.distinct)
  | .build => s.answering (·.build)
  | .probe => s.answering (·.probe)

def run (describe : κ → Description) (s : Session κ) (steps : List (Step κ)) : Session κ :=
  steps.foldl (fun s step => (s.step describe step).2) s

end Session

end SqlCompose
