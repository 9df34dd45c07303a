/-
Ways to write expressions. The operators have constructors already; what is here
names the intrinsic calls and the constants.
-/
import SqlCompose.Expr.Basic

namespace SqlCompose

def Table.col (t : Table) (name : String) : Expr := .column t name

namespace Expr

/-- SQL text that is spliced in as it is. -/
def raw (text : String) : Expr := const (.sql text)

def captured (container : Value) (name : String) : Expr := member (const container) name

def hostCall (name : String) (f : HostFn) (args : List Expr) : Expr :=
  call { declaring := "host", name := name, host := some f } args

/-! ## Aggregates and functions -/

def minimum (e : Expr) : Expr := intrinsic .min [e]
def maximum (e : Expr) : Expr := intrinsic .max [e]
def sum (e : Expr) : Expr := intrinsic .sum [e]
def average (e : Expr) : Expr := intrinsic .average [e]
def countRows : Expr := intrinsic .count []
/-- The number of rows where the expression is not null. -/
def countOf (e : Expr) : Expr := intrinsic .count [e]
def trim (e : Expr) : Expr := intrinsic .trim [e]
def length (e : Expr) : Expr := intrinsic .length [e]
def upper (e : Expr) : Expr := intrinsic .upper [e]
def lower (e : Expr) : Expr := intrinsic .lower [e]
/-- The expression, or `fallback` where it is null. -/
def ifNull (e fallback : Expr) : Expr := intrinsic .ifNull [e, fallback]
/-- The expression as another type; size zero leaves the length to the engine. -/
def cast (e : Expr) (ty : LogicalType) (size : UInt32) : Expr :=
  intrinsic .cast [e, const (.string ty.name), const (.int (Int64.ofNat size.toNat))]

/-! ## Tests and names -/

def named (e : Expr) (label : String) : Expr := intrinsic .named [e, const (.string label)]
def between (e low high : Expr) : Expr := intrinsic .between [e, low, high]
def inList (e : Expr) (values : List Value) : Expr := intrinsic .member [e, const (.list values)]
def like (e pattern : Expr) : Expr := intrinsic .like [e, pattern]

end Expr

end SqlCompose
