/-
Lists of texts set side by side.

`joinWith sep` puts `sep` between neighbours and nowhere else; every list of
columns, statements' arguments and combined names is made with it.
-/

namespace SqlCompose

/-- The texts one after the other with `sep` between neighbours. -/
def joinWith (sep : String) : List String → String
  | [] => ""
  | [s] => s
  | s :: t :: rest => s ++ sep ++ joinWith sep (t :: rest)

@[simp] theorem joinWith_nil (sep : String) : joinWith sep [] = "" := rfl

@[simp] theorem joinWith_singleton (sep s : String) : joinWith sep [s] = s := rfl

theorem joinWith_cons_cons (sep s t : String) (rest : List String) :
    joinWith sep (s :: t :: rest) = s ++ sep ++ joinWith sep (t :: rest) := rfl

/-- A comma list, the form of every select list, column list and argument list. -/
def commaList (items : List String) : String := joinWith ", " items

end SqlCompose
