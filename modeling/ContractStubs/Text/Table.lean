/-!
# Tables with text keys

A table is a list of entries in ascending order of their keys, each key standing once.
-/

namespace ContractStubs

/-- The entries without those whose key comes again right behind them. -/
def dropOverwritten {α : Type} : List (String × α) → List (String × α)
  | [] => []
  | [entry] => [entry]
  | (k, a) :: (l, b) :: entries =>
    if k = l then dropOverwritten ((l, b) :: entries) else (k, a) :: dropOverwritten ((l, b) :: entries)

/-- The table of some entries; of those with one key the last counts. -/
def tableOf {α : Type} (entries : List (String × α)) : List (String × α) :=
  dropOverwritten (entries.mergeSort fun a b => a.1 ≤ b.1)

end ContractStubs
