import TriGraph.Number.Order

/-!
# Ranking of candidates

The best candidate is the first one with the highest score. A score that is not a number compares with nothing, so the
comparator is no total order then and leaves open how the candidates are sorted. What is taken here is one admissible
outcome, that of short lists: such a candidate neither overtakes nor is overtaken.
-/

namespace TriGraph.Ranking

variable {α : Type}

/-- The contest ends at the first unordered score, as it may where the comparator is no total order. -/
def leader (top : α × Float) : List (α × Float) → α × Float
  | [] => top
  | c :: cs =>
    match Number.compare? top.2 c.2 with
    | none => top
    | some .lt => leader c cs
    | some _ => leader top cs

def best? : List (α × Float) → Option α
  | [] => none
  | c :: cs => some (leader c cs).1

end TriGraph.Ranking
