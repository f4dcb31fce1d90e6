/-!
# Plans

What something does at each of its calls: the items of a list in turn, and from then on always the
same.
-/

namespace TraceRelay

structure Plan (α : Type) where
  items : List α
  after : α
  deriving DecidableEq, Repr, Inhabited

namespace Plan

variable {α : Type}

def always (a : α) : Plan α := ⟨[], a⟩

/-- What the next call does, and the plan of those after it. -/
def next (p : Plan α) : α × Plan α :=
  match p.items with
  | [] => (p.after, p)
  | a :: items => (a, { p with items })

/-- Puts a call in front. -/
def first (p : Plan α) (a : α) : Plan α := { p with items := a :: p.items }

end Plan

end TraceRelay
