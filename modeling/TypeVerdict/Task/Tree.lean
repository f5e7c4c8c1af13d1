import TypeVerdict.Task.Forest

/-!
# Trees of tasks

The tree below an entry, as it is shown: the entry with the trees of the entries that it owns.

## Main definitions

* `Tree`: an entry with the trees below it
* `Forest.tree?`: the tree below an entry of a forest
* `Tree.flatten`: the entries of a tree, each before those below it
-/

namespace TypeVerdict

/-- An entry under its key, with the trees below it. -/
inductive Tree where
  | node (key : Key) (task : Task) (children : List Tree)
deriving Repr

namespace Tree

/-- The key of the topmost entry. -/
def key : Tree → Key
  | node k _ _ => k

/-- The topmost entry. -/
def task : Tree → Task
  | node _ t _ => t

/-- The trees right below the topmost entry. -/
def children : Tree → List Tree
  | node _ _ ts => ts

mutual

/-- The entries of a tree with their keys, each before those below it. -/
def flatten : Tree → List (Key × Task)
  | node k t ts => (k, t) :: flattenAll ts

/-- The entries of several trees, tree by tree. -/
def flattenAll : List Tree → List (Key × Task)
  | [] => []
  | t :: ts => flatten t ++ flattenAll ts

end

end Tree

namespace Forest

/-- The tree below an entry, down to a number of levels. -/
def treeWithin? (f : Forest) : Nat → Key → Option Tree
  | 0, _ => none
  | n + 1, k => (f.get? k).map fun t =>
    .node k t ((t.shape.tasks?.getD []).filterMap (treeWithin? f n))

/-- The tree below an entry.  Without a cycle no tree is deeper than its forest is large. -/
def tree? (f : Forest) (k : Key) : Option Tree := f.treeWithin? f.next k

end Forest

end TypeVerdict
