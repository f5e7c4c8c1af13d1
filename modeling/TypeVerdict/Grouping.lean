/-!
# Groupings

Values collected under keys, where both the keys and the values of a key stay in the order in which
they first came.

## Main definitions

* `Grouping`: keys with their values
* `Grouping.append`: more values for a key
* `Grouping.get?`: the values of a key
-/

namespace TypeVerdict

/-- Keys in the order in which they first came, each with its values in order of arrival. -/
structure Grouping (κ α : Type) where
  groups : List (κ × List α) := []
deriving Repr

namespace Grouping

variable {κ α : Type} [DecidableEq κ]

/-- More values for a key: behind those that it has, or in a new group behind all others. -/
def appendTo (key : κ) (values : List α) : List (κ × List α) → List (κ × List α)
  | [] => [(key, values)]
  | (k, vs) :: more =>
    if k = key then (k, vs ++ values) :: more else (k, vs) :: appendTo key values more

/-- More values for a key, in a group of their own if the key is new. -/
def append (g : Grouping κ α) (key : κ) (values : List α) : Grouping κ α :=
  ⟨appendTo key values g.groups⟩

/-- One more value for a key. -/
def insert (g : Grouping κ α) (key : κ) (value : α) : Grouping κ α := g.append key [value]

/-- The values of a key, `none` if it never came. -/
def get? (g : Grouping κ α) (key : κ) : Option (List α) := g.groups.lookup key

/-- The keys in the order in which they first came. -/
def keys (g : Grouping κ α) : List κ := g.groups.map (·.1)

/-- All values, group by group. -/
def values (g : Grouping κ α) : List α := g.groups.flatMap (·.2)

end Grouping

end TypeVerdict
