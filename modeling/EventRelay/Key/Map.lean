import EventRelay.Key.Basic

/-!
# Maps ordered by key

A map from keys is the list of its pairs in ascending key order.  Inserting
under a key that is there replaces its value.
-/

namespace EventRelay

/-- A map from keys: its pairs in ascending key order. -/
abbrev KeyMap (α : Type) := List (Key × α)

namespace KeyMap

variable {α : Type}

/-- Store a value under a key. -/
def insert (key : Key) (value : α) : KeyMap α → KeyMap α
  | [] => [(key, value)]
  | (first, stored) :: rest =>
      match key.compare first with
      | .lt => (key, value) :: (first, stored) :: rest
      | .eq => (key, value) :: rest
      | .gt => (first, stored) :: insert key value rest

/-- The pair of the least key that is not below a given one. -/
def firstFrom? (map : KeyMap α) (least : Key) : Option (Key × α) :=
  map.find? fun pair => (pair.1.compare least).isGE

/-- The greatest key. -/
def lastKey? (map : KeyMap α) : Option Key :=
  map.getLast?.map Prod.fst

end KeyMap
end EventRelay
