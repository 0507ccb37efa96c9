import SearchWire.Json.Basic

/-!
# Sort keys

A list of sort keys orders hits or buckets, the first key first. Each compiles
to an object that maps its key to its direction.
-/

namespace SearchWire

/-- A direction of sorting. -/
inductive Direction where
  | asc
  | desc
deriving DecidableEq

/-- The direction on the wire. -/
def Direction.text : Direction → String
  | .asc => "asc"
  | .desc => "desc"

/-- One criterion of an order. -/
structure SortKey where
  key : String
  direction : Direction
deriving DecidableEq

namespace SortKey

/-- A criterion from the smallest value up. -/
def asc (key : String) : SortKey :=
  ⟨key, .asc⟩

/-- A criterion from the largest value down. -/
def desc (key : String) : SortKey :=
  ⟨key, .desc⟩

/-- The JSON form of a criterion. -/
def compile (sortKey : SortKey) : Json :=
  Json.single sortKey.key (.string sortKey.direction.text)

/-- The JSON forms of an order. -/
def compileAll (order : List SortKey) : List Json :=
  order.map compile

end SortKey

/-- A count given as a signed number: a negative one leaves the choice to the store. -/
def countOf (value : Int) : Option Nat :=
  if value < 0 then none else some value.toNat

end SearchWire
