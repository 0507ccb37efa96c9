import SearchWire.Json.Decode

/-!
# Shard counters

Searches and bulk items report how many shards took part and with what outcome.
A counter that is not reported is zero.
-/

namespace SearchWire

/-- How many shards took part in an operation. -/
structure ShardStats where
  total : Nat := 0
  successful : Nat := 0
  skipped : Nat := 0
  failed : Nat := 0
deriving DecidableEq

namespace ShardStats

/-- The JSON form of the counters. -/
def toJson (shards : ShardStats) : Json :=
  .object
    [("total", .nat shards.total), ("successful", .nat shards.successful),
      ("skipped", .nat shards.skipped), ("failed", .nat shards.failed)]

/-- The counters read so far. -/
structure Partial where
  total : Option Nat := none
  successful : Option Nat := none
  skipped : Option Nat := none
  failed : Option Nat := none

/-- Reads one member. -/
def step (depth : Nat) (fields : Partial) (name : String) (value : Raw) :
    Except Fault Partial := do
  if name = "total" then
    return { fields with total := ← Decode.once name fields.total (Decode.nat32 depth value) }
  else if name = "successful" then
    let successful ← Decode.once name fields.successful (Decode.nat32 depth value)
    return { fields with successful }
  else if name = "skipped" then
    return { fields with skipped := ← Decode.once name fields.skipped (Decode.nat32 depth value) }
  else if name = "failed" then
    return { fields with failed := ← Decode.once name fields.failed (Decode.nat32 depth value) }
  else
    value.skip
    return fields

/-- Reads the counters from the members of an object. -/
def ofMembers (depth : Nat) (members : Members) : Except Fault ShardStats := do
  let fields ← Decode.walk (step depth) members {}
  return ⟨fields.total.getD 0, fields.successful.getD 0, fields.skipped.getD 0,
    fields.failed.getD 0⟩

/-- Reads the counters from an array in their order. -/
def ofItems (depth : Nat) (items : Items) : Except Fault (ShardStats × Items) := do
  let (total, items) ← Decode.next (Decode.nat32 depth) items
  let (successful, items) ← Decode.next (Decode.nat32 depth) items
  let (skipped, items) ← Decode.next (Decode.nat32 depth) items
  let (failed, items) ← Decode.next (Decode.nat32 depth) items
  return (⟨total.getD 0, successful.getD 0, skipped.getD 0, failed.getD 0⟩, items)

end ShardStats

/-- Decodes shard counters. -/
def Decode.shardStats : Decoder ShardStats :=
  record "ShardStats" ShardStats.ofMembers ShardStats.ofItems

end SearchWire
