import SearchWire.Json.Fault

/-!
# Bulk actions

A bulk action creates, indexes or updates a document, or deletes one by its id.
The id of a created or indexed document may be empty, in which case the store
assigns one; an empty index means the default index of the request. A document
gives its JSON form or the fault that kept it from having one.
-/

namespace SearchWire

/-- The four bulk operations. -/
inductive ActionKind where
  | create
  | index
  | update
  | delete
deriving DecidableEq

namespace ActionKind

/-- The operation on the wire. -/
def text : ActionKind → String
  | .create => "create"
  | .index => "index"
  | .update => "update"
  | .delete => "delete"

/-- The operations under their names on the wire. -/
def named : List (String × ActionKind) :=
  [("create", .create), ("index", .index), ("update", .update), ("delete", .delete)]

/-- The operation of a name. -/
def ofName? (name : String) : Option ActionKind :=
  named.lookup name

/-- The operation as a heading. -/
def title : ActionKind → String
  | .create => "Create"
  | .index => "Index"
  | .update => "Update"
  | .delete => "Delete"

end ActionKind

/-- When a bulk request becomes visible to searches. -/
inductive Refresh where
  | immediate
  | never
  | waitFor
deriving DecidableEq

namespace Refresh

/-- The policy on the wire. -/
def text : Refresh → String
  | .immediate => "true"
  | .never => "false"
  | .waitFor => "wait_for"

/-- The policies under their names on the wire. -/
def named : List (String × Refresh) :=
  [("true", .immediate), ("false", .never), ("wait_for", .waitFor)]

end Refresh

/-- A document of a bulk action. -/
structure BulkDocument where
  id : String
  index : String := ""
  source : Except Fault Json

/-- One operation of a bulk request. -/
inductive BulkAction where
  | create (document : BulkDocument)
  | index (document : BulkDocument)
  | update (document : BulkDocument)
  | delete (target id : String)

namespace BulkAction

/-- The operation of an action. -/
def kind : BulkAction → ActionKind
  | .create _ => .create
  | .index _ => .index
  | .update _ => .update
  | .delete _ _ => .delete

/-- The id of the document that an action concerns. -/
def id : BulkAction → String
  | .create document | .index document | .update document => document.id
  | .delete _ id => id

/-- The index that an action names itself; empty when the default index applies. -/
def ownIndex : BulkAction → String
  | .create document | .index document | .update document => document.index
  | .delete target _ => target

/-- The document that an action sends. -/
def document? : BulkAction → Option BulkDocument
  | .create document | .index document | .update document => some document
  | .delete _ _ => none

/-- The description of an action in a log: where it goes, but not what it holds. -/
def describe (action : BulkAction) : String :=
  "BulkAction \x7b kind: " ++ action.kind.title ++ ", index: " ++ quoteForMessage action.ownIndex ++
    ", id: " ++ quoteForMessage action.id ++ " \x7d"

end BulkAction

end SearchWire
