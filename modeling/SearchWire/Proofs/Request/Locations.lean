import SearchWire.Proofs.Json.Lookup
import SearchWire.Proofs.Request.Address
import SearchWire.Proofs.Request.Parts

/-!
# Where the nodes of a request stand in its JSON form

A role gives the keys that lead from the form of a node to the form of a node
that it holds. `Node.at?_parts` follows an address from step to step: in the
form of a tree whose named aggregations are in order, the keys of an address lead
to the form of the node that has the address.
-/

namespace SearchWire

open Json

/-- The keys from the form of a node to that of a node which it holds in a role. -/
def Role.keys : Role → List Key
  | .nested => [.name "nested", .name "query"]
  | .clause occurrence position => [.name "bool", .name occurrence.text, .item position]
  | .filter => [.name "filter"]
  | .query => [.name "query"]
  | .named name => [.name "aggs", .name name]

/-- The keys from the form of a tree to that of the node at an address. -/
def addressKeys (address : List Step) : List Key :=
  address.flatMap fun step => step.role.keys

/-- An item of a list that fills a slot stands at its position under the name of the slot. -/
theorem Json.at?_slotItem (names : List String) (hdistinct : names.Nodup)
    {slots : List (String × Option Json)} (hslots : slots.map Prod.fst = names) {name : String}
    {items : List Json} (hslot : (name, arraySlot items) ∈ slots) {position : Nat} {item : Json}
    (hitem : items[position]? = some item) (rest : List Key) :
    at? (.name name :: .item position :: rest) (record (present slots)) = at? rest item := by
  have hfilled : arraySlot items = some (.array items) := by
    cases items with
    | nil => cases hitem
    | cons => rfl
  rw [at?_name (entry?_present names hdistinct hslots (hfilled ▸ hslot)), at?_item hitem]

/-- The body of a bucket aggregation stands under its kind. -/
theorem Aggregation.at?_body (division : Division) (children : List (String × Aggregation))
    (rest : List Key) :
    at? (.name division.kind :: rest) (compile (.bucket division children)) =
      at? rest division.body := by
  have hbody : entry? division.kind (compile (.bucket division children)) =
      some (division.bodyBy record) := by
    rw [compile_bucket]
    exact entry?_present [division.kind, "aggs"] (by simp [division.kind_ne_aggs]) rfl (.head _)
  rw [at?_name hbody, Division.body_eq]

/-- An item of a list in the body of a bucket aggregation stands at its position. -/
theorem Aggregation.at?_listed {division : Division} (children : List (String × Aggregation))
    {name : String} {items : List Json} (hlist : entry? name division.body = some (.array items))
    {position : Nat} {item : Json} (hitem : items[position]? = some item) (rest : List Key) :
    at? (.name division.kind :: .name name :: .item position :: rest)
      (compile (.bucket division children)) = at? rest item := by
  rw [at?_body, at?_name hlist, at?_item hitem]

namespace Node

/-- A clause stands at its position among those of its occurrence. -/
theorem at?_clause {must mustNot should filter queries : List Query} {options : BoolOptions}
    {occurrence : Occurrence}
    (hslot : (occurrence.text, arraySlot (queries.map Query.compile)) ∈
      Query.boolSlots must mustNot should filter options)
    {entry : Role × Node} (h : entry ∈ clauses occurrence queries) :
    at? entry.1.keys (query (.bool must mustNot should filter options)).compile =
      some entry.2.compile := by
  obtain ⟨⟨clause, position⟩, hmem, rfl⟩ := List.mem_map.1 h
  have hclause : queries[position]? = some clause := List.mem_zipIdx_iff_getElem?.1 hmem
  have hitem : (queries.map Query.compile)[position]? = some clause.compile := by
    rw [List.getElem?_map, hclause, Option.map_some]
  have hform : (query (.bool must mustNot should filter options)).compile =
      single "bool" (record (present (Query.boolSlots must mustNot should filter options))) :=
    Query.compile_bool must mustNot should filter options
  rw [hform, Role.keys, at?_single]
  exact at?_slotItem ["must", "must_not", "should", "filter", "minimum_should_match", "boost"]
    (by decide) rfl hslot hitem []

/-- A named aggregation stands under its name. -/
theorem at?_named {named : List (String × Aggregation)} (hnamed : Named.Sorted named) {form : Json}
    (hform : ∀ aggregations, aggregationsSlot record named = some aggregations →
      entry? "aggs" form = some aggregations)
    {entry : Role × Node} (h : entry ∈ namedRoles named) :
    at? entry.1.keys form = some entry.2.compile := by
  obtain ⟨⟨name, aggregation⟩, hmem, rfl⟩ := List.mem_map.1 h
  have hslot : aggregationsSlot record named =
      some (record (named.map fun entry => (entry.1, entry.2.compile))) := by
    cases named with
    | nil => cases hmem
    | cons => rfl
  have hnodup : ((named.map fun entry => (entry.1, entry.2.compile)).map Prod.fst).Nodup := by
    rw [List.map_map]
    exact hnamed.nodup
  have hentry : entry? name (record (named.map fun entry => (entry.1, entry.2.compile))) =
      some aggregation.compile :=
    entry?_record_of_mem hnodup (List.mem_map.2 ⟨_, hmem, rfl⟩)
  rw [Role.keys, at?_name (hform _ hslot), at?_name hentry]
  rfl

/-- The keys of a role lead to the form of the node that is held in it. -/
theorem at?_held {node : Node} (hnamed : Named.Sorted node.aggregations) {role : Role}
    {child : Node} (h : (role, child) ∈ node.held) :
    at? role.keys node.compile = some child.compile := by
  cases node with
  | query parent =>
      cases parent with
      | leaf body => cases h
      | nested path asked options =>
          obtain ⟨inner, hinner, hsame⟩ := List.mem_map.1 h
          obtain ⟨rfl, rfl⟩ := Prod.mk.inj hsame
          obtain rfl : asked = some inner := Option.mem_toList.1 hinner
          have hform : (query (.nested path (some inner) options)).compile =
              single "nested" (record (present (Query.nestedSlots path (some inner) options))) :=
            Query.compile_nested path (some inner) options
          have hentry : entry? "query"
              (record (present (Query.nestedSlots path (some inner) options))) =
                some inner.compile :=
            entry?_present ["path", "query", "score_mode", "ignore_unmapped"] (by decide) rfl
              (.tail _ (.head _))
          rw [hform, Role.keys, at?_single, at?_name hentry]
          rfl
      | bool must mustNot should filter options =>
          simp only [held, List.mem_append] at h
          rcases h with ((h | h) | h) | h
          · exact at?_clause (.head _) h
          · exact at?_clause (.tail _ (.head _)) h
          · exact at?_clause (.tail _ (.tail _ (.head _))) h
          · exact at?_clause (.tail _ (.tail _ (.tail _ (.head _)))) h
  | aggregation parent =>
      cases parent with
      | leaf body => cases h
      | bucket division children =>
          have hform : (aggregation (.bucket division children)).compile =
              record (present [(division.kind, some (division.bodyBy record)),
                ("aggs", aggregationsSlot record children)]) :=
            Aggregation.compile_bucket division children
          have hnames : [division.kind, "aggs"].Nodup := by simp [division.kind_ne_aggs]
          rcases List.mem_append.1 h with hquery | hchild
          · obtain ⟨inner, hinner, hsame⟩ := List.mem_map.1 hquery
            obtain ⟨rfl, rfl⟩ := Prod.mk.inj hsame
            cases division with
            | filter asked =>
                obtain rfl : asked = some inner := Option.mem_toList.1 hinner
                rw [hform]
                exact at?_name (entry?_present _ hnames rfl (.head _)) []
            | terms | dateHistogram | range | dateRange => cases hinner
          · refine at?_named hnamed (fun aggregations hslot => ?_) hchild
            rw [hform]
            exact entry?_present _ hnames rfl (hslot ▸ .tail _ (.head _))
  | search request =>
      have hform : (search request).compile = record (present (request.slots record)) :=
        request.compile_eq
      have hentry {name : String} {value : Json}
          (hslot : (name, some value) ∈ request.slots record) :
          entry? name (record (present (request.slots record))) = some value :=
        entry?_present ["query", "aggs", "from", "size", "sort", "_source", "track_total_hits"]
          (by decide) rfl hslot
      rcases List.mem_append.1 h with hquery | hchild
      · obtain ⟨inner, hinner, hsame⟩ := List.mem_map.1 hquery
        obtain ⟨rfl, rfl⟩ := Prod.mk.inj hsame
        have hset : request.query = some inner := Option.mem_toList.1 hinner
        have hslot : ("query", some inner.compile) ∈ request.slots record := by
          rw [SearchRequest.slots, hset]
          exact .head _
        rw [hform]
        exact at?_name (hentry hslot) []
      · refine at?_named hnamed (fun aggregations hslot => ?_) hchild
        rw [hform]
        exact hentry (hslot ▸ .tail _ (.head _))

/-- The keys of an address lead to the form of the node that has it. -/
theorem at?_parts {node : Node} (h : node.Arranged) {address : List Step} {part : Node}
    (hpart : (address, part) ∈ node.parts) :
    at? (addressKeys address) node.compile = some part.compile := by
  induction address generalizing node with
  | nil =>
      rcases mem_parts_iff.1 hpart with ⟨-, rfl⟩ | ⟨_, _, _, _, hsame, _⟩
      · rfl
      · cases hsame
  | cons step rest ih =>
      obtain ⟨hnamed, hbelow⟩ := arranged_iff.1 h
      rcases mem_parts_iff.1 hpart with ⟨hroot, -⟩ | ⟨role, child, _, hheld, hsame, hrest⟩
      · cases hroot
      · obtain ⟨rfl, rfl⟩ := List.cons.inj hsame
        have hchild : child.Arranged := hbelow child (mem_children_of_mem_held hheld)
        rw [addressKeys, List.flatMap_cons, at?_append, at?_held hnamed hheld, Option.bind_some]
        exact ih hchild hrest

end Node

end SearchWire
