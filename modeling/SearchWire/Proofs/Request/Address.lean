import Mathlib.Data.List.Nodup
import SearchWire.Proofs.Request.Arranged

/-!
# Addresses in the tree of a request

A node stands in the tree of another at an address: the steps that lead there,
each with the role of a node in the one that holds it and its kind.
`Node.parts` lists the nodes of a tree with their addresses, each place of the
tree once (`Node.nodup_parts`), and these are the nodes within it
(`Node.within_iff`). `Step.text` writes a step as a finding shows it.
-/

namespace SearchWire

/-- How the clauses of a boolean query take part in it. -/
inductive Occurrence where
  | must
  | mustNot
  | should
  | filter
deriving DecidableEq

/-- The name of the clauses on the wire. -/
def Occurrence.text : Occurrence → String
  | .must => "must"
  | .mustNot => "must_not"
  | .should => "should"
  | .filter => "filter"

/-- The role of a node in the one that holds it: the query of a nested query, a clause, the query of
a filter aggregation, the query of a search, or a named aggregation. -/
inductive Role where
  | nested
  | clause (occurrence : Occurrence) (position : Nat)
  | filter
  | query
  | named (name : String)
deriving DecidableEq

/-- A role as a finding shows it. -/
def Role.text : Role → String
  | .nested | .query => "query"
  | .clause occurrence position =>
      occurrence.text ++ "[" ++ String.ofList (Nat.toDigits 10 position) ++ "]"
  | .filter => "filter"
  | .named name => "aggs." ++ name

/-- A step from a node to one that it holds: the role and the kind of the latter. -/
structure Step where
  role : Role
  kind : String
deriving DecidableEq

/-- A step as a finding shows it. -/
def Step.text (step : Step) : String :=
  "." ++ step.role.text ++ "." ++ step.kind

/-- An address as a finding shows it, behind the path of the root. -/
def addressText : List Step → String
  | [] => ""
  | step :: rest => step.text ++ addressText rest

/-- The path of a child is the path of its parent and the step to the child. -/
theorem Query.childPath_eq (path kind : String) (role : Role) :
    childPath path role.text kind = path ++ (⟨role, kind⟩ : Step).text := by
  simp [childPath, Step.text, String.append_assoc]

-- the place of the eleventh clause of the query of a search
example : "search" ++ addressText [⟨.query, "bool"⟩, ⟨.clause .mustNot 10, "term"⟩] =
    "search.query.bool.must_not[10].term" := by
  rfl

namespace Node

/-- The clauses of one occurrence, with their positions. -/
def clauses (occurrence : Occurrence) (queries : List Query) : List (Role × Node) :=
  queries.zipIdx.map fun entry => (.clause occurrence entry.2, .query entry.1)

/-- The named aggregations in their roles. -/
def namedRoles (named : List (String × Aggregation)) : List (Role × Node) :=
  named.map fun entry => (.named entry.1, .aggregation entry.2)

/-- The nodes that a node holds, in their roles. -/
def held : Node → List (Role × Node)
  | .query (.leaf _) => []
  | .query (.nested _ asked _) => asked.toList.map fun inner => (.nested, .query inner)
  | .query (.bool must mustNot should filter _) =>
      clauses .must must ++ clauses .mustNot mustNot ++ clauses .should should ++
        clauses .filter filter
  | .aggregation (.leaf _) => []
  | .aggregation (.bucket division children) =>
      (division.query?.toList.map fun inner => (.filter, .query inner)) ++ namedRoles children
  | .search request =>
      (request.query.toList.map fun inner => (.query, .query inner)) ++
        namedRoles request.aggregations

theorem map_snd_clauses (occurrence : Occurrence) (queries : List Query) :
    (clauses occurrence queries).map Prod.snd = queries.map .query := by
  rw [clauses, List.map_map]
  show queries.zipIdx.map (Node.query ∘ Prod.fst) = _
  rw [← List.map_map, List.zipIdx_map_fst]

theorem map_snd_namedRoles (named : List (String × Aggregation)) :
    (namedRoles named).map Prod.snd = named.map fun entry => .aggregation entry.2 := by
  rw [namedRoles, List.map_map]
  rfl

/-- The nodes that a node holds are its children. -/
theorem map_snd_held (node : Node) : node.held.map Prod.snd = node.children := by
  cases node with
  | query parent =>
      cases parent with
      | leaf => rfl
      | nested path asked options => cases asked <;> rfl
      | bool must mustNot should filter options =>
          simp only [held, children, queries, aggregations, List.map_append, map_snd_clauses,
            List.map_nil, List.append_nil]
  | aggregation parent =>
      cases parent with
      | leaf => rfl
      | bucket division children =>
          rw [held, Node.children, List.map_append, map_snd_namedRoles, List.map_map]
          rfl
  | search request =>
      rw [held, children, List.map_append, map_snd_namedRoles, List.map_map]
      rfl

theorem mem_children_of_mem_held {node : Node} {entry : Role × Node} (h : entry ∈ node.held) :
    entry.2 ∈ node.children := by
  rw [← map_snd_held]
  exact List.mem_map_of_mem h

theorem exists_mem_held {node child : Node} (h : child ∈ node.children) :
    ∃ role, (role, child) ∈ node.held := by
  rw [← map_snd_held] at h
  obtain ⟨⟨role, held⟩, hentry, rfl⟩ := List.mem_map.1 h
  exact ⟨role, hentry⟩

/-- The clauses of one occurrence have different roles. -/
theorem nodup_clauses (occurrence : Occurrence) (queries : List Query) :
    ((clauses occurrence queries).map Prod.fst).Nodup := by
  have hroles : (clauses occurrence queries).map Prod.fst =
      (List.range queries.length).map (Role.clause occurrence) := by
    rw [clauses, List.map_map, List.range_eq_range', ← List.zipIdx_map_snd, List.map_map]
    rfl
  rw [hroles]
  exact List.nodup_range.map fun first second h => (Role.clause.inj h).2

theorem exists_of_mem_clauses {occurrence : Occurrence} {queries : List Query} {role : Role}
    (h : role ∈ (clauses occurrence queries).map Prod.fst) :
    ∃ position, role = .clause occurrence position := by
  obtain ⟨entry, hentry, rfl⟩ := List.mem_map.1 h
  obtain ⟨⟨clause, position⟩, -, rfl⟩ := List.mem_map.1 hentry
  exact ⟨position, rfl⟩

/-- Clauses of different occurrences have different roles. -/
theorem disjoint_clauses {first second : Occurrence} (h : first ≠ second)
    (queries others : List Query) :
    List.Disjoint ((clauses first queries).map Prod.fst)
      ((clauses second others).map Prod.fst) := by
  intro role hfirst hsecond
  obtain ⟨position, rfl⟩ := exists_of_mem_clauses hfirst
  obtain ⟨other, hrole⟩ := exists_of_mem_clauses hsecond
  exact h (Role.clause.inj hrole).1

theorem map_fst_namedRoles (named : List (String × Aggregation)) :
    (namedRoles named).map Prod.fst = (named.map Prod.fst).map .named := by
  rw [namedRoles, List.map_map, List.map_map]
  rfl

/-- A query beside named aggregations has a role of its own. -/
theorem nodup_query_namedRoles {role : Role} (hrole : ∀ name, role ≠ .named name)
    (asked : Option Query) {named : List (String × Aggregation)} (h : Named.Sorted named) :
    (((asked.toList.map fun inner => (role, Node.query inner)) ++ namedRoles named).map
      Prod.fst).Nodup := by
  have hnamed : ((namedRoles named).map Prod.fst).Nodup := by
    rw [map_fst_namedRoles]
    exact h.nodup.map fun first second hsame => Role.named.inj hsame
  cases asked with
  | none => exact hnamed
  | some inner =>
      refine List.nodup_cons.2 ⟨?_, hnamed⟩
      show role ∉ (namedRoles named).map Prod.fst
      rw [map_fst_namedRoles]
      intro hmem
      obtain ⟨name, -, hname⟩ := List.mem_map.1 hmem
      exact hrole name hname.symm

/-- The nodes that a node holds have different roles. -/
theorem nodup_roles {node : Node} (h : Named.Sorted node.aggregations) :
    (node.held.map Prod.fst).Nodup := by
  cases node with
  | query parent =>
      cases parent with
      | leaf => exact List.nodup_nil
      | nested path asked options => cases asked <;> simp [held]
      | bool must mustNot should filter options =>
          simp only [held, List.map_append, List.nodup_append', nodup_clauses, true_and,
            List.disjoint_append_left]
          refine ⟨⟨?_, ?_, ?_⟩, ⟨?_, ?_⟩, ?_⟩
          all_goals exact disjoint_clauses (by decide) _ _
  | aggregation parent =>
      cases parent with
      | leaf => exact List.nodup_nil
      | bucket division children => exact nodup_query_namedRoles (by simp) division.query? h
  | search request => exact nodup_query_namedRoles (by simp) request.query h

/-- The nodes of a tree, each with its address. -/
def parts (node : Node) : List (List Step × Node) :=
  ([], node) :: node.held.attach.flatMap fun ⟨entry, hentry⟩ =>
    have := sizeOf_lt_of_mem_children (mem_children_of_mem_held hentry)
    entry.2.parts.map fun part => (⟨entry.1, entry.2.kind⟩ :: part.1, part.2)
termination_by sizeOf node

/-- The nodes of a tree are its root and the nodes of the trees below it. -/
theorem parts_eq (node : Node) :
    node.parts = ([], node) :: node.held.flatMap fun entry =>
      entry.2.parts.map fun part => (⟨entry.1, entry.2.kind⟩ :: part.1, part.2) := by
  rw [parts]
  congr 1
  rw [List.flatMap_subtype fun entry hentry => rfl, List.unattach_attach]

theorem mem_parts_iff {node part : Node} {address : List Step} :
    (address, part) ∈ node.parts ↔
      address = [] ∧ part = node ∨
        ∃ role child rest, (role, child) ∈ node.held ∧ address = ⟨role, child.kind⟩ :: rest ∧
          (rest, part) ∈ child.parts := by
  rw [parts_eq, List.mem_cons, Prod.mk.injEq, List.mem_flatMap]
  refine or_congr Iff.rfl ⟨?_, ?_⟩
  · rintro ⟨⟨role, child⟩, hentry, hmem⟩
    obtain ⟨⟨rest, below⟩, hbelow, hsame⟩ := List.mem_map.1 hmem
    obtain ⟨rfl, rfl⟩ := Prod.mk.inj hsame
    exact ⟨role, child, rest, hentry, rfl, hbelow⟩
  · rintro ⟨role, child, rest, hentry, rfl, hbelow⟩
    exact ⟨(role, child), hentry, List.mem_map.2 ⟨(rest, part), hbelow, rfl⟩⟩

theorem self_mem_parts (node : Node) : ([], node) ∈ node.parts :=
  mem_parts_iff.2 (.inl ⟨rfl, rfl⟩)

theorem mem_parts_of_held {node child part : Node} {role : Role} {rest : List Step}
    (hheld : (role, child) ∈ node.held) (hrest : (rest, part) ∈ child.parts) :
    (⟨role, child.kind⟩ :: rest, part) ∈ node.parts :=
  mem_parts_iff.2 (.inr ⟨role, child, rest, hheld, rfl, hrest⟩)

/-- The nodes of a tree are those within it. -/
theorem within_iff {node part : Node} :
    part.Within node ↔ ∃ address, (address, part) ∈ node.parts := by
  induction node using Node.induction with
  | step node ih =>
      constructor
      · intro h
        rcases h.cases_head with rfl | ⟨child, hchild, hbelow⟩
        · exact ⟨[], self_mem_parts _⟩
        · obtain ⟨role, hentry⟩ := exists_mem_held hchild
          obtain ⟨rest, hrest⟩ := (ih child hchild).1 hbelow
          exact ⟨_, mem_parts_of_held hentry hrest⟩
      · rintro ⟨address, hmem⟩
        rcases mem_parts_iff.1 hmem with ⟨-, rfl⟩ | ⟨role, child, rest, hentry, -, hrest⟩
        · exact .refl
        · have hchild := mem_children_of_mem_held hentry
          exact .head hchild ((ih child hchild).2 ⟨rest, hrest⟩)

theorem within_of_mem_parts {node part : Node} {address : List Step}
    (h : (address, part) ∈ node.parts) : part.Within node :=
  within_iff.2 ⟨address, h⟩

/-- Different nodes of a tree have different addresses. -/
theorem nodup_parts {node : Node} (h : node.Arranged) : (node.parts.map Prod.fst).Nodup := by
  induction node using Node.induction with
  | step node ih =>
      obtain ⟨hsorted, hbelow⟩ := arranged_iff.1 h
      rw [parts_eq, List.map_cons, List.nodup_cons, List.map_flatMap]
      constructor
      · intro hmem
        obtain ⟨entry, -, hroot⟩ := List.mem_flatMap.1 hmem
        rw [List.map_map] at hroot
        obtain ⟨part, -, hpart⟩ := List.mem_map.1 hroot
        cases hpart
      · rw [List.nodup_flatMap]
        constructor
        · intro entry hentry
          have hchild := mem_children_of_mem_held hentry
          rw [List.map_map]
          show (entry.2.parts.map
            ((⟨entry.1, entry.2.kind⟩ :: ·) ∘ (Prod.fst : _ → List Step))).Nodup
          rw [← List.map_map]
          exact (ih entry.2 hchild (hbelow _ hchild)).map (List.cons_injective)
        · refine (List.pairwise_map.1 (nodup_roles hsorted)).imp fun hroles => ?_
          intro address hfirst hsecond
          simp only [List.map_map] at hfirst hsecond
          obtain ⟨first, -, rfl⟩ := List.mem_map.1 hfirst
          obtain ⟨second, -, hsame⟩ := List.mem_map.1 hsecond
          exact hroles (Step.mk.inj (List.cons.inj hsame).1).1.symm

end Node

end SearchWire
