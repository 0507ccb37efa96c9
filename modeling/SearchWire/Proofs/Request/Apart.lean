import Mathlib.Data.List.Pairwise
import SearchWire.Proofs.Request.Arranged
import SearchWire.Proofs.Request.OwnFindings

/-!
# Places that cannot be confused

A finding shows an address as a text, in which the names of aggregations stand
as they are. A tree is `Node.Apart` when no named aggregation of a node has a
label, its name and its kind, that begins with the label of another one. In such
a tree findings about different nodes have different messages
(`Node.address_eq_of_message_eq`). Queries have no names, and names without a
dot are enough (`Node.apart_of_undotted`).
-/

namespace SearchWire

/-- Clauses at different places of a query show it at once. -/
theorem Role.clause_eq_of_text_eq {occurrence other : Occurrence} {position place : Nat}
    {kind ending : String} {rest after : String}
    (h : (⟨.clause occurrence position, kind⟩ : Step).text ++ rest =
      (⟨.clause other place, ending⟩ : Step).text ++ after) :
    Role.clause occurrence position = .clause other place := by
  have hchars := congrArg String.toList h
  simp only [Step.text, Role.text, String.toList_append, String.toList_ofList,
    List.append_assoc] at hchars
  have hclause := List.append_cancel_left hchars
  obtain rfl : occurrence = other := by
    cases occurrence <;> cases other <;> first | rfl | simp [Occurrence.text] at hclause
  have hposition := List.append_cancel_left (List.append_cancel_left hclause)
  rw [position_eq_of_digits hposition]

/-- What a finding shows of a named aggregation: its name and its kind. -/
def Aggregation.label (entry : String × Aggregation) : String :=
  entry.1 ++ "." ++ entry.2.kind

/-- Neither of two texts begins with the other. -/
def Diverge (first second : String) : Prop :=
  ¬ first.toList <+: second.toList ∧ ¬ second.toList <+: first.toList

theorem Diverge.symm {first second : String} (h : Diverge first second) : Diverge second first :=
  ⟨h.2, h.1⟩

/-- Texts that diverge stay different whatever follows them. -/
theorem Diverge.append_ne {first second : String} (h : Diverge first second)
    (rest other : String) : first ++ rest ≠ second ++ other := by
  intro hsame
  have hchars := congrArg String.toList hsame
  rw [String.toList_append, String.toList_append] at hchars
  rcases List.prefix_or_prefix_of_prefix (List.prefix_append first.toList rest.toList)
    (hchars ▸ List.prefix_append second.toList other.toList) with hprefix | hprefix
  · exact h.1 hprefix
  · exact h.2 hprefix

namespace Aggregation

theorem text_step_named (entry : String × Aggregation) :
    (⟨.named entry.1, entry.2.kind⟩ : Step).text = ".aggs." ++ label entry := by
  have hdot : ".aggs." = "." ++ "aggs." := rfl
  simp only [Step.text, Role.text, label, hdot, String.append_assoc]

/-- The labels of different names diverge when the names have no dot. -/
theorem diverge_label {first second : String × Aggregation} (h : first.1 ≠ second.1)
    (hfirst : '.' ∉ first.1.toList) (hsecond : '.' ∉ second.1.toList) :
    Diverge (label first) (label second) := by
  have hname (entry : String × Aggregation) (hentry : '.' ∉ entry.1.toList) (rest : List Char) :
      ((label entry).toList ++ rest).takeWhile (· != '.') = entry.1.toList := by
    have hlabel : (label entry).toList ++ rest =
        entry.1.toList ++ '.' :: (entry.2.kind.toList ++ rest) := by
      simp [label]
    rw [hlabel, List.takeWhile_append_of_pos fun c hc => by
        simpa using fun hdot : c = '.' => hentry (hdot ▸ hc),
      List.takeWhile_cons_of_neg (by decide), List.append_nil]
  have hnot {entry other : String × Aggregation} (hne : entry.1 ≠ other.1)
      (hentry : '.' ∉ entry.1.toList) (hother : '.' ∉ other.1.toList) :
      ¬ (label entry).toList <+: (label other).toList := by
    rintro ⟨rest, hrest⟩
    have hsame := hname other hother []
    rw [List.append_nil, ← hrest, hname entry hentry] at hsame
    exact hne (String.toList_injective hsame)
  exact ⟨hnot h hfirst hsecond, hnot (Ne.symm h) hsecond hfirst⟩

end Aggregation

/-- How a finding about a node itself goes on behind the path of the node. -/
inductive OwnTail : String → Prop where
  | here (rest : String) : OwnTail (": " ++ rest)
  | range (rest : String) : OwnTail (".ranges[" ++ rest)
  | nameless (rest : String) : OwnTail (".aggs: " ++ rest)
  | index (rest : String) : OwnTail (".indices[" ++ rest)

/-- A finding about a node itself does not look like one about a node that it holds. -/
theorem OwnTail.ne_step {tail : String} (h : OwnTail tail) (step : Step) (rest : String) :
    tail ≠ step.text ++ rest := by
  intro hsame
  have hchars := congrArg String.toList hsame
  obtain ⟨role, kind⟩ := step
  cases h <;> cases role with
  | clause occurrence position =>
      cases occurrence <;> simp [Step.text, Role.text, Occurrence.text] at hchars
  | nested | filter | query | named => simp [Step.text, Role.text] at hchars

namespace SearchRequest

theorem ownTail_of_mem_indexFindings {path : String} {indices : List String} {finding : Finding}
    {position : Nat} (h : finding ∈ indexFindings path position indices) :
    ∃ tail, OwnTail tail ∧ finding.message = path ++ tail := by
  induction indices generalizing position with
  | nil => cases h
  | cons index rest ih =>
      rcases List.mem_append.1 h with hindex | hrest
      · obtain ⟨-, rfl⟩ := mem_problemIf.1 hindex
        refine ⟨_, .index
          (String.ofList (Nat.toDigits 10 position) ++ "]: index name is required"), ?_⟩
        simp only [String.append_assoc]
      · exact ih hrest

end SearchRequest

namespace Aggregation

theorem ownTail_of_mem_located {path : String} {problems : List AggregationProblem}
    {finding : Finding} (h : finding ∈ located problems path) :
    ∃ tail, OwnTail tail ∧ finding.message = path ++ tail := by
  obtain ⟨problem, -, rfl⟩ := List.mem_map.1 h
  have hmessage : (problem.located path).message =
      path ++ (problem.place ++ ": " ++ problem.message) := by
    simp only [AggregationProblem.located, String.append_assoc]
  refine ⟨_, ?_, hmessage⟩
  cases problem with
  | boundNotFinite | emptyRange | wholeRange =>
      simp only [AggregationProblem.place, String.append_assoc]
      exact .range _
  | noField | unknownMetric | idleThreshold | percentOutside | idleSort | includedTwice
  | excludedTwice | noInterval | emptyInterval | noRange | noFilter =>
      simp only [AggregationProblem.place, String.empty_append]
      exact .here _

theorem ownTail_of_mem_nameFindingsAll {path : String} {children : List (String × Aggregation)}
    {finding : Finding} (h : finding ∈ nameFindingsAll (path ++ ".aggs") children) :
    ∃ tail, OwnTail tail ∧ finding.message = path ++ tail := by
  obtain ⟨entry, -, hname⟩ := List.mem_flatMap.1 h
  obtain ⟨-, rfl⟩ := mem_problemIf.1 hname
  refine ⟨_, .nameless "aggregation name is required", ?_⟩
  rw [String.append_assoc]
  rfl

end Aggregation

namespace Node

/-- A finding about a node itself goes on behind the path as such findings do. -/
theorem ownTail_of_mem_ownFindings {path : String} {node : Node} {finding : Finding}
    (h : finding ∈ node.ownFindings path) :
    ∃ tail, OwnTail tail ∧ finding.message = path ++ tail := by
  cases node with
  | query held =>
      obtain ⟨problem, -, rfl⟩ := List.mem_map.1 h
      exact ⟨_, .here problem.message, String.append_assoc ..⟩
  | aggregation parent =>
      cases parent with
      | leaf held => exact Aggregation.ownTail_of_mem_located h
      | bucket division children =>
          rcases List.mem_append.1 h with hproblem | hname
          · exact Aggregation.ownTail_of_mem_located hproblem
          · exact Aggregation.ownTail_of_mem_nameFindingsAll hname
  | search request =>
      rcases List.mem_append.1 h with hindex | hname
      · exact SearchRequest.ownTail_of_mem_indexFindings hindex
      · exact Aggregation.ownTail_of_mem_nameFindingsAll hname

/-- The labels of the named aggregations of a node diverge. -/
def LabelsDiverge (node : Node) : Prop :=
  node.aggregations.Pairwise fun first second =>
    Diverge (Aggregation.label first) (Aggregation.label second)

/-- The labels of the named aggregations diverge at every node of a tree. -/
def Apart (node : Node) : Prop :=
  ∀ part : Node, part.Within node → part.LabelsDiverge

theorem apart_iff {node : Node} :
    node.Apart ↔ node.LabelsDiverge ∧ ∀ child ∈ node.children, child.Apart :=
  forall_within_iff

/-- Queries hold no aggregations, so no labels can be confused. -/
theorem apart_query (held : Query) : (Node.query held).Apart := by
  intro part hpart
  obtain ⟨query, rfl⟩ := eq_query_of_within hpart
  exact List.Pairwise.nil

/-- Names without a dot cannot be confused. -/
theorem apart_of_undotted {node : Node} (harranged : node.Arranged)
    (hnames : ∀ part : Node, part.Within node → ∀ entry ∈ part.aggregations,
      '.' ∉ entry.1.toList) : node.Apart := by
  intro part hpart
  have hne : part.aggregations.Pairwise fun first second => first.1 ≠ second.1 :=
    List.pairwise_map.1 (harranged part hpart).nodup
  refine hne.imp_of_mem fun hfirst hsecond h => ?_
  exact Aggregation.diverge_label h (hnames part hpart _ hfirst) (hnames part hpart _ hsecond)

/-- Named aggregations whose labels diverge show their steps at once. -/
theorem named_eq_of_text_eq {named : List (String × Aggregation)}
    (hlabels : named.Pairwise fun first second =>
      Diverge (Aggregation.label first) (Aggregation.label second))
    {first second : Role × Node} (hfirst : first ∈ namedRoles named)
    (hsecond : second ∈ namedRoles named) {rest other : String}
    (h : (⟨first.1, first.2.kind⟩ : Step).text ++ rest =
      (⟨second.1, second.2.kind⟩ : Step).text ++ other) : first = second := by
  obtain ⟨entry, hentry, rfl⟩ := List.mem_map.1 hfirst
  obtain ⟨twin, htwin, rfl⟩ := List.mem_map.1 hsecond
  by_contra hne
  have : Std.Symm fun first second : String × Aggregation =>
      Diverge (Aggregation.label first) (Aggregation.label second) := ⟨fun _ _ => Diverge.symm⟩
  have hdiverge : Diverge (Aggregation.label entry) (Aggregation.label twin) :=
    hlabels.forall hentry htwin fun hsame => hne (by rw [hsame])
  have htext : (⟨.named entry.1, entry.2.kind⟩ : Step).text ++ rest =
      (⟨.named twin.1, twin.2.kind⟩ : Step).text ++ other := h
  rw [Aggregation.text_step_named, Aggregation.text_step_named, String.append_assoc,
    String.append_assoc] at htext
  exact hdiverge.append_ne rest other (String.append_right_inj _ |>.1 htext)

/-- A node holds one query in a role. -/
theorem query_eq_of_mem {role : Role} {asked : Option Query} {first second : Role × Node}
    (hfirst : first ∈ asked.toList.map fun inner => (role, .query inner))
    (hsecond : second ∈ asked.toList.map fun inner => (role, .query inner)) : first = second := by
  obtain ⟨query, hquery, rfl⟩ := List.mem_map.1 hfirst
  obtain ⟨other, hother, rfl⟩ := List.mem_map.1 hsecond
  obtain rfl : query = other :=
    Option.some.inj ((Option.mem_toList.1 hquery).symm.trans (Option.mem_toList.1 hother))
  rfl

/-- A query and named aggregations beside it show which of them is meant. -/
theorem query_or_named_eq_of_text_eq {role : Role} (hrole : role = .filter ∨ role = .query)
    {asked : Option Query} {named : List (String × Aggregation)}
    (hlabels : named.Pairwise fun first second =>
      Diverge (Aggregation.label first) (Aggregation.label second))
    {first second : Role × Node}
    (hfirst : first ∈ (asked.toList.map fun inner => (role, .query inner)) ++ namedRoles named)
    (hsecond : second ∈ (asked.toList.map fun inner => (role, .query inner)) ++ namedRoles named)
    {rest other : String}
    (h : (⟨first.1, first.2.kind⟩ : Step).text ++ rest =
      (⟨second.1, second.2.kind⟩ : Step).text ++ other) : first = second := by
  -- the query is not taken for a named aggregation
  have hne (kind name ending rest other : String) :
      (⟨role, kind⟩ : Step).text ++ rest ≠ (⟨.named name, ending⟩ : Step).text ++ other := by
    intro hsame
    have hchars := congrArg String.toList hsame
    rcases hrole with rfl | rfl <;> simp [Step.text, Role.text] at hchars
  rcases List.mem_append.1 hfirst with hquery | hnamed <;>
    rcases List.mem_append.1 hsecond with hother | htwin
  · exact query_eq_of_mem hquery hother
  · obtain ⟨query, -, rfl⟩ := List.mem_map.1 hquery
    obtain ⟨entry, -, rfl⟩ := List.mem_map.1 htwin
    exact absurd h (hne _ _ _ _ _)
  · obtain ⟨query, -, rfl⟩ := List.mem_map.1 hother
    obtain ⟨entry, -, rfl⟩ := List.mem_map.1 hnamed
    exact absurd h.symm (hne _ _ _ _ _)
  · exact named_eq_of_text_eq hlabels hnamed htwin h

/-- The nodes that a boolean query holds are its clauses. -/
theorem exists_clause_of_mem_held {must mustNot should filter : List Query} {options : BoolOptions}
    {entry : Role × Node} (h : entry ∈ held (.query (.bool must mustNot should filter options))) :
    ∃ occurrence position, entry.1 = .clause occurrence position := by
  simp only [held, List.mem_append] at h
  rcases h with ((h | h) | h) | h <;>
    exact ⟨_, exists_of_mem_clauses (List.mem_map_of_mem h)⟩

/-- The text of a step shows which of the nodes that a node holds is meant as soon as the labels
diverge. -/
theorem held_eq_of_text_eq {node : Node} (hlabels : node.LabelsDiverge)
    {first second : Role × Node} (hfirst : first ∈ node.held) (hsecond : second ∈ node.held)
    {rest other : String}
    (h : (⟨first.1, first.2.kind⟩ : Step).text ++ rest =
      (⟨second.1, second.2.kind⟩ : Step).text ++ other) : first = second := by
  cases node with
  | query parent =>
      cases parent with
      | leaf body => cases hfirst
      | nested path asked options => exact query_eq_of_mem hfirst hsecond
      | bool must mustNot should filter options =>
          obtain ⟨occurrence, position, hrole⟩ := exists_clause_of_mem_held hfirst
          obtain ⟨twin, place, htwin⟩ := exists_clause_of_mem_held hsecond
          rw [hrole, htwin] at h
          have hroles : ((held (.query (.bool must mustNot should filter options))).map
              Prod.fst).Nodup := nodup_roles Named.Sorted.nil
          refine List.inj_on_of_nodup_map hroles hfirst hsecond ?_
          rw [hrole, htwin, Role.clause_eq_of_text_eq h]
  | aggregation parent =>
      cases parent with
      | leaf body => cases hfirst
      | bucket division children =>
          exact query_or_named_eq_of_text_eq (.inl rfl) hlabels hfirst hsecond h
  | search request => exact query_or_named_eq_of_text_eq (.inr rfl) hlabels hfirst hsecond h

/-- A finding about a node does not have the message of one about a node below. -/
theorem message_ne_of_below {path : String} {node part : Node} {step : Step} {rest : List Step}
    {finding twin : Finding} (hfinding : finding ∈ node.ownFindings path)
    (htwin : twin ∈ part.ownFindings (path ++ addressText (step :: rest))) :
    finding.message ≠ twin.message := by
  intro h
  obtain ⟨tail, htail, hmessage⟩ := ownTail_of_mem_ownFindings hfinding
  obtain ⟨after, -, hafter⟩ := ownTail_of_mem_ownFindings htwin
  rw [hmessage, hafter, addressText, String.append_assoc, String.append_assoc] at h
  exact htail.ne_step step _ (String.append_right_inj _ |>.1 h)

/-- Findings about different nodes of a tree that is apart have different messages. -/
theorem address_eq_of_message_eq {node : Node} (hnode : node.Apart) {path : String}
    {address place : List Step} {part other : Node} (hpart : (address, part) ∈ node.parts)
    (hother : (place, other) ∈ node.parts) {finding twin : Finding}
    (hfinding : finding ∈ part.ownFindings (path ++ addressText address))
    (htwin : twin ∈ other.ownFindings (path ++ addressText place))
    (h : finding.message = twin.message) : address = place := by
  induction address generalizing node path place with
  | nil =>
      cases place with
      | nil => rfl
      | cons step rest =>
          rw [addressText, String.append_empty] at hfinding
          exact absurd h (message_ne_of_below hfinding htwin)
  | cons step rest ih =>
      cases place with
      | nil =>
          rw [addressText, String.append_empty] at htwin
          exact absurd h.symm (message_ne_of_below htwin hfinding)
      | cons twinStep twinRest =>
          obtain ⟨role, child, _, hheld, hsame, hbelow⟩ :=
            (mem_parts_iff.1 hpart).resolve_left fun hroot => List.cons_ne_nil _ _ hroot.1
          obtain ⟨rfl, rfl⟩ := List.cons.inj hsame
          obtain ⟨twinRole, twinChild, _, htwinHeld, htwinSame, htwinBelow⟩ :=
            (mem_parts_iff.1 hother).resolve_left fun hroot => List.cons_ne_nil _ _ hroot.1
          obtain ⟨rfl, rfl⟩ := List.cons.inj htwinSame
          rw [addressText, ← String.append_assoc] at hfinding htwin
          -- the messages agree from the first step on, so the steps lead to one child
          obtain ⟨hlabels, hchildren⟩ := apart_iff.1 hnode
          have hentry : (role, child) = (twinRole, twinChild) := by
            obtain ⟨tail, -, hmessage⟩ := ownTail_of_mem_ownFindings hfinding
            obtain ⟨after, -, hafter⟩ := ownTail_of_mem_ownFindings htwin
            rw [hmessage, hafter] at h
            simp only [String.append_assoc] at h
            exact held_eq_of_text_eq hlabels hheld htwinHeld (String.append_right_inj _ |>.1 h)
          obtain ⟨rfl, rfl⟩ := Prod.mk.inj hentry
          have hchild : child.Apart := hchildren child (mem_children_of_mem_held hheld)
          rw [ih hchild hbelow htwinBelow hfinding htwin]

end Node

end SearchWire
