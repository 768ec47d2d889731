import QueryNames.Proofs.Address.Node

/-!
Visits that do not enter some nodes. Main statement: the events of such a visit are those of a visit
that goes everywhere, without what is below the nodes that it comes to and does not enter.
-/

namespace QueryNames

/-- Notes each node that it comes to, and does not enter those that a rule names. -/
def Visitor.recording (skips : Node → Bool) : Visitor (List Node) where
  enter node events := (events ++ [node], !skips node)

def Script.events (script : Script) (skips : Node → Bool) : List Node :=
  script.outline.visit (.recording skips) []

theorem Outline.visit_recording_node (skips : Node → Bool) (top : Node) (inside : List Outline)
    (events : List Node) :
    (node top inside).visit (.recording skips) events =
      if skips top then events ++ [top]
      else visitAll (.recording skips) inside (events ++ [top]) := by
  cases skipped : skips top <;> simp [visit, Visitor.recording, skipped]

namespace Node

variable (skips : Node → Bool)

/-- Whether a visit comes to an address: it enters all nodes on the way. -/
def reaches (node : Node) : Address → Bool
  | [] => true
  | step :: rest =>
      !skips node && ((node.held step.slot)[step.index]?).any (reaches · rest)

def visited (node : Node) : List Address := node.addresses.filter (node.reaches skips)

theorem reaches_of_mem {node : Node} {child : Step × Node} (member : child ∈ node.children)
    (rest : Address) :
    node.reaches skips (child.1 :: rest) = (!skips node && child.2.reaches skips rest) := by
  rw [reaches, mem_children.1 member, Option.any_some]

theorem visited_eq (node : Node) :
    node.visited skips =
      [] :: if skips node then [] else
        node.children.flatMap fun child => (child.2.visited skips).map (child.1 :: ·) := by
  have inside (child : Step × Node) (member : child ∈ node.children) :
      (child.2.addresses.map (child.1 :: ·)).filter (node.reaches skips) =
        if skips node then [] else (child.2.visited skips).map (child.1 :: ·) := by
    rw [List.filter_map, Function.comp_def]
    simp only [reaches_of_mem skips member]
    cases skips node <;> simp [visited]
  rw [visited, addresses_eq, List.filter_cons_of_pos rfl, List.filter_flatMap,
    List.flatMap_congr inside]
  cases skips node <;> simp

/-- The children of a node one after the other, if each is visited as it should be. -/
theorem visitAll_recording {node : Node} {children : List (Step × Node)}
    (among : children ⊆ node.children)
    (each : ∀ child ∈ node.children, ∀ events : List Node,
      (child.2.outline.visit (.recording skips) events).map some =
        events.map some ++ (child.2.visited skips).map child.2.at?) (events : List Node) :
    (Outline.visitAll (.recording skips) (children.map (·.2.outline)) events).map some =
      events.map some ++
        (children.flatMap fun child =>
          (child.2.visited skips).map (child.1 :: ·)).map node.at? := by
  induction children generalizing events with
  | nil => simp [Outline.visitAll]
  | cons child children ih =>
      obtain ⟨member, among⟩ := List.cons_subset.1 among
      have first : ((child.2.visited skips).map (child.1 :: ·)).map node.at? =
          (child.2.visited skips).map child.2.at? := by
        rw [List.map_map]
        exact List.map_congr_left fun rest _ => at?_of_mem member rest
      rw [List.map_cons, Outline.visitAll, ih among, each child member, List.flatMap_cons,
        List.map_append, first, List.append_assoc]

theorem visit_recording (node : Node) (events : List Node) :
    (node.outline.visit (.recording skips) events).map some =
      events.map some ++ (node.visited skips).map node.at? := by
  induction node using inward_induction generalizing events with
  | inward node ih =>
      rw [outline_eq_children, Outline.visit_recording_node, visited_eq]
      by_cases skipped : skips node
      · simp [skipped, at?]
      · rw [if_neg skipped, if_neg skipped,
          visitAll_recording skips (List.Subset.refl _) fun child member events =>
            ih child member events]
        simp [at?]

theorem reaches_iff {node : Node} {address : Address} (isAddress : address ∈ node.addresses) :
    node.reaches skips address ↔
      ∀ above, above.IsAbove address → ∀ inner ∈ node.at? above, skips inner = false := by
  induction address generalizing node with
  | nil => simp [reaches, Address.isAbove_nil]
  | cons step rest ih =>
      obtain ⟨inner, member, isRest⟩ := cons_mem_addresses.1 isAddress
      have inward := at?_of_mem member
      have onward := reaches_of_mem skips member rest
      simp only at inward onward
      rw [onward, Bool.and_eq_true, Bool.not_eq_true', ih isRest]
      constructor
      · rintro ⟨enters, goesOn⟩ above isAbove
        rcases Address.isAbove_cons.1 isAbove with rfl | ⟨further, rfl, isFurther⟩
        · simpa [at?] using enters
        · rw [inward]
          exact goesOn further isFurther
      · intro all
        refine ⟨all [] (Address.isAbove_cons.2 (.inl rfl)) node rfl, fun above isAbove => ?_⟩
        rw [← inward]
        exact all (step :: above) (Address.isAbove_cons.2 (.inr ⟨above, rfl, isAbove⟩))

/-- A visit comes to an address unless it has come to a node above it that it does not enter. -/
theorem mem_visited {node : Node} {address : Address} (isAddress : address ∈ node.addresses) :
    address ∈ node.visited skips ↔
      ∀ above ∈ node.visited skips, above.IsAbove address →
        ∀ inner ∈ node.at? above, skips inner = false := by
  rw [visited, List.mem_filter, and_iff_right isAddress, reaches_iff skips isAddress]
  constructor
  · exact fun all above _ => all above
  · intro visited above isAbove
    -- the nodes above are entered one by one, from the top down
    induction above using Address.downward_induction with
    | downward above ih =>
      have isAddress := mem_addresses_of_prefix isAbove.1 isAddress
      apply visited above _ isAbove
      rw [List.mem_filter, reaches_iff skips isAddress]
      exact ⟨isAddress, fun higher isHigher => ih higher isHigher (isHigher.trans isAbove)⟩

/-- A visit that enters every node comes to every address. -/
theorem visited_everywhere (node : Node) : node.visited (fun _ => false) = node.addresses := by
  refine List.filter_eq_self.2 fun address isAddress => ?_
  exact (reaches_iff _ isAddress).2 fun _ _ _ _ => rfl

end Node

namespace Script

def at? (script : Script) (address : Address) : Option Node := (Node.script script).at? address

/-- The addresses of all nodes of a script, each once, in the order of a visit: a node before what
is inside of it, and what is inside of it all together. -/
structure InOrder (script : Script) (addresses : List Address) : Prop where
  complete : ∀ address, address ∈ addresses ↔ (script.at? address).isSome
  once : addresses.Nodup
  sorted : addresses.Pairwise (· < ·)
  together : ∀ address ∈ addresses, ∃ before below behind,
    addresses = before ++ address :: below ++ behind ∧
      ∀ other ∈ addresses, other ∈ below ↔ address.IsAbove other

theorem inOrder_addresses (script : Script) : script.InOrder (Node.script script).addresses where
  complete _ := Node.mem_addresses
  once := (Node.pairwise_addresses _).imp ne_of_lt
  sorted := Node.pairwise_addresses _
  together _ member := Address.together_below (Node.pairwise_addresses _) member

theorem events_eq (script : Script) (skips : Node → Bool) :
    (script.events skips).map some = ((Node.script script).visited skips).map script.at? :=
  Node.visit_recording skips (.script script) []

/-- A visit comes to every node of the tree once, in order. One that does not enter some nodes
leaves out what is below those of them that it comes to, and nothing else. -/
theorem events_pruned (script : Script) :
    ∃ addresses, script.InOrder addresses ∧
      (script.events fun _ => false).map some = addresses.map script.at? ∧
      ∀ skips : Node → Bool, ∃ visited : List Address, visited.Sublist addresses ∧
        (script.events skips).map some = visited.map script.at? ∧
        ∀ address ∈ addresses, address ∈ visited ↔
          ∀ above ∈ visited, above.IsAbove address →
            ∀ node ∈ script.at? above, skips node = false := by
  refine ⟨_, script.inOrder_addresses, ?_, fun skips => ?_⟩
  · rw [events_eq, Node.visited_everywhere]
  · refine ⟨(Node.script script).visited skips, List.filter_sublist, script.events_eq skips, ?_⟩
    exact fun address isAddress => Node.mem_visited skips isAddress

example :
    ((ParseResult.ofText "SELECT x FROM (SELECT y FROM B) AS d JOIN C ON 1 = 1").script.events
      fun
        | .source (.derived ..) => true
        | _ => false).flatMap (·.mentions.map (·.identifier.value)) = ["x", "C"] := by
  decide +kernel

end Script

end QueryNames
