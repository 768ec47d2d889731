import Mathlib.Data.List.Flatten
import QueryNames.Proofs.Address.Order

/-!
The addresses inside of a node. Main statements: they are exactly the addresses that lead to a node,
each once, in the order in which a visit goes.
-/

namespace QueryNames.Node

/-- The nodes that stand directly in a node, each with the step that leads to it. -/
def children (node : Node) : List (Step × Node) :=
  Slot.all.flatMap fun slot =>
    (node.held slot).zipIdx.map fun entry => (⟨slot, entry.2⟩, entry.1)

theorem mem_children {node inner : Node} {step : Step} :
    (step, inner) ∈ node.children ↔ (node.held step.slot)[step.index]? = some inner := by
  obtain ⟨slot, index⟩ := step
  simp only [children, List.mem_flatMap, List.mem_map, Prod.exists, List.mem_zipIdx_iff_getElem?,
    Prod.mk.injEq, Step.mk.injEq]
  constructor
  · rintro ⟨_, -, _, _, found, ⟨rfl, rfl⟩, rfl⟩
    exact found
  · intro found
    exact ⟨slot, slot.mem_all, inner, index, found, ⟨rfl, rfl⟩, rfl⟩

theorem pairwise_children (node : Node) : node.children.Pairwise (·.1 < ·.1) := by
  rw [children, List.pairwise_flatMap]
  constructor
  · intro slot _
    rw [List.pairwise_map]
    have indexes : ((node.held slot).zipIdx.map Prod.snd).Pairwise (· < ·) := by
      rw [List.zipIdx_map_snd]
      exact List.pairwise_lt_range' 1
    exact (List.pairwise_map.1 indexes).imp fun earlier => Step.lt_of_index earlier
  · apply Slot.pairwise_all.imp
    intro a b earlier
    simp only [List.mem_map]
    rintro _ ⟨_, -, rfl⟩ _ ⟨_, -, rfl⟩
    exact Step.lt_of_slot earlier

theorem outline_eq_children (node : Node) :
    node.outline = .node node (node.children.map (·.2.outline)) := by
  have entries (slot : Slot) :
      (node.held slot).map outline = (node.held slot).zipIdx.map (outline ∘ Prod.fst) := by
    rw [← List.map_map, List.zipIdx_map_fst]
  rw [outline_eq, children, List.map_flatMap]
  simp only [entries, List.map_map]
  rfl

theorem nodes_lt_of_mem {node : Node} {child : Step × Node} (member : child ∈ node.children) :
    child.2.outline.nodes.length < node.outline.nodes.length := by
  have inside : child.2.outline.nodes.Sublist (node.children.flatMap (·.2.outline.nodes)) := by
    simpa using List.Sublist.flatMap (List.singleton_sublist.2 member) (·.2.outline.nodes)
  rw [outline_eq_children node, Outline.nodes, Outline.nodesOfAll_eq_flatMap, List.flatMap_map]
  exact Nat.lt_succ_of_le inside.length_le

/-- What holds of a node as soon as it holds of all that stand directly in it holds of every
node. -/
@[elab_as_elim]
theorem inward_induction {P : Node → Prop}
    (inward : ∀ node : Node, (∀ child ∈ node.children, P child.2) → P node) (node : Node) :
    P node :=
  inward node fun child member =>
    have := nodes_lt_of_mem member
    inward_induction inward child.2
termination_by node.outline.nodes.length

def addresses (node : Node) : List Address :=
  [] :: node.children.attach.flatMap fun child => child.1.2.addresses.map (child.1.1 :: ·)
termination_by node.outline.nodes.length
decreasing_by exact nodes_lt_of_mem child.2

theorem addresses_eq (node : Node) :
    node.addresses =
      [] :: node.children.flatMap fun child => child.2.addresses.map (child.1 :: ·) := by
  rw [addresses]
  conv_rhs => rw [← List.attach_map_subtype_val node.children, List.flatMap_map]

/-- The node at an address, if it leads to one. -/
def at? (node : Node) : Address → Option Node
  | [] => some node
  | step :: rest => (node.held step.slot)[step.index]?.bind (at? · rest)

theorem at?_of_mem {node : Node} {child : Step × Node} (member : child ∈ node.children)
    (rest : Address) : node.at? (child.1 :: rest) = child.2.at? rest := by
  rw [at?, mem_children.1 member, Option.bind_some]

theorem cons_mem_addresses {node : Node} {step : Step} {rest : Address} :
    step :: rest ∈ node.addresses ↔
      ∃ inner, (step, inner) ∈ node.children ∧ rest ∈ inner.addresses := by
  simp only [addresses_eq node, List.mem_cons, List.mem_flatMap, List.mem_map, List.cons.injEq,
    reduceCtorEq, false_or, Prod.exists]
  constructor
  · rintro ⟨_, inner, child, _, among, rfl, rfl⟩
    exact ⟨inner, child, among⟩
  · rintro ⟨inner, child, among⟩
    exact ⟨step, inner, child, rest, among, rfl, rfl⟩

/-- Exactly the addresses that lead to a node are listed. -/
theorem mem_addresses {node : Node} {address : Address} :
    address ∈ node.addresses ↔ (node.at? address).isSome := by
  induction address generalizing node with
  | nil => simp [addresses_eq node, at?]
  | cons step rest ih =>
      simp only [cons_mem_addresses, mem_children, ih, at?]
      cases (node.held step.slot)[step.index]? <;> simp

theorem at?_append (node : Node) (above rest : Address) :
    node.at? (above ++ rest) = (node.at? above).bind (·.at? rest) := by
  induction above generalizing node with
  | nil => rfl
  | cons step above ih =>
      rw [List.cons_append, at?, at?, Option.bind_assoc]
      exact Option.bind_congr fun inner _ => ih inner

theorem mem_addresses_of_prefix {node : Node} {above address : Address}
    (isPrefix : above <+: address) (isAddress : address ∈ node.addresses) :
    above ∈ node.addresses := by
  obtain ⟨rest, rfl⟩ := isPrefix
  rw [mem_addresses, at?_append] at isAddress
  exact mem_addresses.2 (Option.isSome_of_isSome_bind isAddress)

theorem pairwise_addresses (node : Node) : node.addresses.Pairwise (· < ·) := by
  induction node using inward_induction with
  | inward node ih =>
      rw [addresses_eq, List.pairwise_cons, List.pairwise_flatMap]
      refine ⟨?_, ?_, ?_⟩
      · simp only [List.mem_flatMap, List.mem_map]
        rintro _ ⟨child, -, rest, -, rfl⟩
        exact List.nil_lt_cons _ _
      · intro child member
        rw [List.pairwise_map]
        exact (ih child member).imp fun earlier => List.cons_lt_cons_iff.2 (.inr ⟨rfl, earlier⟩)
      · apply node.pairwise_children.imp
        simp only [List.mem_map]
        rintro a b earlier _ ⟨_, -, rfl⟩ _ ⟨_, -, rfl⟩
        exact List.cons_lt_cons_iff.2 (.inl earlier)

end QueryNames.Node
