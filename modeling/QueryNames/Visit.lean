import QueryNames.Outline

/-!
Visits: going through an outline from the top, in the order of the text, and past what the visitor
does not want to enter.
-/

namespace QueryNames

/-- What a visitor does at a node: its new state, and whether it goes on to the nodes inside. -/
structure Visitor (σ : Type) where
  enter : Node → σ → σ × Bool

namespace Visitor

/-- A visitor that goes everywhere. -/
def everywhere (note : Node → σ → σ) : Visitor σ := ⟨fun node s => (note node s, true)⟩

end Visitor

namespace Outline

mutual

def visit (v : Visitor σ) : Outline → σ → σ
  | .node top inside, s =>
      let (s, deeper) := v.enter top s
      if deeper then visitAll v inside s else s

def visitAll (v : Visitor σ) : List Outline → σ → σ
  | [], s => s
  | outline :: outlines, s => visitAll v outlines (outline.visit v s)

end

mutual

/-- All nodes, each before those inside it. -/
def nodes : Outline → List Node
  | .node top inside => top :: nodesOfAll inside

def nodesOfAll : List Outline → List Node
  | [] => []
  | outline :: outlines => outline.nodes ++ nodesOfAll outlines

end

theorem visitAll_append (v : Visitor σ) (a b : List Outline) (s : σ) :
    visitAll v (a ++ b) s = visitAll v b (visitAll v a s) := by
  induction a generalizing s with
  | nil => simp [visitAll]
  | cons outline a ih => simp [visitAll, ih]

mutual

theorem visit_everywhere (note : Node → σ → σ) (outline : Outline) (s : σ) :
    outline.visit (.everywhere note) s = outline.nodes.foldl (fun s node => note node s) s := by
  match outline with
  | .node top inside =>
    simp [visit, nodes, Visitor.everywhere, ← visitAll_everywhere]

theorem visitAll_everywhere (note : Node → σ → σ) (outlines : List Outline) (s : σ) :
    visitAll (.everywhere note) outlines s =
      (nodesOfAll outlines).foldl (fun s node => note node s) s := by
  match outlines with
  | [] => simp [visitAll, nodesOfAll]
  | outline :: outlines =>
    simp [visitAll, nodesOfAll, visit_everywhere, visitAll_everywhere]

end

end Outline

end QueryNames
