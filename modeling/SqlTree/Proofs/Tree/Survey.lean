import SqlTree.Proofs.Tree.Position

/-!
# Surveys of a tree

A survey goes through a tree from left to right and lets every node say what it makes of the list
that its parts have given. A node can add to that list, and it can also drop it, which tells a
survey from what is collected: the parts of such a node do not show.
-/

namespace SqlTree

namespace Tree

theorem sizeOf_pos {c : Category} (tree : Tree c) : 0 < sizeOf tree := by
  cases tree <;> simp +arith

/-- The parts of a node are smaller than the node. -/
theorem sizeOf_part {c : Category} {tree : Tree c} {part : AnyTree} (member : part ∈ tree.parts) :
    sizeOf part.2 < sizeOf tree := by
  have columns : ∀ {node : Node Column} {nodes : List (Node Column)}, node ∈ nodes →
      sizeOf node < sizeOf nodes := fun member => List.sizeOf_lt_of_mem member
  cases tree <;>
    simp only [parts, List.mem_cons, List.mem_append, List.mem_map, List.not_mem_nil, or_false]
      at member <;>
    grind [Tree.sizeOf_pos]

/-- What the nodes of a tree make of what their parts have given, from left to right. -/
def survey {α : Type} (own : {c : Category} → Tree c → List α → List α) {c : Category}
    (tree : Tree c) : List α :=
  own tree (tree.parts.attach.flatMap fun part => part.1.2.survey own)
termination_by sizeOf tree
decreasing_by exact sizeOf_part part.2

/-- What a node makes of what its parts give; the recursion goes down along `Tree.parts`. -/
theorem survey_eq {α : Type} (own : {c : Category} → Tree c → List α → List α) {c : Category}
    (tree : Tree c) :
    tree.survey own = own tree (tree.parts.flatMap fun part => part.2.survey own) := by
  rw [survey, List.flatMap_def, List.flatMap_def,
    List.attach_map_val (f := fun part : AnyTree => part.2.survey own)]

end Tree

section Parts

variable {α : Type} (own : {c : Category} → Tree c → List α → List α)

def Slot.survey (s : Slot) (parts : s.Part) : List α :=
  (s.trees parts).flatMap fun part => part.2.survey own

@[simp]
theorem Slot.survey_tree {c : Category} (tree : Tree c) :
    (Slot.tree c).survey own tree = tree.survey own :=
  List.append_nil _

@[simp]
theorem Slot.survey_pair (s t : Slot) (first : s.Part) (second : t.Part) :
    (Slot.pair s t).survey own (first, second) = s.survey own first ++ t.survey own second :=
  List.flatMap_append

/-- A node makes something of what its parts give. -/
theorem Form.survey_build {c : Category} {s : Slot} (form : Form c s) (id : NodeId)
    (parts : s.Part) :
    (form.build id parts).survey own = own (form.build id parts) (s.survey own parts) := by
  rw [Tree.survey_eq, form.parts_build]
  rfl

end Parts

end SqlTree
