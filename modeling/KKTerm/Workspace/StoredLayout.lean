import KKTerm.Workspace.SplitLayout

/-!
# Stored layouts

A layout is stored with the indexes of its panes, and read back with new panes in the same order.
Both ways a leaf without a pane is dropped, and a split with one child left is that child.
-/

namespace Workspace

open List WorkspacePane LayoutNode

inductive StoredLayoutNode where
  | leaf (paneIndex : Nat)
  | split (orientation : SplitOrientation) (children : List StoredLayoutNode)

/-- What is stored of each pane besides is not read with the layout. -/
structure StoredConnectionLayout where
  paneCount : Nat
  layout : StoredLayoutNode

/-- A split with the children that are left. -/
def collapse {node : Type} (split : List node → node) : List node → Option node
  | [] => none
  | [child] => some child
  | children => some (split children)

mutual

def serializeNode (indexById : PaneId → Option Nat) : LayoutNode → Option StoredLayoutNode
  | .leaf paneId => (indexById paneId).map .leaf
  | .split orientation children =>
    collapse (.split orientation) (serializeChildren indexById children)

def serializeChildren (indexById : PaneId → Option Nat) : List LayoutNode → List StoredLayoutNode
  | [] => []
  | child :: rest => (serializeNode indexById child).toList ++ serializeChildren indexById rest

end

abbrev WorkspacePane.ids (panes : List WorkspacePane) : List PaneId :=
  panes.map (·.id)

def indexById (panes : List WorkspacePane) (paneId : PaneId) : Option Nat :=
  ((ids panes).zipIdx.reverse.find? (fun entry => entry.1 = paneId)).map (·.2)

def serializeLayout (layout : LayoutNode) (panes : List WorkspacePane) :
    Option StoredConnectionLayout :=
  (serializeNode (indexById panes) layout).map ({ paneCount := panes.length, layout := · })

mutual

/-- An empty id counts as none. -/
def hydrateLayout (paneIds : List PaneId) : StoredLayoutNode → Option LayoutNode
  | .leaf paneIndex => (paneIds[paneIndex]?.filter (· ≠ [])).map .leaf
  | .split orientation children => collapse (.split orientation) (hydrateChildren paneIds children)

def hydrateChildren (paneIds : List PaneId) : List StoredLayoutNode → List LayoutNode
  | [] => []
  | child :: rest => (hydrateLayout paneIds child).toList ++ hydrateChildren paneIds rest

end

lemma indexById_eq_some {panes : List WorkspacePane} (distinct : (ids panes).Nodup)
    {paneId : PaneId} {i : Nat} :
    indexById panes paneId = some i ↔ (ids panes)[i]? = some paneId := by
  have listed : ∀ entry ∈ (ids panes).zipIdx, (ids panes)[entry.2]? = some entry.1 :=
    fun entry member => mem_zipIdx_iff_getElem?.mp member
  constructor
  · intro found
    obtain ⟨entry, first, rfl⟩ := Option.map_eq_some_iff.mp found
    have same : entry.1 = paneId := by simpa using find?_some first
    rw [listed entry (mem_reverse.mp (mem_of_find?_eq_some first)), same]
  · intro pane
    have member : (paneId, i) ∈ (ids panes).zipIdx := mem_zipIdx_iff_getElem?.mpr pane
    rw [indexById]
    cases first : (ids panes).zipIdx.reverse.find? (fun entry => entry.1 = paneId) with
    | none => exact absurd (decide_eq_true rfl) (find?_eq_none.mp first _ (mem_reverse.mpr member))
    | some entry =>
      have same : entry.1 = paneId := by simpa using find?_some first
      have place := listed entry (mem_reverse.mp (mem_of_find?_eq_some first))
      have inside := (List.getElem?_eq_some_iff.mp place).1
      rw [Option.map_some, (getElem?_inj inside distinct).mp (place.trans (same ▸ pane.symm))]

/-- No split of the layout has fewer than two children. -/
def Branching (node : LayoutNode) : Prop :=
  ∀ orientation children, (LayoutNode.split orientation children).Within node → 2 ≤ children.length

/-- What is read back for a stored node is stored the same way again. -/
structure ReadBack (paneIds : List PaneId) (index : PaneId → Option Nat)
    (stored : StoredLayoutNode) (node : LayoutNode) : Prop where
  hydrated : hydrateLayout paneIds stored = some node
  branching : Branching node
  again : serializeNode index node = some stored

section
variable {paneIds : List PaneId} {index index' : PaneId → Option Nat}

lemma collapse_eq_none {node : Type} {split : List node → node} {children : List node}
    (missing : collapse split children = none) : children = [] := by
  match children with
  | [] => rfl
  | [child] => cases missing
  | first :: second :: rest => cases missing

lemma ReadBack.children {stored : List StoredLayoutNode} {nodes : List LayoutNode}
    (h : Forall₂ (ReadBack paneIds index) stored nodes) :
    hydrateChildren paneIds stored = nodes ∧ serializeChildren index nodes = stored ∧
      ∀ node ∈ nodes, Branching node := by
  induction h with
  | nil => exact ⟨rfl, rfl, nofun⟩
  | cons first _ ih =>
    rw [hydrateChildren, serializeChildren, first.hydrated, first.again, ih.1, ih.2.1]
    exact ⟨rfl, rfl, forall_mem_cons.mpr ⟨first.branching, ih.2.2⟩⟩

/-- A stored split is read back as the split of what its children are read back as. -/
lemma ReadBack.split {stored : List StoredLayoutNode} {nodes : List LayoutNode}
    (h : Forall₂ (ReadBack paneIds index) stored nodes) (orientation : SplitOrientation)
    {whole : StoredLayoutNode} (kept : collapse (.split orientation) stored = some whole) :
    ∃ node, ReadBack paneIds index whole node ∧
      node.walkLeaves = walkChildren nodes := by
  obtain ⟨hydrated, again, branching⟩ := ReadBack.children h
  match stored, nodes, h with
  | [only], [node], .cons one .nil =>
    cases kept
    exact ⟨node, one, (append_nil _).symm⟩
  | first :: second :: rest, one :: two :: more, _ =>
    cases kept
    refine ⟨.split orientation (one :: two :: more), ⟨?_, ?_, ?_⟩, rfl⟩
    · rw [hydrateLayout, hydrated]
      rfl
    · rintro _ _ (_ | ⟨member, inside⟩)
      · exact Nat.le_add_left 2 _
      · exact branching _ member _ _ inside
    · rw [serializeNode, again]
      rfl

/-- Each pane of the first index has a new one in its place. -/
def Replaced (index : PaneId → Option Nat) (paneIds : List PaneId)
    (index' : PaneId → Option Nat) : Prop :=
  ∀ id i, index id = some i → ∃ new, paneIds[i]? = some new ∧ new ≠ [] ∧ index' new = some i

mutual

theorem serializeNode_spec (agree : Replaced index paneIds index') (node : LayoutNode) :
    match serializeNode index node with
    | none => node.walkLeaves.filter (fun id => (index id).isSome) = []
    | some stored => ∃ back, ReadBack paneIds index' stored back ∧
      Forall₂ (fun id new => ∃ i, index id = some i ∧ paneIds[i]? = some new)
        (node.walkLeaves.filter (fun id => (index id).isSome)) back.walkLeaves := by
  match node with
  | .leaf paneId =>
    rw [serializeNode, walkLeaves]
    cases known : index paneId with
    | none => simp [known]
    | some i =>
      obtain ⟨new, found, named, again⟩ := agree paneId i known
      refine ⟨.leaf new, ⟨?_, nofun, ?_⟩, ?_⟩
      · simp [hydrateLayout, found, named]
      · rw [serializeNode, again, Option.map_some]
      · rw [filter_singleton, known]
        exact .cons ⟨i, known, found⟩ .nil
  | .split orientation children =>
    obtain ⟨nodes, read, leaves⟩ := serializeChildren_spec agree children
    rw [serializeNode, walkLeaves]
    split
    · rename_i missing
      rw [collapse_eq_none missing] at read
      cases read
      exact forall₂_nil_right_iff.mp leaves
    · rename_i whole kept
      obtain ⟨back, read, same⟩ := ReadBack.split read orientation kept
      exact ⟨back, read, same ▸ leaves⟩

theorem serializeChildren_spec (agree : Replaced index paneIds index')
    (children : List LayoutNode) :
    ∃ nodes, Forall₂ (ReadBack paneIds index') (serializeChildren index children) nodes ∧
      Forall₂ (fun id new => ∃ i, index id = some i ∧ paneIds[i]? = some new)
        ((walkChildren children).filter (fun id => (index id).isSome))
        (walkChildren nodes) := by
  match children with
  | [] => exact ⟨[], .nil, .nil⟩
  | child :: rest =>
    obtain ⟨nodes, read, leaves⟩ := serializeChildren_spec agree rest
    have here := serializeNode_spec agree child
    rw [serializeChildren, walkChildren, filter_append]
    split at here
    · rename_i missing
      rw [missing, here]
      exact ⟨nodes, read, leaves⟩
    · rename_i stored kept
      obtain ⟨back, first, own⟩ := here
      rw [kept]
      exact ⟨back :: nodes, .cons first read, rel_append own leaves⟩

end

end

/-- The stored layout is read back with the new panes in the places of the known ones, each split
has two children or more, and it is stored the same way again. -/
lemma stored_layout_round_trip (layout : LayoutNode) (panes newPanes : List WorkspacePane)
    (distinct : (ids panes).Nodup) (stored : StoredConnectionLayout)
    (saved : serializeLayout layout panes = some stored) (count : newPanes.length = panes.length)
    (distinct' : (ids newPanes).Nodup) (named : ∀ pane ∈ newPanes, pane.id ≠ []) :
    ∃ back, hydrateLayout (ids newPanes) stored.layout = some back ∧
      Forall₂ (fun old new => ∃ i : Nat, (ids panes)[i]? = some old ∧
          (ids newPanes)[i]? = some new)
        (layout.walkLeaves.filter (· ∈ ids panes)) back.walkLeaves ∧
      Branching back ∧ serializeLayout back newPanes = some stored := by
  have agree : Replaced (indexById panes) (ids newPanes) (indexById newPanes) := by
    intro id i known
    rw [indexById_eq_some distinct] at known
    have inside : i < (ids newPanes).length := by
      rw [length_map, count, ← length_map (·.id)]
      exact (List.getElem?_eq_some_iff.mp known).1
    obtain ⟨pane, member, same⟩ := mem_map.mp (getElem_mem inside)
    refine ⟨_, getElem?_eq_getElem inside, same ▸ named pane member, ?_⟩
    exact (indexById_eq_some distinct').mpr (getElem?_eq_getElem inside)
  have known : ∀ id, (indexById panes id).isSome = decide (id ∈ ids panes) := by
    intro id
    rw [Bool.eq_iff_iff, Option.isSome_iff_exists, decide_eq_true_eq, mem_iff_getElem?]
    exact exists_congr fun i => indexById_eq_some distinct
  obtain ⟨node, serialized, rfl⟩ := Option.map_eq_some_iff.mp saved
  have spec := serializeNode_spec agree layout
  rw [serialized] at spec
  obtain ⟨back, read, leaves⟩ := spec
  refine ⟨back, read.hydrated, ?_, read.branching, ?_⟩
  · simp only [known, indexById_eq_some distinct] at leaves
    exact leaves
  · rw [serializeLayout, read.again, count, Option.map_some]

lemma single_pane_round_trip :
    ∃ back, hydrateLayout ["n".toList] (.leaf 0) = some back ∧
      Forall₂ (fun old new => ∃ i : Nat, [['a']][i]? = some old ∧ ["n".toList][i]? = some new)
        ((LayoutNode.leaf ['a']).walkLeaves.filter (· ∈ [['a']])) back.walkLeaves ∧
      Branching back ∧ serializeLayout back [⟨"n".toList⟩] = some ⟨1, .leaf 0⟩ :=
  stored_layout_round_trip (.leaf ['a']) [⟨['a']⟩] [⟨"n".toList⟩] (by decide) ⟨1, .leaf 0⟩ rfl rfl
    (by decide) (by decide)

end Workspace
