import KKTerm.Workspace.Layout

/-!
# Splitting a pane

A new leaf is put beside the target, into the split that holds it where that has the
orientation, else into a new split in the place of the target.
-/

namespace Workspace

open List Option

deriving instance DecidableEq for SplitOrientation

inductive SplitDirection where
  | left
  | right
  | up
  | down

def orientationFor : SplitDirection → SplitOrientation
  | .right | .left => .horizontal
  | .up | .down => .vertical

def placeBefore : SplitDirection → Bool
  | .left | .up => true
  | .right | .down => false

/-- What the recursion carries along: the target, the side of it, and the new pane. -/
structure SplitRequest where
  focusedPaneId : Option PaneId
  orientation : SplitOrientation
  before : Bool
  newPaneId : PaneId

namespace LayoutNode

section
variable (r : SplitRequest)

/-- The new leaf and a node next to each other. -/
def beside (node : LayoutNode) : List LayoutNode :=
  if r.before then [leaf r.newPaneId, node] else [node, leaf r.newPaneId]

/-- The first loop, over the children that are leaves. -/
def splitLeafChild (parent : SplitOrientation) : List LayoutNode → Option (List LayoutNode)
  | [] => none
  | leaf paneId :: rest =>
    if some paneId = r.focusedPaneId then
      if parent = r.orientation then some (beside r (leaf paneId) ++ rest)
      else some (split r.orientation (beside r (leaf paneId)) :: rest)
    else (splitLeafChild parent rest).map (leaf paneId :: ·)
  | child :: rest => (splitLeafChild parent rest).map (child :: ·)

mutual

def trySplit : LayoutNode → Option LayoutNode
  | leaf paneId =>
    if some paneId = r.focusedPaneId then some (split r.orientation (beside r (leaf paneId)))
    else none
  | split parent children =>
    ((splitLeafChild r parent children).or (trySplitChild children)).map (split parent)

/-- The second loop, over the children that are splits. -/
def trySplitChild : List LayoutNode → Option (List LayoutNode)
  | [] => none
  | leaf paneId :: rest => (trySplitChild rest).map (leaf paneId :: ·)
  | split parent children :: rest =>
    match trySplit (split parent children) with
    | some updated => some (updated :: rest)
    | none => (trySplitChild rest).map (split parent children :: ·)

end

end

/-- An empty text is no pane. -/
def splitTarget (focusedPaneId : Option PaneId) (paneIds : List PaneId) : Option PaneId :=
  (focusedPaneId.filter (fun id => id ≠ [] ∧ id ∈ paneIds)).or paneIds.getLast?

def splitLayout (layout : Option LayoutNode) (focusedPaneId : Option PaneId)
    (direction : SplitDirection) (newPaneId : PaneId) (paneIds : List PaneId) : LayoutNode :=
  let r : SplitRequest :=
    { focusedPaneId := splitTarget focusedPaneId paneIds, orientation := orientationFor direction
      before := placeBefore direction, newPaneId }
  match layout with
  | none => leaf newPaneId
  | some layout => (trySplit r layout).getD (split r.orientation (beside r layout))

inductive Within (part : LayoutNode) : LayoutNode → Prop where
  | here : Within part part
  | child {orientation : SplitOrientation} {children : List LayoutNode} {node : LayoutNode} :
      node ∈ children → Within part node → Within part (split orientation children)

/-- The leaves with the new one next to an occurrence of the target. -/
def Inserted (before : Bool) (newPaneId target : PaneId) (old order : List PaneId) : Prop :=
  ∃ front back, old = front ++ target :: back ∧
    order = front ++ (if before then [newPaneId, target] else [target, newPaneId]) ++ back

/-- The new leaf and the target are children of one split. -/
def Siblings (orientation : SplitOrientation) (newPaneId target : PaneId) (node : LayoutNode) :
    Prop :=
  ∃ children, Within (split orientation children) node ∧
    leaf newPaneId ∈ children ∧ leaf target ∈ children

/-- The new leaf is in its place in what became of a node with these leaves. -/
def Placed (r : SplitRequest) (old : List PaneId) (updated : LayoutNode) : Prop :=
  ∃ target ∈ r.focusedPaneId, Inserted r.before r.newPaneId target old updated.walkLeaves ∧
    Siblings r.orientation r.newPaneId target updated

section
variable {r : SplitRequest} {parent : SplitOrientation}
  {updated : LayoutNode} {old : List PaneId} {rest children : List LayoutNode} {target : PaneId}

lemma mem_beside (node : LayoutNode) :
    leaf r.newPaneId ∈ beside r node ∧ node ∈ beside r node := by
  rw [beside]
  cases r.before <;> simp

lemma placed_beside (focused : target ∈ r.focusedPaneId) (rest : List LayoutNode) :
    Placed r (target :: walkChildren rest)
      (split r.orientation (beside r (leaf target) ++ rest)) := by
  obtain ⟨new, old⟩ := mem_beside (r := r) (leaf target)
  refine ⟨target, focused, ⟨[], walkChildren rest, rfl, ?_⟩, _, .here, mem_append_left rest new,
    mem_append_left rest old⟩
  rw [walkLeaves, walkChildren_append, beside]
  cases r.before <;> rfl

lemma placed_leaf (focused : target ∈ r.focusedPaneId) :
    Placed r [target]
      (split r.orientation (beside r (leaf target))) := by
  rw [← append_nil (beside r (leaf target))]
  exact placed_beside focused []

lemma Placed.head (h : Placed r old updated) :
    Placed r (old ++ walkChildren rest)
      (split parent (updated :: rest)) := by
  obtain ⟨target, focused, ⟨front, back, rfl, order⟩, pair, inside, both⟩ := h
  refine ⟨target, focused, ⟨front, back ++ walkChildren rest, by simp, ?_⟩, pair,
    .child mem_cons_self inside, both⟩
  simp [walkLeaves, walkChildren, order]

lemma Placed.tail (h : Placed r old (split parent children))
    (node : LayoutNode) : Placed r (node.walkLeaves ++ old)
      (split parent (node :: children)) := by
  obtain ⟨target, focused, ⟨front, back, rfl, order⟩, pair, inside, new, same⟩ := h
  rw [walkLeaves] at order
  refine ⟨target, focused, ⟨node.walkLeaves ++ front, back, by simp, ?_⟩, ?_⟩
  · simp [walkLeaves, walkChildren, order]
  · cases inside with
    | here => exact ⟨_, .here, mem_cons_of_mem node new, mem_cons_of_mem node same⟩
    | child member inside => exact ⟨pair, .child (mem_cons_of_mem node member) inside, new, same⟩

lemma splitLeafChild_spec (parent : SplitOrientation) (children : List LayoutNode) :
    (∀ updated ∈ splitLeafChild r parent children, Placed r (walkChildren children)
        (split parent updated)) ∧
    (splitLeafChild r parent children = none →
      ∀ target ∈ r.focusedPaneId, leaf target ∉ children) := by
  induction children with
  | nil => exact ⟨nofun, fun _ _ _ => not_mem_nil⟩
  | cons child rest ih =>
    rw [splitLeafChild.eq_def]
    split
    · contradiction
    · rename_i paneId rest' same
      cases same
      split
      · rename_i here
        split
        · rename_i orient
          subst orient
          exact ⟨by rintro _ ⟨⟩; exact placed_beside here.symm rest, nofun⟩
        · exact ⟨by rintro _ ⟨⟩; exact (placed_leaf here.symm).head, nofun⟩
      · rename_i elsewhere
        rw [Option.forall_mem_map, map_eq_none_iff]
        refine ⟨fun updated found => (ih.1 updated found).tail (leaf paneId), ?_⟩
        intro none_left target focused member
        rcases mem_cons.mp member with same | later
        · cases same
          exact elsewhere focused.symm
        · exact ih.2 none_left target focused later
    · rename_i plain same
      cases same
      rw [Option.forall_mem_map, map_eq_none_iff]
      refine ⟨fun updated found => (ih.1 updated found).tail child, ?_⟩
      intro none_left target focused member
      rcases mem_cons.mp member with same | later
      · exact plain target same.symm
      · exact ih.2 none_left target focused later

mutual

theorem trySplit_spec (node : LayoutNode) :
    (∀ updated ∈ trySplit r node, Placed r node.walkLeaves updated) ∧
    (trySplit r node = none →
      ∀ target ∈ r.focusedPaneId, target ∉ node.walkLeaves) := by
  match node with
  | leaf paneId =>
    rw [trySplit]
    split
    · rename_i here
      exact ⟨by rintro _ ⟨⟩; exact placed_leaf here.symm, nofun⟩
    · rename_i elsewhere
      refine ⟨nofun, fun _ target focused member => elsewhere ?_⟩
      obtain rfl := mem_singleton.mp member
      exact focused.symm
  | split parent children =>
    have first := splitLeafChild_spec (r := r) parent children
    have second := trySplitChild_spec children
    rw [trySplit, Option.forall_mem_map, map_eq_none_iff, or_eq_none_iff]
    constructor
    · intro updated found
      rcases or_eq_some_iff.mp found with leaf | ⟨-, deeper⟩
      · exact first.1 updated leaf
      · exact second.1 updated deeper parent
    · intro none_left target focused
      exact second.2 none_left.2 target focused (first.2 none_left.1 target focused)

theorem trySplitChild_spec (children : List LayoutNode) :
    (∀ updated ∈ trySplitChild r children, ∀ parent, Placed r (walkChildren children)
        (split parent updated)) ∧
    (trySplitChild r children = none →
      ∀ target ∈ r.focusedPaneId, leaf target ∉ children → target ∉ walkChildren children) := by
  match children with
  | [] => exact ⟨nofun, fun _ _ _ _ => not_mem_nil⟩
  | leaf paneId :: rest =>
    have later := trySplitChild_spec rest
    rw [trySplitChild, Option.forall_mem_map, map_eq_none_iff]
    refine ⟨fun updated found parent => (later.1 updated found parent).tail (leaf paneId), ?_⟩
    intro none_left target focused absent
    rw [mem_cons, not_or] at absent
    rw [walkChildren, walkLeaves, mem_append, mem_singleton, not_or]
    exact ⟨fun same => absent.1 (same ▸ rfl), later.2 none_left target focused absent.2⟩
  | split orientation' nodes :: rest =>
    have here := trySplit_spec (split orientation' nodes)
    have later := trySplitChild_spec rest
    rw [trySplitChild]
    split
    · rename_i updated found
      exact ⟨by rintro _ ⟨⟩ parent; exact (here.1 updated found).head, nofun⟩
    · rename_i missing
      rw [Option.forall_mem_map, map_eq_none_iff]
      refine ⟨fun updated found parent => (later.1 updated found parent).tail _, ?_⟩
      intro none_left target focused absent
      rw [mem_cons, not_or] at absent
      rw [walkChildren, mem_append, not_or]
      exact ⟨here.2 missing target focused, later.2 none_left target focused absent.2⟩

end

end

/-- The new leaf is put next to the target, as its sibling; without the target in the tree it is
the first or the last leaf. -/
theorem splitLayout_spec (layout : LayoutNode) (focusedPaneId : Option PaneId)
    (direction : SplitDirection) (newPaneId : PaneId) (paneIds : List PaneId) :
    let result := splitLayout (some layout) focusedPaneId direction newPaneId paneIds
    (∀ target ∈ splitTarget focusedPaneId paneIds, target ∈ layout.walkLeaves →
      Inserted (placeBefore direction) newPaneId target layout.walkLeaves result.walkLeaves ∧
      Siblings (orientationFor direction) newPaneId target result) ∧
    ((∀ target ∈ splitTarget focusedPaneId paneIds, target ∉ layout.walkLeaves) →
      result.walkLeaves = if placeBefore direction then newPaneId :: layout.walkLeaves
        else layout.walkLeaves ++ [newPaneId]) := by
  intro result
  let r : SplitRequest :=
    ⟨splitTarget focusedPaneId paneIds, orientationFor direction, placeBefore direction, newPaneId⟩
  obtain ⟨placed, absent⟩ := trySplit_spec (r := r) layout
  have whole : result = (trySplit r layout).getD (split r.orientation (beside r layout)) := rfl
  rw [whole]
  cases found : trySplit r layout with
  | some updated =>
    obtain ⟨target, focused, inserted, siblings⟩ := placed updated found
    constructor
    · intro other same _
      obtain rfl := mem_unique same focused
      exact ⟨inserted, siblings⟩
    · intro missing
      obtain ⟨front, back, leaves, -⟩ := inserted
      exact absurd (by simp [leaves]) (missing target focused)
  | none =>
    constructor
    · intro target focused member
      exact absurd member (absent found target focused)
    · intro _
      have side : r.before = placeBefore direction := rfl
      rw [getD_none, beside, side]
      cases placeBefore direction <;> simp [r, walkLeaves, walkChildren]

end LayoutNode

end Workspace
