import KKTerm.Library.Text
import Mathlib.Data.List.Perm.Basic
import Mathlib.Data.List.Nodup

/-!
# Pane layouts

`ensureLayout` prunes the leaves whose panes are gone and appends the panes that
had no leaf. Where nothing is left of the tree it falls back to a default layout,
which has all the panes, and still appends those that the stale tree did not know.
-/

namespace Workspace

open List

abbrev PaneId := List Char

structure WorkspacePane where
  id : PaneId

inductive SplitOrientation where
  | horizontal
  | vertical

inductive LayoutNode where
  | leaf (paneId : PaneId)
  | split (orientation : SplitOrientation) (children : List LayoutNode)

namespace LayoutNode

mutual

def walkLeaves : LayoutNode → List PaneId
  | leaf paneId => [paneId]
  | split _ children => walkChildren children

def walkChildren : List LayoutNode → List PaneId
  | [] => []
  | child :: rest => child.walkLeaves ++ walkChildren rest

end

mutual

/-- A split that loses all its children goes with them; with one left it stays. -/
def pruneMissingLeaves (paneIds : List PaneId) : LayoutNode → Option LayoutNode
  | leaf paneId => if paneId ∈ paneIds then some (leaf paneId) else none
  | split orientation children =>
    match pruneChildren paneIds children with
    | [] => none
    | child :: rest => some (split orientation (child :: rest))

def pruneChildren (paneIds : List PaneId) : List LayoutNode → List LayoutNode
  | [] => []
  | child :: rest =>
    match child.pruneMissingLeaves paneIds with
    | none => pruneChildren paneIds rest
    | some kept => kept :: pruneChildren paneIds rest

end

def leafOrder (layout : Option LayoutNode) : List PaneId :=
  (layout.map walkLeaves).getD []

def leaves (panes : List WorkspacePane) : List LayoutNode :=
  panes.map (fun pane => leaf pane.id)

def defaultLayoutFor : List WorkspacePane → Option LayoutNode
  | [] => none
  | [pane] => some (leaf pane.id)
  | panes => some (split .horizontal (leaves panes))

def appendLeaf (node : Option LayoutNode) (paneId : PaneId) : LayoutNode :=
  match node with
  | none => leaf paneId
  | some (split orientation children) => split orientation (children ++ [leaf paneId])
  | some (leaf other) => split .horizontal [leaf other, leaf paneId]

def ensureLayout (layout : Option LayoutNode) (panes : List WorkspacePane) : Option LayoutNode :=
  match layout with
  | none => defaultLayoutFor panes
  | some node =>
    let known := node.walkLeaves
    let paneIds := panes.map WorkspacePane.id
    let missing := panes.filter (fun pane => pane.id ∉ known)
    let next := (node.pruneMissingLeaves paneIds).or (defaultLayoutFor panes)
    missing.foldl (fun next pane => some (appendLeaf next pane.id)) next

variable {paneIds : List PaneId} {panes : List WorkspacePane}

lemma walkChildren_append (front back : List LayoutNode) :
    walkChildren (front ++ back) = walkChildren front ++ walkChildren back := by
  induction front with
  | nil => rfl
  | cons child rest ih => rw [cons_append, walkChildren, walkChildren, ih, append_assoc]

lemma walkChildren_leaves : walkChildren (leaves panes) = panes.map WorkspacePane.id := by
  induction panes with
  | nil => rfl
  | cons pane rest ih => exact congrArg (pane.id :: ·) ih

lemma leafOrder_default : leafOrder (defaultLayoutFor panes) = panes.map WorkspacePane.id := by
  match panes with
  | [] => rfl
  | [pane] => rfl
  | first :: second :: rest => exact walkChildren_leaves

lemma leafOrder_append (node : Option LayoutNode) (paneId : PaneId) :
    leafOrder (some (appendLeaf node paneId)) = leafOrder node ++ [paneId] := by
  match node with
  | none => rfl
  | some (leaf other) => rfl
  | some (split orientation children) => exact walkChildren_append children [leaf paneId]

lemma leafOrder_foldl (node : Option LayoutNode) :
    leafOrder (panes.foldl (fun next pane => some (appendLeaf next pane.id)) node) =
      leafOrder node ++ panes.map WorkspacePane.id := by
  induction panes generalizing node with
  | nil => exact (append_nil _).symm
  | cons pane rest ih =>
    rw [foldl_cons, ih, leafOrder_append, append_assoc]
    rfl

mutual

theorem leafOrder_prune (paneIds : List PaneId) (node : LayoutNode) :
    leafOrder (node.pruneMissingLeaves paneIds) = node.walkLeaves.filter (· ∈ paneIds) := by
  match node with
  | leaf paneId =>
    rw [pruneMissingLeaves, walkLeaves]
    by_cases member : paneId ∈ paneIds
    · rw [if_pos member, filter_singleton, decide_eq_true member]
      rfl
    · rw [if_neg member, filter_singleton, decide_eq_false member]
      rfl
  | split orientation children =>
    have kept := walkChildren_prune paneIds children
    rw [pruneMissingLeaves, walkLeaves, ← kept]
    cases pruneChildren paneIds children with
    | nil => rfl
    | cons child rest => rfl

theorem walkChildren_prune (paneIds : List PaneId) (children : List LayoutNode) :
    walkChildren (pruneChildren paneIds children) =
      (walkChildren children).filter (· ∈ paneIds) := by
  match children with
  | [] => rfl
  | child :: rest =>
    have first := leafOrder_prune paneIds child
    rw [walkChildren, filter_append, ← first, ← walkChildren_prune paneIds rest, pruneChildren]
    cases child.pruneMissingLeaves paneIds with
    | none => rfl
    | some kept => rfl

end

mutual

theorem prune_has_leaf {paneIds : List PaneId} {node kept : LayoutNode}
    (h : node.pruneMissingLeaves paneIds = some kept) : kept.walkLeaves ≠ [] := by
  match node with
  | leaf paneId =>
    rw [pruneMissingLeaves] at h
    split at h
    · cases h
      exact cons_ne_nil paneId []
    · cases h
  | split orientation children =>
    rw [pruneMissingLeaves] at h
    split at h
    · cases h
    · rename_i child rest pruned
      cases h
      have first := pruneChildren_has_leaf children child (by rw [pruned]; exact mem_cons_self)
      exact fun empty => first (append_eq_nil_iff.mp empty).1

theorem pruneChildren_has_leaf {paneIds : List PaneId} (children : List LayoutNode) :
    ∀ kept ∈ pruneChildren paneIds children, kept.walkLeaves ≠ [] := by
  match children with
  | [] => nofun
  | child :: rest =>
    intro kept member
    rw [pruneChildren] at member
    split at member
    · exact pruneChildren_has_leaf rest kept member
    · rename_i first pruned
      rcases mem_cons.mp member with rfl | later
      · exact prune_has_leaf pruned
      · exact pruneChildren_has_leaf rest kept later

end

variable {node : LayoutNode}

lemma prune_none_of_stale (stale : ∀ paneId ∈ node.walkLeaves, paneId ∉ paneIds) :
    node.pruneMissingLeaves paneIds = none := by
  have order := leafOrder_prune paneIds node
  rw [filter_eq_nil_iff.mpr (by simpa using stale)] at order
  cases pruned : node.pruneMissingLeaves paneIds with
  | none => rfl
  | some kept =>
    rw [pruned] at order
    exact absurd order (prune_has_leaf pruned)

lemma prune_some_of_shared {paneId : PaneId} (leaf : paneId ∈ node.walkLeaves)
    (pane : paneId ∈ paneIds) : ∃ kept, node.pruneMissingLeaves paneIds = some kept := by
  have order := leafOrder_prune paneIds node
  cases pruned : node.pruneMissingLeaves paneIds with
  | some kept => exact ⟨kept, rfl⟩
  | none =>
    have member : paneId ∈ node.walkLeaves.filter (· ∈ paneIds) :=
      mem_filter.mpr ⟨leaf, decide_eq_true pane⟩
    rw [← order, pruned] at member
    cases member

/-- The panes that a tree has no leaf for. -/
def missingIds (node : LayoutNode) (panes : List WorkspacePane) : List PaneId :=
  (panes.map WorkspacePane.id).filter (· ∉ node.walkLeaves)

lemma map_id_missing (node : LayoutNode) (panes : List WorkspacePane) :
    (panes.filter (fun pane => pane.id ∉ node.walkLeaves)).map WorkspacePane.id =
      missingIds node panes := by
  rw [missingIds, filter_map]
  rfl

/-- With a pane in common, the surviving leaves are followed by the missing ones. -/
lemma ensure_shared {pane : WorkspacePane} (member : pane ∈ panes)
    (leaf : pane.id ∈ node.walkLeaves) :
    leafOrder (ensureLayout (some node) panes) =
      node.walkLeaves.filter (· ∈ panes.map WorkspacePane.id) ++ missingIds node panes := by
  obtain ⟨kept, pruned⟩ := prune_some_of_shared leaf (mem_map_of_mem member)
  have order := leafOrder_prune (panes.map WorkspacePane.id) node
  rw [pruned] at order
  simp only [ensureLayout, pruned, Option.some_or]
  rw [leafOrder_foldl, map_id_missing, order]

lemma ensure_stale (stale : ∀ pane ∈ panes, pane.id ∉ node.walkLeaves) :
    leafOrder (ensureLayout (some node) panes) =
      panes.map WorkspacePane.id ++ panes.map WorkspacePane.id := by
  have pruned : node.pruneMissingLeaves (panes.map WorkspacePane.id) = none := by
    refine prune_none_of_stale (fun paneId leaf pane => ?_)
    obtain ⟨known, member, rfl⟩ := mem_map.mp pane
    exact stale known member leaf
  have missing : panes.filter (fun pane => pane.id ∉ node.walkLeaves) = panes :=
    filter_eq_self.mpr (by simpa using stale)
  simp only [ensureLayout, pruned, Option.none_or, missing]
  rw [leafOrder_foldl, leafOrder_default]

lemma ensure_defined {layout : Option LayoutNode} (some_pane : panes ≠ []) :
    ∃ next, ensureLayout layout panes = some next := by
  have appended : ∀ (more : List WorkspacePane) (node : LayoutNode),
      ∃ next, more.foldl (fun next pane => some (appendLeaf next pane.id)) (some node) =
        some next := by
    intro more
    induction more with
    | nil => exact fun node => ⟨node, rfl⟩
    | cons pane rest ih => exact fun node => ih (appendLeaf (some node) pane.id)
  have default : ∃ node, defaultLayoutFor panes = some node := by
    match panes with
    | [] => contradiction
    | [pane] => exact ⟨_, rfl⟩
    | first :: second :: rest => exact ⟨_, rfl⟩
  obtain ⟨fallback, default⟩ := default
  cases layout with
  | none => exact ⟨fallback, default⟩
  | some node =>
    rw [ensureLayout, default]
    cases node.pruneMissingLeaves (panes.map WorkspacePane.id) with
    | none => exact appended _ fallback
    | some kept => exact appended _ kept

/-- The leaves are the panes, each once; the leaves that survive keep their order;
and a second pass over the result changes nothing. -/
structure Reconciled (node : LayoutNode) (panes : List WorkspacePane) (next : LayoutNode) :
    Prop where
  complete : (leafOrder (some next)).Perm (panes.map WorkspacePane.id)
  distinct : (leafOrder (some next)).Nodup
  ordered : (leafOrder (some next)).filter (· ∈ node.walkLeaves) =
    node.walkLeaves.filter (· ∈ panes.map WorkspacePane.id)
  stable : leafOrder (ensureLayout (some next) panes) = leafOrder (some next)

lemma stable_of_perm {next : LayoutNode} (some_pane : panes ≠ [])
    (complete : next.walkLeaves.Perm (panes.map WorkspacePane.id)) :
    leafOrder (ensureLayout (some next) panes) = next.walkLeaves := by
  obtain ⟨pane, rest, rfl⟩ := exists_cons_of_ne_nil some_pane
  have leaf : pane.id ∈ next.walkLeaves := complete.mem_iff.mpr mem_cons_self
  have none_missing : missingIds next (pane :: rest) = [] := by
    refine filter_eq_nil_iff.mpr (fun paneId member => ?_)
    simpa using complete.mem_iff.mpr member
  have all_kept : next.walkLeaves.filter (· ∈ (pane :: rest).map WorkspacePane.id) =
      next.walkLeaves := by
    refine filter_eq_self.mpr (fun paneId member => ?_)
    exact decide_eq_true (complete.mem_iff.mp member)
  rw [ensure_shared mem_cons_self leaf, none_missing, all_kept, append_nil]

lemma reconciled_of_shared {next : LayoutNode} {pane : WorkspacePane}
    (distinct_leaves : node.walkLeaves.Nodup) (distinct_panes : (panes.map WorkspacePane.id).Nodup)
    (member : pane ∈ panes) (leaf : pane.id ∈ node.walkLeaves)
    (defined : ensureLayout (some node) panes = some next) : Reconciled node panes next := by
  have order : next.walkLeaves = node.walkLeaves.filter (· ∈ panes.map WorkspacePane.id) ++
      missingIds node panes := by
    have shared := ensure_shared member leaf
    rw [defined] at shared
    exact shared
  have survivors_known : ∀ paneId ∈ node.walkLeaves.filter (· ∈ panes.map WorkspacePane.id),
      paneId ∈ node.walkLeaves := fun _ survivor => mem_of_mem_filter survivor
  have missing_unknown : ∀ paneId ∈ missingIds node panes, paneId ∉ node.walkLeaves :=
    fun _ missing => of_decide_eq_true (mem_filter.mp missing).2
  have distinct : next.walkLeaves.Nodup := by
    rw [order]
    refine nodup_append.mpr ⟨distinct_leaves.filter _, distinct_panes.filter _, ?_⟩
    rintro paneId survivor _ missing rfl
    exact missing_unknown paneId missing (survivors_known paneId survivor)
  have complete : next.walkLeaves.Perm (panes.map WorkspacePane.id) := by
    refine (perm_ext_iff_of_nodup distinct distinct_panes).mpr (fun paneId => ?_)
    rw [order, missingIds, mem_append, mem_filter, mem_filter]
    by_cases known : paneId ∈ node.walkLeaves <;> simp [known]
  refine ⟨complete, distinct, ?_, stable_of_perm (ne_nil_of_mem member) complete⟩
  have kept := filter_eq_self.mpr (fun paneId survivor =>
    decide_eq_true (survivors_known paneId survivor))
  have dropped := filter_eq_nil_iff.mpr (fun paneId missing =>
    (decide_eq_false (missing_unknown paneId missing) ▸ Bool.false_ne_true :
      ¬ decide (paneId ∈ node.walkLeaves) = true))
  show next.walkLeaves.filter (· ∈ node.walkLeaves) = _
  rw [order, filter_append, kept, dropped, append_nil]

end LayoutNode

open LayoutNode

/-- For a tree of distinct leaves and a non-empty list of distinct panes the result
is defined; it reconciles the two exactly when some pane has a leaf in the tree. -/
theorem layout_reconciled (node : LayoutNode) (panes : List WorkspacePane)
    (distinct_leaves : (leafOrder (some node)).Nodup)
    (distinct_panes : (panes.map WorkspacePane.id).Nodup) (some_pane : panes ≠ []) :
    ∃ next, ensureLayout (some node) panes = some next ∧
      (Reconciled node panes next ↔ ∃ pane ∈ panes, pane.id ∈ leafOrder (some node)) := by
  obtain ⟨next, defined⟩ := @ensure_defined panes (some node) some_pane
  refine ⟨next, defined, ?_⟩
  constructor
  · intro reconciled
    by_contra stale
    have twice := ensure_stale (fun pane member leaf => stale ⟨pane, member, leaf⟩)
    have length := congrArg List.length twice
    rw [defined, length_append, reconciled.complete.length_eq, length_map] at length
    have positive := length_pos_of_ne_nil some_pane
    omega
  · rintro ⟨pane, member, leaf⟩
    exact reconciled_of_shared distinct_leaves distinct_panes member leaf defined

def twoPanes : List WorkspacePane :=
  [⟨['a']⟩, ⟨['b']⟩]

theorem stale_leaf_replaced :
    ∃ next, ensureLayout (some (.split .vertical [.leaf ['x'], .leaf ['b']])) twoPanes = some next ∧
      (Reconciled (.split .vertical [.leaf ['x'], .leaf ['b']]) twoPanes next ↔
        ∃ pane ∈ twoPanes,
          pane.id ∈ leafOrder (some (.split .vertical [.leaf ['x'], .leaf ['b']]))) :=
  layout_reconciled _ twoPanes (by decide) (by decide) (by decide)

/-- A tree that shares no pane: its replacement shows the pane twice. -/
theorem stale_tree_doubles_panes :
    leafOrder (ensureLayout (some (.leaf ['x'])) [⟨['a']⟩]) = [['a'], ['a']] ∧
    ¬ ∃ next, ensureLayout (some (.leaf ['x'])) [⟨['a']⟩] = some next ∧
      (leafOrder (some next)).Nodup :=
  ⟨rfl, fun ⟨_, defined, distinct⟩ => by
    cases defined
    exact absurd distinct (by decide)⟩

end Workspace
