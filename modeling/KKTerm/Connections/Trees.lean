import KKTerm.Connections.Kept

/-!
# The tree of a Workspace

In coherent tables the tree that is read for a Workspace has the folders and the
Connections that name the Workspace, each of them once.
-/

namespace Connections

open ParentLinks Places Relation Store List ConnectionFolder ParentTree

/-- The rows that are read from a folder or from the root are distinct. -/
lemma nodup_bySortOrder {ρ : Type} {sortOrder : ρ → Int} {name : ρ → List Char} {rows : List ρ}
    (distinct : rows.Nodup) : (bySortOrder sortOrder name rows).Nodup :=
  (perm_insertionSort _ rows).nodup_iff.mpr distinct

section Reading

variable {s : Store}

lemma mem_rootFolders {w : Id} {f : FolderRow} : f ∈ s.rootFoldersForWorkspace w ↔
    f ∈ s.folders ∧ f.parentFolderId = none ∧ f.workspaceId = some w := by
  rw [Store.rootFoldersForWorkspace, bySortOrder, mem_insertionSort, mem_filter, decide_eq_true_eq]

lemma mem_listConnections {folder : Option Id} {c : ConnectionRow} :
    c ∈ s.listConnectionsForFolder folder ↔ c ∈ s.connections ∧ c.folderId = folder := by
  rw [Store.listConnectionsForFolder, bySortOrder, mem_insertionSort, mem_filter, decide_eq_true_eq]

lemma mem_rootConnections {w : Id} {c : ConnectionRow} :
    c ∈ s.listRootConnectionsForWorkspace w ↔
      c ∈ s.connections ∧ c.folderId = none ∧ c.workspaceId = some w := by
  rw [Store.listRootConnectionsForWorkspace, bySortOrder, mem_insertionSort, mem_filter,
    decide_eq_true_eq]

/-- What a folder shows when it is read: itself and all folders below it, once each,
and the Connections in them. -/
structure Shows (s : Store) (row : FolderRow) (folder : ConnectionFolder) : Prop where
  once : folder.folderIds.Nodup
  below : ∀ x, x ∈ folder.folderIds ↔ ReflTransGen s.places.Under x row.id
  connections : folder.connectionIds =
    (folder.folderIds.flatMap (fun id => s.listConnectionsForFolder (some id))).map
      ConnectionRow.id

/-- Folders with nothing below them in common show nothing twice. -/
structure ShowAll (s : Store) (rows : List FolderRow) (folders : List ConnectionFolder) :
    Prop where
  once : (nestedFolderIds folders).Nodup
  below : ∀ x, x ∈ nestedFolderIds folders ↔
    ∃ row ∈ rows, ReflTransGen s.places.Under x row.id
  connections : nestedConnectionIds folders =
    ((nestedFolderIds folders).flatMap
      (fun id => s.listConnectionsForFolder (some id))).map ConnectionRow.id

lemma showAll_of_shows {rows : List FolderRow} {folders : List ConnectionFolder}
    (shows : Forall₂ (Shows s) rows folders) (ids : (rows.map FolderRow.id).Nodup)
    (apart : ∀ a ∈ rows, ∀ b ∈ rows, ∀ x, ReflTransGen s.places.Under x a.id →
      ReflTransGen s.places.Under x b.id → a.id = b.id) : ShowAll s rows folders := by
  induction shows with
  | nil => exact ⟨.nil, by simp [nestedFolderIds], rfl⟩
  | @cons row folder rows folders first rest ih =>
    obtain ⟨fresh, ids⟩ := nodup_cons.mp ids
    have later := ih ids (fun a ha b hb =>
      apart a (mem_cons_of_mem row ha) b (mem_cons_of_mem row hb))
    constructor
    · refine nodup_append.mpr ⟨first.once, later.once, ?_⟩
      rintro x inFirst y inLater rfl
      obtain ⟨other, member, path⟩ := (later.below x).mp inLater
      have same := apart row mem_cons_self other (mem_cons_of_mem row member) x
        ((first.below x).mp inFirst) path
      exact fresh (same ▸ mem_map_of_mem member)
    · intro x
      rw [nestedFolderIds, mem_append, first.below, later.below]
      simp
    · rw [nestedConnectionIds, nestedFolderIds,
        first.connections, later.connections, flatMap_append, map_append]

end Reading

namespace Store.InScope

variable {s : Store} (scope : s.InScope)
include scope

lemma nodup_folders : s.folders.Nodup := by
  have ids : s.folderIds.Nodup := ids_places ▸ Coherent.folderIds scope
  exact Nodup.of_map FolderRow.id ids

lemma nodup_map_id {rows : List FolderRow} (distinct : rows.Nodup)
    (home : ∀ f ∈ rows, f ∈ s.folders) : (rows.map FolderRow.id).Nodup :=
  distinct.map_on (fun f hf g hg same => scope.folder_unique (home f hf) (home g hg) same)

lemma getFolderById_returns {depth : Nat} {row : FolderRow} {height : Id → Nat}
    (rises : ∀ a b, s.places.Under a b → height a < height b) (deep : height row.id < depth) :
    ∃ folder, s.getFolderById depth row = some folder ∧ Shows s row folder := by
  have falls : ∀ a : FolderRow, ∀ b ∈ s.foldersForParent (some a.id),
      height b.id < height a.id := by
    intro a b member
    obtain ⟨home, up⟩ := mem_foldersForParent.mp member
    exact rises b.id a.id ⟨b.place, mem_map_of_mem home, rfl, up⟩
  refine build_returns falls ?_ deep
  intro a folders shows
  have children : ∀ b ∈ s.foldersForParent (some a.id),
      b ∈ s.folders ∧ s.places.Under b.id a.id := by
    intro b member
    obtain ⟨home, up⟩ := mem_foldersForParent.mp member
    exact ⟨home, b.place, mem_map_of_mem home, rfl, up⟩
  have all : ShowAll s (s.foldersForParent (some a.id)) folders := by
    refine showAll_of_shows shows ?_ ?_
    · exact scope.nodup_map_id (nodup_bySortOrder (scope.nodup_folders.filter _))
        (fun b member => (children b member).1)
    · intro b hb c hc x toB toC
      exact siblings_apart (Coherent.acyclic scope) (Coherent.single scope)
        (children b hb).2 (children c hc).2 toB toC
  constructor
  · refine nodup_cons.mpr ⟨?_, all.once⟩
    intro itself
    obtain ⟨b, member, path⟩ := (all.below a.id).mp itself
    exact Coherent.acyclic scope a.id (TransGen.tail' path (children b member).2)
  · intro x
    rw [ConnectionFolder.folderIds, mem_cons, all.below]
    constructor
    · rintro (rfl | ⟨b, member, path⟩)
      · exact .refl
      · exact path.tail (children b member).2
    · intro path
      rcases ReflTransGen.cases_tail path with same | ⟨y, before, place, member, rfl, up⟩
      · exact .inl same.symm
      · obtain ⟨f, home, rfl⟩ := mem_map.mp member
        exact .inr ⟨f, mem_foldersForParent.mpr ⟨home, up⟩, before⟩
  · rw [ConnectionFolder.connectionIds, ConnectionFolder.folderIds, all.connections,
      flatMap_cons, map_append]

lemma workspace_of_below {x top : Id} (path : ReflTransGen s.places.Under x top) {w : Id}
    {g : FolderRow} (home : g ∈ s.folders) (here : g.id = top) (named : g.workspaceId = some w) :
    ∃ f ∈ s.folders, f.id = x ∧ f.workspaceId = some w := by
  induction path using ReflTransGen.head_induction_on with
  | refl => exact ⟨g, home, here, named⟩
  | @head x y step _ ih =>
    obtain ⟨place, member, rfl, up⟩ := step
    obtain ⟨f, fHome, rfl⟩ := mem_map.mp member
    obtain ⟨p, pHome, same, agree⟩ := scope.folder_parent fHome up
    obtain ⟨q, qHome, same', column⟩ := ih
    cases scope.folder_unique pHome qHome (same.trans same'.symm)
    exact ⟨f, fHome, rfl, agree.symm.trans column⟩

/-- Above every folder there is a root folder of the same Workspace. -/
lemma exists_root {f : FolderRow} (home : f ∈ s.folders) :
    ∃ root ∈ s.folders, root.parentFolderId = none ∧ root.workspaceId = f.workspaceId ∧
      ReflTransGen s.places.Under f.id root.id := by
  have links : LinksFrom s.places.Under s.folderIds := by
    rintro a b ⟨place, member, rfl, -⟩
    obtain ⟨g, gHome, rfl⟩ := mem_map.mp member
    exact mem_map_of_mem gHome
  have parents : ∀ a b, s.places.Under a b → b ∈ s.folderIds := by
    intro a b step
    exact ids_places ▸ Coherent.parent_mem scope step
  obtain ⟨top, member, path, free⟩ := exists_top (Coherent.acyclic scope) links parents
    (mem_map_of_mem home)
  obtain ⟨root, rHome, rfl⟩ := mem_map.mp member
  obtain ⟨⟨w, -, named⟩, -⟩ := scope.folders root.place (mem_map_of_mem rHome)
  obtain ⟨g, gHome, same, column⟩ := scope.workspace_of_below path rHome rfl named
  cases scope.folder_unique gHome home same
  refine ⟨root, rHome, ?_, named.trans column.symm, path⟩
  cases up : root.parentFolderId with
  | none => rfl
  | some p => exact absurd ⟨root.place, mem_map_of_mem rHome, rfl, up⟩ (free p)

lemma tree_returns {w : Id} (trimmed : normalizeWorkspaceId w = w) :
    ∃ tree, s.listConnectionTreeForWorkspace w = some tree ∧
      ShowAll s (s.rootFoldersForWorkspace w) tree.folders ∧
      tree.connections = s.listRootConnectionsForWorkspace w := by
  obtain ⟨height, rises, bounded⟩ := scope.exists_height
  have each : ∀ row ∈ s.rootFoldersForWorkspace w, ∃ folder,
      s.getFolderById s.folders.length row = some folder ∧ Shows s row folder := by
    intro row member
    have home := (mem_rootFolders.mp member).1
    exact scope.getFolderById_returns rises (bounded row.id (mem_map_of_mem home))
  obtain ⟨folders, read, shows⟩ := Fallible.mapM_returns.mpr each
  refine ⟨{ connections := s.listRootConnectionsForWorkspace w, folders }, ?_, ?_, rfl⟩
  · rw [Store.listConnectionTreeForWorkspace]
    simp only [trimmed, read, Option.map_some]
  · refine showAll_of_shows shows ?_ ?_
    · exact scope.nodup_map_id (nodup_bySortOrder (scope.nodup_folders.filter _))
        (fun row member => (mem_rootFolders.mp member).1)
    · have free : ∀ a ∈ s.rootFoldersForWorkspace w, ∀ p, ¬ s.places.Under a.id p := by
        rintro a member p ⟨place, other, same, up⟩
        obtain ⟨home, root, -⟩ := mem_rootFolders.mp member
        obtain ⟨g, gHome, rfl⟩ := mem_map.mp other
        cases scope.folder_unique gHome home same
        cases root.symm.trans up
      intro a ha b hb x toA toB
      exact tops_apart (Coherent.single scope) (free a ha) (free b hb) toA toB

lemma mem_tree_folderIds {w x : Id} {folders : List ConnectionFolder}
    (all : ShowAll s (s.rootFoldersForWorkspace w) folders) :
    x ∈ nestedFolderIds folders ↔
      ∃ f ∈ s.folders, f.id = x ∧ f.workspaceId = some w := by
  rw [all.below]
  constructor
  · rintro ⟨root, member, path⟩
    obtain ⟨home, -, named⟩ := mem_rootFolders.mp member
    exact scope.workspace_of_below path home rfl named
  · rintro ⟨f, home, rfl, named⟩
    obtain ⟨root, rHome, free, same, path⟩ := scope.exists_root home
    exact ⟨root, mem_rootFolders.mpr ⟨rHome, free, same.trans named⟩, path⟩

lemma tree_connections {w : Id} {tree : ConnectionTree}
    (all : ShowAll s (s.rootFoldersForWorkspace w) tree.folders)
    (roots : tree.connections = s.listRootConnectionsForWorkspace w) :
    ∃ rows : List ConnectionRow, tree.connectionIds = rows.map ConnectionRow.id ∧ rows.Nodup ∧
      ∀ c, c ∈ rows ↔ c ∈ s.connections ∧ c.workspaceId = some w := by
  have distinct : s.connections.Nodup := by
    have ids : s.connectionIds.Nodup := connectionIds_places ▸ Coherent.connectionIds scope
    exact Nodup.of_map ConnectionRow.id ids
  refine ⟨s.listRootConnectionsForWorkspace w ++
    (nestedFolderIds tree.folders).flatMap
      (fun id => s.listConnectionsForFolder (some id)), ?_, ?_, ?_⟩
  · rw [ConnectionTree.connectionIds, all.connections, roots, map_append]
  · refine nodup_append.mpr ⟨nodup_bySortOrder (distinct.filter _), ?_, ?_⟩
    · refine nodup_flatMap.mpr ⟨fun id _ => nodup_bySortOrder (distinct.filter _), ?_⟩
      refine all.once.imp ?_
      intro a b different c inA inB
      have one := (mem_listConnections.mp inA).2
      have two := (mem_listConnections.mp inB).2
      exact different (Option.some.inj (one.symm.trans two))
    · rintro c atRoot d inside rfl
      obtain ⟨id, -, member⟩ := mem_flatMap.mp inside
      have one := (mem_rootConnections.mp atRoot).2.1
      have two := (mem_listConnections.mp member).2
      cases one.symm.trans two
  · intro c
    rw [mem_append, mem_rootConnections, mem_flatMap]
    constructor
    · rintro (⟨home, -, named⟩ | ⟨id, shown, member⟩)
      · exact ⟨home, named⟩
      · obtain ⟨home, inside⟩ := mem_listConnections.mp member
        obtain ⟨f, fHome, rfl, named⟩ := (scope.mem_tree_folderIds all).mp shown
        obtain ⟨g, gHome, same, agree⟩ := scope.connection_folder home inside
        cases scope.folder_unique fHome gHome same.symm
        exact ⟨home, agree.symm.trans named⟩
    · rintro ⟨home, named⟩
      cases inside : c.folderId with
      | none => exact .inl ⟨home, rfl, named⟩
      | some id =>
        obtain ⟨g, gHome, rfl, agree⟩ := scope.connection_folder home inside
        refine .inr ⟨g.id, ?_, mem_listConnections.mpr ⟨home, inside⟩⟩
        exact (scope.mem_tree_folderIds all).mpr ⟨g, gHome, rfl, agree.trans named⟩

end Store.InScope

end Connections

/-!
# The trees of the Workspaces

Each Connection is shown in the tree of the Workspace that its row names and in no
other, and a Workspace is deleted with what its tree shows. This fails once a folder
goes to another Workspace without what is in it, or a missing folder is made up.
-/

namespace Connections

open Fallible ParentLinks Relation Store List

/-- One folder names the other as its parent. -/
def Store.Under (s : Store) (child parent : Id) : Prop :=
  ∃ f ∈ s.folders, f.id = child ∧ f.parentFolderId = some parent

/-- A folder is in a folder of its own Workspace. -/
def Store.InOwnWorkspace (s : Store) (folderId workspaceId : Option Id) : Prop :=
  ∀ p ∈ folderId, ∃ f ∈ s.folders, f.id = p ∧ f.workspaceId = workspaceId

instance (s : Store) (folderId workspaceId : Option Id) :
    Decidable (s.InOwnWorkspace folderId workspaceId) :=
  inferInstanceAs (Decidable (∀ p ∈ folderId, ∃ f ∈ s.folders, f.id = p ∧ f.workspaceId = workspaceId))

/-- The Connection is in one tree, once, and it is the tree of the Workspace that its row names. -/
def Store.ShownOnce (s : Store) (c : ConnectionRow) : Prop :=
  ∃ w ∈ s.workspaceIds, c.workspaceId = some w ∧ ∀ v ∈ s.workspaceIds, ∃ tree,
    s.listConnectionTreeForWorkspace v = some tree ∧
      tree.connectionIds.count c.id = if v = w then 1 else 0

/-- What goes with a Workspace is what its tree shows. -/
def Store.DeletesShown (s : Store) (id : Id) (s' : Store) : Prop :=
  ∃ tree, s.listConnectionTreeForWorkspace id = some tree ∧
    s'.folders = s.folders.filter (·.id ∉ tree.folderIds) ∧
    s'.connections = s.connections.filter (·.id ∉ tree.connectionIds)

structure Store.WorkspaceTrees (s : Store) : Prop where
  acyclic : Acyclic s.Under
  folders : ∀ f ∈ s.folders, s.InOwnWorkspace f.parentFolderId f.workspaceId
  connections : ∀ c ∈ s.connections, s.InOwnWorkspace c.folderId c.workspaceId
  shown : ∀ c ∈ s.connections, s.ShownOnce c
  deletes : ∀ id s', deleteWorkspace s id = .ok s' → s.DeletesShown id s'

namespace Store.InScope

variable {s : Store} (scope : s.InScope)
include scope

lemma shownOnce {c : ConnectionRow} (home : c ∈ s.connections) : s.ShownOnce c := by
  obtain ⟨⟨w, known, named⟩, -⟩ := scope.connections c.place (mem_map_of_mem home)
  refine ⟨w, known, named, ?_⟩
  intro v workspace
  obtain ⟨tree, read, all, roots⟩ := scope.tree_returns (scope.trimmed v workspace)
  obtain ⟨rows, listed, distinct, member⟩ := scope.tree_connections all roots
  refine ⟨tree, read, ?_⟩
  have ids : s.connectionIds.Nodup := connectionIds_places ▸ Places.Coherent.connectionIds scope
  have unique : ∀ a ∈ s.connections, ∀ b ∈ s.connections, a.id = b.id → a = b :=
    fun a ha b hb same => inj_on_of_nodup_map ids ha hb same
  have once : (rows.map ConnectionRow.id).Nodup :=
    distinct.map_on (fun a ha b hb => unique a ((member a).mp ha).1 b ((member b).mp hb).1)
  have column : c.workspaceId = some w := named
  rw [listed, once.count]
  by_cases same : v = w
  · rw [if_pos same, if_pos]
    exact mem_map_of_mem ((member c).mpr ⟨home, same ▸ column⟩)
  · rw [if_neg same, if_neg]
    intro inside
    obtain ⟨d, shown, equal⟩ := mem_map.mp inside
    obtain ⟨dHome, other⟩ := (member d).mp shown
    cases unique d dHome c home equal
    exact same (Option.some.inj (other.symm.trans column))

lemma deletesShown {id : Id} {s' : Store} (h : deleteWorkspace s id = .ok s') :
    s.DeletesShown id s' := by
  obtain ⟨w, required, h⟩ := bind_eq_ok.mp h
  obtain ⟨row, found, h⟩ := bind_eq_ok.mp h
  obtain ⟨-, done⟩ := reject_bind_ok.mp h
  cases done
  have known : w ∈ s.workspaceIds := by
    have here : row.id = w := by simpa using find?_some (require_eq_ok.mp found)
    exact here ▸ mem_map_of_mem (mem_of_find?_eq_some (require_eq_ok.mp found))
  have trimmed := scope.trimmed w known
  have argument : normalizeWorkspaceId id = w := by
    obtain ⟨nonempty, done⟩ := reject_bind_ok.mp required
    cases done
    exact if_neg nonempty
  obtain ⟨tree, read, all, roots⟩ := scope.tree_returns trimmed
  have same : s.listConnectionTreeForWorkspace id = s.listConnectionTreeForWorkspace w := by
    rw [Store.listConnectionTreeForWorkspace, Store.listConnectionTreeForWorkspace, argument, trimmed]
  refine ⟨tree, same.trans read, ?_, ?_⟩
  · rw [scope.deleteWorkspaceRow_eq]
    refine filter_congr (fun f home => ?_)
    rw [decide_eq_decide, not_iff_not, ConnectionTree.folderIds, scope.mem_tree_folderIds all]
    constructor
    · intro named
      exact ⟨f, home, rfl, named⟩
    · rintro ⟨g, gHome, here, named⟩
      exact scope.folder_unique gHome home here ▸ named
  · rw [scope.deleteWorkspaceRow_eq]
    refine filter_congr (fun c home => ?_)
    obtain ⟨rows, listed, -, member⟩ := scope.tree_connections all roots
    have ids : s.connectionIds.Nodup := connectionIds_places ▸ Places.Coherent.connectionIds scope
    rw [decide_eq_decide, not_iff_not, listed]
    constructor
    · intro named
      exact mem_map_of_mem ((member c).mpr ⟨home, named⟩)
    · intro inside
      obtain ⟨d, shown, same⟩ := mem_map.mp inside
      obtain ⟨dHome, named⟩ := (member d).mp shown
      exact inj_on_of_nodup_map ids dHome home same ▸ named

end Store.InScope

/-- The trees stay right in every run that names folders that exist and moves a folder
to another Workspace only when it is empty. -/
theorem workspace_trees {calls : List Call}
    (stays : Runs.Along Store.serve (fun s call => call.Stays s) .initial calls) {s : Store}
    (ran : Runs.run Store.serve .initial calls = some s) : s.WorkspaceTrees := by
  have scope := inScope_run stays ran
  constructor
  · refine (Places.Coherent.acyclic scope).mono ?_
    rintro x y ⟨f, home, rfl, up⟩
    exact .single ⟨f.place, mem_map_of_mem home, rfl, up⟩
  · intro f home p up
    exact scope.folder_parent home up
  · intro c home p up
    exact scope.connection_folder home up
  · exact fun c home => scope.shownOnce home
  · exact fun id s' deleted => scope.deletesShown deleted

instance (s : Store) : (call : Call) → Decidable (call.Stays s)
  | .createConnectionFolder _ request =>
    inferInstanceAs (Decidable (s.Knows request.parentFolderId))
  | .createConnection _ request => inferInstanceAs (Decidable (s.Knows request.folderId))
  | .updateConnection request => inferInstanceAs (Decidable (s.Knows request.folderId))
  | .moveConnection request => inferInstanceAs (Decidable (s.Knows request.folderId))
  | .moveConnectionFolder request =>
    inferInstanceAs (Decidable (s.Knows request.parentFolderId ∧
      ∀ p ∈ normalizeOptionalId request.parentFolderId,
        s.folderWorkspaceId p = s.folderWorkspaceId (Text.trim request.id) ∨
          s.IsEmpty (Text.trim request.id)))
  | .renameConnectionFolder _ | .deleteConnectionFolder _ | .renameConnection _
  | .deleteConnection _ | .duplicateConnection _ _ | .createWorkspace _ _ | .deleteWorkspace _
  | .reorderWorkspaces _ => .isTrue trivial

/-- A Workspace with a Connection in a folder, and a folder in the Default one. -/
def opsCalls : List Call :=
  [.createWorkspace (fun n => ⟨1, n⟩)
      { name := "Ops".toList, icon := none, iconColor := none, iconBackgroundColor := none
        importConnectionIds := none },
    .createConnectionFolder ⟨2, 5⟩
      { name := "Prod".toList, parentFolderId := none, workspaceId := some "ops-1-0".toList
        iconDataUrl := none },
    .createConnection ⟨3, 6⟩
      { name := "db".toList, folderId := some "prod-2-5".toList, workspaceId := none
        checked := .ok () },
    .createConnectionFolder ⟨4, 7⟩
      { name := "Home".toList, parentFolderId := none, workspaceId := none, iconDataUrl := none }]

/-- The empty folder goes to the other Workspace, and a Connection follows it. -/
def followCalls : List Call :=
  opsCalls ++
    [.moveConnectionFolder
        { id := "home-4-7".toList, parentFolderId := some "prod-2-5".toList, targetIndex := 0 },
      .moveConnection { id := "db-3-6".toList, folderId := some "home-4-7".toList, targetIndex := 0 }]

theorem follow_workspace_trees :
    ∃ s, Runs.run Store.serve .initial followCalls = some s ∧
      s.connections.map (fun c => (c.folderId, c.workspaceId)) =
        [(some "home-4-7".toList, some "ops-1-0".toList)] ∧ s.WorkspaceTrees := by
  have ran : (Runs.run Store.serve .initial followCalls).map
      (fun s => s.connections.map (fun c => (c.folderId, c.workspaceId))) =
        some [(some "home-4-7".toList, some "ops-1-0".toList)] := by
    decide +kernel
  obtain ⟨s, ran, rows⟩ := Option.map_eq_some_iff.mp ran
  exact ⟨s, ran, rows, workspace_trees (by decide +kernel) ran⟩

/-- The folder with the Connection goes to the Default Workspace. -/
def strayCalls : List Call :=
  opsCalls ++
    [.moveConnectionFolder
      { id := "prod-2-5".toList, parentFolderId := some "home-4-7".toList, targetIndex := 0 }]

/-- The Connection is shown in the Default Workspace, is not shown in the other one, and
goes when the other one is deleted. -/
theorem moved_connection_is_lost :
    ∃ s, Runs.run Store.serve .initial strayCalls = some s ∧ ¬ s.WorkspaceTrees ∧
      (s.listConnectionTreeForWorkspace defaultWorkspaceId).map ConnectionTree.connectionIds =
        some ["db-3-6".toList] ∧
      (s.listConnectionTreeForWorkspace "ops-1-0".toList).map ConnectionTree.connectionIds =
        some [] ∧
      (deleteWorkspace s "ops-1-0".toList).toOption.map Store.connectionIds = some [] := by
  have checked : (Runs.run Store.serve .initial strayCalls).any (fun s =>
      ¬ (∀ c ∈ s.connections, s.InOwnWorkspace c.folderId c.workspaceId) ∧
      (s.listConnectionTreeForWorkspace defaultWorkspaceId).map ConnectionTree.connectionIds =
        some ["db-3-6".toList] ∧
      (s.listConnectionTreeForWorkspace "ops-1-0".toList).map ConnectionTree.connectionIds =
        some [] ∧
      (deleteWorkspace s "ops-1-0".toList).toOption.map Store.connectionIds = some []) = true := by
    decide +kernel
  obtain ⟨s, ran, facts⟩ := (Option.any_eq_true _ _).mp checked
  obtain ⟨apart, rest⟩ := of_decide_eq_true facts
  exact ⟨s, ran, fun trees => apart trees.connections, rest⟩

end Connections
