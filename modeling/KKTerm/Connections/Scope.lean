import KKTerm.Connections.Calls

/-!
# Folders and Connections in one Workspace

What the tables say about the place of a folder or a Connection is kept apart from
names and orders. Every change of the tables is one of a few changes of places, and
each of them is shown here to leave parents and Workspaces in agreement.
-/

namespace Connections

open Fallible ParentLinks Relation List

structure Place where
  id : Id
  folder : Option Id
  workspace : Option Id
  deriving DecidableEq

structure Places where
  workspaces : List Id
  folders : List Place
  connections : List Place

def FolderRow.place (f : FolderRow) : Place :=
  { id := f.id, folder := f.parentFolderId, workspace := f.workspaceId }

def ConnectionRow.place (c : ConnectionRow) : Place :=
  { id := c.id, folder := c.folderId, workspace := c.workspaceId }

def Store.places (s : Store) : Places where
  workspaces := s.workspaceIds
  folders := s.folders.map FolderRow.place
  connections := s.connections.map ConnectionRow.place

namespace Places

variable {P P' : Places} {a : Place}

def Under (P : Places) (child parent : Id) : Prop :=
  ∃ f ∈ P.folders, f.id = child ∧ f.folder = some parent

/-- In a Workspace that exists and, when in a folder, in one of that Workspace. -/
def Holds (P : Places) (a : Place) : Prop :=
  (∃ w ∈ P.workspaces, a.workspace = some w) ∧
    ∀ p, a.folder = some p → ∃ f ∈ P.folders, f.id = p ∧ f.workspace = a.workspace

structure Coherent (P : Places) : Prop where
  folderIds : (P.folders.map Place.id).Nodup
  connectionIds : (P.connections.map Place.id).Nodup
  trimmed : ∀ w ∈ P.workspaces, normalizeWorkspaceId w = w
  acyclic : Acyclic P.Under
  folders : ∀ f ∈ P.folders, P.Holds f
  connections : ∀ c ∈ P.connections, P.Holds c

lemma Holds.mono (h : P.Holds a) (workspaces : P.workspaces ⊆ P'.workspaces)
    (folders : P.folders ⊆ P'.folders) : P'.Holds a := by
  obtain ⟨⟨w, known, named⟩, inside⟩ := h
  refine ⟨⟨w, workspaces known, named⟩, ?_⟩
  intro p up
  obtain ⟨f, home, same⟩ := inside p up
  exact ⟨f, folders home, same⟩

namespace Coherent

variable (coherent : P.Coherent)
include coherent

lemma eq_of_id {f g : Place} (hf : f ∈ P.folders) (hg : g ∈ P.folders) (same : f.id = g.id) :
    f = g :=
  inj_on_of_nodup_map coherent.folderIds hf hg same

lemma single : Relator.RightUnique P.Under := by
  rintro x a b ⟨f, hf, rfl, up⟩ ⟨g, hg, same, up'⟩
  cases coherent.eq_of_id hf hg same.symm
  exact Option.some.inj (up.symm.trans up')

lemma parent_mem {x p : Id} (link : P.Under x p) : p ∈ P.folders.map Place.id := by
  obtain ⟨f, home, -, up⟩ := link
  obtain ⟨g, parent, rfl, -⟩ := (coherent.folders f home).2 p up
  exact mem_map_of_mem parent

lemma holds_under {f : Place} (home : f ∈ P.folders) (up : a.folder = some f.id)
    (same : a.workspace = f.workspace) : P.Holds a := by
  obtain ⟨⟨w, known, named⟩, -⟩ := coherent.folders f home
  refine ⟨⟨w, known, same.trans named⟩, ?_⟩
  intro p inside
  exact ⟨f, home, Option.some.inj (up.symm.trans inside), same.symm⟩

lemma addWorkspace {w : Id} (trimmed : normalizeWorkspaceId w = w) :
    Coherent { P with workspaces := P.workspaces ++ [w] } where
  folderIds := coherent.folderIds
  connectionIds := coherent.connectionIds
  trimmed := by
    intro v member
    rcases mem_append.mp member with old | new
    · exact coherent.trimmed v old
    · rw [mem_singleton.mp new]
      exact trimmed
  acyclic := coherent.acyclic
  folders f home := (coherent.folders f home).mono (subset_append_left _ _) (Subset.refl _)
  connections c home := (coherent.connections c home).mono (subset_append_left _ _) (Subset.refl _)

lemma addConnection (fresh : a.id ∉ P.connections.map Place.id) (holds : P.Holds a) :
    Coherent { P with connections := P.connections ++ [a] } where
  folderIds := coherent.folderIds
  connectionIds := by
    rw [map_append, map_singleton]
    exact nodup_append_comm.mp (nodup_cons.mpr ⟨fresh, coherent.connectionIds⟩)
  trimmed := coherent.trimmed
  acyclic := coherent.acyclic
  folders := coherent.folders
  connections := by
    intro c member
    rcases mem_append.mp member with old | new
    · exact coherent.connections c old
    · rw [mem_singleton.mp new]
      exact holds

lemma addFolder (fresh : a.id ∉ P.folders.map Place.id) (holds : P.Holds a) :
    Coherent { P with folders := P.folders ++ [a] } where
  folderIds := by
    rw [map_append, map_singleton]
    exact nodup_append_comm.mp (nodup_cons.mpr ⟨fresh, coherent.folderIds⟩)
  connectionIds := coherent.connectionIds
  trimmed := coherent.trimmed
  acyclic := by
    have links : ∀ x y, Under { P with folders := P.folders ++ [a] } x y →
        P.Under x y ∨ (x = a.id ∧ a.folder = some y) := by
      rintro x y ⟨f, member, rfl, up⟩
      rcases mem_append.mp member with old | new
      · exact .inl ⟨f, old, rfl, up⟩
      · cases mem_singleton.mp new
        exact .inr ⟨rfl, up⟩
    cases inside : a.folder with
    | none =>
      refine coherent.acyclic.mono (fun x y step => ?_)
      rcases links x y step with old | ⟨-, up⟩
      · exact .single old
      · cases inside.symm.trans up
    | some p =>
      refine Acyclic.redirect a.id p ?_ coherent.acyclic ?_
      · intro x y step
        rcases links x y step with ⟨f, home, rfl, up⟩ | ⟨rfl, up⟩
        · refine .inl ⟨?_, f, home, rfl, up⟩
          exact fun same => fresh (same ▸ mem_map_of_mem home)
        · exact .inr ⟨rfl, Option.some.inj (up.symm.trans inside)⟩
      · intro path
        obtain ⟨g, parent, rfl, -⟩ := holds.2 p inside
        -- nothing names a folder that is not there yet
        rcases ReflTransGen.cases_tail path with same | ⟨x, -, link⟩
        · exact fresh (same ▸ mem_map_of_mem parent)
        · exact fresh (coherent.parent_mem link)
  folders := by
    intro f member
    rcases mem_append.mp member with old | new
    · exact (coherent.folders f old).mono (Subset.refl _) (subset_append_left _ _)
    · rw [mem_singleton.mp new]
      exact holds.mono (Subset.refl _) (subset_append_left _ _)
  connections c home := (coherent.connections c home).mono (Subset.refl _) (subset_append_left _ _)

lemma remove (workspaces : P'.workspaces ⊆ P.workspaces) (folders : P'.folders.Sublist P.folders)
    (connections : P'.connections.Sublist P.connections)
    (keptFolders : ∀ f ∈ P'.folders, P.Holds f → P'.Holds f)
    (keptConnections : ∀ c ∈ P'.connections, P.Holds c → P'.Holds c) : P'.Coherent where
  folderIds := coherent.folderIds.sublist (folders.map Place.id)
  connectionIds := coherent.connectionIds.sublist (connections.map Place.id)
  trimmed w known := coherent.trimmed w (workspaces known)
  acyclic := by
    refine coherent.acyclic.mono ?_
    rintro x y ⟨f, home, rfl, up⟩
    exact .single ⟨f, folders.subset home, rfl, up⟩
  folders f home := keptFolders f home (coherent.folders f (folders.subset home))
  connections c home := keptConnections c home (coherent.connections c (connections.subset home))

end Coherent

def moveIn (rows : List Place) (id : Id) (change : Place → Place) : List Place :=
  rows.map (fun a => if a.id = id then change a else a)

section Move

variable {rows : List Place} {id : Id} {change : Place → Place}

lemma map_id_moveIn (same : ∀ a, (change a).id = a.id) :
    (moveIn rows id change).map Place.id = rows.map Place.id := by
  rw [moveIn, List.map_map]
  refine map_congr_left (fun a _ => ?_)
  rw [Function.comp_apply]
  split
  · exact same a
  · rfl

lemma mem_moveIn {b : Place} : b ∈ moveIn rows id change ↔
    (b ∈ rows ∧ b.id ≠ id) ∨ ∃ a ∈ rows, a.id = id ∧ b = change a := by
  simp only [moveIn, mem_map]
  constructor
  · rintro ⟨a, member, rfl⟩
    by_cases moved : a.id = id
    · exact .inr ⟨a, member, moved, if_pos moved⟩
    · rw [if_neg moved]
      exact .inl ⟨member, moved⟩
  · rintro (⟨member, other⟩ | ⟨a, member, moved, rfl⟩)
    · exact ⟨b, member, if_neg other⟩
    · exact ⟨a, member, if_pos moved⟩

end Move

namespace Coherent

variable (coherent : P.Coherent)
include coherent

lemma moveConnection {id : Id} {change : Place → Place} (same : ∀ a, (change a).id = a.id)
    (holds : ∀ a ∈ P.connections, a.id = id → P.Holds (change a)) :
    Coherent { P with connections := moveIn P.connections id change } where
  folderIds := coherent.folderIds
  connectionIds := by
    rw [map_id_moveIn same]
    exact coherent.connectionIds
  trimmed := coherent.trimmed
  acyclic := coherent.acyclic
  folders := coherent.folders
  connections := by
    intro c member
    rcases mem_moveIn.mp member with ⟨old, -⟩ | ⟨a, home, moved, rfl⟩
    · exact coherent.connections c old
    · exact holds a home moved

section MoveFolder

variable {row : Place} (home : row ∈ P.folders) {change : Place → Place}
  (same : ∀ a, (change a).id = a.id)
include home same

/-- Places that are not in the moved folder, or keep its Workspace, still hold. -/
lemma holds_moveFolder {b : Place} (held : P.Holds b)
    (follow : b.folder = some row.id → (change row).workspace = row.workspace) :
    Holds { P with folders := moveIn P.folders row.id change } b := by
  refine ⟨held.1, ?_⟩
  intro p up
  obtain ⟨f, parent, rfl, agree⟩ := held.2 p up
  by_cases moved : f.id = row.id
  · cases coherent.eq_of_id parent home moved
    refine ⟨change row, mem_moveIn.mpr (.inr ⟨row, parent, rfl, rfl⟩), same row, ?_⟩
    exact (follow up).trans agree
  · exact ⟨f, mem_moveIn.mpr (.inl ⟨parent, moved⟩), rfl, agree⟩

/-- A folder may go under another one that is not inside it, when it stays in its
Workspace or has nothing in it. -/
lemma moveFolder (holds : P.Holds (change row))
    (off : ∀ p, (change row).folder = some p → ¬ ReflTransGen P.Under p row.id)
    (follow : (change row).workspace = row.workspace ∨
      ((∀ f ∈ P.folders, f.folder ≠ some row.id) ∧ ∀ c ∈ P.connections, c.folder ≠ some row.id)) :
    Coherent { P with folders := moveIn P.folders row.id change } where
  folderIds := by
    have ids : (moveIn P.folders row.id change).map Place.id = P.folders.map Place.id :=
      map_id_moveIn same
    exact ids ▸ coherent.folderIds
  connectionIds := coherent.connectionIds
  trimmed := coherent.trimmed
  acyclic := by
    cases inside : (change row).folder with
    | none =>
      refine coherent.acyclic.mono ?_
      rintro x y ⟨f, member, rfl, up⟩
      rcases mem_moveIn.mp member with ⟨old, -⟩ | ⟨a, old, moved, rfl⟩
      · exact .single ⟨f, old, rfl, up⟩
      · cases coherent.eq_of_id old home moved
        cases inside.symm.trans up
    | some p =>
      refine Acyclic.redirect row.id p ?_ coherent.acyclic (off p inside)
      rintro x y ⟨f, member, rfl, up⟩
      rcases mem_moveIn.mp member with ⟨old, other⟩ | ⟨a, old, moved, rfl⟩
      · exact .inl ⟨other, f, old, rfl, up⟩
      · cases coherent.eq_of_id old home moved
        exact .inr ⟨same row, Option.some.inj (up.symm.trans inside)⟩
  folders := by
    intro f member
    rcases mem_moveIn.mp member with ⟨old, -⟩ | ⟨a, old, moved, rfl⟩
    · apply coherent.holds_moveFolder home same (coherent.folders f old)
      intro inside
      exact follow.resolve_right (fun empty => empty.1 f old inside)
    · cases coherent.eq_of_id old home moved
      apply coherent.holds_moveFolder home same holds
      intro itself
      exact absurd .refl (off row.id itself)
  connections := by
    intro c member
    apply coherent.holds_moveFolder home same (coherent.connections c member)
    intro inside
    exact follow.resolve_right (fun empty => empty.2 c member inside)

end MoveFolder

end Coherent

end Places

end Connections
