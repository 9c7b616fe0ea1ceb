import KKTerm.Connections.Kept
import KKTerm.Library.Siblings

/-!
# The order of what is moved

Folders and Connections are siblings in a folder or at the root of a Workspace. A move
takes a row out of its list, puts it before the one that the index names, and numbers
both lists.
-/

namespace Connections

open Siblings hiding id trans
open Fallible Relation Store Places List Text

inductive Home where
  | folder (id : Id)
  | root (workspaceId : Id)
  deriving DecidableEq

/-- The home of what is in a folder, or else at the root of a Workspace. -/
def homeAt (folderId : Option Id) (workspaceId : Id) : Home :=
  match folderId with
  | some folder => .folder folder
  | none => .root workspaceId

/-- At the root a row without a Workspace is in no list. -/
def homeOf (folderId workspaceId : Option Id) : Option Home :=
  match folderId, workspaceId with
  | some folder, _ => some (.folder folder)
  | none, some workspace => some (.root workspace)
  | none, none => none

namespace Store

def foldersIn (s : Store) : Home → List FolderRow
  | .folder id => s.foldersForParent (some id)
  | .root workspaceId => s.rootFoldersForWorkspace workspaceId

def connectionsIn (s : Store) : Home → List ConnectionRow
  | .folder id => s.listConnectionsForFolder (some id)
  | .root workspaceId => s.listRootConnectionsForWorkspace workspaceId

/-- No two siblings have the same order and the same name. -/
def NoTies (s : Store) : Prop :=
  ∀ h, ((s.foldersIn h).map (fun f => (f.sortOrder, f.name))).Nodup ∧
    ((s.connectionsIn h).map (fun c => (c.sortOrder, c.name))).Nodup

end Store

lemma textLe_total (s t : List Char) : textLe s t = true ∨ textLe t s = true := by
  induction s generalizing t with
  | nil => exact .inl rfl
  | cons a s ih =>
    cases t with
    | nil => exact .inr rfl
    | cons b t =>
      simp only [textLe, Bool.or_eq_true, Bool.and_eq_true, decide_eq_true_eq, beq_iff_eq]
      rcases Nat.lt_trichotomy a.toNat b.toNat with less | same | more
      · exact .inl (.inl less)
      · rcases ih t with one | other
        · exact .inl (.inr ⟨same, one⟩)
        · exact .inr (.inr ⟨same.symm, other⟩)
      · exact .inr (.inl more)

lemma textLe_trans {s t u : List Char} (st : textLe s t = true) (tu : textLe t u = true) :
    textLe s u = true := by
  induction s generalizing t u with
  | nil => rfl
  | cons a s ih =>
    cases t with
    | nil => cases st
    | cons b t =>
      cases u with
      | nil => cases tu
      | cons c u =>
        simp only [textLe, Bool.or_eq_true, Bool.and_eq_true, decide_eq_true_eq, beq_iff_eq]
          at st tu ⊢
        rcases st with less | ⟨same, st⟩
        · rcases tu with less' | ⟨same', -⟩
          · exact .inl (Nat.lt_trans less less')
          · exact .inl (same' ▸ less)
        · rcases tu with less' | ⟨same', tu⟩
          · exact .inl (same ▸ less')
          · exact .inr ⟨same.trans same', ih st tu⟩

lemma textLe_antisymm {s t : List Char} (st : textLe s t = true) (ts : textLe t s = true) :
    s = t := by
  induction s generalizing t with
  | nil =>
    cases t with
    | nil => rfl
    | cons b t => cases ts
  | cons a s ih =>
    cases t with
    | nil => cases st
    | cons b t =>
      simp only [textLe, Bool.or_eq_true, Bool.and_eq_true, decide_eq_true_eq, beq_iff_eq] at st ts
      rcases st with less | ⟨same, st⟩
      · exfalso
        rcases ts with more | ⟨same, -⟩
        · omega
        · omega
      · rcases ts with more | ⟨-, ts⟩
        · omega
        · rw [ih st ts, Char.toNat_inj.mp same]

section Order

variable {ρ : Type} (sortOrder : ρ → Int) (name : ρ → List Char)

/-- The order of `ORDER BY sort_order, name`. -/
def Before (a b : ρ) : Prop :=
  sortOrder a < sortOrder b ∨ (sortOrder a = sortOrder b ∧ textLe (name a) (name b) = true)

instance : DecidableRel (Before sortOrder name) :=
  fun _ _ => inferInstanceAs (Decidable (_ ∨ _))

lemma Before.total (a b : ρ) : Before sortOrder name a b ∨ Before sortOrder name b a := by
  rcases Int.lt_trichotomy (sortOrder a) (sortOrder b) with less | same | more
  · exact .inl (.inl less)
  · rcases textLe_total (name a) (name b) with one | other
    · exact .inl (.inr ⟨same, one⟩)
    · exact .inr (.inr ⟨same.symm, other⟩)
  · exact .inr (.inl more)

lemma Before.trans (a b c : ρ) (ab : Before sortOrder name a b)
    (bc : Before sortOrder name b c) : Before sortOrder name a c := by
  rcases ab with less | ⟨same, ab⟩
  · rcases bc with less' | ⟨same', -⟩
    · exact .inl (Int.lt_trans less less')
    · exact .inl (same' ▸ less)
  · rcases bc with less' | ⟨same', bc⟩
    · exact .inl (same ▸ less')
    · exact .inr ⟨same.trans same', textLe_trans ab bc⟩

lemma Before.le (a b : ρ) (ab : Before sortOrder name a b) : sortOrder a ≤ sortOrder b := by
  rcases ab with less | ⟨same, -⟩
  · exact Int.le_of_lt less
  · exact Int.le_of_eq same

lemma Before.antisymm {a b : ρ} (ab : Before sortOrder name a b)
    (ba : Before sortOrder name b a) : (sortOrder a, name a) = (sortOrder b, name b) := by
  have same : sortOrder a = sortOrder b :=
    Int.le_antisymm (Before.le _ _ a b ab) (Before.le _ _ b a ba)
  have above := ab.resolve_left (by omega)
  have below := ba.resolve_left (by omega)
  rw [same, textLe_antisymm above.2 below.2]

end Order

def folderSiblings : Siblings FolderRow Id Home where
  id := FolderRow.id
  home f := homeOf f.parentFolderId f.workspaceId
  order := FolderRow.sortOrder
  before := Before FolderRow.sortOrder FolderRow.name
  number n f := { f with sortOrder := n }
  id_number _ _ := rfl
  home_number _ _ := rfl
  order_number _ _ := rfl
  total := Before.total _ _
  trans := Before.trans _ _
  before_of_lt _ _ := .inl
  order_le := Before.le _ _

def connectionSiblings : Siblings ConnectionRow Id Home where
  id := ConnectionRow.id
  home c := homeOf c.folderId c.workspaceId
  order := ConnectionRow.sortOrder
  before := Before ConnectionRow.sortOrder ConnectionRow.name
  number n c := { c with sortOrder := n }
  id_number _ _ := rfl
  home_number _ _ := rfl
  order_number _ _ := rfl
  total := Before.total _ _
  trans := Before.trans _ _
  before_of_lt _ _ := .inl
  order_le := Before.le _ _

instance : DecidableRel folderSiblings.before :=
  inferInstanceAs (DecidableRel (Before FolderRow.sortOrder FolderRow.name))

instance : DecidableRel connectionSiblings.before :=
  inferInstanceAs (DecidableRel (Before ConnectionRow.sortOrder ConnectionRow.name))

section Tables

variable {s : Store} {h : Home} {folder workspace : Option Id} {w : Id}

variable (ids : List Id) {p : Id} {moved : Option (Id × Nat)}

lemma homeOf_eq_folder : homeOf folder workspace = some (.folder p) ↔ folder = some p := by
  cases folder <;> cases workspace <;> simp [homeOf]

lemma homeOf_eq_root :
    homeOf folder workspace = some (.root w) ↔ folder = none ∧ workspace = some w := by
  cases folder <;> cases workspace <;> simp [homeOf]

lemma homeOf_named : homeOf folder (some w) = some (homeAt folder w) := by
  cases folder <;> rfl

lemma foldersIn_eq : s.foldersIn h = folderSiblings.listIn h s.folders := by
  cases h with
  | folder p =>
    have same : s.folders.filter (·.parentFolderId = some p) =
        s.folders.filter (fun f => folderSiblings.home f = some (.folder p)) :=
      filter_congr (fun f _ => decide_eq_decide.mpr homeOf_eq_folder.symm)
    rw [Store.foldersIn, Store.foldersForParent, same]
    rfl
  | root w =>
    have same : s.folders.filter (fun f => f.parentFolderId = none ∧ f.workspaceId = some w) =
        s.folders.filter (fun f => folderSiblings.home f = some (.root w)) :=
      filter_congr (fun f _ => decide_eq_decide.mpr homeOf_eq_root.symm)
    rw [Store.foldersIn, Store.rootFoldersForWorkspace, same]
    rfl

lemma connectionsIn_eq : s.connectionsIn h = connectionSiblings.listIn h s.connections := by
  cases h with
  | folder p =>
    have same : s.connections.filter (·.folderId = some p) =
        s.connections.filter (fun c => connectionSiblings.home c = some (.folder p)) :=
      filter_congr (fun c _ => decide_eq_decide.mpr homeOf_eq_folder.symm)
    rw [Store.connectionsIn, Store.listConnectionsForFolder, same]
    rfl
  | root w =>
    have same : s.connections.filter (fun c => c.folderId = none ∧ c.workspaceId = some w) =
        s.connections.filter (fun c => connectionSiblings.home c = some (.root w)) :=
      filter_congr (fun c _ => decide_eq_decide.mpr homeOf_eq_root.symm)
    rw [Store.connectionsIn, Store.listRootConnectionsForWorkspace, same]
    rfl

lemma numberFolders_siblings :
    s.numberFolders ids = { s with folders := folderSiblings.renumber ids s.folders } := by
  rw [Store.numberFolders, renumber]
  generalize ids.zipIdx = entries
  induction entries generalizing s with
  | nil => rfl
  | cons entry rest ih =>
    rw [foldl_cons, ih]
    rfl

lemma numberConnections_siblings :
    s.numberConnections ids =
      { s with connections := connectionSiblings.renumber ids s.connections } := by
  rw [Store.numberConnections, renumber]
  generalize ids.zipIdx = entries
  induction entries generalizing s with
  | nil => rfl
  | cons entry rest ih =>
    rw [foldl_cons, ih]
    rfl

lemma foldersIn_lists : s.foldersIn = fun h => folderSiblings.listIn h s.folders :=
  funext (fun _ => foldersIn_eq)

lemma connectionsIn_lists :
    s.connectionsIn = fun h => connectionSiblings.listIn h s.connections :=
  funext (fun _ => connectionsIn_eq)

lemma folder_idsIn_root :
    folderSiblings.idsIn (homeAt none w) s.folders = s.listRootFolderIdsForWorkspace w :=
  congrArg (map FolderRow.id) (foldersIn_eq (s := s) (h := .root w)).symm

lemma folder_idsIn_folder :
    folderSiblings.idsIn (homeAt (some p) w) s.folders = s.listFolderIdsForParent (some p) :=
  congrArg (map FolderRow.id) (foldersIn_eq (s := s) (h := .folder p)).symm

lemma connection_idsIn_root :
    connectionSiblings.idsIn (homeAt none w) s.connections =
      s.listRootConnectionIdsForWorkspace w :=
  congrArg (map ConnectionRow.id) (connectionsIn_eq (s := s) (h := .root w)).symm

lemma connection_idsIn_folder :
    connectionSiblings.idsIn (homeAt (some p) w) s.connections =
      s.listConnectionIdsForFolder (some p) :=
  congrArg (map ConnectionRow.id) (connectionsIn_eq (s := s) (h := .folder p)).symm

lemma reorderFolders_siblings :
    s.reorderFolders folder w moved =
      s.numberFolders (placeAt (folderSiblings.idsIn (homeAt folder w) s.folders) moved) := by
  cases folder with
  | none => rw [folder_idsIn_root, Store.reorderFolders, Store.reorderRootFolderIdsForWorkspace]
  | some p => rw [folder_idsIn_folder, Store.reorderFolders, Store.reorderFolderIds]

lemma reorderConnections_siblings :
    s.reorderConnections folder w moved = s.numberConnections
        (placeAt (connectionSiblings.idsIn (homeAt folder w) s.connections) moved) := by
  cases folder with
  | none =>
    rw [connection_idsIn_root, Store.reorderConnections, Store.reorderRootConnectionIdsForWorkspace]
  | some p => rw [connection_idsIn_folder, Store.reorderConnections, Store.reorderConnectionIds]

end Tables

structure Reordered {ρ : Type} (id : ρ → Id) (sortOrder : ρ → Int) (lists lists' : Home → List ρ)
    (source target : Home) (moved : Id) (index : Nat) : Prop where
  arrives : PutBefore ((lists target).map id) moved index ((lists' target).map id)
  leaves : source ≠ target → (lists' source).map id = ((lists source).map id).filter (· ≠ moved)
  numbered : ∀ h, h = source ∨ h = target →
    (lists' h).map sortOrder = (List.range (lists' h).length).map Int.ofNat
  elsewhere : ∀ h, h ≠ source → h ≠ target → lists' h = lists h

lemma targetIndexIn_append {front back : List Id} {key : Id} {index : Nat}
    (before : key ∉ front) : targetIndexIn (front ++ key :: back) key index =
      if front.length < index then index - 1 else index := by
  have place : (front ++ key :: back).idxOf? key = some front.length := by
    refine idxOf?_eq_some_iff.mpr ⟨by simp, by simp, ?_⟩
    intro j less same
    rw [getElem_append_left less] at same
    exact before (same ▸ getElem_mem less)
  rw [targetIndexIn, place]

section Generic

variable {ρ : Type} {T : Siblings ρ Id Home} [DecidableRel T.before] {key : Id} {change : ρ → ρ}
  {source target : Home} {rows : List ρ}

lemma reordered_of_moves (moves : T.Moves key change source target rows)
    (strict : ∀ h, T.Strict h rows) {index place : Nat}
    (adjusted : place = if source = target then targetIndexIn (T.idsIn source rows) key index
      else index) :
    Reordered T.id T.order (fun h => T.listIn h rows)
      (fun h => T.listIn h (T.relocate key change source target place rows)) source target key
      index where
  arrives := by
    have listed : T.idsIn target (T.relocate key change source target place rows) =
        withPlaced key place (T.idsIn target rows) := moves.target_ids (strict target)
    rw [idsIn] at listed
    rw [listed, adjusted]
    have once : (T.idsIn target rows).Nodup := nodup_idsIn moves.distinct
    obtain ⟨r, home, here⟩ := mem_map.mp moves.present
    by_cases same : source = target
    · subst same
      have member : key ∈ T.idsIn source rows :=
        mem_idsIn.mpr ⟨r, home, moves.leaves r home here, here⟩
      obtain ⟨front, back, split⟩ := append_of_mem member
      rw [split] at once
      have apart := nodup_middle.mp once
      have absent := (nodup_cons.mp apart).1
      rw [mem_append, not_or] at absent
      rw [if_pos rfl, ← idsIn, split, targetIndexIn_append absent.1]
      exact putBefore_of_mem absent.1 absent.2
    · rw [if_neg same]
      apply putBefore_of_not_mem
      intro member
      obtain ⟨other, otherHome, there, itself⟩ := mem_idsIn.mp member
      exact same (Option.some.inj ((moves.leaves other otherHome itself).symm.trans there))
  leaves := moves.source_ids (strict source)
  numbered h either := by
    have numbers : (T.listIn h (T.relocate key change source target place rows)).map T.order =
        (range (T.idsIn h (T.relocate key change source target place rows)).length).map
          Int.ofNat := moves.numbered either
    rwa [idsIn, length_map] at numbers
  elsewhere h offSource offTarget := by
    rw [listIn, moves.elsewhere offSource offTarget]
    rfl

end Generic

section Stores

variable {s t : Store} {key v u w : Id} {folder target : Option Id} {place : Nat}

variable {h : Home} {workspace : Option Id}

lemma strict_of_nodup {ρ : Type} {T : Siblings ρ Id Home} [DecidableRel T.before]
    {sortOrder : ρ → Int} {name : ρ → List Char} {rows : List ρ}
    (same : T.before = Before sortOrder name)
    (distinct : ((T.listIn h rows).map (fun r => (sortOrder r, name r))).Nodup) :
    T.Strict h rows := by
  intro a ha b hb ab ba
  rw [same] at ab ba
  exact inj_on_of_nodup_map distinct ha hb (Before.antisymm sortOrder name ab ba)

lemma Store.NoTies.folders (apart : s.NoTies) (h : Home) : folderSiblings.Strict h s.folders :=
  strict_of_nodup rfl (foldersIn_eq ▸ (apart h).1)

lemma Store.NoTies.connections (apart : s.NoTies) (h : Home) :
    connectionSiblings.Strict h s.connections :=
  strict_of_nodup rfl (connectionsIn_eq ▸ (apart h).2)

lemma ensureTarget_eq_ok (done : s.ensureTarget target = .ok t) :
    ∃ extra, t = { s with folders := s.folders ++ extra } ∧
      (∀ f ∈ extra, f.id ∉ s.folderIds ∧ folderSiblings.home f = none) ∧
        (s.folderIds.Nodup → t.folderIds.Nodup) := by
  have stays : ∃ extra, s = { s with folders := s.folders ++ extra } ∧
      (∀ f ∈ extra, f.id ∉ s.folderIds ∧ folderSiblings.home f = none) ∧
        (s.folderIds.Nodup → s.folderIds.Nodup) := by
    refine ⟨[], ?_, ?_, fun distinct => distinct⟩
    · rw [append_nil]
    · intro f member
      cases member
  cases target with
  | none =>
    cases done
    exact stays
  | some id =>
    by_cases known : id ∈ s.folderIds
    · rw [Store.ensureTarget, Store.ensureFolderExists, if_pos known] at done
      cases done
      exact stays
    · rw [Store.ensureTarget, Store.ensureFolderExists, if_neg known] at done
      obtain ⟨fresh, -, -, rfl⟩ := insertFolder_eq_ok done
      refine ⟨_, rfl, ?_, ?_⟩
      · intro f member
        cases mem_singleton.mp member
        exact ⟨fresh, rfl⟩
      · intro distinct
        rw [Store.folderIds, map_append]
        exact nodup_append_comm.mp (nodup_cons.mpr ⟨fresh, distinct⟩)

lemma listIn_extra {rows extra : List FolderRow}
    (outside : ∀ f ∈ extra, folderSiblings.home f = none) :
    folderSiblings.listIn h (rows ++ extra) = folderSiblings.listIn h rows := by
  have none : extra.filter (fun f => folderSiblings.home f = some h) = [] := by
    refine filter_eq_nil_iff.mpr (fun f member => ?_)
    rw [outside f member]
    simp
  rw [listIn, filter_append, none, append_nil]
  rfl

/-- A row that is put into a folder takes its Workspace, or keeps its own at the root. -/
def putConnectionRow (folder workspace : Option Id) (c : ConnectionRow) : ConnectionRow :=
  { c with folderId := folder, workspaceId := workspace.or c.workspaceId }

def putFolderRow (folder workspace : Option Id) (f : FolderRow) : FolderRow :=
  { f with parentFolderId := folder, workspaceId := workspace.or f.workspaceId }

lemma putConnection_siblings :
    s.putConnection key folder workspace = { s with
      connections := connectionSiblings.set key (putConnectionRow folder workspace)
        s.connections } := by
  cases workspace with
  | none => rfl
  | some w =>
    rw [Store.putConnection, setConnection_setConnection]
    · rfl
    · exact fun _ => rfl

lemma putFolder_siblings :
    s.putFolder key folder workspace = { s with
      folders := folderSiblings.set key (putFolderRow folder workspace) s.folders } := by
  cases workspace with
  | none => rfl
  | some w =>
    rw [Store.putFolder, setFolder_setFolder]
    · rfl
    · exact fun _ => rfl

lemma relocateConnection :
    ((s.putConnection key target workspace).reorderConnections folder v none).reorderConnections
        target u (some (key, place)) =
      { s with
        connections := connectionSiblings.relocate key (putConnectionRow target workspace)
          (homeAt folder v) (homeAt target u) place s.connections } := by
  rw [putConnection_siblings, reorderConnections_siblings, numberConnections_siblings,
    reorderConnections_siblings, numberConnections_siblings]
  rfl

lemma relocateFolder :
    ((s.putFolder key target workspace).reorderFolders folder v none).reorderFolders
        target u (some (key, place)) =
      { s with
        folders := folderSiblings.relocate key (putFolderRow target workspace)
          (homeAt folder v) (homeAt target u) place s.folders } := by
  rw [putFolder_siblings, reorderFolders_siblings, numberFolders_siblings,
    reorderFolders_siblings, numberFolders_siblings]
  rfl

/-- The home that is read after the row has been put there. -/
lemma homeAt_putConnection (named : s.connectionWorkspaceId key = w) :
    homeAt target ((s.putConnection key target
      (target.map s.folderWorkspaceId)).connectionWorkspaceId key) = homeAt target w := by
  cases target with
  | some p => rfl
  | none =>
    have found : (s.putConnection key none none).connection key =
        (s.connection key).map (putConnectionRow none none) := by
      rw [putConnection_siblings]
      exact find?_set (T := connectionSiblings) (fun _ => rfl)
    have kept : ((s.connection key).map (putConnectionRow none none)).bind
        ConnectionRow.workspaceId = (s.connection key).bind ConnectionRow.workspaceId := by
      cases s.connection key <;> rfl
    rw [Option.map_none, Store.connectionWorkspaceId, found, kept, ← named]
    rfl

lemma homeAt_putFolder (named : s.folderWorkspaceId key = w) :
    homeAt target ((s.putFolder key target
      (target.map s.folderWorkspaceId)).folderWorkspaceId key) = homeAt target w := by
  cases target with
  | some p => rfl
  | none =>
    have found : (s.putFolder key none none).folder key =
        (s.folder key).map (putFolderRow none none) := by
      rw [putFolder_siblings]
      exact find?_set (T := folderSiblings) (fun _ => rfl)
    have kept : ((s.folder key).map (putFolderRow none none)).bind FolderRow.workspaceId =
        (s.folder key).bind FolderRow.workspaceId := by
      cases s.folder key <;> rfl
    rw [Option.map_none, Store.folderWorkspaceId, found, kept, ← named]
    rfl

end Stores

lemma homeAt_inj {a b : Option Id} {w : Id} : homeAt a w = homeAt b w ↔ a = b := by
  cases a <;> cases b <;> simp [homeAt]

lemma homeOf_put {target : Option Id} {w : Id} (workspaceOf : Id → Id) :
    homeOf target ((target.map workspaceOf).or (some w)) = some (homeAt target w) := by
  cases target <;> rfl

namespace Store.InScope

variable {s s' : Store} (scope : s.InScope)
include scope

variable {row : ConnectionRow} {w id : Id}

lemma connectionMoves (home : row ∈ s.connections) (named : row.workspaceId = some w)
    (target : Option Id) (workspaceOf : Id → Id) :
    connectionSiblings.Moves row.id (putConnectionRow target (target.map workspaceOf))
      (homeAt row.folderId w) (homeAt target w) s.connections := by
  have distinct : s.connectionIds.Nodup := connectionIds_places ▸ Coherent.connectionIds scope
  have itself : ∀ r ∈ s.connections, r.id = row.id → r = row :=
    fun r member same => inj_on_of_nodup_map distinct member home same
  refine ⟨distinct, fun _ => rfl, mem_map_of_mem home, ?_, ?_⟩
  · intro r member same
    cases itself r member same
    exact (congrArg (homeOf row.folderId) named).trans homeOf_named
  · intro r member same
    cases itself r member same
    exact (congrArg (fun own => homeOf target ((target.map workspaceOf).or own)) named).trans
      (homeOf_put workspaceOf)

/-- A folder that a call has created is not the one that moves. -/
lemma folderMoves {row : FolderRow} (home : row ∈ s.folders) {extra : List FolderRow}
    (outside : ∀ f ∈ extra, f.id ∉ s.folderIds)
    (distinct : ((s.folders ++ extra).map FolderRow.id).Nodup) (named : row.workspaceId = some w)
    (target : Option Id) (workspaceOf : Id → Id) :
    folderSiblings.Moves row.id (putFolderRow target (target.map workspaceOf))
      (homeAt row.parentFolderId w) (homeAt target w) (s.folders ++ extra) := by
  have itself : ∀ r ∈ s.folders ++ extra, r.id = row.id → r = row := by
    intro r member same
    rcases mem_append.mp member with old | new
    · exact scope.folder_unique old home same
    · exact absurd (same ▸ mem_map_of_mem home) (outside r new)
  refine ⟨distinct, fun _ => rfl, mem_map_of_mem (mem_append_left extra home), ?_, ?_⟩
  · intro r member same
    cases itself r member same
    exact (congrArg (homeOf row.parentFolderId) named).trans homeOf_named
  · intro r member same
    cases itself r member same
    exact (congrArg (fun own => homeOf target ((target.map workspaceOf).or own)) named).trans
      (homeOf_put workspaceOf)

lemma folderWorkspaceId_eq {row : FolderRow} (found : s.folder id = some row)
    (named : row.workspaceId = some w) : s.folderWorkspaceId id = w := by
  have home : row ∈ s.folders := mem_of_find?_eq_some found
  obtain ⟨⟨v, workspace, column⟩, -⟩ := scope.folders row.place (mem_map_of_mem home)
  cases Option.some.inj (named.symm.trans column)
  rw [Store.folderWorkspaceId, found, Option.bind_some, named]
  exact scope.trimmed w workspace

/-- The Workspace that is read for a Connection is the one its row names. -/
lemma connectionWorkspaceId_eq (found : s.connection id = some row)
    (named : row.workspaceId = some w) : s.connectionWorkspaceId id = w := by
  have read := scope.normalize_workspace (connection_place found)
  rw [Store.connectionWorkspaceId, found, Option.bind_some]
  exact Option.some.inj (read.trans named)

end Store.InScope

section Calls

variable {s s' : Store}

variable {result : Option ConnectionTree}

lemma moveConnection_eq_ok {request : MoveConnectionRequest}
    (h : moveConnection s request = .ok (result, s')) : ∃ row t w place,
      s.connection (trim request.id) = some row ∧
      s.ensureTarget (normalizeOptionalId request.folderId) = .ok t ∧
      w = s.connectionWorkspaceId (trim request.id) ∧
      place = (if homeAt row.folderId w = homeAt (normalizeOptionalId request.folderId) w then
        targetIndexIn (connectionSiblings.idsIn (homeAt row.folderId w) s.connections)
          (trim request.id) request.targetIndex else request.targetIndex) ∧
      s' = { t with
        connections := connectionSiblings.relocate (trim request.id)
          (putConnectionRow (normalizeOptionalId request.folderId)
            ((normalizeOptionalId request.folderId).map t.folderWorkspaceId))
          (homeAt row.folderId w) (homeAt (normalizeOptionalId request.folderId) w) place
          s.connections } := by
  obtain ⟨id, named, h⟩ := bind_eq_ok.mp h
  cases requiredField_eq_ok named
  obtain ⟨row, found, h⟩ := bind_eq_ok.mp h
  obtain ⟨t, ensured, h⟩ := bind_eq_ok.mp h
  obtain ⟨⟨⟩, -, done⟩ := bind_eq_ok.mp h
  injection done with pair
  obtain ⟨-, rfl⟩ := Prod.mk.inj pair
  refine ⟨row, t, _, _, require_eq_ok.mp found, ensured, rfl, rfl, ?_⟩
  obtain ⟨extra, same, -⟩ := ensureTarget_eq_ok ensured
  have rows : t.connections = s.connections := by rw [same]
  have own : t.connectionWorkspaceId (trim request.id) =
      s.connectionWorkspaceId (trim request.id) := by rw [same]; rfl
  rw [relocateConnection, homeAt_putConnection own, rows]
  simp only [homeAt_inj]
  cases row.folderId with
  | none => rw [connection_idsIn_root]
  | some p => rw [connection_idsIn_folder]

lemma moveConnectionFolder_eq_ok {request : MoveConnectionFolderRequest}
    (h : moveConnectionFolder s request = .ok (result, s')) :
    ∃ row t w place, s.folder (trim request.id) = some row ∧
      s.ensureTarget (normalizeOptionalId request.parentFolderId) = .ok t ∧
      w = s.folderWorkspaceId (trim request.id) ∧
      place = (if homeAt row.parentFolderId w =
          homeAt (normalizeOptionalId request.parentFolderId) w then
        targetIndexIn (folderSiblings.idsIn (homeAt row.parentFolderId w) t.folders)
          (trim request.id) request.targetIndex else request.targetIndex) ∧
      (t.folderWorkspaceId (trim request.id) = w → s' = { t with
        folders := folderSiblings.relocate (trim request.id)
          (putFolderRow (normalizeOptionalId request.parentFolderId)
            ((normalizeOptionalId request.parentFolderId).map t.folderWorkspaceId))
          (homeAt row.parentFolderId w) (homeAt (normalizeOptionalId request.parentFolderId) w)
          place t.folders }) := by
  obtain ⟨id, named, h⟩ := bind_eq_ok.mp h
  cases requiredField_eq_ok named
  obtain ⟨-, h⟩ := reject_bind_ok.mp h
  obtain ⟨source, found, h⟩ := bind_eq_ok.mp h
  obtain ⟨t, ensured, h⟩ := bind_eq_ok.mp h
  obtain ⟨⟨⟩, -, h⟩ := bind_eq_ok.mp h
  obtain ⟨⟨⟩, -, done⟩ := bind_eq_ok.mp h
  injection done with pair
  obtain ⟨-, rfl⟩ := Prod.mk.inj pair
  obtain ⟨row, stored, rfl⟩ := Option.map_eq_some_iff.mp (require_eq_ok.mp found)
  refine ⟨row, t, _, _, stored, ensured, rfl, rfl, ?_⟩
  intro own
  rw [relocateFolder, homeAt_putFolder own]
  simp only [homeAt_inj]
  cases row.parentFolderId with
  | none => rw [folder_idsIn_root]
  | some p => rw [folder_idsIn_folder]

end Calls

namespace Store.InScope

variable {s s' : Store} (scope : s.InScope) (apart : s.NoTies)
include scope apart

variable {request : MoveConnectionFolderRequest} {result : Option ConnectionTree}

lemma moveConnection_reordered {request : MoveConnectionRequest}
    (h : Connections.moveConnection s request = .ok (result, s')) :
    ∃ row ∈ s.connections, ∃ w, row.id = trim request.id ∧ row.workspaceId = some w ∧
      Reordered ConnectionRow.id ConnectionRow.sortOrder s.connectionsIn s'.connectionsIn
        (homeAt row.folderId w) (homeAt (normalizeOptionalId request.folderId) w) row.id
        request.targetIndex ∧ s'.foldersIn = s.foldersIn := by
  obtain ⟨row, t, w, place, stored, ensured, own, adjusted, rfl⟩ := moveConnection_eq_ok h
  have home : row ∈ s.connections := mem_of_find?_eq_some stored
  have here : row.id = trim request.id := by simpa using find?_some stored
  obtain ⟨⟨v, -, named⟩, -⟩ := scope.connections row.place (mem_map_of_mem home)
  have column : row.workspaceId = some w :=
    named.trans (congrArg some ((scope.connectionWorkspaceId_eq stored named).symm.trans own.symm))
  refine ⟨row, home, w, here, column, ?_, ?_⟩
  · rw [← here] at adjusted
    have order := reordered_of_moves (scope.connectionMoves home column
      (normalizeOptionalId request.folderId) t.folderWorkspaceId) apart.connections adjusted
    rw [connectionsIn_lists (s := s), connectionsIn_lists, ← here]
    exact order
  · funext h
    obtain ⟨extra, rfl, outside, -⟩ := ensureTarget_eq_ok ensured
    rw [foldersIn_eq, foldersIn_eq]
    exact listIn_extra (fun f member => (outside f member).2)

lemma moveConnectionFolder_reordered
    (h : Connections.moveConnectionFolder s request = .ok (result, s')) :
    ∃ row ∈ s.folders, ∃ w, row.id = trim request.id ∧ row.workspaceId = some w ∧
      Reordered FolderRow.id FolderRow.sortOrder s.foldersIn s'.foldersIn
        (homeAt row.parentFolderId w) (homeAt (normalizeOptionalId request.parentFolderId) w)
        row.id request.targetIndex ∧ s'.connectionsIn = s.connectionsIn := by
  obtain ⟨row, t, w, place, stored, ensured, own, adjusted, done⟩ := moveConnectionFolder_eq_ok h
  have home : row ∈ s.folders := mem_of_find?_eq_some stored
  have here : row.id = trim request.id := by simpa using find?_some stored
  obtain ⟨⟨v, -, named⟩, -⟩ := scope.folders row.place (mem_map_of_mem home)
  have column : row.workspaceId = some w :=
    named.trans (congrArg some ((scope.folderWorkspaceId_eq stored named).symm.trans own.symm))
  obtain ⟨extra, rfl, outside, distinct⟩ := ensureTarget_eq_ok ensured
  have ids : s.folderIds.Nodup := ids_places ▸ Coherent.folderIds scope
  have lists : ∀ h, folderSiblings.listIn h (s.folders ++ extra) =
      folderSiblings.listIn h s.folders :=
    fun h => listIn_extra (fun f member => (outside f member).2)
  have first : Store.folderWorkspaceId { s with folders := s.folders ++ extra }
      (trim request.id) = w := by
    rw [own, Store.folderWorkspaceId, Store.folderWorkspaceId, Store.folder, find?_append,
      ← Store.folder, stored, Option.some_or]
  cases done first
  refine ⟨row, home, w, here, column, ?_, rfl⟩
  have strict : ∀ h, folderSiblings.Strict h (s.folders ++ extra) := by
    intro h
    rw [Strict, lists]
    exact apart.folders h
  rw [← here] at adjusted
  have order := reordered_of_moves (scope.folderMoves home (fun f member => (outside f member).1)
    (distinct ids) column (normalizeOptionalId request.parentFolderId)
    (Store.folderWorkspaceId { s with folders := s.folders ++ extra })) strict adjusted
  rw [foldersIn_lists (s := s), foldersIn_lists, ← funext lists, ← here]
  exact order

omit apart in
lemma moveConnectionFolder_inside {p : Id}
    (target : normalizeOptionalId request.parentFolderId = some p)
    (inside : ReflTransGen s.places.Under p (trim request.id)) :
    ∃ e, Connections.moveConnectionFolder s request = .error e := by
  cases outcome : Connections.moveConnectionFolder s request with
  | error e => exact ⟨e, rfl⟩
  | ok moved =>
    exfalso
    obtain ⟨id, named, h⟩ := bind_eq_ok.mp outcome
    cases requiredField_eq_ok named
    obtain ⟨other, h⟩ := reject_bind_ok.mp h
    obtain ⟨source, found, h⟩ := bind_eq_ok.mp h
    obtain ⟨t, ensured, h⟩ := bind_eq_ok.mp h
    obtain ⟨⟨⟩, outside, -⟩ := bind_eq_ok.mp h
    rw [target] at other outside
    obtain ⟨row, stored, rfl⟩ := Option.map_eq_some_iff.mp (require_eq_ok.mp found)
    have known : trim request.id ∈ s.folderIds := by
      have here : row.id = trim request.id := by simpa using find?_some stored
      exact here ▸ mem_map_of_mem (mem_of_find?_eq_some stored)
    have targetKnown : s.Knows request.parentFolderId := by
      intro q isTarget
      cases Option.some.inj (target.symm.trans isTarget)
      rcases ReflTransGen.cases_head inside with same | ⟨parent, ⟨place, member, rfl, -⟩, -⟩
      · exact same ▸ known
      · obtain ⟨f, home, rfl⟩ := mem_map.mp member
        exact mem_map_of_mem home
    rw [ensureTarget_of_known targetKnown] at ensured
    cases ensured
    exact scope.off_of_checkNotInside known other outside inside

end Store.InScope

theorem moves_reorder {s : Store} (scope : s.InScope) (apart : s.NoTies) :
    (∀ (request : MoveConnectionRequest) (result : Option ConnectionTree) (s' : Store),
      moveConnection s request = .ok (result, s') →
      ∃ row ∈ s.connections, ∃ w, row.id = Text.trim request.id ∧ row.workspaceId = some w ∧
        Reordered ConnectionRow.id ConnectionRow.sortOrder s.connectionsIn s'.connectionsIn
          (homeAt row.folderId w) (homeAt (normalizeOptionalId request.folderId) w) row.id
          request.targetIndex ∧ s'.foldersIn = s.foldersIn) ∧
    (∀ (request : MoveConnectionFolderRequest) (result : Option ConnectionTree) (s' : Store),
      moveConnectionFolder s request = .ok (result, s') →
      ∃ row ∈ s.folders, ∃ w, row.id = Text.trim request.id ∧ row.workspaceId = some w ∧
        Reordered FolderRow.id FolderRow.sortOrder s.foldersIn s'.foldersIn
          (homeAt row.parentFolderId w) (homeAt (normalizeOptionalId request.parentFolderId) w)
          row.id request.targetIndex ∧ s'.connectionsIn = s.connectionsIn) ∧
    (∀ (request : MoveConnectionFolderRequest) (p : Id),
      normalizeOptionalId request.parentFolderId = some p →
      ReflTransGen s.places.Under p (Text.trim request.id) →
      (∃ e, moveConnectionFolder s request = .error e) ∧
        s.serve (.moveConnectionFolder request) = some s) := by
  refine ⟨?_, ?_, ?_⟩
  · intro request result s' done
    exact scope.moveConnection_reordered apart done
  · intro request result s' done
    exact scope.moveConnectionFolder_reordered apart done
  · intro request p target inside
    obtain ⟨e, failed⟩ := scope.moveConnectionFolder_inside target inside
    refine ⟨⟨e, failed⟩, ?_⟩
    rw [Store.serve, failed]
    rfl

/-- Three Connections at the root of the Default Workspace. -/
def threeConnections : Store :=
  { Store.initial with
    connections := ["a", "b", "c"].zipIdx.map (fun entry =>
      { id := entry.1.toList, folderId := none, workspaceId := some defaultWorkspaceId
        name := entry.1.toList, sortOrder := entry.2 }) }

def lastToFront : MoveConnectionRequest :=
  { id := "c".toList, folderId := none, targetIndex := 0 }

lemma threeConnections_inScope : threeConnections.InScope where
  folderIds := .nil
  connectionIds := by decide
  trimmed := initial_inScope.trimmed
  acyclic := initial_inScope.acyclic
  folders f member := by cases member
  connections := by
    have each : ∀ c ∈ threeConnections.places.connections,
        c.workspace = some defaultWorkspaceId ∧ c.folder = none := by decide
    intro c member
    obtain ⟨named, root⟩ := each c member
    refine ⟨⟨defaultWorkspaceId, mem_singleton.mpr rfl, named⟩, ?_⟩
    intro p up
    cases root.symm.trans up

lemma threeConnections_noTies : threeConnections.NoTies := by
  intro h
  constructor
  · rw [foldersIn_eq]
    exact .nil
  · have distinct : (threeConnections.connections.map (fun c => (c.sortOrder, c.name))).Nodup := by
      decide
    rw [connectionsIn_eq]
    exact (listIn_perm.map _).nodup_iff.mpr (distinct.sublist (filter_sublist.map _))

theorem moves_reorder_lastToFront : ∃ result s',
    moveConnection threeConnections lastToFront = .ok (result, s') ∧
      (s'.connectionsIn (.root defaultWorkspaceId)).map ConnectionRow.id =
        ["c".toList, "a".toList, "b".toList] := by
  have served : (moveConnection threeConnections lastToFront).toBool = true := by decide
  cases outcome : moveConnection threeConnections lastToFront with
  | error e =>
    rw [outcome] at served
    cases served
  | ok moved =>
    refine ⟨moved.1, moved.2, rfl, ?_⟩
    obtain ⟨row, home, w, here, named, order, -⟩ :=
      (moves_reorder threeConnections_inScope threeConnections_noTies).1 lastToFront moved.1
        moved.2 outcome
    have root : ∀ c ∈ threeConnections.connections, c.id = trim lastToFront.id →
        c.folderId = none ∧ c.workspaceId = some defaultWorkspaceId := by decide
    obtain ⟨inNone, inDefault⟩ := root row home here
    cases Option.some.inj (inDefault.symm.trans named)
    rw [inNone, here] at order
    have first : ((threeConnections.connectionsIn (.root defaultWorkspaceId)).map
        ConnectionRow.id)[0]? = some "a".toList := by decide
    obtain ⟨front, rest, others, placed⟩ := order.arrives.between _ first (by decide)
    have others : ["a".toList, "b".toList] = front ++ "a".toList :: rest := others
    rcases front with - | ⟨head, - | ⟨second, tail⟩⟩
    · cases others
      exact placed
    · cases others
    · simp at others

end Connections
