import KKTerm.Connections.Scope

/-!
# Calls that keep folders and Connections in their Workspaces

A call keeps the tables coherent when the folder it names exists, and when a folder
that it moves to another Workspace is empty.
-/

namespace Connections

open Fallible ParentLinks Relation Store Places List Text Cascade

lemma slugChar_dark (c : Char) : isWhitespace (slugChar c) = false := by
  by_cases letter : isAsciiAlphanumeric c = true
  · rw [slugChar, if_pos letter]
    have table : ∀ n < 123, isAsciiAlphanumeric (Char.ofNat n) = true →
        isWhitespace (Char.ofNat n).toLower = false := by
      decide
    have bound : c.toNat < 123 := by
      simp only [isAsciiAlphanumeric, Bool.or_eq_true, Bool.and_eq_true, decide_eq_true_eq]
        at letter
      omega
    have back : Char.ofNat c.toNat = c := Char.ofNat_toNat c
    rw [← back] at letter ⊢
    exact table c.toNat bound letter
  · rw [slugChar, if_neg letter]
    decide

lemma makeUniqueId_dark {fallback name : List Char} {stamp : Stamp}
    (dark : ∀ c ∈ fallback, isWhitespace c = false) :
    ∀ c ∈ makeUniqueId fallback name stamp, isWhitespace c = false := by
  have slug : ∀ c ∈ intercalate ['-'] ((Text.split '-' (name.map slugChar)).filter (· ≠ [])),
      isWhitespace c = false := by
    intro c member
    rcases mem_intercalate member with dash | ⟨part, kept, inside⟩
    · rw [mem_singleton.mp dash]
      decide
    · obtain ⟨source, -, rfl⟩ := mem_map.mp (mem_of_mem_split (mem_filter.mp kept).1 inside)
      exact slugChar_dark source
  intro c member
  simp only [makeUniqueId, mem_append, mem_cons] at member
  rcases member with (start | rfl | time) | rfl | number
  · split at start
    · exact dark c start
    · exact slug c start
  · decide
  · exact isWhitespace_of_isDigit (isDigit_of_mem_toDigits time)
  · decide
  · exact isWhitespace_of_isDigit (isDigit_of_mem_toDigits number)

lemma normalize_makeWorkspaceId (name : List Char) (stamp : Stamp) :
    normalizeWorkspaceId (makeWorkspaceId name stamp) = makeWorkspaceId name stamp := by
  have letters : "workspace".toList.all (fun c => !isWhitespace c) = true := by decide
  have dark : ∀ c ∈ "workspace".toList, isWhitespace c = false := by
    intro c member
    simpa using all_eq_true.mp letters c member
  have trimmed : trim (makeWorkspaceId name stamp) = makeWorkspaceId name stamp :=
    trim_of_dark (makeUniqueId_dark dark)
  have nonempty : makeWorkspaceId name stamp ≠ [] :=
    append_ne_nil_of_right_ne_nil _ (cons_ne_nil _ _)
  rw [normalizeWorkspaceId, trimmed, if_neg nonempty]

section Statements

variable {s s' : Store}

lemma ids_places : s.places.folders.map Place.id = s.folderIds := by
  rw [Store.places, List.map_map]
  rfl

lemma connectionIds_places : s.places.connections.map Place.id = s.connectionIds := by
  rw [Store.places, List.map_map]
  rfl

variable (ids : List Id) {change : FolderRow → FolderRow} {move : Place → Place} {key : Id}
  {folder workspace : Option Id}

lemma setFolder_places {id : Id} (follows : ∀ f, (change f).place = move f.place) :
    (s.setFolder id change).places =
      { s.places with folders := moveIn s.places.folders id move } := by
  have rows : (s.setFolder id change).folders.map FolderRow.place =
      moveIn (s.folders.map FolderRow.place) id move := by
    rw [Store.setFolder, moveIn, List.map_map, List.map_map]
    refine map_congr_left (fun f _ => ?_)
    by_cases here : f.id = id
    · have there : f.place.id = id := here
      simp [here, there, follows]
    · have there : f.place.id ≠ id := here
      simp [here, there]
  rw [Store.places, rows]
  rfl

lemma setConnection_places {id : Id} {change : ConnectionRow → ConnectionRow}
    (follows : ∀ c, (change c).place = move c.place) :
    (s.setConnection id change).places =
      { s.places with connections := moveIn s.places.connections id move } := by
  have rows : (s.setConnection id change).connections.map ConnectionRow.place =
      moveIn (s.connections.map ConnectionRow.place) id move := by
    rw [Store.setConnection, moveIn, List.map_map, List.map_map]
    refine map_congr_left (fun c _ => ?_)
    by_cases here : c.id = id
    · have there : c.place.id = id := here
      simp [here, there, follows]
    · have there : c.place.id ≠ id := here
      simp [here, there]
  rw [Store.places, rows]
  rfl

lemma moveIn_same (rows : List Place) (key : Id) : moveIn rows key id = rows := by
  simp [moveIn]

lemma setFolder_setFolder {first second : FolderRow → FolderRow} (same : ∀ f, (first f).id = f.id) :
    (s.setFolder key first).setFolder key second = s.setFolder key (fun f => second (first f)) := by
  have rows : ∀ f : FolderRow, (if (if f.id = key then first f else f).id = key then
      second (if f.id = key then first f else f) else if f.id = key then first f else f) =
        if f.id = key then second (first f) else f := by
    intro f
    by_cases here : f.id = key
    · simp [here, same]
    · simp [here]
  simp [Store.setFolder, rows]

lemma setConnection_setConnection {first second : ConnectionRow → ConnectionRow}
    (same : ∀ c, (first c).id = c.id) :
    (s.setConnection key first).setConnection key second =
      s.setConnection key (fun c => second (first c)) := by
  have rows : ∀ c : ConnectionRow, (if (if c.id = key then first c else c).id = key then
      second (if c.id = key then first c else c) else if c.id = key then first c else c) =
        if c.id = key then second (first c) else c := by
    intro c
    by_cases here : c.id = key
    · simp [here, same]
    · simp [here]
  simp [Store.setConnection, rows]

/-- The place of a row that is put into a folder, or to the root. -/
def putIn (folder workspace : Option Id) (a : Place) : Place :=
  { a with folder, workspace := workspace.or a.workspace }

lemma putFolder_places :
    (s.putFolder key folder workspace).places =
      { s.places with folders := moveIn s.places.folders key (putIn folder workspace) } := by
  cases workspace with
  | none => exact setFolder_places (fun _ => rfl)
  | some w =>
    rw [Store.putFolder, setFolder_setFolder]
    · exact setFolder_places (fun _ => rfl)
    · exact fun _ => rfl

lemma putConnection_places :
    (s.putConnection key folder workspace).places =
      { s.places with connections := moveIn s.places.connections key (putIn folder workspace) } := by
  cases workspace with
  | none => exact setConnection_places (fun _ => rfl)
  | some w =>
    rw [Store.putConnection, setConnection_setConnection]
    · exact setConnection_places (fun _ => rfl)
    · exact fun _ => rfl

lemma setFolder_keeps (same : ∀ f, (change f).place = f.place) :
    (s.setFolder key change).places = s.places := by
  have follows : ∀ f, (change f).place = id f.place := same
  rw [setFolder_places follows, moveIn_same]

lemma setConnection_keeps {change : ConnectionRow → ConnectionRow}
    (same : ∀ c, (change c).place = c.place) : (s.setConnection key change).places = s.places := by
  have follows : ∀ c, (change c).place = id c.place := same
  rw [setConnection_places follows, moveIn_same]

lemma numberFolders_keeps : (s.numberFolders ids).places = s.places := by
  rw [Store.numberFolders]
  generalize ids.zipIdx = entries
  induction entries generalizing s with
  | nil => rfl
  | cons entry rest ih =>
    rw [foldl_cons, ih]
    exact setFolder_keeps (fun _ => rfl)

lemma numberConnections_keeps : (s.numberConnections ids).places = s.places := by
  rw [Store.numberConnections]
  generalize ids.zipIdx = entries
  induction entries generalizing s with
  | nil => rfl
  | cons entry rest ih =>
    rw [foldl_cons, ih]
    exact setConnection_keeps (fun _ => rfl)

lemma reorderFolders_keeps (parent : Option Id) (workspaceId : Id) (moved : Option (Id × Nat)) :
    (s.reorderFolders parent workspaceId moved).places = s.places := by
  cases parent with
  | none => exact numberFolders_keeps _
  | some p => exact numberFolders_keeps _

lemma reorderConnections_keeps (folderId : Option Id) (workspaceId : Id)
    (moved : Option (Id × Nat)) : (s.reorderConnections folderId workspaceId moved).places = s.places := by
  cases folderId with
  | none => exact numberConnections_keeps _
  | some p => exact numberConnections_keeps _

lemma insertFolder_eq_ok {row : FolderRow} (h : s.insertFolder row = .ok s') :
    row.id ∉ s.folderIds ∧ (∀ p ∈ row.parentFolderId, p ∈ s.folderIds) ∧
      (∀ w ∈ row.workspaceId, w ∈ s.workspaceIds) ∧ s' = { s with folders := s.folders ++ [row] } := by
  obtain ⟨fresh, h⟩ := reject_bind_ok.mp h
  obtain ⟨⟨⟩, parent, h⟩ := bind_eq_ok.mp h
  obtain ⟨⟨⟩, workspace, h⟩ := bind_eq_ok.mp h
  cases h
  exact ⟨fresh, not_not.mp (reject_eq_ok.mp parent), not_not.mp (reject_eq_ok.mp workspace), rfl⟩

lemma insertConnection_eq_ok {row : ConnectionRow} (h : s.insertConnection row = .ok s') :
    row.id ∉ s.connectionIds ∧ (∀ p ∈ row.folderId, p ∈ s.folderIds) ∧
      (∀ w ∈ row.workspaceId, w ∈ s.workspaceIds) ∧
        s' = { s with connections := s.connections ++ [row] } := by
  obtain ⟨fresh, h⟩ := reject_bind_ok.mp h
  obtain ⟨⟨⟩, folder, h⟩ := bind_eq_ok.mp h
  obtain ⟨⟨⟩, workspace, h⟩ := bind_eq_ok.mp h
  cases h
  exact ⟨fresh, not_not.mp (reject_eq_ok.mp folder), not_not.mp (reject_eq_ok.mp workspace), rfl⟩

end Statements

/-- Every folder and every Connection is in the Workspace it names. -/
def Store.InScope (s : Store) : Prop :=
  s.places.Coherent

/-- The folder that a call names, when it names one, is there. -/
def Store.Knows (s : Store) (folderId : Option Id) : Prop :=
  ∀ p ∈ normalizeOptionalId folderId, p ∈ s.folderIds

instance (s : Store) (folderId : Option Id) : Decidable (s.Knows folderId) :=
  inferInstanceAs (Decidable (∀ p ∈ normalizeOptionalId folderId, p ∈ s.folderIds))

lemma ensureTarget_of_known {s : Store} {folderId : Option Id} (known : s.Knows folderId) :
    s.ensureTarget (normalizeOptionalId folderId) = .ok s := by
  cases target : normalizeOptionalId folderId with
  | none => rfl
  | some p => exact if_pos (known p target)

namespace Store.InScope

variable {s s' : Store} (scope : s.InScope)
include scope

lemma of_same (same : s'.places = s.places) : s'.InScope := by
  rw [Store.InScope, same]
  exact scope

lemma folder_place {p : Id} (known : p ∈ s.folderIds) :
    ∃ f ∈ s.places.folders, f.id = p ∧ f.workspace = some (s.folderWorkspaceId p) := by
  have present : (s.folder p).isSome := by
    obtain ⟨f, home, rfl⟩ := mem_map.mp known
    exact find?_isSome.mpr ⟨f, home, by simp⟩
  obtain ⟨f, found⟩ := Option.isSome_iff_exists.mp present
  have home : f.place ∈ s.places.folders := mem_map_of_mem (mem_of_find?_eq_some found)
  obtain ⟨⟨w, workspace, named⟩, -⟩ := scope.folders f.place home
  have here : f.id = p := by simpa using find?_some found
  refine ⟨f.place, home, here, ?_⟩
  have column : f.workspaceId = some w := named
  rw [Store.folderWorkspaceId, found, Option.bind_some, column, Option.getD_some,
    scope.trimmed w workspace]
  exact named

lemma insertFolder {row : FolderRow} (h : s.insertFolder row = .ok s')
    (named : ∃ w, row.workspaceId = some w)
    (same : ∀ p, row.parentFolderId = some p → row.workspaceId = some (s.folderWorkspaceId p)) :
    s'.InScope := by
  obtain ⟨fresh, parent, workspace, rfl⟩ := insertFolder_eq_ok h
  have placed : s.places.Holds row.place := by
    refine ⟨named.imp (fun w column => ⟨workspace w column, column⟩), ?_⟩
    intro p up
    obtain ⟨f, home, here, there⟩ := scope.folder_place (parent p up)
    exact ⟨f, home, here, there.trans (same p up).symm⟩
  have added := Coherent.addFolder scope (ids_places ▸ fresh) placed
  rw [Store.InScope, Store.places, map_append]
  exact added

lemma insertConnection {row : ConnectionRow} (h : s.insertConnection row = .ok s')
    (named : ∃ w, row.workspaceId = some w)
    (same : ∀ p, row.folderId = some p → row.workspaceId = some (s.folderWorkspaceId p)) :
    s'.InScope := by
  obtain ⟨fresh, folder, workspace, rfl⟩ := insertConnection_eq_ok h
  have placed : s.places.Holds row.place := by
    refine ⟨named.imp (fun w column => ⟨workspace w column, column⟩), ?_⟩
    intro p up
    obtain ⟨f, home, here, there⟩ := scope.folder_place (folder p up)
    exact ⟨f, home, here, there.trans (same p up).symm⟩
  have added := Coherent.addConnection scope (connectionIds_places ▸ fresh) placed
  rw [Store.InScope, Store.places, map_append]
  exact added

end Store.InScope

section Below

variable {s : Store}

lemma mem_foldersForParent {parent : Option Id} {f : FolderRow} :
    f ∈ s.foldersForParent parent ↔ f ∈ s.folders ∧ f.parentFolderId = parent := by
  rw [Store.foldersForParent, bySortOrder, mem_insertionSort, mem_filter, decide_eq_true_eq]

lemma mem_listFolderIds {p x : Id} :
    x ∈ s.listFolderIdsForParent (some p) ↔ s.places.Under x p := by
  simp only [Store.listFolderIdsForParent, mem_map, mem_foldersForParent]
  constructor
  · rintro ⟨f, ⟨home, up⟩, rfl⟩
    exact ⟨f.place, mem_map_of_mem home, rfl, up⟩
  · rintro ⟨a, member, rfl, up⟩
    obtain ⟨f, home, rfl⟩ := mem_map.mp member
    exact ⟨f, ⟨home, up⟩, rfl⟩

lemma Store.InScope.exists_height (scope : s.InScope) :
    ∃ height : Id → Nat, (∀ a b, s.places.Under a b → height a < height b) ∧
      ∀ a ∈ s.folderIds, height a < s.folders.length := by
  have links : ParentTree.LinksFrom s.places.Under s.folderIds := by
    rintro a b ⟨place, member, rfl, -⟩
    obtain ⟨f, home, rfl⟩ := mem_map.mp member
    exact mem_map_of_mem home
  obtain ⟨height, rises, bounded⟩ := ParentTree.exists_height scope.acyclic links
  refine ⟨height, rises, ?_⟩
  intro a member
  have bound := bounded a member
  rwa [Store.folderIds, length_map] at bound

/-- The search for a folder ends, and finds what is below. -/
lemma folderHasDescendant_eq_some (scope : s.InScope) {id x : Id} {found : Bool}
    (known : id ∈ s.folderIds) (h : s.folderHasDescendant id x = some found) :
    found = true ↔ TransGen s.places.Under x id := by
  obtain ⟨height, rises, bounded⟩ := scope.exists_height
  have falls : ∀ a, ∀ b ∈ s.listFolderIdsForParent (some a), height b < height a :=
    fun a b member => rises b a (mem_listFolderIds.mp member)
  obtain ⟨result, returned, below⟩ := ParentTree.isBelow_returns falls (x := x) (bounded id known)
  have same : result = found := Option.some.inj (returned.symm.trans h)
  have links : (fun b c => b ∈ s.listFolderIdsForParent (some c)) = s.places.Under := by
    funext b c
    exact propext mem_listFolderIds
  rw [← same, below, links]

end Below

def Store.IsEmpty (s : Store) (folderId : Id) : Prop :=
  (∀ f ∈ s.folders, f.parentFolderId ≠ some folderId) ∧
    ∀ c ∈ s.connections, c.folderId ≠ some folderId

instance (s : Store) (folderId : Id) : Decidable (s.IsEmpty folderId) :=
  inferInstanceAs (Decidable (_ ∧ _))

/-- The folder that is named exists, and a folder with something in it stays in its
Workspace. -/
def Call.Stays (s : Store) : Call → Prop
  | .createConnectionFolder _ request => s.Knows request.parentFolderId
  | .createConnection _ request => s.Knows request.folderId
  | .updateConnection request => s.Knows request.folderId
  | .moveConnection request => s.Knows request.folderId
  | .moveConnectionFolder request =>
    s.Knows request.parentFolderId ∧ ∀ p ∈ normalizeOptionalId request.parentFolderId,
      s.folderWorkspaceId p = s.folderWorkspaceId (Text.trim request.id) ∨
        s.IsEmpty (Text.trim request.id)
  | _ => True

lemma places_of_isEmpty {s : Store} {id : Id} (empty : s.IsEmpty id) :
    (∀ f ∈ s.places.folders, f.folder ≠ some id) ∧
      ∀ c ∈ s.places.connections, c.folder ≠ some id := by
  constructor
  · intro a member
    obtain ⟨f, home, rfl⟩ := mem_map.mp member
    exact empty.1 f home
  · intro a member
    obtain ⟨c, home, rfl⟩ := mem_map.mp member
    exact empty.2 c home

lemma connection_place {s : Store} {id : Id} {row : ConnectionRow}
    (found : s.connection id = some row) : row.place ∈ s.places.connections :=
  mem_map_of_mem (mem_of_find?_eq_some found)

lemma inScope_of_reordered {s : Store} {c : Prop} [Decidable c] {source target : Option Id}
    {v w : Id} {first second : Option (Id × Nat)} (scope : s.InScope) :
    (if c then s else (s.reorderConnections source v first).reorderConnections target w
      second).InScope := by
  split
  · exact scope
  · exact scope.of_same ((reorderConnections_keeps _ _ _).trans (reorderConnections_keeps _ _ _))

lemma requiredField_eq_ok {field : String} {value result : List Char}
    (h : requiredField field value = .ok result) : result = trim value := by
  obtain ⟨-, done⟩ := reject_bind_ok.mp h
  cases done
  rfl

namespace Store.InScope

variable {s s' : Store} (scope : s.InScope)
include scope

variable {stamp : Stamp} {result : Option ConnectionRow}

lemma createConnectionFolder {request : CreateConnectionFolderRequest}
    (known : s.Knows request.parentFolderId) :
    (createConnectionFolder s stamp request).2.InScope := by
  rw [Connections.createConnectionFolder]
  dsimp only
  split
  next => exact scope
  next name icon there prepared =>
    obtain ⟨_, -, prepared⟩ := bind_eq_ok.mp prepared
    obtain ⟨_, -, prepared⟩ := bind_eq_ok.mp prepared
    obtain ⟨after, ensured, done⟩ := bind_eq_ok.mp prepared
    rw [ensureTarget_of_known known] at ensured
    cases ensured
    cases done
    split
    next => exact scope
    next inserted =>
      refine scope.insertFolder inserted ⟨_, rfl⟩ ?_
      intro p up
      have target : normalizeOptionalId request.parentFolderId = some p := up
      simp only [target, Store.workspaceIn]

lemma renameConnectionFolder {request : RenameConnectionFolderRequest}
    {result : Option ConnectionFolder}
    (h : renameConnectionFolder s request = .ok (result, s')) : s'.InScope := by
  obtain ⟨id, -, h⟩ := bind_eq_ok.mp h
  obtain ⟨name, -, h⟩ := bind_eq_ok.mp h
  obtain ⟨icon, -, h⟩ := bind_eq_ok.mp h
  obtain ⟨-, done⟩ := reject_bind_ok.mp h
  cases done
  exact scope.of_same (setFolder_keeps (fun _ => rfl))

/-- A row that is put under a known folder names the Workspace of that folder. -/
lemma holds_put {folderId : Option Id} (known : s.Knows folderId) {a : Place}
    (held : s.places.Holds a) :
    s.places.Holds (putIn (normalizeOptionalId folderId)
      ((normalizeOptionalId folderId).map s.folderWorkspaceId) a) := by
  cases target : normalizeOptionalId folderId with
  | none =>
    refine ⟨held.1, ?_⟩
    intro p up
    cases up
  | some p =>
    obtain ⟨f, parent, rfl, column⟩ := scope.folder_place (known p target)
    exact Coherent.holds_under scope parent rfl column.symm

/-- The search from a folder that is there finds out whether the target is inside. -/
lemma off_of_checkNotInside {id p : Id} (known : id ∈ s.folderIds) (other : some p ≠ some id)
    (h : checkNotInside s id (some p) = .ok ()) : ¬ ReflTransGen s.places.Under p id := by
  obtain ⟨below, searched, h⟩ := bind_eq_ok.mp h
  have apart := reject_eq_ok.mp h
  have descent := folderHasDescendant_eq_some scope known (require_eq_ok.mp searched)
  intro path
  rcases reflTransGen_iff_eq_or_transGen.mp path with same | strict
  · exact other (congrArg some same.symm)
  · exact apart (descent.mpr strict)

lemma moveConnectionFolder {request : MoveConnectionFolderRequest}
    {result : Option ConnectionTree} (known : s.Knows request.parentFolderId)
    (stays : ∀ p ∈ normalizeOptionalId request.parentFolderId,
      s.folderWorkspaceId p = s.folderWorkspaceId (trim request.id) ∨
        s.IsEmpty (trim request.id))
    (h : moveConnectionFolder s request = .ok (result, s')) : s'.InScope := by
  obtain ⟨id, named, h⟩ := bind_eq_ok.mp h
  cases requiredField_eq_ok named
  obtain ⟨itself, h⟩ := reject_bind_ok.mp h
  obtain ⟨source, found, h⟩ := bind_eq_ok.mp h
  obtain ⟨after, ensured, h⟩ := bind_eq_ok.mp h
  rw [ensureTarget_of_known known] at ensured
  cases ensured
  obtain ⟨⟨⟩, outside, h⟩ := bind_eq_ok.mp h
  obtain ⟨⟨⟩, -, h⟩ := bind_eq_ok.mp h
  cases h
  rw [Store.InScope, reorderFolders_keeps, reorderFolders_keeps]
  have here : trim request.id ∈ s.folderIds := by
    obtain ⟨f, stored, -⟩ := Option.map_eq_some_iff.mp (require_eq_ok.mp found)
    have same : f.id = trim request.id := by simpa using find?_some stored
    exact same ▸ mem_map_of_mem (mem_of_find?_eq_some stored)
  obtain ⟨row, home, same, named⟩ := scope.folder_place here
  rw [putFolder_places, ← same]
  refine Coherent.moveFolder scope home (fun _ => rfl) ?_ ?_ ?_
  · exact scope.holds_put known (scope.folders row home)
  · intro p up
    have target : normalizeOptionalId request.parentFolderId = some p := up
    rw [target] at itself outside
    exact same ▸ scope.off_of_checkNotInside here itself outside
  · cases target : normalizeOptionalId request.parentFolderId with
    | none => exact .inl rfl
    | some p =>
      rcases stays p target with agree | empty
      · refine .inl ?_
        rw [named, ← agree]
        rfl
      · rw [same]
        exact .inr (places_of_isEmpty empty)

lemma createConnection {request : CreateConnectionRequest} {row : ConnectionRow}
    (known : s.Knows request.folderId) (h : createConnection s stamp request = .ok (row, s')) :
    s'.InScope := by
  obtain ⟨name, -, h⟩ := bind_eq_ok.mp h
  obtain ⟨⟨⟩, -, h⟩ := bind_eq_ok.mp h
  obtain ⟨after, ensured, h⟩ := bind_eq_ok.mp h
  rw [ensureTarget_of_known known] at ensured
  cases ensured
  obtain ⟨stored, inserted, done⟩ := bind_eq_ok.mp h
  cases done
  refine scope.insertConnection inserted ⟨_, rfl⟩ ?_
  intro p up
  have target : normalizeOptionalId request.folderId = some p := up
  simp only [target, Store.workspaceIn]

/-- The Workspace that is read for a Connection is the one its row names. -/
lemma normalize_workspace {row : ConnectionRow} (home : row.place ∈ s.places.connections) :
    some (normalizeWorkspaceId (row.workspaceId.getD [])) = row.workspaceId := by
  obtain ⟨⟨w, workspace, named⟩, -⟩ := scope.connections row.place home
  have column : row.workspaceId = some w := named
  rw [column, Option.getD_some, scope.trimmed w workspace]

lemma setConnection {key w : Id} {folder : Option Id} {change : ConnectionRow → ConnectionRow}
    (same : ∀ c, (change c).place = { id := c.id, folder, workspace := some w })
    (holds : ∀ id, s.places.Holds { id, folder, workspace := some w }) :
    (s.setConnection key change).InScope := by
  have follows : ∀ c, (change c).place = putIn folder (some w) c.place := same
  rw [Store.InScope, setConnection_places follows]
  exact Coherent.moveConnection scope (fun _ => rfl) (fun a _ _ => holds a.id)

lemma updateConnection {request : UpdateConnectionRequest} (known : s.Knows request.folderId)
    (h : updateConnection s request = .ok (result, s')) : s'.InScope := by
  obtain ⟨id, -, h⟩ := bind_eq_ok.mp h
  obtain ⟨name, -, h⟩ := bind_eq_ok.mp h
  obtain ⟨⟨⟩, -, h⟩ := bind_eq_ok.mp h
  obtain ⟨existing, found, h⟩ := bind_eq_ok.mp h
  obtain ⟨after, ensured, h⟩ := bind_eq_ok.mp h
  rw [ensureTarget_of_known known] at ensured
  cases ensured
  obtain ⟨⟨⟩, -, done⟩ := bind_eq_ok.mp h
  cases done
  have home := connection_place (require_eq_ok.mp found)
  have holds : ∀ id, s.places.Holds
      { id, folder := normalizeOptionalId request.folderId
        workspace := some (s.workspaceIn (normalizeOptionalId request.folderId)
          (normalizeWorkspaceId (existing.workspaceId.getD []))) } := by
    intro id
    cases target : normalizeOptionalId request.folderId with
    | none =>
      -- a Connection at the root keeps its Workspace
      obtain ⟨⟨w, workspace, named⟩, -⟩ := scope.connections existing.place home
      refine ⟨⟨w, workspace, (scope.normalize_workspace home).trans named⟩, ?_⟩
      intro p up
      cases up
    | some p =>
      obtain ⟨f, parent, rfl, column⟩ := scope.folder_place (known p target)
      exact Coherent.holds_under scope parent rfl column.symm
  exact inScope_of_reordered (scope.setConnection (fun _ => rfl) holds)

lemma renameConnection {request : RenameConnectionRequest}
    (h : renameConnection s request = .ok (result, s')) : s'.InScope := by
  obtain ⟨id, -, h⟩ := bind_eq_ok.mp h
  obtain ⟨name, -, h⟩ := bind_eq_ok.mp h
  obtain ⟨-, done⟩ := reject_bind_ok.mp h
  cases done
  exact scope.of_same (setConnection_keeps (fun _ => rfl))

lemma deleteConnection {id : Id} (h : deleteConnection s id = .ok s') : s'.InScope := by
  obtain ⟨id, -, h⟩ := bind_eq_ok.mp h
  obtain ⟨-, done⟩ := reject_bind_ok.mp h
  cases done
  refine Coherent.remove scope (Subset.refl _) (Sublist.refl _)
    (filter_sublist.map ConnectionRow.place) ?_ ?_
  · exact fun _ _ held => held
  · exact fun _ _ held => held

lemma duplicateConnection {request : DuplicateConnectionRequest}
    (h : duplicateConnection s stamp request = .ok (result, s')) : s'.InScope := by
  obtain ⟨id, -, h⟩ := bind_eq_ok.mp h
  obtain ⟨source, found, h⟩ := bind_eq_ok.mp h
  obtain ⟨stored, inserted, done⟩ := bind_eq_ok.mp h
  cases done
  refine scope.insertConnection inserted ⟨_, rfl⟩ ?_
  intro p up
  have home := connection_place (require_eq_ok.mp found)
  obtain ⟨f, parent, here, column⟩ := (scope.connections source.place home).2 p up
  have known : p ∈ s.folderIds := ids_places ▸ here ▸ mem_map_of_mem parent
  obtain ⟨g, parent', there, named⟩ := scope.folder_place known
  cases Coherent.eq_of_id scope parent parent' (here.trans there.symm)
  exact (scope.normalize_workspace home).trans (column.symm.trans named)

lemma moveConnection {request : MoveConnectionRequest} {result : Option ConnectionTree}
    (known : s.Knows request.folderId) (h : moveConnection s request = .ok (result, s')) :
    s'.InScope := by
  obtain ⟨id, -, h⟩ := bind_eq_ok.mp h
  obtain ⟨row, found, h⟩ := bind_eq_ok.mp h
  obtain ⟨after, ensured, h⟩ := bind_eq_ok.mp h
  rw [ensureTarget_of_known known] at ensured
  cases ensured
  obtain ⟨⟨⟩, -, done⟩ := bind_eq_ok.mp h
  cases done
  rw [Store.InScope, reorderConnections_keeps, reorderConnections_keeps, putConnection_places]
  refine Coherent.moveConnection scope (fun _ => rfl) ?_
  intro a home _
  exact scope.holds_put known (scope.connections a home)

lemma createWorkspace {stamps : Nat → Stamp} {request : CreateWorkspaceRequest} {row : Workspace}
    (h : createWorkspace s stamps request = .ok (row, s')) : s'.InScope := by
  obtain ⟨name, -, h⟩ := bind_eq_ok.mp h
  obtain ⟨added, inserted, h⟩ := bind_eq_ok.mp h
  obtain ⟨copied, copies, done⟩ := bind_eq_ok.mp h
  cases done
  have start : added.InScope := by
    obtain ⟨-, done⟩ := reject_bind_ok.mp inserted
    cases done
    have grown := Coherent.addWorkspace scope (normalize_makeWorkspaceId name (stamps 0))
    rw [Store.InScope, Store.places, Store.workspaceIds, map_append]
    exact grown
  refine foldlM_invariant (P := fun state => state.1.InScope) ?_ copies start
  intro state source next _ copied scope
  rw [copyConnection] at copied
  split at copied
  next =>
    cases copied
    exact scope
  next source _ =>
    obtain ⟨stored, inserted, done⟩ := bind_eq_ok.mp copied
    cases done
    refine scope.insertConnection inserted ⟨_, rfl⟩ ?_
    intro p up
    cases up

lemma deleteFolders (ids : List Id) : (s.deleteFolders ids).InScope := by
  refine Coherent.remove scope (Subset.refl _) (filter_sublist.map FolderRow.place)
    (filter_sublist.map ConnectionRow.place) ?_ ?_
  · rintro a member ⟨workspace, inside⟩
    refine ⟨workspace, ?_⟩
    intro p up
    obtain ⟨f, kept, rfl⟩ := mem_map.mp member
    obtain ⟨home, left⟩ := mem_filter.mp kept
    obtain ⟨b, parent, rfl, same⟩ := inside p up
    obtain ⟨g, gHome, rfl⟩ := mem_map.mp parent
    refine ⟨g.place, mem_map_of_mem (mem_filter.mpr ⟨gHome, ?_⟩), rfl, same⟩
    -- a folder that stays has not lost its parent
    have closed : Closed FolderRow.id FolderRow.parentFolderId s.folders
        (cascade FolderRow.id FolderRow.parentFolderId s.folders ids) :=
      cascade_closed
    exact decide_eq_true (fun gone => of_decide_eq_true left (closed f home g.id up gone))
  · rintro a member ⟨workspace, inside⟩
    refine ⟨workspace, ?_⟩
    intro p up
    obtain ⟨c, kept, rfl⟩ := mem_map.mp member
    obtain ⟨-, left⟩ := mem_filter.mp kept
    obtain ⟨b, parent, rfl, same⟩ := inside p up
    obtain ⟨g, gHome, rfl⟩ := mem_map.mp parent
    refine ⟨g.place, mem_map_of_mem (mem_filter.mpr ⟨gHome, ?_⟩), rfl, same⟩
    have folder : c.folderId = some g.id := up
    simpa [folder] using left

lemma folder_unique {f g : FolderRow} (hf : f ∈ s.folders) (hg : g ∈ s.folders)
    (same : f.id = g.id) : f = g := by
  have ids : s.folderIds.Nodup := ids_places ▸ Coherent.folderIds scope
  exact inj_on_of_nodup_map ids hf hg same

lemma folder_parent {f : FolderRow} (home : f ∈ s.folders) {p : Id}
    (up : f.parentFolderId = some p) :
    ∃ g ∈ s.folders, g.id = p ∧ g.workspaceId = f.workspaceId := by
  obtain ⟨b, parent, here, same⟩ := (scope.folders f.place (mem_map_of_mem home)).2 p up
  obtain ⟨g, gHome, rfl⟩ := mem_map.mp parent
  exact ⟨g, gHome, here, same⟩

lemma connection_folder {c : ConnectionRow} (home : c ∈ s.connections) {p : Id}
    (up : c.folderId = some p) :
    ∃ g ∈ s.folders, g.id = p ∧ g.workspaceId = c.workspaceId := by
  obtain ⟨b, parent, here, same⟩ := (scope.connections c.place (mem_map_of_mem home)).2 p up
  obtain ⟨g, gHome, rfl⟩ := mem_map.mp parent
  exact ⟨g, gHome, here, same⟩

/-- What is in a Workspace stays together, so that nothing else is deleted with it. -/
lemma deleteWorkspaceRow_eq (id : Id) : s.deleteWorkspaceRow id =
    { workspaces := s.workspaces.filter (·.id ≠ id)
      folders := s.folders.filter (·.workspaceId ≠ some id)
      connections := s.connections.filter (·.workspaceId ≠ some id) } := by
  have named : ∀ {f : FolderRow}, f ∈ s.folders →
      (f.id ∈ (s.folders.filter (·.workspaceId = some id)).map FolderRow.id ↔
        f.workspaceId = some id) := by
    intro f home
    constructor
    · intro member
      obtain ⟨g, kept, same⟩ := mem_map.mp member
      obtain ⟨gHome, column⟩ := mem_filter.mp kept
      cases scope.folder_unique gHome home same
      exact of_decide_eq_true column
    · intro column
      exact mem_map_of_mem (mem_filter.mpr ⟨home, decide_eq_true column⟩)
  have closed : Closed FolderRow.id FolderRow.parentFolderId s.folders
      ((s.folders.filter (·.workspaceId = some id)).map FolderRow.id) := by
    intro f home p up gone
    obtain ⟨g, parent, rfl, same⟩ := scope.folder_parent home up
    rw [named parent] at gone
    exact (named home).mpr (same.symm.trans gone)
  rw [Store.deleteWorkspaceRow, Store.deleteFolders, closed.cascade]
  congr 1
  · refine filter_congr (fun f home => ?_)
    rw [decide_eq_decide, not_iff_not]
    exact named home
  · rw [filter_filter]
    refine filter_congr (fun c home => ?_)
    cases inside : c.folderId with
    | none => simp
    | some p =>
      obtain ⟨g, parent, rfl, same⟩ := scope.connection_folder home inside
      have both := named parent
      rw [same] at both
      by_cases column : c.workspaceId = some id
      · simp [column]
      · have outside := mt both.mp column
        simp only [Option.any_some, outside]
        simp [column]

lemma deleteWorkspaceRow (id : Id) : (s.deleteWorkspaceRow id).InScope := by
  rw [scope.deleteWorkspaceRow_eq]
  have others : ∀ a : Place, s.places.Holds a → a.workspace ≠ some id →
      (∃ w ∈ (s.workspaces.filter (·.id ≠ id)).map Workspace.id, a.workspace = some w) ∧
        ∀ p, a.folder = some p → ∃ f ∈ (s.folders.filter (·.workspaceId ≠ some id)).map
          FolderRow.place, f.id = p ∧ f.workspace = a.workspace := by
    rintro a ⟨⟨w, known, named⟩, inside⟩ other
    constructor
    · obtain ⟨row, home, rfl⟩ := mem_map.mp known
      refine ⟨row.id, mem_map_of_mem (mem_filter.mpr ⟨home, decide_eq_true ?_⟩), named⟩
      exact fun same => other (named.trans (congrArg some same))
    · intro p up
      obtain ⟨b, parent, here, same⟩ := inside p up
      obtain ⟨f, home, rfl⟩ := mem_map.mp parent
      refine ⟨f.place, mem_map_of_mem (mem_filter.mpr ⟨home, decide_eq_true ?_⟩), here, same⟩
      exact fun column => other (same.symm.trans column)
  refine Coherent.remove scope ?_ (filter_sublist.map FolderRow.place)
    (filter_sublist.map ConnectionRow.place) ?_ ?_
  · exact (filter_sublist.map Workspace.id).subset
  · intro a member held
    obtain ⟨f, kept, rfl⟩ := mem_map.mp member
    exact others f.place held (of_decide_eq_true (mem_filter.mp kept).2)
  · intro a member held
    obtain ⟨c, kept, rfl⟩ := mem_map.mp member
    exact others c.place held (of_decide_eq_true (mem_filter.mp kept).2)

lemma reorderWorkspaces (request : ReorderWorkspacesRequest) :
    (reorderWorkspaces s request).2.InScope := by
  rw [Connections.reorderWorkspaces]
  dsimp only
  generalize request.orderedIds.zipIdx = entries
  induction entries generalizing s with
  | nil => exact scope
  | cons entry rest ih =>
    rw [foldl_cons]
    refine ih (scope.of_same ?_)
    have ids : (s.setWorkspace entry.1 (fun w => { w with sortOrder := entry.2 })).workspaceIds =
        s.workspaceIds := by
      rw [Store.workspaceIds, Store.setWorkspace, List.map_map]
      refine map_congr_left (fun w _ => ?_)
      rw [Function.comp_apply]
      split <;> rfl
    rw [Store.places, ids]
    rfl

lemma serve {call : Call} (stays : call.Stays s) (h : s.serve call = some s') : s'.InScope := by
  have orElse {α : Type} {x : Except StorageError (α × Store)}
      (ok : ∀ a t, x = .ok (a, t) → t.InScope) : (orElse s x).InScope := by
    cases x with
    | error e => exact scope
    | ok pair => exact ok pair.1 pair.2 rfl
  have orStay {x : Except StorageError Store} (ok : ∀ t, x = .ok t → t.InScope) :
      (x.toOption.getD s).InScope := by
    cases x with
    | error e => exact scope
    | ok t => exact ok t rfl
  cases call with
  | createConnectionFolder stamp request =>
    cases h
    exact scope.createConnectionFolder stays
  | renameConnectionFolder request =>
    cases h
    exact orElse (fun _ _ done => scope.renameConnectionFolder done)
  | moveConnectionFolder request =>
    cases h
    exact orElse (fun _ _ done => scope.moveConnectionFolder stays.1 stays.2 done)
  | deleteConnectionFolder id =>
    cases h
    refine orStay (fun t done => ?_)
    obtain ⟨folderId, -, done⟩ := bind_eq_ok.mp done
    obtain ⟨-, done⟩ := reject_bind_ok.mp done
    cases done
    exact scope.deleteFolders [folderId]
  | createConnection stamp request =>
    cases h
    exact orElse (fun _ _ done => scope.createConnection stays done)
  | renameConnection request =>
    cases h
    exact orElse (fun _ _ done => scope.renameConnection done)
  | moveConnection request =>
    cases h
    exact orElse (fun _ _ done => scope.moveConnection stays done)
  | deleteConnection id =>
    cases h
    exact orStay (fun _ done => scope.deleteConnection done)
  | updateConnection request =>
    cases h
    exact orElse (fun _ _ done => scope.updateConnection stays done)
  | duplicateConnection stamp request =>
    cases h
    exact orElse (fun _ _ done => scope.duplicateConnection done)
  | createWorkspace stamps request =>
    cases h
    exact orElse (fun _ _ done => scope.createWorkspace done)
  | deleteWorkspace id =>
    cases h
    refine orStay (fun t done => ?_)
    obtain ⟨workspaceId, -, done⟩ := bind_eq_ok.mp done
    obtain ⟨row, -, done⟩ := bind_eq_ok.mp done
    obtain ⟨-, done⟩ := reject_bind_ok.mp done
    cases done
    exact scope.deleteWorkspaceRow workspaceId
  | reorderWorkspaces request =>
    cases h
    exact scope.reorderWorkspaces request

end Store.InScope

lemma initial_inScope : Store.initial.InScope where
  folderIds := .nil
  connectionIds := .nil
  trimmed := by
    intro w member
    rw [mem_singleton.mp member]
    decide
  acyclic := by
    refine acyclic_of_empty ?_
    rintro a b ⟨f, member, -⟩
    cases member
  folders f member := by cases member
  connections c member := by cases member

/-- Calls that leave folders with something in them in their Workspace keep the tables
coherent. -/
lemma inScope_run {calls : List Call} (stays : Runs.Along Store.serve (fun s call => call.Stays s)
    .initial calls) {s : Store} (ran : Runs.run Store.serve .initial calls = some s) : s.InScope :=
  Runs.along_invariant (fun _ _ _ served stays scope => scope.serve stays served) stays ran
    initial_inScope

end Connections
