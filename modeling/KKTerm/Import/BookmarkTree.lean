import KKTerm.Import.Bookmarks
import KKTerm.Library.ParentTree

/-!
# The tree and the selection

Every row has one parent, and the rows of the root are taken out of the map, so what is
reached from the root has no cycle. Each row that is reached and can be shown stands in the
tree once, below its parent; the drafts are those of the bookmarks at or below a selected
node.
-/

namespace Import

open Option hiding mem_map
open ParentLinks ParentTree Relation List

lemma printInt_injective : Function.Injective printInt := by
  intro m n same
  have minus {k : Nat} : '-' ∉ Nat.toDigits 10 k := Text.not_mem_toDigits rfl
  cases m with
  | ofNat m =>
    cases n with
    | ofNat n => exact congrArg Int.ofNat (Text.toDigits_injective same)
    | negSucc n =>
      have front : '-' ∈ printInt (.ofNat m) := same ▸ mem_cons_self
      exact absurd front minus
  | negSucc m =>
    cases n with
    | ofNat n =>
      have front : '-' ∈ printInt (.ofNat n) := same ▸ mem_cons_self
      exact absurd front minus
    | negSucc n =>
      have texts : '-' :: Nat.toDigits 10 (m + 1) = '-' :: Nat.toDigits 10 (n + 1) := same
      rw [cons_inj_right] at texts
      rw [Nat.succ.inj (Text.toDigits_injective texts)]

lemma firefoxId_injective : Function.Injective firefoxId := by
  intro m n same
  have texts : "firefox-".toList ++ printInt m = "firefox-".toList ++ printInt n := same
  rw [append_right_inj] at texts
  exact printInt_injective texts

lemma firefoxId_ne_root (id : Int) : firefoxId id ≠ rootId := by
  intro same
  have texts : 'f' :: ("irefox-".toList ++ printInt id) = 'r' :: "oot".toList := same
  exact absurd (List.cons.inj texts).1 (by decide)

inductive Reached (rows : List FirefoxBookmarkRow) : FirefoxBookmarkRow → Prop where
  | top {row} : row ∈ rows → row.parent = 0 → Reached rows row
  | under {row above} : Reached rows above → above.nodeType = 2 → above.id ≠ 0 → row ∈ rows →
      row.parent = above.id → Reached rows row

/-- A row and the folder that is reached and lists it. -/
def Link (rows : List FirefoxBookmarkRow) (row above : FirefoxBookmarkRow) : Prop :=
  Reached rows above ∧ above.nodeType = 2 ∧ above.id ≠ 0 ∧ row ∈ rows ∧ row.parent = above.id

abbrev Below (rows : List FirefoxBookmarkRow) : FirefoxBookmarkRow → FirefoxBookmarkRow → Prop :=
  ReflTransGen (Link rows)

section Links
variable {rows : List FirefoxBookmarkRow} {row above x : FirefoxBookmarkRow}

lemma Reached.mem (reached : Reached rows row) : row ∈ rows := by
  cases reached with
  | top member _ => exact member
  | under _ _ _ member _ => exact member

lemma Link.reached (link : Link rows row above) : Reached rows row :=
  .under link.1 link.2.1 link.2.2.1 link.2.2.2.1 link.2.2.2.2

lemma top_free (top : row.parent = 0) : ∀ above, ¬ Link rows row above :=
  fun _ link => link.2.2.1 (link.2.2.2.2.symm.trans top)

lemma Below.mem (below : Below rows x row) (member : row ∈ rows) : x ∈ rows := by
  cases ReflTransGen.cases_head below with
  | inl same => exact same ▸ member
  | inr step =>
    obtain ⟨_, link, -⟩ := step
    exact link.2.2.2.1

lemma Below.reached (below : Below rows x row) (reached : Reached rows row) : Reached rows x := by
  cases ReflTransGen.cases_head below with
  | inl same => exact same ▸ reached
  | inr step =>
    obtain ⟨_, link, -⟩ := step
    exact link.reached

/-- Above every row that is reached there is a row of the root. -/
lemma Reached.exists_top (reached : Reached rows row) :
    ∃ top ∈ rows, top.parent = 0 ∧ Below rows row top := by
  induction reached with
  | @top row member parent => exact ⟨row, member, parent, .refl⟩
  | under reached folder some_ member parent ih =>
    obtain ⟨top, home, free, path⟩ := ih
    exact ⟨top, home, free, path.head ⟨reached, folder, some_, member, parent⟩⟩

lemma links_from : LinksFrom (Link rows) rows :=
  fun _ _ link => link.2.2.2.1

variable (distinct : (rows.map FirefoxBookmarkRow.id).Nodup)
include distinct

lemma row_unique {a b : FirefoxBookmarkRow} (ha : a ∈ rows) (hb : b ∈ rows)
    (same : a.id = b.id) : a = b :=
  inj_on_of_nodup_map distinct ha hb same

lemma link_unique : Relator.RightUnique (Link rows) := by
  intro row a b first second
  exact row_unique distinct first.1.mem second.1.mem (first.2.2.2.2.symm.trans second.2.2.2.2)

/-- A row of the root has no parent, and below it a cycle would lead through its parent. -/
lemma links_acyclic : Acyclic (Link rows) := by
  have off : ∀ row, Reached rows row → ¬ TransGen (Link rows) row row := by
    intro row reached
    induction reached with
    | top _ parent =>
      intro cycle
      obtain ⟨above, link, -⟩ := TransGen.head'_iff.mp cycle
      exact top_free parent above link
    | under reached folder some_ member parent ih =>
      intro cycle
      obtain ⟨above, link, path⟩ := TransGen.head'_iff.mp cycle
      cases link_unique distinct link ⟨reached, folder, some_, member, parent⟩
      exact ih (TransGen.tail' path link)
  intro row cycle
  obtain ⟨above, link, -⟩ := TransGen.head'_iff.mp cycle
  exact off row link.reached cycle

end Links

mutual

/-- A node and all below it, from the top down. -/
def BookmarkTreeNode.subtrees : BookmarkTreeNode → List BookmarkTreeNode
  | node@⟨_, _, _, _, children⟩ => node :: subtreesOf children

def subtreesOf : List BookmarkTreeNode → List BookmarkTreeNode
  | [] => []
  | child :: rest => child.subtrees ++ subtreesOf rest

end

lemma subtreesOf_eq (nodes : List BookmarkTreeNode) :
    subtreesOf nodes = nodes.flatMap BookmarkTreeNode.subtrees := by
  induction nodes with
  | nil => rfl
  | cons node nodes ih => rw [subtreesOf, ih, flatMap_cons]

lemma subtrees_eq (node : BookmarkTreeNode) :
    node.subtrees = node :: node.children.flatMap BookmarkTreeNode.subtrees := by
  obtain ⟨id, name, nodeType, url, children⟩ := node
  rw [BookmarkTreeNode.subtrees, subtreesOf_eq]

section Nodes
variable (parseUrl : List Char → Option ParsedUrl) (rows : List FirefoxBookmarkRow)

/-- Folders and bookmarks that can be imported are kept. -/
def Kept (row : FirefoxBookmarkRow) : Bool :=
  row.nodeType = 2 || (row.nodeType = 1 && (bookmarkNode parseUrl row).isSome)

/-- The rows that stand below a row of the tree, in row order. -/
def childRows (row : FirefoxBookmarkRow) : List FirefoxBookmarkRow :=
  if row.nodeType = 2 then (byParent rows row.id).filter (Kept parseUrl) else []

/-- A node is the one for a row, above the nodes for the rows below that row. -/
structure Shows (row : FirefoxBookmarkRow) (node : BookmarkTreeNode) : Prop where
  value : (row.nodeType = 2 ∧ node = folderNode row node.children) ∨
    (row.nodeType = 1 ∧ bookmarkNode parseUrl row = some node)
  children : node.children.map BookmarkTreeNode.id =
    (childRows parseUrl rows row).map (fun child => firefoxId child.id)

/-- The nodes stand for rows and, in turn, for the kept rows below these, for each once. -/
structure Forest (tops : List FirefoxBookmarkRow) (nodes : List BookmarkTreeNode) : Prop where
  order : nodes.map BookmarkTreeNode.id = tops.map (fun row => firefoxId row.id)
  sound : ∀ node ∈ nodes.flatMap BookmarkTreeNode.subtrees, ∃ top ∈ tops, ∃ row,
    Below rows row top ∧ Kept parseUrl row = true ∧ Shows parseUrl rows row node
  complete : ∀ top ∈ tops, ∀ row, Below rows row top → Kept parseUrl row = true →
    ∃ node ∈ nodes.flatMap BookmarkTreeNode.subtrees, Shows parseUrl rows row node
  once : ((nodes.flatMap BookmarkTreeNode.subtrees).map BookmarkTreeNode.id).Nodup

end Nodes

section Nodes
variable {parseUrl : List Char → Option ParsedUrl} {rows : List FirefoxBookmarkRow}
  {row : FirefoxBookmarkRow} {node : BookmarkTreeNode}

lemma bookmarkNode_fields (made : bookmarkNode parseUrl row = some node) :
    node.id = firefoxId row.id ∧ node.nodeType = .bookmark ∧ node.children = [] ∧
      ∃ url, node.url = some url := by
  rw [bookmarkNode] at made
  obtain ⟨url, -, made⟩ := bind_eq_some_iff.mp made
  rw [ite_none_right_eq_some] at made
  cases made.2
  exact ⟨rfl, rfl, rfl, url, rfl⟩

lemma Shows.id_eq (shows_ : Shows parseUrl rows row node) : node.id = firefoxId row.id := by
  rcases shows_.value with ⟨-, made⟩ | ⟨-, made⟩
  · rw [made]
    rfl
  · exact (bookmarkNode_fields made).1

variable {child x : FirefoxBookmarkRow}

lemma mem_byParent {parent : Int} :
    child ∈ byParent rows parent ↔ parent ≠ 0 ∧ child ∈ rows ∧ child.parent = parent := by
  rw [byParent]
  split_ifs with root
  · exact iff_of_false (not_mem_nil) (fun h => h.1 root)
  · rw [rowsUnder, mem_filter, decide_eq_true_eq]
    exact ⟨fun h => ⟨root, h⟩, fun h => h.2⟩

lemma mem_childRows (reached : Reached rows row) :
    child ∈ childRows parseUrl rows row ↔ Link rows child row ∧ Kept parseUrl child = true := by
  rw [childRows]
  split_ifs with folder
  · rw [mem_filter, mem_byParent]
    constructor
    · rintro ⟨⟨some_, member, parent⟩, kept⟩
      exact ⟨⟨reached, folder, some_, member, parent⟩, kept⟩
    · rintro ⟨⟨-, -, some_, member, parent⟩, kept⟩
      exact ⟨⟨some_, member, parent⟩, kept⟩
  · exact iff_of_false not_mem_nil (fun h => folder h.1.2.1)

lemma kept_of_below (below : Below rows x row) (kept : Kept parseUrl x = true) :
    Kept parseUrl row = true := by
  cases ReflTransGen.cases_tail below with
  | inl same => exact same ▸ kept
  | inr step =>
    obtain ⟨_, -, link⟩ := step
    rw [Kept, decide_eq_true link.2.1]
    rfl

/-- The rows at or below a row are that row and those at or below its children. -/
lemma below_iff (reached : Reached rows row) (kept : Kept parseUrl x = true) :
    Below rows x row ↔ x = row ∨ ∃ child ∈ childRows parseUrl rows row, Below rows x child := by
  constructor
  · intro below
    rcases ReflTransGen.cases_tail below with same | ⟨child, path, link⟩
    · exact .inl same.symm
    · exact .inr ⟨child, (mem_childRows reached).mpr ⟨link, kept_of_below path kept⟩, path⟩
  · rintro (rfl | ⟨child, member, path⟩)
    · exact .refl
    · exact path.tail ((mem_childRows reached).mp member).1

lemma forest_nil : Forest parseUrl rows [] [] where
  order := rfl
  sound := nofun
  complete := nofun
  once := nodup_nil

section Forests
variable (distinct : (rows.map FirefoxBookmarkRow.id).Nodup)
include distinct

lemma shows_unique {x y : FirefoxBookmarkRow} {nx ny : BookmarkTreeNode} (hx : x ∈ rows)
    (hy : y ∈ rows) (first : Shows parseUrl rows x nx) (second : Shows parseUrl rows y ny)
    (same : nx.id = ny.id) : x = y := by
  rw [first.id_eq, second.id_eq] at same
  exact row_unique distinct hx hy (firefoxId_injective same)

variable {tops : List FirefoxBookmarkRow} {nodes : List BookmarkTreeNode}

lemma forest_cons (first : Forest parseUrl rows [row] [node])
    (rest : Forest parseUrl rows tops nodes) (home : row ∈ rows) (homes : ∀ top ∈ tops, top ∈ rows)
    (apart : ∀ top ∈ tops, ∀ x, Below rows x row → ¬ Below rows x top) :
    Forest parseUrl rows (row :: tops) (node :: nodes) where
  order := by
    have here := first.order
    rw [map_singleton, map_singleton] at here
    rw [map_cons, map_cons, rest.order, singleton_inj.mp here]
  sound := by
    intro sub member
    rw [flatMap_cons] at member
    rcases mem_append.mp member with here | later
    · obtain ⟨top, one, found⟩ := first.sound sub (by simpa using here)
      exact ⟨row, mem_cons_self, mem_singleton.mp one ▸ found⟩
    · obtain ⟨top, member, found⟩ := rest.sound sub later
      exact ⟨top, mem_cons_of_mem row member, found⟩
  complete := by
    intro top member x below kept
    rw [flatMap_cons]
    rcases mem_cons.mp member with rfl | later
    · obtain ⟨sub, here, shows_⟩ := first.complete top mem_cons_self x below kept
      exact ⟨sub, mem_append_left _ (by simpa using here), shows_⟩
    · obtain ⟨sub, there, shows_⟩ := rest.complete top later x below kept
      exact ⟨sub, mem_append_right _ there, shows_⟩
  once := by
    have here := first.once
    rw [flatMap_singleton] at here
    rw [flatMap_cons, map_append, nodup_append]
    refine ⟨here, rest.once, ?_⟩
    rintro _ inFirst _ inRest rfl
    obtain ⟨a, memberA, rfl⟩ := mem_map.mp inFirst
    obtain ⟨b, memberB, same⟩ := mem_map.mp inRest
    obtain ⟨top, one, x, belowX, -, showsX⟩ := first.sound a (by simpa using memberA)
    obtain ⟨other, listed, y, belowY, -, showsY⟩ := rest.sound b memberB
    cases mem_singleton.mp one
    cases shows_unique distinct (belowX.mem home) (belowY.mem (homes other listed)) showsX showsY
      same.symm
    exact apart other listed x belowX belowY

omit distinct in
lemma shows_folder (folder : row.nodeType = 2)
    (inside : Forest parseUrl rows (childRows parseUrl rows row) nodes) :
    Shows parseUrl rows row (folderNode row nodes) :=
  ⟨.inl ⟨folder, rfl⟩, inside.order⟩

omit distinct in
lemma shows_bookmark (bookmark : row.nodeType = 1) (made : bookmarkNode parseUrl row = some node) :
    Shows parseUrl rows row node := by
  have none_ : childRows parseUrl rows row = [] := by
    refine if_neg ?_
    rw [bookmark]
    decide
  refine ⟨.inr ⟨bookmark, made⟩, ?_⟩
  rw [(bookmarkNode_fields made).2.2.1, none_]
  rfl

/-- A folder stands above the nodes for the rows below it. -/
lemma forest_folder (reached : Reached rows row) (folder : row.nodeType = 2)
    (inside : Forest parseUrl rows (childRows parseUrl rows row) nodes) :
    Forest parseUrl rows [row] [folderNode row nodes] := by
  have kept : Kept parseUrl row = true := by
    rw [Kept, decide_eq_true folder]
    rfl
  have shows_ := shows_folder folder inside
  have spelt : [folderNode row nodes].flatMap BookmarkTreeNode.subtrees =
      folderNode row nodes :: nodes.flatMap BookmarkTreeNode.subtrees := by
    rw [flatMap_singleton, subtrees_eq]
    rfl
  refine ⟨rfl, ?_, ?_, ?_⟩
  · intro sub member
    rw [spelt, mem_cons] at member
    refine ⟨row, mem_singleton_self row, ?_⟩
    rcases member with rfl | later
    · exact ⟨row, .refl, kept, shows_⟩
    · obtain ⟨child, listed, x, below, keptX, showsX⟩ := inside.sound sub later
      exact ⟨x, below.tail ((mem_childRows reached).mp listed).1, keptX, showsX⟩
  · intro top member x below keptX
    cases mem_singleton.mp member
    rw [spelt]
    rcases (below_iff reached keptX).mp below with rfl | ⟨child, listed, path⟩
    · exact ⟨_, mem_cons_self, shows_⟩
    · obtain ⟨sub, there, showsX⟩ := inside.complete child listed x path keptX
      exact ⟨sub, mem_cons_of_mem _ there, showsX⟩
  · rw [spelt, map_cons, nodup_cons]
    refine ⟨?_, inside.once⟩
    intro again
    obtain ⟨sub, member, same⟩ := mem_map.mp again
    obtain ⟨child, listed, x, below, -, showsX⟩ := inside.sound sub member
    have link : Link rows child row := ((mem_childRows reached).mp listed).1
    cases shows_unique distinct (below.mem link.2.2.2.1) reached.mem showsX shows_ same
    exact links_acyclic distinct _ (TransGen.tail' below link)

omit distinct in
lemma forest_bookmark (reached : Reached rows row) (bookmark : row.nodeType = 1)
    (made : bookmarkNode parseUrl row = some node) : Forest parseUrl rows [row] [node] := by
  obtain ⟨own, -, leaf, -⟩ := bookmarkNode_fields made
  have kept : Kept parseUrl row = true := by
    rw [Kept, decide_eq_true bookmark, made]
    exact Bool.or_true _
  have not_folder : ¬ row.nodeType = 2 := by
    rw [bookmark]
    decide
  have none_ : childRows parseUrl rows row = [] := if_neg not_folder
  have shows_ : Shows parseUrl rows row node := shows_bookmark bookmark made
  have spelt : [node].flatMap BookmarkTreeNode.subtrees = [node] := by
    rw [flatMap_singleton, subtrees_eq, leaf]
    rfl
  refine ⟨?_, ?_, ?_, ?_⟩
  · rw [map_singleton, map_singleton, own]
  · intro sub member
    rw [spelt, mem_singleton] at member
    exact ⟨row, mem_singleton_self row, row, .refl, kept, member ▸ shows_⟩
  · intro top member x below keptX
    cases mem_singleton.mp member
    rw [spelt]
    rcases (below_iff reached keptX).mp below with rfl | ⟨child, listed, -⟩
    · exact ⟨node, mem_singleton_self node, shows_⟩
    · rw [none_] at listed
      cases listed
  · rw [spelt]
    exact nodup_singleton _

/-- What is made of a row: a node, for the rows that pass a test. -/
def Made (parseUrl : List Char → Option ParsedUrl) (rows : List FirefoxBookmarkRow)
    (passes : FirefoxBookmarkRow → Bool) (row : FirefoxBookmarkRow)
    (made : Option BookmarkTreeNode) : Prop :=
  (passes row = false ∧ made = none) ∨
    ∃ node, made = some node ∧ passes row = true ∧ Shows parseUrl rows row node ∧
      Forest parseUrl rows [row] [node]

lemma forest_of_made {passes : FirefoxBookmarkRow → Bool} {made : List (Option BookmarkTreeNode)}
    (each : Forall₂ (Made parseUrl rows passes) tops made) (homes : ∀ top ∈ tops, top ∈ rows)
    (apart : tops.Pairwise (fun a b => ∀ x, Below rows x a → ¬ Below rows x b)) :
    Forest parseUrl rows (tops.filter passes) (made.filterMap id) := by
  induction each with
  | nil => exact forest_nil
  | @cons row made tops rest here _ ih =>
    obtain ⟨home, homes⟩ := forall_mem_cons.mp homes
    obtain ⟨apartHere, apart⟩ := pairwise_cons.mp apart
    have later := ih homes apart
    rcases here with ⟨lost, rfl⟩ | ⟨node, rfl, kept, -, first⟩
    · rw [filter_cons_of_neg (Bool.eq_false_iff.mp lost), filterMap_cons_none (f := id) rfl]
      exact later
    · rw [filter_cons_of_pos kept, filterMap_cons_some (f := id) rfl]
      refine forest_cons distinct first later home ?_ ?_
      · exact fun top member => homes top (mem_of_mem_filter member)
      · exact fun top member => apartHere top (mem_of_mem_filter member)

lemma rows_nodup : rows.Nodup :=
  Nodup.of_map _ distinct

lemma byParent_apart (reached : Reached rows row) (folder : row.nodeType = 2) :
    (byParent rows row.id).Pairwise (fun a b => ∀ x, Below rows x a → ¬ Below rows x b) := by
  have nodup : (byParent rows row.id).Nodup := by
    rw [byParent]
    split_ifs
    · exact nodup_nil
    · exact (rows_nodup distinct).filter _
  refine nodup.pairwise_of_forall_ne ?_
  intro a memberA b memberB different x belowA belowB
  obtain ⟨some_, homeA, parentA⟩ := mem_byParent.mp memberA
  obtain ⟨-, homeB, parentB⟩ := mem_byParent.mp memberB
  exact different (siblings_apart (links_acyclic distinct) (link_unique distinct)
    ⟨reached, folder, some_, homeA, parentA⟩ ⟨reached, folder, some_, homeB, parentB⟩ belowA belowB)

lemma tops_pairwise :
    (rowsUnder rows 0).Pairwise (fun a b => ∀ x, Below rows x a → ¬ Below rows x b) := by
  refine ((rows_nodup distinct).filter _).pairwise_of_forall_ne ?_
  intro a memberA b memberB different x belowA belowB
  have topA := of_decide_eq_true (mem_filter.mp memberA).2
  have topB := of_decide_eq_true (mem_filter.mp memberB).2
  exact different (tops_apart (link_unique distinct) (top_free topA) (top_free topB) belowA belowB)

/-- A call on a row that is reached returns when its bound is above the height of the row. -/
lemma build_makes {height : FirefoxBookmarkRow → Nat}
    (rises : ∀ a b, Link rows a b → height a < height b) {depth : Nat}
    (reached : Reached rows row) (deep : height row < depth) :
    ∃ made, buildFirefoxNode parseUrl (byParent rows) depth row = some made ∧
      Made parseUrl rows (Kept parseUrl) row made := by
  induction depth generalizing row with
  | zero => exact absurd deep (Nat.not_lt_zero _)
  | succ depth ih =>
    rw [buildFirefoxNode]
    by_cases bookmark : row.nodeType = 1
    · refine ⟨bookmarkNode parseUrl row, if_pos bookmark, ?_⟩
      cases made : bookmarkNode parseUrl row with
      | none =>
        refine .inl ⟨?_, rfl⟩
        rw [Kept, made, bookmark]
        rfl
      | some node =>
        refine .inr ⟨node, rfl, ?_, shows_bookmark bookmark made,
          forest_bookmark reached bookmark made⟩
        rw [Kept, made, bookmark]
        rfl
    · rw [if_neg bookmark]
      by_cases folder : row.nodeType = 2
      · rw [if_neg (not_not_intro folder)]
        have each : ∀ child ∈ byParent rows row.id, ∃ made,
            buildFirefoxNode parseUrl (byParent rows) depth child = some made ∧
              Made parseUrl rows (Kept parseUrl) child made := by
          intro child member
          obtain ⟨some_, home, parent⟩ := mem_byParent.mp member
          have link : Link rows child row := ⟨reached, folder, some_, home, parent⟩
          have lower := rises child row link
          exact ih link.reached (by omega)
        obtain ⟨made, all, built⟩ := Fallible.mapM_returns.mpr each
        have inside := forest_of_made distinct built
          (fun child member => (mem_byParent.mp member).2.1) (byParent_apart distinct reached folder)
        have same : (byParent rows row.id).filter (Kept parseUrl) = childRows parseUrl rows row :=
          (if_pos folder).symm
        rw [same] at inside
        refine ⟨some (folderNode row (made.filterMap id)), ?_,
          .inr ⟨_, rfl, ?_, shows_folder folder inside, ?_⟩⟩
        · rw [all]
          rfl
        · rw [Kept, decide_eq_true folder]
          rfl
        · exact forest_folder distinct reached folder inside
      · refine ⟨none, if_pos folder, .inl ⟨?_, rfl⟩⟩
        rw [Kept, decide_eq_false folder, decide_eq_false bookmark]
        rfl

end Forests

lemma mapM_mono {α β : Type} {f g : α → Option β} {xs : List α} {ys : List β}
    (more : ∀ x ∈ xs, ∀ y, f x = some y → g x = some y) (all : xs.mapM f = some ys) :
    xs.mapM g = some ys := by
  induction xs generalizing ys with
  | nil => exact all
  | cons x xs ih =>
    obtain ⟨here, later⟩ := forall_mem_cons.mp more
    rw [mapM_cons] at all ⊢
    obtain ⟨y, first, all⟩ := bind_eq_some_iff.mp all
    obtain ⟨rest, there, all⟩ := bind_eq_some_iff.mp all
    rw [here y first, bind_eq_bind, bind_some, ih later there]
    exact all

/-- A call that returns does so with any greater bound. -/
lemma build_mono {under : Int → List FirefoxBookmarkRow} {depth : Nat}
    {made : Option BookmarkTreeNode} (returns : buildFirefoxNode parseUrl under depth row = some made) :
    buildFirefoxNode parseUrl under (depth + 1) row = some made := by
  induction depth generalizing row made with
  | zero => cases returns
  | succ depth ih =>
    rw [buildFirefoxNode] at returns ⊢
    split_ifs at returns ⊢ with bookmark folder
    · exact returns
    · exact returns
    · obtain ⟨children, all, whole⟩ := map_eq_some_iff.mp returns
      have again : (under row.id).mapM (buildFirefoxNode parseUrl under (depth + 1)) =
          some children :=
        mapM_mono (fun _ _ _ => ih) all
      rw [again, map_some, whole]

end Nodes

section Root
variable (parseUrl : List Char → Option ParsedUrl) (rows : List FirefoxBookmarkRow)

/-- A folder without children is not shown at the top. -/
def isEmptyFolder (row : FirefoxBookmarkRow) : Bool :=
  row.nodeType = 2 && (childRows parseUrl rows row).isEmpty

def topRows : List FirefoxBookmarkRow :=
  (rowsUnder rows 0).filter (fun row => Kept parseUrl row && !isEmptyFolder parseUrl rows row)

structure Listed (row : FirefoxBookmarkRow) : Prop where
  reached : Reached rows row
  kept : Kept parseUrl row = true
  shown : row.parent = 0 → isEmptyFolder parseUrl rows row = false

/-- Below the root there is one node for each listed row, in its place, and no other. -/
structure Presents (root : BookmarkTreeNode) : Prop where
  top : root = rootNode root.children
  order : root.children.map BookmarkTreeNode.id =
    (topRows parseUrl rows).map (fun row => firefoxId row.id)
  sound : ∀ node ∈ root.children.flatMap BookmarkTreeNode.subtrees,
    ∃ row, Listed parseUrl rows row ∧ Shows parseUrl rows row node
  complete : ∀ row, Listed parseUrl rows row →
    ∃ node ∈ root.children.flatMap BookmarkTreeNode.subtrees, Shows parseUrl rows row node
  once : ((root.children.flatMap BookmarkTreeNode.subtrees).map BookmarkTreeNode.id).Nodup

end Root

section Root
variable {parseUrl : List Char → Option ParsedUrl} {rows : List FirefoxBookmarkRow}
  {row : FirefoxBookmarkRow} {node : BookmarkTreeNode}

lemma isShown_eq (shows_ : Shows parseUrl rows row node) :
    isShown node = !isEmptyFolder parseUrl rows row := by
  rcases shows_.value with ⟨folder, made⟩ | ⟨bookmark, made⟩
  · have type : node.nodeType = .folder := by
      rw [made]
      rfl
    have same : node.children.isEmpty = (childRows parseUrl rows row).isEmpty := by
      have lengths := congrArg length shows_.children
      rw [length_map, length_map] at lengths
      rw [Bool.eq_iff_iff, isEmpty_iff_length_eq_zero, isEmpty_iff_length_eq_zero, lengths]
    rw [isShown, isEmptyFolder, type, same, decide_eq_true folder]
    rfl
  · rw [isShown, isEmptyFolder, (bookmarkNode_fields made).2.1, bookmark]
    rfl

lemma mem_topRows : row ∈ topRows parseUrl rows ↔
    (row ∈ rows ∧ row.parent = 0) ∧ Kept parseUrl row = true ∧
      isEmptyFolder parseUrl rows row = false := by
  rw [topRows, mem_filter, rowsUnder, mem_filter, decide_eq_true_eq, Bool.and_eq_true,
    Bool.not_eq_true']

lemma presents_of_forest {nodes : List BookmarkTreeNode}
    (forest : Forest parseUrl rows (topRows parseUrl rows) nodes) :
    Presents parseUrl rows (rootNode nodes) where
  top := rfl
  order := forest.order
  sound := by
    intro node member
    obtain ⟨top, listed, row, below, kept, shows_⟩ := forest.sound node member
    obtain ⟨⟨home, parent⟩, -, filled⟩ := mem_topRows.mp listed
    refine ⟨row, ⟨below.reached (.top home parent), kept, fun free => ?_⟩, shows_⟩
    rcases ReflTransGen.cases_head below with rfl | ⟨above, link, -⟩
    · exact filled
    · exact absurd link (top_free free above)
  complete := by
    rintro row ⟨reached, kept, shown⟩
    obtain ⟨top, home, parent, below⟩ := reached.exists_top
    refine forest.complete top (mem_topRows.mpr ⟨⟨home, parent⟩, kept_of_below below kept, ?_⟩) row
      below kept
    rcases (below_iff (.top home parent) kept).mp below with rfl | ⟨child, listed, -⟩
    · exact shown parent
    · have filled : (childRows parseUrl rows top).isEmpty = false :=
        isEmpty_eq_false_iff.mpr (ne_nil_of_mem listed)
      rw [isEmptyFolder, filled, Bool.and_false]
  once := forest.once

lemma made_shown {made : Option BookmarkTreeNode}
    (each : Made parseUrl rows (Kept parseUrl) row made) :
    Made parseUrl rows (fun row => Kept parseUrl row && !isEmptyFolder parseUrl rows row) row
      (made.filter isShown) := by
  rcases each with ⟨lost, rfl⟩ | ⟨node, rfl, kept, shows_, forest⟩
  · refine .inl ⟨?_, rfl⟩
    beta_reduce
    rw [lost, Bool.false_and]
  · have passes : (Kept parseUrl row && !isEmptyFolder parseUrl rows row) = isShown node := by
      rw [kept, isShown_eq shows_, Bool.true_and]
    cases shown : isShown node with
    | false => exact .inl ⟨passes.trans shown, filter_some_neg shown⟩
    | true => exact .inr ⟨node, filter_some_pos shown, passes.trans shown, shows_, forest⟩

lemma filterMap_filter (made : List (Option BookmarkTreeNode)) :
    (made.filterMap id).filter isShown = (made.map (Option.filter isShown)).filterMap id := by
  rw [filterMap_map]
  induction made with
  | nil => rfl
  | cons o made ih =>
    cases o with
    | none => exact ih
    | some node =>
      rw [filterMap_cons_some (f := id) rfl]
      cases shown : isShown node with
      | false =>
        have gone : (id ∘ Option.filter isShown) (some node) = none := filter_some_neg shown
        rw [filter_cons_of_neg (Bool.eq_false_iff.mp shown), filterMap_cons_none gone, ih]
      | true =>
        have stays : (id ∘ Option.filter isShown) (some node) = some node := filter_some_pos shown
        rw [filter_cons_of_pos shown, filterMap_cons_some stays, ih]

variable (distinct : (rows.map FirefoxBookmarkRow.id).Nodup)
include distinct

lemma parse_presents (parseUrl : List Char → Option ParsedUrl) :
    ∃ root, (∀ depth, rows.length ≤ depth → parseFirefoxBookmarks parseUrl depth rows = some root) ∧
      Presents parseUrl rows root := by
  obtain ⟨height, rises, bounded⟩ := exists_height (links_acyclic distinct) links_from
  have each : ∀ top ∈ rowsUnder rows 0, ∃ made,
      buildFirefoxNode parseUrl (byParent rows) rows.length top = some made ∧
        Made parseUrl rows (Kept parseUrl) top made := by
    intro top member
    obtain ⟨home, parent⟩ := mem_filter.mp member
    exact build_makes distinct rises (.top home (of_decide_eq_true parent)) (bounded top home)
  obtain ⟨made, all, held⟩ := Fallible.mapM_returns.mpr each
  have shown : Forall₂
      (Made parseUrl rows (fun row => Kept parseUrl row && !isEmptyFolder parseUrl rows row))
      (rowsUnder rows 0) (made.map (Option.filter isShown)) := by
    rw [forall₂_map_right_iff]
    exact held.imp (fun _ _ => made_shown)
  have forest := forest_of_made distinct shown
    (fun top member => mem_of_mem_filter member) (tops_pairwise distinct)
  rw [← filterMap_filter] at forest
  refine ⟨rootNode ((made.filterMap id).filter isShown), ?_, presents_of_forest forest⟩
  intro depth enough
  have longer : (rowsUnder rows 0).mapM (buildFirefoxNode parseUrl (byParent rows) depth) =
      some made := by
    induction depth, enough using Nat.le_induction with
    | base => exact all
    | succ depth _ ih => exact mapM_mono (fun _ _ _ => build_mono) ih
  rw [parseFirefoxBookmarks, longer]
  rfl

end Root

mutual

/-- A node and all below it, each with the nodes above it. -/
def BookmarkTreeNode.withAncestors (ancestors : List BookmarkTreeNode) :
    BookmarkTreeNode → List (BookmarkTreeNode × List BookmarkTreeNode)
  | node@⟨_, _, _, _, children⟩ =>
    (node, ancestors) :: withAncestorsOf (ancestors ++ [node]) children

def withAncestorsOf (ancestors : List BookmarkTreeNode) :
    List BookmarkTreeNode → List (BookmarkTreeNode × List BookmarkTreeNode)
  | [] => []
  | child :: rest => child.withAncestors ancestors ++ withAncestorsOf ancestors rest

end

/-- A bookmark that is selected, or below a node that is. -/
def isChosen (selected : List (List Char)) (entry : BookmarkTreeNode × List BookmarkTreeNode) :
    Bool :=
  entry.1.nodeType = .bookmark &&
    (entry.2.any (fun above => above.id ∈ selected) || entry.1.id ∈ selected)

def pathBelow (ancestors : List BookmarkTreeNode) : List (List Char) :=
  ancestors.tail.map BookmarkTreeNode.name

/-- The path of a draft is made of the names above the bookmark, below the root. -/
def chosenDraft (parseUrl : List Char → Option ParsedUrl)
    (entry : BookmarkTreeNode × List BookmarkTreeNode) : ImportedConnectionDraft :=
  bookmarkDraft parseUrl (pathBelow entry.2) entry.1 (entry.1.url.getD [])

/-- Folders have names, and bookmarks an address and nothing below them. -/
def Proper (node : BookmarkTreeNode) : Prop :=
  (node.nodeType = .folder → isPushed node = true) ∧
    (node.nodeType = .bookmark → node.url.isSome = true ∧ node.children = [])

def inherits (selected : List (List Char)) (ancestors : List BookmarkTreeNode) : Bool :=
  ancestors.any (fun above => above.id ∈ selected)

lemma inherits_concat (selected : List (List Char)) (ancestors : List BookmarkTreeNode)
    (node : BookmarkTreeNode) :
    inherits selected (ancestors ++ [node]) =
      (inherits selected ancestors || decide (node.id ∈ selected)) := by
  rw [inherits, inherits, any_append, any_cons, any_nil, Bool.or_false]

lemma pathBelow_concat {ancestors : List BookmarkTreeNode} (some_ : ancestors ≠ [])
    (node : BookmarkTreeNode) : pathBelow (ancestors ++ [node]) = pathBelow ancestors ++ [node.name] := by
  rw [pathBelow, pathBelow, tail_append_of_ne_nil some_, map_append, map_singleton]

section Selection
variable (parseUrl : List Char → Option ParsedUrl) (selected : List (List Char))

def chosenDrafts (entries : List (BookmarkTreeNode × List BookmarkTreeNode)) :
    List ImportedConnectionDraft :=
  (entries.filter (isChosen selected)).map (chosenDraft parseUrl)

lemma chosenDrafts_append (first second : List (BookmarkTreeNode × List BookmarkTreeNode)) :
    chosenDrafts parseUrl selected (first ++ second) =
      chosenDrafts parseUrl selected first ++ chosenDrafts parseUrl selected second := by
  rw [chosenDrafts, filter_append, map_append]
  rfl

variable {node : BookmarkTreeNode}

lemma chosenDrafts_folder (folder : node.nodeType = .folder) (ancestors : List BookmarkTreeNode)
    (rest : List (BookmarkTreeNode × List BookmarkTreeNode)) :
    chosenDrafts parseUrl selected ((node, ancestors) :: rest) = chosenDrafts parseUrl selected rest := by
  have out : isChosen selected (node, ancestors) = false := by
    rw [isChosen, folder]
    rfl
  rw [chosenDrafts, filter_cons_of_neg (Bool.eq_false_iff.mp out)]
  rfl

lemma collect_bookmark {url : List Char} {ancestors : List BookmarkTreeNode} {c : Collected}
    (bookmark : node.nodeType = .bookmark) (some_ : node.url = some url)
    (path : c.folderPath = pathBelow ancestors) :
    collectBookmark parseUrl selected node (inherits selected ancestors) c =
      { c with drafts := c.drafts ++ chosenDrafts parseUrl selected [(node, ancestors)] } := by
  have test : isChosen selected (node, ancestors) =
      (inherits selected ancestors || decide (node.id ∈ selected)) := by
    rw [isChosen, bookmark]
    rfl
  rw [collectBookmark, ← test]
  split_ifs with chosen
  · rw [some_, chosenDrafts, filter_cons_of_pos chosen, path]
    have draft : bookmarkDraft parseUrl (pathBelow ancestors) node url =
        chosenDraft parseUrl (node, ancestors) := by
      rw [chosenDraft, some_]
      rfl
    exact congrArg (fun d => Collected.mk (pathBelow ancestors) (c.drafts ++ [d])) draft
  · rw [chosenDrafts, filter_cons_of_neg chosen]
    exact congrArg (Collected.mk c.folderPath) (append_nil _).symm

mutual

/-- The drafts of the chosen entries are added, and the path is as it was. -/
theorem collect_node : (node : BookmarkTreeNode) → (∀ sub ∈ node.subtrees, Proper sub) →
    (ancestors : List BookmarkTreeNode) → ancestors ≠ [] → (c : Collected) →
    c.folderPath = pathBelow ancestors →
    collectSelectedBookmarkDrafts parseUrl selected (inherits selected ancestors) node c =
      { c with drafts :=
          c.drafts ++ chosenDrafts parseUrl selected (node.withAncestors ancestors) }
  | ⟨id, name, nodeType, url, children⟩, proper, ancestors, some_, c, path => by
    rw [subtrees_eq] at proper
    obtain ⟨⟨folder, bookmark⟩, inside⟩ := forall_mem_cons.mp proper
    rw [collectSelectedBookmarkDrafts, BookmarkTreeNode.withAncestors]
    cases nodeType with
    | bookmark =>
      obtain ⟨address, leaf⟩ := bookmark rfl
      obtain ⟨url, rfl⟩ := isSome_iff_exists.mp address
      cases leaf
      exact collect_bookmark parseUrl selected rfl rfl path
    | folder =>
      have pushed := folder rfl
      have below : ∀ child ∈ children, ∀ sub ∈ child.subtrees, Proper sub :=
        fun child member sub here => inside sub (mem_flatMap.mpr ⟨child, member, here⟩)
      have longer : c.folderPath ++ [name] =
          pathBelow (ancestors ++ [⟨id, name, .folder, url, children⟩]) := by
        rw [pathBelow_concat some_, path]
      have visited := collect_children children below _ (append_ne_nil_of_right_ne_nil _
        (cons_ne_nil _ _)) { c with folderPath := c.folderPath ++ [name] } longer
      rw [inherits_concat] at visited
      rw [if_neg (by decide), pushed, chosenDrafts_folder parseUrl selected rfl]
      simp only [if_true]
      rw [visited]
      simp only [dropLast_concat]

theorem collect_children : (nodes : List BookmarkTreeNode) →
    (∀ node ∈ nodes, ∀ sub ∈ node.subtrees, Proper sub) →
    (ancestors : List BookmarkTreeNode) → ancestors ≠ [] → (c : Collected) →
    c.folderPath = pathBelow ancestors →
    collectChildren parseUrl selected (inherits selected ancestors) nodes c =
      { c with drafts := c.drafts ++ chosenDrafts parseUrl selected (withAncestorsOf ancestors nodes) }
  | [], _, _, _, c, _ => by
    rw [collectChildren, withAncestorsOf]
    exact congrArg (Collected.mk c.folderPath) (append_nil _).symm
  | node :: nodes, proper, ancestors, some_, c, path => by
    obtain ⟨here, later⟩ := forall_mem_cons.mp proper
    have first := collect_node node here ancestors some_ c path
    have rest := collect_children nodes later ancestors some_
      { c with drafts := c.drafts ++ chosenDrafts parseUrl selected (node.withAncestors ancestors) }
      path
    rw [collectChildren, first, rest, withAncestorsOf, chosenDrafts_append, append_assoc]

end

lemma collect_root {root : BookmarkTreeNode} (top : root = rootNode root.children)
    (proper : ∀ sub ∈ root.children.flatMap BookmarkTreeNode.subtrees, Proper sub) :
    collectSelectedBookmarkDrafts parseUrl selected false root ⟨[], []⟩ =
      ⟨[], chosenDrafts parseUrl selected (root.withAncestors [])⟩ := by
  generalize root.children = children at top proper
  subst top
  have below : ∀ child ∈ children, ∀ sub ∈ child.subtrees, Proper sub :=
    fun child member sub here => proper sub (mem_flatMap.mpr ⟨child, member, here⟩)
  have visited := collect_children parseUrl selected children below [rootNode children]
    (cons_ne_nil _ _) ⟨[], []⟩ rfl
  have same : inherits selected [rootNode children] = (false || decide (rootId ∈ selected)) :=
    Bool.or_comm _ _
  rw [same] at visited
  have not_pushed : isPushed (rootNode children) = false := rfl
  rw [rootNode] at not_pushed visited ⊢
  rw [collectSelectedBookmarkDrafts, BookmarkTreeNode.withAncestors, if_neg (by decide), not_pushed,
    chosenDrafts_folder parseUrl selected rfl]
  simp only [Bool.false_eq_true, if_false]
  exact visited

end Selection

section Firefox
variable {parseUrl : List Char → Option ParsedUrl} {rows : List FirefoxBookmarkRow}
  {row : FirefoxBookmarkRow} {node : BookmarkTreeNode}

/-- Names are trimmed, so what is left of one that is not blank is not blank either. -/
lemma shows_proper (shows_ : Shows parseUrl rows row node) : Proper node := by
  rcases shows_.value with ⟨-, made⟩ | ⟨-, made⟩
  · rw [made]
    refine ⟨fun _ => ?_, nofun⟩
    rw [isPushed, Bool.and_eq_true, decide_eq_true_eq, decide_eq_true_eq]
    refine ⟨firefoxId_ne_root row.id, ?_⟩
    rw [folderNode]
    dsimp only
    split_ifs with blank
    · decide
    · rw [Text.trim_trim]
      exact blank
  · obtain ⟨-, type, leaf, url, some_⟩ := bookmarkNode_fields made
    refine ⟨fun folder => ?_, fun _ => ⟨?_, leaf⟩⟩
    · rw [type] at folder
      cases folder
    · rw [some_]
      rfl

/-- The tree is built within as many nested calls as there are rows and presents the rows, and
the drafts are those of the chosen bookmarks in tree order. -/
theorem bookmarks_presented (parseUrl : List Char → Option ParsedUrl)
    (rows : List FirefoxBookmarkRow) (distinct : (rows.map FirefoxBookmarkRow.id).Nodup) :
    ∃ root, (∀ depth, rows.length ≤ depth → parseFirefoxBookmarks parseUrl depth rows = some root) ∧
      Presents parseUrl rows root ∧
      ∀ selected, collectSelectedBookmarkDrafts parseUrl selected false root ⟨[], []⟩ =
        ⟨[], ((root.withAncestors []).filter (isChosen selected)).map (chosenDraft parseUrl)⟩ := by
  obtain ⟨root, returns, presents⟩ := parse_presents distinct parseUrl
  refine ⟨root, returns, presents, fun selected => ?_⟩
  refine collect_root parseUrl selected presents.top fun node member => ?_
  obtain ⟨row, -, shows_⟩ := presents.sound node member
  exact shows_proper shows_

/-- Two folders, one of which is its own parent, and a folder without a row above it. -/
def sampleBookmarks : List FirefoxBookmarkRow :=
  [⟨1, 0, 2, "Work".toList, none⟩, ⟨2, 1, 1, "Wiki".toList, some "http://wiki".toList⟩,
    ⟨3, 3, 2, "Loop".toList, none⟩, ⟨4, 9, 2, "Lost".toList, none⟩,
    ⟨5, 0, 2, "Empty".toList, none⟩]

def sampleUrl (value : List Char) : Option ParsedUrl :=
  if value = "http://wiki".toList then some ⟨"http".toList, some "wiki".toList⟩ else none

theorem sample_bookmarks :
    ∃ root, (∀ depth, sampleBookmarks.length ≤ depth →
        parseFirefoxBookmarks sampleUrl depth sampleBookmarks = some root) ∧
      Presents sampleUrl sampleBookmarks root ∧
      ∀ selected, collectSelectedBookmarkDrafts sampleUrl selected false root ⟨[], []⟩ =
        ⟨[], ((root.withAncestors []).filter (isChosen selected)).map (chosenDraft sampleUrl)⟩ :=
  bookmarks_presented sampleUrl sampleBookmarks (by decide)

end Firefox

end Import
