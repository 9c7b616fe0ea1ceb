import KKTerm.Import.Draft
import KKTerm.Library.Text

/-!
# Bookmarks of Firefox

The rows of a bookmark database name their parent. The rows under a row are listed in a map,
from which a tree is built from the top down; what a user selects in the tree becomes drafts
of connections. How addresses are parsed is a parameter.
-/

namespace Import

open Text

structure ParsedUrl where
  scheme : List Char
  hostStr : Option (List Char)

structure FirefoxBookmarkRow where
  id : Int
  parent : Int
  nodeType : Int
  title : List Char
  url : Option (List Char)
  deriving DecidableEq

inductive BookmarkNodeType where
  | bookmark
  | folder
  deriving DecidableEq

structure BookmarkTreeNode where
  id : List Char
  name : List Char
  nodeType : BookmarkNodeType
  url : Option (List Char)
  children : List BookmarkTreeNode

def printInt : Int → List Char
  | .ofNat n => Nat.toDigits 10 n
  | .negSucc n => '-' :: Nat.toDigits 10 (n + 1)

def firefoxId (id : Int) : List Char :=
  "firefox-".toList ++ printInt id

def rootId : List Char :=
  "root".toList

section Urls
variable (parseUrl : List Char → Option ParsedUrl)

def isImportableBookmarkUrl (url : List Char) : Bool :=
  (parseUrl url).any (fun parsed => parsed.scheme ∈ ["http", "https"].map String.toList)

def bookmarkHostFromUrl (value : List Char) : List Char :=
  ((parseUrl value).bind ParsedUrl.hostStr).getD value

/-- A row of another type than a folder; only addresses of the web are imported. -/
def bookmarkNode (row : FirefoxBookmarkRow) : Option BookmarkTreeNode :=
  (row.url.map trim).bind fun url =>
    if isImportableBookmarkUrl parseUrl url then
      some {
        id := firefoxId row.id
        name :=
          if trim row.title = [] then bookmarkHostFromUrl parseUrl url
          else trim row.title
        nodeType := .bookmark
        url := some url
        children := [] }
    else none

def folderNode (row : FirefoxBookmarkRow) (children : List BookmarkTreeNode) :
    BookmarkTreeNode where
  id := firefoxId row.id
  name := if trim row.title = [] then "Bookmarks".toList else trim row.title
  nodeType := .folder
  url := none
  children

/-- The number bounds how deep calls may be nested; there is no result when it runs out. -/
def buildFirefoxNode (byParent : Int → List FirefoxBookmarkRow) :
    Nat → FirefoxBookmarkRow → Option (Option BookmarkTreeNode)
  | 0, _ => none
  | depth + 1, row =>
    if row.nodeType = 1 then some (bookmarkNode parseUrl row)
    else if row.nodeType ≠ 2 then some none
    else ((byParent row.id).mapM (buildFirefoxNode byParent depth)).map fun children =>
      some (folderNode row (children.filterMap id))

/-- The map of the rows by their parent, in the order of the query. -/
def rowsUnder (rows : List FirefoxBookmarkRow) (parent : Int) : List FirefoxBookmarkRow :=
  rows.filter (fun row => row.parent = parent)

/-- The rows of the root are taken out of the map. -/
def byParent (rows : List FirefoxBookmarkRow) (parent : Int) : List FirefoxBookmarkRow :=
  if parent = 0 then [] else rowsUnder rows parent

def isShown (node : BookmarkTreeNode) : Bool :=
  node.nodeType = .bookmark || !node.children.isEmpty

def rootNode (children : List BookmarkTreeNode) : BookmarkTreeNode where
  id := rootId
  name := "Bookmarks".toList
  nodeType := .folder
  url := none
  children

def parseFirefoxBookmarks (depth : Nat) (rows : List FirefoxBookmarkRow) :
    Option BookmarkTreeNode :=
  ((rowsUnder rows 0).mapM (buildFirefoxNode parseUrl (byParent rows) depth)).map fun nodes =>
    rootNode ((nodes.filterMap id).filter isShown)

/-- The folders above the current one, and the drafts so far. -/
structure Collected where
  folderPath : List (List Char)
  drafts : List ImportedConnectionDraft
  deriving DecidableEq

def bookmarkDraft (folderPath : List (List Char)) (node : BookmarkTreeNode) (url : List Char) :
    ImportedConnectionDraft where
  name := node.name
  host := bookmarkHostFromUrl parseUrl url
  user := []
  url := some url
  port := none
  keyPath := none
  proxyJump := none
  connectionType := .url
  folderPath

def collectBookmark (selected : List (List Char)) (node : BookmarkTreeNode) (inherited : Bool)
    (c : Collected) : Collected :=
  if inherited || node.id ∈ selected then
    match node.url with
    | some url => { c with drafts := c.drafts ++ [bookmarkDraft parseUrl c.folderPath node url] }
    | none => c
  else c

/-- A folder adds its name to the path while its children are visited. -/
def isPushed (node : BookmarkTreeNode) : Bool :=
  node.id ≠ rootId && trim node.name ≠ []

mutual

def collectSelectedBookmarkDrafts (selected : List (List Char)) (inherited : Bool) :
    BookmarkTreeNode → Collected → Collected
  | node@⟨id, name, nodeType, _, children⟩, c =>
    if nodeType = .bookmark then collectBookmark parseUrl selected node inherited c
    else
      let inside := if isPushed node then { c with folderPath := c.folderPath ++ [name] } else c
      let visited := collectChildren selected (inherited || id ∈ selected) children inside
      if isPushed node then { visited with folderPath := visited.folderPath.dropLast } else visited

def collectChildren (selected : List (List Char)) (inherited : Bool) :
    List BookmarkTreeNode → Collected → Collected
  | [], c => c
  | child :: rest, c =>
    collectChildren selected inherited rest (collectSelectedBookmarkDrafts selected inherited child c)

end

end Urls

end Import
