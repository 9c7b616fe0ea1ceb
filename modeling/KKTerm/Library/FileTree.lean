import KKTerm.Library.KeyValue
import KKTerm.Library.Paths

/-!
# A tree of directories, files and symbolic links

Places are paths from the root that go through no link. A path that is given leads to a
place name by name: the parent name goes up, and a link is replaced by its target, a
bounded number of times. Where a path lands depends on the links alone; whether it gets
there depends on the directories.
-/

namespace FileTree

open Paths List

inductive Entry where
  | dir
  | file (content : List UInt8)
  | link (absolute : Bool) (target : Path)
  deriving DecidableEq

/-- The entries other than the root, by their places. -/
abbrev Tree := AList (fun _ : Path => Entry)

inductive Failure where
  | notFound
  | other
  deriving DecidableEq

/-- The end of a path that exists, or that only lacks its last name. -/
inductive Place where
  | found (place : Path)
  | vacant (place : Path)
  deriving DecidableEq

def Place.path : Place → Path
  | .found place => place
  | .vacant place => place

def parentName : List Char :=
  ['.', '.']

def entry (t : Tree) (place : Path) : Option Entry :=
  if place = [] then some .dir else t.lookup place

section Walk
variable (t : Tree)

def walkWith (follow : Path → Path → Except Failure Place) (base : Path) :
    Path → Except Failure Place
  | [] => .ok (.found base)
  | name :: rest =>
    if name = parentName then walkWith follow base.dropLast rest
    else
      match entry t (base ++ [name]) with
      | none => if rest = [] then .ok (.vacant (base ++ [name])) else .error .notFound
      | some .dir => walkWith follow (base ++ [name]) rest
      | some (.file _) => if rest = [] then .ok (.found (base ++ [name])) else .error .other
      | some (.link absolute target) => follow (if absolute then [] else base) (target ++ rest)

/-- Where a path leads from a directory, through so many links at most. -/
def walk : Nat → Path → Path → Except Failure Place
  | 0 => walkWith t (fun _ _ => .error .other)
  | links + 1 => walkWith t (walk links)

def landWith (follow : Path → Path → Option Path) (base : Path) : Path → Option Path
  | [] => some base
  | name :: rest =>
    if name = parentName then landWith follow base.dropLast rest
    else
      match entry t (base ++ [name]) with
      | some (.link absolute target) => follow (if absolute then [] else base) (target ++ rest)
      | _ => landWith follow (base ++ [name]) rest

/-- Where a path would lead if all its names but the links were directories. -/
def landing : Nat → Path → Path → Option Path
  | 0 => landWith t (fun _ _ => none)
  | links + 1 => landWith t (landing links)

/-- The place of a path itself, which may be a link. -/
def locate (links : Nat) (path : Path) : Except Failure Place :=
  match path.getLast? with
  | none => .ok (.found [])
  | some name =>
    if name = parentName then walk t links [] path
    else
      match walk t links [] path.dropLast with
      | .ok (.found base) =>
        if entry t base = some .dir then
          .ok (if entry t (base ++ [name]) = none then .vacant (base ++ [name])
            else .found (base ++ [name]))
        else .error .other
      | .ok (.vacant _) => .error .notFound
      | .error e => .error e

end Walk

inductive Leads (t : Tree) : Nat → Path → Path → Place → Prop
  | here {links base} : Leads t links base [] (.found base)
  | up {links base rest place} :
    Leads t links base.dropLast rest place → Leads t links base (parentName :: rest) place
  | missing {links base name} : name ≠ parentName → entry t (base ++ [name]) = none →
    Leads t links base [name] (.vacant (base ++ [name]))
  | into {links base name rest place} : name ≠ parentName →
    entry t (base ++ [name]) = some .dir → Leads t links (base ++ [name]) rest place →
    Leads t links base (name :: rest) place
  | file {links base name content} : name ≠ parentName →
    entry t (base ++ [name]) = some (.file content) →
    Leads t links base [name] (.found (base ++ [name]))
  | follow {links base name absolute target rest place} : name ≠ parentName →
    entry t (base ++ [name]) = some (.link absolute target) →
    Leads t links (if absolute then [] else base) (target ++ rest) place →
    Leads t (links + 1) base (name :: rest) place

variable {t t' : Tree} {links : Nat} {base path : Path} {place : Place}

lemma leads_of_walkWith {follow : Path → Path → Except Failure Place}
    (deeper : ∀ base name absolute target rest, name ≠ parentName →
      entry t (base ++ [name]) = some (.link absolute target) →
      follow (if absolute then [] else base) (target ++ rest) = .ok place →
      Leads t links base (name :: rest) place)
    (walked : walkWith t follow base path = .ok place) : Leads t links base path place := by
  induction path generalizing base with
  | nil =>
    cases walked
    exact .here
  | cons name rest ih =>
    rw [walkWith] at walked
    by_cases up : name = parentName
    · subst up
      rw [if_pos rfl] at walked
      exact .up (ih walked)
    · rw [if_neg up] at walked
      cases at_name : entry t (base ++ [name]) with
      | none =>
        simp only [at_name] at walked
        by_cases last : rest = []
        · subst last
          rw [if_pos rfl] at walked
          cases walked
          exact .missing up at_name
        · rw [if_neg last] at walked
          cases walked
      | some e =>
        cases e with
        | dir =>
          simp only [at_name] at walked
          exact .into up at_name (ih walked)
        | file content =>
          simp only [at_name] at walked
          by_cases last : rest = []
          · subst last
            rw [if_pos rfl] at walked
            cases walked
            exact .file up at_name
          · rw [if_neg last] at walked
            cases walked
        | link absolute target =>
          simp only [at_name] at walked
          exact deeper base name absolute target rest up at_name walked

lemma leads_of_walk (walked : walk t links base path = .ok place) :
    Leads t links base path place := by
  induction links generalizing base path place with
  | zero =>
    refine leads_of_walkWith (fun _ _ _ _ _ _ _ followed => ?_) walked
    cases followed
  | succ links ih =>
    exact leads_of_walkWith
      (fun _ _ _ _ _ ordinary at_name followed => .follow ordinary at_name (ih followed)) walked

variable (name : List Char) (rest : Path) {end_ names : Path}

lemma walk_cons (links : Nat) (base : Path) :
    walk t links base (name :: rest) =
      if name = parentName then walk t links base.dropLast rest
      else
        match entry t (base ++ [name]) with
        | none => if rest = [] then .ok (.vacant (base ++ [name])) else .error .notFound
        | some .dir => walk t links (base ++ [name]) rest
        | some (.file _) => if rest = [] then .ok (.found (base ++ [name])) else .error .other
        | some (.link absolute target) =>
          match links with
          | 0 => .error .other
          | links + 1 => walk t links (if absolute then [] else base) (target ++ rest) := by
  cases links <;> rfl

lemma walk_of_leads (leads : Leads t links base path place) :
    walk t links base path = .ok place := by
  induction leads with
  | @here links => cases links <;> rfl
  | up _ ih => rw [walk_cons, if_pos rfl, ih]
  | missing ordinary absent => rw [walk_cons, if_neg ordinary, absent, if_pos rfl]
  | into ordinary at_name _ ih =>
    rw [walk_cons, if_neg ordinary, at_name]
    exact ih
  | file ordinary at_name =>
    rw [walk_cons, if_neg ordinary, at_name]
    exact if_pos rfl
  | follow ordinary at_name _ ih =>
    rw [walk_cons, if_neg ordinary, at_name]
    exact ih

/-- A path that lacks its last name only does not end in the parent name. -/
lemma Leads.last_ordinary (leads : Leads t links base path (.vacant end_)) :
    ∃ front name, path = front ++ [name] ∧ name ≠ parentName := by
  generalize same : Place.vacant end_ = place at leads
  induction leads with
  | here => cases same
  | up _ ih =>
    obtain ⟨front, name, rfl, ordinary⟩ := ih same
    exact ⟨_ :: front, name, rfl, ordinary⟩
  | missing ordinary _ => exact ⟨[], _, rfl, ordinary⟩
  | into _ _ _ ih =>
    obtain ⟨front, name, rfl, ordinary⟩ := ih same
    exact ⟨_ :: front, name, rfl, ordinary⟩
  | file => cases same
  | @follow _ _ name _ _ rest _ ordinary _ _ ih =>
    obtain ⟨front, last, split, ordinary'⟩ := ih same
    induction rest using reverseRecOn with
    | nil => exact ⟨[], name, rfl, ordinary⟩
    | append_singleton rest final _ =>
      rw [← append_assoc] at split
      cases (append_inj' split rfl).2
      exact ⟨name :: rest, _, rfl, ordinary'⟩

lemma landing_cons (links : Nat) (base : Path) :
    landing t links base (name :: rest) =
      if name = parentName then landing t links base.dropLast rest
      else
        match entry t (base ++ [name]) with
        | some (.link absolute target) =>
          match links with
          | 0 => none
          | links + 1 => landing t links (if absolute then [] else base) (target ++ rest)
        | _ => landing t links (base ++ [name]) rest := by
  cases links <;> rfl

lemma landing_nil : landing t links base [] = some base := by
  cases links <;> rfl

lemma Leads.landing (leads : Leads t links base path place) :
    landing t links base path = some place.path := by
  induction leads with
  | here => exact landing_nil
  | up _ ih => rw [landing_cons, if_pos rfl, ih]
  | missing ordinary absent =>
    rw [landing_cons, if_neg ordinary, absent]
    exact landing_nil
  | into ordinary at_name _ ih =>
    rw [landing_cons, if_neg ordinary, at_name]
    exact ih
  | file ordinary at_name =>
    rw [landing_cons, if_neg ordinary, at_name]
    exact landing_nil
  | follow ordinary at_name _ ih =>
    rw [landing_cons, if_neg ordinary, at_name]
    exact ih

/-- A path is followed name by name, and at a link with fewer links to go. -/
lemma path_induction {motive : Nat → Path → Path → Prop} (nil : ∀ links base, motive links base [])
    (cons : ∀ links base name rest, (∀ base, motive links base rest) →
      (∀ fewer, links = fewer + 1 → ∀ base path, motive fewer base path) →
      motive links base (name :: rest))
    (links : Nat) (base path : Path) : motive links base path := by
  induction links generalizing base path with
  | zero =>
    induction path generalizing base with
    | nil => exact nil 0 base
    | cons name rest ih => exact cons 0 base name rest ih (fun _ none_left => nomatch none_left)
  | succ links deeper =>
    induction path generalizing base with
    | nil => exact nil (links + 1) base
    | cons name rest ih =>
      refine cons (links + 1) base name rest ih (fun fewer left => ?_)
      obtain rfl := Nat.succ.inj left
      exact deeper

/-- Below a place there are ordinary names, and none of them is a link. -/
def Unlinked (t : Tree) (base : Path) : Path → Prop
  | [] => True
  | name :: rest =>
    name ≠ parentName ∧ (∀ absolute target, entry t (base ++ [name]) ≠ some (.link absolute target)) ∧
      Unlinked t (base ++ [name]) rest

lemma landing_unlinked (unlinked : Unlinked t base names) :
    FileTree.landing t links base names = some (base ++ names) := by
  induction names generalizing base with
  | nil => rw [landing_nil, append_nil]
  | cons name rest ih =>
    obtain ⟨ordinary, no_link, later⟩ := unlinked
    rw [landing_cons, if_neg ordinary]
    split
    · rename_i at_name
      exact absurd at_name (no_link _ _)
    · rw [ih later]
      simp

lemma landing_append {land : Path} (lands : FileTree.landing t links base path = some land)
    (unlinked : Unlinked t land names) :
    FileTree.landing t links base (path ++ names) = some (land ++ names) := by
  induction links, base, path using path_induction with
  | nil links base =>
    rw [landing_nil] at lands
    cases lands
    exact landing_unlinked unlinked
  | cons links base name rest ih deeper =>
    rw [cons_append, landing_cons]
    rw [landing_cons] at lands
    by_cases up : name = parentName
    · rw [if_pos up] at lands ⊢
      exact ih _ lands
    · rw [if_neg up] at lands ⊢
      split at lands
      · rw [← append_assoc]
        cases links with
        | zero => cases lands
        | succ fewer => exact deeper fewer rfl _ _ lands
      · exact ih _ lands

/-- The same entry, up to the content of a file. -/
def Entry.Alike : Entry → Entry → Prop
  | .file _, e => ∃ content, e = .file content
  | .dir, e => e = .dir
  | .link absolute target, e => e = .link absolute target

/-- Nothing is removed and no link is added; the content of files may change. -/
structure Grown (t t' : Tree) : Prop where
  kept : ∀ place e, entry t place = some e → ∃ e', entry t' place = some e' ∧ e.Alike e'
  links : ∀ place absolute target, entry t' place = some (.link absolute target) →
    entry t place = some (.link absolute target)

lemma Entry.Alike.refl (e : Entry) : e.Alike e := by
  cases e with
  | dir => rfl
  | file content => exact ⟨content, rfl⟩
  | link absolute target => rfl

lemma Entry.Alike.trans {a b c : Entry} (first : a.Alike b) (second : b.Alike c) : a.Alike c := by
  cases a with
  | dir =>
    obtain rfl : b = .dir := first
    exact second
  | file content =>
    obtain ⟨_, rfl⟩ := first
    exact second
  | link absolute target =>
    obtain rfl : b = .link absolute target := first
    exact second

/-- Nothing is removed; links may be added, and the content of files may change. -/
def Kept (t t' : Tree) : Prop :=
  ∀ place e, entry t place = some e → ∃ e', entry t' place = some e' ∧ e.Alike e'

lemma Kept.refl (t : Tree) : Kept t t :=
  fun _ e present => ⟨e, present, .refl e⟩

lemma Kept.trans {t'' : Tree} (first : Kept t t') (second : Kept t' t'') : Kept t t'' := by
  intro place e present
  obtain ⟨e', present', alike⟩ := first place e present
  obtain ⟨e'', present'', alike'⟩ := second place e' present'
  exact ⟨e'', present'', alike.trans alike'⟩

lemma Kept.dir (kept : Kept t t') {place : Path} (dir : entry t place = some .dir) :
    entry t' place = some .dir := by
  obtain ⟨e, present, alike⟩ := kept place _ dir
  obtain rfl : e = .dir := alike
  exact present

lemma Kept.file (kept : Kept t t') {place : Path} {content : List UInt8}
    (file : entry t place = some (.file content)) :
    ∃ content', entry t' place = some (.file content') := by
  obtain ⟨e, present, content', rfl⟩ := kept place _ file
  exact ⟨content', present⟩

lemma Kept.link (kept : Kept t t') {place target : Path} {absolute : Bool}
    (link : entry t place = some (.link absolute target)) :
    entry t' place = some (.link absolute target) := by
  obtain ⟨e, present, alike⟩ := kept place _ link
  obtain rfl : e = .link absolute target := alike
  exact present

lemma Kept.present (kept : Kept t t') {place : Path} (present : entry t place ≠ none) :
    entry t' place ≠ none := by
  obtain ⟨e, held⟩ := Option.ne_none_iff_exists'.mp present
  obtain ⟨e', held', -⟩ := kept place e held
  rw [held']
  exact nofun

lemma Leads.kept (kept : Kept t t') (leads : Leads t links base path (.found end_)) :
    Leads t' links base path (.found end_) := by
  generalize same : Place.found end_ = place at leads
  induction leads with
  | here => exact .here
  | up _ ih => exact .up (ih same)
  | missing => cases same
  | into ordinary at_name _ ih => exact .into ordinary (kept.dir at_name) (ih same)
  | file ordinary at_name =>
    obtain ⟨content, at_name⟩ := kept.file at_name
    exact .file ordinary at_name
  | follow ordinary at_name _ ih => exact .follow ordinary (kept.link at_name) (ih same)

section Locate
variable {name : List Char}

lemma locate_append_singleton (links : Nat) (path : Path) (ordinary : name ≠ parentName) :
    locate t links (path ++ [name]) =
      match walk t links [] path with
      | .ok (.found base) =>
        if entry t base = some .dir then
          .ok (if entry t (base ++ [name]) = none then .vacant (base ++ [name])
            else .found (base ++ [name]))
        else .error .other
      | .ok (.vacant _) => .error .notFound
      | .error e => .error e := by
  rw [locate, getLast?_concat]
  simp only [if_neg ordinary, dropLast_concat]

lemma locate_parentName (links : Nat) (path : Path) :
    locate t links (path ++ [parentName]) = walk t links [] (path ++ [parentName]) := by
  rw [locate, getLast?_concat]
  exact if_pos rfl

lemma locate_child {mid : Path} (first : Leads t links [] path (.found mid))
    (dir : entry t mid = some .dir) (ordinary : name ≠ parentName)
    (present : entry t (mid ++ [name]) ≠ none) :
    locate t links (path ++ [name]) = .ok (.found (mid ++ [name])) := by
  rw [locate_append_singleton links path ordinary, walk_of_leads first]
  simp only [if_pos dir, if_neg present]

/-- What a path names is in a directory, or is where the path leads. -/
lemma locate_eq_ok (located : locate t links path = .ok place) :
    ((∀ front name, path = front ++ [name] → name = parentName) ∧ Leads t links [] path place) ∨
      ∃ front name base, path = front ++ [name] ∧ name ≠ parentName ∧
      Leads t links [] front (.found base) ∧ entry t base = some .dir ∧
      place = if entry t (base ++ [name]) = none then .vacant (base ++ [name])
        else .found (base ++ [name]) := by
  induction path using reverseRecOn with
  | nil =>
    cases located
    exact .inl ⟨fun front name same => absurd same.symm (concat_ne_nil name front), .here⟩
  | append_singleton front name =>
    by_cases up : name = parentName
    · subst up
      rw [locate_parentName] at located
      refine Or.inl ⟨fun front' name' same => ?_, leads_of_walk located⟩
      exact (List.cons.inj (append_inj' same rfl).2).1.symm
    · rw [locate_append_singleton links front up] at located
      cases walked : walk t links [] front with
      | error e =>
        rw [walked] at located
        cases located
      | ok reached =>
        rw [walked] at located
        cases reached with
        | vacant base => cases located
        | found base =>
          by_cases dir : entry t base = some .dir
          · simp only [if_pos dir] at located
            exact .inr ⟨front, name, base, rfl, up, leads_of_walk walked, dir,
              (Except.ok.inj located).symm⟩
          · simp only [if_neg dir] at located
            cases located

lemma locate_kept (kept : Kept t t') {end_ : Path}
    (located : locate t links path = .ok (.found end_)) :
    locate t' links path = .ok (.found end_) := by
  induction path using reverseRecOn with
  | nil => exact located
  | append_singleton front name =>
    by_cases up : name = parentName
    · subst up
      rw [locate_parentName] at located ⊢
      exact walk_of_leads ((leads_of_walk located).kept kept)
    · rcases locate_eq_ok located with
        ⟨parent, -⟩ | ⟨front', name', base, same, ordinary, leads, dir, place⟩
      · exact absurd (parent front name rfl) up
      · obtain ⟨rfl, last⟩ := append_inj' same rfl
        cases last
        split at place
        · cases place
        · rename_i present
          cases place
          exact locate_child (leads.kept kept) (kept.dir dir) ordinary (kept.present present)

end Locate

end FileTree
