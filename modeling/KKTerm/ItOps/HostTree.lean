import KKTerm.ItOps.HostInvariant
import KKTerm.Library.Cascade
import KKTerm.Library.Outline

/-!
# The tree of hosts

The panel lists the hosts of a site from the top down, and the dialog offers the hosts
that may become the parent of a host. Both read the flat list of a site; the store
checks a chosen parent by its own walk upwards.
-/

namespace ItOps

open Cascade
open List hiding IsChain
open Fallible Outline Relation

/-- One rendered row: the host and its nesting depth. -/
abbrev HostTreeRow := Row SiteHost

structure HostGroups where
  roots : List SiteHost
  childrenOf : Id → List SiteHost

def groupHost (hosts : List SiteHost) (groups : HostGroups) (host : SiteHost) : HostGroups :=
  match host.parentHostId with
  | none => { groups with roots := groups.roots ++ [host] }
  | some parentId =>
    if parentId ≠ [] ∧ parentId ∈ hosts.map SiteHost.id then
      { groups with childrenOf := fun id =>
          if id = parentId then groups.childrenOf id ++ [host] else groups.childrenOf id }
    else { groups with roots := groups.roots ++ [host] }

def groupHosts (hosts : List SiteHost) : HostGroups :=
  hosts.foldl (groupHost hosts) ⟨[], fun _ => []⟩

/-- The members of a cycle are not reached from the roots; they come last. -/
def buildHostTreeRows (fuel : Nat) (hosts : List SiteHost) : Option (List HostTreeRow) := do
  let groups := groupHosts hosts
  let walk := Outline.walk SiteHost.id groups.childrenOf fuel 0
  let walked ← groups.roots.foldlM walk .start
  let all ← hosts.foldlM (fun s host => if host.id ∈ s.visited then some s else walk s host) walked
  pure all.rows

/-- A blank parent is none. -/
def namedParent (host : SiteHost) : Option Id :=
  host.parentHostId.filter (· ≠ [])

/-- Descendants are absorbed in rounds; everything is eligible for a new host. -/
def eligibleParentHosts (fuel : Nat) (hosts : List SiteHost) (hostId : Id) :
    Option (List SiteHost) :=
  if hostId = [] then some hosts
  else (rounds SiteHost.id namedParent hosts fuel [hostId]).map fun blocked =>
    hosts.filter (·.id ∉ blocked)

/-- The host of the list that a host names as its parent. -/
def parentOf (hosts : List SiteHost) (host : SiteHost) : Option SiteHost :=
  (namedParent host).bind fun id => hosts.find? (·.id = id)

section Parents
variable {hosts seen : List SiteHost} {host p : SiteHost} {id : Id}

lemma parentOf_eq_some (ids : (hosts.map SiteHost.id).Nodup) :
    parentOf hosts host = some p ↔ namedParent host = some p.id ∧ p ∈ hosts := by
  rw [parentOf, Option.bind_eq_some_iff]
  constructor
  · rintro ⟨id, named, found⟩
    have same : p.id = id := by simpa using find?_some found
    exact ⟨same ▸ named, mem_of_find?_eq_some found⟩
  · rintro ⟨named, member⟩
    refine ⟨p.id, named, ?_⟩
    have present : (hosts.find? (·.id = p.id)).isSome := by
      rw [find?_isSome]
      exact ⟨p, member, by simp⟩
    obtain ⟨other, found⟩ := Option.isSome_iff_exists.mp present
    have same : other.id = p.id := by simpa using find?_some found
    rw [found, inj_on_of_nodup_map ids (mem_of_find?_eq_some found) member same]

/-- A host goes to the children of its parent, or to the roots. -/
lemma groupHost_eq (hosts : List SiteHost) (groups : HostGroups) (host : SiteHost) :
    groupHost hosts groups host =
      ⟨groups.roots ++ if parentOf hosts host = none then [host] else [],
        fun id => groups.childrenOf id ++
          if (parentOf hosts host).any (·.id = id) then [host] else []⟩ := by
  rw [groupHost, parentOf, namedParent]
  cases named : host.parentHostId with
  | none => simp
  | some parentId =>
    by_cases blank : parentId = []
    · simp [blank, Option.filter]
    · have named' : (some parentId).filter (· ≠ []) = some parentId := by simp [blank]
      rw [named', Option.bind_some]
      cases found : hosts.find? (·.id = parentId) with
      | none =>
        have unknown : parentId ∉ hosts.map SiteHost.id := by
          intro member
          obtain ⟨p, home, same⟩ := mem_map.mp member
          have differs := find?_eq_none.mp found p home
          simp [same] at differs
        simp [blank, unknown]
      | some p =>
        have same : p.id = parentId := by simpa using find?_some found
        have known : parentId ∈ hosts.map SiteHost.id :=
          mem_map.mpr ⟨p, mem_of_find?_eq_some found, same⟩
        simp only [ne_eq, blank, not_false_eq_true, known, and_self, if_true, reduceCtorEq,
          if_false, append_nil, Option.any_some, same, decide_eq_true_eq]
        congr 1
        funext id
        by_cases here : id = parentId
        · simp [here]
        · simp [here, Ne.symm here]

lemma foldl_groupHost (seen : List SiteHost) (groups : HostGroups) :
    seen.foldl (groupHost hosts) groups = ⟨groups.roots ++ seen.filter (parentOf hosts · = none),
        fun id => groups.childrenOf id ++
          seen.filter fun h => (parentOf hosts h).any (·.id = id)⟩ := by
  induction seen generalizing groups with
  | nil => simp
  | cons host seen ih =>
    rw [foldl_cons, ih, groupHost_eq]
    congr 1
    · by_cases top : parentOf hosts host = none <;> simp [top]
    · funext id
      by_cases child : (parentOf hosts host).any (·.id = id) = true <;> simp [child]

lemma roots_eq : (groupHosts hosts).roots = hosts.filter (parentOf hosts · = none) := by
  simp [groupHosts, foldl_groupHost]

lemma childrenOf_eq (id : Id) : (groupHosts hosts).childrenOf id =
    hosts.filter fun h => (parentOf hosts h).any (·.id = id) := by
  simp [groupHosts, foldl_groupHost]

lemma mem_childrenOf (ids : (hosts.map SiteHost.id).Nodup) (known : p ∈ hosts) :
    host ∈ (groupHosts hosts).childrenOf p.id ↔ host ∈ hosts ∧ parentOf hosts host = some p := by
  rw [childrenOf_eq, mem_filter, and_congr_right_iff]
  intro _
  cases up : parentOf hosts host with
  | none => simp
  | some q =>
    have home := ((parentOf_eq_some ids).mp up).2
    constructor
    · intro same
      have same' : q.id = p.id := by simpa using same
      rw [inj_on_of_nodup_map ids home known same']
    · intro same
      cases same
      simp

end Parents

/-- Each host has one row; where the chain of its parents ends, the row stands below the row of
its parent, as deep as the chain is long, and siblings stay in order. -/
structure HostOutline (hosts : List SiteHost) (rows : List HostTreeRow) : Prop where
  once : (rows.map Row.item).Perm hosts
  depth : ∀ host ∈ hosts, ∀ ancestors, IsChain (parentOf hosts) host ancestors →
    ancestors.Nodup ∧ ⟨host, ancestors.length⟩ ∈ rows
  under : ∀ host ∈ hosts, ∀ parent ancestors,
    IsChain (parentOf hosts) host (parent :: ancestors) →
      ∃ front between back, rows = front ++ ⟨parent, ancestors.length⟩ :: between ++
          ⟨host, ancestors.length + 1⟩ :: back ∧
        ∀ row ∈ between, ancestors.length < row.depth
  siblings : ∀ a b, [a, b].Sublist hosts → ∀ ancestors, IsChain (parentOf hosts) a ancestors →
    IsChain (parentOf hosts) b ancestors →
      [⟨a, ancestors.length⟩, ⟨b, ancestors.length⟩].Sublist rows

section Rows
variable {hosts : List SiteHost}

section
variable (ids : (hosts.map SiteHost.id).Nodup)
include ids

lemma exists_shape {fuel : Nat} {s : Listing SiteHost Id} (ran : (groupHosts hosts).roots.foldlM
      (walk SiteHost.id (groupHosts hosts).childrenOf fuel 0) .start = some s) :
    Shape SiteHost.id (groupHosts hosts).childrenOf 0 (groupHosts hosts).roots s.rows := by
  have distinct : hosts.Nodup := Nodup.of_map SiteHost.id ids
  have roots : ∀ root ∈ (groupHosts hosts).roots, root ∈ hosts ∧ parentOf hosts root = none := by
    intro root member
    rw [roots_eq] at member
    simpa using member
  have outlined : Outlined SiteHost.id (groupHosts hosts).childrenOf hosts (parentOf hosts) 0
      (groupHosts hosts).roots [] .start s := by
    refine foldlM_outlined (fun _ _ _ => not_mem_nil) ?_ ?_ ran
    · rw [roots_eq]
      exact distinct.filter _
    · intro root member t t' fresh walked
      obtain ⟨known, top⟩ := roots root member
      refine walk_outlined ids (fun p home y => mem_childrenOf ids home) ?_ known top fresh walked
      intro id
      rw [childrenOf_eq]
      exact distinct.filter _
  obtain ⟨rows, same, shape⟩ := outlined.rows
  rw [same]
  exact shape

lemma outline_of_shape {first rows : List HostTreeRow}
    (shape : Shape SiteHost.id (groupHosts hosts).childrenOf 0 (groupHosts hosts).roots first)
    (starts : first <+: rows) (once : (rows.map Row.item).Perm hosts) :
    HostOutline hosts rows := by
  have tops : ∀ y, y ∈ (groupHosts hosts).roots ↔ y ∈ hosts ∧ parentOf hosts y = none := by
    intro y
    rw [roots_eq, mem_filter, decide_eq_true_eq]
  have kids : ∀ p ∈ hosts, ∀ y, y ∈ (groupHosts hosts).childrenOf p.id ↔
      y ∈ hosts ∧ parentOf hosts y = some p := fun p home y => mem_childrenOf ids home
  have parents : ∀ y p, parentOf hosts y = some p → p ∈ hosts := fun y p up =>
    ((parentOf_eq_some ids).mp up).2
  obtain ⟨last, rfl⟩ := starts
  refine ⟨once, ?_, ?_, ?_⟩
  · intro host known ancestors up
    obtain ⟨front, inner, back, split, -⟩ := shape.locate tops kids parents known up
    refine ⟨(nodup_cons.mp up.nodup).2, mem_append_left _ ?_⟩
    rw [split]
    simp
  · intro host known parent ancestors up
    have home := parents host parent up.1
    obtain ⟨front, inner, back, split, under⟩ := shape.locate tops kids parents home up.2
    obtain ⟨between, inner', back', split', -⟩ :=
      under.split ((kids parent home host).mpr ⟨known, up.1⟩)
    refine ⟨front, between, inner' ++ back' ++ back ++ last, ?_, fun row member => ?_⟩
    · rw [split, split']
      simp
    · have deeper := under.depth_le row (split' ▸ by simp [member])
      omega
  · intro a b before ancestors upA upB
    have both : ∀ test : SiteHost → Bool, test a = true → test b = true →
        [a, b].Sublist (hosts.filter test) := by
      intro test onA onB
      have kept := before.filter test
      rwa [filter_cons_of_pos onA, filter_cons_of_pos onB, filter_nil] at kept
    cases ancestors with
    | nil =>
      refine Sublist.trans ?_ (sublist_append_left first last)
      have topA : parentOf hosts a = none := upA
      have topB : parentOf hosts b = none := upB
      have top := both (parentOf hosts · = none) (decide_eq_true topA) (decide_eq_true topB)
      rw [← roots_eq] at top
      exact (top.map _).trans shape.sublist
    | cons parent ancestors =>
      have home := parents a parent upA.1
      obtain ⟨front, inner, back, split, under⟩ := shape.locate tops kids parents home upA.2
      have child : [a, b].Sublist ((groupHosts hosts).childrenOf parent.id) := by
        rw [childrenOf_eq]
        refine both _ ?_ ?_
        · rw [upA.1]
          simp
        · rw [upB.1]
          simp
      have placed : [⟨a, ancestors.length + 1⟩, ⟨b, ancestors.length + 1⟩].Sublist inner :=
        (child.map _).trans under.sublist
      have around : first ++ last =
          (front ++ [⟨parent, ancestors.length⟩]) ++ inner ++ (back ++ last) := by
        rw [split]
        simp
      rw [around]
      exact sublist_append_of_sublist_left (placed.trans (sublist_append_right _ _))

lemma buildHostTreeRows_outline {fuel : Nat} (enough : hosts.length < fuel) :
    ∃ rows, buildHostTreeRows fuel hosts = some rows ∧ HostOutline hosts rows := by
  have inside : ∀ id, ∀ child ∈ (groupHosts hosts).childrenOf id, child ∈ hosts := by
    intro id child member
    rw [childrenOf_eq] at member
    exact mem_of_mem_filter member
  have few : ∀ s : Listing SiteHost Id, unmet SiteHost.id hosts s < fuel := fun s =>
    Nat.lt_of_le_of_lt (length_filter_le _ _) enough
  have first : ∀ root ∈ (groupHosts hosts).roots, ∀ t, Later SiteHost.id hosts .start t →
      ∃ t', walk SiteHost.id (groupHosts hosts).childrenOf fuel 0 t root = some t' ∧
        Later SiteHost.id hosts t t' ∧ root.id ∈ t'.visited := by
    intro root member t after
    rw [roots_eq] at member
    exact walk_returns inside 0 after.sound (mem_of_mem_filter member) (few t)
  obtain ⟨s, ran, later, -⟩ := foldlM_returns sound_start first
  let walkOn (s : Listing SiteHost Id) (host : SiteHost) : Option (Listing SiteHost Id) :=
    if host.id ∈ s.visited then some s
    else walk SiteHost.id (groupHosts hosts).childrenOf fuel 0 s host
  have each : ∀ host ∈ hosts, ∀ t, Later SiteHost.id hosts s t →
      ∃ t', walkOn t host = some t' ∧ Later SiteHost.id hosts t t' ∧ host.id ∈ t'.visited := by
    intro host member t after
    by_cases met : host.id ∈ t.visited
    · exact ⟨t, if_pos met, .refl after.sound, met⟩
    · obtain ⟨t', walked, later', met'⟩ := walk_returns inside 0 after.sound member (few t)
      exact ⟨t', (if_neg met).trans walked, later', met'⟩
  obtain ⟨s', ran', later', all⟩ := foldlM_returns later.sound each
  refine ⟨s'.rows, ?_, outline_of_shape ids (exists_shape ids ran) later'.rows ?_⟩
  · simp only [buildHostTreeRows, ran, Option.bind_eq_bind, Option.bind_some]
    rw [ran']
    rfl
  · have sound := later'.sound
    have distinct := sound.distinct
    rw [sound.visited] at distinct all
    have rows : (s'.rows.map Row.item).Nodup := by
      apply Nodup.of_map SiteHost.id
      rw [List.map_map]
      exact distinct
    refine (perm_ext_iff_of_nodup rows (Nodup.of_map SiteHost.id ids)).mpr fun host => ?_
    constructor
    · intro member
      obtain ⟨row, placed, rfl⟩ := mem_map.mp member
      exact sound.known row placed
    · intro known
      obtain ⟨row, placed, same⟩ := mem_map.mp (all host known)
      have home := sound.known row placed
      exact mem_map.mpr ⟨row, placed, inj_on_of_nodup_map ids home known same⟩

end

end Rows

/-- The check of the store lets a host become the parent of another one. -/
def HostStore.AcceptsParent (s : HostStore) (host parent : SiteHost) : Prop :=
  s.validateParent host.siteId host.id (some parent.id) = .ok (some parent.id)

section Eligible
variable {hosts : List SiteHost} {host p : SiteHost} {ancestors : List SiteHost} {id : Id}

/-- What is on the way up from a host, when every parent that is named is there. -/
lemma reaches_iff (ids : (hosts.map SiteHost.id).Nodup)
    (whole : ∀ h ∈ hosts, ∀ q, namedParent h = some q → ∃ above ∈ hosts, above.id = q)
    (known : p ∈ hosts) (up : IsChain (parentOf hosts) p ancestors) :
    ReflTransGen (Link SiteHost.id namedParent hosts) p.id id ↔
      p.id = id ∨ ∃ a ∈ ancestors, a.id = id := by
  induction ancestors generalizing p with
  | nil =>
    constructor
    · intro path
      rcases ReflTransGen.cases_head path with same | ⟨next, ⟨h, member, same, named⟩, -⟩
      · exact .inl same
      · cases inj_on_of_nodup_map ids member known same
        obtain ⟨above, home, rfl⟩ := whole p known next named
        have top : parentOf hosts p = none := up
        rw [(parentOf_eq_some ids).mpr ⟨named, home⟩] at top
        cases top
    · rintro (rfl | ⟨a, member, -⟩)
      · exact .refl
      · cases member
  | cons q ancestors ih =>
    obtain ⟨named, home⟩ := (parentOf_eq_some ids).mp up.1
    have above := ih home up.2
    constructor
    · intro path
      rcases ReflTransGen.cases_head path with same | ⟨next, ⟨h, member, same, named'⟩, rest⟩
      · exact .inl same
      · cases inj_on_of_nodup_map ids member known same
        cases named.symm.trans named'
        rcases above.mp rest with here | ⟨a, member', same'⟩
        · exact .inr ⟨q, mem_cons_self, here⟩
        · exact .inr ⟨a, mem_cons_of_mem q member', same'⟩
    · rintro (rfl | ⟨a, member, rfl⟩)
      · exact .refl
      · refine ReflTransGen.head ⟨p, known, rfl, named⟩ (above.mpr ?_)
        rcases mem_cons.mp member with rfl | member
        · exact .inl rfl
        · exact .inr ⟨a, member, rfl⟩

lemma eligibleParentHosts_returns (named : id ≠ []) {fuel : Nat} (enough : hosts.length < fuel) :
    ∃ eligible, eligibleParentHosts fuel hosts id = some eligible ∧ ∀ p, p ∈ eligible ↔
      p ∈ hosts ∧ ¬ ReflTransGen (Link SiteHost.id namedParent hosts) p.id id := by
  obtain ⟨blocked, ran, exact_⟩ : ∃ blocked,
      rounds SiteHost.id namedParent hosts fuel [id] = some blocked ∧ ∀ k, k ∈ blocked ↔
        ∃ start ∈ [id], ReflTransGen (Link SiteHost.id namedParent hosts) k start :=
    rounds_returns (Nat.lt_of_le_of_lt (length_filter_le _ _) enough)
  refine ⟨_, by rw [eligibleParentHosts, if_neg named, ran]; rfl, fun p => ?_⟩
  rw [mem_filter, decide_eq_true_eq, exact_]
  simp

end Eligible

namespace HostStore.Sound

variable {s : HostStore} {site : Id} {host p : SiteHost} {ancestors : List SiteHost}

variable (r : s.Sound)
include r

lemma listed_ids (site : Id) : ((s.listHosts site).map SiteHost.id).Nodup := by
  have kept : ((s.hosts.filter (·.siteId = site)).map SiteHost.id).Nodup :=
    r.ids.sublist (filter_sublist.map _)
  exact ((mergeSort_perm _ _).map _).nodup_iff.mpr kept

lemma namedParent_eq (member : host ∈ s.hosts) : namedParent host = host.parentHostId := by
  rw [namedParent]
  cases up : host.parentHostId with
  | none => rfl
  | some q =>
    obtain ⟨above, home, rfl, -⟩ := r.parents host member q up
    simp [r.named above home]

lemma parent_listed (member : host ∈ s.listHosts site) {q : Id}
    (up : host.parentHostId = some q) : ∃ above ∈ s.listHosts site, above.id = q := by
  obtain ⟨home, there⟩ := mem_listHosts.mp member
  obtain ⟨above, home', same, site'⟩ := r.parents host home q up
  exact ⟨above, mem_listHosts.mpr ⟨home', site'.trans there⟩, same⟩

lemma exists_chain (member : p ∈ s.listHosts site) :
    ∃ ancestors, IsChain (parentOf (s.listHosts site)) p ancestors := by
  have links : ParentTree.LinksFrom s.Under (s.hosts.map SiteHost.id) := by
    rintro a b ⟨h, home, rfl, -⟩
    exact mem_map_of_mem home
  obtain ⟨height, rises, bounded⟩ := ParentTree.exists_height r.acyclic links
  induction left : (s.hosts.map SiteHost.id).length - height p.id using Nat.strong_induction_on
    generalizing p with
  | _ left' ih =>
    subst left
    cases up : parentOf (s.listHosts site) p with
    | none => exact ⟨[], up⟩
    | some q =>
      obtain ⟨named, home⟩ := (parentOf_eq_some (r.listed_ids site)).mp up
      have known := (mem_listHosts.mp member).1
      rw [r.namedParent_eq known] at named
      have higher := rises p.id q.id ⟨p, known, rfl, named⟩
      have bound := bounded p.id (mem_map_of_mem known)
      obtain ⟨ancestors, rest⟩ := ih _ (by omega) home rfl
      exact ⟨q :: ancestors, up, rest⟩

/-- The walk upwards ends well when it is short and does not meet the host. -/
lemma walkUp_iff {hops : Nat} {id : Id} (member : p ∈ s.listHosts site)
    (up : IsChain (parentOf (s.listHosts site)) p ancestors) :
    s.walkUp site id hops p.id = .ok () ↔ ancestors.length ≤ hops ∧ ∀ a ∈ ancestors, a.id ≠ id := by
  induction ancestors generalizing p hops with
  | nil =>
    obtain ⟨home, there⟩ := mem_listHosts.mp member
    have top : p.parentHostId = none := by
      cases named : p.parentHostId with
      | none => rfl
      | some q =>
        obtain ⟨above, listed, rfl⟩ := r.parent_listed member named
        have found := (parentOf_eq_some (r.listed_ids site)).mpr
          ⟨(r.namedParent_eq home).trans named, listed⟩
        have none_ : parentOf (s.listHosts site) p = none := up
        rw [found] at none_
        cases none_
    rw [HostStore.walkUp, fetchHost_of_mem r.ids home]
    simp [there, top]
  | cons q ancestors ih =>
    obtain ⟨home, there⟩ := mem_listHosts.mp member
    obtain ⟨named, listed⟩ := (parentOf_eq_some (r.listed_ids site)).mp up.1
    rw [r.namedParent_eq home] at named
    rw [HostStore.walkUp, fetchHost_of_mem r.ids home]
    simp only [there, named, ne_eq, not_true_eq_false, if_false]
    by_cases meets : q.id = id
    · simp [meets]
    · rw [if_neg meets]
      cases hops with
      | zero => simp
      | succ hops =>
        rw [ih listed up.2]
        simp [meets]

lemma reaches_listed_iff {id : Id} (listed : p ∈ s.listHosts site)
    (up : IsChain (parentOf (s.listHosts site)) p ancestors) :
    ReflTransGen (Link SiteHost.id namedParent (s.listHosts site)) p.id id ↔
      p.id = id ∨ ∃ a ∈ ancestors, a.id = id := by
  refine reaches_iff (r.listed_ids site) ?_ listed up
  intro h known q named
  rw [r.namedParent_eq (mem_listHosts.mp known).1] at named
  exact r.parent_listed known named

/-- The store accepts what is not below the host, unless the way up is too long or the id does not
survive the trimming. -/
lemma acceptsParent_iff (member : host ∈ s.listHosts site) (listed : p ∈ s.listHosts site)
    (up : IsChain (parentOf (s.listHosts site)) p ancestors) :
    s.AcceptsParent host p ↔ Text.trim p.id = p.id ∧ ancestors.length ≤ 64 ∧
      ¬ ReflTransGen (Link SiteHost.id namedParent (s.listHosts site)) p.id host.id := by
  rw [r.reaches_listed_iff listed up]
  have named := r.named p (mem_listHosts.mp listed).1
  obtain ⟨-, there⟩ := mem_listHosts.mp member
  rw [HostStore.AcceptsParent, HostStore.validateParent, there]
  by_cases trimmed : Text.trim p.id = p.id
  · have walk : s.walkUp site host.id 64 p.id = .ok () ↔ _ := r.walkUp_iff listed up
    have given : ((some p.id).map Text.trim).filter (· ≠ []) = some p.id := by simp [trimmed, named]
    have checked : (do
        reject (p.id = host.id) (.validation "a host cannot be its own parent")
        s.walkUp site host.id 64 p.id
        pure (some p.id) : Except StorageError (Option Id)) = .ok (some p.id) ↔
          p.id ≠ host.id ∧ s.walkUp site host.id 64 p.id = .ok () := by
      rw [reject_bind_ok, bind_eq_ok, and_congr_right_iff]
      intro _
      constructor
      · rintro ⟨⟨⟩, walked, -⟩
        exact walked
      · exact fun walked => ⟨⟨⟩, walked, rfl⟩
    rw [given]
    refine checked.trans ?_
    rw [walk]
    constructor
    · rintro ⟨other, short, apart⟩
      refine ⟨trimmed, short, ?_⟩
      rintro (same | ⟨a, above, same⟩)
      · exact other same
      · exact apart a above same
    · rintro ⟨-, short, apart⟩
      exact ⟨fun same => apart (.inl same), short,
        fun a above same => apart (.inr ⟨a, above, same⟩)⟩
  · refine iff_of_false (fun checked => ?_) (fun all => trimmed all.1)
    split at checked
    · cases checked
    · rename_i parentId given
      obtain ⟨-, checked⟩ := reject_bind_ok.mp checked
      obtain ⟨⟨⟩, -, done⟩ := bind_eq_ok.mp checked
      cases done
      exact trimmed (Option.some.inj (Option.filter_eq_some_iff.mp given).1)

end HostStore.Sound

/-- The panel shows every host once, as a tree where the parents allow it; the dialog offers what
the store accepts and hosts with more than 64 ancestors or an id that is not trimmed. -/
theorem host_tree_agrees :
    (∀ hosts : List SiteHost, (hosts.map SiteHost.id).Nodup → ∀ fuel, hosts.length < fuel →
      ∃ rows, buildHostTreeRows fuel hosts = some rows ∧ HostOutline hosts rows) ∧
    ∀ s : HostStore, s.Sound → ∀ site, ∀ host ∈ s.listHosts site,
      ∀ fuel, (s.listHosts site).length < fuel →
        ∃ eligible, eligibleParentHosts fuel (s.listHosts site) host.id = some eligible ∧
          ∀ p ∈ s.listHosts site, ∃ ancestors,
            IsChain (parentOf (s.listHosts site)) p ancestors ∧
              (s.AcceptsParent host p ↔
                p ∈ eligible ∧ ancestors.length ≤ 64 ∧ Text.trim p.id = p.id) := by
  refine ⟨fun hosts ids fuel => buildHostTreeRows_outline ids, ?_⟩
  intro s r site host member fuel enough
  have named := r.named host (mem_listHosts.mp member).1
  obtain ⟨eligible, offered, exact_⟩ := eligibleParentHosts_returns named enough
  refine ⟨eligible, offered, fun p listed => ?_⟩
  obtain ⟨ancestors, up⟩ := r.exists_chain listed
  refine ⟨ancestors, up, ?_⟩
  rw [r.acceptsParent_iff member listed up, exact_]
  constructor
  · exact fun ⟨trimmed, short, apart⟩ => ⟨⟨listed, apart⟩, short, trimmed⟩
  · exact fun ⟨⟨_, apart⟩, short, trimmed⟩ => ⟨trimmed, short, apart⟩

def hostNamed (id : Id) (parentHostId : Option Id) (sortOrder : Int) : SiteHost where
  id := id
  siteId := ['s']
  parentHostId := parentHostId
  hostname := id
  label := []
  kind := .physical
  connectionIds := []
  scan := none
  execution := .default
  notes := []
  sortOrder := sortOrder

-- an unknown parent leaves a host at the top, and a cycle comes last
/-- Host number `i` of a tower, which stands under the host before it. -/
def towerHost : Nat → SiteHost
  | 0 => hostNamed ['h'] none 0
  | i + 1 => hostNamed (List.replicate (i + 2) 'h') (some (List.replicate (i + 1) 'h')) (i + 1)

def tower (n : Nat) : HostStore :=
  ⟨[['s']], (List.range n).map towerHost⟩

section Towers
variable {n i : Nat}

lemma towerHost_id (i : Nat) : (towerHost i).id = replicate (i + 1) 'h' := by
  cases i <;> rfl

lemma towerHost_parent (i : Nat) : (towerHost (i + 1)).parentHostId = some (towerHost i).id := by
  rw [towerHost_id]
  rfl

lemma towerHost_injective {j : Nat} (same : (towerHost i).id = (towerHost j).id) : i = j := by
  rw [towerHost_id, towerHost_id] at same
  have lengths := congrArg length same
  simpa using lengths

lemma towerHost_site (i : Nat) : (towerHost i).siteId = ['s'] := by
  cases i <;> rfl

lemma towerHost_order (i : Nat) : (towerHost i).sortOrder = i := by
  cases i <;> rfl

lemma towerHost_hostname (i : Nat) : (towerHost i).hostname = replicate (i + 1) 'h' := by
  cases i <;> rfl

lemma mem_tower {h : SiteHost} : h ∈ (tower n).hosts ↔ ∃ i < n, towerHost i = h := by
  simp [tower]

lemma tower_sound (n : Nat) : (tower n).Sound where
  ids := by
    rw [tower, List.map_map]
    refine Nodup.map_on (fun i _ j _ same => towerHost_injective same) nodup_range
  named h member := by
    obtain ⟨i, -, rfl⟩ := mem_tower.mp member
    simp [towerHost_id]
  parents h member p up := by
    obtain ⟨i, small, rfl⟩ := mem_tower.mp member
    cases i with
    | zero => cases up
    | succ i =>
      rw [towerHost_parent] at up
      cases up
      refine ⟨towerHost i, mem_tower.mpr ⟨i, by omega, rfl⟩, rfl, ?_⟩
      rw [towerHost_site, towerHost_site]
  acyclic := by
    have shorter : ∀ a b, TransGen (tower n).Under a b → b.length < a.length := by
      intro a b path
      have step : ∀ a b, (tower n).Under a b → b.length < a.length := by
        rintro a b ⟨h, member, rfl, up⟩
        obtain ⟨i, -, rfl⟩ := mem_tower.mp member
        cases i with
        | zero => cases up
        | succ i =>
          rw [towerHost_parent] at up
          cases up
          simp [towerHost_id]
      induction path with
      | single link => exact step _ _ link
      | tail _ link ih => exact (step _ _ link).trans ih
    intro a cycle
    exact Nat.lt_irrefl _ (shorter a a cycle)
  hostnames a ha b hb _ same := by
    obtain ⟨i, -, rfl⟩ := mem_tower.mp ha
    obtain ⟨j, -, rfl⟩ := mem_tower.mp hb
    have lower := congrArg length (sameNoCase_iff.mp same)
    simp only [towerHost_hostname, length_map, length_replicate] at lower
    rw [towerHost_id, towerHost_id, lower]
  orders a ha b hb _ same := by
    obtain ⟨i, -, rfl⟩ := mem_tower.mp ha
    obtain ⟨j, -, rfl⟩ := mem_tower.mp hb
    rw [towerHost_order, towerHost_order] at same
    rw [Int.ofNat.inj same]

lemma towerHost_listed (small : i < n) : towerHost i ∈ (tower n).listHosts ['s'] :=
  mem_listHosts.mpr ⟨mem_tower.mpr ⟨i, small, rfl⟩, towerHost_site i⟩

/-- The hosts under which host number `i` stands. -/
def towerAncestors : Nat → List SiteHost
  | 0 => []
  | i + 1 => towerHost i :: towerAncestors i

lemma length_towerAncestors (i : Nat) : (towerAncestors i).length = i := by
  induction i with
  | zero => rfl
  | succ i ih => rw [towerAncestors, length_cons, ih]

lemma tower_chain (small : i < n) :
    IsChain (parentOf ((tower n).listHosts ['s'])) (towerHost i) (towerAncestors i) := by
  induction i with
  | zero => rfl
  | succ i ih =>
    refine ⟨(parentOf_eq_some ((tower_sound n).listed_ids _)).mpr ⟨?_, ?_⟩, ih (by omega)⟩
    · rw [(tower_sound n).namedParent_eq (mem_tower.mpr ⟨i + 1, small, rfl⟩)]
      exact towerHost_parent i
    · exact towerHost_listed (by omega)

lemma mem_towerAncestors {h : SiteHost} (member : h ∈ towerAncestors i) :
    ∃ j < i, towerHost j = h := by
  induction i with
  | zero => cases member
  | succ i ih =>
    rcases mem_cons.mp member with rfl | member
    · exact ⟨i, by omega, rfl⟩
    · obtain ⟨j, small, same⟩ := ih member
      exact ⟨j, by omega, same⟩

end Towers

/-- Two hosts at the top level, one of which has an id that starts with a blank. -/
def padded : HostStore :=
  ⟨[['s']], [hostNamed ['a'] none 0, hostNamed [' ', 'b'] none 1]⟩

lemma padded_sound : padded.Sound where
  ids := by decide
  named := by decide
  parents := by simp [padded, hostNamed]
  acyclic := by
    refine ParentLinks.acyclic_of_empty fun a b => ?_
    rintro ⟨h, member, -, up⟩
    simp only [padded, hostNamed, mem_cons, not_mem_nil, or_false] at member
    rcases member with rfl | rfl <;> cases up
  hostnames := by simp [padded, hostNamed, sameNoCase]
  orders := by simp [padded, hostNamed]

theorem padded_tree_agrees :
    (∃ rows, buildHostTreeRows 3 padded.hosts = some rows ∧ HostOutline padded.hosts rows) ∧
    ∃ eligible, eligibleParentHosts 3 (padded.listHosts ['s']) ['a'] = some eligible ∧
      ∀ p ∈ padded.listHosts ['s'], ∃ ancestors,
        IsChain (parentOf (padded.listHosts ['s'])) p ancestors ∧
          (padded.AcceptsParent (hostNamed ['a'] none 0) p ↔
            p ∈ eligible ∧ ancestors.length ≤ 64 ∧ Text.trim p.id = p.id) := by
  have listed : hostNamed ['a'] none 0 ∈ padded.listHosts ['s'] :=
    mem_listHosts.mpr ⟨mem_cons_self, rfl⟩
  have few : (padded.listHosts ['s']).length < 3 := by simp [HostStore.listHosts, padded, hostNamed]
  constructor
  · exact host_tree_agrees.1 padded.hosts padded_sound.ids 3 (by decide)
  · exact host_tree_agrees.2 padded padded_sound ['s'] _ listed 3 few

/-- The dialog offers a host as the parent of another one. -/
def HostStore.OffersParent (s : HostStore) (site : Id) (host p : SiteHost) : Prop :=
  ∀ fuel, (s.listHosts site).length < fuel →
    ∃ eligible, eligibleParentHosts fuel (s.listHosts site) host.id = some eligible ∧ p ∈ eligible

lemma HostStore.Sound.offersParent {s : HostStore} (r : s.Sound) {site : Id} {host p : SiteHost}
    {ancestors : List SiteHost} (member : host ∈ s.listHosts site) (listed : p ∈ s.listHosts site)
    (up : IsChain (parentOf (s.listHosts site)) p ancestors) (other : p.id ≠ host.id)
    (apart : ∀ a ∈ ancestors, a.id ≠ host.id) : s.OffersParent site host p := by
  intro fuel enough
  have named := r.named host (mem_listHosts.mp member).1
  obtain ⟨eligible, offered, exact_⟩ := eligibleParentHosts_returns named enough
  refine ⟨eligible, offered, (exact_ p).mpr ⟨listed, ?_⟩⟩
  rw [r.reaches_listed_iff listed up]
  rintro (same | ⟨a, above, same⟩)
  · exact other same
  · exact apart a above same

/-- The dialog offers a host at the end of a long chain, and one whose id is not trimmed. -/
theorem offered_and_rejected :
    (∃ s : HostStore, s.Sound ∧ ∃ site, ∃ host ∈ s.listHosts site, ∃ p ∈ s.listHosts site,
      Text.trim p.id = p.id ∧ s.OffersParent site host p ∧ ¬ s.AcceptsParent host p) ∧
    ∃ s : HostStore, s.Sound ∧ ∃ site, ∃ host ∈ s.listHosts site, ∃ p ∈ s.listHosts site,
      parentOf (s.listHosts site) p = none ∧ s.OffersParent site host p ∧
        ¬ s.AcceptsParent host p := by
  constructor
  · have host : towerHost 66 ∈ (tower 67).listHosts ['s'] := towerHost_listed (by omega)
    have p : towerHost 65 ∈ (tower 67).listHosts ['s'] := towerHost_listed (by omega)
    have up : IsChain (parentOf ((tower 67).listHosts ['s'])) (towerHost 65) (towerAncestors 65) :=
      tower_chain (by omega)
    refine ⟨tower 67, tower_sound 67, ['s'], _, host, _, p, by decide, ?_, ?_⟩
    · refine (tower_sound 67).offersParent host p up ?_ fun a above same => ?_
      · exact fun same => absurd (towerHost_injective same) (by omega)
      · obtain ⟨j, small, rfl⟩ := mem_towerAncestors above
        have far := towerHost_injective same
        omega
    · rw [(tower_sound 67).acceptsParent_iff host p up, length_towerAncestors]
      omega
  · have host : hostNamed ['a'] none 0 ∈ padded.listHosts ['s'] :=
      mem_listHosts.mpr ⟨mem_cons_self, rfl⟩
    have p : hostNamed [' ', 'b'] none 1 ∈ padded.listHosts ['s'] :=
      mem_listHosts.mpr ⟨mem_cons_of_mem _ mem_cons_self, rfl⟩
    have up : IsChain (parentOf (padded.listHosts ['s'])) (hostNamed [' ', 'b'] none 1) [] := rfl
    refine ⟨padded, padded_sound, ['s'], _, host, _, p, rfl, ?_, ?_⟩
    · refine padded_sound.offersParent host p up ?_ fun a above => ?_
      · decide
      · cases above
    · rw [padded_sound.acceptsParent_iff host p up]
      rintro ⟨trimmed, -⟩
      exact absurd trimmed (by decide)

end ItOps
