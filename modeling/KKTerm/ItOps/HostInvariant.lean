import KKTerm.ItOps.HostStorage
import KKTerm.ItOps.RackInvariant
import KKTerm.Library.ParentTree

/-!
# What the host inventory keeps

Parents form a forest inside each site, and neither hostnames nor places in the
order are given twice in a site.
-/

namespace ItOps

open Fallible ParentLinks Relation List

/-- One host names the other as its parent. -/
def HostStore.Under (s : HostStore) (child parent : Id) : Prop :=
  ∃ h ∈ s.hosts, h.id = child ∧ h.parentHostId = some parent

structure HostStore.Sound (s : HostStore) : Prop where
  ids : (s.hosts.map SiteHost.id).Nodup
  named : ∀ h ∈ s.hosts, h.id ≠ []
  parents : ∀ h ∈ s.hosts, ∀ p, h.parentHostId = some p →
    ∃ parent ∈ s.hosts, parent.id = p ∧ parent.siteId = h.siteId
  acyclic : Acyclic s.Under
  hostnames : ∀ a ∈ s.hosts, ∀ b ∈ s.hosts, a.siteId = b.siteId →
    sameNoCase a.hostname b.hostname = true → a.id = b.id
  orders : ∀ a ∈ s.hosts, ∀ b ∈ s.hosts, a.siteId = b.siteId → a.sortOrder = b.sortOrder →
    a.id = b.id

lemma sameNoCase_iff {a b : List Char} :
    sameNoCase a b = true ↔ a.map Char.toLower = b.map Char.toLower :=
  beq_iff_eq

lemma sameNoCase_symm {a b : List Char} (h : sameNoCase a b = true) : sameNoCase b a = true :=
  sameNoCase_iff.mpr (sameNoCase_iff.mp h).symm

section Rows

variable {s : HostStore} {id : Id} {h : SiteHost}

lemma fetchHost_eq_some (found : s.fetchHost id = some h) : h ∈ s.hosts ∧ h.id = id :=
  ⟨mem_of_find?_eq_some found, by simpa using find?_some found⟩

lemma getHost_eq_ok (found : s.getHost id = .ok h) : h ∈ s.hosts ∧ h.id = id :=
  fetchHost_eq_some (require_eq_ok.mp found)

lemma eq_of_id (ids : (s.hosts.map SiteHost.id).Nodup) {a b : SiteHost} (ha : a ∈ s.hosts)
    (hb : b ∈ s.hosts) (same : a.id = b.id) : a = b :=
  inj_on_of_nodup_map ids ha hb same

lemma fetchHost_of_mem (ids : (s.hosts.map SiteHost.id).Nodup) (member : h ∈ s.hosts) :
    s.fetchHost h.id = some h := by
  have present : (s.hosts.find? (·.id = h.id)).isSome := by
    rw [find?_isSome]
    exact ⟨h, member, by simp⟩
  obtain ⟨other, found⟩ := Option.isSome_iff_exists.mp present
  obtain ⟨home, same⟩ := fetchHost_eq_some found
  cases eq_of_id ids home member same
  exact found

end Rows

lemma insertHost_eq_ok {s s' : HostStore} {row : SiteHost} (h : s.insertHost row = .ok s') :
    row.id ∉ s.hosts.map SiteHost.id ∧ s' = { s with hosts := s.hosts ++ [row] } := by
  obtain ⟨fresh, h⟩ := reject_bind_ok.mp h
  obtain ⟨-, done⟩ := reject_bind_ok.mp h
  cases done
  exact ⟨fresh, rfl⟩

lemma lt_nextSort {orders : List Int} {order : Int} (member : order ∈ orders) :
    order < Store.nextSort orders := by
  rw [Store.nextSort]
  cases largest : orders.max? with
  | none =>
    rw [max?_eq_none_iff.mp largest] at member
    cases member
  | some top =>
    have bound : order ≤ top := (max?_eq_some_iff.mp largest).2 order member
    rw [Option.getD_some]
    omega

lemma lt_nextHostSort {s : HostStore} {siteId : Id} {h : SiteHost} (member : h ∈ s.hosts)
    (site : h.siteId = siteId) : h.sortOrder < s.nextHostSort siteId :=
  lt_nextSort (mem_map_of_mem (mem_filter.mpr ⟨member, decide_eq_true site⟩))

section Parent

variable {s : HostStore} {siteId id : Id}

lemma mem_listHosts {h : SiteHost} :
    h ∈ s.listHosts siteId ↔ h ∈ s.hosts ∧ h.siteId = siteId := by
  rw [HostStore.listHosts, mem_mergeSort, mem_filter, decide_eq_true_iff]

section
variable (ids : (s.hosts.map SiteHost.id).Nodup)
include ids

/-- From a host the way up leads to another host through its parent only. -/
lemma off_of_parent {row : SiteHost} (home : row ∈ s.hosts) (start : row.id ≠ id)
    (off : ∀ next, row.parentHostId = some next → ¬ ReflTransGen s.Under next id) :
    ¬ ReflTransGen s.Under row.id id := by
  intro path
  rcases ReflTransGen.cases_head path with same | ⟨next, ⟨h, member, same, up⟩, rest⟩
  · exact start same
  · cases eq_of_id ids member home same
    exact off next up rest

/-- A completed walk has not met the host, and nothing else is above its start. -/
lemma walkUp_eq_ok {hops : Nat} {cursor : Id} (walked : s.walkUp siteId id hops cursor = .ok ()) :
    (∃ row ∈ s.hosts, row.id = cursor ∧ row.siteId = siteId) ∧
      (cursor ≠ id → ¬ ReflTransGen s.Under cursor id) := by
  induction hops generalizing cursor with
  | zero =>
    rw [HostStore.walkUp] at walked
    split at walked
    next => cases walked
    next row found =>
      obtain ⟨home, rfl⟩ := fetchHost_eq_some found
      split_ifs at walked with site
      refine ⟨⟨row, home, rfl, not_not.mp site⟩, fun start => off_of_parent ids home start ?_⟩
      intro next up
      rw [up] at walked
      dsimp only at walked
      split_ifs at walked
  | succ hops ih =>
    rw [HostStore.walkUp] at walked
    split at walked
    next => cases walked
    next row found =>
      obtain ⟨home, rfl⟩ := fetchHost_eq_some found
      split_ifs at walked with site
      refine ⟨⟨row, home, rfl, not_not.mp site⟩, fun start => off_of_parent ids home start ?_⟩
      intro next up
      rw [up] at walked
      dsimp only at walked
      split_ifs at walked with closes
      exact (ih walked).2 closes

/-- A parent that passes the check is a host of the site that is not below the given one. -/
lemma validateParent_eq_ok {given parent : Option Id}
    (checked : s.validateParent siteId id given = .ok parent) {p : Id} (h : parent = some p) :
    (∃ row ∈ s.hosts, row.id = p ∧ row.siteId = siteId) ∧ ¬ ReflTransGen s.Under p id := by
  rw [HostStore.validateParent] at checked
  split at checked
  next =>
    cases checked
    cases h
  next parentId _ =>
    obtain ⟨other, checked⟩ := reject_bind_ok.mp checked
    obtain ⟨⟨⟩, walked, done⟩ := bind_eq_ok.mp checked
    cases done
    cases h
    obtain ⟨row, off⟩ := walkUp_eq_ok ids walked
    exact ⟨row, off other⟩

end

end Parent

/-- A hostname that is not taken differs from that of every other host. -/
lemma free_of_not_taken {s : HostStore} {siteId : Id} {hostname : List Char} {ignoreId : Option Id}
    (free : ¬ s.hostnameTaken siteId hostname ignoreId = true) {h : SiteHost} (home : h ∈ s.hosts)
    (other : h.id ≠ ignoreId.getD []) (site : h.siteId = siteId) :
    sameNoCase h.hostname hostname = false := by
  rw [Bool.eq_false_iff]
  intro same
  refine free (any_eq_true.mpr ⟨h, home, ?_⟩)
  simp [site, same, other]

namespace HostStore.Sound

variable {s : HostStore} (r : s.Sound)
include r

lemma parent_ne {h : SiteHost} (member : h ∈ s.hosts) {p : Id} (up : h.parentHostId = some p) :
    p ≠ h.id := by
  rintro rfl
  exact r.acyclic h.id (.single ⟨h, member, rfl, up⟩)

variable {row : SiteHost} {s' : HostStore}

lemma addHost (fresh : row.id ∉ s.hosts.map SiteHost.id) (name : row.id ≠ [])
    (parent : ∀ p, row.parentHostId = some p →
      ∃ parent ∈ s.hosts, parent.id = p ∧ parent.siteId = row.siteId)
    (hostname : ∀ h ∈ s.hosts, h.siteId = row.siteId → sameNoCase h.hostname row.hostname = false)
    (order : ∀ h ∈ s.hosts, h.siteId = row.siteId → h.sortOrder ≠ row.sortOrder) :
    { s with hosts := s.hosts ++ [row] }.Sound where
  ids := nodup_concat r.ids fresh
  named h member := by
    rcases mem_append.mp member with old | new
    · exact r.named h old
    · cases mem_singleton.mp new
      exact name
  parents h member p up := by
    have found : ∃ parent ∈ s.hosts, parent.id = p ∧ parent.siteId = h.siteId := by
      rcases mem_append.mp member with old | new
      · exact r.parents h old p up
      · cases mem_singleton.mp new
        exact parent p up
    obtain ⟨above, home, same⟩ := found
    exact ⟨above, mem_append_left _ home, same⟩
  acyclic := by
    cases up : row.parentHostId with
    | none =>
      refine r.acyclic.mono ?_
      rintro a b ⟨h, member, rfl, above⟩
      rcases mem_append.mp member with old | new
      · exact .single ⟨h, old, rfl, above⟩
      · cases mem_singleton.mp new
        rw [up] at above
        cases above
    | some p =>
      refine r.acyclic.redirect row.id p ?_ ?_
      · rintro a b ⟨h, member, rfl, above⟩
        rcases mem_append.mp member with old | new
        · refine .inl ⟨?_, h, old, rfl, above⟩
          intro same
          exact fresh (same ▸ mem_map_of_mem old)
        · cases mem_singleton.mp new
          rw [up] at above
          cases above
          exact .inr ⟨rfl, rfl⟩
      · intro path
        rcases ReflTransGen.cases_tail path with same | ⟨below, -, h, member, -, above⟩
        · obtain ⟨upper, home, here, -⟩ := parent p up
          exact fresh (same ▸ here ▸ mem_map_of_mem home)
        · obtain ⟨upper, home, here, -⟩ := r.parents h member row.id above
          exact fresh (here ▸ mem_map_of_mem home)
  hostnames a ha b hb site same := by
    rcases mem_append.mp ha with oldA | newA <;> rcases mem_append.mp hb with oldB | newB
    · exact r.hostnames a oldA b oldB site same
    · cases mem_singleton.mp newB
      rw [hostname a oldA site] at same
      cases same
    · cases mem_singleton.mp newA
      have back := sameNoCase_symm same
      rw [hostname b oldB site.symm] at back
      cases back
    · rw [mem_singleton.mp newA, mem_singleton.mp newB]
  orders a ha b hb site same := by
    rcases mem_append.mp ha with oldA | newA <;> rcases mem_append.mp hb with oldB | newB
    · exact r.orders a oldA b oldB site same
    · cases mem_singleton.mp newB
      exact absurd same (order a oldA site)
    · cases mem_singleton.mp newA
      exact absurd same.symm (order b oldB site.symm)
    · rw [mem_singleton.mp newA, mem_singleton.mp newB]

variable {id : Id} {change : SiteHost → SiteHost} {fields : HostFields}

/-- One host changes, but neither its id nor its site nor its place in the order. -/
lemma setHost (keepId : ∀ h, (change h).id = h.id) (keepSite : ∀ h, (change h).siteId = h.siteId)
    (keepOrder : ∀ h, (change h).sortOrder = h.sortOrder)
    (parent : ∀ h ∈ s.hosts, h.id = id → ∀ p, (change h).parentHostId = some p →
      (∃ row ∈ s.hosts, row.id = p ∧ row.siteId = h.siteId) ∧ ¬ ReflTransGen s.Under p id)
    (hostname : ∀ h ∈ s.hosts, h.id = id → ∀ other ∈ s.hosts, other.id ≠ id →
      other.siteId = h.siteId → sameNoCase other.hostname (change h).hostname = false) :
    (s.setHost id change).Sound := by
  have stays : ∀ h : SiteHost, (if h.id = id then change h else h).id = h.id ∧
      (if h.id = id then change h else h).siteId = h.siteId ∧
      (if h.id = id then change h else h).sortOrder = h.sortOrder := by
    intro h
    split_ifs
    · exact ⟨keepId h, keepSite h, keepOrder h⟩
    · exact ⟨rfl, rfl, rfl⟩
  have moved : ∀ row ∈ s.hosts, (if row.id = id then change row else row) ∈
      (s.setHost id change).hosts := fun row home =>
    mem_map_of_mem (f := fun h : SiteHost => if h.id = id then change h else h) home
  constructor
  · rw [HostStore.setHost, map_map_key (fun h => (stays h).1)]
    exact r.ids
  · intro h' member
    obtain ⟨h, home, rfl⟩ := mem_map.mp member
    rw [(stays h).1]
    exact r.named h home
  · intro h' member p up
    obtain ⟨h, home, rfl⟩ := mem_map.mp member
    have found : ∃ row ∈ s.hosts, row.id = p ∧ row.siteId = h.siteId := by
      split_ifs at up with same
      · exact (parent h home same p up).1
      · exact r.parents h home p up
    obtain ⟨row, rowHome, here, site⟩ := found
    refine ⟨_, moved row rowHome, ?_, ?_⟩
    · rw [(stays row).1]
      exact here
    · rw [(stays row).2.1, (stays h).2.1]
      exact site
  · by_cases target : ∃ h ∈ s.hosts, h.id = id ∧ ∃ p, (change h).parentHostId = some p
    · obtain ⟨h, home, rfl, p, up⟩ := target
      refine r.acyclic.redirect h.id p ?_ (parent h home rfl p up).2
      rintro a b ⟨row', member, rfl, above⟩
      obtain ⟨row, rowHome, rfl⟩ := mem_map.mp member
      rw [(stays row).1]
      split_ifs at above with same
      · cases eq_of_id r.ids rowHome home same
        rw [up] at above
        cases above
        exact .inr ⟨rfl, rfl⟩
      · exact .inl ⟨same, row, rowHome, rfl, above⟩
    · refine r.acyclic.mono ?_
      rintro a b ⟨row', member, rfl, above⟩
      obtain ⟨row, rowHome, rfl⟩ := mem_map.mp member
      rw [(stays row).1]
      split_ifs at above with same
      · exact absurd ⟨row, rowHome, same, b, above⟩ target
      · exact .single ⟨row, rowHome, rfl, above⟩
  · intro a' ha b' hb site same
    obtain ⟨a, homeA, rfl⟩ := mem_map.mp ha
    obtain ⟨b, homeB, rfl⟩ := mem_map.mp hb
    rw [(stays a).2.1, (stays b).2.1] at site
    rw [(stays a).1, (stays b).1]
    by_cases isA : a.id = id
    · by_cases isB : b.id = id
      · rw [isA, isB]
      · rw [if_pos isA, if_neg isB] at same
        have back := sameNoCase_symm same
        rw [hostname a homeA isA b homeB isB site.symm] at back
        cases back
    · by_cases isB : b.id = id
      · rw [if_neg isA, if_pos isB, hostname b homeB isB a homeA isA site] at same
        cases same
      · rw [if_neg isA, if_neg isB] at same
        exact r.hostnames a homeA b homeB site same
  · intro a' ha b' hb site same
    obtain ⟨a, homeA, rfl⟩ := mem_map.mp ha
    obtain ⟨b, homeB, rfl⟩ := mem_map.mp hb
    rw [(stays a).2.1, (stays b).2.1] at site
    rw [(stays a).2.2, (stays b).2.2] at same
    rw [(stays a).1, (stays b).1]
    exact r.orders a homeA b homeB site same

lemma setHost_plain (keepId : ∀ h, (change h).id = h.id)
    (keepSite : ∀ h, (change h).siteId = h.siteId)
    (keepOrder : ∀ h, (change h).sortOrder = h.sortOrder)
    (keepParent : ∀ h, (change h).parentHostId = h.parentHostId)
    (keepHostname : ∀ h, (change h).hostname = h.hostname) : (s.setHost id change).Sound := by
  refine r.setHost keepId keepSite keepOrder ?_ ?_
  · rintro h home rfl p up
    rw [keepParent] at up
    refine ⟨r.parents h home p up, ?_⟩
    intro path
    exact r.acyclic h.id (TransGen.head' ⟨h, home, rfl, up⟩ path)
  · rintro h home rfl other otherHome different site
    rw [keepHostname, Bool.eq_false_iff]
    intro same
    exact different (r.hostnames other otherHome h home site same)

lemma removeHost {gone : SiteHost} (home : gone ∈ s.hosts) :
    { s with hosts := (s.hosts.map gone.leave).filter (·.id ≠ gone.id) }.Sound := by
  have stays : ∀ h, (gone.leave h).id = h.id ∧ (gone.leave h).siteId = h.siteId ∧
      (gone.leave h).hostname = h.hostname ∧ (gone.leave h).sortOrder = h.sortOrder := by
    intro h
    rw [SiteHost.leave]
    split_ifs <;> exact ⟨rfl, rfl, rfl, rfl⟩
  have origin : ∀ h' ∈ (s.hosts.map gone.leave).filter (·.id ≠ gone.id),
      ∃ h ∈ s.hosts, h.id ≠ gone.id ∧ gone.leave h = h' := by
    intro h' member
    obtain ⟨moved, other⟩ := mem_filter.mp member
    obtain ⟨h, old, rfl⟩ := mem_map.mp moved
    rw [(stays h).1] at other
    exact ⟨h, old, of_decide_eq_true other, rfl⟩
  have kept : ∀ h ∈ s.hosts, h.id ≠ gone.id →
      gone.leave h ∈ (s.hosts.map gone.leave).filter (·.id ≠ gone.id) := by
    intro h old other
    refine mem_filter.mpr ⟨mem_map_of_mem old, decide_eq_true ?_⟩
    rw [(stays h).1]
    exact other
  -- Where a remaining host points: to its parent, or past the deleted one.
  have links : ∀ h ∈ s.hosts, ∀ p, (gone.leave h).parentHostId = some p →
      (h.parentHostId = some p ∧ p ≠ gone.id) ∨
        (h.parentHostId = some gone.id ∧ gone.parentHostId = some p) := by
    intro h old p up
    rw [SiteHost.leave] at up
    split_ifs at up with below
    · exact .inr ⟨below, up⟩
    · exact .inl ⟨up, fun same => below (same ▸ up)⟩
  constructor
  · refine Nodup.sublist (filter_sublist.map SiteHost.id) ?_
    rw [map_map_key (fun h => (stays h).1)]
    exact r.ids
  · intro h' member
    obtain ⟨h, old, -, rfl⟩ := origin h' member
    rw [(stays h).1]
    exact r.named h old
  · intro h' member p up
    obtain ⟨h, old, -, rfl⟩ := origin h' member
    have found : ∃ row ∈ s.hosts, row.id = p ∧ row.siteId = h.siteId ∧ row.id ≠ gone.id := by
      rcases links h old p up with ⟨above, other⟩ | ⟨below, above⟩
      · obtain ⟨row, rowHome, here, site⟩ := r.parents h old p above
        exact ⟨row, rowHome, here, site, here ▸ other⟩
      · obtain ⟨middle, middleHome, same, site⟩ := r.parents h old gone.id below
        cases eq_of_id r.ids middleHome home same
        obtain ⟨row, rowHome, here, site'⟩ := r.parents gone home p above
        exact ⟨row, rowHome, here, site'.trans site, here ▸ r.parent_ne home above⟩
    obtain ⟨row, rowHome, here, site, other⟩ := found
    refine ⟨gone.leave row, kept row rowHome other, ?_, ?_⟩
    · rw [(stays row).1]
      exact here
    · rw [(stays row).2.1, (stays h).2.1]
      exact site
  · refine r.acyclic.splice gone.id ?_
    rintro a b ⟨h', member, rfl, up⟩
    obtain ⟨h, old, -, rfl⟩ := origin h' member
    rw [(stays h).1]
    rcases links h old b up with ⟨above, -⟩ | ⟨below, above⟩
    · exact .inl ⟨h, old, rfl, above⟩
    · exact .inr ⟨⟨h, old, rfl, below⟩, ⟨gone, home, rfl, above⟩⟩
  · intro a' ha b' hb site same
    obtain ⟨a, homeA, -, rfl⟩ := origin a' ha
    obtain ⟨b, homeB, -, rfl⟩ := origin b' hb
    rw [(stays a).2.1, (stays b).2.1] at site
    rw [(stays a).2.2.1, (stays b).2.2.1] at same
    rw [(stays a).1, (stays b).1]
    exact r.hostnames a homeA b homeB site same
  · intro a' ha b' hb site same
    obtain ⟨a, homeA, -, rfl⟩ := origin a' ha
    obtain ⟨b, homeB, -, rfl⟩ := origin b' hb
    rw [(stays a).2.1, (stays b).2.1] at site
    rw [(stays a).2.2.2, (stays b).2.2.2] at same
    rw [(stays a).1, (stays b).1]
    exact r.orders a homeA b homeB site same

lemma createHost {siteId : Id} (name : id ≠ [])
    (h : createHost s id siteId fields = .ok (row, s')) : s'.Sound := by
  obtain ⟨hostname, -, h⟩ := bind_eq_ok.mp h
  obtain ⟨free, h⟩ := reject_bind_ok.mp h
  obtain ⟨parent, checked, h⟩ := bind_eq_ok.mp h
  obtain ⟨s₁, inserted, h⟩ := bind_eq_ok.mp h
  obtain ⟨_, -, done⟩ := bind_eq_ok.mp h
  cases done
  obtain ⟨fresh, rfl⟩ := insertHost_eq_ok inserted
  refine r.addHost fresh name ?_ ?_ ?_
  · intro p up
    exact (validateParent_eq_ok r.ids checked up).1
  · intro other home site
    exact free_of_not_taken free home (r.named other home) site
  · intro other home site
    exact Int.ne_of_lt (lt_nextHostSort home site)

lemma updateHost {connectionIds : List Id}
    (h : updateHost s id fields connectionIds = .ok (row, s')) : s'.Sound := by
  obtain ⟨existing, found, h⟩ := bind_eq_ok.mp h
  obtain ⟨hostname, -, h⟩ := bind_eq_ok.mp h
  obtain ⟨free, h⟩ := reject_bind_ok.mp h
  obtain ⟨parent, checked, h⟩ := bind_eq_ok.mp h
  obtain ⟨_, -, done⟩ := bind_eq_ok.mp h
  cases done
  obtain ⟨home, rfl⟩ := getHost_eq_ok found
  refine r.setHost (fun _ => rfl) (fun _ => rfl) (fun _ => rfl) ?_ ?_
  · intro row rowHome same p up
    cases eq_of_id r.ids rowHome home same
    exact validateParent_eq_ok r.ids checked up
  · intro row rowHome same other otherHome different site
    cases eq_of_id r.ids rowHome home same
    exact free_of_not_taken free otherHome different site

lemma setHostScan {scan : Option HostScan} (h : setHostScan s id scan = .ok (row, s')) :
    s'.Sound := by
  obtain ⟨-, h⟩ := reject_bind_ok.mp h
  obtain ⟨_, -, done⟩ := bind_eq_ok.mp h
  cases done
  exact r.setHost_plain (fun _ => rfl) (fun _ => rfl) (fun _ => rfl) (fun _ => rfl) (fun _ => rfl)

lemma setHostExecution {execution : HostExecutionConfig}
    (h : setHostExecution s id execution = .ok (row, s')) : s'.Sound := by
  obtain ⟨-, h⟩ := reject_bind_ok.mp h
  obtain ⟨-, h⟩ := reject_bind_ok.mp h
  obtain ⟨_, -, done⟩ := bind_eq_ok.mp h
  cases done
  exact r.setHost_plain (fun _ => rfl) (fun _ => rfl) (fun _ => rfl) (fun _ => rfl) (fun _ => rfl)

lemma deleteHost (h : deleteHost s id = .ok s') : s'.Sound := by
  obtain ⟨existing, found, done⟩ := bind_eq_ok.mp h
  cases done
  obtain ⟨home, rfl⟩ := getHost_eq_ok found
  exact r.removeHost home

end HostStore.Sound

lemma sound_empty (sites : List Id) : (HostStore.empty sites).Sound where
  ids := .nil
  named h member := by cases member
  parents h member := by cases member
  acyclic := acyclic_of_empty (fun a b ⟨h, member, _⟩ => by cases member)
  hostnames a member := by cases member
  orders a member := by cases member

end ItOps
