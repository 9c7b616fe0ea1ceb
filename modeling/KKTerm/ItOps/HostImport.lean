import KKTerm.ItOps.HostInvariant

/-!
# Imports into the host inventory

Both imports write rows without the check of a single call: their own keys imply
that hostnames stay apart. A connection is bound to the latest host of its
endpoint, and a second import of the same connections finds everything in place.
-/

namespace ItOps

open Fallible HostStore List Text

variable (c : Char) (text : List Char) {given hostname : List Char}

lemma isWhitespace_toLower : isWhitespace c.toLower = isWhitespace c := by
  rcases toLower_cases c with same | ⟨low, high, moved⟩
  · rw [same]
  · have upper : isWhitespace c = false := by
      simp [isWhitespace]
      omega
    have lower : isWhitespace c.toLower = false := by
      simp [isWhitespace, moved]
      omega
    rw [upper, lower]

lemma toLower_eq_dot : decide (c.toLower = '.') = decide (c = '.') := by
  rcases toLower_cases c with same | ⟨low, high, moved⟩
  · rw [same]
  · have upper : c ≠ '.' := by
      rintro rfl
      revert low
      decide
    have lower : c.toLower ≠ '.' := by
      intro dot
      rw [dot] at moved
      have value : '.'.toNat = 46 := rfl
      omega
    rw [decide_eq_false upper, decide_eq_false lower]

lemma dropWhile_toLower {p : Char → Bool} (h : ∀ c, p c.toLower = p c) (text : List Char) :
    (text.map Char.toLower).dropWhile p = (text.dropWhile p).map Char.toLower := by
  have same : p ∘ Char.toLower = p := funext h
  rw [dropWhile_map, same]

lemma trim_toLower : trim (text.map Char.toLower) = (trim text).map Char.toLower := by
  simp only [trim, trimStart, trimEnd, dropWhile_toLower isWhitespace_toLower, ← map_reverse]

lemma trimEndDots_toLower :
    trimEndDots (text.map Char.toLower) = (trimEndDots text).map Char.toLower := by
  have dots := dropWhile_toLower (p := fun c => decide (c = '.')) toLower_eq_dot text.reverse
  rw [trimEndDots, trimEndDots, ← map_reverse, dots, map_reverse]

/-- Hostnames that differ in case only have one endpoint. -/
lemma normalizedEndpoint_congr {a b : List Char} (h : sameNoCase a b = true) :
    normalizedEndpoint a = normalizedEndpoint b := by
  rw [normalizedEndpoint, normalizedEndpoint, ← trimEndDots_toLower, ← trimEndDots_toLower,
    ← trim_toLower, ← trim_toLower, sameNoCase_iff.mp h]

lemma validateHostname_eq_ok (h : validateHostname given = .ok hostname) :
    hostname = trim given := by
  obtain ⟨-, h⟩ := reject_bind_ok.mp h
  obtain ⟨-, done⟩ := reject_bind_ok.mp h
  cases done
  rfl

lemma normalizedEndpoint_validated (h : validateHostname given = .ok hostname) :
    normalizedEndpoint hostname = normalizedEndpoint given := by
  rw [validateHostname_eq_ok h, normalizedEndpoint, normalizedEndpoint, trim_trim]

section Insert

variable {newIds : Nat → Id} {siteId : Id} {i i' : HostImport}

/-- Every host of the site comes before the next row. -/
def HostImport.Ahead (i : HostImport) (siteId : Id) : Prop :=
  ∀ h ∈ i.store.hosts, h.siteId = siteId → h.sortOrder < i.nextSort

lemma ahead_start (s : HostStore) (siteId : Id) : (HostImport.start s siteId).Ahead siteId :=
  fun _ member site => lt_nextHostSort member site

def HostImport.row (i : HostImport) (newIds : Nat → Id) (siteId : Id) (hostname : List Char)
    (connectionIds : List Id) : SiteHost :=
  { newRow (newIds i.used) siteId hostname i.nextSort with connectionIds }

variable {hostname : List Char} {connectionIds : List Id}

lemma insert_eq_ok (h : i.insert newIds siteId hostname connectionIds = .ok i') :
    newIds i.used ∉ i.store.hosts.map SiteHost.id ∧
      i'.store = { i.store with
        hosts := i.store.hosts ++ [i.row newIds siteId hostname connectionIds] } ∧
      i'.nextSort = i.nextSort + 1 := by
  obtain ⟨store, inserted, done⟩ := bind_eq_ok.mp h
  cases done
  obtain ⟨fresh, rfl⟩ := insertHost_eq_ok inserted
  exact ⟨fresh, rfl, rfl⟩

lemma ahead_insert (ahead : i.Ahead siteId)
    (h : i.insert newIds siteId hostname connectionIds = .ok i') : i'.Ahead siteId := by
  obtain ⟨-, store, next⟩ := insert_eq_ok h
  intro row member site
  rw [store] at member
  rw [next]
  rcases mem_append.mp member with old | new
  · have before := ahead row old site
    omega
  · cases mem_singleton.mp new
    exact Int.lt_succ i.nextSort

lemma sound_insert (sound : i.store.Sound) (ahead : i.Ahead siteId) (name : newIds i.used ≠ [])
    (free : ∀ h ∈ i.store.hosts, h.siteId = siteId → sameNoCase h.hostname hostname = false)
    (h : i.insert newIds siteId hostname connectionIds = .ok i') : i'.store.Sound := by
  obtain ⟨fresh, store, -⟩ := insert_eq_ok h
  rw [store]
  refine sound.addHost fresh name ?_ free ?_
  · intro p up
    cases up
  · intro other home site
    exact Int.ne_of_lt (ahead other home site)

end Insert

section Hostnames

variable {newIds : Nat → Id} {siteId : Id} {s s' : HostStore}

/-- The set of hostnames seen covers the site. -/
structure SeenAll (siteId : Id) (state : HostImport × List (List Char)) : Prop where
  sound : state.1.store.Sound
  ahead : state.1.Ahead siteId
  seen : ∀ h ∈ state.1.store.hosts, h.siteId = siteId → h.hostname.map Char.toLower ∈ state.2

lemma importHostname_keeps (names : ∀ n, newIds n ≠ []) {state : HostImport × List (List Char)}
    {raw : List Char} {state' : HostImport × List (List Char)}
    (h : importHostname newIds siteId state raw = .ok state') (r : SeenAll siteId state) :
    SeenAll siteId state' := by
  rw [importHostname] at h
  split at h
  next =>
    cases h
    exact ⟨r.sound, r.ahead, r.seen⟩
  next hostname _ =>
    split_ifs at h with known
    · cases h
      exact ⟨r.sound, r.ahead, r.seen⟩
    · obtain ⟨i, inserted, done⟩ := bind_eq_ok.mp h
      cases done
      have free : ∀ other ∈ state.1.store.hosts, other.siteId = siteId →
          sameNoCase other.hostname hostname = false := by
        intro other home site
        rw [Bool.eq_false_iff]
        intro same
        exact known (sameNoCase_iff.mp same ▸ r.seen other home site)
      refine ⟨sound_insert r.sound r.ahead (names _) free inserted, ahead_insert r.ahead inserted, ?_⟩
      intro other member site
      rw [(insert_eq_ok inserted).2.1] at member
      rcases mem_append.mp member with old | new
      · exact mem_cons_of_mem _ (r.seen other old site)
      · cases mem_singleton.mp new
        exact mem_cons_self

lemma HostStore.Sound.importHosts (r : s.Sound) {hostnames : List (List Char)}
    (names : ∀ n, newIds n ≠ []) {result : HostImportResult}
    (h : importHosts s siteId hostnames newIds = .ok (result, s')) : s'.Sound := by
  obtain ⟨-, h⟩ := reject_bind_ok.mp h
  obtain ⟨state, ran, h⟩ := bind_eq_ok.mp h
  obtain ⟨_, -, done⟩ := bind_eq_ok.mp h
  cases done
  have start : SeenAll siteId (HostImport.start s siteId,
      (s.listHosts siteId).map (fun h => h.hostname.map Char.toLower)) := by
    refine ⟨r, ahead_start s siteId, ?_⟩
    intro other home site
    refine mem_map.mpr ⟨other, mem_mergeSort.mpr ?_, rfl⟩
    exact mem_filter.mpr ⟨home, decide_eq_true site⟩
  exact (foldlM_invariant (fun _ _ _ _ round => importHostname_keeps names round) ran start).sound

end Hostnames

/-- A connection that an import does not skip. -/
def Importable (connection : ImportConnectionHost) : Prop :=
  (∃ hostname, validateHostname connection.hostname = .ok hostname) ∧
    normalizedEndpoint connection.hostname ≠ [] ∧ Text.trim connection.id ≠ []

structure Grouped (connections : List ImportConnectionHost) (groups : List EndpointGroup) :
    Prop where
  keys : (groups.map EndpointGroup.key).Nodup
  hostnames : ∀ g ∈ groups, g.key = normalizedEndpoint g.hostname
  covered : ∀ c ∈ connections, Importable c →
    ∃ g ∈ groups, g.key = normalizedEndpoint c.hostname ∧ Text.trim c.id ∈ g.connectionIds

lemma bind_facts (group : EndpointGroup) (id : Id) :
    (group.bind id).key = group.key ∧ (group.bind id).hostname = group.hostname ∧
      id ∈ (group.bind id).connectionIds ∧
      ∀ other ∈ group.connectionIds, other ∈ (group.bind id).connectionIds := by
  rw [EndpointGroup.bind]
  split_ifs with bound
  · exact ⟨rfl, rfl, bound, fun _ member => member⟩
  · exact ⟨rfl, rfl, mem_append_right _ mem_cons_self, fun _ member => mem_append_left _ member⟩

lemma groupConnection_keeps {connections : List ImportConnectionHost}
    {state : List EndpointGroup × Nat} (r : Grouped connections state.1)
    (connection : ImportConnectionHost) :
    Grouped (connections ++ [connection]) (groupConnection state connection).1 := by
  have skipped : ¬ Importable connection → Grouped (connections ++ [connection]) state.1 := by
    intro off
    refine ⟨r.keys, r.hostnames, ?_⟩
    intro c member importable
    rcases mem_append.mp member with old | new
    · exact r.covered c old importable
    · cases mem_singleton.mp new
      exact absurd importable off
  rw [groupConnection]
  split
  next e invalid =>
    refine skipped ?_
    rintro ⟨⟨hostname, valid⟩, -⟩
    rw [invalid] at valid
    cases valid
  next hostname valid =>
    have endpoint := normalizedEndpoint_validated valid
    dsimp only
    split_ifs with blank present
    · refine skipped ?_
      rintro ⟨-, key, id⟩
      rcases blank with noKey | noId
      · exact key (endpoint ▸ noKey)
      · exact id noId
    · have stays : ∀ g : EndpointGroup,
          (if g.key = normalizedEndpoint hostname then g.bind (trim connection.id)
            else g).key = g.key ∧
          (if g.key = normalizedEndpoint hostname then g.bind (trim connection.id)
            else g).hostname = g.hostname ∧
          ∀ id ∈ g.connectionIds, id ∈ (if g.key = normalizedEndpoint hostname then
            g.bind (trim connection.id) else g).connectionIds := by
        intro g
        obtain ⟨key, name, -, more⟩ := bind_facts g (trim connection.id)
        split_ifs
        · exact ⟨key, name, more⟩
        · exact ⟨rfl, rfl, fun _ member => member⟩
      constructor
      · rw [map_map]
        have same : state.1.map (EndpointGroup.key ∘ fun g =>
            if g.key = normalizedEndpoint hostname then g.bind (trim connection.id)
            else g) = state.1.map EndpointGroup.key :=
          map_congr_left (fun g _ => (stays g).1)
        rw [same]
        exact r.keys
      · intro g' member
        obtain ⟨g, home, rfl⟩ := mem_map.mp member
        rw [(stays g).1, (stays g).2.1]
        exact r.hostnames g home
      · intro c member importable
        rcases mem_append.mp member with old | new
        · obtain ⟨g, home, key, bound⟩ := r.covered c old importable
          refine ⟨_, mem_map_of_mem home, ?_, (stays g).2.2 _ bound⟩
          rw [(stays g).1]
          exact key
        · cases mem_singleton.mp new
          obtain ⟨g, home, same⟩ := any_eq_true.mp present
          have same : g.key = normalizedEndpoint hostname := of_decide_eq_true same
          refine ⟨_, mem_map_of_mem home, ?_, ?_⟩
          · rw [(stays g).1, same, endpoint]
          · rw [if_pos same]
            exact (bind_facts g _).2.2.1
    · have absent : ∀ g ∈ state.1, g.key ≠ normalizedEndpoint hostname := by
        intro g home same
        exact present (any_eq_true.mpr ⟨g, home, decide_eq_true same⟩)
      constructor
      · rw [map_append, nodup_append]
        refine ⟨r.keys, nodup_singleton _, ?_⟩
        intro key old new member same
        obtain ⟨g, home, rfl⟩ := mem_map.mp old
        rw [map_singleton, mem_singleton] at member
        exact absent g home (same.trans member)
      · intro g member
        rcases mem_append.mp member with old | new
        · exact r.hostnames g old
        · cases mem_singleton.mp new
          rfl
      · intro c member importable
        rcases mem_append.mp member with old | new
        · obtain ⟨g, home, key, bound⟩ := r.covered c old importable
          exact ⟨g, mem_append_left _ home, key, bound⟩
        · cases mem_singleton.mp new
          exact ⟨_, mem_append_right _ mem_cons_self, endpoint, mem_cons_self⟩

lemma grouped_foldl (connections : List ImportConnectionHost) :
    Grouped connections (connections.foldl groupConnection ([], 0)).1 := by
  induction connections using reverseRecOn with
  | nil =>
    constructor
    · exact .nil
    · intro g member
      cases member
    · intro c member
      cases member
  | append_singleton connections connection ih =>
    rw [foldl_append]
    exact groupConnection_keeps ih connection

variable {key : List Char} {hosts : List SiteHost}

lemma lookup_filter {known : List (List Char × SiteHost)} {other : List Char} (h : other ≠ key) :
    (known.filter (fun entry => entry.1 ≠ key)).lookup other = known.lookup other := by
  induction known with
  | nil => rfl
  | cons entry known ih =>
    by_cases gone : entry.1 = key
    · have skip : (other == entry.1) = false := by
        rw [beq_eq_false_iff_ne, gone]
        exact h
      rw [filter_cons_of_neg (by simp [gone]), ih, lookup_cons, skip]
    · rw [filter_cons_of_pos (by simp [gone]), lookup_cons, lookup_cons, ih]

lemma byEndpoint_concat (hosts : List SiteHost) (h : SiteHost) (key : List Char) :
    (byEndpoint (hosts ++ [h])).lookup key =
      if key = normalizedEndpoint h.hostname then some h else (byEndpoint hosts).lookup key := by
  rw [byEndpoint, foldl_append, foldl_cons, foldl_nil, lookup_cons]
  split_ifs with same
  · rw [beq_iff_eq.mpr same]
  · rw [beq_eq_false_iff_ne.mpr same]
    exact lookup_filter same

lemma lookup_byEndpoint_none (h : (byEndpoint hosts).lookup key = none) :
    ∀ other ∈ hosts, normalizedEndpoint other.hostname ≠ key := by
  induction hosts using reverseRecOn with
  | nil =>
    intro other member
    cases member
  | append_singleton hosts last ih =>
    rw [byEndpoint_concat] at h
    split_ifs at h with same
    intro other member
    rcases mem_append.mp member with old | new
    · exact ih h other old
    · cases mem_singleton.mp new
      exact fun equal => same equal.symm

/-- The host found for an endpoint is the last one of it in the list. -/
lemma lookup_byEndpoint_some {h : SiteHost} (found : (byEndpoint hosts).lookup key = some h)
    (sorted : hosts.Pairwise (fun a b => a.sortOrder ≤ b.sortOrder)) :
    h ∈ hosts ∧ normalizedEndpoint h.hostname = key ∧
      ∀ other ∈ hosts, normalizedEndpoint other.hostname = key → other.sortOrder ≤ h.sortOrder := by
  induction hosts using reverseRecOn with
  | nil => cases found
  | append_singleton hosts last ih =>
    obtain ⟨before, -, order⟩ := pairwise_append.mp sorted
    rw [byEndpoint_concat] at found
    split_ifs at found with same
    · cases found
      refine ⟨mem_append_right _ mem_cons_self, same.symm, ?_⟩
      intro other member _
      rcases mem_append.mp member with old | new
      · exact order other old h mem_cons_self
      · cases mem_singleton.mp new
        exact Int.le_refl _
    · obtain ⟨home, endpoint, latest⟩ := ih found before
      refine ⟨mem_append_left _ home, endpoint, ?_⟩
      intro other member equal
      rcases mem_append.mp member with old | new
      · exact latest other old equal
      · cases mem_singleton.mp new
        exact absurd equal.symm same

/-- The latest host of an endpoint in a site. -/
structure Latest (s : HostStore) (siteId : Id) (key : List Char) (h : SiteHost) : Prop where
  home : h ∈ s.hosts
  site : h.siteId = siteId
  endpoint : normalizedEndpoint h.hostname = key
  last : ∀ other ∈ s.hosts, other.siteId = siteId → normalizedEndpoint other.hostname = key →
    other.sortOrder ≤ h.sortOrder

section Lookup

variable {s : HostStore} {siteId : Id} {key : List Char}

variable {h : SiteHost}

lemma listHosts_sorted (s : HostStore) (siteId : Id) :
    (s.listHosts siteId).Pairwise (fun a b => a.sortOrder ≤ b.sortOrder) := by
  have sorted : (s.listHosts siteId).Pairwise
      (fun a b => decide (a.sortOrder ≤ b.sortOrder) = true) := by
    refine pairwise_mergeSort ?_ ?_ _
    · intro a b c ab bc
      exact decide_eq_true (Int.le_trans (of_decide_eq_true ab) (of_decide_eq_true bc))
    · intro a b
      rw [Bool.or_eq_true, decide_eq_true_iff, decide_eq_true_iff]
      exact Int.le_total _ _
  exact sorted.imp (fun h => of_decide_eq_true h)

lemma latest_of_lookup (found : (byEndpoint (s.listHosts siteId)).lookup key = some h) :
    Latest s siteId key h := by
  obtain ⟨listed, endpoint, last⟩ := lookup_byEndpoint_some found (listHosts_sorted s siteId)
  obtain ⟨home, site⟩ := mem_listHosts.mp listed
  exact ⟨home, site, endpoint, fun other otherHome otherSite =>
    last other (mem_listHosts.mpr ⟨otherHome, otherSite⟩)⟩

lemma Latest.unique (sound : s.Sound) {a b : SiteHost} (ha : Latest s siteId key a)
    (hb : Latest s siteId key b) : a = b := by
  have order : a.sortOrder = b.sortOrder :=
    Int.le_antisymm (hb.last a ha.home ha.site ha.endpoint) (ha.last b hb.home hb.site hb.endpoint)
  exact eq_of_id sound.ids ha.home hb.home
    (sound.orders a ha.home b hb.home (ha.site.trans hb.site.symm) order)

lemma lookup_of_latest (sound : s.Sound) (latest : Latest s siteId key h) :
    (byEndpoint (s.listHosts siteId)).lookup key = some h := by
  cases found : (byEndpoint (s.listHosts siteId)).lookup key with
  | none =>
    have listed := mem_listHosts.mpr ⟨latest.home, latest.site⟩
    exact absurd latest.endpoint (lookup_byEndpoint_none found h listed)
  | some other => rw [latest.unique sound (latest_of_lookup found)]

lemma Latest.add {row : SiteHost} (latest : Latest s siteId key h)
    (other : normalizedEndpoint row.hostname ≠ key) :
    Latest { s with hosts := s.hosts ++ [row] } siteId key h where
  home := mem_append_left _ latest.home
  site := latest.site
  endpoint := latest.endpoint
  last := by
    intro h' member site endpoint
    rcases mem_append.mp member with old | new
    · exact latest.last h' old site endpoint
    · cases mem_singleton.mp new
      exact absurd endpoint other

lemma Latest.bind {id : Id} {connectionIds : List Id} (latest : Latest s siteId key h) :
    Latest (s.setHost id (fun h => { h with connectionIds })) siteId key
      (if h.id = id then { h with connectionIds } else h) where
  home := mem_map_of_mem
    (f := fun h : SiteHost => if h.id = id then { h with connectionIds } else h) latest.home
  site := by
    split_ifs
    · exact latest.site
    · exact latest.site
  endpoint := by
    split_ifs
    · exact latest.endpoint
    · exact latest.endpoint
  last := by
    intro row member site endpoint
    obtain ⟨row, home, rfl⟩ := mem_map.mp member
    have before : row.sortOrder ≤ h.sortOrder := by
      refine latest.last row home ?_ ?_
      · split_ifs at site
        · exact site
        · exact site
      · split_ifs at endpoint
        · exact endpoint
        · exact endpoint
    split_ifs <;> exact before

end Lookup

variable {connectionIds new : List Id}

lemma mem_addMissing {id : Id} :
    id ∈ addMissing connectionIds new ↔ id ∈ connectionIds ∨ id ∈ new := by
  induction new generalizing connectionIds with
  | nil => simp [addMissing]
  | cons first new ih =>
    have step : addMissing connectionIds (first :: new) =
        addMissing (if first ∈ connectionIds then connectionIds else connectionIds ++ [first]) new :=
      rfl
    rw [step, ih, mem_cons]
    split_ifs with known
    · constructor
      · rintro (old | later)
        · exact .inl old
        · exact .inr (.inr later)
      · rintro (old | rfl | later)
        · exact .inl old
        · exact .inl known
        · exact .inr later
    · rw [mem_append, mem_singleton, or_assoc]

lemma addMissing_of_subset (h : ∀ id ∈ new, id ∈ connectionIds) :
    addMissing connectionIds new = connectionIds := by
  induction new with
  | nil => rfl
  | cons first new ih =>
    have step : addMissing connectionIds (first :: new) =
        addMissing (if first ∈ connectionIds then connectionIds else connectionIds ++ [first]) new :=
      rfl
    rw [step, if_pos (h first mem_cons_self)]
    exact ih (fun id member => h id (mem_cons_of_mem first member))

lemma subset_of_length_eq (h : (addMissing connectionIds new).length = connectionIds.length) :
    ∀ id ∈ new, id ∈ connectionIds := by
  have grows : ∀ (new connectionIds : List Id),
      connectionIds.length ≤ (addMissing connectionIds new).length := by
    intro new
    induction new with
    | nil => exact fun _ => Nat.le_refl _
    | cons first new ih =>
      intro connectionIds
      refine Nat.le_trans ?_ (ih (if first ∈ connectionIds then connectionIds
        else connectionIds ++ [first]))
      split_ifs
      · omega
      · rw [length_append]
        omega
  induction new generalizing connectionIds with
  | nil =>
    intro id member
    cases member
  | cons first new ih =>
    have step : addMissing connectionIds (first :: new) =
        addMissing (if first ∈ connectionIds then connectionIds else connectionIds ++ [first]) new :=
      rfl
    rw [step] at h
    by_cases known : first ∈ connectionIds
    · rw [if_pos known] at h
      intro id member
      rcases mem_cons.mp member with rfl | later
      · exact known
      · exact ih h id later
    · rw [if_neg known] at h
      have longer := grows new (connectionIds ++ [first])
      rw [h, length_append, length_singleton] at longer
      omega

section Connections

variable {newIds : Nat → Id} {siteId : Id} {s s' : HostStore}

/-- The connections of a group are bound to the latest host of its endpoint. -/
def Bound (s : HostStore) (siteId : Id) (group : EndpointGroup) : Prop :=
  ∃ h, Latest s siteId group.key h ∧ ∀ id ∈ group.connectionIds, id ∈ h.connectionIds

/-- Some groups are bound, and the table of known hosts is right about the others. -/
structure Progress (siteId : Id) (bound rest : List EndpointGroup)
    (state : HostImport × List (List Char × SiteHost)) : Prop where
  sound : state.1.store.Sound
  ahead : state.1.Ahead siteId
  done : ∀ g ∈ bound, Bound state.1.store siteId g
  known : ∀ g ∈ rest, ∀ h, state.2.lookup g.key = some h → Latest state.1.store siteId g.key h
  unknown : ∀ g ∈ rest, state.2.lookup g.key = none →
    ∀ h ∈ state.1.store.hosts, h.siteId = siteId → normalizedEndpoint h.hostname ≠ g.key

variable {bound rest : List EndpointGroup} {state state' : HostImport × List (List Char × SiteHost)}

lemma importGroup_keeps (names : ∀ n, newIds n ≠ []) {group : EndpointGroup}
    (hostname : group.key = normalizedEndpoint group.hostname)
    (keys : ((bound ++ group :: rest).map EndpointGroup.key).Nodup)
    (h : importGroup newIds siteId state group = .ok state')
    (r : Progress siteId bound (group :: rest) state) :
    Progress siteId (bound ++ [group]) rest state' := by
  rw [map_append, map_cons] at keys
  obtain ⟨-, later, apart⟩ := nodup_append.mp keys
  have before : ∀ g ∈ bound, group.key ≠ g.key := fun g member same =>
    apart g.key (mem_map_of_mem member) group.key mem_cons_self same.symm
  have after : ∀ g ∈ rest, g.key ≠ group.key := fun g member same =>
    (nodup_cons.mp later).1 (same ▸ mem_map_of_mem member)
  rw [importGroup] at h
  split at h
  next host found =>
    have latest := r.known group mem_cons_self host found
    dsimp only at h
    split_ifs at h with full
    · cases h
      have already := subset_of_length_eq full
      refine ⟨r.sound, r.ahead, ?_, ?_, ?_⟩
      · intro g member
        rcases mem_append.mp member with old | new
        · exact r.done g old
        · cases mem_singleton.mp new
          exact ⟨host, latest, already⟩
      · intro g member h found
        rw [lookup_filter (after g member)] at found
        exact r.known g (mem_cons_of_mem group member) h found
      · intro g member found
        rw [lookup_filter (after g member)] at found
        exact r.unknown g (mem_cons_of_mem group member) found
    · cases h
      refine ⟨?_, ?_, ?_, ?_, ?_⟩
      · exact r.sound.setHost_plain (fun _ => rfl) (fun _ => rfl) (fun _ => rfl) (fun _ => rfl)
          (fun _ => rfl)
      · intro row member site
        obtain ⟨row, home, rfl⟩ := mem_map.mp member
        have order : row.siteId = siteId → row.sortOrder < state.1.nextSort := r.ahead row home
        split_ifs at site ⊢
        · exact order site
        · exact order site
      · intro g member
        rcases mem_append.mp member with old | new
        · obtain ⟨h, theirs, all⟩ := r.done g old
          refine ⟨_, theirs.bind, ?_⟩
          have other : h.id ≠ host.id := by
            intro same
            cases eq_of_id r.sound.ids theirs.home latest.home same
            exact before g old (latest.endpoint.symm.trans theirs.endpoint)
          rw [if_neg other]
          exact all
        · cases mem_singleton.mp new
          refine ⟨_, latest.bind, ?_⟩
          rw [if_pos rfl]
          exact fun id member => mem_addMissing.mpr (.inr member)
      · intro g member h found
        rw [lookup_filter (after g member)] at found
        have theirs := r.known g (mem_cons_of_mem group member) h found
        have other : h.id ≠ host.id := by
          intro same
          cases eq_of_id r.sound.ids theirs.home latest.home same
          exact after g member (theirs.endpoint.symm.trans latest.endpoint)
        have moved : Latest (state.1.store.setHost host.id (fun h =>
              { h with connectionIds := addMissing host.connectionIds group.connectionIds }))
            siteId g.key (if h.id = host.id then
              { h with connectionIds := addMissing host.connectionIds group.connectionIds }
            else h) := theirs.bind
        rwa [if_neg other] at moved
      · intro g member found row rowMember site
        rw [lookup_filter (after g member)] at found
        obtain ⟨row, home, rfl⟩ := mem_map.mp rowMember
        have absent := r.unknown g (mem_cons_of_mem group member) found row home
        split_ifs at site ⊢
        · exact absent site
        · exact absent site
  next found =>
    obtain ⟨i, inserted, done⟩ := bind_eq_ok.mp h
    cases done
    have absent := r.unknown group mem_cons_self found
    have store := (insert_eq_ok inserted).2.1
    have free : ∀ other ∈ state.1.store.hosts, other.siteId = siteId →
        sameNoCase other.hostname group.hostname = false := by
      intro other home site
      rw [Bool.eq_false_iff]
      intro same
      exact absent other home site ((normalizedEndpoint_congr same).trans hostname.symm)
    refine ⟨sound_insert r.sound r.ahead (names _) free inserted, ahead_insert r.ahead inserted,
      ?_, ?_, ?_⟩
    · intro g member
      rw [store]
      rcases mem_append.mp member with old | new
      · obtain ⟨h, theirs, all⟩ := r.done g old
        refine ⟨h, theirs.add ?_, all⟩
        exact fun same => before g old (hostname.trans same)
      · cases mem_singleton.mp new
        refine ⟨state.1.row newIds siteId group.hostname group.connectionIds, ?_, fun _ member => member⟩
        refine ⟨mem_append_right _ mem_cons_self, rfl, hostname.symm, ?_⟩
        intro other member site endpoint
        rcases mem_append.mp member with old | new
        · exact absurd endpoint (absent other old site)
        · cases mem_singleton.mp new
          exact Int.le_refl _
    · intro g member h found
      rw [store]
      refine (r.known g (mem_cons_of_mem group member) h found).add ?_
      exact fun same => after g member (same.symm.trans hostname.symm)
    · intro g member found row rowMember site
      rw [store] at rowMember
      rcases mem_append.mp rowMember with old | new
      · exact r.unknown g (mem_cons_of_mem group member) found row old site
      · cases mem_singleton.mp new
        exact fun same => after g member (same.symm.trans hostname.symm)

lemma importGroups_keep (names : ∀ n, newIds n ≠ [])
    (hostnames : ∀ g ∈ rest, g.key = normalizedEndpoint g.hostname)
    (keys : ((bound ++ rest).map EndpointGroup.key).Nodup)
    (h : rest.foldlM (importGroup newIds siteId) state = .ok state')
    (r : Progress siteId bound rest state) : Progress siteId (bound ++ rest) [] state' := by
  induction rest generalizing bound state with
  | nil =>
    cases h
    rwa [append_nil]
  | cons group rest ih =>
    rw [foldlM_cons] at h
    obtain ⟨state₁, first, h⟩ := bind_eq_ok.mp h
    have next := importGroup_keeps names (hostnames group mem_cons_self) keys first r
    have cut : bound ++ group :: rest = bound ++ [group] ++ rest := by simp
    rw [cut] at keys ⊢
    exact ih (fun g member => hostnames g (mem_cons_of_mem group member)) keys h next

/-- Groups that are bound already are skipped, and no row changes. -/
lemma importGroups_skip (newIds : Nat → Id) (siteId : Id) {groups : List EndpointGroup}
    (keys : (groups.map EndpointGroup.key).Nodup) (state : HostImport × List (List Char × SiteHost))
    (bound : ∀ g ∈ groups, ∃ h, state.2.lookup g.key = some h ∧
      ∀ id ∈ g.connectionIds, id ∈ h.connectionIds) :
    ∃ state', groups.foldlM (importGroup newIds siteId) state = .ok state' ∧
      state'.1.store = state.1.store ∧ state'.1.changed = state.1.changed ∧
      state'.1.created = state.1.created ∧ state'.1.updated = state.1.updated := by
  induction groups generalizing state with
  | nil => exact ⟨state, rfl, rfl, rfl, rfl, rfl⟩
  | cons group groups ih =>
    obtain ⟨h, found, all⟩ := bound group mem_cons_self
    obtain ⟨other, keys⟩ := nodup_cons.mp keys
    have skip : importGroup newIds siteId state group =
        .ok (state.1.skip, state.2.filter (fun entry => entry.1 ≠ group.key)) := by
      rw [importGroup, found]
      dsimp only
      rw [addMissing_of_subset all, if_pos rfl]
      rfl
    have later : ∀ g ∈ groups, ∃ h,
        (state.2.filter (fun entry => entry.1 ≠ group.key)).lookup g.key = some h ∧
          ∀ id ∈ g.connectionIds, id ∈ h.connectionIds := by
      intro g member
      have different : g.key ≠ group.key := fun same => other (same ▸ mem_map_of_mem member)
      rw [lookup_filter different]
      exact bound g (mem_cons_of_mem group member)
    obtain ⟨state', ran, same⟩ := ih keys
      (state.1.skip, state.2.filter (fun entry => entry.1 ≠ group.key)) later
    refine ⟨state', ?_, same⟩
    rw [foldlM_cons, skip]
    exact ran

/-- What a successful import of connections leaves behind. -/
lemma HostStore.Sound.importConnectionHosts (r : s.Sound)
    {connections : List ImportConnectionHost} (names : ∀ n, newIds n ≠ [])
    {result : HostImportResult}
    (h : importConnectionHosts s siteId connections newIds = .ok (result, s')) :
    s'.Sound ∧ ∀ g ∈ (connections.foldl groupConnection ([], 0)).1, Bound s' siteId g := by
  obtain ⟨-, h⟩ := reject_bind_ok.mp h
  obtain ⟨state, ran, h⟩ := bind_eq_ok.mp h
  obtain ⟨_, -, done⟩ := bind_eq_ok.mp h
  cases done
  have grouped := grouped_foldl connections
  have start : Progress siteId [] (connections.foldl groupConnection ([], 0)).1
      ({ HostImport.start s siteId with skipped := (connections.foldl groupConnection ([], 0)).2 },
        byEndpoint (s.listHosts siteId)) := by
    refine ⟨r, ahead_start s siteId, ?_, ?_, ?_⟩
    · intro g member
      cases member
    · exact fun g _ h found => latest_of_lookup found
    · exact fun g _ found h home site => lookup_byEndpoint_none found h (mem_listHosts.mpr ⟨home, site⟩)
  have finish := importGroups_keep names grouped.hostnames (by simpa using grouped.keys) ran start
  exact ⟨finish.sound, finish.done⟩

end Connections

end ItOps

/-!
# The host inventory over all runs

What holds of the inventory after any calls, and of every deletion and import of
connections from there.
-/

namespace ItOps

open Fallible ParentLinks List Text

/-- The ids a call gives to new hosts are not blank. -/
def HostCall.NonBlank : HostCall → Prop
  | createHost id _ _ => trim id ≠ []
  | importHosts _ _ newIds | importConnectionHosts _ _ newIds => ∀ n, trim (newIds n) ≠ []
  | _ => True

variable {s s' : HostStore}

lemma ne_nil_of_trim {id : Id} (h : trim id ≠ []) : id ≠ [] := by
  rintro rfl
  exact h rfl

lemma host_map_snd_eq_ok {α : Type} {x : Except StorageError (α × HostStore)}
    (h : Prod.snd <$> x = .ok s') : ∃ a, x = .ok (a, s') := by
  cases x with
  | error e => cases h
  | ok result =>
    cases h
    exact ⟨result.1, rfl⟩

lemma HostStore.Sound.apply (r : s.Sound) {call : HostCall} (nonBlank : call.NonBlank)
    (h : call.apply s = .ok s') : s'.Sound := by
  cases call with
  | createHost id siteId fields =>
    obtain ⟨_, h⟩ := host_map_snd_eq_ok h
    exact r.createHost (ne_nil_of_trim nonBlank) h
  | updateHost id fields connectionIds =>
    obtain ⟨_, h⟩ := host_map_snd_eq_ok h
    exact r.updateHost h
  | deleteHost id => exact r.deleteHost h
  | importHosts siteId hostnames newIds =>
    obtain ⟨_, h⟩ := host_map_snd_eq_ok h
    exact r.importHosts (fun n => ne_nil_of_trim (nonBlank n)) h
  | importConnectionHosts siteId connections newIds =>
    obtain ⟨_, h⟩ := host_map_snd_eq_ok h
    exact (r.importConnectionHosts (fun n => ne_nil_of_trim (nonBlank n)) h).1
  | setHostScan id scan =>
    obtain ⟨_, h⟩ := host_map_snd_eq_ok h
    exact r.setHostScan h
  | setHostExecution id execution =>
    obtain ⟨_, h⟩ := host_map_snd_eq_ok h
    exact r.setHostExecution h

lemma HostStore.Sound.serve (r : s.Sound) {call : HostCall} (nonBlank : call.NonBlank)
    (h : s.serve call = some s') : s'.Sound := by
  rw [HostStore.serve] at h
  split at h
  next applied =>
    cases h
    exact r.apply nonBlank applied
  next =>
    cases h
    exact r

lemma sound_run {sites : List Id} {calls : List HostCall} (nonBlank : ∀ call ∈ calls, call.NonBlank)
    (ran : Runs.run HostStore.serve (.empty sites) calls = some s) : s.Sound := by
  have along : ∀ (calls : List HostCall) (s : HostStore), (∀ call ∈ calls, call.NonBlank) →
      Runs.Along HostStore.serve (fun _ call => call.NonBlank) s calls := by
    intro calls
    induction calls with
    | nil => exact fun _ _ => trivial
    | cons call calls ih =>
      intro s all
      exact ⟨all call mem_cons_self, fun s' _ =>
        ih s' (fun other member => all other (mem_cons_of_mem call member))⟩
  exact Runs.along_invariant (fun _ _ _ served fresh r => HostStore.Sound.serve r fresh served)
    (along calls _ nonBlank) ran (sound_empty sites)

/-- The deletion takes one host out; of the others only its children change, and only
their parent. -/
structure DeletesOnly (s : HostStore) (id : Id) (s' : HostStore) : Prop where
  sites : s'.sites = s.sites
  gone : ∃ host ∈ s.hosts, host.id = id ∧
    s'.hosts = (s.hosts.filter (·.id ≠ id)).map (fun h =>
      if h.parentHostId = some id then { h with parentHostId := host.parentHostId } else h)

lemma deleteHost_deletesOnly {id : Id} (h : deleteHost s id = .ok s') : DeletesOnly s id s' := by
  obtain ⟨host, found, done⟩ := bind_eq_ok.mp h
  cases done
  obtain ⟨home, rfl⟩ := getHost_eq_ok found
  refine ⟨rfl, host, home, rfl, ?_⟩
  have stays : ∀ h, (host.leave h).id = h.id := by
    intro h
    rw [SiteHost.leave]
    split_ifs <;> rfl
  have test : (fun h : SiteHost => decide (h.id ≠ host.id)) ∘ host.leave =
      fun h => decide (h.id ≠ host.id) := by
    funext h
    rw [Function.comp_apply, stays]
  rw [filter_map, test]
  rfl

/-- The connections of an import are bound, and the same import again is without effect. -/
structure BindsConnections (siteId : Id) (connections : List ImportConnectionHost)
    (s' : HostStore) : Prop where
  bound : ∀ c ∈ connections, Importable c → ∃ h ∈ s'.hosts, h.siteId = siteId ∧
    normalizedEndpoint h.hostname = normalizedEndpoint c.hostname ∧
    trim c.id ∈ h.connectionIds
  again : ∀ newIds, ∃ result, importConnectionHosts s' siteId connections newIds = .ok (result, s') ∧
    result.created = 0 ∧ result.updated = 0

lemma HostStore.Sound.bindsConnections (r : s.Sound) {siteId : Id}
    {connections : List ImportConnectionHost} {newIds : Nat → Id} (names : ∀ n, newIds n ≠ [])
    {result : HostImportResult}
    (h : ItOps.importConnectionHosts s siteId connections newIds = .ok (result, s')) :
    BindsConnections siteId connections s' := by
  obtain ⟨sound, bound⟩ := r.importConnectionHosts names h
  have grouped := grouped_foldl connections
  constructor
  · intro c member importable
    obtain ⟨g, home, key, listed⟩ := grouped.covered c member importable
    obtain ⟨host, latest, all⟩ := bound g home
    exact ⟨host, latest.home, latest.site, latest.endpoint.trans key, all _ listed⟩
  · intro newIds
    have known : ∀ g ∈ (connections.foldl groupConnection ([], 0)).1,
        ∃ h, (byEndpoint (s'.listHosts siteId)).lookup g.key = some h ∧
          ∀ id ∈ g.connectionIds, id ∈ h.connectionIds := by
      intro g member
      obtain ⟨host, latest, all⟩ := bound g member
      exact ⟨host, lookup_of_latest sound latest, all⟩
    obtain ⟨few, -⟩ := reject_bind_ok.mp h
    obtain ⟨state, ran, store, changed, created, updated⟩ :=
      importGroups_skip newIds siteId grouped.keys
        ({ HostImport.start s' siteId with skipped := (connections.foldl groupConnection ([], 0)).2 },
          byEndpoint (s'.listHosts siteId)) known
    have none : state.1.result = .ok
        { hosts := [], skipped := state.1.skipped, created := state.1.created
          updated := state.1.updated } := by
      rw [HostImport.result, changed]
      rfl
    refine ⟨{ hosts := [], skipped := state.1.skipped, created := state.1.created
              updated := state.1.updated },
      reject_bind_ok.mpr ⟨few, bind_eq_ok.mpr ⟨state, ran, ?_⟩⟩, created, updated⟩
    rw [none, store]
    rfl

/-- The inventory is a forest of hosts in sites with distinct hostnames; deletions
keep everything else, and imports of connections are complete and idempotent. -/
structure HostStore.Inventory (s : HostStore) : Prop where
  acyclic : Acyclic s.Under
  parents : ∀ h ∈ s.hosts, ∀ p, h.parentHostId = some p →
    ∃ parent ∈ s.hosts, parent.id = p ∧ parent.siteId = h.siteId
  hostnames : s.hosts.Pairwise
    (fun a b => a.siteId = b.siteId → a.hostname.map Char.toLower ≠ b.hostname.map Char.toLower)
  deletes : ∀ id s', deleteHost s id = .ok s' → DeletesOnly s id s'
  imports : ∀ siteId connections newIds result s', (∀ n, trim (newIds n) ≠ []) →
    importConnectionHosts s siteId connections newIds = .ok (result, s') →
    BindsConnections siteId connections s'

/-- After any calls the inventory is in order. -/
theorem host_inventory_in_order {sites : List Id} {calls : List HostCall}
    (nonBlank : ∀ call ∈ calls, call.NonBlank) {s : HostStore}
    (ran : Runs.run HostStore.serve (.empty sites) calls = some s) : s.Inventory := by
  have sound := sound_run nonBlank ran
  constructor
  · exact sound.acyclic
  · exact sound.parents
  · have apart := pairwise_map.mp sound.ids
    refine apart.imp_of_mem ?_
    intro a b ha hb different site same
    exact different (sound.hostnames a ha b hb site (sameNoCase_iff.mpr same))
  · exact fun id s' deleted => deleteHost_deletesOnly deleted
  · intro siteId connections newIds result s' names imported
    exact sound.bindsConnections (fun n => ne_nil_of_trim (names n)) imported

def sampleIds (n : Nat) : Id :=
  List.replicate (n + 1) 'n'

/-- A device and a guest on it; in another site, an import of two connections. -/
def sampleCalls : List HostCall :=
  [.createHost ['d'] ['s']
      { hostname := "esx-01".toList, label := [], kind := .physical, parentHostId := none
        notes := [] },
    .createHost ['v'] ['s']
      { hostname := "vm-01".toList, label := [], kind := .vm, parentHostId := some ['d']
        notes := [] },
    .createHost ['w'] ['t']
      { hostname := "web.".toList, label := [], kind := .physical, parentHostId := none
        notes := [] },
    .importConnectionHosts ['t']
      [{ id := ['a'], hostname := "WEB".toList }, { id := ['b'], hostname := "db".toList }]
      sampleIds]

lemma sampleCalls_nonBlank : ∀ call ∈ sampleCalls, call.NonBlank := by
  have one : ∀ c : Char, isWhitespace c = false → trim [c] ≠ [] := by
    intro c dark
    rw [trim_of_dark (by simpa using dark)]
    exact cons_ne_nil _ _
  intro call member
  simp only [sampleCalls, mem_cons, not_mem_nil, or_false] at member
  rcases member with rfl | rfl | rfl | rfl
  · exact one 'd' (by decide)
  · exact one 'v' (by decide)
  · exact one 'w' (by decide)
  · intro n
    rw [trim_of_dark]
    · exact cons_ne_nil _ _
    · intro c member
      rw [(mem_replicate.mp member).2]
      decide

theorem sample_inventory_in_order :
    ∃ s, Runs.run HostStore.serve (.empty [['s'], ['t']]) sampleCalls = some s ∧
      s.hosts.map (fun h => (h.id, h.connectionIds)) =
        [(['d'], []), (['v'], []), (['w'], [['a']]), (['n'], [['b']])] ∧ s.Inventory := by
  have ran : (Runs.run HostStore.serve (.empty [['s'], ['t']]) sampleCalls).map
      (fun s => s.hosts.map (fun h => (h.id, h.connectionIds))) =
        some [(['d'], []), (['v'], []), (['w'], [['a']]), (['n'], [['b']])] := by
    decide +kernel
  obtain ⟨s, ran, rows⟩ := Option.map_eq_some_iff.mp ran
  exact ⟨s, ran, rows, host_inventory_in_order sampleCalls_nonBlank ran⟩

/-- A hostname of dots is valid, but it has no endpoint, and its connection is skipped. -/
theorem dotted_connection_skipped :
    ∃ result s', importConnectionHosts (.empty [['s']]) ['s'] [{ id := ['a'], hostname := ['.'] }]
        (fun n => ['n', Char.ofNat (48 + n)]) = .ok (result, s') ∧
      validateHostname ['.'] = .ok ['.'] ∧
      ¬ ∃ h ∈ s'.hosts, h.siteId = ['s'] ∧
        normalizedEndpoint h.hostname = normalizedEndpoint ['.'] ∧ ['a'] ∈ h.connectionIds :=
  ⟨_, _, rfl, rfl, by decide⟩

end ItOps
