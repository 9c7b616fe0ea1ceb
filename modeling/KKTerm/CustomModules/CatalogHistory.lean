import KKTerm.CustomModules.Catalog
import KKTerm.Library.Runs
import Mathlib.Data.List.Nodup

/-!
# The online catalog over time

Refreshes follow one another while the clock does not go back, and each of them gets
whatever the server answers. A catalog that was accepted once verifies at all later
times, so that every later refresh is compared with it.
-/

namespace CustomModules

open Fallible Runs List Text

lemma digitChar_injective {a b : Nat} (below : a < 16) (below' : b < 16)
    (same : Nat.digitChar a = Nat.digitChar b) : a = b := by
  have read := congrArg hexDigit same
  rwa [hexDigit_digitChar below, hexDigit_digitChar below', Option.some.injEq] at read

lemma encodeHex_injective : Function.Injective encodeHex := by
  intro s
  induction s with
  | nil =>
    intro t same
    cases t with
    | nil => rfl
    | cons b t => exact absurd same (by simp [encodeHex])
  | cons a s ih =>
    intro t same
    cases t with
    | nil => exact absurd same (by simp [encodeHex])
    | cons b t =>
      rw [encodeHex, encodeHex, flatMap_cons, flatMap_cons] at same
      obtain ⟨high, same⟩ := List.cons.inj same
      obtain ⟨low, same⟩ := List.cons.inj same
      have bound := a.toNat_lt
      have bound' := b.toNat_lt
      have high := digitChar_injective (by omega) (by omega) high
      have low := digitChar_injective (by omega) (by omega) low
      have byte : a = b := UInt8.toNat_inj.mp (by omega)
      rw [byte, ih same]

section Verification
variable {V : Type} {x : Crates V}

/-- The payloads that the key holder has signed. -/
def Crates.Signed (x : Crates V) : Set Bytes :=
  { payload | ∃ key signature, x.verify key payload signature = true }

lemma verifySignature_signed {bytes payload : Bytes}
    (verified : verifySignature x bytes = .ok payload) : payload ∈ x.Signed := by
  obtain ⟨-, verified⟩ := reject_bind_ok.mp verified
  obtain ⟨envelope, -, verified⟩ := bind_eq_ok.mp verified
  obtain ⟨-, verified⟩ := reject_bind_ok.mp verified
  obtain ⟨key, -, verified⟩ := bind_eq_ok.mp verified
  obtain ⟨-, verified⟩ := reject_bind_ok.mp verified
  obtain ⟨payloadBytes, -, verified⟩ := bind_eq_ok.mp verified
  obtain ⟨-, verified⟩ := reject_bind_ok.mp verified
  obtain ⟨signatureBytes, -, verified⟩ := bind_eq_ok.mp verified
  obtain ⟨signature, -, verified⟩ := bind_eq_ok.mp verified
  obtain ⟨trusted, verified⟩ := reject_bind_ok.mp verified
  cases verified
  exact ⟨key, signature, Bool.not_eq_false _ ▸ trusted⟩

/-- The whole of the verification: only the time it is dated depends on the clock. -/
lemma verifyOnlineCatalog_eq_ok {bytes : Bytes} {now : Int} {c : VerifiedOnlineCatalog} :
    verifyOnlineCatalog x bytes now = .ok c ↔
      ∃ payloadBytes generatedAt expiresAt, verifySignature x bytes = .ok payloadBytes ∧
        x.parsePayload payloadBytes = some c.payload ∧
        ¬ (c.payload.schemaVersion ≠ 2 ∨ c.payload.sequence = 0) ∧
        x.parseTime c.payload.generatedAt = some generatedAt ∧
        x.parseTime c.payload.expiresAt = some expiresAt ∧
        ¬ now + maxCatalogSkew < generatedAt ∧
        ¬ (expiresAt ≤ generatedAt ∨ maxCatalogValidity < expiresAt - generatedAt) ∧
        validateCatalog x
          { schemaVersion := c.payload.schemaVersion, modules := c.payload.modules } = .ok () ∧
        checkOrigins x c.payload.modules = .ok () ∧
        c.payloadSha256 = encodeHex (x.digest payloadBytes) ∧
        c.expired = decide (expiresAt ≤ now) := by
  constructor
  · intro verified
    obtain ⟨payloadBytes, signed, verified⟩ := bind_eq_ok.mp verified
    obtain ⟨payload, parsed, verified⟩ := bind_eq_ok.mp verified
    obtain ⟨schema, verified⟩ := reject_bind_ok.mp verified
    obtain ⟨generatedAt, generated, verified⟩ := bind_eq_ok.mp verified
    obtain ⟨expiresAt, expires, verified⟩ := bind_eq_ok.mp verified
    obtain ⟨dated, verified⟩ := reject_bind_ok.mp verified
    obtain ⟨valid, verified⟩ := reject_bind_ok.mp verified
    obtain ⟨⟨⟩, entries, verified⟩ := bind_eq_ok.mp verified
    obtain ⟨⟨⟩, origins, verified⟩ := bind_eq_ok.mp verified
    cases verified
    exact ⟨payloadBytes, generatedAt, expiresAt, signed, require_eq_ok.mp parsed, schema,
      require_eq_ok.mp generated, require_eq_ok.mp expires, dated, valid, entries, origins, rfl,
      rfl⟩
  · rintro ⟨payloadBytes, generatedAt, expiresAt, signed, parsed, schema, generated, expires, dated,
      valid, entries, origins, sha, expired⟩
    obtain ⟨payload, payloadSha256, e⟩ := c
    cases sha
    cases expired
    exact bind_eq_ok.mpr ⟨payloadBytes, signed, bind_eq_ok.mpr ⟨payload, require_eq_ok.mpr parsed,
      reject_bind_ok.mpr ⟨schema,
      bind_eq_ok.mpr ⟨generatedAt, require_eq_ok.mpr generated,
      bind_eq_ok.mpr ⟨expiresAt, require_eq_ok.mpr expires,
      reject_bind_ok.mpr ⟨dated,
      reject_bind_ok.mpr ⟨valid,
      bind_eq_ok.mpr ⟨(), entries, bind_eq_ok.mpr ⟨(), origins, rfl⟩⟩⟩⟩⟩⟩⟩⟩⟩

/-- What verifies now verifies later, with the same payload. -/
lemma verify_later {bytes : Bytes} {now later : Int} {c : VerifiedOnlineCatalog}
    (verified : verifyOnlineCatalog x bytes now = .ok c) (order : now ≤ later) :
    ∃ c', verifyOnlineCatalog x bytes later = .ok c' ∧ c'.payload = c.payload ∧
      c'.payloadSha256 = c.payloadSha256 := by
  obtain ⟨payloadBytes, generatedAt, expiresAt, signed, parsed, schema, generated, expires, dated,
    valid, entries, origins, sha, -⟩ := verifyOnlineCatalog_eq_ok.mp verified
  have dated : ¬ later + maxCatalogSkew < generatedAt := by omega
  exact ⟨{ c with expired := decide (expiresAt ≤ later) },
    verifyOnlineCatalog_eq_ok.mpr ⟨payloadBytes, generatedAt, expiresAt, signed, parsed, schema,
      generated, expires, dated, valid, entries, origins, sha, rfl⟩, rfl, rfl⟩

lemma payload_of_digest (distinct : Set.InjOn x.digest x.Signed) {bytes bytes' : Bytes}
    {now now' : Int} {c c' : VerifiedOnlineCatalog}
    (verified : verifyOnlineCatalog x bytes now = .ok c)
    (verified' : verifyOnlineCatalog x bytes' now' = .ok c')
    (same : c'.payloadSha256 = c.payloadSha256) : c'.payload = c.payload := by
  obtain ⟨p, -, -, signed, parsed, -, -, -, -, -, -, -, sha, -⟩ :=
    verifyOnlineCatalog_eq_ok.mp verified
  obtain ⟨p', -, -, signed', parsed', -, -, -, -, -, -, -, sha', -⟩ :=
    verifyOnlineCatalog_eq_ok.mp verified'
  rw [sha, sha'] at same
  have one : p' = p := distinct (verifySignature_signed signed') (verifySignature_signed signed)
    (encodeHex_injective same)
  rw [one, parsed] at parsed'
  exact (Option.some.inj parsed').symm

lemma validateEntry_eq_ok {ids ids' : List (List Char)} {entry : CatalogEntry}
    (valid : validateEntry x ids entry = .ok ids') :
    entry.id ∉ ids ∧ (x.parseVersion entry.version).isSome = true ∧ ids' = ids ++ [entry.id] := by
  obtain ⟨⟨⟩, -, valid⟩ := bind_eq_ok.mp valid
  obtain ⟨-, valid⟩ := reject_bind_ok.mp valid
  obtain ⟨version, valid⟩ := reject_bind_ok.mp valid
  obtain ⟨new, valid⟩ := reject_bind_ok.mp valid
  obtain ⟨-, valid⟩ := reject_bind_ok.mp valid
  obtain ⟨-, valid⟩ := reject_bind_ok.mp valid
  obtain ⟨-, valid⟩ := reject_bind_ok.mp valid
  obtain ⟨-, valid⟩ := reject_bind_ok.mp valid
  obtain ⟨-, valid⟩ := reject_bind_ok.mp valid
  obtain ⟨⟨⟩, -, valid⟩ := bind_eq_ok.mp valid
  obtain ⟨⟨⟩, -, valid⟩ := bind_eq_ok.mp valid
  obtain ⟨-, valid⟩ := reject_bind_ok.mp valid
  obtain ⟨url, -, valid⟩ := bind_eq_ok.mp valid
  obtain ⟨-, valid⟩ := reject_bind_ok.mp valid
  cases valid
  refine ⟨new, ?_, rfl⟩
  cases parsed : x.parseVersion entry.version with
  | none => exact absurd (by rw [parsed]; rfl) version
  | some _ => rfl

/-- The ids of checked entries are distinct, and their versions parse. -/
lemma validateEntries {entries : List CatalogEntry} {ids ids' : List (List Char)}
    (valid : entries.foldlM (validateEntry x) ids = .ok ids') (nodup : ids.Nodup) :
    (ids ++ entries.map (·.id)).Nodup ∧
      ∀ b ∈ entries, (x.parseVersion b.version).isSome = true := by
  induction entries generalizing ids with
  | nil => exact ⟨by simpa using nodup, fun b h => nomatch h⟩
  | cons b rest ih =>
    rw [foldlM_cons] at valid
    obtain ⟨ids₁, first, valid⟩ := bind_eq_ok.mp valid
    obtain ⟨new, version, rfl⟩ := validateEntry_eq_ok first
    have nodup : (ids ++ [b.id]).Nodup :=
      nodup_append.mpr ⟨nodup, nodup_singleton b.id, fun i old _ h same =>
        new (mem_singleton.mp h ▸ same ▸ old)⟩
    obtain ⟨distinct, versions⟩ := ih valid nodup
    rw [append_assoc] at distinct
    exact ⟨distinct, forall_mem_cons.mpr ⟨version, versions⟩⟩

end Verification

/-- The map is kept in the order of its ids. -/
def InOrder (entries : List CatalogEntry) : Prop :=
  entries.Pairwise (fun a b => Text.precedes a.id b.id = true)

variable {entries : List CatalogEntry}

lemma InOrder.nodup (h : InOrder entries) : (entries.map (·.id)).Nodup := by
  rw [Nodup, pairwise_map]
  exact h.imp precedes_ne

lemma mem_insertEntry {entry e : CatalogEntry} (order : InOrder entries) :
    e ∈ insertEntry entry entries ↔ e = entry ∨ e ∈ entries ∧ e.id ≠ entry.id := by
  induction entries with
  | nil => simp [insertEntry]
  | cons other rest ih =>
    obtain ⟨first, tail⟩ := pairwise_cons.mp order
    rw [insertEntry]
    split
    · rename_i same
      have apart : ∀ e ∈ rest, e.id ≠ entry.id := by
        intro e member clash
        exact precedes_ne (first e member) (same.trans clash.symm)
      simp only [mem_cons]
      constructor
      · rintro (rfl | member)
        · exact .inl rfl
        · exact .inr ⟨.inr member, apart e member⟩
      · rintro (rfl | ⟨rfl | member, differ⟩)
        · exact .inl rfl
        · exact absurd same differ
        · exact .inr member
    · rename_i differ
      split
      · rename_i before
        have apart : ∀ e ∈ other :: rest, e.id ≠ entry.id := by
          intro e member
          rcases mem_cons.mp member with rfl | member
          · exact differ
          · exact (precedes_ne (precedes_trans before (first e member))).symm
        rw [mem_cons]
        exact or_congr_right ⟨fun member => ⟨member, apart e member⟩, And.left⟩
      · simp only [mem_cons, ih tail]
        constructor
        · rintro (rfl | rfl | ⟨member, other⟩)
          · exact .inr ⟨.inl rfl, differ⟩
          · exact .inl rfl
          · exact .inr ⟨.inr member, other⟩
        · rintro (rfl | ⟨rfl | member, other⟩)
          · exact .inr (.inl rfl)
          · exact .inl rfl
          · exact .inr (.inr ⟨member, other⟩)

lemma InOrder.insertEntry {entry : CatalogEntry} (order : InOrder entries) :
    InOrder (insertEntry entry entries) := by
  induction entries with
  | nil => exact pairwise_singleton _ _
  | cons other rest ih =>
    obtain ⟨first, tail⟩ := pairwise_cons.mp order
    rw [CustomModules.insertEntry]
    split
    · rename_i same
      exact pairwise_cons.mpr ⟨fun e member => same ▸ first e member, tail⟩
    · rename_i differ
      split
      · rename_i before
        refine pairwise_cons.mpr ⟨?_, order⟩
        intro e member
        rcases mem_cons.mp member with rfl | member
        · exact before
        · exact precedes_trans before (first e member)
      · rename_i after
        refine pairwise_cons.mpr ⟨?_, ih tail⟩
        intro e member
        rcases (mem_insertEntry tail).mp member with rfl | ⟨member, -⟩
        · exact precedes_of_not after differ
        · exact first e member

lemma merged_baseline {merged : List CatalogEntry} (nodup : (entries.map (·.id)).Nodup)
    (order : InOrder merged) (apart : ∀ e ∈ merged, ∀ b ∈ entries, e.id ≠ b.id) :
    InOrder (entries.foldl (fun merged entry => insertEntry entry merged) merged) ∧
      ∀ e, e ∈ merged ∨ e ∈ entries →
        e ∈ entries.foldl (fun merged entry => insertEntry entry merged) merged := by
  induction entries generalizing merged with
  | nil => exact ⟨order, fun e member => member.elim id (fun h => nomatch h)⟩
  | cons b rest ih =>
    obtain ⟨new, nodup⟩ := nodup_cons.mp nodup
    have apart' : ∀ e ∈ insertEntry b merged, ∀ b' ∈ rest, e.id ≠ b'.id := by
      intro e member b' member'
      rcases (mem_insertEntry order).mp member with rfl | ⟨member, -⟩
      · intro same
        exact new (mem_map.mpr ⟨b', member', same.symm⟩)
      · exact apart e member b' (mem_cons_of_mem b member')
    obtain ⟨sorted, all⟩ := ih nodup order.insertEntry apart'
    refine ⟨sorted, ?_⟩
    intro e member
    apply all
    rcases member with member | member
    · exact .inl ((mem_insertEntry order).mpr (.inr ⟨member, apart e member b mem_cons_self⟩))
    · rcases mem_cons.mp member with rfl | member
      · exact .inl ((mem_insertEntry order).mpr (.inl rfl))
      · exact .inr member

section Offers
variable {V : Type} [LinearOrder V] {x : Crates V}

/-- The version of one entry is not lower than that of the other. -/
def NotLower (x : Crates V) (entry other : CatalogEntry) : Prop :=
  ∃ version current, x.parseVersion entry.version = some version ∧
    x.parseVersion other.version = some current ∧ current ≤ version

/-- Every module of the baseline is there, at its version or a later one, and no id twice. -/
structure Offers (x : Crates V) (baseline list : List CatalogEntry) : Prop where
  kept : ∀ b ∈ baseline, ∃ e ∈ list, e.id = b.id ∧ NotLower x e b
  once : (list.map (·.id)).Nodup

/-- What the loop over the online entries preserves. -/
structure Merged (x : Crates V) (baseline merged : List CatalogEntry) : Prop where
  order : InOrder merged
  kept : ∀ b ∈ baseline, ∃ e ∈ merged, e.id = b.id ∧ NotLower x e b

lemma Merged.offers {baseline merged : List CatalogEntry} (h : Merged x baseline merged) :
    Offers x baseline merged :=
  ⟨h.kept, h.order.nodup⟩

/-- An entry takes the place of another one only when its version is later. -/
lemma Merged.mergeEntry {baseline merged merged' : List CatalogEntry} {entry : CatalogEntry}
    (h : Merged x baseline merged) (done : mergeEntry x merged entry = .ok merged') :
    Merged x baseline merged' := by
  unfold CustomModules.mergeEntry at done
  split at done
  · rename_i absent
    cases done
    refine ⟨h.order.insertEntry, ?_⟩
    intro b member
    obtain ⟨e, found, same, version⟩ := h.kept b member
    refine ⟨e, (mem_insertEntry h.order).mpr (.inr ⟨found, ?_⟩), same, version⟩
    exact of_decide_eq_false (Bool.not_eq_true _ ▸ find?_eq_none.mp absent e found)
  · rename_i existing present
    obtain ⟨-, done⟩ := reject_bind_ok.mp done
    obtain ⟨version, parsed, done⟩ := bind_eq_ok.mp done
    obtain ⟨current, parsed', done⟩ := bind_eq_ok.mp done
    split at done
    · cases done
      exact h
    · rename_i later
      cases done
      refine ⟨h.order.insertEntry, ?_⟩
      intro b member
      obtain ⟨e, found, same, v, w, parsedE, parsedB, notLower⟩ := h.kept b member
      by_cases replaced : e.id = entry.id
      · have old : e = existing := by
          have there := mem_of_find?_eq_some present
          have same := find?_some present
          rw [decide_eq_true_iff] at same
          exact inj_on_of_nodup_map h.order.nodup found there (replaced.trans same.symm)
        subst old
        rw [require_eq_ok.mp parsed'] at parsedE
        cases parsedE
        exact ⟨entry, (mem_insertEntry h.order).mpr (.inl rfl), replaced.symm.trans same, version,
          w, require_eq_ok.mp parsed, parsedB, le_trans notLower (le_of_not_ge later)⟩
      · exact ⟨e, (mem_insertEntry h.order).mpr (.inr ⟨found, replaced⟩), same, v, w, parsedE,
          parsedB, notLower⟩

variable {baseline : Catalog} {list : List CatalogEntry}

section
variable (loaded : baselineCatalog x = .ok baseline)
include loaded

lemma mergeCatalogs_offers
    {online : Option VerifiedOnlineCatalog} (done : mergeCatalogs x baseline online = .ok list) :
    Offers x baseline.modules list := by
  obtain ⟨catalog, -, loaded⟩ := bind_eq_ok.mp loaded
  obtain ⟨⟨⟩, valid, loaded⟩ := bind_eq_ok.mp loaded
  cases loaded
  obtain ⟨-, valid⟩ := reject_bind_ok.mp valid
  obtain ⟨ids, valid, -⟩ := bind_eq_ok.mp valid
  obtain ⟨nodup, versions⟩ := validateEntries valid nodup_nil
  have none : InOrder [] := Pairwise.nil
  obtain ⟨order, all⟩ := merged_baseline nodup none (fun e h => nomatch h)
  have start : Merged x baseline.modules
      (baseline.modules.foldl (fun merged entry => insertEntry entry merged) []) := by
    refine ⟨order, ?_⟩
    intro b member
    obtain ⟨version, parsed⟩ := Option.isSome_iff_exists.mp (versions b member)
    exact ⟨b, all b (.inr member), rfl, version, version, parsed, parsed, le_refl version⟩
  unfold mergeCatalogs at done
  simp only at done
  split at done
  · cases done
    exact start.offers
  · exact (foldlM_invariant (P := Merged x baseline.modules)
      (fun _ _ _ _ round kept => kept.mergeEntry round) done start).offers

/-- Whatever is listed comes from a merge with the baseline. -/
lemma availableCatalog_offers {cache : Option Bytes}
    {now : Int} (done : availableCatalog x cache now = .ok list) :
    Offers x baseline.modules list := by
  obtain ⟨b, found, done⟩ := bind_eq_ok.mp done
  rw [loaded] at found
  cases found
  exact mergeCatalogs_offers loaded done

lemma refreshCatalog_offers {cache : Option Bytes}
    {now : Int} {response : Option Response} {written : Bool}
    (done : (refreshCatalog x cache now response written).1 = .ok list) :
    Offers x baseline.modules list := by
  unfold refreshCatalog at done
  split at done
  · exact availableCatalog_offers loaded done
  · split at done
    · cases done
    · split at done
      · rw [loaded] at done
        exact mergeCatalogs_offers loaded done
      · cases done

end

end Offers

section History
variable {V : Type} {x : Crates V}

structure History where
  clock : Int
  cache : Option Bytes
  deriving DecidableEq

/-- The catalog in the cache, at the time of the last call. -/
def History.Cached (x : Crates V) (s : History) (c : VerifiedOnlineCatalog) : Prop :=
  cachedOnlineCatalog x s.cache s.clock = .ok (some c)

lemma History.cached_iff {s : History} {c : VerifiedOnlineCatalog} :
    s.Cached x c ↔ ∃ bytes, s.cache = some bytes ∧ verifyOnlineCatalog x bytes s.clock = .ok c := by
  obtain ⟨clock, cache⟩ := s
  cases cache with
  | none => simp [Cached, cachedOnlineCatalog]
  | some bytes =>
    cases verified : verifyOnlineCatalog x bytes clock <;>
      simp [Cached, cachedOnlineCatalog, verified, Except.map]

/-- The cached catalog of a later state is the same one or a later one. -/
def Succeeds (c c' : VerifiedOnlineCatalog) : Prop :=
  c.payload.sequence ≤ c'.payload.sequence ∧
    (c.payload.sequence = c'.payload.sequence → c.payload = c'.payload)

lemma Succeeds.trans {a b c : VerifiedOnlineCatalog} (first : Succeeds a b)
    (second : Succeeds b c) : Succeeds a c := by
  refine ⟨le_trans first.1 second.1, ?_⟩
  intro same
  have middle : a.payload.sequence = b.payload.sequence := by
    have := first.1
    have := second.1
    omega
  exact (first.2 middle).trans (second.2 (middle.symm.trans same))

/-- The catalog that stays in the cache keeps its payload. -/
lemma History.Cached.later {s s' : History} {c : VerifiedOnlineCatalog} (cached : s.Cached x c)
    (order : s.clock ≤ s'.clock) (kept : s'.cache = s.cache) :
    ∃ c', s'.Cached x c' ∧ c'.payload = c.payload := by
  obtain ⟨bytes, there, verified⟩ := History.cached_iff.mp cached
  obtain ⟨c', verified', payload, -⟩ := verify_later verified order
  exact ⟨c', History.cached_iff.mpr ⟨bytes, kept.trans there, verified'⟩, payload⟩

def History.Sound (x : Crates V) (s : History) : Prop :=
  s.cache = none ∨ ∃ c, s.Cached x c

variable [LinearOrder V]

structure Refresh where
  now : Int
  response : Option Response
  written : Bool

/-- One call of `refresh_custom_module_catalog`; the clock does not go back. -/
def History.refresh (x : Crates V) (s : History) (call : Refresh) : Option History :=
  if call.now < s.clock then none
  else some {
    clock := call.now
    cache := (refreshCatalog x s.cache call.now call.response call.written).2 }

/-- A call keeps the cache, or replaces it by what it has verified and compared. -/
lemma refreshCatalog_cache {cache : Option Bytes} {now : Int} {response : Option Response}
    {written : Bool} :
    (refreshCatalog x cache now response written).2 = cache ∨
      ∃ bytes refreshed, (refreshCatalog x cache now response written).2 = some bytes ∧
        verifyOnlineCatalog x bytes now = .ok refreshed ∧
        checkSequence refreshed (cachedOnlineCatalog x cache now) = .ok () := by
  unfold refreshCatalog
  split
  · exact .inl rfl
  · split
    · exact .inl rfl
    · rename_i bytes refreshed admitted
      split
      · obtain ⟨body, -, admitted⟩ := bind_eq_ok.mp admitted
        obtain ⟨verified, ok, admitted⟩ := bind_eq_ok.mp admitted
        obtain ⟨-, admitted⟩ := reject_bind_ok.mp admitted
        obtain ⟨⟨⟩, compared, admitted⟩ := bind_eq_ok.mp admitted
        cases admitted
        exact .inr ⟨bytes, refreshed, rfl, ok, compared⟩
      · exact .inl rfl

/-- A call leaves the cache as it was, or replaces it by what it has compared. -/
lemma refresh_cases {s s' : History} {call : Refresh} (called : s.refresh x call = some s') :
    s.clock ≤ call.now ∧ s'.clock = call.now ∧
      (s'.cache = s.cache ∨ ∃ refreshed, s'.Cached x refreshed ∧
        checkSequence refreshed (cachedOnlineCatalog x s.cache call.now) = .ok ()) := by
  unfold History.refresh at called
  split at called
  · cases called
  rename_i order
  cases called
  refine ⟨not_lt.mp order, rfl, ?_⟩
  rcases refreshCatalog_cache (x := x) with kept | ⟨bytes, refreshed, written, verified, compared⟩
  · exact .inl kept
  · exact .inr ⟨refreshed, History.cached_iff.mpr ⟨bytes, written, verified⟩, compared⟩

lemma refresh_sound {s s' : History} {call : Refresh} (called : s.refresh x call = some s')
    (sound : s.Sound x) : s'.Sound x := by
  obtain ⟨order, clock, kept | ⟨refreshed, cached, -⟩⟩ := refresh_cases called
  · rcases sound with empty | ⟨c, cached⟩
    · exact .inl (kept.trans empty)
    · obtain ⟨c', cached', -⟩ := cached.later (clock ▸ order) kept
      exact .inr ⟨c', cached'⟩
  · exact .inr ⟨refreshed, cached⟩

lemma refresh_succeeds (distinct : Set.InjOn x.digest x.Signed) {s s' : History} {call : Refresh}
    (called : s.refresh x call = some s') {c : VerifiedOnlineCatalog} (cached : s.Cached x c) :
    ∃ c', s'.Cached x c' ∧ Succeeds c c' := by
  obtain ⟨order, clock, kept | ⟨refreshed, cached', compared⟩⟩ := refresh_cases called
  · obtain ⟨c', cached', payload⟩ := cached.later (clock ▸ order) kept
    refine ⟨c', cached', ?_⟩
    rw [Succeeds, payload]
    exact ⟨le_refl _, fun _ => rfl⟩
  · obtain ⟨bytes, -, verified'⟩ := History.cached_iff.mp cached'
    obtain ⟨old, there, verified⟩ := History.cached_iff.mp cached
    -- the old catalog still verifies, so that the new one was compared with it
    obtain ⟨current, again, payload, -⟩ := verify_later verified order
    rw [there, cachedOnlineCatalog, again] at compared
    obtain ⟨notLower, compared⟩ := reject_bind_ok.mp compared
    have unchanged := reject_eq_ok.mp compared
    refine ⟨refreshed, cached', ?_⟩
    rw [Succeeds, ← payload]
    refine ⟨not_lt.mp notLower, ?_⟩
    intro same
    have sha : refreshed.payloadSha256 = current.payloadSha256 := by
      by_contra differ
      exact unchanged ⟨same.symm, differ⟩
    exact (payload_of_digest distinct again verified' sha).symm

/-- In every run every cached file verifies, its sequence number never decreases, one
sequence number stands for one payload, and every list offers the modules of the baseline
at their versions or later ones. -/
theorem catalog_never_rolls_back (distinct : Set.InjOn x.digest x.Signed) {start : Int}
    {front back : List Refresh} {s s' : History}
    (before : run (History.refresh x) { clock := start, cache := none } front = some s)
    (after : run (History.refresh x) s back = some s') :
    (s.cache.isSome = true → ∃ c, s.Cached x c) ∧
      (∀ c, s.Cached x c → ∃ c', s'.Cached x c' ∧ c.payload.sequence ≤ c'.payload.sequence ∧
        (c.payload.sequence = c'.payload.sequence → c.payload = c'.payload)) ∧
      ∀ baseline, baselineCatalog x = .ok baseline → ∀ now list,
        (mergeCatalogs x baseline ((cachedOnlineCatalog x s.cache now).toOption.bind id) = .ok list ∨
          availableCatalog x s.cache now = .ok list ∨
          ∃ response written, (refreshCatalog x s.cache now response written).1 = .ok list) →
        (∀ b ∈ baseline.modules, ∃ e ∈ list, e.id = b.id ∧
          ∃ version current, x.parseVersion e.version = some version ∧
            x.parseVersion b.version = some current ∧ current ≤ version) ∧
        (list.map (·.id)).Nodup := by
  refine ⟨?_, ?_, ?_⟩
  · intro filled
    have sound : s.Sound x := run_invariant (fun _ _ _ => refresh_sound) before (.inl rfl)
    rcases sound with empty | cached
    · rw [empty] at filled
      cases filled
    · exact cached
  · intro c cached
    refine run_invariant (P := fun t => ∃ c', t.Cached x c' ∧ Succeeds c c') ?_ after
      ⟨c, cached, le_refl _, fun _ => rfl⟩
    rintro t call t' called ⟨c', cached', first⟩
    obtain ⟨c'', cached'', second⟩ := refresh_succeeds distinct called cached'
    exact ⟨c'', cached'', first.trans second⟩
  · rintro baseline loaded now list (merged | listed | ⟨response, written, refreshed⟩)
    · exact ⟨(mergeCatalogs_offers loaded merged).kept, (mergeCatalogs_offers loaded merged).once⟩
    · exact ⟨(availableCatalog_offers loaded listed).kept, (availableCatalog_offers loaded listed).once⟩
    · exact ⟨(refreshCatalog_offers loaded refreshed).kept,
        (refreshCatalog_offers loaded refreshed).once⟩

end History

def sampleKeyHex : List Char :=
  "ea4a6c63e29c520abef5507b132ec5f9954776aebebe7b92421eea691446d22c".toList

def sampleKeyId : List Char :=
  "fe812c12f3ab4ce6ac5db69ac352f906cb1b11ef43fb33e252ef7ff552263889".toList

def samplePayload : Bytes :=
  ("\x7b\"schemaVersion\":2,\"sequence\":1,\"generatedAt\":\"1970-01-01T00:00:00Z\"," ++
    "\"expiresAt\":\"1970-01-02T00:00:00Z\",\"modules\":[]\x7d").toList.map
    (fun c => UInt8.ofNat c.toNat)

def samplePayloadHex : List Char :=
  "360984c75e5196fe2a5b899560505a5d600ceea3b74231a354690c9445f02d98".toList

def samplePayloadText : List Char :=
  ("eyJzY2hlbWFWZXJzaW9uIjoyLCJzZXF1ZW5jZSI6MSwiZ2VuZXJhdGVkQXQiOiIxOTcwLTAxLTAxVDAwOjAwOjAwWiIs" ++
    "ImV4cGlyZXNBdCI6IjE5NzAtMDEtMDJUMDA6MDA6MDBaIiwibW9kdWxlcyI6W119").toList

def sampleSignature : Bytes :=
  ((decodeHex 32 "a43636caa33f6e0e7514dbfa3ec58e7c8759e372a5c17db9025e419c7fcd24ba".toList).bind
    (fun first => (decodeHex 32
      "7db30171508fe62035093d7961d495bae8cf6ea867151dcc444c80c6f1f02b01".toList).map
      (fun second => first ++ second))).getD []

def sampleSignatureText : List Char :=
  "pDY2yqM/bg51FNv6PsWOfIdZ43KlwX25Al5BnH/NJLp9swFxUI/mIDUJPXlh1JW66M9uqGcVHcxETIDG8fArAQ==".toList

def sampleBody : Bytes :=
  ("\x7b\"schemaVersion\":2,\"keyId\":\"".toList ++ sampleKeyId ++ "\",\"payload\":\"".toList ++
    samplePayloadText ++ "\",\"signature\":\"".toList ++ sampleSignatureText ++
    "\"\x7d".toList).map (fun c => UInt8.ofNat c.toNat)

def sampleCrates : Crates Nat where
  parseEnvelope bytes :=
    if bytes = sampleBody then
      some {
        schemaVersion := 2
        keyId := sampleKeyId
        payload := samplePayloadText
        signature := sampleSignatureText }
    else none
  parsePayload bytes :=
    if bytes = samplePayload then
      some {
        schemaVersion := 2
        sequence := 1
        generatedAt := "1970-01-01T00:00:00Z".toList
        expiresAt := "1970-01-02T00:00:00Z".toList
        modules := [] }
    else none
  parseBundled := some { schemaVersion := 2, modules := [] }
  decodeBase64 text :=
    if text = samplePayloadText then some samplePayload
    else if text = sampleSignatureText then some sampleSignature
    else none
  keyFromBytes := some
  signatureFromSlice bytes := if bytes.length = 64 then some bytes else none
  verify _ payload signature := payload = samplePayload && signature = sampleSignature
  digest bytes :=
    ((decodeHex 32 (if bytes = samplePayload then samplePayloadHex else sampleKeyId))).getD []
  parseUrl _ :=
    some {
      scheme := "https".toList
      host := some "kkterm.example".toList
      username := []
      password := none
      path := "/catalog.v2.json".toList
      query := none
      fragment := none
      origin := "https://kkterm.example".toList }
  parseTime text :=
    if text = "1970-01-01T00:00:00Z".toList then some 0
    else if text = "1970-01-02T00:00:00Z".toList then some 86400000000000
    else none
  parseVersion _ := none
  publicKeyHex := sampleKeyHex
  onlineCatalogUrl := "https://kkterm.example/catalog.v2.json".toList

lemma sample_distinct : Set.InjOn sampleCrates.digest sampleCrates.Signed := by
  rintro p ⟨_, _, signed⟩ p' ⟨_, _, signed'⟩ _
  have one := (Bool.and_eq_true_iff.mp signed).1
  have two := (Bool.and_eq_true_iff.mp signed').1
  exact (of_decide_eq_true one).trans (of_decide_eq_true two).symm

def sampleRefresh : Refresh :=
  { now := 0, response := some { contentLength := none, body := sampleBody }, written := true }

def sampleHistory (cache : Option Bytes) : History :=
  { clock := 0, cache }

set_option maxRecDepth 20000 in
lemma sample_refreshed (cache : Option Bytes) (h : cache = none ∨ cache = some sampleBody) :
    run (History.refresh sampleCrates) (sampleHistory cache) [sampleRefresh] =
      some (sampleHistory (some sampleBody)) := by
  rcases h with rfl | rfl <;> decide +kernel

theorem refreshed_twice_keeps_catalog :
    run (History.refresh sampleCrates) (sampleHistory none) [sampleRefresh] =
        some (sampleHistory (some sampleBody)) ∧
      ∀ c, (sampleHistory (some sampleBody)).Cached sampleCrates c →
        ∃ c', (sampleHistory (some sampleBody)).Cached sampleCrates c' ∧
          c.payload.sequence ≤ c'.payload.sequence ∧
          (c.payload.sequence = c'.payload.sequence → c.payload = c'.payload) := by
  have first := sample_refreshed none (.inl rfl)
  have second := sample_refreshed (some sampleBody) (.inr rfl)
  exact And.intro first (catalog_never_rolls_back sample_distinct first second).2.1

end CustomModules
