import KKTerm.Library.Runs
import KKTerm.Secrets.Outcomes

/-!
# The vault under one password

All rows are encrypted under one password, which the sentinel row knows and an unlocked
store holds, and each secret that was stored last is read again.
-/

namespace Secrets

open Effects Option AList Function

/-- A row decrypts exactly under the password and the key it was encrypted with, and keys
have different digests. -/
structure World.Lawful {Key Row : Type} (w : World Key Row) : Prop where
  opens : ∀ n password key secret, w.decrypt password key (w.encrypt n password key secret) =
    .ok secret
  closed : ∀ n password key secret password' key', (password', key') ≠ (password, key) →
    ∃ e, w.decrypt password' key' (w.encrypt n password key secret) = .error e
  injective : Function.Injective w.storageKey

abbrev Memory := SecretReference → Option (List Char)

section Keys

lemma asKey_plain (kind : SecretKind) : ':' ∉ kind.asKey := by
  cases kind <;> decide

lemma asKey_injective : Injective SecretKind.asKey := by
  intro a b same
  cases a <;> cases b <;> first | rfl | exact absurd same (by decide)

lemma key_injective : Injective SecretReference.key := by
  rintro ⟨kind, owner⟩ ⟨kind', owner'⟩ same
  have cut := congrArg (Text.splitOnce ':') same
  rw [SecretReference.key, SecretReference.key, Text.splitOnce_append (asKey_plain _),
    Text.splitOnce_append (asKey_plain _)] at cut
  obtain ⟨sameKind, sameOwner⟩ := Prod.mk.inj (Option.some.inj cut)
  rw [SecretReference.mk.injEq]
  exact ⟨asKey_injective sameKind, sameOwner⟩

lemma key_ne_sentinelKey (r : SecretReference) : r.key ≠ sentinelKey := by
  intro same
  have colon : ':' ∈ r.key := List.mem_append_right _ List.mem_cons_self
  rw [same] at colon
  exact absurd colon (by decide)

end Keys

section Rows
variable {Key Row : Type} [DecidableEq Key] {w : World Key Row}
variable {rows rows' : Rows Key Row} {password : List Char} {memory : Memory}

/-- All rows are under the password, and hold what is remembered. -/
structure Holds (w : World Key Row) (password : List Char) (memory : Memory)
    (rows : Rows Key Row) : Prop where
  written : ∀ k row, rows.lookup k = some row → ∃ n t, row = w.encrypt n password k t
  sentinel : (∃ k, k ∈ rows) → Opened w password rows
  secrets : ∀ r : SecretReference, (rows.lookup (w.storageKey r.key)).map
    (w.decrypt password (w.storageKey r.key)) = (memory r).map .ok

lemma holds_empty (password : List Char) : Holds w password (fun _ => none) ∅ where
  written _ _ found := nomatch found
  sentinel := fun ⟨k, member⟩ => absurd member (notMem_empty k)
  secrets _ := rfl

lemma Opened.mem (opened : Opened w password rows) : w.storageKey sentinelKey ∈ rows := by
  rw [← lookup_isSome]
  cases found : rows.lookup (w.storageKey sentinelKey) with
  | none =>
    rw [Opened, found] at opened
    cases opened
  | some row => rfl

lemma Holds.empty (h : Holds w password memory rows) (absent : w.storageKey sentinelKey ∉ rows) :
    rows = ∅ ∧ memory = fun _ => none := by
  have none_in : ∀ k, k ∉ rows := fun k member => absent (h.sentinel ⟨k, member⟩).mem
  constructor
  · apply AList.ext
    rw [empty_entries, List.eq_nil_iff_forall_not_mem]
    exact fun e member => none_in e.1 (List.mem_keys_of_mem member)
  · funext r
    have held := h.secrets r
    rw [lookup_eq_none.mpr (none_in _)] at held
    exact map_eq_none_iff.mp held.symm

variable (lawful : w.Lawful)
include lawful

lemma Holds.password_eq {password' : List Char} (h : Holds w password memory rows)
    (opened : Opened w password' rows) : password' = password := by
  obtain ⟨row, found, read⟩ := map_eq_some_iff.mp opened
  obtain ⟨n, t, rfl⟩ := h.written _ _ found
  by_contra differ
  obtain ⟨e, closed⟩ := lawful.closed n password (w.storageKey sentinelKey) t password'
    (w.storageKey sentinelKey) (fun same => differ (Prod.mk.inj same).1)
  rw [closed] at read
  cases read

omit [DecidableEq Key] in
lemma lookup_ne {r r' : SecretReference} (differ : r' ≠ r) :
    w.storageKey r'.key ≠ w.storageKey r.key :=
  fun same => differ (key_injective (lawful.injective same))

omit [DecidableEq Key] in
lemma sentinel_ne (r : SecretReference) : w.storageKey r.key ≠ w.storageKey sentinelKey :=
  fun same => key_ne_sentinelKey r (lawful.injective same)

lemma holds_sealed (sealed_ : Sealed w password ∅ rows) :
    Holds w password (fun _ => none) rows := by
  obtain ⟨n, rfl⟩ := sealed_
  refine ⟨?_, ?_, ?_⟩
  · intro k row found
    by_cases same : k = w.storageKey sentinelKey
    · subst same
      rw [lookup_insert] at found
      cases found
      exact ⟨n, _, rfl⟩
    · rw [lookup_insert_ne same] at found
      cases found
  · intro _
    rw [Opened, lookup_insert, map_some, lawful.opens]
  · intro r
    rw [lookup_insert_ne (sentinel_ne lawful r)]
    rfl

lemma Holds.insert (h : Holds w password memory rows) (opened : Opened w password rows)
    (r : SecretReference) (n : Nat) (secret : List Char) :
    Holds w password (update memory r (some secret))
      (rows.insert (w.storageKey r.key) (w.encrypt n password (w.storageKey r.key) secret)) := by
  refine ⟨?_, ?_, ?_⟩
  · intro k row found
    by_cases same : k = w.storageKey r.key
    · subst same
      rw [lookup_insert] at found
      cases found
      exact ⟨n, _, rfl⟩
    · rw [lookup_insert_ne same] at found
      exact h.written k row found
  · intro _
    rw [Opened, lookup_insert_ne (sentinel_ne lawful r).symm]
    exact opened
  · intro r'
    by_cases same : r' = r
    · rw [same, lookup_insert, update_self, map_some, lawful.opens]
      rfl
    · rw [lookup_insert_ne (lookup_ne lawful same), update_of_ne same]
      exact h.secrets r'

lemma Holds.erase (h : Holds w password memory rows) (r : SecretReference) :
    Holds w password (update memory r none) (rows.erase (w.storageKey r.key)) := by
  refine ⟨?_, ?_, ?_⟩
  · intro k row found
    by_cases same : k = w.storageKey r.key
    · rw [same, lookup_erase] at found
      cases found
    · rw [lookup_erase_ne same] at found
      exact h.written k row found
  · rintro ⟨k, member⟩
    rw [Opened, lookup_erase_ne (sentinel_ne lawful r).symm]
    exact h.sentinel ⟨k, (mem_erase.mp member).2⟩
  · intro r'
    by_cases same : r' = r
    · rw [same, lookup_erase, update_self]
      rfl
    · rw [lookup_erase_ne (lookup_ne lawful same), update_of_ne same]
      exact h.secrets r'

/-- After a change of the password the same is read under the new one. -/
lemma Rewritten.map_decrypt {old new : List Char} (rewritten : Rewritten w old new rows rows')
    (k : Key) :
    (rows'.lookup k).map (w.decrypt new k) = (rows.lookup k).map (w.decrypt old k) := by
  cases found : rows.lookup k with
  | none =>
    rw [rewritten.absent k found]
    rfl
  | some row =>
    obtain ⟨t, n, opened, written⟩ := rewritten.written k row found
    rw [written, map_some, map_some, opened, lawful.opens]

lemma Holds.rewritten {new : List Char} (h : Holds w password memory rows)
    (opened : Opened w password rows) (rewritten : Rewritten w password new rows rows') :
    Holds w new memory rows' := by
  refine ⟨?_, ?_, ?_⟩
  · intro k row found
    cases before : rows.lookup k with
    | none =>
      rw [rewritten.absent k before] at found
      cases found
    | some old =>
      obtain ⟨t, n, -, written⟩ := rewritten.written k old before
      rw [written] at found
      cases found
      exact ⟨n, t, rfl⟩
  · intro _
    rw [Opened, rewritten.map_decrypt lawful]
    exact opened
  · intro r
    rw [rewritten.map_decrypt lawful]
    exact h.secrets r

end Rows

def SecretStoreState.isUnlocked (s : SecretStoreState) : Bool :=
  match s.store with
  | some (.sqlite _) => true
  | _ => false

/-- What a secret is remembered as after a call on the table went through. -/
def Memory.keep (memory : Memory) (session : SecretStoreState) (kind : SecretKind)
    (ownerId : List Char) (value : Option (List Char)) : Memory :=
  match session.isUnlocked, SecretReference.new kind ownerId with
  | true, .ok reference => Function.update memory reference value
  | _, _ => memory

section Runs
variable {Key Row : Type} [DecidableEq Key] (w : World Key Row)

/-- The secrets that were stored last. A reset that stopped with an empty table has
removed them. -/
def remember (session : SecretStoreState) (rows : Rows Key Row) (memory : Memory) :
    Operation → Except Message Answer → Memory
  | .configureEncryptedFileStore _ _ true, .ok _ => fun _ => none
  | .configureEncryptedFileStore _ _ true, .error _ =>
    if rows.entries.isEmpty then fun _ => none else memory
  | .storeSecret kind ownerId secret, .ok _ => memory.keep session kind ownerId (some secret)
  | .deleteSecret kind ownerId, .ok _ => memory.keep session kind ownerId none
  | _, _ => memory

structure Traced (Key Row : Type) where
  state : State Key Row
  memory : Memory

def advance (t : Traced Key Row) (op : Operation) : Option (Traced Key Row) :=
  let (result, state) := after (perform w op) t.state
  some { state, memory := remember t.state.session state.rows t.memory op result }

/-- A secret that will be written by an unlocked store: the call is accepted and its two
statements go through. -/
def WillWrite (s : State Key Row) : Operation → Prop
  | .storeSecret kind ownerId secret =>
    s.session.isUnlocked = true ∧ (∃ reference, SecretReference.new kind ownerId = .ok reference) ∧
      secret ≠ [] ∧ w.failure s.tick = none ∧ w.failure (s.tick + 1) = none
  | _ => False

instance decidableAccepted (kind : SecretKind) (ownerId : List Char) :
    Decidable (∃ reference, SecretReference.new kind ownerId = .ok reference) :=
  match SecretReference.new kind ownerId with
  | .ok reference => .isTrue ⟨reference, rfl⟩
  | .error _ => .isFalse (fun ⟨_, accepted⟩ => nomatch accepted)

instance decidableWillWrite (s : State Key Row) : DecidablePred (WillWrite w s)
  | .storeSecret kind ownerId secret => inferInstanceAs (Decidable (s.session.isUnlocked = true ∧
      (∃ reference, SecretReference.new kind ownerId = .ok reference) ∧
      secret ≠ [] ∧ w.failure s.tick = none ∧ w.failure (s.tick + 1) = none))
  | .configureEncryptedFileStore .. | .changeEncryptedFileStorePassword .. | .lockEncryptedFileStore
  | .deleteSecret .. | .readSecret .. => .isFalse id

/-- No secret is written into a table without the sentinel row. -/
def Covered (t : Traced Key Row) (op : Operation) : Prop :=
  WillWrite w t.state op → w.storageKey sentinelKey ∈ t.state.rows

instance decidableCovered (t : Traced Key Row) (op : Operation) : Decidable (Covered w t op) :=
  inferInstanceAs (Decidable (WillWrite w t.state op → w.storageKey sentinelKey ∈ t.state.rows))

/-- Nothing is stored, and no store is unlocked. -/
def Traced.start (tick : Nat) (session : SecretStoreState) : Traced Key Row where
  state := { tick, rows := ∅, session }
  memory := fun _ => none

/-- The invariant. -/
def Whole (t : Traced Key Row) : Prop :=
  ∃ password, Holds w password t.memory t.state.rows ∧
    ∀ store, t.state.session.store = some (.sqlite store) → store = { password, verified := true }

variable {w} {t : Traced Key Row}

lemma Whole.verified (h : Whole w t) : Verified t.state.session := by
  obtain ⟨password, -, held⟩ := h
  intro store live
  rw [held store live]

variable {α : Type} {x : Vault Key Row α} {Q : α → Rows Key Row → SecretStoreState → Prop}
  {E : Rows Key Row → SecretStoreState → Prop} {memory : Memory} {session : SecretStoreState}
  {kind : SecretKind} {ownerId : List Char} {value : Option (List Char)}

omit [DecidableEq Key] in
/-- A call returns or stops, and leaves what is known of either. -/
lemma outcome {s : State Key Row} (h : From s.rows s.session x Q E) :
    (∃ a s', after x s = (.ok a, s') ∧ Q a s'.rows s'.session) ∨
      ∃ e s', after x s = (.error e, s') ∧ E s'.rows s'.session := by
  obtain ⟨returns, stops⟩ := h s ⟨rfl, rfl⟩
  rcases run : after x s with ⟨e | a, s'⟩
  · exact .inr ⟨e, s', rfl, stops e s' run⟩
  · exact .inl ⟨a, s', rfl, returns a s' run⟩

lemma advance_cases {t' : Traced Key Row} {op : Operation} {f : α → Answer}
    (shape : perform w op = f <$> x) (out : From t.state.rows t.state.session x Q E)
    (taken : advance w t op = some t') :
    (∃ a s', after x t.state = (.ok a, s') ∧ Q a s'.rows s'.session ∧
      t' = ⟨s', remember t.state.session s'.rows t.memory op (.ok (f a))⟩) ∨
    ∃ e s', E s'.rows s'.session ∧
      t' = ⟨s', remember t.state.session s'.rows t.memory op (.error e)⟩ := by
  rw [advance, shape, map_eq_pure_bind, after_bind] at taken
  rcases outcome out with ⟨a, s', run, held⟩ | ⟨e, s', run, held⟩
  · rw [run] at taken
    cases taken
    exact .inl ⟨a, s', run, held, rfl⟩
  · rw [run] at taken
    cases taken
    exact .inr ⟨e, s', held, rfl⟩

lemma keep_unlocked {store : SqliteSecretStore} {reference : SecretReference}
    (live : session.store = some (.sqlite store))
    (valid : SecretReference.new kind ownerId = .ok reference) :
    memory.keep session kind ownerId value = update memory reference value := by
  have unlocked : session.isUnlocked = true := by rw [SecretStoreState.isUnlocked, live]
  rw [Memory.keep, unlocked, valid]

lemma keep_locked (other : ∀ store, session.store ≠ some (.sqlite store)) :
    memory.keep session kind ownerId value = memory := by
  have locked : session.isUnlocked = false := by
    rw [SecretStoreState.isUnlocked]
    split
    · rename_i store live
      exact absurd live (other store)
    · rfl
  rw [Memory.keep, locked]

section Calls
variable (lawful : w.Lawful)
include lawful

variable {t' : Traced Key Row} {kind : SecretKind} {ownerId : List Char}

lemma Whole.configure (h : Whole w t) {password : List Char} {create resetExisting : Bool}
    (taken : advance w t (.configureEncryptedFileStore password create resetExisting) = some t') :
    Whole w t' := by
  obtain ⟨p, holds, held⟩ := h
  have unlocks : ∀ store, (unlockedState { password, verified := true }).store =
      some (.sqlite store) → store = { password, verified := true } := by
    rintro store ⟨⟩
    rfl
  rcases advance_cases rfl (from_configure _ _ _) taken with
    ⟨a, s', -, ⟨session, change⟩, rfl⟩ | ⟨e, s', ⟨change, session⟩, rfl⟩
  · refine ⟨password, ?_, session ▸ unlocks⟩
    rcases change with ⟨rfl, written⟩ | ⟨rfl, ⟨same, opened⟩ | ⟨rfl, absent, written⟩⟩
    · exact holds_sealed lawful written
    · obtain rfl := holds.password_eq lawful opened
      exact same ▸ holds
    · obtain ⟨empty, nothing⟩ := holds.empty absent
      rw [empty] at written
      show Holds w password t.memory s'.rows
      rw [nothing]
      exact holds_sealed lawful written
  · refine ⟨p, ?_, session ▸ held⟩
    cases resetExisting with
    | false =>
      rcases change with same | ⟨⟨⟩, -⟩
      exact same ▸ holds
    | true =>
      simp only [remember]
      split
      · rename_i empty
        have none_left : s'.rows = ∅ := AList.ext (List.isEmpty_iff.mp empty)
        rw [none_left]
        exact holds_empty p
      · rename_i some_left
        rcases change with same | ⟨-, empty⟩
        · exact same ▸ holds
        · rw [empty] at some_left
          exact absurd rfl some_left

lemma Whole.changePassword (h : Whole w t) {currentPassword newPassword : List Char}
    (taken : advance w t (.changeEncryptedFileStorePassword currentPassword newPassword) = some t') :
    Whole w t' := by
  obtain ⟨p, holds, held⟩ := h
  rcases advance_cases rfl (from_changePassword _ _) taken with
    ⟨a, s', -, ⟨session, opened, rewritten⟩, rfl⟩ | ⟨e, s', ⟨same, session⟩, rfl⟩
  · obtain rfl := holds.password_eq lawful opened
    refine ⟨newPassword, holds.rewritten lawful opened rewritten, ?_⟩
    intro store live
    rw [session] at live
    cases live
    rfl
  · exact ⟨p, same ▸ holds, session ▸ held⟩

omit lawful in
lemma Whole.lock (h : Whole w t) (taken : advance w t .lockEncryptedFileStore = some t') :
    Whole w t' := by
  obtain ⟨p, holds, held⟩ := h
  rcases advance_cases rfl from_lock taken with
    ⟨a, s', -, ⟨same, session | session⟩, rfl⟩ | ⟨e, s', ⟨same, session⟩, rfl⟩
  · exact ⟨p, same ▸ holds, session ▸ held⟩
  · refine ⟨p, same ▸ holds, ?_⟩
    intro store live
    rw [session] at live
    cases live
  · exact ⟨p, same ▸ holds, session ▸ held⟩

/-- The only step that needs the sentinel row to be there already. -/
lemma Whole.storeSecret (h : Whole w t) {secret : List Char}
    (covered : Covered w t (.storeSecret kind ownerId secret))
    (taken : advance w t (.storeSecret kind ownerId secret) = some t') : Whole w t' := by
  have verified := h.verified
  obtain ⟨p, holds, held⟩ := h
  rcases advance_cases rfl (from_storeSecret verified) taken with
    ⟨⟨⟩, s', ran, ⟨nonempty, session, change⟩, rfl⟩ | ⟨e, s', ⟨same, session⟩, rfl⟩
  · refine ⟨p, ?_, session ▸ held⟩
    rcases change with ⟨other, same⟩ | ⟨store, reference, live, valid, n, written⟩
    · show Holds w p (t.memory.keep _ _ _ _) s'.rows
      rw [keep_locked other, same]
      exact holds
    · show Holds w p (t.memory.keep _ _ _ _) s'.rows
      have unlocked : t.state.session.isUnlocked = true := by rw [SecretStoreState.isUnlocked, live]
      rw [after_storeSecret (verified store live) live valid nonempty] at ran
      obtain ⟨first, second⟩ := writeByKey_returns ran
      have present := covered ⟨unlocked, ⟨reference, valid⟩, nonempty, first, second⟩
      rw [keep_unlocked live valid, written, held store live]
      exact holds.insert lawful (holds.sentinel ⟨_, present⟩) reference n secret
  · exact ⟨p, same ▸ holds, session ▸ held⟩

lemma Whole.deleteSecret (h : Whole w t)
    (taken : advance w t (.deleteSecret kind ownerId) = some t') : Whole w t' := by
  have verified := h.verified
  obtain ⟨p, holds, held⟩ := h
  rcases advance_cases rfl (from_deleteSecret verified) taken with
    ⟨a, s', -, ⟨session, change⟩, rfl⟩ | ⟨e, s', ⟨same, session⟩, rfl⟩
  · refine ⟨p, ?_, session ▸ held⟩
    show Holds w p (t.memory.keep _ _ _ _) s'.rows
    rcases change with ⟨other, same⟩ | ⟨store, reference, live, valid, erased⟩
    · rw [keep_locked other, same]
      exact holds
    · rw [keep_unlocked live valid, erased]
      exact holds.erase lawful reference
  · exact ⟨p, same ▸ holds, session ▸ held⟩

omit lawful in
lemma Whole.readSecret (h : Whole w t) (taken : advance w t (.readSecret kind ownerId) = some t') :
    Whole w t' := by
  have verified := h.verified
  obtain ⟨p, holds, held⟩ := h
  rcases advance_cases rfl (from_readSecret verified) taken with
    ⟨a, s', -, ⟨⟨same, session⟩, -⟩, rfl⟩ | ⟨e, s', ⟨same, session⟩, rfl⟩
  · exact ⟨p, same ▸ holds, session ▸ held⟩
  · exact ⟨p, same ▸ holds, session ▸ held⟩

lemma Whole.advance {op : Operation} (h : Whole w t) (covered : Covered w t op)
    (taken : advance w t op = some t') : Whole w t' := by
  cases op with
  | configureEncryptedFileStore password create resetExisting => exact h.configure lawful taken
  | changeEncryptedFileStorePassword current new => exact h.changePassword lawful taken
  | lockEncryptedFileStore => exact h.lock taken
  | storeSecret kind ownerId secret => exact h.storeSecret lawful covered taken
  | deleteSecret kind ownerId => exact h.deleteSecret lawful taken
  | readSecret kind ownerId => exact h.readSecret taken

end Calls

/-- The vault is under one password, and behaves so. -/
structure Intact (w : World Key Row) (password : List Char) (t : Traced Key Row) : Prop where
  onePassword : ∀ k row, t.state.rows.lookup k = some row →
    ∃ secret, w.decrypt password k row = .ok secret
  sentinel : (∃ k, k ∈ t.state.rows) → w.storageKey sentinelKey ∈ t.state.rows
  unlocked : ∀ store, t.state.session.store = some (.sqlite store) → store.password = password
  /-- Another password does not unlock it. -/
  closed : (∃ k, k ∈ t.state.rows) → ∀ other, other ≠ password →
    (∀ create, ∃ e s', after (configureEncryptedFileStore w other create false) t.state =
      (.error e, s') ∧ s'.session = t.state.session) ∧
    ∀ new, ∃ e s', after (changeEncryptedFileStorePassword w other new) t.state =
      (.error e, s') ∧ s'.session = t.state.session
  /-- What is read is what was stored last, and it is read when no statement fails. -/
  reads : ∀ store kind ownerId reference, t.state.session.store = some (.sqlite store) →
    SecretReference.new kind ownerId = .ok reference →
    (∀ value s', after (readSecret w kind ownerId) t.state = (.ok value, s') →
      value = t.memory reference) ∧
    (w.failure t.state.tick = none → w.failure (t.state.tick + 1) = none →
      ∃ s', after (readSecret w kind ownerId) t.state = (.ok (t.memory reference), s'))
  /-- After a change that failed, the old password opens what it opened before. -/
  keeps : ∀ current new e s', after (changeEncryptedFileStorePassword w current new) t.state =
    (.error e, s') → s'.session = t.state.session ∧ ∀ reference : SecretReference,
      (s'.rows.lookup (w.storageKey reference.key)).map
        (w.decrypt password (w.storageKey reference.key)) = (t.memory reference).map .ok

lemma map_ok_injective {a b : Option (List Char)}
    (same : a.map (Except.ok (ε := Message)) = b.map .ok) : a = b :=
  map_injective (fun _ _ h => Except.ok.inj h) same

lemma Whole.intact (lawful : w.Lawful) (h : Whole w t) : ∃ password, Intact w password t := by
  have verified := h.verified
  obtain ⟨p, holds, held⟩ := h
  refine ⟨p, ?_, fun some_row => (holds.sentinel some_row).mem, ?_, ?_, ?_, ?_⟩
  · intro k row found
    obtain ⟨n, secret, rfl⟩ := holds.written k row found
    exact ⟨secret, lawful.opens n p k secret⟩
  · intro store live
    rw [held store live]
  · intro some_row other differ
    have shut : ¬ Opened w other t.state.rows := fun opened =>
      differ (holds.password_eq lawful opened)
    have there := (holds.sentinel some_row).mem
    constructor
    · intro create
      rcases outcome (s := t.state) (from_configure (w := w) other create false) with
        ⟨a, s', -, -, ⟨⟨⟩, -⟩ | ⟨-, ⟨-, opened⟩ | ⟨-, absent, -⟩⟩⟩ | ⟨e, s', run, -, session⟩
      · exact absurd opened shut
      · exact absurd there absent
      · exact ⟨e, s', run, session⟩
    · intro new
      rcases outcome (s := t.state) (from_changePassword (w := w) other new) with
        ⟨a, s', -, -, opened, -⟩ | ⟨e, s', run, -, session⟩
      · exact absurd opened shut
      · exact ⟨e, s', run, session⟩
  · intro store kind ownerId reference live valid
    have same := held store live
    subst same
    constructor
    · intro value s' run
      obtain ⟨returns, -⟩ := from_readSecret verified t.state ⟨rfl, rfl⟩
      have read := (returns value s' run).2 _ reference live valid
      exact map_ok_injective (read.symm.trans (holds.secrets reference))
    · intro first second
      rw [after_readSecret rfl live valid]
      exact readByKey_returns (holds.secrets reference) first second
  · intro current new e s' run
    obtain ⟨-, stops⟩ := from_changePassword current new t.state ⟨rfl, rfl⟩
    obtain ⟨same, session⟩ := stops e s' run
    refine ⟨session, fun reference => ?_⟩
    rw [same]
    exact holds.secrets reference

lemma whole_start (tick : Nat) {session : SecretStoreState}
    (fresh : ∀ store, session.store ≠ some (.sqlite store)) : Whole w (.start tick session) :=
  ⟨[], holds_empty [], fun store live => absurd live (fresh store)⟩

/-- The vault stays under one password in every run in which each secret that is written
finds the sentinel row. -/
theorem vault_stays_intact (lawful : w.Lawful) {tick : Nat} {session : SecretStoreState}
    (fresh : ∀ store, session.store ≠ some (.sqlite store)) {operations : List Operation}
    (covered : Runs.Along (advance w) (Covered w) (.start tick session) operations)
    (ran : Runs.run (advance w) (.start tick session) operations = some t) :
    ∃ password, Intact w password t := by
  have whole : Whole w t := Runs.along_invariant
    (fun _ _ _ taken covered h => h.advance lawful covered taken) covered ran
    (whole_start tick fresh)
  exact whole.intact lawful

end Runs

section Plain

structure PlainRow where
  password : List Char
  key : List Char
  secret : List Char
  deriving DecidableEq

def plainWorld (failure : Nat → Option Message) : World (List Char) PlainRow where
  dbPath := []
  storageKey := id
  encrypt _ password key secret := { password, key, secret }
  decrypt password key row :=
    if (password, key) = (row.password, row.key) then .ok row.secret else .error []
  keychain _ := .ok none
  failure

lemma plainWorld_lawful (failure : Nat → Option Message) : (plainWorld failure).Lawful where
  opens _ _ _ _ := if_pos rfl
  closed _ _ _ _ _ _ differ := ⟨[], if_neg differ⟩
  injective := injective_id

def firstSession : SecretStoreState where
  store := none
  backend := none
  initError := some "Encrypted SQLite secret store has not been set up".toList
  selectedStore := fileStore

/-- Statement 9 writes the sentinel of the reset. -/
def failingWorld : World (List Char) PlainRow :=
  plainWorld (fun n => if n = 9 then some "disk I/O error".toList else none)

def fullUse : List Operation :=
  [.configureEncryptedFileStore "first".toList true false,
    .storeSecret .aiApiKey " provider ".toList "key".toList,
    .changeEncryptedFileStorePassword "first".toList "second".toList,
    .deleteSecret .aiApiKey "provider".toList]

/-- Statement 9 is the one that fails. -/
theorem vault_stays_intact_in_use :
    ∃ t, Runs.run (advance failingWorld) (.start 0 firstSession) fullUse = some t ∧
      ∃ password, Intact failingWorld password t := by
  have reached :
      (Runs.run (advance failingWorld) (.start 0 firstSession) fullUse).isSome = true := by
    decide +kernel
  obtain ⟨t, ran⟩ := isSome_iff_exists.mp reached
  have fresh : ∀ store, firstSession.store ≠ some (.sqlite store) := fun _ h => nomatch h
  exact ⟨t, ran, vault_stays_intact (plainWorld_lawful _) fresh (by decide +kernel) ran⟩

def rowAt (key : List Char) (t : Traced (List Char) PlainRow) : Option PlainRow :=
  t.state.rows.lookup key

def halfReset : List Operation :=
  [.configureEncryptedFileStore "first".toList true false,
    .configureEncryptedFileStore "second".toList true true,
    .storeSecret .aiApiKey "provider".toList "key".toList,
    .configureEncryptedFileStore "third".toList true false]

/-- The sentinel of the reset is not written, but the store of the first password is still
held and writes a secret; the third password then creates a second sentinel. -/
theorem half_reset_splits_vault :
    failingWorld.Lawful ∧ ∃ t, Runs.run (advance failingWorld) (.start 0 firstSession) halfReset =
      some t ∧ ¬ ∃ password, Intact failingWorld password t := by
  have rows : (Runs.run (advance failingWorld) (.start 0 firstSession) halfReset).map
      (fun t => (rowAt "ai-api-key:provider".toList t, rowAt sentinelKey t)) =
      some (some ⟨"first".toList, "ai-api-key:provider".toList, "key".toList⟩,
        some ⟨"third".toList, sentinelKey, sentinelPlaintext⟩) := by
    decide +kernel
  obtain ⟨t, ran, found⟩ := map_eq_some_iff.mp rows
  obtain ⟨first, third⟩ := Prod.mk.inj found
  refine ⟨plainWorld_lawful _, t, ran, ?_⟩
  rintro ⟨password, intact⟩
  have opened : ∀ {other key secret}, rowAt key t = some ⟨other, key, secret⟩ →
      password = other := by
    intro other key secret there
    obtain ⟨plaintext, opens⟩ := intact.onePassword key _ there
    by_contra differ
    have shut : (password, key) ≠ (other, key) := fun same => differ (Prod.mk.inj same).1
    cases (if_neg shut).symm.trans opens
  have same : "first".toList = "third".toList := (opened first).symm.trans (opened third)
  exact absurd same (by decide)

end Plain

end Secrets
