import KKTerm.Secrets.Operations

/-!
# What each call can do

The rows and the session that a call leaves, whichever of its statements fail.
-/

namespace Secrets

open Effects AList

section Calls
variable {Key Row : Type} {w : World Key Row}
variable {rows : Rows Key Row} {session : SecretStoreState} {α β : Type}

/-- From these rows and this session, what holds of them after a call that returns and
after one that stops. -/
def From (rows : Rows Key Row) (session : SecretStoreState) (x : Vault Key Row α)
    (Q : α → Rows Key Row → SecretStoreState → Prop) (E : Rows Key Row → SecretStoreState → Prop) :
    Prop :=
  Triple (fun s => s.rows = rows ∧ s.session = session) x (fun a s => Q a s.rows s.session)
    (fun _ s => E s.rows s.session)

def Same (rows : Rows Key Row) (session : SecretStoreState) (r : Rows Key Row)
    (s : SecretStoreState) : Prop :=
  r = rows ∧ s = session

/-- The sentinel row is there and the password opens it. -/
def Opened [DecidableEq Key] (w : World Key Row) (password : List Char) (rows : Rows Key Row) :
    Prop :=
  (rows.lookup (w.storageKey sentinelKey)).map (w.decrypt password (w.storageKey sentinelKey)) =
    some (.ok sentinelPlaintext)

/-- A sentinel row for the password was written. -/
def Sealed [DecidableEq Key] (w : World Key Row) (password : List Char) (rows r : Rows Key Row) :
    Prop :=
  ∃ n, r = rows.insert (w.storageKey sentinelKey)
    (w.encrypt n password (w.storageKey sentinelKey) sentinelPlaintext)

variable {Q M : α → Rows Key Row → SecretStoreState → Prop}
  {E E' : Rows Key Row → SecretStoreState → Prop}

lemma from_pure {a : α} (h : Q a rows session) : From rows session (pure a) Q E := by
  apply triple_pure
  rintro s ⟨rfl, rfl⟩
  exact h

lemma from_throw {e : Message} (h : E rows session) : From rows session (throw e) Q E := by
  apply triple_throw
  rintro s ⟨rfl, rfl⟩
  exact h

variable (password : List Char) (key : Key) {x : Vault Key Row α} {store : SqliteSecretStore}
  {s : State Key Row}

lemma from_bind {Q : β → Rows Key Row → SecretStoreState → Prop} {f : α → Vault Key Row β}
    (first : From rows session x M E) (rest : ∀ a r s, M a r s → From r s (f a) Q E) :
    From rows session (x >>= f) Q E := by
  refine triple_bind first (fun a s between => ?_)
  exact rest a s.rows s.session between s ⟨rfl, rfl⟩

lemma from_map {Q : β → Rows Key Row → SecretStoreState → Prop} {f : α → β}
    (h : From rows session x (fun a r s => Q (f a) r s) E) : From rows session (f <$> x) Q E := by
  rw [map_eq_pure_bind]
  exact from_bind h (fun a r s held => from_pure held)

lemma from_weaken {Q' : α → Rows Key Row → SecretStoreState → Prop} (h : From rows session x Q E)
    (returns : ∀ a r s, Q a r s → Q' a r s) (stops : ∀ r s, E r s → E' r s) :
    From rows session x Q' E' :=
  triple_weaken h (fun _ start => start) (fun a s => returns a s.rows s.session)
    (fun _ s => stops s.rows s.session)

lemma from_step {f : State Key Row → Except Message α × State Key Row}
    (h : ∀ s, s.rows = rows → s.session = session →
      (∀ a, (f s).1 = .ok a → Q a (f s).2.rows (f s).2.session) ∧
        ∀ e, (f s).1 = .error e → E (f s).2.rows (f s).2.session) :
    From rows session (step f) Q E := by
  apply triple_step
  · rintro s a s' ⟨atRows, atSession⟩ run
    have here := (h s atRows atSession).1
    rw [run] at here
    exact here a rfl
  · rintro s e s' ⟨atRows, atSession⟩ run
    have here := (h s atRows atSession).2
    rw [run] at here
    exact here e rfl

lemma from_statement (context : Message) (value : Rows Key Row → α)
    (change : Rows Key Row → Rows Key Row) :
    From rows session (statement w context value change)
      (fun a r s => a = value rows ∧ r = change rows ∧ s = session) (Same rows session) := by
  apply from_step
  rintro s rfl rfl
  cases w.failure s.tick with
  | some e => exact ⟨fun _ h => (nomatch h), fun _ _ => ⟨rfl, rfl⟩⟩
  | none =>
    refine ⟨?_, fun _ h => nomatch h⟩
    rintro a ⟨⟩
    exact ⟨rfl, rfl, rfl⟩

lemma from_openConnection :
    From rows session (openConnection w) (fun _ => Same rows session) (Same rows session) :=
  from_weaken (from_statement _ _ _) (fun _ _ _ h => h.2) (fun _ _ h => h)

lemma from_encryptSecret (secret : List Char) :
    From rows session (encryptSecret w password key secret)
      (fun row r s => (∃ n, row = w.encrypt n password key secret) ∧ Same rows session r s) E := by
  apply from_step
  rintro s rfl rfl
  refine ⟨?_, fun _ h => nomatch h⟩
  rintro a ⟨⟩
  exact ⟨⟨s.tick, rfl⟩, rfl, rfl⟩

lemma from_decryptSecret (row : Row) :
    From rows session (decryptSecret w password key row)
      (fun t r s => w.decrypt password key row = .ok t ∧ Same rows session r s)
      (Same rows session) := by
  apply from_step
  rintro s rfl rfl
  exact ⟨fun a h => ⟨h, rfl, rfl⟩, fun _ _ => ⟨rfl, rfl⟩⟩

variable [DecidableEq Key]

lemma from_writeByKey (store : SqliteSecretStore) (key : Key) (secret : List Char) :
    From rows session (writeByKey w store key secret)
      (fun _ r s => (∃ n, r = rows.insert key (w.encrypt n store.password key secret)) ∧ s = session)
      (Same rows session) := by
  refine from_bind from_openConnection ?_
  rintro ⟨⟩ r s ⟨rfl, rfl⟩
  refine from_bind (from_encryptSecret _ _ _) ?_
  rintro row r s ⟨⟨n, rfl⟩, rfl, rfl⟩
  refine from_weaken (from_statement _ _ _) ?_ (fun _ _ h => h)
  rintro ⟨⟩ r s ⟨-, rfl, rfl⟩
  exact ⟨⟨n, rfl⟩, rfl⟩

lemma from_readByKey (store : SqliteSecretStore) (key : Key) :
    From rows session (readByKey w store key)
      (fun a r s => (rows.lookup key).map (w.decrypt store.password key) = a.map .ok ∧
        Same rows session r s) (Same rows session) := by
  refine from_bind from_openConnection ?_
  rintro ⟨⟩ r s ⟨rfl, rfl⟩
  refine from_bind (from_statement _ _ _) ?_
  rintro found r' s ⟨rfl, rfl, rfl⟩
  cases present : lookup key r' with
  | none => exact from_pure ⟨rfl, rfl, rfl⟩
  | some row =>
    refine from_map (from_weaken (from_decryptSecret _ _ _) ?_ (fun _ _ h => h))
    rintro t r s ⟨opened, rfl, rfl⟩
    exact ⟨congrArg some opened, rfl, rfl⟩

lemma from_deleteByKey :
    From rows session (deleteByKey w key) (fun _ r s => r = rows.erase key ∧ s = session)
      (Same rows session) := by
  refine from_bind from_openConnection ?_
  rintro ⟨⟩ r s ⟨rfl, rfl⟩
  exact from_weaken (from_statement _ _ _) (fun _ _ _ h => h.2) (fun _ _ h => h)

lemma from_existsByKey :
    From rows session (existsByKey w key)
      (fun a r s => (a = true ↔ key ∈ rows) ∧ Same rows session r s) (Same rows session) := by
  refine from_bind from_openConnection ?_
  rintro ⟨⟩ r s ⟨rfl, rfl⟩
  refine from_weaken (from_statement _ _ _) ?_ (fun _ _ h => h)
  rintro a r' s ⟨rfl, rfl, rfl⟩
  exact ⟨lookup_isSome, rfl, rfl⟩

omit [DecidableEq Key] in
lemma from_new :
    From rows session (SqliteSecretStore.new password)
      (fun store r s => store = { password, verified := false } ∧ Same rows session r s)
      (Same rows session) := by
  unfold SqliteSecretStore.new
  split
  · exact from_throw ⟨rfl, rfl⟩
  · exact from_pure ⟨rfl, rfl, rfl⟩

/-- Either the sentinel row is opened, or it was missing and is written. -/
lemma from_initializeOrVerify (unverified : store.verified = false) (create : Bool) :
    From rows session (initializeOrVerify w store create)
      (fun store' r s => store' = { store with verified := true } ∧ s = session ∧
        (r = rows ∧ Opened w store.password rows ∨
          create = true ∧ w.storageKey sentinelKey ∉ rows ∧ Sealed w store.password rows r))
      (Same rows session) := by
  unfold initializeOrVerify
  rw [unverified]
  refine from_bind (from_existsByKey _) ?_
  rintro present r s ⟨known, rfl, rfl⟩
  cases present with
  | true =>
    refine from_bind (from_readByKey _ _) ?_
    rintro value r' s ⟨read, rfl, rfl⟩
    cases value with
    | none => exact from_throw ⟨rfl, rfl⟩
    | some plaintext =>
      simp only
      split
      · rename_i same
        rw [same] at read
        exact from_pure ⟨rfl, rfl, .inl ⟨rfl, read⟩⟩
      · exact from_throw ⟨rfl, rfl⟩
  | false =>
    have absent : w.storageKey sentinelKey ∉ r := fun member => Bool.false_ne_true (known.mpr member)
    cases create with
    | false => exact from_throw ⟨rfl, rfl⟩
    | true =>
      refine from_bind (from_writeByKey _ _ _) ?_
      rintro ⟨⟩ r' s ⟨⟨n, written⟩, rfl⟩
      exact from_pure ⟨rfl, rfl, .inr ⟨rfl, absent, n, written⟩⟩

lemma initializeOrVerify_verified (verified : store.verified = true) (create : Bool) :
    initializeOrVerify w store create = pure store := by
  unfold initializeOrVerify
  rw [verified]
  rfl

lemma from_reset (store : SqliteSecretStore) :
    From rows session (reset w store)
      (fun store' r s => store' = { store with verified := true } ∧ s = session ∧
        Sealed w store.password ∅ r)
      (fun r s => (r = rows ∨ r = ∅) ∧ s = session) := by
  refine from_bind (from_weaken from_openConnection (fun _ _ _ h => h)
    (fun _ _ h => ⟨.inl h.1, h.2⟩)) ?_
  rintro ⟨⟩ r s ⟨rfl, rfl⟩
  refine from_bind (from_weaken (from_statement _ _ _) (fun _ _ _ h => h.2)
    (fun _ _ h => ⟨.inl h.1, h.2⟩)) ?_
  rintro ⟨⟩ r' s ⟨rfl, rfl⟩
  refine from_bind (from_weaken (from_writeByKey _ _ _) (fun _ _ _ h => h)
    (fun _ _ h => ⟨.inr h.1, h.2⟩)) ?_
  rintro ⟨⟩ r' s ⟨written, rfl⟩
  exact from_pure ⟨rfl, rfl, written⟩

variable (old new : List Char) {reference : SecretReference} {s' : State Key Row}

lemma from_rotateRow (table : Rows Key Row) (e : Sigma fun _ : Key => Row) :
    From rows session (rotateRow w old new table e)
      (fun table' r s => Same rows session r s ∧ ∃ t n, w.decrypt old e.1 e.2 = .ok t ∧
        table' = if e.1 ∈ table then table.insert e.1 (w.encrypt n new e.1 t) else table)
      (Same rows session) := by
  refine from_bind (from_decryptSecret _ _ _) ?_
  rintro t r s ⟨opened, rfl, rfl⟩
  refine from_bind (from_encryptSecret _ _ _) ?_
  rintro row r s ⟨⟨n, rfl⟩, rfl, rfl⟩
  refine from_bind (from_statement _ _ _) ?_
  rintro ⟨⟩ r s ⟨-, rfl, rfl⟩
  exact from_pure ⟨⟨rfl, rfl⟩, t, n, opened, rfl⟩

/-- Each row is written anew; the induction is on the rows that are left. -/
lemma from_rotateRows {l : List (Sigma fun _ : Key => Row)} (nodup : l.NodupKeys)
    {table : Rows Key Row} (present : ∀ e ∈ l, e.1 ∈ table) :
    From rows session (l.foldlM (rotateRow w old new) table)
      (fun table' r s => Same rows session r s ∧
        (∀ k, k ∉ l.keys → table'.lookup k = table.lookup k) ∧
        ∀ e ∈ l, ∃ t n, w.decrypt old e.1 e.2 = .ok t ∧
          table'.lookup e.1 = some (w.encrypt n new e.1 t))
      (Same rows session) := by
  induction l generalizing table with
  | nil => exact from_pure ⟨⟨rfl, rfl⟩, fun _ _ => rfl, fun _ h => nomatch h⟩
  | cons e l ih =>
    obtain ⟨fresh, nodup⟩ := List.nodupKeys_cons.mp nodup
    obtain ⟨here, later⟩ := List.forall_mem_cons.mp present
    rw [List.foldlM_cons]
    refine from_bind (from_rotateRow _ _ _ _) ?_
    rintro table₁ r s ⟨⟨rfl, rfl⟩, t, n, opened, rfl⟩
    rw [if_pos here]
    have kept : ∀ f ∈ l, f.1 ∈ insert e.1 (w.encrypt n new e.1 t) table :=
      fun f member => (mem_insert _).mpr (.inr (later f member))
    refine from_weaken (ih nodup kept) ?_ (fun _ _ h => h)
    rintro table' r' s ⟨⟨rfl, rfl⟩, others, all⟩
    refine ⟨⟨rfl, rfl⟩, ?_, List.forall_mem_cons.mpr ⟨⟨t, n, opened, ?_⟩, all⟩⟩
    · intro k outside
      obtain ⟨differ, outside⟩ := List.ne_and_not_mem_of_not_mem_cons outside
      rw [others k outside, lookup_insert_ne differ]
    · rw [others e.1 fresh, lookup_insert]

/-- Each row was opened with the old password and written under the new one. -/
structure Rewritten (w : World Key Row) (old new : List Char) (rows r : Rows Key Row) : Prop where
  absent : ∀ k, rows.lookup k = none → r.lookup k = none
  written : ∀ k row, rows.lookup k = some row → ∃ t n, w.decrypt old k row = .ok t ∧
    r.lookup k = some (w.encrypt n new k t)

/-- The password that is left opens each row to what the old one opened it to. -/
lemma from_rotatePassword (unverified : store.verified = false) (newPassword : List Char) :
    From rows session (rotatePassword w store newPassword)
      (fun store' r s => store' = { password := newPassword, verified := true } ∧ s = session ∧
        Opened w store.password rows ∧ Rewritten w store.password newPassword rows r)
      (Same rows session) := by
  refine from_bind (from_initializeOrVerify unverified false) ?_
  rintro store' r s ⟨rfl, rfl, ⟨rfl, opened⟩ | ⟨⟨⟩, -⟩⟩
  refine from_bind (from_new newPassword) ?_
  rintro replacement r s ⟨rfl, rfl, rfl⟩
  refine from_bind from_openConnection ?_
  rintro ⟨⟩ r s ⟨rfl, rfl⟩
  refine from_bind (from_statement _ _ _) ?_
  rintro ⟨⟩ r s ⟨-, rfl, rfl⟩
  refine from_bind (from_statement _ _ _) ?_
  rintro snapshot r s ⟨rfl, rfl, rfl⟩
  have present : ∀ e ∈ r.entries, e.1 ∈ r := fun e member => List.mem_keys_of_mem member
  refine from_bind (from_rotateRows _ _ r.nodupKeys present) ?_
  rintro table r' s ⟨⟨rfl, rfl⟩, others, all⟩
  refine from_bind (from_statement _ _ _) ?_
  rintro ⟨⟩ r s ⟨-, rfl, rfl⟩
  refine from_pure ⟨rfl, rfl, opened, ⟨?_, ?_⟩⟩
  · intro k absent
    exact (others k (lookup_eq_none.mp absent)).trans absent
  · intro k row found
    exact all ⟨k, row⟩ (mem_lookup_iff.mp found)

omit [DecidableEq Key] in
lemma from_getSession :
    From rows session (getSession : Vault Key Row SecretStoreState)
      (fun a r s => a = session ∧ Same rows session r s) E := by
  apply from_step
  rintro s rfl rfl
  refine ⟨?_, fun _ h => nomatch h⟩
  rintro a ⟨⟩
  exact ⟨rfl, rfl, rfl⟩

omit [DecidableEq Key] in
lemma from_setSession (f : SecretStoreState → SecretStoreState) :
    From rows session (setSession f : Vault Key Row Unit) (fun _ => Same rows (f session)) E := by
  apply from_step
  rintro s rfl rfl
  exact ⟨fun _ _ => ⟨rfl, rfl⟩, fun _ h => nomatch h⟩

omit [DecidableEq Key] in
lemma from_checked {x : Except Message α} :
    From rows session (checked x) (fun a r s => x = .ok a ∧ Same rows session r s)
      (Same rows session) := by
  apply from_step
  rintro s rfl rfl
  exact ⟨fun a h => ⟨h, rfl, rfl⟩, fun _ _ => ⟨rfl, rfl⟩⟩

/-- A query that fails counts as a store that does not exist. -/
lemma from_storeExists : From rows session (storeExists w) (fun _ => Same rows session) E := by
  refine triple_tryCatch (from_weaken (from_existsByKey _) (fun _ _ _ h => h.2) (fun _ _ h => h)) ?_
  intro e
  show From rows session (pure false) (fun _ => Same rows session) E
  exact from_pure ⟨rfl, rfl⟩

lemma from_status : From rows session (status w) (fun _ => Same rows session) E := by
  refine from_bind from_getSession ?_
  rintro read r s ⟨-, rfl, rfl⟩
  refine from_bind from_storeExists ?_
  rintro found r s ⟨rfl, rfl⟩
  exact from_pure ⟨rfl, rfl⟩

lemma from_credentialSecretStoreStatus :
    From rows session (credentialSecretStoreStatus w) (fun _ => Same rows session) E := by
  refine from_bind from_getSession ?_
  rintro read r s ⟨-, rfl, rfl⟩
  refine from_bind from_storeExists ?_
  rintro found r s ⟨rfl, rfl⟩
  exact from_pure ⟨rfl, rfl⟩

lemma from_configure (create resetExisting : Bool) :
    From rows session (configureEncryptedFileStore w password create resetExisting)
      (fun _ r s => s = unlockedState { password, verified := true } ∧
        (resetExisting = true ∧ Sealed w password ∅ r ∨
          resetExisting = false ∧ (r = rows ∧ Opened w password rows ∨
            create = true ∧ w.storageKey sentinelKey ∉ rows ∧ Sealed w password rows r)))
      (fun r s => (r = rows ∨ resetExisting = true ∧ r = ∅) ∧ s = session) := by
  refine from_bind (from_weaken (from_new password) (fun _ _ _ h => h)
    (fun _ _ h => ⟨.inl h.1, h.2⟩)) ?_
  rintro store r s ⟨rfl, rfl, rfl⟩
  have finish : ∀ (r' : Rows Key Row) (store : SqliteSecretStore), From r' s
      (do setSession (fun _ => unlockedState store); status w)
      (fun _ => Same r' (unlockedState store))
      (fun r₁ s₁ => (r₁ = r ∨ resetExisting = true ∧ r₁ = ∅) ∧ s₁ = s) := by
    intro r' store
    refine from_bind (from_setSession _) ?_
    rintro ⟨⟩ r₁ s₁ ⟨rfl, rfl⟩
    exact from_status
  cases resetExisting with
  | true =>
    refine from_bind (from_weaken (from_reset _) (fun _ _ _ h => h)
      (fun _ _ h => ⟨h.1.imp_right (fun empty => ⟨rfl, empty⟩), h.2⟩)) ?_
    rintro store r' s' ⟨rfl, rfl, written⟩
    refine from_weaken (finish _ _) ?_ (fun _ _ h => h)
    rintro _ r₁ s₁ ⟨rfl, rfl⟩
    exact ⟨rfl, .inl ⟨rfl, written⟩⟩
  | false =>
    refine from_bind (from_weaken (from_initializeOrVerify rfl create) (fun _ _ _ h => h)
      (fun _ _ h => ⟨.inl h.1, h.2⟩)) ?_
    rintro store r' s' ⟨rfl, rfl, known⟩
    refine from_weaken (finish _ _) ?_ (fun _ _ h => h)
    rintro _ r₁ s₁ ⟨rfl, rfl⟩
    exact ⟨rfl, .inr ⟨rfl, known⟩⟩

lemma from_changePassword (currentPassword newPassword : List Char) :
    From rows session (changeEncryptedFileStorePassword w currentPassword newPassword)
      (fun _ r s => s = unlockedState { password := newPassword, verified := true } ∧
        Opened w currentPassword rows ∧ Rewritten w currentPassword newPassword rows r)
      (Same rows session) := by
  refine from_bind (from_new currentPassword) ?_
  rintro store r s ⟨rfl, rfl, rfl⟩
  refine from_bind (from_rotatePassword rfl newPassword) ?_
  rintro store r' s' ⟨rfl, rfl, opened, rewritten⟩
  refine from_bind (from_setSession _) ?_
  rintro ⟨⟩ r₁ s₁ ⟨rfl, rfl⟩
  refine from_weaken from_status ?_ (fun _ _ h => h)
  rintro _ r₁ s₁ ⟨rfl, rfl⟩
  exact ⟨rfl, opened, rewritten⟩

lemma from_lock :
    From rows session (lockEncryptedFileStore w)
      (fun _ r s => r = rows ∧ (s = session ∨ s = lockedState)) (Same rows session) := by
  refine from_bind (from_setSession _) ?_
  rintro ⟨⟩ r s ⟨rfl, rfl⟩
  refine from_weaken from_credentialSecretStoreStatus ?_ (fun _ _ h => h)
  rintro _ r s ⟨rfl, rfl⟩
  refine ⟨rfl, ?_⟩
  split
  · exact .inr rfl
  · exact .inl rfl

/-- A store that is held has been verified. -/
def Verified (session : SecretStoreState) : Prop :=
  ∀ store, session.store = some (.sqlite store) → store.verified = true

omit [DecidableEq Key] in
lemma from_withStore_none (locked : session.store = none) (operation : LiveStore → Vault Key Row α) :
    From rows session (withStore operation) Q (Same rows session) := by
  refine from_bind from_getSession ?_
  rintro read r s ⟨rfl, rfl, rfl⟩
  rw [locked]
  exact from_throw ⟨rfl, rfl⟩

omit [DecidableEq Key] in
lemma from_withStore_some {store : LiveStore} (live : session.store = some store)
    {operation : LiveStore → Vault Key Row α} (h : From rows session (operation store) Q E) :
    From rows session (withStore operation) Q E := by
  refine from_bind from_getSession ?_
  rintro read r s ⟨rfl, rfl, rfl⟩
  rw [live]
  exact h

omit [DecidableEq Key] in
lemma from_keychainCall :
    From rows session (keychainCall w) (fun _ => Same rows session) (Same rows session) := by
  apply from_step
  rintro s rfl rfl
  exact ⟨fun _ _ => ⟨rfl, rfl⟩, fun _ _ => ⟨rfl, rfl⟩⟩

lemma from_verifyLive (verified : Verified session) (live : session.store = some (.sqlite store)) :
    From rows session (verifyLive w store) (fun _ => Same rows session) (Same rows session) := by
  rw [verifyLive, initializeOrVerify_verified (verified store live)]
  refine from_bind (from_pure (Q := fun a r s => a = store ∧ Same rows session r s) ⟨rfl, rfl, rfl⟩) ?_
  rintro a r s ⟨rfl, rfl, rfl⟩
  refine from_weaken (from_setSession _) ?_ (fun _ _ h => h)
  rintro ⟨⟩ r' s' ⟨rfl, rfl⟩
  refine ⟨rfl, ?_⟩
  rw [← live]

omit [DecidableEq Key] in
/-- An access either goes to the table of the store that is held, or leaves it alone. -/
lemma from_access {kind : SecretKind} {ownerId : List Char} (verified : Verified session)
    {operation : SecretReference → LiveStore → Vault Key Row α}
    (keyring : ∀ reference, From rows session (operation reference .keyring)
      (fun _ => Same rows session) (Same rows session))
    (sqlite : ∀ reference store, session.store = some (.sqlite store) →
      SecretReference.new kind ownerId = .ok reference →
      From rows session (operation reference (.sqlite store)) Q (Same rows session))
    (other : ∀ a, (∀ store, session.store ≠ some (.sqlite store)) → Q a rows session) :
    From rows session (do
        let reference ← checked (SecretReference.new kind ownerId)
        withStore (operation reference)) Q (Same rows session) := by
  refine from_bind from_checked ?_
  rintro reference r s ⟨valid, rfl, rfl⟩
  cases live : s.store with
  | none => exact from_withStore_none live _
  | some store =>
    refine from_withStore_some live ?_
    cases store with
    | keyring =>
      refine from_weaken (keyring reference) ?_ (fun _ _ h => h)
      rintro a r' s' ⟨rfl, rfl⟩
      apply other
      intro store held
      rw [live] at held
      cases held
    | sqlite store => exact sqlite reference store live valid

variable {kind : SecretKind} {ownerId secret : List Char}

/-- The table is that of a store with this reference, and has been changed. -/
def Accessed (kind : SecretKind) (ownerId : List Char) (rows : Rows Key Row)
    (session : SecretStoreState)
    (changed : SqliteSecretStore → SecretReference → Rows Key Row → Prop) (r : Rows Key Row)
    (s : SecretStoreState) : Prop :=
  s = session ∧ ((∀ store, session.store ≠ some (.sqlite store)) ∧ r = rows ∨
    ∃ store reference, session.store = some (.sqlite store) ∧
      SecretReference.new kind ownerId = .ok reference ∧ changed store reference r)

lemma from_storeSecret (verified : Verified session) :
    From rows session (storeSecret w kind ownerId secret)
      (fun _ r s => secret ≠ [] ∧ Accessed kind ownerId rows session (fun store reference r =>
        ∃ n, r = rows.insert (w.storageKey reference.key)
          (w.encrypt n store.password (w.storageKey reference.key) secret)) r s)
      (Same rows session) := by
  unfold storeSecret
  by_cases empty : secret = []
  · simp only [empty, if_true]
    refine from_bind from_checked ?_
    rintro reference r s ⟨-, rfl, rfl⟩
    exact from_throw ⟨rfl, rfl⟩
  · simp only [empty, if_false]
    refine from_access verified ?_ ?_ (fun _ other => ⟨empty, rfl, .inl ⟨other, rfl⟩⟩)
    · intro reference
      refine from_bind from_keychainCall ?_
      rintro _ r s ⟨rfl, rfl⟩
      exact from_pure ⟨rfl, rfl⟩
    · intro reference store live valid
      refine from_bind (from_verifyLive verified live) ?_
      rintro ⟨⟩ r s ⟨rfl, rfl⟩
      refine from_weaken (from_writeByKey _ _ _) ?_ (fun _ _ h => h)
      rintro ⟨⟩ r' s' ⟨written, rfl⟩
      exact ⟨empty, rfl, .inr ⟨store, reference, live, valid, written⟩⟩

lemma from_deleteSecret (verified : Verified session) :
    From rows session (deleteSecret w kind ownerId)
      (fun _ => Accessed kind ownerId rows session (fun _ reference r =>
        r = rows.erase (w.storageKey reference.key)))
      (Same rows session) := by
  refine from_access verified ?_ ?_ (fun _ other => ⟨rfl, .inl ⟨other, rfl⟩⟩)
  · intro reference
    refine from_bind from_keychainCall ?_
    rintro _ r s ⟨rfl, rfl⟩
    exact from_pure ⟨rfl, rfl⟩
  · intro reference store live valid
    refine from_bind (from_verifyLive verified live) ?_
    rintro ⟨⟩ r s ⟨rfl, rfl⟩
    refine from_weaken (from_deleteByKey _) ?_ (fun _ _ h => h)
    rintro ⟨⟩ r' s' ⟨erased, rfl⟩
    exact ⟨rfl, .inr ⟨store, reference, live, valid, erased⟩⟩

lemma from_readSecret (verified : Verified session) :
    From rows session (readSecret w kind ownerId)
      (fun a r s => Same rows session r s ∧ ∀ store reference,
        session.store = some (.sqlite store) → SecretReference.new kind ownerId = .ok reference →
        (rows.lookup (w.storageKey reference.key)).map
          (w.decrypt store.password (w.storageKey reference.key)) = a.map .ok)
      (Same rows session) := by
  refine from_access verified (fun _ => from_keychainCall) ?_
    (fun _ other => ⟨⟨rfl, rfl⟩, fun store _ live => absurd live (other store)⟩)
  intro reference store live valid
  refine from_bind (from_verifyLive verified live) ?_
  rintro ⟨⟩ r s ⟨rfl, rfl⟩
  refine from_weaken (from_readByKey _ _) ?_ (fun _ _ h => h)
  rintro a r' s' ⟨read, rfl, rfl⟩
  refine ⟨⟨rfl, rfl⟩, ?_⟩
  intro store' reference' live' valid'
  rw [live] at live'
  rw [valid] at valid'
  cases live'
  cases valid'
  exact read

omit [DecidableEq Key] in
lemma after_withStore {store : LiveStore} (live : s.session.store = some store)
    (operation : LiveStore → Vault Key Row α) :
    after (withStore operation) s = after (operation store) s := by
  rw [withStore, after_bind, getSession, after_step]
  simp only [live]

section
variable (verified : store.verified = true)
include verified

section
variable (live : s.session.store = some (.sqlite store))
include live

lemma after_verifyLive (x : Vault Key Row α) :
    after (do verifyLive w store; x) s = after x s := by
  have same : { s with session := { s.session with store := some (.sqlite store) } } = s := by
    rw [← live]
  rw [after_bind, verifyLive, initializeOrVerify_verified verified, after_bind, after_pure]
  simp only [setSession, after_step, same]

lemma after_storeSecret

    (valid : SecretReference.new kind ownerId = .ok reference) (nonempty : secret ≠ []) :
    after (storeSecret w kind ownerId secret) s =
      after (writeByKey w store (w.storageKey reference.key) secret) s := by
  rw [storeSecret, after_bind, checked, after_step, valid]
  simp only [nonempty, if_false]
  rw [after_withStore live, LiveStore.write, after_verifyLive verified live]

lemma after_readSecret

    (valid : SecretReference.new kind ownerId = .ok reference) :
    after (readSecret w kind ownerId) s =
      after (readByKey w store (w.storageKey reference.key)) s := by
  rw [readSecret, after_bind, checked, after_step, valid]
  simp only
  rw [after_withStore live, LiveStore.read, after_verifyLive verified live]

end

end

omit [DecidableEq Key] in
lemma statement_returns {context : Message} {value : Rows Key Row → α}
    {change : Rows Key Row → Rows Key Row} {a : α}
    (ran : after (statement w context value change) s = (.ok a, s')) :
    w.failure s.tick = none ∧ s'.tick = s.tick + 1 := by
  rw [statement, after_step] at ran
  cases fails : w.failure s.tick with
  | some e =>
    rw [fails] at ran
    cases ran
  | none =>
    rw [fails] at ran
    cases ran
    exact ⟨rfl, rfl⟩

/-- Both statements of a write went through when it returns. -/
lemma writeByKey_returns {key : Key}
    (ran : after (writeByKey w store key secret) s = (.ok (), s')) :
    w.failure s.tick = none ∧ w.failure (s.tick + 1) = none := by
  rw [writeByKey, after_bind] at ran
  rcases opened : after (openConnection w) s with ⟨_ | ⟨⟩, s₁⟩
  · rw [opened] at ran
    cases ran
  · obtain ⟨first, later⟩ := statement_returns opened
    rw [opened] at ran
    simp only [after_bind, encryptSecret, after_step] at ran
    have second := (statement_returns ran).1
    rw [later] at second
    exact ⟨first, second⟩

/-- A read whose statements go through stops only where the row is not opened. -/
lemma readByKey_returns {key : Key} {a : Option (List Char)}
    (opens : (s.rows.lookup key).map (w.decrypt store.password key) = a.map .ok)
    (first : w.failure s.tick = none) (second : w.failure (s.tick + 1) = none) :
    ∃ s', after (readByKey w store key) s = (.ok a, s') := by
  rw [readByKey, after_bind, openConnection, statement, after_step, first]
  simp only
  rw [after_bind, query, statement, after_step, second]
  simp only [id]
  cases found : s.rows.lookup key with
  | none =>
    rw [found] at opens
    cases a with
    | none => exact ⟨_, rfl⟩
    | some t => cases opens
  | some row =>
    rw [found] at opens
    cases a with
    | none => cases opens
    | some t =>
      have opened := Option.some.inj opens
      refine ⟨{ s with tick := s.tick + 1 + 1 }, ?_⟩
      simp only [map_eq_pure_bind, after_bind, decryptSecret, after_step, opened]
      rfl

end Calls

end Secrets
