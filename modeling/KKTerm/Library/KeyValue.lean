import Mathlib.Data.List.AList

/-!
# Bulk changes to a key-value store

A store has one value a key at most. A loop over its keys or over the rows of
another store changes each key by the row of that key alone, so what it leaves
at a key is said without the loop.
-/

namespace KeyValue

open AList hiding keys
open List

universe u v w
variable {α : Type u} {β : Type v} {δ : Type w} [DecidableEq α]

/-- A loop over rows of distinct keys does to one key what its row does. -/
lemma foldl_of_keys {k : α} {f : δ → (_ : α) × β → δ} (other : ∀ d r, r.1 ≠ k → f d r = d)
    {rows : List ((_ : α) × β)} (distinct : rows.NodupKeys) (d : δ) :
    rows.foldl f d = (rows.dlookup k).elim d (fun v => f d ⟨k, v⟩) := by
  induction rows generalizing d with
  | nil => rfl
  | cons r rest ih =>
    have later := nodupKeys_of_nodupKeys_cons distinct
    rw [foldl_cons, ih later]
    by_cases same : r.1 = k
    · obtain ⟨key, value⟩ := r
      subst same
      have absent := dlookup_eq_none.mpr (notMem_keys_of_nodupKeys_cons distinct)
      rw [dlookup_cons_eq, absent]
      rfl
    · rw [other d r same, dlookup_cons_ne rest r (Ne.symm same)]

lemma dlookup_filter (p : (_ : α) × β → Bool) {rows : List ((_ : α) × β)}
    (distinct : rows.NodupKeys) (k : α) :
    (rows.filter p).dlookup k = (rows.dlookup k).filter (fun v => p ⟨k, v⟩) := by
  induction rows with
  | nil => rfl
  | cons r rest ih =>
    obtain ⟨key, value⟩ := r
    have absent := dlookup_eq_none.mpr (notMem_keys_of_nodupKeys_cons distinct)
    specialize ih (nodupKeys_of_nodupKeys_cons distinct)
    by_cases same : k = key
    · subst same
      rw [absent] at ih
      rw [dlookup_cons_eq, Option.filter_some]
      by_cases kept : p ⟨k, value⟩ = true
      · rw [filter_cons_of_pos kept, dlookup_cons_eq, if_pos kept]
      · rw [filter_cons_of_neg kept, ih, if_neg kept]
        rfl
    · rw [dlookup_cons_ne _ _ same]
      by_cases kept : p ⟨key, value⟩ = true
      · rw [filter_cons_of_pos kept, dlookup_cons_ne _ _ same, ih]
      · rw [filter_cons_of_neg kept, ih]

/-- A loop that changes a store at the key of each row in turn. -/
lemma lookup_foldl_rows {g : α → Option β → β → Option β}
    {f : AList (fun _ : α => β) → (_ : α) × β → AList (fun _ : α => β)}
    (own : ∀ s r, (f s r).lookup r.1 = g r.1 (s.lookup r.1) r.2)
    (other : ∀ s r k, k ≠ r.1 → (f s r).lookup k = s.lookup k)
    (rows s : AList (fun _ : α => β)) (k : α) :
    (rows.entries.foldl f s).lookup k =
      (rows.lookup k).elim (s.lookup k) (g k (s.lookup k)) := by
  have loop : (rows.entries.foldl f s).lookup k =
      rows.entries.foldl (fun held r => if r.1 = k then g k held r.2 else held) (s.lookup k) := by
    refine (foldl_hom (AList.lookup k) ?_).symm
    intro s r
    by_cases same : r.1 = k
    · subst same
      rw [if_pos rfl, own]
    · rw [if_neg same, other s r k (Ne.symm same)]
  rw [loop, foldl_of_keys (k := k) (fun held r differ => if_neg differ) rows.nodupKeys]
  simp only [if_true]
  rfl

variable (keep : α → Bool) (s : AList (fun _ : α => β))

/-- Remove every key of a kind, one after the other. -/
def eraseWhere : AList (fun _ : α => β) :=
  (s.keys.filter keep).foldl (fun s k => s.erase k) s

lemma lookup_foldl_erase (keys : List α) (k : α) :
    (keys.foldl (fun s k => s.erase k) s).lookup k = if k ∈ keys then none else s.lookup k := by
  induction keys generalizing s with
  | nil => rfl
  | cons first rest ih =>
    rw [foldl_cons, ih]
    by_cases same : k = first
    · subst same
      rw [lookup_erase, ite_self, if_pos mem_cons_self]
    · rw [lookup_erase_ne same]
      simp only [mem_cons, same, false_or]

lemma lookup_eraseWhere (k : α) :
    (eraseWhere keep s).lookup k = if keep k then none else s.lookup k := by
  rw [eraseWhere, lookup_foldl_erase]
  by_cases kept : keep k = true
  · by_cases held : k ∈ s.keys
    · rw [if_pos (mem_filter.mpr ⟨held, kept⟩), if_pos kept]
    · have absent := lookup_eq_none.mpr (fun member => held (AList.mem_keys.mp member))
      rw [absent, ite_self, ite_self]
  · rw [if_neg (fun member => kept (mem_filter.mp member).2), if_neg kept]

lemma mem_of_mem_eraseWhere {k : α} (member : k ∈ eraseWhere keep s) : k ∈ s := by
  rw [← lookup_isSome, lookup_eraseWhere] at member
  split at member
  · cases member
  · exact lookup_isSome.mp member

variable (rows : AList (fun _ : α => β))

/-- Write every row of a kind over what the store holds. -/
def insertWhere : AList (fun _ : α => β) :=
  rows.entries.foldl (fun s r => if keep r.1 then s.insert r.1 r.2 else s) s

/-- Write every row of a kind whose key the store lacks. -/
def insertMissing : AList (fun _ : α => β) :=
  rows.entries.foldl
    (fun s r => if keep r.1 ∧ s.lookup r.1 = none then s.insert r.1 r.2 else s) s

lemma lookup_insertWhere (k : α) :
    (insertWhere keep s rows).lookup k =
      if keep k then (rows.lookup k).or (s.lookup k) else s.lookup k := by
  let written (key : α) (held : Option β) (value : β) := if keep key then some value else held
  have own : ∀ (s : AList (fun _ : α => β)) (r : (_ : α) × β),
      (if keep r.1 then s.insert r.1 r.2 else s).lookup r.1 =
        written r.1 (s.lookup r.1) r.2 := by
    intro s r
    by_cases kept : keep r.1 = true
    · simp only [written, if_pos kept, lookup_insert]
    · simp only [written, if_neg kept]
  rw [insertWhere, lookup_foldl_rows own]
  · by_cases kept : keep k = true
    · cases rows.lookup k <;> simp [written, kept]
    · cases rows.lookup k <;> simp [written, kept]
  · intro s r k differ
    by_cases kept : keep r.1 = true
    · rw [if_pos kept, lookup_insert_ne differ]
    · rw [if_neg kept]

lemma lookup_insertMissing (k : α) :
    (insertMissing keep s rows).lookup k =
      if keep k then (s.lookup k).or (rows.lookup k) else s.lookup k := by
  let written (key : α) (held : Option β) (value : β) :=
    if keep key then held.or (some value) else held
  have own : ∀ (s : AList (fun _ : α => β)) (r : (_ : α) × β),
      (if keep r.1 ∧ s.lookup r.1 = none then s.insert r.1 r.2 else s).lookup r.1 =
        written r.1 (s.lookup r.1) r.2 := by
    intro s r
    by_cases kept : keep r.1 = true
    · cases held : s.lookup r.1 <;> simp [written, kept, held]
    · simp [written, kept]
  rw [insertMissing, lookup_foldl_rows own]
  · by_cases kept : keep k = true
    · cases rows.lookup k <;> simp [written, kept]
    · cases rows.lookup k <;> simp [written, kept]
  · intro s r k differ
    by_cases taken : keep r.1 = true ∧ s.lookup r.1 = none
    · rw [if_pos taken, lookup_insert_ne differ]
    · rw [if_neg taken]

end KeyValue
