import Mathlib.Data.List.Basic

/-!
# Maps and errors

Three kinds of map cross the modelled code: serde_json's `Map` inside the `ui` document,
the two `BTreeMap`s of `BackupMetadata`, and the `HashMap` behind the notification cache.
The code only looks a key up, inserts under a key and removes a key, so all three are
modelled by one type: a map is the list of its entries.  `Map.insert` replaces the entry
of a key in place and appends a new key at the end, so a map built by `insert` from `[]`
never holds a key twice.  Entry order plays no part in any statement of the
development: every property is phrased through `Map.get?` and `Map.keys`.

`Error` is `crate::Error` with the two fields the modelled code sets, its kind and, where
the code writes one, its message.  A failure passed up from a collaborator (Postgres,
patch-db, the filesystem) keeps the collaborator's message, which is not modelled.
-/

namespace StartOs

namespace Map

variable {κ ν : Type} [DecidableEq κ]

/-- The value stored under a key: `HashMap::get`, `BTreeMap::get`, `Map::get`. -/
def get? : List (κ × ν) → κ → Option ν
  | [], _ => none
  | (k', v) :: m, k => if k' = k then some v else get? m k

/-- `insert`: the entry of `k` takes the new value where it stands, a new key goes last. -/
def insert : List (κ × ν) → κ → ν → List (κ × ν)
  | [], k, v => [(k, v)]
  | (k', v') :: m, k, v => if k' = k then (k, v) :: m else (k', v') :: insert m k v

/-- `remove`: every entry of the key goes. -/
def erase : List (κ × ν) → κ → List (κ × ν)
  | [], _ => []
  | (k', v') :: m, k => if k' = k then erase m k else (k', v') :: erase m k

/-- The keys of a map, in entry order. -/
def keys (m : List (κ × ν)) : List κ := m.map Prod.fst

@[simp] theorem get?_nil (k : κ) : get? ([] : List (κ × ν)) k = none := rfl

theorem get?_cons (k' k : κ) (v : ν) (m : List (κ × ν)) :
    get? ((k', v) :: m) k = if k' = k then some v else get? m k := rfl

@[simp] theorem get?_insert (m : List (κ × ν)) (k k' : κ) (v : ν) :
    get? (insert m k v) k' = if k = k' then some v else get? m k' := by
  induction m with
  | nil => rfl
  | cons e m ih =>
    obtain ⟨k₀, v₀⟩ := e
    by_cases h : k₀ = k
    · subst h; by_cases h' : k₀ = k' <;> simp [insert, get?_cons, h']
    · by_cases h' : k₀ = k'
      · subst h'; simp [insert, get?_cons, h, Ne.symm h]
      · simp [insert, get?_cons, h, h', ih]

@[simp] theorem get?_erase (m : List (κ × ν)) (k k' : κ) :
    get? (erase m k) k' = if k = k' then none else get? m k' := by
  induction m with
  | nil => simp [erase]
  | cons e m ih =>
    obtain ⟨k₀, v₀⟩ := e
    by_cases h : k₀ = k
    · subst h
      by_cases h' : k₀ = k'
      · subst h'; simp [erase, ih]
      · simp [erase, get?_cons, h', ih]
    · by_cases h' : k₀ = k'
      · subst h'; simp [erase, get?_cons, h, Ne.symm h]
      · simp [erase, get?_cons, h, h', ih]

@[simp] theorem insert_insert (m : List (κ × ν)) (k : κ) (v w : ν) :
    insert (insert m k v) k w = insert m k w := by
  induction m with
  | nil => simp [insert]
  | cons e m ih =>
    obtain ⟨k₀, v₀⟩ := e
    by_cases h : k₀ = k <;> simp [insert, h, ih]

theorem mem_keys_iff (m : List (κ × ν)) (k : κ) : k ∈ keys m ↔ (get? m k).isSome := by
  induction m with
  | nil => simp [keys]
  | cons e m ih =>
    obtain ⟨k₀, v₀⟩ := e
    by_cases h : k₀ = k
    · simp [keys, get?_cons, h]
    · simp only [keys, List.map_cons, List.mem_cons, get?_cons, h, if_false] at ih ⊢
      rw [← ih]; exact or_iff_right (Ne.symm h)

@[simp] theorem mem_keys_insert (m : List (κ × ν)) (k k' : κ) (v : ν) :
    k' ∈ keys (insert m k v) ↔ k = k' ∨ k' ∈ keys m := by
  by_cases h : k = k' <;> simp [mem_keys_iff, h]

theorem mem_of_get?_eq_some {m : List (κ × ν)} {k : κ} {v : ν} (h : get? m k = some v) :
    (k, v) ∈ m := by
  induction m with
  | nil => cases h
  | cons e m ih =>
    obtain ⟨k₀, v₀⟩ := e
    rw [get?_cons] at h
    split at h
    · cases h; subst k₀; exact List.mem_cons_self _ _
    · exact List.mem_cons_of_mem _ (ih h)

theorem mem_insert {m : List (κ × ν)} {k : κ} {v : ν} {e : κ × ν} (h : e ∈ insert m k v) :
    e = (k, v) ∨ e ∈ m := by
  induction m with
  | nil => simpa [insert] using h
  | cons e₀ m ih =>
    obtain ⟨k₀, v₀⟩ := e₀
    simp only [insert] at h
    split at h
    · rcases List.mem_cons.mp h with rfl | h
      · exact .inl rfl
      · exact .inr (List.mem_cons_of_mem _ h)
    · rcases List.mem_cons.mp h with rfl | h
      · exact .inr (List.mem_cons_self _ _)
      · exact (ih h).imp id (List.mem_cons_of_mem _)

/-- Inserting a new key adds one entry and keeps the others. -/
theorem mem_insert_of_not_mem_keys {m : List (κ × ν)} {k : κ} {v : ν} (hk : k ∉ keys m) {e : κ × ν} : e ∈ insert m k v ↔ e = (k, v) ∨ e ∈ m := by
  induction m with
  | nil => simp [insert]
  | cons e₀ m ih =>
    obtain ⟨k₀, v₀⟩ := e₀
    have hk₀ : k₀ ≠ k := fun h => hk (by simp [keys, h])
    have hk' : k ∉ keys m := fun h => hk (by simp [keys] at h ⊢; exact .inr h)
    simp only [insert, hk₀, if_false, List.mem_cons, ih hk']
    tauto

end Map

/-- `PackageId`: the id string of an installed package. -/
abbrev PackageId := String

/-- `crate::ErrorKind`, the kinds the modelled code raises. -/
inductive ErrorKind where
  | unknown
  | filesystem
  | database
  | serialization
  | backup
  | restore
  | parseDbField
  | incorrectPassword
  | passwordHashGeneration
  deriving DecidableEq, Repr

/-- `crate::Error`: a kind, and the message where the code writes one. -/
structure Error where
  /-- The `ErrorKind`. -/
  kind : ErrorKind
  /-- The text of `eyre!(..)`, or `none` for a collaborator's own error. -/
  message : Option String := none
  deriving DecidableEq, Repr

/-- The error a failing Postgres or patch-db call passes up. -/
def dbError : Error := ⟨.database, none⟩

end StartOs
