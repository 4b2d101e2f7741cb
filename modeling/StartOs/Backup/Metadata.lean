import StartOs.Basic

/-!
# Backup metadata and the network keys it carries

`BackupMetadata` records, for each interface of a package, the key bound to it, twice:
under `network_keys` as the 32-byte secret and under `tor_keys` as the 64-byte Tor key
derived from it, the second kept for older readers.  `create` builds the two maps from the
package's keys in one pass, `filter_map` then `unzip`, and `unzip` into two `BTreeMap`s
inserts the entries in list order (`keyMaps`).

`keyMaps_lastBound` says both maps hold, under every interface, the last key of the list bound
to it (`lastBound`); so both have the same keys, the interfaces some key is bound to.

A `Key` is modelled by what `create` reads of it: `interface()`, `as_bytes()` and
`tor_key().as_bytes()`.  How the Tor key is derived lives in `net::keys`, outside the
shown files.
-/

namespace StartOs

/-- `[u8; n]`. -/
def Bytes (n : Nat) := {l : List UInt8 // l.length = n}

instance (n : Nat) : DecidableEq (Bytes n) := inferInstanceAs (DecidableEq {l : List UInt8 // l.length = n})

/-- `InterfaceId`. -/
abbrev InterfaceId := String

/-- `Base64<T>`: serde writes the value in base 64. -/
structure Base64 (α : Type) where
  /-- The wrapped value. -/
  val : α
  deriving DecidableEq

/-- `Base32<T>`: serde writes the value in base 32. -/
structure Base32 (α : Type) where
  /-- The wrapped value. -/
  val : α
  deriving DecidableEq

/-- `net::keys::Key`, as `create` reads it. -/
structure Key where
  /-- `interface()`: the package and interface the key is bound to, if any. -/
  interface : Option (PackageId × InterfaceId)
  /-- `as_bytes()`. -/
  asBytes : Bytes 32
  /-- `tor_key().as_bytes()`. -/
  torKeyBytes : Bytes 64

/-- `BackupMetadata`. -/
structure BackupMetadata where
  /-- `timestamp`. -/
  timestamp : Int
  /-- `network_keys`. -/
  networkKeys : List (InterfaceId × Base64 (Bytes 32))
  /-- `tor_keys`, deprecated. -/
  torKeys : List (InterfaceId × Base32 (Bytes 64))
  /-- `marketplace_url`. -/
  marketplaceUrl : Option String

/-- The closure of `filter_map`: a key bound to an interface gives one entry for each map. -/
def keyEntries (k : Key) :
    Option ((InterfaceId × Base64 (Bytes 32)) × (InterfaceId × Base32 (Bytes 64))) :=
  k.interface.map fun (_, i) => ((i, ⟨k.asBytes⟩), (i, ⟨k.torKeyBytes⟩))

/-- One entry pair inserted by `unzip` into the two maps. -/
def insertEntries (acc : List (InterfaceId × Base64 (Bytes 32)) × List (InterfaceId × Base32 (Bytes 64)))
    (e : (InterfaceId × Base64 (Bytes 32)) × (InterfaceId × Base32 (Bytes 64))) :
    List (InterfaceId × Base64 (Bytes 32)) × List (InterfaceId × Base32 (Bytes 64)) :=
  (Map.insert acc.1 e.1.1 e.1.2, Map.insert acc.2 e.2.1 e.2.2)

/-- `(network_keys, tor_keys)` of `create`: `filter_map` then `unzip`. -/
def keyMaps (keys : List Key) :
    List (InterfaceId × Base64 (Bytes 32)) × List (InterfaceId × Base32 (Bytes 64)) :=
  (keys.filterMap keyEntries).foldl insertEntries ([], [])

/-- The interface a key is bound to. -/
def Key.interfaceId (k : Key) : Option InterfaceId := k.interface.map Prod.snd

/-- The last key of the list bound to interface `i`. -/
def lastBound (keys : List Key) (i : InterfaceId) : Option Key :=
  (keys.filter fun k => k.interfaceId = some i).getLast?

@[simp] theorem lastBound_nil (i : InterfaceId) : lastBound [] i = none := rfl

theorem lastBound_cons (k : Key) (keys : List Key) (i : InterfaceId) :
    lastBound (k :: keys) i =
      if k.interfaceId = some i then some ((lastBound keys i).getD k) else lastBound keys i := by
  by_cases h : k.interfaceId = some i <;>
    simp only [lastBound, List.filter_cons, h, decide_True, decide_False, if_true, if_false,
      List.getLast?_cons, Bool.false_eq_true]

theorem lastBound_eq_none_iff (keys : List Key) (i : InterfaceId) :
    lastBound keys i = none ↔ ∀ k ∈ keys, k.interfaceId ≠ some i := by
  simp [lastBound, List.filter_eq_nil_iff]

/-- `lastBound` is the last key bound to `i`: none after it is. -/
theorem lastBound_eq_some {keys : List Key} {i : InterfaceId} {k : Key}
    (h : lastBound keys i = some k) :
    ∃ pre post, keys = pre ++ k :: post ∧ k.interfaceId = some i ∧
      ∀ k' ∈ post, k'.interfaceId ≠ some i := by
  induction keys with
  | nil => cases h
  | cons k₀ keys ih =>
    rw [lastBound_cons] at h
    split_ifs at h with h₀
    · cases hl : lastBound keys i with
      | none =>
        rw [hl, Option.getD_none, Option.some.injEq] at h
        exact ⟨[], keys, by rw [h]; rfl, h ▸ h₀, (lastBound_eq_none_iff keys i).mp hl⟩
      | some k₁ =>
        rw [hl, Option.getD_some, Option.some.injEq] at h
        obtain ⟨pre, post, rfl, hk, hpost⟩ := ih (h ▸ hl)
        exact ⟨k₀ :: pre, post, rfl, hk, hpost⟩
    · obtain ⟨pre, post, rfl, hk, hpost⟩ := ih h
      exact ⟨k₀ :: pre, post, rfl, hk, hpost⟩

/-- Folding the entries into two given maps: under `i` stands the last key bound to `i`,
or what stood there before. -/
theorem get?_foldl_insertEntries (keys : List Key) (acc) (i : InterfaceId) :
    Map.get? ((keys.filterMap keyEntries).foldl insertEntries acc).1 i =
      ((lastBound keys i).map fun k => ⟨k.asBytes⟩).or (Map.get? acc.1 i) ∧
    Map.get? ((keys.filterMap keyEntries).foldl insertEntries acc).2 i =
      ((lastBound keys i).map fun k => ⟨k.torKeyBytes⟩).or (Map.get? acc.2 i) := by
  induction keys generalizing acc with
  | nil => simp
  | cons k keys ih =>
    rcases hk : k.interface with _ | ⟨pkg, j⟩
    · simpa [keyEntries, hk, lastBound_cons, Key.interfaceId] using ih acc
    · obtain ⟨ih₁, ih₂⟩ := ih (insertEntries acc ((j, ⟨k.asBytes⟩), (j, ⟨k.torKeyBytes⟩)))
      simp only [List.filterMap_cons, keyEntries, hk, Option.map_some', List.foldl_cons, ih₁, ih₂,
        lastBound_cons, Key.interfaceId, Option.some.injEq]
      by_cases hj : j = i
      · cases lastBound keys i <;> simp [insertEntries, hj]
      · simp [insertEntries, hj]

/-- Both maps of `create` hold exactly the interfaces some key is bound to, and under each
the two encodings of one key, the last one bound to it. -/
theorem keyMaps_lastBound (keys : List Key) (i : InterfaceId) :
    (i ∈ Map.keys (keyMaps keys).1 ↔ ∃ k ∈ keys, k.interfaceId = some i) ∧
    (i ∈ Map.keys (keyMaps keys).2 ↔ ∃ k ∈ keys, k.interfaceId = some i) ∧
    Map.get? (keyMaps keys).1 i = (lastBound keys i).map (fun k => ⟨k.asBytes⟩) ∧
    Map.get? (keyMaps keys).2 i = (lastBound keys i).map (fun k => ⟨k.torKeyBytes⟩) := by
  obtain ⟨h₁, h₂⟩ := get?_foldl_insertEntries keys ([], []) i
  simp only [Map.get?_nil, Option.or_none] at h₁ h₂
  have hb : (lastBound keys i).isSome ↔ ∃ k ∈ keys, k.interfaceId = some i := by
    rw [← not_iff_not, Option.not_isSome_iff_eq_none, lastBound_eq_none_iff]; simp
  refine ⟨?_, ?_, h₁, h₂⟩ <;> simpa [Map.mem_keys_iff, keyMaps, h₁, h₂] using hb

end StartOs
