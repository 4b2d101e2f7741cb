import StartOs.Version.V033Up

/-!
# What `down` makes of a document, and the round trip

`down` rebuilds a v0.3.2 host from each entry of `known-hosts` that carries a string
`name`, and skips the others.  The entries `up` writes are `{}` and carry no name, so after
`up` the loop of `down` skips every entry (`foldlM_downKnownHost_unnamed`) and the
known hosts are gone (`down_up_knownHosts`).

`down` keeps the selected host by comparing each host's `name` with the old
`selected-url` (`down_selectedUrlSample_selectedId`).

The other way round, `downHosts` is what `down`'s loop adds: `{name, url}` under a fresh id
for each host with a string `name` (`foldlM_downKnownHost`, `down_shape`).  `up` then finds
the `url` of each and rebuilds the host as `{}` under it, and it finds no `selected-url`, so
`up (down ui)` keeps the named hosts without their names and resets the selected
marketplace to the default (`up_down`).

Both migrations reach `ui["marketplace"]["known-hosts"]` through `IndexMut`, so a
`marketplace` that is neither an object nor `null` makes them panic
(`up_down_marketplaceString`).
-/

namespace StartOs

open Value

theorem foldlM_downKnownHost_unnamed (uuid : Nat → String) (sel : Option String)
    (st : Value × Nat) (hosts : List (String × Value))
    (h : ∀ host ∈ hosts, ∀ name, host.2.get "name" ≠ some (.string name)) :
    hosts.foldlM (downKnownHost uuid sel) st = some st := by
  induction hosts with
  | nil => rfl
  | cons host hosts ih =>
    rw [List.foldlM_cons, downKnownHost]
    cases hn : host.2.index "name" with
    | string name =>
      exact absurd ((index_eq_string_iff _ _ _).mp hn) (h host (List.mem_cons_self _ _) name)
    | _ => exact ih fun x hx => h x (List.mem_cons_of_mem _ hx)

/-- `down` on an object whose `known-hosts` holds no entry with a string `name`. -/
theorem down_unnamed (uuid : Nat → String) (packageIds : List String)
    (G : List (String × Value)) (hmp : ((Value.object G).index "marketplace").IsObjectOrNull)
    (hnames : ∀ host ∈ fieldsOf (((Value.object G).index "marketplace").index "known-hosts"),
      ∀ name, host.2.get "name" ≠ some (.string name)) :
    ∃ ui, down uuid packageIds (.object G) = some ui ∧
      (ui.index "marketplace").get "known-hosts" = some (.object []) := by
  unfold down
  generalize ((Value.object G).index "marketplace").index "known-hosts" = old at hnames ⊢
  rw [modify_object, ← index_eq_getD, set_eq_fieldsOf hmp]
  cases old with
  | object hosts => simp [foldlM_downKnownHost_unnamed _ _ _ hosts hnames]
  | _ => simp

/-! ## The round trip -/

theorem down_up_knownHosts (D : String) (uuid : Nat → String) (packageIds : List String)
    (F : List (String × Value)) (hmp : ((Value.object F).index "marketplace").IsObjectOrNull) :
    ∃ ui, (up D (.object F)).bind (down uuid packageIds) = some ui ∧
      (ui.index "marketplace").get "known-hosts" = some (.object []) := by
  obtain ⟨F₁, h₁, -, hmp₁, -⟩ := upSelectedUrl_object F hmp
  rw [up_eq D h₁ hmp₁, Option.some_bind]
  refine down_unnamed _ _ _ (by simp) fun host hhost name => ?_
  simp [get?_selectedDefault, fieldsOf] at hhost
  rcases Map.mem_insert hhost with rfl | h
  · simp
  · rcases mem_upHostKeys h with h | ⟨h, -⟩
    · cases h
    · simp [h]

theorem down_up_knownHosts_selectedSample :
    ((Value.object selectedSampleFields).index "marketplace").IsObjectOrNull ∧
    ∃ ui, (up "https://registry.start9.com" (.object selectedSampleFields)).bind
        (down toString []) = some ui ∧
      (ui.index "marketplace").get "known-hosts" = some (.object []) :=
  ⟨trivial, down_up_knownHosts _ _ _ _ trivial⟩

/-- The host of `selectedSampleFields`, `{name: "Alt", url: "https://alt.example"}`, is
not among the known hosts of `down (up ui)`. -/
theorem down_up_drops_selectedSample :
    ¬ ∃ ui hosts, (up "https://registry.start9.com" (.object selectedSampleFields)).bind
        (down toString []) = some ui ∧
      (ui.index "marketplace").get "known-hosts" = some (.object hosts) ∧
      ∃ e ∈ hosts, e.2.get "name" = some (.string "Alt") ∧
        e.2.get "url" = some (.string "https://alt.example/") := by
  rintro ⟨ui, hosts, hrun, hkh, e, he, -⟩
  have hempty : (((up "https://registry.start9.com" (.object selectedSampleFields)).bind
      (down toString [])).bind fun ui => (ui.index "marketplace").get "known-hosts") =
        some (.object []) := rfl
  rw [hrun, Option.some_bind, hkh] at hempty
  cases hempty
  cases he

/-! ## The selected host -/

/-- The fields of a document in the v0.3.3 shape: one known host, selected by its url. -/
def selectedUrlSampleFields : List (String × Value) :=
  [("marketplace", .object [("selected-url", .string "https://alt.example/"),
    ("known-hosts", .object [("https://alt.example/", .object [("name", .string "Alt")])])])]

/-- `down` compares the host's `name`, `"Alt"`, with `selected-url`, so it sets no
`selected-id` although the selected url is a known host. -/
theorem down_selectedUrlSample_selectedId (uuid : Nat → String) (packageIds : List String) :
    ((down uuid packageIds (.object selectedUrlSampleFields)).map fun ui =>
      (ui.index "marketplace").get "selected-id") = some none := rfl

/-! ## Down, then up -/

/-- The entries `down`'s loop adds to `K` for the hosts, drawing ids from `n` on: under
`uuid n`, `{name, url}` for each host with a string `name`. -/
def downHosts (uuid : Nat → String) (K : List (String × Value)) (n : Nat) :
    List (String × Value) → List (String × Value) × Nat
  | [] => (K, n)
  | host :: hosts =>
    match host.2.index "name" with
    | .string name => downHosts uuid (Map.insert K (uuid n)
        (.object [("name", .string name), ("url", .string host.1)])) (n + 1) hosts
    | _ => downHosts uuid K n hosts

/-- `down`'s loop on a document whose `marketplace` is an object: `known-hosts` gains the
entries of `downHosts`, and no field but `selected-id` changes otherwise. -/
theorem foldlM_downKnownHost (uuid : Nat → String) (sel : Option String)
    (G : List (String × Value)) (hosts : List (String × Value)) :
    ∀ (M K : List (String × Value)) (n : Nat), Map.get? M "known-hosts" = some (.object K) →
    ∃ M', hosts.foldlM (downKnownHost uuid sel) (.object (Map.insert G "marketplace" (.object M)), n) =
        some (.object (Map.insert G "marketplace" (.object M')), (downHosts uuid K n hosts).2) ∧
      Map.get? M' "known-hosts" = some (.object (downHosts uuid K n hosts).1) ∧
      ∀ k, k ≠ "known-hosts" → k ≠ "selected-id" → Map.get? M' k = Map.get? M k := by
  induction hosts with
  | nil => exact fun M K n hK => ⟨M, rfl, hK, fun _ _ _ => rfl⟩
  | cons host hosts ih =>
    intro M K n hK
    rw [List.foldlM_cons, downKnownHost]
    cases hn : host.2.index "name" with
    | string name =>
      simp only [downHosts, hn]
      by_cases hs : some name = sel <;>
        simp only [hs, ↓reduceIte, modify_object, Map.insert_insert, get_object, Map.get?_insert,
          Option.getD_some, set_object, Option.map_eq_map, Option.map_some', Option.pure_def,
          Option.bind_eq_bind, Option.some_bind, String.reduceEq, hK, ne_eq] <;>
        exact (ih _ _ _ (by simp)).imp fun M' ⟨h, hkh, hk⟩ =>
          ⟨h, hkh, fun k h₁ h₂ => (hk k h₁ h₂).trans (by simp [Ne.symm h₁, Ne.symm h₂])⟩
    | _ => simp only [downHosts, hn]; exact ih M K n hK

/-- `down` on an object whose `marketplace` is absent, `null` or an object: an object whose
`known-hosts` is rebuilt by `downHosts` and whose `selected-url` is gone. -/
theorem down_shape (uuid : Nat → String) (packageIds : List String) (F : List (String × Value))
    (hmp : ((Value.object F).index "marketplace").IsObjectOrNull) :
    ∃ F₁, down uuid packageIds (.object F) = some (.object F₁) ∧
      ((Value.object F₁).index "marketplace").IsObjectOrNull ∧
      ((Value.object F₁).index "marketplace").get "known-hosts" = some (.object
        (downHosts uuid [] 0 (fieldsOf (((Value.object F).index "marketplace").index "known-hosts"))).1) ∧
      ((Value.object F₁).index "marketplace").get "selected-url" = none := by
  unfold down
  generalize ((Value.object F).index "marketplace").index "known-hosts" = old
  rw [modify_object, ← index_eq_getD, set_eq_fieldsOf hmp]
  cases old with
  | object hosts =>
    obtain ⟨M', hfold, hkh, -⟩ := foldlM_downKnownHost uuid
      (((Value.object F).index "marketplace").index "selected-url").asStr F hosts
      (Map.insert (fieldsOf ((Value.object F).index "marketplace")) "known-hosts" (.object [])) [] 0
      (by simp)
    simp only [index_object] at hfold
    simp [hfold]
    exact hkh
  | _ => simp [fieldsOf, downHosts]

/-- Every entry `down`'s loop adds is a rebuilt v0.3.2 host `{name, url}`. -/
theorem mem_downHosts {uuid : Nat → String} {K hosts : List (String × Value)} {n : Nat}
    {e : String × Value} (he : e ∈ (downHosts uuid K n hosts).1) :
    e ∈ K ∨ ∃ name url, e.2 = .object [("name", .string name), ("url", .string url)] := by
  induction hosts generalizing K n with
  | nil => exact .inl he
  | cons host hosts ih =>
    simp only [downHosts] at he
    split at he
    · rcases ih he with h | h
      · rcases Map.mem_insert h with rfl | h
        · exact .inr ⟨_, _, rfl⟩
        · exact .inl h
      · exact .inr h
    · exact ih he

/-- With ids that never repeat, `down`'s loop keeps the url of every host with a string
`name`, and adds no other. -/
theorem downHosts_urls {uuid : Nat → String} (huuid : Function.Injective uuid)
    (hosts : List (String × Value)) :
    ∀ (K : List (String × Value)) (n : Nat), (∀ k ∈ Map.keys K, ∃ i < n, k = uuid i) →
    ∀ url, (∃ e ∈ (downHosts uuid K n hosts).1, e.2.get "url" = some (.string url)) ↔
      (∃ e ∈ K, e.2.get "url" = some (.string url)) ∨
      ∃ h ∈ hosts, (∃ name, h.2.get "name" = some (.string name)) ∧ h.1 = url := by
  induction hosts with
  | nil => simp [downHosts]
  | cons host hosts ih =>
    intro K n hK url
    cases hn : host.2.index "name" with
    | string name =>
      have hfresh : uuid n ∉ Map.keys K := fun h => by
        obtain ⟨i, hi, he⟩ := hK _ h
        exact absurd (huuid he) (Nat.ne_of_gt hi)
      have hK' : ∀ k ∈ Map.keys (Map.insert K (uuid n)
          (.object [("name", .string name), ("url", .string host.1)])), ∃ i < n + 1, k = uuid i := by
        intro k hk
        rcases (Map.mem_keys_insert _ _ _ _).mp hk with rfl | hk
        · exact ⟨n, Nat.lt_succ_self n, rfl⟩
        · obtain ⟨i, hi, rfl⟩ := hK k hk
          exact ⟨i, Nat.lt_succ_of_lt hi, rfl⟩
      simp only [downHosts, hn]
      rw [ih _ _ hK']
      simp only [Map.mem_insert_of_not_mem_keys hfresh, exists_eq_or_imp, List.mem_cons,
        (index_eq_string_iff _ _ _).mp hn]
      have hurl : (Value.object [("name", .string name), ("url", .string host.1)]).get "url" =
          some (.string url) ↔ host.1 = url := by simp [Map.get?_cons]
      have hnamed : ∃ name', some (Value.string name) = some (.string name') := ⟨name, rfl⟩
      simp only [hurl, hnamed, true_and]
      exact or_assoc.trans or_left_comm
    | _ =>
      have hno : ∀ name, host.2.get "name" ≠ some (.string name) := fun name h => by
        rw [(index_eq_string_iff _ _ _).mpr h] at hn; cases hn
      simp only [downHosts, hn]
      rw [ih _ _ hK]
      simp only [List.mem_cons, exists_eq_or_imp, hno, exists_false, false_and, false_or]

/-- When `selected-id` names no string host, the selected-url block does nothing. -/
theorem upSelectedUrl_of_not_string {ui : Value} (h : ∀ s, selectedHost ui ≠ some (.string s)) :
    upSelectedUrl ui = some ui := by
  unfold upSelectedUrl
  split
  · exact absurd ‹_› (h _)
  · rfl

/-- Downgrading and upgrading again loses the marketplace settings.  With ids that never
repeat, `up (down ui)` keeps exactly the hosts that carry a string `name`, as `{}` under their
normalised url, beside the registry; it drops their names and every unnamed host; and it
resets `selected-url` to the default registry, whatever was selected: `down` removes
`selected-url`, and the host `selected-id` names is an object, never the string `up`
looks for. -/
theorem up_down (D : String) (uuid : Nat → String) (huuid : Function.Injective uuid)
    (packageIds : List String) (F : List (String × Value))
    (hmp : ((Value.object F).index "marketplace").IsObjectOrNull) :
    ∃ ui₁ ui₂, down uuid packageIds (.object F) = some ui₁ ∧ up D ui₁ = some ui₂ ∧
      (ui₂.index "marketplace").get "selected-url" = some (.string (D ++ "/")) ∧
      ∃ hosts, (ui₂.index "marketplace").get "known-hosts" = some (.object hosts) ∧
        (∀ e ∈ hosts, e.2 = .object []) ∧
        ∀ key, key ∈ Map.keys hosts ↔ key = registryUrl ∨
          ∃ old, ((Value.object F).index "marketplace").get "known-hosts" = some (.object old) ∧
            ∃ host ∈ old, (∃ name, host.2.get "name" = some (.string name)) ∧
              key = ensureTrailingSlashes host.1 := by
  obtain ⟨F₁, hdown, hmp₁, hkh, hsurl⟩ := down_shape uuid packageIds F hmp
  generalize hH : (downHosts uuid [] 0 (fieldsOf (((Value.object F).index "marketplace").index
    "known-hosts"))).1 = H at hkh
  have hkh' : fieldsOf (((Value.object F₁).index "marketplace").index "known-hosts") = H := by
    rw [index_eq_getD, hkh]; rfl
  have hsel : upSelectedUrl (.object F₁) = some (.object F₁) := by
    refine upSelectedUrl_of_not_string fun s hs => ?_
    simp only [selectedHost, Option.bind_eq_some] at hs
    obtain ⟨x, -, hx⟩ := hs
    split at hx
    · rw [index_eq_getD, hkh, Option.getD_some, get_object] at hx
      rcases mem_downHosts (hH ▸ Map.mem_of_get?_eq_some hx) with h | ⟨_, _, h⟩
      · cases h
      · cases h
    · cases hx
  have hup := up_eq D hsel hmp₁
  rw [hkh'] at hup
  refine ⟨_, _, hdown, hup, ?_, Map.insert (upHostKeys [] H) registryUrl (.object []), ?_,
    fun e he => ?_, fun key => ?_⟩
  · rw [get_eq_fieldsOf] at hsurl
    simp only [index_object] at hsurl
    simp [selectedDefault, hsurl]
  · simp [get?_selectedDefault]
  · rcases Map.mem_insert he with rfl | he
    · rfl
    · rcases mem_upHostKeys he with h | ⟨h, -⟩
      · cases h
      · exact h
  · rw [Map.mem_keys_insert, mem_keys_upHostKeys, ← exists_mem_fieldsOf_index]
    simp only [Map.keys, List.map_nil, List.not_mem_nil, false_or, @eq_comm _ registryUrl]
    refine or_congr_right ⟨?_, ?_⟩
    · rintro ⟨e, he, url, hu, rfl⟩
      rcases (downHosts_urls huuid _ [] 0 (by simp [Map.keys]) url).mp ⟨e, hH ▸ he, hu⟩ with
        ⟨_, h, _⟩ | ⟨h, hh, hn, rfl⟩
      · cases h
      · exact ⟨h, hh, hn, rfl⟩
    · rintro ⟨h, hh, hn, rfl⟩
      obtain ⟨e, he, hu⟩ := (downHosts_urls huuid _ [] 0 (by simp [Map.keys]) h.1).mpr (.inr ⟨h, hh, hn, rfl⟩)
      exact ⟨e, hH ▸ he, h.1, hu, rfl⟩

/-- Ids `x`, `xx`, `xxx`, …: no two alike. -/
def demoUuid (n : Nat) : String := ⟨List.replicate (n + 1) 'x'⟩

theorem demoUuid_injective : Function.Injective demoUuid := fun a b h => by
  have := congrArg (fun s : String => s.data.length) h
  simpa [demoUuid] using this

theorem up_down_selectedUrlSample :
    Function.Injective demoUuid ∧
    ((Value.object selectedUrlSampleFields).index "marketplace").IsObjectOrNull ∧
    ∃ ui₁ ui₂, down demoUuid [] (.object selectedUrlSampleFields) = some ui₁ ∧
      up "https://registry.start9.com" ui₁ = some ui₂ ∧
      (ui₂.index "marketplace").get "selected-url" =
        some (.string ("https://registry.start9.com" ++ "/")) ∧
      ∃ hosts, (ui₂.index "marketplace").get "known-hosts" = some (.object hosts) ∧
        (∀ e ∈ hosts, e.2 = .object []) ∧
        ∀ key, key ∈ Map.keys hosts ↔ key = registryUrl ∨
          ∃ old, ((Value.object selectedUrlSampleFields).index "marketplace").get "known-hosts" =
              some (.object old) ∧
            ∃ host ∈ old, (∃ name, host.2.get "name" = some (.string name)) ∧
              key = ensureTrailingSlashes host.1 :=
  ⟨demoUuid_injective, trivial,
    up_down _ demoUuid demoUuid_injective [] selectedUrlSampleFields trivial⟩

/-! ## Panics -/

/-- A `marketplace` field holding a string makes both migrations panic. -/
theorem up_down_marketplaceString (D : String) (uuid : Nat → String)
    (packageIds : List String) :
    up D (.object [("marketplace", .string "x")]) = none ∧
      down uuid packageIds (.object [("marketplace", .string "x")]) = none := ⟨rfl, rfl⟩

end StartOs
