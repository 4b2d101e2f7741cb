import StartOs.Version.V033

/-!
# What `up` makes of a document

`up_eq` computes `Version::up` on every object whose `marketplace` is absent, `null` or an
object, one block of the source at a time:

* `upSelectedUrl_object`: the selected-url block touches `marketplace` only, and leaves it
  an object or `null`;
* `upKnownHosts_object`: the rebuilt `known-hosts` is `upHostKeys` of the old hosts, plus
  the registry, every value `{}`;
* `upSelectedDefault_insert`: `selected-id` goes and a null `selected-url` is defaulted.

`up_postcondition` reads the result off field by field.  Run on its own result, `up`
finds every host already `{}` and rebuilds `known-hosts` as the registry alone
(`up_up`).
-/

namespace StartOs

open Value

/-- The entries `up`'s loop adds to `K` for the old hosts: key
`ensure_trailing_slashes(url)` and value `{}` for each host with a string `url`. -/
def upHostKeys (K : List (String × Value)) (hosts : List (String × Value)) :
    List (String × Value) :=
  hosts.foldl (fun K host =>
    match host.2.index "url" with
    | .string url => Map.insert K (ensureTrailingSlashes url) (.object [])
    | _ => K) K

theorem upHostKeys_cons (K : List (String × Value)) (host : String × Value)
    (hosts : List (String × Value)) :
    upHostKeys K (host :: hosts) = upHostKeys (match host.2.index "url" with
      | .string url => Map.insert K (ensureTrailingSlashes url) (.object [])
      | _ => K) hosts := rfl

theorem foldlM_upKnownHost (F M K hosts : List (String × Value)) :
    hosts.foldlM upKnownHost
      (.object (Map.insert F "marketplace" (.object (Map.insert M "known-hosts" (.object K))))) =
    some (.object (Map.insert F "marketplace"
      (.object (Map.insert M "known-hosts" (.object (upHostKeys K hosts)))))) := by
  induction hosts generalizing K with
  | nil => rfl
  | cons host hosts ih =>
    rw [List.foldlM_cons, upKnownHost, upHostKeys_cons]
    cases h : host.2.index "url" <;> simp [ih]

theorem mem_keys_upHostKeys (K hosts : List (String × Value)) (key : String) :
    key ∈ Map.keys (upHostKeys K hosts) ↔ key ∈ Map.keys K ∨
      ∃ host ∈ hosts, ∃ url, host.2.get "url" = some (.string url) ∧
        key = ensureTrailingSlashes url := by
  induction hosts generalizing K with
  | nil => simp [upHostKeys]
  | cons host hosts ih =>
    rw [upHostKeys_cons, ih]
    cases h : host.2.index "url" with
    | string url =>
      have hurl : (∃ u, host.2.get "url" = some (.string u) ∧ key = ensureTrailingSlashes u) ↔
          key = ensureTrailingSlashes url := by
        simp [(index_eq_string_iff _ _ _).mp h]
      simp only [Map.mem_keys_insert, List.mem_cons, or_and_right, exists_or, exists_eq_left, hurl,
        @eq_comm _ (ensureTrailingSlashes url)]
      exact or_assoc.trans or_left_comm
    | _ =>
      have hn : ∀ u, host.2.get "url" ≠ some (.string u) := fun u hu => by
        rw [(index_eq_string_iff _ _ _).mpr hu] at h; cases h
      simp only [List.mem_cons, or_and_right, exists_or, exists_eq_left, hn, false_and,
        exists_false, false_or]

theorem mem_upHostKeys {K hosts : List (String × Value)} {e : String × Value}
    (he : e ∈ upHostKeys K hosts) : e ∈ K ∨ (e.2 = .object [] ∧ EndsWithSlash e.1) := by
  induction hosts generalizing K with
  | nil => exact .inl he
  | cons host hosts ih =>
    rw [upHostKeys_cons] at he
    rcases ih he with h | h
    · cases hu : host.2.index "url" with
      | string url =>
        simp only [hu] at h
        rcases Map.mem_insert h with rfl | h
        · exact .inr ⟨rfl, ensureTrailingSlashes_endsWithSlash url⟩
        · exact .inl h
      | _ => simp only [hu] at h; exact .inl h
    · exact .inr h

/-- The hosts of a field that is an object; any other field has none. -/
theorem exists_mem_fieldsOf_index (v : Value) (k : String) (p : String × Value → Prop) :
    (∃ host ∈ fieldsOf (v.index k), p host) ↔
      ∃ old, v.get k = some (.object old) ∧ ∃ host ∈ old, p host := by
  rw [index_eq_getD]
  cases v.get k with
  | none => simp [fieldsOf]
  | some x => cases x <;> simp [fieldsOf]

/-- The marketplace fields `upSelectedDefault` leaves from `M`. -/
def selectedDefault (D : String) (M : List (String × Value)) : List (String × Value) :=
  if ((Map.get? M "selected-url").getD .null).isNull then
    Map.insert (Map.erase M "selected-id") "selected-url" (.string (D ++ "/"))
  else Map.erase M "selected-id"

/-! ## The blocks of `up` -/

theorem upSelectedUrl_object (F : List (String × Value))
    (hmp : ((Value.object F).index "marketplace").IsObjectOrNull) :
    ∃ F₁, upSelectedUrl (.object F) = some (.object F₁) ∧
      (∀ k, k ≠ "marketplace" → Map.get? F₁ k = Map.get? F k) ∧
      ((Value.object F₁).index "marketplace").IsObjectOrNull ∧
      ∀ k, k ≠ "selected-url" →
        ((Value.object F₁).index "marketplace").get k =
          ((Value.object F).index "marketplace").get k := by
  unfold upSelectedUrl
  split
  · next url _ =>
    refine ⟨Map.insert F "marketplace" (.object (Map.insert
      (fieldsOf ((Value.object F).index "marketplace")) "selected-url" (.string url))),
      ?_, fun k hk => by simp [Ne.symm hk], by simp, fun k hk => ?_⟩
    · rw [modify_object, ← index_eq_getD, set_eq_fieldsOf hmp]; rfl
    · rw [get_eq_fieldsOf ((Value.object F).index "marketplace")]; simp [Ne.symm hk]
  · exact ⟨F, rfl, fun _ _ => rfl, hmp, fun _ _ => rfl⟩

theorem upKnownHosts_object (F : List (String × Value))
    (hmp : ((Value.object F).index "marketplace").IsObjectOrNull) :
    upKnownHosts (.object F) = some (.object (Map.insert F "marketplace" (.object (Map.insert
      (fieldsOf ((Value.object F).index "marketplace")) "known-hosts" (.object (Map.insert
        (upHostKeys [] (fieldsOf (((Value.object F).index "marketplace").index "known-hosts")))
        registryUrl (.object []))))))) := by
  unfold upKnownHosts
  generalize ((Value.object F).index "marketplace").index "known-hosts" = old
  rw [modify_object, ← index_eq_getD, set_eq_fieldsOf hmp]
  cases old <;> simp [foldlM_upKnownHost, upHostKeys, fieldsOf]

theorem upSelectedDefault_insert (D : String) (F M : List (String × Value)) :
    upSelectedDefault D (.object (Map.insert F "marketplace" (.object M))) =
      some (.object (Map.insert F "marketplace" (.object (selectedDefault D M)))) := by
  have hu : (Value.object (Map.insert F "marketplace" (.object M))).updateField "marketplace"
      (·.remove "selected-id") = .object (Map.insert F "marketplace" (.object (Map.erase M "selected-id"))) := by
    simp
  simp only [upSelectedDefault, hu, selectedDefault]
  split <;> simp_all [MarketPlaceUrls.url]

/-- After `upSelectedDefault`, `selected-url` is set and not `null`. -/
theorem selectedUrl_ne_null (D : String) (M : List (String × Value)) :
    ∃ url, Map.get? (selectedDefault D M) "selected-url" = some url ∧ url ≠ .null := by
  cases hx : Map.get? M "selected-url" with
  | none => exact ⟨.string (D ++ "/"), by simp [selectedDefault, hx, isNull], nofun⟩
  | some x =>
    by_cases hn : x = .null
    · subst hn; exact ⟨.string (D ++ "/"), by simp [selectedDefault, hx, isNull], nofun⟩
    · exact ⟨x, by simp [selectedDefault, hx, hn], hn⟩

theorem get?_selectedDefault (D : String) (M : List (String × Value)) {k : String}
    (hi : k ≠ "selected-id") (hu : k ≠ "selected-url") :
    Map.get? (selectedDefault D M) k = Map.get? M k := by
  unfold selectedDefault; split <;> simp [Ne.symm hi, Ne.symm hu]

theorem get?_selectedDefault_selectedId (D : String) (M : List (String × Value)) :
    Map.get? (selectedDefault D M) "selected-id" = none := by
  unfold selectedDefault; split <;> simp

/-! ## The postcondition -/

/-- `up` on an object, once the selected-url block has run. -/
theorem up_eq (D : String) {F F₁ : List (String × Value)}
    (h₁ : upSelectedUrl (.object F) = some (.object F₁))
    (hmp₁ : ((Value.object F₁).index "marketplace").IsObjectOrNull) :
    up D (.object F) = some (.object (Map.insert
      (Map.erase (Map.erase F₁ "pkg-order") "auto-check-updates") "marketplace" (.object
        (selectedDefault D (Map.insert (fieldsOf ((Value.object F₁).index "marketplace"))
          "known-hosts" (.object (Map.insert (upHostKeys [] (fieldsOf
            (((Value.object F₁).index "marketplace").index "known-hosts"))) registryUrl
              (.object [])))))))) := by
  have hmp₂ : (Value.object (Map.erase (Map.erase F₁ "pkg-order") "auto-check-updates")).index
      "marketplace" = (Value.object F₁).index "marketplace" := by simp
  have h₃ := upKnownHosts_object _ (hmp₂ ▸ hmp₁)
  rw [hmp₂] at h₃
  simp only [up, h₁, remove_object, h₃, Option.bind_eq_bind, Option.some_bind]
  exact upSelectedDefault_insert D _ _

/-- What `up` makes of the document with fields `F`: the result `ui`, field by field. -/
structure UpShape (F : List (String × Value)) (ui : Value) : Prop where
  /-- `known-hosts` is an object whose keys are the normalised urls of the old hosts with a
  string `url`, and the registry; every value is `{}` and every key ends in `'/'`. -/
  knownHosts : ∃ hosts, (ui.index "marketplace").get "known-hosts" = some (.object hosts) ∧
    (∀ key, key ∈ Map.keys hosts ↔ key = registryUrl ∨
      ∃ old, ((Value.object F).index "marketplace").get "known-hosts" = some (.object old) ∧
        ∃ host ∈ old, ∃ url, host.2.get "url" = some (.string url) ∧
          key = ensureTrailingSlashes url) ∧
    ∀ e ∈ hosts, e.2 = .object [] ∧ EndsWithSlash e.1
  /-- No `selected-id`. -/
  selectedId : (ui.index "marketplace").get "selected-id" = none
  /-- A `selected-url` that is not `null`. -/
  selectedUrl : ∃ url, (ui.index "marketplace").get "selected-url" = some url ∧ url ≠ .null
  /-- No `pkg-order`. -/
  pkgOrder : ui.get "pkg-order" = none
  /-- No `auto-check-updates`. -/
  autoCheckUpdates : ui.get "auto-check-updates" = none
  /-- Every other field of the document is unchanged. -/
  fields : ∀ k, k ≠ "marketplace" → k ≠ "pkg-order" → k ≠ "auto-check-updates" →
    ui.get k = (Value.object F).get k
  /-- Every other field of `marketplace` is unchanged. -/
  marketplaceFields : ∀ k, k ≠ "known-hosts" → k ≠ "selected-id" → k ≠ "selected-url" →
    (ui.index "marketplace").get k = ((Value.object F).index "marketplace").get k

theorem up_postcondition (D : String) (F : List (String × Value))
    (hmp : ((Value.object F).index "marketplace").IsObjectOrNull) :
    ∃ ui, up D (.object F) = some ui ∧ UpShape F ui := by
  obtain ⟨F₁, h₁, hF₁, hmp₁, hM₁⟩ := upSelectedUrl_object F hmp
  have hrun := up_eq D h₁ hmp₁
  set M := fieldsOf ((Value.object F₁).index "marketplace") with hM
  set K := Map.insert (upHostKeys [] (fieldsOf (((Value.object F₁).index "marketplace").index
    "known-hosts"))) registryUrl (.object []) with hK
  refine ⟨_, hrun, ⟨K, ?_, ?_, ?_⟩, ?_, ?_, ?_, ?_, ?_, ?_⟩
  · simp [get?_selectedDefault]
  · intro key
    rw [Map.mem_keys_insert, mem_keys_upHostKeys, exists_mem_fieldsOf_index, hM₁ _ (by decide)]
    simp only [Map.keys, List.map_nil, List.not_mem_nil, false_or, @eq_comm _ registryUrl]
  · intro e he
    rcases Map.mem_insert he with rfl | he
    · exact ⟨rfl, rfl⟩
    · rcases mem_upHostKeys he with h | h
      · cases h
      · exact h
  · simp [get?_selectedDefault_selectedId]
  · obtain ⟨url, h, hn⟩ := selectedUrl_ne_null D (Map.insert M "known-hosts" (.object K))
    exact ⟨url, by simpa using h, hn⟩
  · simp
  · simp
  · intro k h₁ h₂ h₃
    simp [Ne.symm h₁, Ne.symm h₂, Ne.symm h₃, hF₁ k h₁]
  · intro k h₁ h₂ h₃
    rw [← hM₁ k h₃, get_eq_fieldsOf ((Value.object F₁).index "marketplace")]
    simp [get?_selectedDefault D _ h₂ h₃, Ne.symm h₁, hM]

/-- The fields of a document in the v0.3.2 shape: one known host, selected. -/
def selectedSampleFields : List (String × Value) :=
  [("marketplace", .object [("selected-id", .string "alt"),
    ("known-hosts", .object [("alt", .object [("name", .string "Alt"),
      ("url", .string "https://alt.example")])])])]

theorem up_postcondition_selectedSample :
    ((Value.object selectedSampleFields).index "marketplace").IsObjectOrNull ∧
    ∃ ui, up "https://registry.start9.com" (.object selectedSampleFields) = some ui ∧
      UpShape selectedSampleFields ui :=
  ⟨trivial, up_postcondition _ _ trivial⟩

/-! ## The selected host -/

/-- `up` looks the selected host up and matches it against `Value::String`, so a v0.3.2
host object never gives `selected-url`: the default registry takes its place. -/
theorem up_selectedSample_selectedUrl (D : String) :
    ((up D (.object selectedSampleFields)).bind fun ui => (ui.index "marketplace").get "selected-url") =
      some (.string (D ++ "/")) := rfl

/-! ## Running `up` twice -/

/-- Hosts without a string `url` add nothing. -/
theorem upHostKeys_of_bare (K hosts : List (String × Value))
    (h : ∀ host ∈ hosts, host.2 = .object []) : upHostKeys K hosts = K := by
  induction hosts with
  | nil => rfl
  | cons host hosts ih =>
    rw [upHostKeys_cons, h host (List.mem_cons_self _ _)]
    exact ih fun x hx => h x (List.mem_cons_of_mem _ hx)

/-- Without `selected-id` the selected-url block does nothing. -/
theorem upSelectedUrl_of_selectedId {ui : Value}
    (h : (ui.index "marketplace").get "selected-id" = none) : upSelectedUrl ui = some ui := by
  simp only [upSelectedUrl, selectedHost, h, Option.none_bind]; rfl

/-- `up` on a document it has already migrated: the selected url stays, and `known-hosts`,
whose entries are all `{}`, is rebuilt as the registry alone. -/
theorem up_settled (D : String) {G M₁ K : List (String × Value)}
    (hGm : Map.get? G "marketplace" = some (.object M₁))
    (hsid : Map.get? M₁ "selected-id" = none)
    (hurl : ∃ url, Map.get? M₁ "selected-url" = some url ∧ url ≠ .null)
    (hkh : Map.get? M₁ "known-hosts" = some (.object K)) (hbare : ∀ e ∈ K, e.2 = .object [])
    (hpkg : Map.get? G "pkg-order" = none) (hauto : Map.get? G "auto-check-updates" = none) :
    ∃ ui₂, up D (.object G) = some ui₂ ∧
      (ui₂.index "marketplace").get "known-hosts" = some (.object [(registryUrl, .object [])]) ∧
      (∀ k, k ≠ "known-hosts" →
        (ui₂.index "marketplace").get k = ((Value.object G).index "marketplace").get k) ∧
      ∀ k, k ≠ "marketplace" → ui₂.get k = (Value.object G).get k := by
  have hsel : upSelectedUrl (.object G) = some (.object G) :=
    upSelectedUrl_of_selectedId (by simp [hGm, hsid])
  obtain ⟨url, hurl, hnn⟩ := hurl
  have hdef : ∀ X, selectedDefault D (Map.insert M₁ "known-hosts" X) =
      Map.erase (Map.insert M₁ "known-hosts" X) "selected-id" := fun X => by
    simp [selectedDefault, hurl, hnn]
  refine ⟨_, up_eq D hsel (by simp [hGm]), ?_, fun k hk => ?_, fun k hk => ?_⟩
  all_goals simp only [index_object, get_object, Map.get?_insert, if_true, Option.getD_some, hGm,
    fieldsOf, hkh, upHostKeys_of_bare [] K hbare, hdef]
  · simp [Map.insert]
  · by_cases hid : k = "selected-id"
    · subst hid; simp [hsid]
    · simp [Ne.symm hk, Ne.symm hid]
  · by_cases hp : k = "pkg-order"
    · subst hp; simp [hpkg]
    · by_cases ha : k = "auto-check-updates"
      · subst ha; simp [hauto]
      · simp [Ne.symm hk, Ne.symm hp, Ne.symm ha]

/-- `up` is not idempotent.  Run again on what it wrote, it keeps `selected-url` and every
other field, but finds no `url` in the `{}` entries of `known-hosts` and leaves the registry
alone there: a second run of the migration drops every known host the first one kept. -/
theorem up_up (D : String) (F : List (String × Value))
    (hmp : ((Value.object F).index "marketplace").IsObjectOrNull) :
    ∃ ui₁ ui₂, up D (.object F) = some ui₁ ∧ up D ui₁ = some ui₂ ∧
      (ui₂.index "marketplace").get "known-hosts" = some (.object [(registryUrl, .object [])]) ∧
      (∀ k, k ≠ "known-hosts" →
        (ui₂.index "marketplace").get k = (ui₁.index "marketplace").get k) ∧
      ∀ k, k ≠ "marketplace" → ui₂.get k = ui₁.get k := by
  obtain ⟨F₁, h₁, -, hmp₁, -⟩ := upSelectedUrl_object F hmp
  have h₁' := up_eq D h₁ hmp₁
  generalize hK : Map.insert (upHostKeys [] (fieldsOf (((Value.object F₁).index
    "marketplace").index "known-hosts"))) registryUrl (.object []) = K at h₁'
  have hbare : ∀ e ∈ K, e.2 = .object [] := by
    intro e he
    rcases Map.mem_insert (hK ▸ he) with rfl | he
    · rfl
    · rcases mem_upHostKeys he with h | ⟨h, -⟩
      · cases h
      · exact h
  generalize hM₁ : selectedDefault D (Map.insert (fieldsOf ((Value.object F₁).index
    "marketplace")) "known-hosts" (.object K)) = M₁ at h₁'
  obtain ⟨ui₂, h₂, hkh, hmf, hf⟩ := up_settled D
    (G := Map.insert (Map.erase (Map.erase F₁ "pkg-order") "auto-check-updates") "marketplace"
      (.object M₁)) (by simp) (hM₁ ▸ get?_selectedDefault_selectedId D _)
    (hM₁ ▸ selectedUrl_ne_null D _) (by simp [← hM₁, get?_selectedDefault]) hbare (by simp)
    (by simp)
  exact ⟨_, ui₂, h₁', h₂, hkh, hmf, hf⟩

theorem up_up_selectedSample :
    ((Value.object selectedSampleFields).index "marketplace").IsObjectOrNull ∧
    ∃ ui₁ ui₂, up "https://registry.start9.com" (.object selectedSampleFields) = some ui₁ ∧
      up "https://registry.start9.com" ui₁ = some ui₂ ∧
      (ui₂.index "marketplace").get "known-hosts" = some (.object [(registryUrl, .object [])]) ∧
      (∀ k, k ≠ "known-hosts" →
        (ui₂.index "marketplace").get k = (ui₁.index "marketplace").get k) ∧
      ∀ k, k ≠ "marketplace" → ui₂.get k = ui₁.get k :=
  ⟨trivial, up_up _ _ trivial⟩

end StartOs
