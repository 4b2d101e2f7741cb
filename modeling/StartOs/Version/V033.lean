import Mathlib.Data.List.Infix
import StartOs.Json

/-!
# The v0.3.3 migration of the `ui` document

`version::v0_3_3` moves the marketplace settings of the frontend's `ui` document between
two shapes.  In v0.3.2 `marketplace.known-hosts` maps generated ids to `{name, url}` and
`marketplace.selected-id` names one of them.  In v0.3.3 it maps urls, each ending in
`'/'`, to objects, and `marketplace.selected-url` names one of them.

`up` and `down` follow the source line by line, in the `Option` monad: `none` is a panic
of serde_json's `IndexMut` (`StartOs.Json`).  Reading `ui` and saving it are patch-db's,
and a failure there leaves the database as it was, so only the document is modelled.
Two loops of the source are named: `upKnownHost` and `downKnownHost` are one turn each.

`down` draws a fresh `Uuid::new_v4()` for each host it keeps; `uuid n` is the `n`-th one
of the call.  `DEFAULT_MARKETPLACE` lives in the crate root, outside the shown files, and
is a parameter.

`ensure_trailing_slashes` tests its argument against the regex `.*/$`.  `matchesHere`
is that pattern anchored at one position and `isMatch` the unanchored search that
`Regex::is_match` performs.  Since `.*` may match nothing, the search succeeds at the last
position of any string that ends in `'/'`, and it can succeed nowhere else: `$` is the end
of the text.  So `ensureTrailingSlashes_spec` holds for every string, newlines included.
-/

namespace StartOs

open Value

/-! ## `ensure_trailing_slashes` -/

/-- `.*/$` matched from the start of `cs`: characters other than `'\n'` (`.`), then
`'/'`, then the end of the text (`$` without the multi-line flag). -/
def matchesHere : List Char → Bool
  | [] => false
  | c :: cs => (c == '/' && cs.isEmpty) || (c != '\n' && matchesHere cs)

/-- `REG.is_match(url)` for `REG = Regex::new(r".*/$")`: the pattern matched from some
position of the text. -/
def isMatch (url : String) : Bool := url.data.tails.any matchesHere

/-- `ensure_trailing_slashes`. -/
def ensureTrailingSlashes (url : String) : String :=
  if isMatch url then url else url ++ "/"

/-- A string whose last character is `'/'`. -/
def EndsWithSlash (s : String) : Prop := s.data.getLast? = some '/'

instance : DecidablePred EndsWithSlash := fun s =>
  inferInstanceAs (Decidable (s.data.getLast? = some '/'))

theorem getLast?_of_matchesHere : ∀ {cs : List Char}, matchesHere cs = true →
    cs.getLast? = some '/'
  | c :: cs, h => by
    simp only [matchesHere, Bool.or_eq_true, Bool.and_eq_true, beq_iff_eq,
      List.isEmpty_iff, bne_iff_ne] at h
    rcases h with ⟨rfl, rfl⟩ | ⟨-, h⟩
    · rfl
    · rw [show c :: cs = [c] ++ cs from rfl, List.getLast?_append, getLast?_of_matchesHere h]
      rfl

theorem endsWithSlash_of_isMatch {url : String} (h : isMatch url = true) :
    EndsWithSlash url := by
  obtain ⟨t, ht, hm⟩ := List.any_eq_true.mp h
  obtain ⟨p, hp⟩ := (List.mem_tails _ _).mp ht
  rw [EndsWithSlash, ← hp, List.getLast?_append, getLast?_of_matchesHere hm]
  rfl

/-- Every url `ensure_trailing_slashes` returns ends in `'/'`. -/
theorem ensureTrailingSlashes_endsWithSlash (url : String) :
    EndsWithSlash (ensureTrailingSlashes url) := by
  unfold ensureTrailingSlashes
  split
  · exact endsWithSlash_of_isMatch ‹_›
  · simp [EndsWithSlash]

/-- A string ending in `'/'` matches at its last position, with `.*` empty. -/
theorem isMatch_of_endsWithSlash {url : String} (h : EndsWithSlash url) : isMatch url = true := by
  obtain ⟨init, hinit⟩ := List.getLast?_eq_some_iff.mp h
  refine List.any_eq_true.mpr ⟨['/'], (List.mem_tails _ _).mpr ?_, rfl⟩
  rw [hinit]
  exact List.suffix_append init ['/']

theorem isMatch_iff (url : String) : isMatch url = true ↔ EndsWithSlash url :=
  ⟨endsWithSlash_of_isMatch, isMatch_of_endsWithSlash⟩

theorem ensureTrailingSlashes_eq (url : String) :
    ensureTrailingSlashes url = if EndsWithSlash url then url else url ++ "/" := by
  by_cases h : EndsWithSlash url <;> simp [ensureTrailingSlashes, h, isMatch_iff]

/-- `ensure_trailing_slashes` on every string, newlines included: the search for `.*/$`
succeeds exactly when the string ends in `'/'`, so `'/'` is appended exactly when it is
missing; the result ends in `'/'`, and a second call leaves it as it is. -/
theorem ensureTrailingSlashes_spec (url : String) :
    (isMatch url = true ↔ EndsWithSlash url) ∧
    ensureTrailingSlashes url = (if EndsWithSlash url then url else url ++ "/") ∧
    EndsWithSlash (ensureTrailingSlashes url) ∧
    ensureTrailingSlashes (ensureTrailingSlashes url) = ensureTrailingSlashes url := by
  have hend := ensureTrailingSlashes_endsWithSlash url
  refine ⟨isMatch_iff url, ensureTrailingSlashes_eq url, hend, ?_⟩
  rw [ensureTrailingSlashes_eq (ensureTrailingSlashes url), if_pos hend]

/-- A `'/'` before a newline is not at the end of the text. -/
example : ensureTrailingSlashes "http://a/\nb" = "http://a/\nb/" := by decide

/-! ## `MarketPlaceUrls` -/

/-- `MarketPlaceUrls`. -/
inductive MarketPlaceUrls where
  | default

/-- `MarketPlaceUrls::url`. -/
def MarketPlaceUrls.url (defaultMarketplace : String) : MarketPlaceUrls → String
  | .default => defaultMarketplace ++ "/"

/-- The known host `up` always adds. -/
def registryUrl : String := "https://registry.start9.com/"

/-! ## `Version::up` -/

/-- `up`'s lookup of the host that `selected-id` names. -/
def selectedHost (ui : Value) : Option Value :=
  ((ui.index "marketplace").get "selected-id").bind fun selectedId =>
    match selectedId with
    | .string selectedId => ((ui.index "marketplace").index "known-hosts").get selectedId
    | _ => none

/-- One turn of `up`'s loop over the old known hosts. -/
def upKnownHost (ui : Value) (host : String × Value) : Option Value :=
  match host.2.index "url" with
  | .string url =>
    ui.modify "marketplace" (·.modify "known-hosts" (·.set (ensureTrailingSlashes url) (.object [])))
  | _ => pure ui

/-- Lines 30–41 of `up`: `selected-url` from the host that `selected-id` names, when that
host is a string. -/
def upSelectedUrl (ui : Value) : Option Value :=
  match selectedHost ui with
  | some (.string selectedUrl) => ui.modify "marketplace" (·.set "selected-url" (.string selectedUrl))
  | _ => pure ui

/-- Lines 46–56 of `up`: `known-hosts` rebuilt from the urls of the old hosts. -/
def upKnownHosts (ui : Value) : Option Value := do
  -- `let known_hosts = ui["marketplace"]["known-hosts"].take();`
  let knownHosts := (ui.index "marketplace").index "known-hosts"
  let ui ← ui.modify "marketplace" (·.set "known-hosts" .null)
  let ui ← ui.modify "marketplace" (·.set "known-hosts" (.object []))
  let ui ← match knownHosts with
    | .object knownHosts => knownHosts.foldlM upKnownHost ui
    | _ => pure ui
  ui.modify "marketplace" (·.modify "known-hosts" (·.set registryUrl (.object [])))

/-- Lines 58–63 of `up`: `selected-id` removed, and `selected-url` defaulted when null. -/
def upSelectedDefault (defaultMarketplace : String) (ui : Value) : Option Value :=
  let ui := ui.updateField "marketplace" (·.remove "selected-id")
  if ((ui.index "marketplace").index "selected-url").isNull then
    ui.modify "marketplace" (·.set "selected-url" (.string (MarketPlaceUrls.default.url defaultMarketplace)))
  else pure ui

/-- `Version::up` (v0.3.3). -/
def up (defaultMarketplace : String) (ui : Value) : Option Value := do
  let ui ← upSelectedUrl ui
  let ui := (ui.remove "pkg-order").remove "auto-check-updates"
  let ui ← upKnownHosts ui
  upSelectedDefault defaultMarketplace ui

/-! ## `Version::down` -/

/-- One turn of `down`'s loop over the v0.3.3 known hosts: the document, and the number
of ids drawn so far. -/
def downKnownHost (uuid : Nat → String) (selectedUrl : Option String) (st : Value × Nat)
    (host : String × Value) : Option (Value × Nat) :=
  match host.2.index "name" with
  | .string name => do
    let id := uuid st.2
    let ui ← if some name = selectedUrl then
        st.1.modify "marketplace" (·.set "selected-id" (.string id))
      else pure st.1
    let ui ← ui.modify "marketplace" (·.modify "known-hosts"
      (·.set id (.object [("name", .string name), ("url", .string host.1)])))
    pure (ui, st.2 + 1)
  | _ => pure st

/-- `Version::down` (v0.3.3); `packageIds` are the keys of `package_data`. -/
def down (uuid : Nat → String) (packageIds : List String) (ui : Value) : Option Value := do
  let selectedUrl := ((ui.index "marketplace").index "selected-url").asStr
  -- `let known_hosts = ui["marketplace"]["known-hosts"].take();`
  let knownHosts := (ui.index "marketplace").index "known-hosts"
  let ui ← ui.modify "marketplace" (·.set "known-hosts" .null)
  let ui ← ui.modify "marketplace" (·.set "known-hosts" (.object []))
  let (ui, _) ← match knownHosts with
    | .object knownHosts => knownHosts.foldlM (downKnownHost uuid selectedUrl) (ui, 0)
    | _ => pure (ui, 0)
  let ui ← ui.set "auto-check-updates" (.bool true)
  let ui ← ui.set "pkg-order" (.array (packageIds.map .string))
  pure (ui.updateField "marketplace" (·.remove "selected-url"))

end StartOs
