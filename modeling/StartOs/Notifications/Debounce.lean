import Mathlib.Algebra.Group.Int
import StartOs.Basic

/-!
# The debounce cache of `NotificationManager`

`should_notify` keeps, under each key `(package_id, level, title)`, a clock reading.  A
call is *admitted* when its key has no entry, when it carries no debounce interval, or
when its interval has elapsed since the cached reading; an admitted call caches a fresh
reading, a suppressed one leaves the cache alone.  The cache sits behind a mutex held for
the whole check-and-update, so calls are atomic and a run is a list of calls, newest first.

The clock is read by `Utc::now()`.  The branch that compares reads it twice, first for the
comparison and then for the insert, and the other branches read it once; a `Call` carries
the two readings as `now` and `later`.  The sum `last_issued + interval as i64` is `i64`
arithmetic (`addI64`); `NoOverflow` says a run keeps it inside `i64`.

The abstract model is the log of admitted calls, newest first, each with the reading it
left (`admittedLog`), decided by the law of `admitReading` in plain integers.  The
cache is the log's newest reading per key (`cacheAfter_get?`), and `shouldNotify` admits
exactly what the law admits (`admitted_iff_admitReading`).  Independently of overflow,
the fate of a call depends on the calls on its own key only (`admitted_filter_key`).
-/

namespace StartOs

/-- `NotificationLevel`. -/
inductive NotificationLevel where
  | success
  | info
  | warning
  | error
  deriving DecidableEq, Repr

/-- The key of the cache, `(package_id, level, title)`. -/
structure CacheKey where
  /-- `package_id`. -/
  packageId : Option PackageId
  /-- `level`. -/
  level : NotificationLevel
  /-- `title`. -/
  title : String
  deriving DecidableEq, Repr

/-- `HashMap<(Option<PackageId>, NotificationLevel, String), i64>`. -/
abbrev Cache := List (CacheKey × Int)

/-- One call of `should_notify`: its key, its `debounce_interval`, and the readings of the
clock (`now` for the comparison or the only read, `later` for the insert after a
comparison). -/
structure Call where
  /-- `(package_id, level, title)`. -/
  key : CacheKey
  /-- `debounce_interval: Option<u32>`. -/
  debounceInterval : Option UInt32
  /-- The first `Utc::now().timestamp()`. -/
  now : Int
  /-- The second one, taken only by the insert that follows a comparison. -/
  later : Int
  deriving DecidableEq, Repr

/-- `i64` addition as a release build computes it. -/
def addI64 (a b : Int) : Int := (a + b).bmod (2 ^ 64)

/-- `should_notify`: whether the call is admitted, and the cache after it. -/
def shouldNotify (cache : Cache) (c : Call) : Bool × Cache :=
  match Map.get? cache c.key with
  | none => (true, Map.insert cache c.key c.now)
  | some lastIssued =>
    match c.debounceInterval with
    | none => (true, Map.insert cache c.key c.now)
    | some interval =>
      if addI64 lastIssued interval.toNat > c.now then (false, cache)
      else (true, Map.insert cache c.key c.later)

/-- The cache after a run, newest call first, from the empty map of
`NotificationManager::new`. -/
def cacheAfter : List Call → Cache
  | [] => []
  | c :: earlier => (shouldNotify (cacheAfter earlier) c).2

/-- Whether `c` is admitted after the calls `earlier`. -/
def admitted (earlier : List Call) (c : Call) : Bool := (shouldNotify (cacheAfter earlier) c).1

/-! ## One call -/

/-- What `should_notify` decides from the entry of the call's key: `some r` admits the
call and caches `r`. -/
def shouldNotifyEntry (lastIssued : Option Int) (c : Call) : Option Int :=
  match lastIssued, c.debounceInterval with
  | none, _ => some c.now
  | some _, none => some c.now
  | some l, some interval => if addI64 l interval.toNat > c.now then none else some c.later

theorem shouldNotify_eq (cache : Cache) (c : Call) :
    shouldNotify cache c = match shouldNotifyEntry (Map.get? cache c.key) c with
      | some r => (true, Map.insert cache c.key r)
      | none => (false, cache) := by
  unfold shouldNotify shouldNotifyEntry
  cases Map.get? cache c.key with
  | none => rfl
  | some l => cases c.debounceInterval with
    | none => rfl
    | some i => by_cases h : addI64 l i.toNat > c.now <;> simp [h]

theorem shouldNotify_get?_ne (cache : Cache) (c : Call) {k : CacheKey} (hk : k ≠ c.key) :
    Map.get? (shouldNotify cache c).2 k = Map.get? cache k := by
  rw [shouldNotify_eq]
  split <;> simp [Ne.symm hk]

/-- A suppressed call leaves the cache as it was. -/
theorem shouldNotify_false (cache : Cache) (c : Call) (h : (shouldNotify cache c).1 = false) :
    (shouldNotify cache c).2 = cache := by
  rw [shouldNotify_eq] at h ⊢
  split <;> simp_all

theorem shouldNotify_fst (cache : Cache) (c : Call) :
    (shouldNotify cache c).1 = (shouldNotifyEntry (Map.get? cache c.key) c).isSome := by
  rw [shouldNotify_eq]; split <;> simp_all

theorem shouldNotify_get?_self (cache : Cache) (c : Call) :
    Map.get? (shouldNotify cache c).2 c.key =
      (shouldNotifyEntry (Map.get? cache c.key) c).or (Map.get? cache c.key) := by
  rw [shouldNotify_eq]; split <;> simp_all

/-! ## Calls on other keys -/

theorem cacheAfter_get?_filter (earlier : List Call) (k : CacheKey) :
    Map.get? (cacheAfter (earlier.filter (·.key = k))) k = Map.get? (cacheAfter earlier) k := by
  induction earlier with
  | nil => rfl
  | cons d earlier ih =>
    by_cases hd : d.key = k
    · subst hd
      simp only [List.filter_cons, decide_True, if_true, cacheAfter, shouldNotify_get?_self, ih]
    · simp [List.filter_cons, hd, cacheAfter, shouldNotify_get?_ne _ _ (Ne.symm hd), ih]

/-- Whether a call is admitted depends on the earlier calls on its own key only. -/
theorem admitted_filter_key (earlier : List Call) (c : Call) :
    admitted (earlier.filter (·.key = c.key)) c = admitted earlier c := by
  simp only [admitted, shouldNotify_fst, cacheAfter_get?_filter]

/-! ## The law, and the log of admitted calls -/

/-- A value of `i64`. -/
def InI64 (x : Int) : Prop := -2 ^ 63 ≤ x ∧ x < 2 ^ 63

instance : DecidablePred InI64 := fun x => inferInstanceAs (Decidable (-2 ^ 63 ≤ x ∧ x < 2 ^ 63))

theorem addI64_eq {a b : Int} (h : InI64 (a + b)) : addI64 a b = a + b := by
  obtain ⟨h₁, h₂⟩ := h
  unfold addI64
  rw [Int.bmod_def]
  push_cast
  split <;> omega

/-- The debounce law: from the reading the key's most recent admitted call left, whether
a call is admitted (`some`) and the reading it leaves. -/
def admitReading (last : Option Int) (c : Call) : Option Int :=
  match last, c.debounceInterval with
  | none, _ => some c.now
  | some _, none => some c.now
  | some l, some interval => if l + interval.toNat ≤ c.now then some c.later else none

/-- One call under the law: an admitted call goes on top of the log. -/
def logCall (log : List (CacheKey × Int)) (c : Call) : List (CacheKey × Int) :=
  match admitReading (Map.get? log c.key) c with
  | some r => (c.key, r) :: log
  | none => log

/-- The admitted calls of a run, newest first, each with its key and the reading it left. -/
def admittedLog : List Call → List (CacheKey × Int)
  | [] => []
  | c :: earlier => logCall (admittedLog earlier) c

/-- Every sum `last_issued + interval as i64` a run can form stays inside `i64`. -/
def NoOverflow (calls : List Call) : Prop :=
  ∀ c ∈ calls, ∀ d ∈ calls, ∀ i, d.debounceInterval = some i →
    InI64 (c.now + i.toNat) ∧ InI64 (c.later + i.toNat)

theorem NoOverflow.tail {c : Call} {earlier : List Call} (h : NoOverflow (c :: earlier)) :
    NoOverflow earlier := fun a ha b hb => h a (.tail _ ha) b (.tail _ hb)

/-- Every reading in the log is one of a call of the run. -/
theorem admittedLog_reading {calls : List Call} {k : CacheKey} {r : Int}
    (h : Map.get? (admittedLog calls) k = some r) : ∃ c ∈ calls, r = c.now ∨ r = c.later := by
  induction calls with
  | nil => cases h
  | cons c earlier ih =>
    simp only [admittedLog, logCall] at h
    split at h
    · next r' hr =>
      rw [Map.get?_cons] at h
      split at h
      · cases h
        unfold admitReading at hr
        refine ⟨c, .head _, ?_⟩
        split at hr <;> (try split at hr) <;> simp_all
      · obtain ⟨d, hd, e⟩ := ih h; exact ⟨d, .tail _ hd, e⟩
    · obtain ⟨d, hd, e⟩ := ih h; exact ⟨d, .tail _ hd, e⟩

/-- Without overflow the code's comparison is the law's. -/
theorem shouldNotifyEntry_eq {last : Option Int} {c : Call}
    (hfit : ∀ l i, last = some l → c.debounceInterval = some i → InI64 (l + i.toNat)) :
    shouldNotifyEntry last c = admitReading last c := by
  unfold shouldNotifyEntry admitReading
  cases last with
  | none => rfl
  | some l =>
    cases hi : c.debounceInterval with
    | none => rfl
    | some i =>
      simp only [addI64_eq (hfit l i rfl hi)]
      split_ifs <;> first | rfl | (exfalso; omega)

/-! ## The cache refines the log -/

theorem fit_of_noOverflow {c : Call} {earlier : List Call} (hfit : NoOverflow (c :: earlier))
    (l : Int) (i : UInt32) (hl : Map.get? (admittedLog earlier) c.key = some l)
    (hi : c.debounceInterval = some i) : InI64 (l + i.toNat) := by
  obtain ⟨d, hd, rfl | rfl⟩ := admittedLog_reading hl
  · exact (hfit d (.tail _ hd) c (.head _) i hi).1
  · exact (hfit d (.tail _ hd) c (.head _) i hi).2

/-- The cache holds, under each key, the reading the most recent admitted call on it left. -/
theorem cacheAfter_get? (calls : List Call) (hfit : NoOverflow calls) (k : CacheKey) :
    Map.get? (cacheAfter calls) k = Map.get? (admittedLog calls) k := by
  induction calls generalizing k with
  | nil => rfl
  | cons c earlier ih =>
    have hentry : shouldNotifyEntry (Map.get? (cacheAfter earlier) c.key) c =
        admitReading (Map.get? (admittedLog earlier) c.key) c := by
      rw [ih hfit.tail, shouldNotifyEntry_eq (fit_of_noOverflow hfit)]
    simp only [cacheAfter, admittedLog, logCall, shouldNotify_eq, hentry]
    split <;> simp [Map.get?_cons, ih hfit.tail]

/-- `should_notify` admits exactly what the law admits. -/
theorem admitted_iff_admitReading (earlier : List Call) (c : Call)
    (hfit : NoOverflow (c :: earlier)) :
    admitted earlier c = (admitReading (Map.get? (admittedLog earlier) c.key) c).isSome := by
  rw [admitted, shouldNotify_fst, cacheAfter_get? earlier hfit.tail,
    shouldNotifyEntry_eq (fit_of_noOverflow hfit)]

/-! ## The law along a run -/

/-- What the debounce cache guarantees along a run of calls, newest first. -/
structure Debounced (calls : List Call) : Prop where
  /-- The cache holds, under each key, the reading the most recent admitted call on it left. -/
  cache : ∀ k, Map.get? (cacheAfter calls) k = Map.get? (admittedLog calls) k
  /-- A call is admitted exactly when its key has no entry, it has no interval, or its
  interval has elapsed since the cached reading. -/
  admits : ∀ c earlier, c :: earlier <:+ calls →
    (admitted earlier c = true ↔ Map.get? (cacheAfter earlier) c.key = none ∨
      c.debounceInterval = none ∨ ∃ l i, Map.get? (cacheAfter earlier) c.key = some l ∧
        c.debounceInterval = some i ∧ l + i.toNat ≤ c.now)
  /-- A suppressed call leaves the cache unchanged. -/
  suppressed : ∀ c earlier, c :: earlier <:+ calls → admitted earlier c = false →
    cacheAfter (c :: earlier) = cacheAfter earlier
  /-- Calls on other keys do not change whether a call is admitted. -/
  ownKey : ∀ c earlier, c :: earlier <:+ calls →
    admitted (earlier.filter (·.key = c.key)) c = admitted earlier c
  /-- An admitted call with interval `I` comes at least `I` after the reading the previous
  admitted call on its key left. -/
  spacing : ∀ c earlier, c :: earlier <:+ calls → ∀ l i, admitted earlier c = true →
    c.debounceInterval = some i → Map.get? (admittedLog earlier) c.key = some l →
      l + i.toNat ≤ c.now

theorem NoOverflow.suffix {calls calls' : List Call} (h : NoOverflow calls)
    (hs : calls' <:+ calls) : NoOverflow calls' :=
  fun c hc d hd => h c (hs.subset hc) d (hs.subset hd)

theorem admitted_iff (earlier : List Call) (c : Call) (hfit : NoOverflow (c :: earlier)) :
    admitted earlier c = true ↔ Map.get? (cacheAfter earlier) c.key = none ∨
      c.debounceInterval = none ∨ ∃ l i, Map.get? (cacheAfter earlier) c.key = some l ∧
        c.debounceInterval = some i ∧ l + i.toNat ≤ c.now := by
  rw [admitted_iff_admitReading earlier c hfit, cacheAfter_get? earlier hfit.tail]
  unfold admitReading
  cases Map.get? (admittedLog earlier) c.key with
  | none => simp
  | some l => cases c.debounceInterval with
    | none => simp
    | some i => by_cases h : l + i.toNat ≤ c.now <;> simp [h]

theorem debounced (calls : List Call) (hfit : NoOverflow calls) : Debounced calls where
  cache := cacheAfter_get? calls hfit
  admits c earlier hs := admitted_iff earlier c (hfit.suffix hs)
  suppressed c earlier _ h := shouldNotify_false _ c h
  ownKey c earlier _ := admitted_filter_key earlier c
  spacing c earlier hs l i h hi hl := by
    rw [admitted_iff_admitReading earlier c (hfit.suffix hs), hl] at h
    simp only [admitReading, hi] at h
    split_ifs at h with hle
    · exact hle
    · cases h

/-! ## Real clocks -/

/-- Every clock reading of the run lies within `2 ^ 62` seconds of the epoch, which any
`Utc::now().timestamp()` of the next hundred billion years does. -/
def ClockInRange (calls : List Call) : Prop :=
  ∀ c ∈ calls, -2 ^ 62 ≤ c.now ∧ c.now ≤ 2 ^ 62 ∧ -2 ^ 62 ≤ c.later ∧ c.later ≤ 2 ^ 62

/-- An interval is below `2 ^ 32`, so such readings leave room for every sum. -/
theorem noOverflow_of_clockInRange {calls : List Call} (h : ClockInRange calls) :
    NoOverflow calls := by
  intro c hc d _ i _
  have hi : i.toNat < 2 ^ 32 := i.toNat_lt_size
  obtain ⟨h₁, h₂, h₃, h₄⟩ := h c hc
  exact ⟨⟨by omega, by omega⟩, ⟨by omega, by omega⟩⟩

/-- With real clock readings `last_issued + interval as i64` cannot overflow, so every run
of `should_notify` follows the debounce law. -/
theorem debounced_of_clockInRange (calls : List Call) (h : ClockInRange calls) :
    Debounced calls :=
  debounced calls (noOverflow_of_clockInRange h)

theorem debounced_of_clockInRange_hourly :
    ClockInRange [⟨⟨none, .warning, "disk-low"⟩, some 3600, 3700, 3700⟩,
      ⟨⟨none, .warning, "disk-low"⟩, some 3600, 100, 100⟩] ∧
    Debounced [⟨⟨none, .warning, "disk-low"⟩, some 3600, 3700, 3700⟩,
      ⟨⟨none, .warning, "disk-low"⟩, some 3600, 100, 100⟩] :=
  have h : ClockInRange [⟨⟨none, .warning, "disk-low"⟩, some 3600, 3700, 3700⟩,
      ⟨⟨none, .warning, "disk-low"⟩, some 3600, 100, 100⟩] := by
    unfold ClockInRange; decide
  ⟨h, debounced_of_clockInRange _ h⟩

end StartOs
