import StartOs.Json
import StartOs.Notifications.Debounce

/-!
# The notification ledger

The ledger is spread over three stores: the debounce cache in memory, the
`notifications` table in Postgres, and the `unread-notification-count` of server-info in
patch-db.  `Ledger` holds all three, and the table's id sequence with them.  Postgres fills
`id` from that sequence and `created_at` from its clock; the clock reading is carried by
the call, as the readings of `should_notify` are.

Every collaborator call may fail.  A call of `notify`, `list`, `delete` or `delete_before`
takes the step at which it fails as an argument (`none` when nothing fails), and a failing
step returns its error with the state as it stands: nothing is rolled back.  `Op` is one
call and `ledgerAfter` runs them, newest first.

`step_unreadNotificationCount` says what one call does to the counter; from it,
`unread_eq_countedSinceReset` and `countedSinceReset_le_insertedSinceReset` say what a
run does.  The counter counts the rows of the `notify` calls that returned `Ok` since
the last `list` with `before = None` that returned `Ok`; a `notify` whose `count.save`
fails has inserted its row and left the counter alone.  Every call keeps the table's ids
drawn from its sequence and increasing (`ledgerAfter_wellFormed`).
-/

namespace StartOs

/-- `impl Display for NotificationLevel`. -/
def NotificationLevel.toString : NotificationLevel → String
  | .success => "success"
  | .info => "info"
  | .warning => "warning"
  | .error => "error"

/-- `impl FromStr for NotificationLevel`; the error is `InvalidNotificationLevel`. -/
def NotificationLevel.fromStr (s : String) : Except String NotificationLevel :=
  if s = "success" then .ok .success
  else if s = "info" then .ok .info
  else if s = "warning" then .ok .warning
  else if s = "error" then .ok .error
  else .error s

/-- `From<InvalidNotificationLevel> for crate::Error`. -/
def invalidNotificationLevel (s : String) : Error :=
  ⟨.parseDbField, some ("Invalid Notification Level: " ++ s)⟩

/-- What `list` reads back is the level `notify` wrote. -/
theorem fromStr_toString (l : NotificationLevel) :
    NotificationLevel.fromStr l.toString = .ok l := by
  cases l <;> rfl

/-- The implementors of `NotificationType`. -/
inductive NotificationType where
  | unit
  | backupReport
  deriving DecidableEq, Repr

/-- `NotificationType::CODE`. -/
def NotificationType.code : NotificationType → Int
  | .unit => 0
  | .backupReport => 1

/-- A row of the `notifications` table. -/
structure Row where
  /-- `id`, from the table's sequence. -/
  id : Nat
  /-- `package_id`. -/
  packageId : Option PackageId
  /-- `created_at`, from Postgres's clock. -/
  createdAt : Int
  /-- `code`. -/
  code : Int
  /-- `level`, as `Display` writes it. -/
  level : String
  /-- `title`. -/
  title : String
  /-- `message`. -/
  message : String
  /-- `data`, the payload's JSON text. -/
  data : Option String
  deriving DecidableEq, Repr

/-- `Notification`, what `list` returns. -/
structure Notification where
  /-- `id: u32`. -/
  id : Nat
  /-- `package_id`. -/
  packageId : Option PackageId
  /-- `created_at`. -/
  createdAt : Int
  /-- `code: u32`. -/
  code : Nat
  /-- `level`. -/
  level : NotificationLevel
  /-- `title`. -/
  title : String
  /-- `message`. -/
  message : String
  /-- `data`. -/
  data : Value

/-- The state the notification functions read and write. -/
structure Ledger where
  /-- `NotificationManager.cache`. -/
  cache : Cache
  /-- The `notifications` table, in insertion order. -/
  notifications : List Row
  /-- The next value of the table's id sequence. -/
  nextId : Nat
  /-- `server-info.unread-notification-count`. -/
  unreadNotificationCount : Nat

/-- The table's ids come from its sequence: each is below the sequence's next value, and
they increase in insertion order, so no two rows share one. -/
structure Ledger.WellFormed (s : Ledger) : Prop where
  /-- Every id was drawn from the sequence. -/
  ids_lt : ∀ r ∈ s.notifications, r.id < s.nextId
  /-- Ids increase in insertion order. -/
  ids_increasing : s.notifications.Pairwise fun a b => a.id < b.id

/-- Dropping rows and advancing the sequence keep the table well formed. -/
theorem Ledger.WellFormed.mono {s s' : Ledger} (h : s.WellFormed)
    (hrows : List.Sublist s'.notifications s.notifications) (hid : s.nextId ≤ s'.nextId) :
    s'.WellFormed :=
  ⟨fun r hr => Nat.lt_of_lt_of_le (h.ids_lt r (hrows.subset hr)) hid,
    h.ids_increasing.sublist hrows⟩

/-- A row under the sequence's next value, appended as the sequence advances, keeps the
table well formed. -/
theorem Ledger.WellFormed.append {s s' : Ledger} (h : s.WellFormed) (r : Row)
    (hr : r.id = s.nextId) (hrows : s'.notifications = s.notifications ++ [r])
    (hid : s'.nextId = s.nextId + 1) : s'.WellFormed := by
  constructor
  · intro r' hr'
    rw [hrows, List.mem_append, List.mem_singleton] at hr'
    rcases hr' with hr' | rfl
    · have := h.ids_lt r' hr'; omega
    · omega
  · rw [hrows, List.pairwise_append]
    exact ⟨h.ids_increasing, List.pairwise_singleton _ _,
      fun a ha b hb => by rw [List.mem_singleton.mp hb, hr]; exact h.ids_lt a ha⟩

/-! ## `notify` -/

/-- The step of `notify` that fails. -/
inductive NotifyFault where
  /-- `unread_notification_count().get_mut(db)`. -/
  | getMut
  /-- `serde_json::to_string(&subtype)`. -/
  | serialize
  /-- The `INSERT`. -/
  | insert
  /-- `count.save(db)`. -/
  | save
  deriving DecidableEq, Repr

/-- The arguments of one `notify` call, with the clock readings it meets. -/
structure Notify where
  /-- `package_id`. -/
  packageId : Option PackageId
  /-- `level`. -/
  level : NotificationLevel
  /-- `title`. -/
  title : String
  /-- `message`. -/
  message : String
  /-- The type of `subtype`. -/
  subtype : NotificationType
  /-- `serde_json::to_string(&subtype)`, when it succeeds. -/
  payload : String
  /-- `debounce_interval`. -/
  debounceInterval : Option UInt32
  /-- The readings of `should_notify`. -/
  now : Int
  /-- The second reading of `should_notify`. -/
  later : Int
  /-- Postgres's clock at the `INSERT`. -/
  createdAt : Int

/-- The `should_notify` call a `notify` makes. -/
def Notify.call (n : Notify) : Call :=
  ⟨⟨n.packageId, n.level, n.title⟩, n.debounceInterval, n.now, n.later⟩

/-- The row the `INSERT` of `notify` adds, under id `id`. -/
def Notify.row (n : Notify) (id : Nat) : Row :=
  ⟨id, n.packageId, n.createdAt, n.subtype.code, n.level.toString, n.title, n.message,
    some n.payload⟩

/-- `NotificationManager::notify`. -/
def notify (s : Ledger) (n : Notify) (fault : Option NotifyFault) : Except Error Unit × Ledger :=
  let (issue, cache) := shouldNotify s.cache n.call
  let s := { s with cache }
  if !issue then (.ok (), s)
  else if fault = some .getMut then (.error dbError, s)
  else
    let count := s.unreadNotificationCount
    if fault = some .serialize then (.error ⟨.serialization, none⟩, s)
    else if fault = some .insert then (.error dbError, s)
    else
      let s := { s with notifications := s.notifications ++ [n.row s.nextId], nextId := s.nextId + 1 }
      if fault = some .save then (.error dbError, s)
      else (.ok (), { s with unreadNotificationCount := count + 1 })

/-- Everything one `notify` can do once `should_notify` has updated the cache: return `Ok`
and nothing more (the call is suppressed), fail before the `INSERT`, fail at `count.save`
after it, or insert the row and bump the counter. -/
theorem notify_cases (s : Ledger) (n : Notify) (fault : Option NotifyFault) :
    ((shouldNotify s.cache n.call).1 = false ∧
      notify s n fault = (.ok (), { s with cache := (shouldNotify s.cache n.call).2 })) ∨
    (∃ err, notify s n fault = (.error err, { s with cache := (shouldNotify s.cache n.call).2 })) ∨
    notify s n fault = (.error dbError,
      { s with cache := (shouldNotify s.cache n.call).2,
               notifications := s.notifications ++ [n.row s.nextId], nextId := s.nextId + 1 }) ∨
    notify s n fault = (.ok (),
      { s with cache := (shouldNotify s.cache n.call).2,
               notifications := s.notifications ++ [n.row s.nextId], nextId := s.nextId + 1,
               unreadNotificationCount := s.unreadNotificationCount + 1 }) := by
  unfold notify
  rcases shouldNotify s.cache n.call with ⟨_ | _, cache⟩
  · exact .inl ⟨rfl, rfl⟩
  rcases fault with _ | _ | _ | _ | _
  · exact .inr (.inr (.inr rfl))
  · exact .inr (.inl ⟨_, rfl⟩)
  · exact .inr (.inl ⟨_, rfl⟩)
  · exact .inr (.inl ⟨_, rfl⟩)
  · exact .inr (.inr (.inl rfl))

theorem notify_cache (s : Ledger) (n : Notify) (fault : Option NotifyFault) :
    (notify s n fault).2.cache = (shouldNotify s.cache n.call).2 := by
  rcases notify_cases s n fault with ⟨-, h⟩ | ⟨err, h⟩ | h | h <;> rw [h]

/-- A suppressed `notify` returns `Ok` and changes nothing. -/
theorem notify_suppressed (s : Ledger) (n : Notify) (fault : Option NotifyFault)
    (h : (shouldNotify s.cache n.call).1 = false) : notify s n fault = (.ok (), s) := by
  have hc := shouldNotify_false _ _ h
  simp only [notify]
  rw [h, hc]
  rfl

/-- What one `notify` does to the counter and the id sequence: the counter grows with the
rows inserted, but only when the call returns `Ok`. -/
theorem notify_counter (s : Ledger) (n : Notify) (fault : Option NotifyFault) :
    (notify s n fault).2.unreadNotificationCount = s.unreadNotificationCount +
      if (notify s n fault).1.isOk then (notify s n fault).2.nextId - s.nextId else 0 := by
  rcases notify_cases s n fault with ⟨-, h⟩ | ⟨err, h⟩ | h | h <;>
    simp [h, Except.isOk, Except.toBool]

/-- The `create` command: `notify` with the payload `()` and no debounce interval. -/
def create (s : Ledger) (packageId : Option PackageId) (level : NotificationLevel)
    (title message : String) (now createdAt : Int) (fault : Option NotifyFault) :
    Except Error Unit × Ledger :=
  notify s ⟨packageId, level, title, message, .unit, "null", none, now, now, createdAt⟩ fault

/-! ## `list`, `delete`, `delete_before` -/

/-- The step of `list` that fails. -/
inductive ListFault where
  /-- `model.lock(&mut handle, LockType::Write)`. -/
  | lock
  /-- The `SELECT`. -/
  | fetch
  /-- `model.put(&mut handle, &0)`. -/
  | put
  deriving DecidableEq, Repr

/-- `ORDER BY id DESC LIMIT $n` over the rows that pass `keep`. -/
def selectDesc (rows : List Row) (keep : Row → Bool) (limit : Nat) : List Row :=
  ((rows.filter keep).mergeSort fun a b => b.id ≤ a.id).take limit

section Parse

/-! `PackageId::from_str` and `serde_json::from_str` (with its error text) belong to other
crates and modules; the functions below take them as arguments. -/

variable (parsePackageId : String → Option PackageId) (parseValue : String → Except String Value)

/-- The closure of `list` that turns a record into a `Notification`. -/
def parseRow (r : Row) : Except Error Notification := do
  let level ← match NotificationLevel.fromStr r.level with
    | .ok a => pure a
    | .error e => throw (invalidNotificationLevel e)
  let data ← match r.data with
    | none => pure Value.null
    | some v => match parseValue v with
      | .ok a => pure a
      | .error e => throw ⟨.parseDbField, some ("Invalid Notification Data: " ++ e)⟩
  pure ⟨r.id % 2 ^ 32, r.packageId.bind parsePackageId, r.createdAt, (r.code % 2 ^ 32).toNat,
    level, r.title, r.message, data⟩

/-- `list`: the newest notifications, and with `before = None` the counter reset to 0. -/
def list (s : Ledger) (before : Option Int) (limit : Option UInt32) (fault : Option ListFault) :
    Except Error (List Notification) × Ledger :=
  let limit := (limit.getD 40).toNat
  match before with
  | none =>
    if fault = some .lock ∨ fault = some .fetch then (.error dbError, s)
    else
      match (selectDesc s.notifications (fun _ => true) limit).mapM
          (parseRow parsePackageId parseValue) with
      | .error e => (.error e, s)
      | .ok notifs =>
        if fault = some .put then (.error dbError, s)
        else (.ok notifs, { s with unreadNotificationCount := 0 })
  | some before =>
    if fault = some .fetch then (.error dbError, s)
    else
      match (selectDesc s.notifications (fun r => (r.id : Int) < before) limit).mapM
          (parseRow parsePackageId parseValue) with
      | .error e => (.error e, s)
      | .ok res => (.ok res, s)

/-- `list` changes the state only by the reset of a `before = None` call that returns `Ok`. -/
theorem list_state (s : Ledger) (before : Option Int) (limit : Option UInt32)
    (fault : Option ListFault) :
    (list parsePackageId parseValue s before limit fault).2 =
      if before = none ∧ (list parsePackageId parseValue s before limit fault).1.isOk then
        { s with unreadNotificationCount := 0 }
      else s := by
  unfold list
  cases before with
  | some before =>
    simp only [reduceCtorEq, false_and, if_false]
    split_ifs
    · rfl
    · split <;> rfl
  | none =>
    simp only [true_and]
    generalize (selectDesc s.notifications (fun _ => true) (limit.getD 40).toNat).mapM
      (parseRow parsePackageId parseValue) = rows
    by_cases hf : fault = some .lock ∨ fault = some .fetch
    · simp [hf, Except.isOk, Except.toBool]
    · cases rows with
      | error e => simp [hf, Except.isOk, Except.toBool]
      | ok notifs => by_cases hp : fault = some .put <;> simp [hf, hp, Except.isOk, Except.toBool]

/-- `list` reads back what `notify` wrote: the row of a call parses to the notification
of its arguments, provided the stored package id and payload parse. -/
theorem parseRow_row (n : Notify) (id : Nat) (v : Value)
    (hpkg : ∀ p, n.packageId = some p → parsePackageId p = some p)
    (hdata : parseValue n.payload = .ok v) :
    parseRow parsePackageId parseValue (n.row id) =
      .ok ⟨id % 2 ^ 32, n.packageId, n.createdAt, (n.subtype.code % 2 ^ 32).toNat, n.level,
        n.title, n.message, v⟩ := by
  have hp : n.packageId.bind parsePackageId = n.packageId := by
    cases h : n.packageId with
    | none => rfl
    | some p => exact hpkg p h
  simp only [parseRow, Notify.row, fromStr_toString, hdata, hp]
  rfl

end Parse

/-- `delete`; `fault` is a failing `DELETE`. -/
def delete (s : Ledger) (id : Int) (fault : Bool) : Except Error Unit × Ledger :=
  if fault then (.error dbError, s)
  else (.ok (), { s with notifications := s.notifications.filter fun r => (r.id : Int) ≠ id })

/-- `delete_before`; `fault` is a failing `DELETE`. -/
def deleteBefore (s : Ledger) (before : Int) (fault : Bool) : Except Error Unit × Ledger :=
  if fault then (.error dbError, s)
  else (.ok (), { s with notifications := s.notifications.filter fun r => ¬ (r.id : Int) < before })

/-! ## Runs -/

/-- One call of the notification API, with the step at which it fails. -/
inductive Op where
  | notify (n : Notify) (fault : Option NotifyFault)
  | list (before : Option Int) (limit : Option UInt32) (fault : Option ListFault)
  | delete (id : Int) (fault : Bool)
  | deleteBefore (before : Int) (fault : Bool)

/-- The `should_notify` call an operation makes. -/
def Op.call? : Op → Option Call
  | .notify n _ => some n.call
  | _ => none

/-- A `list` with `before = None`, the call that resets the counter. -/
def Op.isListLatest : Op → Bool
  | .list none _ _ => true
  | _ => false

/-! ## A disk warning -/

/-- The key of the `disk-low` warning. -/
def diskLowKey : CacheKey := ⟨none, .warning, "disk-low"⟩

/-- Three `disk-low` warnings with an hour's interval, newest first: the second comes too
early and is suppressed, the third comes exactly an hour after the first and is admitted. -/
def diskLowRun : List Call :=
  [⟨diskLowKey, some 3600, 3700, 3700⟩, ⟨diskLowKey, some 3600, 1000, 1000⟩,
    ⟨diskLowKey, some 3600, 100, 100⟩]

/-- A `disk-low` warning as `notify` receives it. -/
def diskLowNotify : Notify :=
  ⟨none, .warning, "disk-low", "Disk almost full", .unit, "null", some 3600, 0, 0, 0⟩

section Run

variable (parsePackageId : String → Option PackageId) (parseValue : String → Except String Value)

/-- One call: whether it returned `Ok`, and the state after it. -/
def step (s : Ledger) : Op → Bool × Ledger
  | .notify n fault => let r := notify s n fault; (r.1.isOk, r.2)
  | .list before limit fault =>
    let r := list parsePackageId parseValue s before limit fault; (r.1.isOk, r.2)
  | .delete id fault => let r := delete s id fault; (r.1.isOk, r.2)
  | .deleteBefore before fault => let r := deleteBefore s before fault; (r.1.isOk, r.2)

/-- The state after a run, newest call first. -/
def ledgerAfter (s₀ : Ledger) : List Op → Ledger
  | [] => s₀
  | op :: earlier => (step parsePackageId parseValue (ledgerAfter s₀ earlier) op).2

/-- The rows inserted since the last `list` with `before = None` that returned `Ok`, on top
of the counter `s₀` starts with; a row counts when `withFailed` or when its `notify`
returned `Ok`. -/
def insertedSinceReset (withFailed : Bool) (s₀ : Ledger) : List Op → Nat
  | [] => s₀.unreadNotificationCount
  | op :: earlier =>
    let s := ledgerAfter parsePackageId parseValue s₀ earlier
    let r := step parsePackageId parseValue s op
    if op.isListLatest ∧ r.1 then 0
    else insertedSinceReset withFailed s₀ earlier + if withFailed ∨ r.1 then r.2.nextId - s.nextId else 0

theorem step_cache (s : Ledger) (op : Op) :
    (step parsePackageId parseValue s op).2.cache = match op.call? with
      | some c => (shouldNotify s.cache c).2
      | none => s.cache := by
  cases op with
  | notify n fault => exact notify_cache s n fault
  | list before limit fault =>
    simp only [step, Op.call?]
    rw [list_state]
    split_ifs <;> rfl
  | delete id fault => cases fault <;> rfl
  | deleteBefore before fault => cases fault <;> rfl

/-- Along any run from `NotificationManager::new`, the cache is the one the run's
`should_notify` calls build. -/
theorem ledgerAfter_cache (s₀ : Ledger) (h₀ : s₀.cache = []) (ops : List Op) :
    (ledgerAfter parsePackageId parseValue s₀ ops).cache = cacheAfter (ops.filterMap Op.call?) := by
  induction ops with
  | nil => exact h₀
  | cons op earlier ih =>
    rw [ledgerAfter, step_cache, ih]
    cases op <;> rfl

/-- What one call does to the counter. -/
theorem step_unreadNotificationCount (s : Ledger) (op : Op) :
    (step parsePackageId parseValue s op).2.unreadNotificationCount =
      if op.isListLatest ∧ (step parsePackageId parseValue s op).1 then 0
      else s.unreadNotificationCount + if (step parsePackageId parseValue s op).1 then
        (step parsePackageId parseValue s op).2.nextId - s.nextId else 0 := by
  cases op with
  | notify n fault => simp [step, Op.isListLatest, notify_counter]
  | list before limit fault =>
    simp only [step, Op.isListLatest]
    rw [list_state]
    generalize (list parsePackageId parseValue s before limit fault).1.isOk = b
    cases before <;> cases b <;> simp
  | delete id fault => cases fault <;> simp [step, delete, Op.isListLatest, Except.isOk,
      Except.toBool]
  | deleteBefore before fault => cases fault <;> simp [step, deleteBefore, Op.isListLatest,
      Except.isOk, Except.toBool]

theorem unread_eq_countedSinceReset (s₀ : Ledger) (ops : List Op) :
    (ledgerAfter parsePackageId parseValue s₀ ops).unreadNotificationCount =
      insertedSinceReset parsePackageId parseValue false s₀ ops := by
  induction ops with
  | nil => rfl
  | cons op earlier ih =>
    rw [ledgerAfter, step_unreadNotificationCount, ih, insertedSinceReset]
    simp

theorem countedSinceReset_le_insertedSinceReset (s₀ : Ledger) (ops : List Op) :
    insertedSinceReset parsePackageId parseValue false s₀ ops ≤
      insertedSinceReset parsePackageId parseValue true s₀ ops := by
  induction ops with
  | nil => exact le_refl _
  | cons op earlier ih =>
    simp only [insertedSinceReset]
    generalize step parsePackageId parseValue (ledgerAfter parsePackageId parseValue s₀ earlier)
      op = r
    obtain ⟨_ | _, s'⟩ := r <;> by_cases hl : op.isListLatest = true <;> simp [hl] <;> omega

/-- Every call keeps the table well formed. -/
theorem step_wellFormed (s : Ledger) (op : Op) (h : s.WellFormed) :
    (step parsePackageId parseValue s op).2.WellFormed := by
  cases op with
  | notify n fault =>
    rcases notify_cases s n fault with ⟨-, hn⟩ | ⟨err, hn⟩ | hn | hn <;> simp only [step, hn]
    · exact h.mono (List.Sublist.refl _) le_rfl
    · exact h.mono (List.Sublist.refl _) le_rfl
    · exact h.append (n.row s.nextId) rfl rfl rfl
    · exact h.append (n.row s.nextId) rfl rfl rfl
  | list before limit fault =>
    simp only [step]
    rw [list_state]
    split_ifs <;> exact h.mono (List.Sublist.refl _) le_rfl
  | delete id fault =>
    simp only [step, delete]
    split_ifs
    · exact h.mono (List.Sublist.refl _) le_rfl
    · exact h.mono (List.filter_sublist _) le_rfl
  | deleteBefore before fault =>
    simp only [step, deleteBefore]
    split_ifs
    · exact h.mono (List.Sublist.refl _) le_rfl
    · exact h.mono (List.filter_sublist _) le_rfl

/-- From a well-formed table, every run keeps it well formed: the ids of the rows stay
below the sequence and increase in insertion order, whatever fails. -/
theorem ledgerAfter_wellFormed (s₀ : Ledger) (ops : List Op) (h₀ : s₀.WellFormed) :
    (ledgerAfter parsePackageId parseValue s₀ ops).WellFormed := by
  induction ops with
  | nil => exact h₀
  | cons op earlier ih => exact step_wellFormed _ _ _ op ih

theorem ledgerAfter_wellFormed_diskLow :
    Ledger.WellFormed ⟨[], [], 0, 0⟩ ∧
    (ledgerAfter (fun p => some p) (fun _ => .ok .null) ⟨[], [], 0, 0⟩
      [.delete 0 false, .notify diskLowNotify (some .save), .notify diskLowNotify none]).WellFormed :=
  have h₀ : Ledger.WellFormed ⟨[], [], 0, 0⟩ := ⟨nofun, List.Pairwise.nil⟩
  ⟨h₀, ledgerAfter_wellFormed _ _ _ _ h₀⟩

/-! ## The counter and the debounce law -/

/-- The counter counts the rows of the `notify` calls that returned `Ok` since the last
completed reset, and so never more than the rows inserted since then. -/
theorem unreadNotificationCount_run (s₀ : Ledger) (ops : List Op) :
    (ledgerAfter parsePackageId parseValue s₀ ops).unreadNotificationCount =
      insertedSinceReset parsePackageId parseValue false s₀ ops ∧
    insertedSinceReset parsePackageId parseValue false s₀ ops ≤
      insertedSinceReset parsePackageId parseValue true s₀ ops :=
  ⟨unread_eq_countedSinceReset _ _ s₀ ops, countedSinceReset_le_insertedSinceReset _ _ s₀ ops⟩

/-- An admitted `notify` whose `count.save` fails: its row is in the table, and the counter
is still 0. -/
theorem unread_ne_inserted_saveFault :
    (ledgerAfter (fun p => some p) (fun _ => .ok .null) ⟨[], [], 0, 0⟩
        [.notify diskLowNotify (some .save)]).unreadNotificationCount ≠
      insertedSinceReset (fun p => some p) (fun _ => .ok .null) true ⟨[], [], 0, 0⟩
        [.notify diskLowNotify (some .save)] := by
  decide

/-- Over every run of `should_notify` calls whose sums stay in `i64`, the debounce law holds;
a suppressed `notify` changes nothing; and from `NotificationManager::new` the ledger's cache
is the one the run's `should_notify` calls build. -/
theorem notify_debounce (calls : List Call) (hfit : NoOverflow calls) :
    Debounced calls ∧
    (∀ s n fault, (shouldNotify s.cache n.call).1 = false → notify s n fault = (.ok (), s)) ∧
    ∀ s₀ ops, s₀.cache = [] →
      (ledgerAfter parsePackageId parseValue s₀ ops).cache = cacheAfter (ops.filterMap Op.call?) :=
  ⟨debounced calls hfit, notify_suppressed, fun s₀ ops h₀ => ledgerAfter_cache _ _ s₀ h₀ ops⟩

theorem notify_debounce_diskLowRun :
    NoOverflow diskLowRun ∧ Debounced diskLowRun ∧
    (∀ s n fault, (shouldNotify s.cache n.call).1 = false → notify s n fault = (.ok (), s)) ∧
    ∀ s₀ ops, s₀.cache = [] →
      (ledgerAfter (fun p => some p) (fun _ => .ok .null) s₀ ops).cache =
        cacheAfter (ops.filterMap Op.call?) := by
  have h : NoOverflow diskLowRun := by
    intro c hc d hd i hi
    simp only [diskLowRun, List.mem_cons, List.mem_singleton, List.not_mem_nil, or_false] at hc hd
    rcases hd with rfl | rfl | rfl <;> cases hi <;> rcases hc with rfl | rfl | rfl <;> decide
  exact ⟨h, notify_debounce _ _ _ h⟩

end Run

end StartOs
