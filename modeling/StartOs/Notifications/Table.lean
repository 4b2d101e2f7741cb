import Mathlib.Data.List.Nodup
import StartOs.Notifications.Ledger

/-!
# The notifications table over a run, and its pages

*History.*  No call rewrites a row of the `notifications` table: `notify` appends one under
the sequence's next value, `delete` and `delete_before` drop rows, and `list` reads.
`Ledger.Grows s s'` says that every row of `s'` is a row of `s` or carries an id `s` had
not drawn yet; every call grows its state (`step_grows`), and so does every run
(`ledgerAfter_grows`).  With the ids of `Ledger.WellFormed`, an id names one row for the
whole life of the table, and an id once drawn never comes back after its row is deleted
(`rows_stable_run`).

*Pages.*  `list` reads the table `ORDER BY id DESC`.  The table's ids increase in
insertion order, so the sort is the reversal of the table (`selectDesc_eq`), and the rows
below the last id of a page are exactly the rows after that page (`filter_lt_getLast`).
A client that asks for the next page with `before` set to the last id it was given
therefore neither skips nor repeats a notification: the two pages are one page of the
two limits together (`list_pages`).  A `notify` that inserts its row puts the new
notification at the head of every page that admits its id, with what `list` gave before
after it (`list_after_notify`).
-/

namespace StartOs

/-! ## History -/

/-- `s'` keeps or drops the rows of `s`, and any row it adds has an id `s` had not drawn. -/
structure Ledger.Grows (s s' : Ledger) : Prop where
  /-- A row of `s'` is a row of `s`, or a new one. -/
  rows : ∀ r ∈ s'.notifications, r ∈ s.notifications ∨ s.nextId ≤ r.id
  /-- The sequence never goes back. -/
  nextId : s.nextId ≤ s'.nextId

namespace Ledger.Grows

theorem refl (s : Ledger) : s.Grows s := ⟨fun _ h => .inl h, le_rfl⟩

theorem trans {s s' s'' : Ledger} (h : s.Grows s') (h' : s'.Grows s'') : s.Grows s'' := by
  refine ⟨fun r hr => ?_, h.nextId.trans h'.nextId⟩
  rcases h'.rows r hr with hr | hr
  · exact h.rows r hr
  · exact .inr (h.nextId.trans hr)

theorem of_sublist {s s' : Ledger} (hrows : List.Sublist s'.notifications s.notifications)
    (hid : s.nextId ≤ s'.nextId) : s.Grows s' :=
  ⟨fun _ h => .inl (hrows.subset h), hid⟩

theorem of_append {s s' : Ledger} (r : Row) (hr : r.id = s.nextId)
    (hrows : s'.notifications = s.notifications ++ [r]) (hid : s'.nextId = s.nextId + 1) :
    s.Grows s' := by
  refine ⟨fun r' h => ?_, by omega⟩
  rw [hrows, List.mem_append, List.mem_singleton] at h
  rcases h with h | rfl
  · exact .inl h
  · exact .inr hr.ge

end Ledger.Grows

/-- In a well-formed table an id names one row. -/
theorem Ledger.WellFormed.eq_of_id_eq {s : Ledger} (hs : s.WellFormed) {r r' : Row}
    (hr : r ∈ s.notifications) (hr' : r' ∈ s.notifications) (hid : r.id = r'.id) : r = r' :=
  List.inj_on_of_nodup_map (List.pairwise_map.mpr hs.ids_increasing).nodup hr hr' hid

section Run

variable (parsePackageId : String → Option PackageId) (parseValue : String → Except String Value)

/-- Every call grows its state. -/
theorem step_grows (s : Ledger) (op : Op) : s.Grows (step parsePackageId parseValue s op).2 := by
  cases op with
  | notify n fault =>
    rcases notify_cases s n fault with ⟨-, hn⟩ | ⟨err, hn⟩ | hn | hn <;> simp only [step, hn]
    · exact .of_sublist (List.Sublist.refl _) le_rfl
    · exact .of_sublist (List.Sublist.refl _) le_rfl
    · exact .of_append (n.row s.nextId) rfl rfl rfl
    · exact .of_append (n.row s.nextId) rfl rfl rfl
  | list before limit fault =>
    simp only [step]
    rw [list_state]
    split_ifs <;> exact .of_sublist (List.Sublist.refl _) le_rfl
  | delete id fault =>
    simp only [step, delete]
    split_ifs
    · exact .refl s
    · exact .of_sublist (List.filter_sublist _) le_rfl
  | deleteBefore before fault =>
    simp only [step, deleteBefore]
    split_ifs
    · exact .refl s
    · exact .of_sublist (List.filter_sublist _) le_rfl

/-- A run of `later` calls after a run of `earlier` ones. -/
theorem ledgerAfter_append (s₀ : Ledger) (later earlier : List Op) :
    ledgerAfter parsePackageId parseValue s₀ (later ++ earlier) =
      ledgerAfter parsePackageId parseValue (ledgerAfter parsePackageId parseValue s₀ earlier)
        later := by
  induction later with
  | nil => rfl
  | cons op later ih => rw [List.cons_append, ledgerAfter, ih]; rfl

/-- A property that holds initially and that every call keeps holds after every run. -/
theorem ledgerAfter_induction (P : Ledger → Prop) {s₀ : Ledger} (h₀ : P s₀)
    (hstep : ∀ s op, P s → P (step parsePackageId parseValue s op).2) (ops : List Op) :
    P (ledgerAfter parsePackageId parseValue s₀ ops) := by
  induction ops with
  | nil => exact h₀
  | cons op earlier ih => exact hstep _ op ih

/-- Every run grows its state. -/
theorem ledgerAfter_grows (s₀ : Ledger) (ops : List Op) :
    s₀.Grows (ledgerAfter parsePackageId parseValue s₀ ops) :=
  ledgerAfter_induction parsePackageId parseValue s₀.Grows (.refl s₀)
    (fun s op h => h.trans (step_grows parsePackageId parseValue s op)) ops

/-- From a well-formed table, at any two points of a run, whatever fails: a row present at
both carries the same contents (no call rewrites a row), and a row of the later point under
an id drawn by the earlier point was already there (a deleted notification never comes
back, and no id is used twice). -/
theorem rows_stable_run (s₀ : Ledger) (h₀ : s₀.WellFormed) (later earlier : List Op) :
    (∀ r ∈ (ledgerAfter parsePackageId parseValue s₀ earlier).notifications,
      ∀ r' ∈ (ledgerAfter parsePackageId parseValue s₀ (later ++ earlier)).notifications,
        r.id = r'.id → r = r') ∧
    ∀ r' ∈ (ledgerAfter parsePackageId parseValue s₀ (later ++ earlier)).notifications,
      r'.id < (ledgerAfter parsePackageId parseValue s₀ earlier).nextId →
        r' ∈ (ledgerAfter parsePackageId parseValue s₀ earlier).notifications := by
  have hw : (ledgerAfter parsePackageId parseValue s₀ earlier).WellFormed :=
    ledgerAfter_induction parsePackageId parseValue _ h₀
      (fun s op h => step_wellFormed parsePackageId parseValue s op h) earlier
  have hg := ledgerAfter_grows parsePackageId parseValue
    (ledgerAfter parsePackageId parseValue s₀ earlier) later
  rw [← ledgerAfter_append] at hg
  have hold : ∀ r' ∈ (ledgerAfter parsePackageId parseValue s₀ (later ++ earlier)).notifications,
      r'.id < (ledgerAfter parsePackageId parseValue s₀ earlier).nextId →
        r' ∈ (ledgerAfter parsePackageId parseValue s₀ earlier).notifications := fun r' hr' hlt =>
    (hg.rows r' hr').resolve_right (Nat.not_le.mpr hlt)
  exact ⟨fun r hr r' hr' hid => hw.eq_of_id_eq hr (hold r' hr' (hid ▸ hw.ids_lt r hr)) hid, hold⟩

end Run

theorem rows_stable_run_diskLow :
    Ledger.WellFormed ⟨[], [], 0, 0⟩ ∧
    (∀ r ∈ (ledgerAfter (fun p => some p) (fun _ => .ok .null) ⟨[], [], 0, 0⟩
        [.notify diskLowNotify none]).notifications,
      ∀ r' ∈ (ledgerAfter (fun p => some p) (fun _ => .ok .null) ⟨[], [], 0, 0⟩
        ([.notify diskLowNotify none, .delete 0 false] ++ [.notify diskLowNotify none])).notifications,
        r.id = r'.id → r = r') ∧
    ∀ r' ∈ (ledgerAfter (fun p => some p) (fun _ => .ok .null) ⟨[], [], 0, 0⟩
        ([.notify diskLowNotify none, .delete 0 false] ++ [.notify diskLowNotify none])).notifications,
      r'.id < (ledgerAfter (fun p => some p) (fun _ => .ok .null) ⟨[], [], 0, 0⟩
        [.notify diskLowNotify none]).nextId →
      r' ∈ (ledgerAfter (fun p => some p) (fun _ => .ok .null) ⟨[], [], 0, 0⟩
        [.notify diskLowNotify none]).notifications :=
  have h₀ : Ledger.WellFormed ⟨[], [], 0, 0⟩ := ⟨nofun, List.Pairwise.nil⟩
  ⟨h₀, rows_stable_run _ _ _ h₀ _ _⟩

/-! ## Pages -/

/-- `ORDER BY id DESC` of rows whose ids increase is their reversal. -/
theorem mergeSort_desc {rows : List Row} (h : rows.Pairwise fun a b => a.id < b.id) :
    rows.mergeSort (fun a b => b.id ≤ a.id) = rows.reverse := by
  have hnd : (rows.map Row.id).Nodup := (List.pairwise_map.mpr h).nodup
  refine List.Perm.eq_of_sorted ?_
    (?_ : (rows.mergeSort fun a b => b.id ≤ a.id).Pairwise fun a b => b.id ≤ a.id) ?_
    ((List.mergeSort_perm _ _).trans (List.reverse_perm _).symm)
  · intro a b ha hb hab hba
    exact List.inj_on_of_nodup_map hnd (List.mem_mergeSort.mp ha) (List.mem_reverse.mp hb)
      (Nat.le_antisymm hba hab)
  · exact (List.sorted_mergeSort (fun _ _ _ h₁ h₂ => by simp_all; omega)
      (fun a b => by simpa using Nat.le_total b.id a.id) rows).imp (by simp)
  · exact List.pairwise_reverse.mpr (h.imp Nat.le_of_lt)

/-- On a table whose ids increase, `selectDesc` is the reversal of the rows it keeps, cut at
the limit. -/
theorem selectDesc_eq {rows : List Row} (h : rows.Pairwise fun a b => a.id < b.id)
    (keep : Row → Bool) (limit : Nat) :
    selectDesc rows keep limit = ((rows.filter keep).reverse).take limit := by
  rw [selectDesc, mergeSort_desc (h.sublist (List.filter_sublist _))]

/-- In rows whose ids decrease, the rows below the last of the first `n` are the rows after
them. -/
theorem filter_lt_getLast {L : List Row} (hL : L.Pairwise fun a b => b.id < a.id) {n : Nat}
    {x : Row} (hx : (L.take n).getLast? = some x) :
    L.filter (fun r => (r.id : Int) < (x.id : Int)) = L.drop n := by
  induction L generalizing n with
  | nil => simp at hx
  | cons a L ih =>
    rw [List.pairwise_cons] at hL
    obtain _ | k := n
    · simp at hx
    have hxa : x.id ≤ a.id := by
      rcases List.mem_cons.mp (List.mem_of_getLast?_eq_some hx) with rfl | hx'
      · exact le_rfl
      · exact (hL.1 x (List.mem_of_mem_take hx')).le
    rw [List.filter_cons, if_neg (by simpa using hxa), List.drop_succ_cons]
    rw [List.take_succ_cons] at hx
    rcases htk : L.take k with _ | ⟨b, t⟩
    · rw [htk] at hx
      obtain rfl : a = x := by simpa using hx
      rcases List.take_eq_nil_iff.mp htk with rfl | rfl
      · exact List.filter_eq_self.mpr fun r hr => by simpa using hL.1 r hr
      · simp
    · rw [htk, List.getLast?_cons_cons, ← htk] at hx
      exact ih hL.2 hx

/-- Three `disk-low` warnings, under ids 0, 1 and 2. -/
def diskLowLedger : Ledger :=
  ⟨[], [diskLowNotify.row 0, diskLowNotify.row 1, diskLowNotify.row 2], 3, 0⟩

/-- The notification `list` makes of the `disk-low` warning under `id`. -/
def diskLowNotification (id : Nat) : Notification :=
  ⟨id, none, 0, 0, .warning, "disk-low", "Disk almost full", .null⟩

section Paging

variable (parsePackageId : String → Option PackageId) (parseValue : String → Except String Value)

/-- The rows `list` reads: all of them, or those below `before`. -/
def listKeep : Option Int → Row → Bool
  | none => fun _ => true
  | some before => fun r => (r.id : Int) < before

/-- When no step fails, `list` parses the rows it selects. -/
theorem list_fst (s : Ledger) (before : Option Int) (limit : Option UInt32) :
    (list parsePackageId parseValue s before limit none).1 =
      (selectDesc s.notifications (listKeep before) (limit.getD 40).toNat).mapM
        (parseRow parsePackageId parseValue) := by
  cases before <;> simp only [list, listKeep, reduceCtorEq, or_self, if_false] <;> split <;>
    simp_all

/-- `parseRow` keeps the id, cast to `u32`. -/
theorem parseRow_id {r : Row} {n : Notification}
    (h : parseRow parsePackageId parseValue r = .ok n) : n.id = r.id % 2 ^ 32 := by
  revert h
  unfold parseRow
  rcases NotificationLevel.fromStr r.level with e | l
  · intro h; cases h
  rcases r.data with _ | v
  · intro h; cases h; rfl
  dsimp only
  rcases parseValue v with e | a <;> intro h <;> cases h
  rfl

/-- The ids of what `list` returns are those of the rows it parsed. -/
theorem mapM_parseRow_ids {rows : List Row} {ns : List Notification}
    (h : rows.mapM (parseRow parsePackageId parseValue) = .ok ns) :
    ns.map Notification.id = rows.map fun r => r.id % 2 ^ 32 := by
  induction rows generalizing ns with
  | nil => cases h; rfl
  | cons r rows ih =>
    rw [List.mapM_cons] at h
    rcases hr : parseRow parsePackageId parseValue r with e | n <;> rw [hr] at h
    · cases h
    rcases ht : rows.mapM (parseRow parsePackageId parseValue) with e | ns' <;> rw [ht] at h
    · cases h
    cases h
    simp [parseRow_id parsePackageId parseValue hr, ih ht]

/-- Paging through the notifications: on a well-formed table whose ids fit `u32`, a page
of `n` asked with any `before`, followed by a page of `k` asked with `before` set to the
last id of the first, is the page of `n + k` asked with the first `before`.  No
notification is skipped or returned twice. -/
theorem list_pages (s : Ledger) (hs : s.WellFormed) (hid : s.nextId ≤ 2 ^ 32)
    (before : Option Int) (n k m : UInt32) (hm : m.toNat = n.toNat + k.toNat)
    (page rest : List Notification) (last : Notification)
    (hpage : (list parsePackageId parseValue s before (some n) none).1 = .ok page)
    (hlast : page.getLast? = some last)
    (hrest : (list parsePackageId parseValue s (some last.id) (some k) none).1 = .ok rest) :
    (list parsePackageId parseValue s before (some m) none).1 = .ok (page ++ rest) := by
  rw [list_fst, selectDesc_eq hs.ids_increasing] at hpage hrest ⊢
  simp only [Option.getD_some] at hpage hrest ⊢
  set L := (s.notifications.filter (listKeep before)).reverse with hL
  have hdec : L.Pairwise fun a b => b.id < a.id :=
    List.pairwise_reverse.mpr (hs.ids_increasing.sublist (List.filter_sublist _))
  have hids := congrArg List.getLast? (mapM_parseRow_ids parsePackageId parseValue hpage)
  rw [List.getLast?_map, List.getLast?_map, hlast] at hids
  obtain ⟨x, hx, hxid⟩ : ∃ x, (L.take n.toNat).getLast? = some x ∧ last.id = x.id % 2 ^ 32 := by
    cases h : (L.take n.toNat).getLast? with
    | none => simp [h] at hids
    | some x => exact ⟨x, rfl, by simpa [h] using hids⟩
  have hxmem : x ∈ s.notifications ∧ listKeep before x = true := by
    simpa [hL] using List.mem_of_mem_take (List.mem_of_getLast?_eq_some hx)
  have hxid' : last.id = x.id := by
    rw [hxid, Nat.mod_eq_of_lt (lt_of_lt_of_le (hs.ids_lt x hxmem.1) hid)]
  have hrows : (s.notifications.filter (listKeep (some (last.id : Int)))).reverse =
      L.drop n.toNat := by
    rw [← filter_lt_getLast hdec hx, hL, List.filter_reverse, List.filter_filter]
    congr 1
    refine List.filter_congr fun r _ => ?_
    cases before with
    | none => simp [listKeep, hxid']
    | some b =>
      have hxb : (x.id : Int) < b := by simpa [listKeep] using hxmem.2
      simp only [listKeep, hxid']
      by_cases h : (r.id : Int) < x.id <;> simp [h]
      omega
  rw [hm, List.take_add, List.mapM_append, hpage, ← hrows, hrest]
  rfl

theorem list_pages_diskLow :
    diskLowLedger.WellFormed ∧ diskLowLedger.nextId ≤ 2 ^ 32 ∧
    (3 : UInt32).toNat = (2 : UInt32).toNat + (1 : UInt32).toNat ∧
    (list (fun p => some p) (fun _ => .ok .null) diskLowLedger none (some 2) none).1 =
      .ok [diskLowNotification 2, diskLowNotification 1] ∧
    [diskLowNotification 2, diskLowNotification 1].getLast? = some (diskLowNotification 1) ∧
    (list (fun p => some p) (fun _ => .ok .null) diskLowLedger
      (some (diskLowNotification 1).id) (some 1) none).1 = .ok [diskLowNotification 0] ∧
    (list (fun p => some p) (fun _ => .ok .null) diskLowLedger none (some 3) none).1 =
      .ok ([diskLowNotification 2, diskLowNotification 1] ++ [diskLowNotification 0]) := by
  have hs : diskLowLedger.WellFormed := ⟨by decide, by decide⟩
  have h₁ : (list (fun p => some p) (fun _ => .ok .null) diskLowLedger none (some 2) none).1 =
      .ok [diskLowNotification 2, diskLowNotification 1] := by
    rw [list_fst, selectDesc_eq hs.ids_increasing]; rfl
  have h₂ : (list (fun p => some p) (fun _ => .ok .null) diskLowLedger
      (some (diskLowNotification 1).id) (some 1) none).1 = .ok [diskLowNotification 0] := by
    rw [list_fst, selectDesc_eq hs.ids_increasing]; rfl
  exact ⟨hs, by decide, rfl, h₁, rfl, h₂,
    list_pages _ _ diskLowLedger hs (by decide) none 2 1 3 rfl _ _ _ h₁ rfl h₂⟩

/-- A `do` block that puts one element before a list it computes. -/
theorem bind_cons {ε α : Type} (x : α) (e : Except ε (List α)) :
    (do let xs ← e; pure (x :: xs)) = e.map (x :: ·) := by
  cases e <;> rfl

/-- `list` after a `notify` that inserted its row (it returned `Ok`, or its `count.save`
failed): on a well-formed table, a page whose `before` admits the new id is the new
notification, read back from its row, followed by the page one shorter that `list` gave
before the call. -/
theorem list_after_notify (s : Ledger) (hs : s.WellFormed) (n : Notify)
    (fault : Option NotifyFault) (hins : (notify s n fault).2.nextId = s.nextId + 1) (v : Value)
    (hpkg : ∀ p, n.packageId = some p → parsePackageId p = some p)
    (hdata : parseValue n.payload = .ok v) (before : Option Int)
    (hbefore : ∀ b, before = some b → (s.nextId : Int) < b) (k m : UInt32)
    (hm : m.toNat = k.toNat + 1) :
    (list parsePackageId parseValue (notify s n fault).2 before (some m) none).1 =
      (list parsePackageId parseValue s before (some k) none).1.map
        (⟨s.nextId % 2 ^ 32, n.packageId, n.createdAt, (n.subtype.code % 2 ^ 32).toNat, n.level,
          n.title, n.message, v⟩ :: ·) := by
  have hrows : (notify s n fault).2.notifications = s.notifications ++ [n.row s.nextId] := by
    rcases notify_cases s n fault with ⟨-, h⟩ | ⟨_, h⟩ | h | h <;> rw [h] at hins ⊢ <;>
      simp at hins
  have hw : (notify s n fault).2.WellFormed := hs.append _ rfl hrows hins
  have hkeep : listKeep before (n.row s.nextId) = true := by
    cases before with
    | none => rfl
    | some b => simpa [listKeep, Notify.row] using hbefore b rfl
  rw [list_fst, list_fst, selectDesc_eq hw.ids_increasing, selectDesc_eq hs.ids_increasing, hrows]
  simp only [Option.getD_some, hm, List.filter_append, List.filter_cons_of_pos hkeep,
    List.filter_nil, List.reverse_append, List.reverse_singleton, List.singleton_append,
    List.take_succ_cons, List.mapM_cons, parseRow_row parsePackageId parseValue n _ v hpkg hdata]
  exact bind_cons _ _

theorem list_after_notify_diskLow :
    diskLowLedger.WellFormed ∧
    (notify diskLowLedger diskLowNotify none).2.nextId = diskLowLedger.nextId + 1 ∧
    (∀ p, diskLowNotify.packageId = some p → (fun p => some p) p = some p) ∧
    (fun _ => .ok .null : String → Except String Value) diskLowNotify.payload = .ok .null ∧
    (∀ b, (none : Option Int) = some b → (diskLowLedger.nextId : Int) < b) ∧
    (2 : UInt32).toNat = (1 : UInt32).toNat + 1 ∧
    (list (fun p => some p) (fun _ => .ok .null) (notify diskLowLedger diskLowNotify none).2 none
        (some 2) none).1 =
      (list (fun p => some p) (fun _ => .ok .null) diskLowLedger none (some 1) none).1.map
        (⟨diskLowLedger.nextId % 2 ^ 32, diskLowNotify.packageId, diskLowNotify.createdAt,
          (diskLowNotify.subtype.code % 2 ^ 32).toNat, diskLowNotify.level, diskLowNotify.title,
          diskLowNotify.message, .null⟩ :: ·) :=
  have hs : diskLowLedger.WellFormed := ⟨by decide, by decide⟩
  ⟨hs, rfl, fun _ _ => rfl, rfl, nofun, rfl,
    list_after_notify _ _ diskLowLedger hs diskLowNotify none rfl .null (fun _ _ => rfl) rfl none
      nofun 1 2 rfl⟩

end Paging

end StartOs
