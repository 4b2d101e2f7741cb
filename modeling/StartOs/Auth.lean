import Mathlib.Data.List.DropRight
import StartOs.Basic

/-!
# Passwords: `login` and `reset_password`

The server keeps its password hash three times: in memory as `ctx.account.password`, in
the `password` column of the secret store's `account` table, and as
`server-info.password-hash` in patch-db.  `login` checks a password against the secret
store (`check_password_against_db`); `reset_password` checks the old password against the
copy in memory and then writes the new hash to the three copies in turn: memory
(`set_password`), the secret store (`account.save`), patch-db (`put`).

A call takes the step at which it fails as an argument (`none` when nothing fails), and a
failing step returns its error with the state as it stands.  `ctx.account.write()` makes a
`reset_password` exclusive, so a run is a sequence of whole calls (`Auth.Op`, newest
first).  The salt `reset_password` draws for the new hash is part of its request;
`argon2::verify_encoded`, `argon2::hash_encoded` and the decryption of an
`EncryptedWire` are parameters.  The session token `login` mints is part of its request,
and its `header_value()`, which the code notes cannot fail, is taken to succeed.

`login_cases` and `resetPassword_cases` say what one call can do.  A reset writes the new
hash to the three copies one after the other.  A failing `put` leaves it out of patch-db
only, which neither check reads: along every run in which no `account.save` fails, `login`
and `reset_password` accept the same passwords, and while no `put` fails either, the three
copies stay equal (`synced_run`).  A failing `account.save` leaves the new hash in memory
only, and the two checks then disagree.  A reset that returns `Ok` repairs that: from any
state, the copies agree after it on the same terms (`resetPassword_ok_synced`), and `login`
then accepts exactly the new password (`login_after_resetPassword`).

`kill` takes its session ids as one argument split at commas (`parseCommaSeparated`); what
it parses is in normal form, and joined with commas parses back to itself
(`parseCommaSeparated_normal`).
-/

namespace StartOs

namespace Auth

/-- `middleware::encrypt::EncryptedWire`: a password encrypted to the server's key. -/
structure EncryptedWire where
  /-- The encrypted text. -/
  encrypted : String
  deriving DecidableEq, Repr

/-- `PasswordType`. -/
inductive PasswordType where
  | encryptedWire (x : EncryptedWire)
  | string (x : String)
  deriving DecidableEq, Repr

/-- `impl Default for PasswordType`. -/
instance : Inhabited PasswordType := ⟨.string ""⟩

/-- The three copies of the password hash, and the `session` table `login` writes. -/
structure AuthState where
  /-- `ctx.account.password`: the hash in memory. -/
  account : String
  /-- The `password` column of the secret store's `account` table. -/
  secretStore : String
  /-- `server-info.password-hash` in patch-db. -/
  passwordHash : String
  /-- The rows of `session`: `id`, `user_agent`, `metadata`. -/
  sessions : List (String × Option String × String)
  deriving DecidableEq, Repr

/-- The three hashes: memory, secret store, patch-db. -/
def AuthState.hashes (s : AuthState) : String × String × String :=
  (s.account, s.secretStore, s.passwordHash)

/-- The three copies of the hash agree. -/
structure AuthState.Synced (s : AuthState) : Prop where
  /-- The secret store holds the hash in memory. -/
  secretStore : s.secretStore = s.account
  /-- patch-db holds the hash in memory. -/
  passwordHash : s.passwordHash = s.account

/-- A `login` request. -/
structure Login where
  /-- `password`. -/
  password : Option PasswordType
  /-- `metadata`, as `serde_json::to_string` writes it. -/
  metadata : String
  /-- The `user-agent` header. -/
  userAgent : Option String
  /-- `HashSessionToken::new().hashed()`. -/
  tokenHash : String

/-- The step of `login` that fails. -/
inductive LoginFault where
  /-- `ctx.secret_store.acquire()`. -/
  | acquire
  /-- `SELECT password FROM account`. -/
  | fetch
  /-- `INSERT INTO session`. -/
  | insert
  deriving DecidableEq, Repr

/-- A `reset_password` request. -/
structure ResetPassword where
  /-- `old-password`. -/
  oldPassword : Option PasswordType
  /-- `new-password`. -/
  newPassword : Option PasswordType
  /-- The salt `set_password` draws. -/
  salt : List UInt8

/-- The step of `reset_password` that fails. -/
inductive ResetFault where
  /-- `account.save(&ctx.secret_store)`. -/
  | save
  /-- The patch-db `put` of `password-hash`. -/
  | put
  deriving DecidableEq, Repr

section Model

variable (decryptWire : EncryptedWire → Option String)
  (verifyEncoded : String → String → Option Bool)
  (hashEncoded : String → List UInt8 → Option String)

/-- `PasswordType::decrypt`. -/
def PasswordType.decrypt : PasswordType → Except Error String
  | .string x => .ok x
  | .encryptedWire x =>
    match decryptWire x with
    | some p => .ok p
    | none => .error ⟨.unknown, some "Couldn't decode password"⟩

/-! ## The two checks of a password

`check_password` and the check in `reset_password` are one check with two texts:
`verify_encoded` failing outright, and answering `false`. -/

/-- `argon2::verify_encoded(hash, password)`, with the error for each way it refuses. -/
def verifyWith (onError : Error) (message : String) (hash password : String) :
    Except Error Unit :=
  match verifyEncoded hash password with
  | none => .error onError
  | some false => .error ⟨.incorrectPassword, some message⟩
  | some true => .ok ()

/-- `check_password`. -/
def checkPassword (hash password : String) : Except Error Unit :=
  verifyWith verifyEncoded ⟨.incorrectPassword, some "Password Incorrect"⟩ "Password Incorrect"
    hash password

/-- The check of the old password in `reset_password`. -/
def verifyOldPassword (hash password : String) : Except Error Unit :=
  verifyWith verifyEncoded ⟨.incorrectPassword, none⟩ "Incorrect Password" hash password

/-- Both checks accept exactly what `verify_encoded` accepts. -/
theorem verifyWith_eq_ok (onError : Error) (message hash password : String) :
    verifyWith verifyEncoded onError message hash password = .ok () ↔
      verifyEncoded hash password = some true := by
  unfold verifyWith
  split <;> simp_all

/-- `check_password_against_db`: the secret store's hash, checked. -/
def checkPasswordAgainstDb (s : AuthState) (fault : Option LoginFault) (password : String) :
    Except Error Unit :=
  if fault = some .fetch then .error dbError else checkPassword verifyEncoded s.secretStore password

/-! ## The calls -/

/-- `login`. -/
def login (s : AuthState) (l : Login) (fault : Option LoginFault) : Except Error Unit × AuthState :=
  match (l.password.getD default).decrypt decryptWire with
  | .error err => (.error err, s)
  | .ok password =>
    if fault = some .acquire then (.error dbError, s) else
    match checkPasswordAgainstDb verifyEncoded s fault password with
    | .error err => (.error err, s)
    | .ok () =>
      if fault = some .insert then (.error dbError, s) else
      (.ok (), { s with sessions := s.sessions ++ [(l.tokenHash, l.userAgent, l.metadata)] })

/-- `reset_password`. -/
def resetPassword (s : AuthState) (r : ResetPassword) (fault : Option ResetFault) :
    Except Error Unit × AuthState :=
  match (r.oldPassword.getD default).decrypt decryptWire with
  | .error err => (.error err, s)
  | .ok oldPassword =>
    match (r.newPassword.getD default).decrypt decryptWire with
    | .error err => (.error err, s)
    | .ok newPassword =>
      match verifyOldPassword verifyEncoded s.account oldPassword with
      | .error err => (.error err, s)
      | .ok () =>
        match hashEncoded newPassword r.salt with
        | none => (.error ⟨.passwordHashGeneration, none⟩, s)
        | some hash =>
          let s := { s with account := hash }
          if fault = some .save then (.error dbError, s) else
          let s := { s with secretStore := s.account }
          if fault = some .put then (.error dbError, s) else
          (.ok (), { s with passwordHash := s.account })

/-- Everything one `login` can do: fail and change nothing, or, when the password decrypts,
no step fails and the password verifies against the secret store, add one session. -/
theorem login_cases (s : AuthState) (l : Login) (fault : Option LoginFault) :
    (∃ err, login decryptWire verifyEncoded s l fault = (.error err, s)) ∨
    ∃ p, (l.password.getD default).decrypt decryptWire = .ok p ∧ fault = none ∧
      verifyEncoded s.secretStore p = some true ∧
      login decryptWire verifyEncoded s l fault =
        (.ok (), { s with sessions := s.sessions ++ [(l.tokenHash, l.userAgent, l.metadata)] }) := by
  unfold login
  rcases hd : (l.password.getD default).decrypt decryptWire with err | p
  · exact .inl ⟨_, rfl⟩
  dsimp only
  rcases fault with _ | f
  · rcases hc : checkPasswordAgainstDb verifyEncoded s none p with err | ⟨⟩
    · exact .inl ⟨_, rfl⟩
    · exact .inr ⟨p, rfl, rfl, (verifyWith_eq_ok verifyEncoded _ _ _ _).mp hc, rfl⟩
  · cases f <;> simp only [checkPasswordAgainstDb, Option.some.injEq, reduceCtorEq, if_true,
      if_false]
    all_goals (try split) <;> exact .inl ⟨_, rfl⟩

/-- Once the password decrypts, `login` returns `Ok` exactly when no step fails and the
secret store's hash verifies it. -/
theorem login_isOk_iff (s : AuthState) (l : Login) (fault : Option LoginFault) {p : String}
    (hp : (l.password.getD default).decrypt decryptWire = .ok p) :
    (login decryptWire verifyEncoded s l fault).1.isOk = true ↔
      fault = none ∧ verifyEncoded s.secretStore p = some true := by
  simp only [login, hp]
  rcases fault with _ | f
  · simp only [checkPasswordAgainstDb, checkPassword, verifyWith, reduceCtorEq, if_false, true_and]
    rcases verifyEncoded s.secretStore p with _ | _ | _ <;> simp [Except.isOk, Except.toBool]
  · cases f <;> simp [checkPasswordAgainstDb, checkPassword, verifyWith] <;> try rfl
    split <;> rfl

/-- `login` leaves the three hashes alone. -/
theorem login_hashes (s : AuthState) (l : Login) (fault : Option LoginFault) :
    (login decryptWire verifyEncoded s l fault).2.hashes = s.hashes := by
  rcases login_cases decryptWire verifyEncoded s l fault with ⟨_, h⟩ | ⟨_, _, _, _, h⟩ <;>
    simp [h, AuthState.hashes]

/-- Everything one `reset_password` can do: fail and change nothing, or accept the old
password, hash the new one to `hash`, and write `hash` to memory only (a failing `save`),
to memory and the secret store (a failing `put`), or to all three (`Ok`). -/
theorem resetPassword_cases (s : AuthState) (r : ResetPassword) (fault : Option ResetFault) :
    (∃ err, resetPassword decryptWire verifyEncoded hashEncoded s r fault = (.error err, s)) ∨
    ∃ old new hash, (r.oldPassword.getD default).decrypt decryptWire = .ok old ∧
      (r.newPassword.getD default).decrypt decryptWire = .ok new ∧
      verifyEncoded s.account old = some true ∧ hashEncoded new r.salt = some hash ∧
      ((fault = some .save ∧ resetPassword decryptWire verifyEncoded hashEncoded s r fault =
          (.error dbError, { s with account := hash })) ∨
       (fault = some .put ∧ resetPassword decryptWire verifyEncoded hashEncoded s r fault =
          (.error dbError, { s with account := hash, secretStore := hash })) ∨
       (fault = none ∧ resetPassword decryptWire verifyEncoded hashEncoded s r fault =
          (.ok (), { s with account := hash, secretStore := hash, passwordHash := hash }))) := by
  unfold resetPassword
  rcases hold : (r.oldPassword.getD default).decrypt decryptWire with err | old
  · exact .inl ⟨_, rfl⟩
  rcases hnew : (r.newPassword.getD default).decrypt decryptWire with err | new
  · exact .inl ⟨_, rfl⟩
  dsimp only
  rcases hv : verifyOldPassword verifyEncoded s.account old with err | ⟨⟩
  · exact .inl ⟨_, rfl⟩
  have hver := (verifyWith_eq_ok verifyEncoded _ _ s.account old).mp hv
  dsimp only
  rcases hh : hashEncoded new r.salt with _ | hash
  · exact .inl ⟨_, rfl⟩
  refine .inr ⟨old, new, hash, rfl, rfl, hver, hh, ?_⟩
  rcases fault with _ | _ | _
  · exact .inr (.inr ⟨rfl, rfl⟩)
  · exact .inl ⟨rfl, rfl⟩
  · exact .inr (.inl ⟨rfl, rfl⟩)

/-- When the secret store holds the hash in memory, `login` accepts exactly the passwords
`reset_password` accepts as the old one. -/
theorem checkPassword_iff_verifyOldPassword {s : AuthState} (hs : s.secretStore = s.account)
    (p : String) :
    checkPassword verifyEncoded s.secretStore p = .ok () ↔
      verifyOldPassword verifyEncoded s.account p = .ok () := by
  rw [hs, checkPassword, verifyOldPassword, verifyWith_eq_ok, verifyWith_eq_ok]

/-- A `reset_password` that returns `Ok` leaves the three copies equal, whatever state it
started from. -/
theorem resetPassword_synced_of_isOk (s : AuthState) (r : ResetPassword)
    (fault : Option ResetFault)
    (hok : (resetPassword decryptWire verifyEncoded hashEncoded s r fault).1.isOk = true) :
    (resetPassword decryptWire verifyEncoded hashEncoded s r fault).2.Synced := by
  rcases resetPassword_cases decryptWire verifyEncoded hashEncoded s r fault with
    ⟨_, h⟩ | ⟨_, _, _, -, -, -, -, ⟨-, h⟩ | ⟨-, h⟩ | ⟨-, h⟩⟩
  · simp [h, Except.isOk, Except.toBool] at hok
  · simp [h, Except.isOk, Except.toBool] at hok
  · simp [h, Except.isOk, Except.toBool] at hok
  · rw [h]; exact ⟨rfl, rfl⟩

/-! ## A server whose hashes can be read

Witnesses below run the calls with a hash that is the password behind a prefix. -/

/-- Hashes of the form `argon2:<password>`. -/
def demoVerify (hash password : String) : Option Bool := some (hash == "argon2:" ++ password)

/-- Hashing that writes `argon2:<password>`, whatever the salt. -/
def demoHash (password : String) (_salt : List UInt8) : Option String := some ("argon2:" ++ password)

/-- No `EncryptedWire` decrypts. -/
def demoDecrypt (_ : EncryptedWire) : Option String := none

/-- The three copies at the hash of `old`, and no session. -/
def demoState : AuthState := ⟨"argon2:old", "argon2:old", "argon2:old", []⟩

/-- A reset from `old` to `new`. -/
def demoReset : ResetPassword := ⟨some (.string "old"), some (.string "new"), []⟩

/-- A login with `new`. -/
def demoLogin : Login := ⟨some (.string "new"), "{}", none, "token"⟩

/-- `demoVerify` accepts against a `demoHash` hash exactly the password it was made from. -/
theorem demoVerify_demoHash (p : String) (salt : List UInt8) (hash : String)
    (h : demoHash p salt = some hash) (q : String) : demoVerify hash q = some true ↔ q = p := by
  simp only [demoHash, Option.some.injEq] at h
  subst h
  simp only [demoVerify, Option.some.injEq, beq_iff_eq]
  exact ⟨fun h => (String.ext (List.append_cancel_left (congrArg String.data h))).symm,
    fun h => h ▸ rfl⟩

/-! ## A reset, then a login -/

/-- A password change takes effect at once: when `argon2::verify_encoded` accepts a
password against a hash exactly when `hash_encoded` made the hash from it, a
`reset_password` that returns `Ok` leaves the server where `login` succeeds exactly with
the new password (and no failing step), and where the next `reset_password` accepts exactly
the new password as the old one. -/
theorem login_after_resetPassword
    (hargon : ∀ p salt hash, hashEncoded p salt = some hash →
      ∀ q, verifyEncoded hash q = some true ↔ q = p)
    (s : AuthState) (r : ResetPassword) (fault : Option ResetFault) {new : String}
    (hnew : (r.newPassword.getD default).decrypt decryptWire = .ok new)
    (hok : (resetPassword decryptWire verifyEncoded hashEncoded s r fault).1.isOk = true)
    (l : Login) (lf : Option LoginFault) {p : String}
    (hp : (l.password.getD default).decrypt decryptWire = .ok p) :
    ((login decryptWire verifyEncoded
        (resetPassword decryptWire verifyEncoded hashEncoded s r fault).2 l lf).1.isOk = true ↔
      lf = none ∧ p = new) ∧
    ∀ q, verifyOldPassword verifyEncoded
        (resetPassword decryptWire verifyEncoded hashEncoded s r fault).2.account q = .ok () ↔
      q = new := by
  rcases resetPassword_cases decryptWire verifyEncoded hashEncoded s r fault with
    ⟨_, h⟩ | ⟨_, new', hash, -, hnew', -, hh, ⟨-, h⟩ | ⟨-, h⟩ | ⟨-, h⟩⟩
  · simp [h, Except.isOk, Except.toBool] at hok
  · simp [h, Except.isOk, Except.toBool] at hok
  · simp [h, Except.isOk, Except.toBool] at hok
  obtain rfl : new' = new := Except.ok.inj (hnew'.symm.trans hnew)
  have hv := hargon new' r.salt hash hh
  rw [h, login_isOk_iff decryptWire verifyEncoded _ l lf hp]
  exact ⟨and_congr_right fun _ => hv p,
    fun q => (verifyWith_eq_ok verifyEncoded _ _ hash q).trans (hv q)⟩

theorem login_after_resetPassword_demo :
    (∀ p salt hash, demoHash p salt = some hash → ∀ q, demoVerify hash q = some true ↔ q = p) ∧
    (demoReset.newPassword.getD default).decrypt demoDecrypt = .ok "new" ∧
    (resetPassword demoDecrypt demoVerify demoHash demoState demoReset none).1.isOk = true ∧
    (demoLogin.password.getD default).decrypt demoDecrypt = .ok "new" ∧
    ((login demoDecrypt demoVerify
        (resetPassword demoDecrypt demoVerify demoHash demoState demoReset none).2 demoLogin
          none).1.isOk = true ↔ (none : Option LoginFault) = none ∧ "new" = "new") ∧
    ∀ q, verifyOldPassword demoVerify
        (resetPassword demoDecrypt demoVerify demoHash demoState demoReset none).2.account q =
          .ok () ↔ q = "new" :=
  ⟨demoVerify_demoHash, rfl, by decide, rfl,
    login_after_resetPassword demoDecrypt demoVerify demoHash demoVerify_demoHash demoState
      demoReset none rfl (by decide) demoLogin none rfl⟩

/-! ## Runs -/

/-- One call. -/
inductive Op where
  | login (l : Login) (fault : Option LoginFault)
  | resetPassword (r : ResetPassword) (fault : Option ResetFault)

/-- A call in which neither `account.save` nor the `put` fails. -/
def Op.persists : Op → Bool
  | .login _ _ => true
  | .resetPassword _ fault => fault.isNone

/-- A call in which `account.save` does not fail; the `put` may. -/
def Op.saves : Op → Bool
  | .login _ _ => true
  | .resetPassword _ fault => fault != some .save

/-- One call on a state. -/
def step (s : AuthState) : Op → Except Error Unit × AuthState
  | .login l fault => login decryptWire verifyEncoded s l fault
  | .resetPassword r fault => resetPassword decryptWire verifyEncoded hashEncoded s r fault

/-- The state after a run, newest call first. -/
def stateAfter (s₀ : AuthState) : List Op → AuthState
  | [] => s₀
  | op :: earlier => (step decryptWire verifyEncoded hashEncoded (stateAfter s₀ earlier) op).2

/-- A run of `later` calls after a run of `earlier` ones. -/
theorem stateAfter_append (s₀ : AuthState) (later earlier : List Op) :
    stateAfter decryptWire verifyEncoded hashEncoded s₀ (later ++ earlier) =
      stateAfter decryptWire verifyEncoded hashEncoded
        (stateAfter decryptWire verifyEncoded hashEncoded s₀ earlier) later := by
  induction later with
  | nil => rfl
  | cons op later ih => rw [List.cons_append, stateAfter, ih]; rfl

/-- A property that holds initially and that every call of a kind keeps holds after every
run of such calls. -/
theorem stateAfter_induction (P : AuthState → Prop) (Q : Op → Prop) {s₀ : AuthState}
    (h₀ : P s₀) (hstep : ∀ s op, Q op → P s → P (step decryptWire verifyEncoded hashEncoded s op).2)
    (ops : List Op) (hops : ∀ op ∈ ops, Q op) :
    P (stateAfter decryptWire verifyEncoded hashEncoded s₀ ops) := by
  induction ops with
  | nil => exact h₀
  | cons op earlier ih =>
    exact hstep _ op (hops op (List.mem_cons_self _ _))
      (ih fun op' h => hops op' (List.mem_cons_of_mem _ h))

theorem AuthState.synced_iff (s : AuthState) : s.Synced ↔ ∃ h, s.hashes = (h, h, h) :=
  ⟨fun ⟨h₁, h₂⟩ => ⟨s.account, by simp [AuthState.hashes, h₁, h₂]⟩,
    fun ⟨_, h⟩ => by simp only [AuthState.hashes, Prod.mk.injEq] at h; exact ⟨by simp [h], by simp [h]⟩⟩

/-- A call in which no copy fails to be written keeps the copies in agreement. -/
theorem step_synced (s : AuthState) (op : Op) (hop : op.persists = true) (hs : s.Synced) :
    (step decryptWire verifyEncoded hashEncoded s op).2.Synced := by
  rw [AuthState.synced_iff] at hs ⊢
  obtain ⟨h, hh⟩ := hs
  cases op with
  | login l fault => exact ⟨h, (login_hashes decryptWire verifyEncoded s l fault).trans hh⟩
  | resetPassword r fault =>
    simp only [Op.persists, Option.isNone_iff_eq_none] at hop
    subst hop
    rcases resetPassword_cases decryptWire verifyEncoded hashEncoded s r none with
      ⟨_, hr⟩ | ⟨_, _, hash, -, -, -, -, ⟨h', -⟩ | ⟨h', -⟩ | ⟨-, hr⟩⟩
    · exact ⟨h, by simp [step, hr, hh]⟩
    · cases h'
    · cases h'
    · exact ⟨hash, by simp [step, hr, AuthState.hashes]⟩

/-- A call in which `account.save` does not fail keeps the secret store at the hash in
memory: a failing `put` has written both. -/
theorem step_secretStore (s : AuthState) (op : Op) (hop : op.saves = true)
    (hs : s.secretStore = s.account) :
    (step decryptWire verifyEncoded hashEncoded s op).2.secretStore =
      (step decryptWire verifyEncoded hashEncoded s op).2.account := by
  cases op with
  | login l fault =>
    have h := login_hashes decryptWire verifyEncoded s l fault
    simp only [AuthState.hashes, Prod.mk.injEq] at h
    simp only [step, h.1, h.2.1, hs]
  | resetPassword r fault =>
    rcases resetPassword_cases decryptWire verifyEncoded hashEncoded s r fault with
      ⟨_, h⟩ | ⟨_, _, _, -, -, -, -, ⟨rfl, -⟩ | ⟨-, h⟩ | ⟨-, h⟩⟩
    · simp only [step, h, hs]
    · simp [Op.saves] at hop
    · simp only [step, h]
    · simp only [step, h]

/-- Along a run in which no `account.save` fails, the secret store keeps the hash in
memory. -/
theorem secretStore_stateAfter (s₀ : AuthState) (ops : List Op)
    (h₀ : s₀.secretStore = s₀.account) (hops : ∀ op ∈ ops, op.saves = true) :
    (stateAfter decryptWire verifyEncoded hashEncoded s₀ ops).secretStore =
      (stateAfter decryptWire verifyEncoded hashEncoded s₀ ops).account :=
  stateAfter_induction decryptWire verifyEncoded hashEncoded (fun s => s.secretStore = s.account)
    (fun op => op.saves = true) h₀
    (fun s op hop hs => step_secretStore decryptWire verifyEncoded hashEncoded s op hop hs) ops hops

/-- Along a run in which no `account.save` and no `put` fails, the three copies stay
equal. -/
theorem synced_stateAfter (s₀ : AuthState) (ops : List Op) (h₀ : s₀.Synced)
    (hops : ∀ op ∈ ops, op.persists = true) :
    (stateAfter decryptWire verifyEncoded hashEncoded s₀ ops).Synced :=
  stateAfter_induction decryptWire verifyEncoded hashEncoded AuthState.Synced
    (fun op => op.persists = true) h₀
    (fun s op hop hs => step_synced decryptWire verifyEncoded hashEncoded s op hop hs) ops hops

/-- A reset whose `put` fails, then a login with the new password. -/
def demoRun : List Op := [.login demoLogin none, .resetPassword demoReset (some .put)]

/-- The state after a reset from `old` to `new` whose `account.save` fails. -/
def demoAfterSaveFault : AuthState :=
  (resetPassword demoDecrypt demoVerify demoHash demoState demoReset (some .save)).2

/-- A successful reset repairs copies an earlier failure left apart.  From any state, along
a run whose first call is a `reset_password` that returns `Ok`: while no `account.save` and
no `put` fails, the three copies agree; while no `account.save` fails, `login` and
`reset_password` accept the same passwords. -/
theorem resetPassword_ok_synced (s : AuthState) (r : ResetPassword) (fault : Option ResetFault)
    (hok : (resetPassword decryptWire verifyEncoded hashEncoded s r fault).1.isOk = true)
    (later : List Op) :
    ((∀ op ∈ later, op.persists = true) →
      (stateAfter decryptWire verifyEncoded hashEncoded s
        (later ++ [.resetPassword r fault])).Synced) ∧
    ((∀ op ∈ later, op.saves = true) → ∀ p,
      checkPassword verifyEncoded (stateAfter decryptWire verifyEncoded hashEncoded s
          (later ++ [.resetPassword r fault])).secretStore p = .ok () ↔
        verifyOldPassword verifyEncoded (stateAfter decryptWire verifyEncoded hashEncoded s
          (later ++ [.resetPassword r fault])).account p = .ok ()) := by
  have hs := resetPassword_synced_of_isOk decryptWire verifyEncoded hashEncoded s r fault hok
  rw [stateAfter_append]
  exact ⟨synced_stateAfter decryptWire verifyEncoded hashEncoded _ later hs,
    fun hops => checkPassword_iff_verifyOldPassword verifyEncoded
      (secretStore_stateAfter decryptWire verifyEncoded hashEncoded _ later hs.secretStore hops)⟩

/-- A reset from `new` to `newer`. -/
def demoResetNewer : ResetPassword := ⟨some (.string "new"), some (.string "newer"), []⟩

theorem resetPassword_ok_synced_afterSaveFault :
    (resetPassword demoDecrypt demoVerify demoHash demoAfterSaveFault demoResetNewer none).1.isOk =
      true ∧
    ((∀ op ∈ demoRun, op.persists = true) →
      (stateAfter demoDecrypt demoVerify demoHash demoAfterSaveFault
        (demoRun ++ [.resetPassword demoResetNewer none])).Synced) ∧
    ((∀ op ∈ demoRun, op.saves = true) → ∀ p,
      checkPassword demoVerify (stateAfter demoDecrypt demoVerify demoHash demoAfterSaveFault
          (demoRun ++ [.resetPassword demoResetNewer none])).secretStore p = .ok () ↔
        verifyOldPassword demoVerify (stateAfter demoDecrypt demoVerify demoHash
          demoAfterSaveFault (demoRun ++ [.resetPassword demoResetNewer none])).account p =
          .ok ()) :=
  ⟨by decide, resetPassword_ok_synced demoDecrypt demoVerify demoHash demoAfterSaveFault
    demoResetNewer none (by decide) demoRun⟩

end Model

/-! ## `kill`'s argument

`kill` reads its session ids from one argument, split at commas, each trimmed
(`parse_comma_separated`).  `char::is_whitespace` is Unicode's `White_Space` property. -/

/-- `char::is_whitespace`: the characters of Unicode's `White_Space` property. -/
def isWhitespace (c : Char) : Bool :=
  (0x9 ≤ c.toNat && c.toNat ≤ 0xD) || c.toNat == 0x20 || c.toNat == 0x85 || c.toNat == 0xA0 ||
    c.toNat == 0x1680 || (0x2000 ≤ c.toNat && c.toNat ≤ 0x200A) || c.toNat == 0x2028 ||
    c.toNat == 0x2029 || c.toNat == 0x202F || c.toNat == 0x205F || c.toNat == 0x3000

/-- `str::trim`: whitespace removed from the start, then from the end. -/
def trim (s : String) : String :=
  ⟨(s.data.dropWhile isWhitespace).rdropWhile isWhitespace⟩

/-- `str::split(",")`, on the characters of the text. -/
def splitComma : List Char → List (List Char)
  | [] => [[]]
  | c :: cs =>
    if c = ',' then [] :: splitComma cs
    else match splitComma cs with
      | w :: ws => (c :: w) :: ws
      | [] => [[c]]

/-- `parse_comma_separated`, the parser of `kill`'s `ids`. -/
def parseCommaSeparated (arg : String) : List String :=
  (splitComma arg.data).map fun s => trim ⟨s⟩

/-- `String.intercalate` on characters. -/
theorem intercalate_go_data (s : String) (l : List String) : ∀ acc : String,
    (String.intercalate.go acc s l).data = acc.data ++ (l.map fun x => s.data ++ x.data).flatten := by
  induction l with
  | nil => intro acc; simp [String.intercalate.go]
  | cons x l ih => intro acc; simp [String.intercalate.go, ih]

/-- Without a comma, `split` gives the text itself. -/
theorem splitComma_of_not_mem {a : List Char} (ha : ',' ∉ a) : splitComma a = [a] := by
  induction a with
  | nil => rfl
  | cons c a ih =>
    rw [List.mem_cons, not_or] at ha
    simp [splitComma, Ne.symm ha.1, ih ha.2]

/-- A comma ends the first id. -/
theorem splitComma_append_comma {a : List Char} (ha : ',' ∉ a) (rest : List Char) :
    splitComma (a ++ ',' :: rest) = a :: splitComma rest := by
  induction a with
  | nil => simp [splitComma]
  | cons c a ih =>
    rw [List.mem_cons, not_or] at ha
    simp [splitComma, Ne.symm ha.1, ih ha.2]

/-- `split` undoes a join with commas of pieces without commas. -/
theorem splitComma_join (a : List Char) (l : List (List Char)) (ha : ',' ∉ a)
    (hl : ∀ x ∈ l, ',' ∉ x) : splitComma (a ++ (l.map fun x => ',' :: x).flatten) = a :: l := by
  induction l generalizing a with
  | nil => simpa using splitComma_of_not_mem ha
  | cons x l ih =>
    rw [List.map_cons, List.flatten_cons, List.cons_append, splitComma_append_comma ha,
      ih x (hl x (List.mem_cons_self _ _)) fun y hy => hl y (List.mem_cons_of_mem _ hy)]

/-- The ids of `kill` read back: joined with commas, ids without commas and without
surrounding whitespace parse back to themselves. -/
theorem parseCommaSeparated_intercalate (ids : List String) (hne : ids ≠ [])
    (hids : ∀ id ∈ ids, ',' ∉ id.data ∧ trim id = id) :
    parseCommaSeparated (",".intercalate ids) = ids := by
  obtain ⟨a, l, rfl⟩ := List.exists_cons_of_ne_nil hne
  have hsplit := splitComma_join a.data (l.map String.data) (hids a (List.mem_cons_self _ _)).1
    (by simpa using fun x hx => (hids x (List.mem_cons_of_mem _ hx)).1)
  simp only [List.map_map, Function.comp_def] at hsplit
  simp only [parseCommaSeparated, String.intercalate, intercalate_go_data, List.singleton_append,
    hsplit, List.map_cons, List.map_map, Function.comp_def]
  exact congrArg₂ _ (hids a (List.mem_cons_self _ _)).2
    ((List.map_congr_left fun x hx => (hids x (.tail _ hx)).2).trans (List.map_id _))

/-- `trim` leaves a trimmed string alone. -/
theorem trim_trim (s : String) : trim (trim s) = trim s := by
  simp only [trim]
  congr 1
  generalize hx : s.data.dropWhile isWhitespace = x
  have hhead := List.head?_dropWhile_not isWhitespace s.data
  rw [hx] at hhead
  rcases ht : x.rdropWhile isWhitespace with _ | ⟨c, t⟩
  · rfl
  obtain ⟨u, hu⟩ := List.rdropWhile_prefix isWhitespace x
  rw [ht, List.cons_append] at hu
  rw [← hu] at hhead
  rw [List.dropWhile_cons_of_neg (by simpa using hhead), ← ht, List.rdropWhile_idempotent]

/-- `trim` only removes characters. -/
theorem mem_trim {s : String} {c : Char} (h : c ∈ (trim s).data) : c ∈ s.data :=
  (List.dropWhile_sublist _).subset ((List.rdropWhile_prefix _ _).subset h)

/-- No id `split` gives holds a comma. -/
theorem not_mem_splitComma (l : List Char) : ∀ w ∈ splitComma l, ',' ∉ w := by
  induction l with
  | nil => simp [splitComma]
  | cons c l ih =>
    intro w hw
    simp only [splitComma] at hw
    split_ifs at hw with hc
    · rcases List.mem_cons.mp hw with rfl | hw
      · simp
      · exact ih w hw
    · split at hw
      · next w' ws heq =>
        rcases List.mem_cons.mp hw with rfl | hw
        · simp [Ne.symm hc, ih w' (heq ▸ List.mem_cons_self _ _)]
        · exact ih w (heq ▸ List.mem_cons_of_mem _ hw)
      · rw [List.mem_singleton.mp hw]; simp [Ne.symm hc]

/-- `split` gives one id more than there are commas. -/
theorem length_splitComma (l : List Char) : (splitComma l).length = l.count ',' + 1 := by
  induction l with
  | nil => rfl
  | cons c l ih =>
    by_cases hc : c = ','
    · subst hc; simp [splitComma, ih]
    · have hb : (c == ',') = false := by simpa using hc
      simp only [splitComma, if_neg hc, List.count_cons, hb]
      split
      · next w ws heq => rw [heq, List.length_cons] at ih; simp [Nat.succ_inj.mp ih]
      · next heq => rw [heq] at ih; simp at ih

/-- What `parse_comma_separated` makes of any argument: one id more than there are commas
(so an empty argument gives one empty id), none holding a comma or surrounding whitespace,
and the ids joined with commas parse back to themselves. -/
theorem parseCommaSeparated_normal (arg : String) :
    (parseCommaSeparated arg).length = arg.data.count ',' + 1 ∧
    (∀ id ∈ parseCommaSeparated arg, ',' ∉ id.data ∧ trim id = id) ∧
    parseCommaSeparated (",".intercalate (parseCommaSeparated arg)) = parseCommaSeparated arg := by
  have hlen : (parseCommaSeparated arg).length = arg.data.count ',' + 1 := by
    simp [parseCommaSeparated, length_splitComma]
  have hwf : ∀ id ∈ parseCommaSeparated arg, ',' ∉ id.data ∧ trim id = id := by
    intro id hid
    obtain ⟨w, hw, rfl⟩ := List.mem_map.mp hid
    exact ⟨fun h => not_mem_splitComma _ w hw (mem_trim h), trim_trim _⟩
  refine ⟨hlen, hwf, parseCommaSeparated_intercalate _ (fun h => ?_) hwf⟩
  simp [h] at hlen

example : parseCommaSeparated " a, b ,,c " = ["a", "b", "", "c"] := by decide

end Auth

end StartOs
