import StartOs.Backup.Create

/-!
# `BackupActions::restore`, and a backup read back

`restore` lets the package's own procedure restore its data, reads `metadata.cbor` back from
the package's backup, decodes it, and writes the `marketplace_url` it holds to the installed
package's record in patch-db; it then passes the record to
`reconfigure_dependents_with_live_pointers`.  As in `create`, every collaborator may fail
and the failing step is an argument.  The CBOR decoder is a parameter, the installed record
is modelled by the one field `restore` writes, and the reconfiguration by the records it
is called with.  A call of `reconfigure_dependents_with_live_pointers` is recorded when it is
made, whatever it then returns: a failing reconfiguration may have reached some dependents.
`readBackup` is all `restore` does before its first write to patch-db.

`restore_create` reads a backup back: after a `create` that returned `Ok`, a `restore`
whose decoder reads back what the encoder wrote installs the marketplace url the package had
when the backup was made.
-/

namespace StartOs

/-- What `restore` reads besides the file system. -/
structure RestoreEnv where
  /-- `BACKUP_DIR`. -/
  backupRoot : Path
  /-- `pkg_id`. -/
  pkgId : PackageId
  /-- What the procedure returns when the runtime runs it. -/
  procedure : Except (Int × String) Unit
  /-- `IoFormat::Cbor.from_slice`. -/
  fromCbor : List UInt8 → Except Error BackupMetadata
  /-- The error a failing collaborator returns. -/
  cause : Error

/-- `metadata_path`. -/
def RestoreEnv.metadataPath (r : RestoreEnv) : Path :=
  backupFile r.backupRoot r.pkgId "metadata.cbor"

/-- The installed package's record as `restore` writes it, and the records the dependents
were reconfigured with. -/
structure RestoreState where
  /-- The installed package's `marketplace_url`. -/
  marketplaceUrl : Option String
  /-- The records `reconfigure_dependents_with_live_pointers` was called with, oldest first,
  whatever each call returned. -/
  reconfigured : List (Option String)
  deriving DecidableEq, Repr

/-- The step of `restore` that fails. -/
inductive RestoreFault where
  /-- `self.restore.execute(..)`: the runtime, not the procedure, fails. -/
  | execute
  /-- `tokio::fs::read(&metadata_path)`. -/
  | read
  /-- The reads of the installed record before the `put`. -/
  | installed
  /-- The `put` of `marketplace_url`. -/
  | put
  /-- The read of the installed record after the `put`. -/
  | entry
  /-- `ConfigReceipts::new`. -/
  | receipts
  /-- `reconfigure_dependents_with_live_pointers`. -/
  | reconfigure
  deriving DecidableEq, Repr

namespace BackupActions

/-- The procedure, and the metadata read back from the backup: everything `restore` does
before it writes to patch-db. -/
def readBackup (r : RestoreEnv) (fs : Fs) (fault : Option RestoreFault) :
    Except Error BackupMetadata :=
  if fault = some .execute then .error r.cause else
  match r.procedure with
  | .error err => .error ⟨.restore, some err.2⟩
  | .ok () =>
    if fault = some .read then .error ⟨.filesystem, some r.metadataPath.display⟩ else
    match Map.get? fs.files r.metadataPath with
    | none => .error ⟨.filesystem, some r.metadataPath.display⟩
    | some bytes => r.fromCbor bytes

/-- `BackupActions::restore`. -/
def restore (r : RestoreEnv) (fs : Fs) (st : RestoreState) (fault : Option RestoreFault) :
    Except Error Unit × RestoreState :=
  match readBackup r fs fault with
  | .error err => (.error err, st)
  | .ok metadata =>
    if fault = some .installed then (.error r.cause, st) else
    if fault = some .put then (.error r.cause, st) else
    let st := { st with marketplaceUrl := metadata.marketplaceUrl }
    if fault = some .entry then (.error r.cause, st) else
    if fault = some .receipts then (.error r.cause, st) else
    let st := { st with reconfigured := st.reconfigured ++ [st.marketplaceUrl] }
    if fault = some .reconfigure then (.error r.cause, st) else
    (.ok (), st)

/-- With the procedure succeeding, `readBackup` decodes what `metadata.cbor` holds. -/
theorem readBackup_of_get? {r : RestoreEnv} {fs : Fs} {b : List UInt8}
    (hproc : r.procedure = .ok ()) (hread : Map.get? fs.files r.metadataPath = some b) :
    readBackup r fs none = r.fromCbor b := by
  simp only [readBackup, hproc, hread]
  rfl

/-- A `restore` in which no step fails, once the backup reads back: it installs the
marketplace url of the metadata and reconfigures the dependents with it. -/
theorem restore_of_readBackup {r : RestoreEnv} {fs : Fs} {st : RestoreState}
    {m : BackupMetadata} (h : readBackup r fs none = .ok m) :
    restore r fs st none = (.ok (), ⟨m.marketplaceUrl, st.reconfigured ++ [m.marketplaceUrl]⟩) := by
  simp only [restore, h]
  rfl

/-- A backup read back: after a `create` that returned `Ok`, whatever its file system and
the step it was told to fail at, a `restore` of the same package whose decoder reads back
the metadata `create` encoded installs the marketplace url of the backup and reconfigures
the dependents with it. -/
theorem restore_create (e : CreateEnv) (r : RestoreEnv) (fs : Fs) (fault : Option CreateFault)
    (st : RestoreState) (hroot : r.backupRoot = e.backupRoot) (hid : r.pkgId = e.pkgId)
    (hproc : r.procedure = .ok ())
    (hcbor : ∀ b, e.toCbor e.metadata = .ok b → r.fromCbor b = .ok e.metadata)
    (hok : (create e fs fault).1.isOk = true) :
    restore r (create e fs fault).2 st none =
      (.ok (), ⟨e.marketplaceUrl, st.reconfigured ++ [e.marketplaceUrl]⟩) := by
  have hpath : r.metadataPath = e.metadataPath := by
    rw [RestoreEnv.metadataPath, CreateEnv.metadataPath, hroot, hid]
  rcases (create_cases e fs fault).2 with ⟨h, -⟩ | ⟨a, -, ⟨h, -⟩ | ⟨b, hb, -, hf⟩⟩
  · simp [h] at hok
  · simp [h] at hok
  · have hread : Map.get? (create e fs fault).2.files r.metadataPath = some b :=
      hpath ▸ congrArg Prod.snd hf
    exact restore_of_readBackup ((readBackup_of_get? hproc hread).trans (hcbor b hb))

/-- A restore of `acme-crm` whose decoder reads back the one encoding of `acmeEnv`'s
metadata and refuses any other bytes. -/
def acmeRestore : RestoreEnv where
  backupRoot := ["", "backup"]
  pkgId := "acme-crm"
  procedure := .ok ()
  fromCbor b := if b = [2] then .ok acmeEnv.metadata else .error ⟨.serialization, none⟩
  cause := ⟨.unknown, none⟩

/-- `acmeRestore` decodes what `acmeEnv` encodes. -/
theorem acmeRestore_fromCbor (b : List UInt8) (hb : acmeEnv.toCbor acmeEnv.metadata = .ok b) :
    acmeRestore.fromCbor b = .ok acmeEnv.metadata := by
  cases hb
  rfl

/-- The package moved to another marketplace since the backup: the restore puts the backup's
url back. -/
theorem restore_create_acme :
    acmeRestore.backupRoot = acmeEnv.backupRoot ∧ acmeRestore.pkgId = acmeEnv.pkgId ∧
    acmeRestore.procedure = .ok () ∧
    (∀ b, acmeEnv.toCbor acmeEnv.metadata = .ok b → acmeRestore.fromCbor b = .ok acmeEnv.metadata) ∧
    (create acmeEnv acmeFs none).1.isOk = true ∧
    restore acmeRestore (create acmeEnv acmeFs none).2 ⟨some "https://alt.example/", []⟩ none =
      (.ok (), ⟨acmeEnv.marketplaceUrl, [] ++ [acmeEnv.marketplaceUrl]⟩) :=
  ⟨rfl, rfl, rfl, acmeRestore_fromCbor, by decide,
    restore_create acmeEnv acmeRestore acmeFs none ⟨some "https://alt.example/", []⟩ rfl rfl rfl
      acmeRestore_fromCbor (by decide)⟩

end BackupActions

end StartOs
