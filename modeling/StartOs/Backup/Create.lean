import StartOs.Backup.Metadata

/-!
# `BackupActions::create`

`create` touches the file system in four places.  It creates the package's backup
directory `backup_dir(pkg_id)` when it is missing, and lets the package's own procedure run
with that directory mounted as its one writable volume.  It then copies the installed
archive to `<backup-root>/<id>/<id>.s9pk` through one `AtomicFile`, and writes the
CBOR-encoded `BackupMetadata` to `<backup-root>/<id>/metadata.cbor` through another.

The procedure may write and remove any files under `backup_dir(pkg_id)`, and nothing else
(`CreateEnv.volumeWrites`).  `AtomicFile` lives in the `helpers` crate, outside the shown
files, and is modelled from the spec's durable-write primitive.  `AtomicFile::new` creates a
temporary file beside its target, the writes go to that file, and `save` renames it onto the
target in one step (`Fs.save`).  Until then the target is untouched.

Every other step may fail.  `create` takes the failing step as an argument (`none` when
none fails) and returns the error with the file system as it stands: nothing is rolled
back.  A crash between two steps leaves what a failure of the second step leaves.  A crash
inside the copy or the write of the metadata leaves a prefix of the bytes in the temporary
file, as a failing `copy` or `write_all` does.  A crash after the last save leaves what the
call returns `Ok` with.  So these states are every state a crash can leave too.  For the same
reason a failure keeps the temporary file: a crash at that point leaves it, and the removal
`AtomicFile` schedules when it is dropped is not modelled.

`create_cases` says, path by path, what one call can do to the files, and
`create_backupPair` reads the two backup files of the package off it.  The two saves are
separate, so a call that stops after the first leaves the new archive beside the previous
metadata.
-/

namespace StartOs

/-- A path, as its components; an absolute path starts with the empty component. -/
abbrev Path := List String

/-- `Path::display`. -/
def Path.display (p : Path) : String := "/".intercalate p

/-- The files and directories `create` reads and writes. -/
structure Fs where
  /-- The contents of each file. -/
  files : List (Path × List UInt8)
  /-- The directories. -/
  dirs : List Path

/-- `tokio::fs::create_dir_all`: the directory and its missing ancestors. -/
def Fs.createDirAll (fs : Fs) (p : Path) : Fs :=
  { fs with dirs := fs.dirs ++ p.inits.tail.filter fun q => q ∉ fs.dirs }

/-- The files after writes made one after the other: a file written (`some`) takes the new
contents, a file removed (`none`) is gone. -/
def patchFiles (files : List (Path × List UInt8)) :
    List (Path × Option (List UInt8)) → List (Path × List UInt8)
  | [] => files
  | (p, some contents) :: ws => patchFiles (Map.insert files p contents) ws
  | (p, none) :: ws => patchFiles (Map.erase files p) ws

/-- The procedure's writes through its volume. -/
def Fs.patch (fs : Fs) (ws : List (Path × Option (List UInt8))) : Fs :=
  { fs with files := patchFiles fs.files ws }

/-- A write to the temporary file of an `AtomicFile`: it holds `contents`. -/
def Fs.write (fs : Fs) (p : Path) (contents : List UInt8) : Fs :=
  { fs with files := Map.insert fs.files p contents }

/-- Modelled from the spec: `AtomicFile::save` renames the temporary file `tmp`, which holds
`contents`, onto `target`.  The target takes the new contents in one step, and `tmp` is
gone. -/
def Fs.save (fs : Fs) (tmp target : Path) (contents : List UInt8) : Fs :=
  { fs with files := Map.insert (Map.erase fs.files tmp) target contents }

@[simp] theorem Fs.createDirAll_files (fs : Fs) (p : Path) : (fs.createDirAll p).files = fs.files :=
  rfl

@[simp] theorem Fs.patch_files (fs : Fs) (ws : List (Path × Option (List UInt8))) :
    (fs.patch ws).files = patchFiles fs.files ws := rfl

@[simp] theorem Fs.write_files (fs : Fs) (p : Path) (contents : List UInt8) :
    (fs.write p contents).files = Map.insert fs.files p contents := rfl

@[simp] theorem Fs.save_files (fs : Fs) (tmp target : Path) (contents : List UInt8) :
    (fs.save tmp target contents).files = Map.insert (Map.erase fs.files tmp) target contents :=
  rfl

/-- Writes elsewhere leave a file alone. -/
theorem get?_patchFiles_of_forall_ne (files : List (Path × List UInt8))
    (ws : List (Path × Option (List UInt8))) {p : Path} (h : ∀ w ∈ ws, w.1 ≠ p) :
    Map.get? (patchFiles files ws) p = Map.get? files p := by
  induction ws generalizing files with
  | nil => rfl
  | cons w ws ih =>
    have hw : w.1 ≠ p := h w (List.mem_cons_self _ _)
    have hws : ∀ w ∈ ws, w.1 ≠ p := fun w' hw' => h w' (List.mem_cons_of_mem _ hw')
    obtain ⟨q, _ | contents⟩ := w
    · simp only [patchFiles, ih _ hws, Map.get?_erase, if_neg hw]
    · simp only [patchFiles, ih _ hws, Map.get?_insert, if_neg hw]

/-- `Path::new(BACKUP_DIR).join(pkg_id).join(name)`: a file of a package's backup. -/
def backupFile (backupRoot : Path) (pkgId : PackageId) (name : String) : Path :=
  backupRoot ++ [pkgId, name]

/-- Files of two packages' backups, or two files of one, lie at two paths. -/
theorem backupFile_inj {root : Path} {p q : PackageId} {n m : String}
    (h : backupFile root p n = backupFile root q m) : p = q ∧ n = m := by
  simpa [backupFile] using h

/-- `target::PackageBackupInfo`. -/
structure PackageBackupInfo where
  /-- `os_version`. -/
  osVersion : String
  /-- `title`. -/
  title : String
  /-- `version`. -/
  version : String
  /-- `timestamp`. -/
  timestamp : Int
  deriving DecidableEq, Repr

/-- The step of `create` that fails. -/
inductive CreateFault where
  /-- `tokio::fs::create_dir_all(&backup_dir)`. -/
  | createDir
  /-- `self.create.execute(..)`: the runtime, not the procedure, fails. -/
  | execute
  /-- `Key::for_package`. -/
  | forPackage
  /-- The patch-db reads of `marketplace_url`. -/
  | marketplaceUrl
  /-- `File::open(&s9pk_path)`. -/
  | openArchive
  /-- `AtomicFile::new(&tmp_path, ..)`. -/
  | newArchive
  /-- `tokio::io::copy`, after it has written `written` bytes. -/
  | copy (written : Nat)
  /-- The archive's `outfile.save()`. -/
  | saveArchive
  /-- `AtomicFile::new(&metadata_path, ..)`. -/
  | newMetadata
  /-- `outfile.write_all(..)`, after it has written `written` bytes. -/
  | write (written : Nat)
  /-- The metadata's `outfile.save()`. -/
  | saveMetadata
  deriving DecidableEq, Repr

/-- What `create` reads besides the file system: its arguments, the constants it joins
paths from, what the procedure writes, and the answers of the procedure runtime, the secret
store, patch-db, the clock and the CBOR encoder. -/
structure CreateEnv where
  /-- `BACKUP_DIR`. -/
  backupRoot : Path
  /-- `backup_dir(pkg_id)`, the directory of the procedure's writable `Backup` volume. -/
  backupDir : Path
  /-- `ctx.datadir`. -/
  datadir : Path
  /-- `PKG_ARCHIVE_DIR`. -/
  pkgArchiveDir : Path
  /-- `pkg_id`. -/
  pkgId : PackageId
  /-- `pkg_title`. -/
  pkgTitle : String
  /-- `pkg_version.as_str()`. -/
  pkgVersion : String
  /-- What the procedure returns when the runtime runs it. -/
  procedure : Except (Int × String) Unit
  /-- What the procedure writes (`some`) and removes (`none`) through its volume, in order,
  whatever it then returns.  A runtime that fails before the procedure runs is an
  environment whose procedure writes nothing. -/
  volumeWrites : List (Path × Option (List UInt8))
  /-- The package's other volumes are mounted read-only: every write lies under
  `backup_dir(pkg_id)`. -/
  volumeWrites_under : ∀ w ∈ volumeWrites, backupDir <+: w.1
  /-- `backup_dir(pkg_id)` (in `crate::volume`, outside the shown files) holds no package's
  archive copy or metadata. -/
  backupDir_apart : ∀ pkg, ¬ backupDir <+: backupFile backupRoot pkg (pkg ++ ".s9pk") ∧
    ¬ backupDir <+: backupFile backupRoot pkg "metadata.cbor"
  /-- The name `AtomicFile::new(path, None)` gives its temporary file, in the directory of
  `path`, from the name of `path`. -/
  tmpName : String → String
  /-- A temporary file never takes the name of one of the two backup files. -/
  tmpName_ne : ∀ name, tmpName name ≠ pkgId ++ ".s9pk" ∧ tmpName name ≠ "metadata.cbor"
  /-- `Key::for_package(&ctx.secret_store, pkg_id)`. -/
  keys : List Key
  /-- The installed package's `marketplace_url`. -/
  marketplaceUrl : Option String
  /-- `Utc::now()`. -/
  now : Int
  /-- `Current::new().semver()`. -/
  osVersion : String
  /-- `IoFormat::Cbor.to_vec`. -/
  toCbor : BackupMetadata → Except Error (List UInt8)
  /-- The error a failing collaborator returns. -/
  cause : Error

namespace CreateEnv

/-- `tmp_path`: where the archive copy goes. -/
def tmpPath (e : CreateEnv) : Path := backupFile e.backupRoot e.pkgId (e.pkgId ++ ".s9pk")

/-- `s9pk_path`: the installed archive. -/
def s9pkPath (e : CreateEnv) : Path :=
  e.datadir ++ e.pkgArchiveDir ++ [e.pkgId, e.pkgVersion, e.pkgId ++ ".s9pk"]

/-- `metadata_path`. -/
def metadataPath (e : CreateEnv) : Path := backupFile e.backupRoot e.pkgId "metadata.cbor"

/-- The temporary file of the archive copy's `AtomicFile`. -/
def archiveTmp (e : CreateEnv) : Path :=
  backupFile e.backupRoot e.pkgId (e.tmpName (e.pkgId ++ ".s9pk"))

/-- The temporary file of the metadata's `AtomicFile`. -/
def metadataTmp (e : CreateEnv) : Path :=
  backupFile e.backupRoot e.pkgId (e.tmpName "metadata.cbor")

/-- The `BackupMetadata` that `create` encodes. -/
def metadata (e : CreateEnv) : BackupMetadata :=
  ⟨e.now, (keyMaps e.keys).1, (keyMaps e.keys).2, e.marketplaceUrl⟩

/-- The `PackageBackupInfo` that `create` returns. -/
def info (e : CreateEnv) : PackageBackupInfo := ⟨e.osVersion, e.pkgTitle, e.pkgVersion, e.now⟩

/-- The two files of the package's backup: the archive and the metadata. -/
def backupPair (e : CreateEnv) (fs : Fs) : Option (List UInt8) × Option (List UInt8) :=
  (Map.get? fs.files e.tmpPath, Map.get? fs.files e.metadataPath)

/-- The installed archive as `File::open(&s9pk_path)` reads it, once the procedure has
run. -/
def installedArchive (e : CreateEnv) (fs : Fs) : Option (List UInt8) :=
  Map.get? (patchFiles fs.files e.volumeWrites) e.s9pkPath

/-- The archive and the metadata of a backup lie at two paths. -/
theorem tmpPath_ne_metadataPath (e : CreateEnv) : e.tmpPath ≠ e.metadataPath := by
  intro h
  have := congrArg (fun p : Path => (p.getLast?.map String.data).bind List.getLast?) h
  simp [tmpPath, metadataPath, backupFile] at this

theorem archiveTmp_ne_tmpPath (e : CreateEnv) : e.archiveTmp ≠ e.tmpPath :=
  fun h => (e.tmpName_ne _).1 (backupFile_inj h).2

theorem archiveTmp_ne_metadataPath (e : CreateEnv) : e.archiveTmp ≠ e.metadataPath :=
  fun h => (e.tmpName_ne _).2 (backupFile_inj h).2

theorem metadataTmp_ne_tmpPath (e : CreateEnv) : e.metadataTmp ≠ e.tmpPath :=
  fun h => (e.tmpName_ne _).1 (backupFile_inj h).2

theorem metadataTmp_ne_metadataPath (e : CreateEnv) : e.metadataTmp ≠ e.metadataPath :=
  fun h => (e.tmpName_ne _).2 (backupFile_inj h).2

/-- The procedure writes every file but those under its volume's directory alone. -/
theorem get?_patchFiles_volumeWrites (e : CreateEnv) (files : List (Path × List UInt8))
    {p : Path} (hp : ¬ e.backupDir <+: p) :
    Map.get? (patchFiles files e.volumeWrites) p = Map.get? files p :=
  get?_patchFiles_of_forall_ne files _ fun w hw h => hp (h ▸ e.volumeWrites_under w hw)

end CreateEnv

namespace BackupActions

/-! ## The three stretches of `create`

`create` is cut where it first writes a file of the backup: `prepare` runs up to the read of
`marketplace_url`, `copyArchive` saves the archive copy, and `writeMetadata` saves the
metadata and builds the result.  Each stops at its first error, and so does `create`. -/

/-- The backup directory, the procedure, and the reads of the keys and the marketplace url. -/
def prepare (e : CreateEnv) (fs : Fs) (fault : Option CreateFault) : Except Error Unit × Fs :=
  if e.backupDir ∉ fs.dirs ∧ fault = some .createDir then (.error e.cause, fs) else
  let fs := if e.backupDir ∈ fs.dirs then fs else fs.createDirAll e.backupDir
  let fs := fs.patch e.volumeWrites
  if fault = some .execute then (.error e.cause, fs) else
  match e.procedure with
  | .error err => (.error ⟨.backup, some err.2⟩, fs)
  | .ok () =>
    if fault = some .forPackage then (.error e.cause, fs) else
    if fault = some .marketplaceUrl then (.error e.cause, fs) else
    (.ok (), fs)

/-- The copy of the installed archive to `tmp_path`, through an `AtomicFile`. -/
def copyArchive (e : CreateEnv) (fs : Fs) (fault : Option CreateFault) : Except Error Unit × Fs :=
  if fault = some .openArchive then (.error e.cause, fs) else
  match Map.get? fs.files e.s9pkPath with
  | none => (.error e.cause, fs)
  | some archive =>
    if fault = some .newArchive then (.error { e.cause with kind := .filesystem }, fs) else
    let fs := fs.write e.archiveTmp []
    match fault with
    | some (.copy written) =>
      (.error ⟨.filesystem, some ("cp " ++ e.s9pkPath.display ++ " -> " ++ e.tmpPath.display)⟩,
        fs.write e.archiveTmp (archive.take written))
    | some .saveArchive =>
      (.error { e.cause with kind := .filesystem }, fs.write e.archiveTmp archive)
    | _ => (.ok (), (fs.write e.archiveTmp archive).save e.archiveTmp e.tmpPath archive)

/-- The metadata, encoded and written to `metadata_path` through an `AtomicFile`, and the
`PackageBackupInfo` returned. -/
def writeMetadata (e : CreateEnv) (fs : Fs) (fault : Option CreateFault) :
    Except Error PackageBackupInfo × Fs :=
  if fault = some .newMetadata then (.error { e.cause with kind := .filesystem }, fs) else
  let fs := fs.write e.metadataTmp []
  match e.toCbor e.metadata with
  | .error err => (.error err, fs)
  | .ok bytes =>
    match fault with
    | some (.write written) => (.error e.cause, fs.write e.metadataTmp (bytes.take written))
    | some .saveMetadata =>
      (.error { e.cause with kind := .filesystem }, fs.write e.metadataTmp bytes)
    | _ => (.ok e.info, (fs.write e.metadataTmp bytes).save e.metadataTmp e.metadataPath bytes)

/-- `BackupActions::create`. -/
def create (e : CreateEnv) (fs : Fs) (fault : Option CreateFault) :
    Except Error PackageBackupInfo × Fs :=
  match prepare e fs fault with
  | (.error err, fs) => (.error err, fs)
  | (.ok (), fs) =>
    match copyArchive e fs fault with
    | (.error err, fs) => (.error err, fs)
    | (.ok (), fs) => writeMetadata e fs fault

/-- `prepare` leaves the files as they were, or as the procedure left them; it returns `Ok`
only in the second case. -/
theorem prepare_files (e : CreateEnv) (fs : Fs) (fault : Option CreateFault) :
    ((prepare e fs fault).2.files = fs.files ∧ (prepare e fs fault).1 ≠ .ok ()) ∨
    (prepare e fs fault).2.files = patchFiles fs.files e.volumeWrites := by
  unfold prepare
  by_cases h : e.backupDir ∉ fs.dirs ∧ fault = some .createDir
  · rw [if_pos h]
    exact .inl ⟨rfl, nofun⟩
  rw [if_neg h]
  right
  have hdir : ((if e.backupDir ∈ fs.dirs then fs else fs.createDirAll e.backupDir).patch
      e.volumeWrites).files = patchFiles fs.files e.volumeWrites := by split <;> rfl
  dsimp only
  generalize (if e.backupDir ∈ fs.dirs then fs else fs.createDirAll e.backupDir).patch
    e.volumeWrites = fs' at hdir ⊢
  split_ifs <;> first | exact hdir | rcases e.procedure with _ | ⟨⟩ <;> exact hdir

/-- What `copyArchive` does to the files: it writes only the archive copy and its temporary
file, and the copy holds the installed archive exactly when it returns `Ok`. -/
theorem copyArchive_cases (e : CreateEnv) (fs : Fs) (fault : Option CreateFault) :
    (∀ p, p ≠ e.archiveTmp → p ≠ e.tmpPath →
      Map.get? (copyArchive e fs fault).2.files p = Map.get? fs.files p) ∧
    (((copyArchive e fs fault).1 ≠ .ok () ∧
        Map.get? (copyArchive e fs fault).2.files e.tmpPath = Map.get? fs.files e.tmpPath) ∨
      ∃ a, Map.get? fs.files e.s9pkPath = some a ∧ (copyArchive e fs fault).1 = .ok () ∧
        Map.get? (copyArchive e fs fault).2.files e.tmpPath = some a) := by
  have hne := e.archiveTmp_ne_tmpPath
  unfold copyArchive
  by_cases h₁ : fault = some .openArchive
  · rw [if_pos h₁]
    exact ⟨fun _ _ _ => rfl, .inl ⟨nofun, rfl⟩⟩
  rw [if_neg h₁]
  rcases ha : Map.get? fs.files e.s9pkPath with _ | a
  · exact ⟨fun _ _ _ => rfl, .inl ⟨nofun, rfl⟩⟩
  dsimp only
  by_cases h₂ : fault = some .newArchive
  · rw [if_pos h₂]
    exact ⟨fun _ _ _ => rfl, .inl ⟨nofun, rfl⟩⟩
  rw [if_neg h₂]
  have hsaved : (∀ p, p ≠ e.archiveTmp → p ≠ e.tmpPath → Map.get?
      (((fs.write e.archiveTmp []).write e.archiveTmp a).save e.archiveTmp e.tmpPath a).files p =
        Map.get? fs.files p) ∧
      Map.get? (((fs.write e.archiveTmp []).write e.archiveTmp a).save e.archiveTmp e.tmpPath
        a).files e.tmpPath = some a :=
    ⟨fun p h₁ h₂ => by simp [Ne.symm h₁, Ne.symm h₂], by simp [hne]⟩
  rcases fault with _ | f
  · exact ⟨hsaved.1, .inr ⟨a, rfl, rfl, hsaved.2⟩⟩
  cases f with
  | copy | saveArchive => exact ⟨fun p h₁ _ => by simp [Ne.symm h₁], .inl ⟨nofun, by simp [hne]⟩⟩
  | _ => exact ⟨hsaved.1, .inr ⟨a, rfl, rfl, hsaved.2⟩⟩

/-- What `writeMetadata` does to the files: it writes only the metadata and its temporary
file, and the metadata holds the encoded `BackupMetadata` exactly when it returns `Ok`. -/
theorem writeMetadata_cases (e : CreateEnv) (fs : Fs) (fault : Option CreateFault) :
    (∀ p, p ≠ e.metadataTmp → p ≠ e.metadataPath →
      Map.get? (writeMetadata e fs fault).2.files p = Map.get? fs.files p) ∧
    (((writeMetadata e fs fault).1.isOk = false ∧
        Map.get? (writeMetadata e fs fault).2.files e.metadataPath =
          Map.get? fs.files e.metadataPath) ∨
      ∃ b, e.toCbor e.metadata = .ok b ∧ (writeMetadata e fs fault).1 = .ok e.info ∧
        Map.get? (writeMetadata e fs fault).2.files e.metadataPath = some b) := by
  have hne := e.metadataTmp_ne_metadataPath
  unfold writeMetadata
  by_cases hf : fault = some .newMetadata
  · rw [if_pos hf]
    exact ⟨fun _ _ _ => rfl, .inl ⟨rfl, rfl⟩⟩
  rw [if_neg hf]
  rcases e.toCbor e.metadata with err | b
  · exact ⟨fun p h₁ _ => by simp [Ne.symm h₁], .inl ⟨rfl, by simp [hne]⟩⟩
  have hsaved : (∀ p, p ≠ e.metadataTmp → p ≠ e.metadataPath → Map.get?
      (((fs.write e.metadataTmp []).write e.metadataTmp b).save e.metadataTmp e.metadataPath
        b).files p = Map.get? fs.files p) ∧
      Map.get? (((fs.write e.metadataTmp []).write e.metadataTmp b).save e.metadataTmp
        e.metadataPath b).files e.metadataPath = some b :=
    ⟨fun p h₁ h₂ => by simp [Ne.symm h₁, Ne.symm h₂], by simp [hne]⟩
  rcases fault with _ | f
  · exact ⟨hsaved.1, .inr ⟨b, rfl, rfl, hsaved.2⟩⟩
  cases f with
  | write | saveMetadata => exact ⟨fun p h₁ _ => by simp [Ne.symm h₁], .inl ⟨rfl, by simp [hne]⟩⟩
  | _ => exact ⟨hsaved.1, .inr ⟨b, rfl, rfl, hsaved.2⟩⟩

/-- Everything one call of `create` can do to the files, path by path.  It writes under the
procedure's volume, the archive copy, the metadata and their temporary files, and no other
file.  The pair of backup files is the pair it found, or the installed archive beside the
metadata it found, or, when it returns `Ok`, the installed archive and the encoded
`BackupMetadata`. -/
theorem create_cases (e : CreateEnv) (fs : Fs) (fault : Option CreateFault) :
    (∀ p, ¬ e.backupDir <+: p → p ≠ e.archiveTmp → p ≠ e.metadataTmp → p ≠ e.tmpPath →
      p ≠ e.metadataPath → Map.get? (create e fs fault).2.files p = Map.get? fs.files p) ∧
    (((create e fs fault).1.isOk = false ∧ e.backupPair (create e fs fault).2 = e.backupPair fs) ∨
      ∃ a, e.installedArchive fs = some a ∧
        (((create e fs fault).1.isOk = false ∧
            e.backupPair (create e fs fault).2 = (some a, (e.backupPair fs).2)) ∨
          ∃ b, e.toCbor e.metadata = .ok b ∧ (create e fs fault).1 = .ok e.info ∧
            e.backupPair (create e fs fault).2 = (some a, some b))) := by
  have hvt : ¬ e.backupDir <+: e.tmpPath := (e.backupDir_apart e.pkgId).1
  have hvm : ¬ e.backupDir <+: e.metadataPath := (e.backupDir_apart e.pkgId).2
  have hp := prepare_files e fs fault
  have hframe₁ : ∀ p, ¬ e.backupDir <+: p →
      Map.get? (prepare e fs fault).2.files p = Map.get? fs.files p := fun p hp₀ => by
    rcases hp with ⟨h, -⟩ | h <;> rw [h]
    exact e.get?_patchFiles_volumeWrites _ hp₀
  unfold create
  generalize prepare e fs fault = q at hp hframe₁
  obtain ⟨_ | ⟨⟩, fs₁⟩ := q <;> dsimp only at hp hframe₁ ⊢
  · exact ⟨fun p hp₀ _ _ _ _ => hframe₁ p hp₀,
      .inl ⟨rfl, by simp only [CreateEnv.backupPair, hframe₁ _ hvt, hframe₁ _ hvm]⟩⟩
  replace hp : fs₁.files = patchFiles fs.files e.volumeWrites := hp.resolve_left fun h => h.2 rfl
  obtain ⟨hcf, hc⟩ := copyArchive_cases e fs₁ fault
  have hframe₂ : ∀ p, ¬ e.backupDir <+: p → p ≠ e.archiveTmp → p ≠ e.tmpPath →
      Map.get? (copyArchive e fs₁ fault).2.files p = Map.get? fs.files p :=
    fun p hp₀ h₁ h₃ => (hcf p h₁ h₃).trans (hframe₁ p hp₀)
  have hmeta₂ := hframe₂ _ hvm e.archiveTmp_ne_metadataPath.symm e.tmpPath_ne_metadataPath.symm
  generalize copyArchive e fs₁ fault = q at hc hframe₂ hmeta₂
  obtain ⟨_ | ⟨⟩, fs₂⟩ := q <;> dsimp only at hc hframe₂ hmeta₂ ⊢
  · rcases hc with ⟨-, hc⟩ | ⟨_, _, h, -⟩
    · exact ⟨fun p hp₀ h₁ _ h₃ _ => hframe₂ p hp₀ h₁ h₃,
        .inl ⟨rfl, by simp only [CreateEnv.backupPair, hc, hframe₁ _ hvt, hmeta₂]⟩⟩
    · cases h
  rcases hc with ⟨h, -⟩ | ⟨a, ha, -, hca⟩
  · exact absurd rfl h
  obtain ⟨hwf, hw⟩ := writeMetadata_cases e fs₂ fault
  have htmp₃ : Map.get? (writeMetadata e fs₂ fault).2.files e.tmpPath = some a :=
    (hwf _ e.metadataTmp_ne_tmpPath.symm e.tmpPath_ne_metadataPath).trans hca
  refine ⟨fun p hp₀ h₁ h₂ h₃ h₄ => (hwf p h₂ h₄).trans (hframe₂ p hp₀ h₁ h₃),
    .inr ⟨a, by rw [CreateEnv.installedArchive, ← hp]; exact ha, ?_⟩⟩
  rcases hw with ⟨hok, hw⟩ | ⟨b, hb, hr, hw⟩
  · exact .inl ⟨hok, by simp only [CreateEnv.backupPair, htmp₃, hw, hmeta₂]⟩
  · exact .inr ⟨b, hb, hr, by simp only [CreateEnv.backupPair, htmp₃, hw]⟩

/-- A backup of `acme-crm` over an earlier one: the procedure dumps its database into its
volume, the installed archive holds `[1]`, the earlier backup `[0]` and `[7]`, and the
metadata encodes to `[2]`. -/
def acmeEnv : CreateEnv where
  backupRoot := ["", "backup"]
  backupDir := ["", "backup", "acme-crm", "data"]
  datadir := ["", "embassy-data"]
  pkgArchiveDir := ["package-data", "archive"]
  pkgId := "acme-crm"
  pkgTitle := "Acme CRM"
  pkgVersion := "1.2.0"
  procedure := .ok ()
  volumeWrites := [(["", "backup", "acme-crm", "data", "crm.db"], some [5])]
  volumeWrites_under := by simp
  backupDir_apart pkg := by
    constructor <;> intro h <;> have h' := h.eq_of_length (by simp [backupFile]) <;>
      simp only [backupFile, List.cons_append, List.nil_append, List.cons.injEq, true_and,
        and_true] at h'
    · obtain ⟨rfl, h₂⟩ := h'
      exact absurd h₂ (by decide)
    · exact absurd h'.2 (by decide)
  tmpName name := "." ++ name ++ ".tmp"
  tmpName_ne name := by
    constructor <;> intro h <;> have := congrArg (fun s : String => s.data.head?) h <;>
      simp at this
  keys := []
  marketplaceUrl := some "https://registry.start9.com/"
  now := 0
  osVersion := "0.3.3"
  toCbor := fun _ => .ok [2]
  cause := ⟨.unknown, none⟩

/-- The files before the backup of `acmeEnv`. -/
def acmeFs : Fs :=
  ⟨[(acmeEnv.s9pkPath, [1]), (acmeEnv.tmpPath, [0]), (acmeEnv.metadataPath, [7])],
    [acmeEnv.backupDir]⟩

end BackupActions

end StartOs
