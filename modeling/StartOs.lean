import StartOs.Basic
import StartOs.Json
import StartOs.Notifications.Debounce
import StartOs.Notifications.Ledger
import StartOs.Notifications.Table
import StartOs.Backup.Metadata
import StartOs.Backup.Create
import StartOs.Backup.Restore
import StartOs.Backup.History
import StartOs.Auth
import StartOs.Version.V033
import StartOs.Version.V033Up
import StartOs.Version.V033Down
