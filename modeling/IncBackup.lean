import IncBackup.File.Record
import IncBackup.File.Path
import IncBackup.File.Checksum
import IncBackup.File.Scanner
import IncBackup.File.ScanWalk
import IncBackup.Backup.Keys
import IncBackup.Backup.Bundle
import IncBackup.Backup.Manifest
import IncBackup.Backup.PathIndex
import IncBackup.Backup.Update
import IncBackup.Backup.Compare
import IncBackup.Stream.Reader
import IncBackup.Crypto.Cipher
import IncBackup.Crypto.EncryptReader
import IncBackup.Crypto.DecryptReader
import IncBackup.Crypto.Runs
import IncBackup.Backup.Upload
import IncBackup.Json.Value
import IncBackup.Json.Time
import IncBackup.Backup.ManifestJson
import IncBackup.Backup.ScanAndBackup
import IncBackup.Backup.Destination
import IncBackup.Backup.Restore
import IncBackup.Store.Metadata
import IncBackup.Store.Session
import IncBackup.Store.Packer
import IncBackup.Store.FileStorage
import IncBackup.Main.Setup
import IncBackup.Main.Config
