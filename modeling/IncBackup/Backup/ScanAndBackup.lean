import IncBackup.Backup.Upload
import IncBackup.Backup.ManifestJson

/-!
# Scanning and backing up against a store

`ScanAndBackup` fetches the latest manifest, compares the scan with it, updates it with the
changed files and runs `backupLatest`, which uploads the archives of the new set and saves
the manifest.  The model is of a store whose every request succeeds: what can still fail is
the archive `archive.PackReader` streams into an upload, which decides whether the upload
is stored or rolled back, and the manifest's JSON.

The store is seen through what the pipeline writes and reads: archives under `blob/...`,
manifest documents under `manifest/<LastSet>`, the metadata field `manifest/latest` and the
list of keys written, in order.  Compression and encryption sit below this view (the
crypto readers are modelled on their own), and the local cache of fetched objects is taken
to hold what the store holds.  A document is kept as the JSON value written; reading it
gives that value as the decoder sees it, `Json.reread`.

The goroutines of `backupLatest` make a run a relation: `BackupLatest` holds of every end
state any interleaving can reach.  An upload whose archive blocks never ends, so a run with
one has no end state at all.
-/

namespace IncBackup

namespace Backup

/-! ## Archives -/

/-- What `archive.PackReader` does with the files of an upload. -/
inductive PackOutcome where
  | packed
  | failed (text : String)
  | blocked
deriving DecidableEq

/-- One file of `archive.PackReader`, on a disk that does not change: `tar.FileInfoHeader`
takes regular files, directories, symlinks, devices and named pipes; the contents of a
device are copied under a header of size zero, so a device with contents overflows it;
opening a named pipe for reading waits for a writer that never comes. -/
def packFile (disk : Disk) (file : File) : PackOutcome :=
  if file.mode.isRegular || file.mode.isDir || file.mode.isSymlink then .packed
  else if file.mode.isDevice then
    if disk.contents file.path = [] then .packed else .failed "archive/tar: write too long"
  else if file.mode.isNamedPipe then .blocked
  else if file.mode.isSocket then .failed "archive/tar: sockets not supported"
  else .failed "archive/tar: unknown file mode"

/-- `archive.PackReader` over the files of an upload: the first file that fails or blocks
decides. -/
def packFiles (disk : Disk) : List File → PackOutcome
  | [] => .packed
  | file :: rest =>
    match packFile disk file with
    | .packed => packFiles disk rest
    | outcome => outcome

/-- The header `tar.FileInfoHeader` makes from a record's `FileInfo`: the record's full path
as its name, a directory's with a trailing separator; the record is its `Sys()`, not a
`*syscall.Stat_t`, so the owner is left zero. -/
structure TarHeader where
  name : GoString
  mode : FileMode
  uid : Int
  gid : Int
  modTime : Time
  linkname : GoString

/-- `tar.FileInfoHeader(file.FileInfo(), link)`. -/
def tarHeader (file : File) (link : GoString) : TarHeader :=
  ⟨if file.isDir then file.path ++ [Filepath.separator] else file.path, file.mode, 0, 0,
    file.modTime, link⟩

/-- One file of a tar archive: its header and its data. -/
structure TarEntry where
  header : TarHeader
  data : GoString

/-- What `PackReader` writes for a file it packs: the header, with the link target of a
symlink, and the contents of anything but a symlink or directory. -/
def tarEntry (disk : Disk) (file : File) : TarEntry :=
  if file.isSymlink then ⟨tarHeader file (disk.linkTarget file.path), []⟩
  else if file.isDir then ⟨tarHeader file [], []⟩
  else ⟨tarHeader file [], disk.contents file.path⟩

/-! ## The store -/

/-- An object of the store: a tar archive, or a manifest document. -/
inductive StoreObject where
  | archive (entries : List TarEntry)
  | document (value : Json)

/-- The store as the pipeline sees it. -/
structure Store where
  objects : GoString → Option StoreObject
  /-- The metadata field `manifest/latest`. -/
  latest : Option GoString
  /-- The keys written, in order. -/
  writes : List GoString

/-- An empty store. -/
def Store.empty : Store := ⟨fun _ => none, none, []⟩

/-- `Put` of an object. -/
def Store.put (store : Store) (key : GoString) (object : StoreObject) : Store :=
  { store with
    objects := Function.update store.objects key (some object)
    writes := store.writes ++ [key] }

/-- `PutMetadata("manifest/latest", set)`, which rewrites the store's `metadata` object. -/
def Store.putLatest (store : Store) (set : GoString) : Store :=
  { store with latest := some set, writes := store.writes ++ [ascii "metadata"] }

/-- The archives of the stored uploads, each under `blob/` and its object key. -/
def Store.putArchives (disk : Disk) (store : Store) (uploads : List Upload) : Store :=
  uploads.foldl
    (fun store upload =>
      store.put (ascii "blob/" ++ upload.key) (.archive (upload.files.map (tarEntry disk))))
    store

/-- What `getLatestManifest` finds: the data of a manifest, parsed (none when it is not
JSON), or an error the store's `IsNotExist` accepts. -/
inductive Latest where
  | found (document : Option Json)
  | missing

/-- `cacheGetStoreObject` of a manifest key. -/
def objectData : Option StoreObject → Latest
  | some (.document value) => .found (some value.reread)
  | some (.archive _) => .found none
  | none => .missing

/-- `getLatestManifest`: the manifest `manifest/latest` names, or the object
`manifest/latest` of older stores when the metadata field is missing. -/
def getLatestManifest (store : Store) : Latest :=
  match store.latest with
  | some set => objectData (store.objects (ascii "manifest/" ++ set))
  | none => objectData (store.objects (ascii "manifest/latest"))

/-- `saveManifest`: the document under `manifest/<LastSet>`, then the metadata field. -/
def saveManifest (store : Store) (manifest : Manifest) : Store × Except Failure Unit :=
  match manifest.json with
  | .error text => (store, .error (.error text))
  | .ok value =>
    (((store.put (ascii "manifest/" ++ manifest.lastSet) (.document value)).putLatest
      manifest.lastSet), .ok ())

/-! ## Runs -/

/-- The end states of `backupLatest(store, manifest)`. -/
inductive BackupLatest (disk : Disk) (manifest : Manifest) (store : Store) :
    Store → Except Failure Unit → Prop
  /-- `LatestEntries` is empty: it returns nil and saves nothing. -/
  | nothing (empty : manifest.latestEntries = []) : BackupLatest disk manifest store store (.ok ())
  /-- Every upload ended as `PackReader` decides for its files, the goroutines finishing in
  some order; the stored archives are written and the manifest they leave is saved. -/
  | uploaded {state : Uploading} {after : Store} {result : Except Failure Unit}
      (uploading : manifest.latestEntries ≠ [])
      (run : Relation.ReflTransGen UploadStep (Uploading.initial manifest) state)
      (finished : state.Finished)
      (stored : ∀ upload ∈ state.stored, packFiles disk upload.files = .packed)
      (failed : ∀ upload ∈ state.failed, ∃ text, packFiles disk upload.files = .failed text)
      (saved : saveManifest (store.putArchives disk state.stored) state.manifest = (after, result)) :
      BackupLatest disk manifest store after result

/-- The end states of `ScanAndBackup` of the scan `scan`, with the clock reading `now` when
the manifest is updated. -/
inductive ScanAndBackup (sha1 : GoString → Digest) (disk : Disk) (now : Time) (store : Store)
    (scan : List File) : Store → Except Failure Unit → Prop
  /-- Nothing was scanned. -/
  | nothingScanned (empty : scan = []) : ScanAndBackup sha1 disk now store scan store (.ok ())
  /-- No manifest in the store: back up `NewManifest` of the scan. -/
  | fresh {after : Store} {result : Except Failure Unit} (scanned : scan ≠ [])
      (missing : getLatestManifest store = .missing)
      (backup : BackupLatest disk (Manifest.newManifest sha1 disk now scan) store after result) :
      ScanAndBackup sha1 disk now store scan after result
  /-- The manifest does not read back: return the error, or panic. -/
  | unreadable {document : Option Json} {failure : Failure} (scanned : scan ≠ [])
      (found : getLatestManifest store = .found document)
      (unread : readManifestData document = .error failure) :
      ScanAndBackup sha1 disk now store scan store (.error failure)
  /-- `Compare` finds no change. -/
  | unchanged {document : Option Json} {manifest : Manifest} (scanned : scan ≠ [])
      (found : getLatestManifest store = .found document)
      (read : readManifestData document = .ok manifest)
      (same : manifest.compare sha1 disk scan = []) :
      ScanAndBackup sha1 disk now store scan store (.ok ())
  /-- `Compare` finds changes: `Update` the manifest with them and back it up. -/
  | changed {document : Option Json} {manifest : Manifest} {after : Store}
      {result : Except Failure Unit} (scanned : scan ≠ [])
      (found : getLatestManifest store = .found document)
      (read : readManifestData document = .ok manifest)
      (changes : manifest.compare sha1 disk scan ≠ [])
      (backup : BackupLatest disk (manifest.update sha1 disk now (manifest.compare sha1 disk scan))
        store after result) :
      ScanAndBackup sha1 disk now store scan after result

/-- An upload whose archive blocks keeps `backupLatest` from returning: no interleaving
finishes with it stored or failed. -/
theorem not_backupLatest_of_blocked {disk : Disk} {manifest : Manifest} {store after : Store}
    {result : Except Failure Unit} (indexed : manifest.PathIndexed) {upload : Upload}
    (member : upload ∈ manifest.uploads) (blocked : packFiles disk upload.files = .blocked) :
    ¬ BackupLatest disk manifest store after result := by
  rintro (⟨empty⟩ | ⟨-, run, ⟨waiting, running⟩, stored, failed, -⟩)
  · simp [Manifest.uploads, empty] at member
  · have ended := (uploadInvariant_run indexed run).perm.subset member
    simp only [waiting, running, List.nil_append, List.mem_append] at ended
    rcases ended with storing | failing
    · rw [stored upload storing] at blocked
      cases blocked
    · obtain ⟨text, failure⟩ := failed upload failing
      rw [failure] at blocked
      cases blocked

/-- A named pipe `p`. -/
def pipeFile : File :=
  { (default : File) with root := ascii "/", name := ascii "p", mode := ⟨FileMode.modeNamedPipe⟩ }

/-- `backupLatest` of a named pipe, changed in the empty manifest, never returns. -/
theorem not_backupLatest_of_blocked_pipe :
    ∃ upload ∈ (updatedEmpty [pipeFile]).uploads,
      packFiles ⟨fun _ => [], fun _ => []⟩ upload.files = .blocked ∧
      ¬ BackupLatest ⟨fun _ => [], fun _ => []⟩ (updatedEmpty [pipeFile]) Store.empty Store.empty
        (.ok ()) := by
  obtain ⟨upload, member, blocked⟩ : ∃ upload ∈ (updatedEmpty [pipeFile]).uploads,
      packFiles ⟨fun _ => [], fun _ => []⟩ upload.files = .blocked := by decide
  exact ⟨upload, member, blocked,
    not_backupLatest_of_blocked (Manifest.pathIndexed_empty.update _ _ _ _) member blocked⟩

/-! ## One upload at a time -/

/-- The uploads of `backupLatest` run one at a time, each started when the one before it has
ended: the manifest the goroutines share and the uploads stored and failed so far.  None
when an archive blocks or a rollback panics. -/
def uploadInOrder (disk : Disk) (manifest : Manifest) (stored failed : List Upload) :
    List Upload → Option Uploading
  | [] => some ⟨manifest, [], [], concurrentUploads, stored, failed⟩
  | upload :: rest =>
    match packFiles disk upload.files with
    | .packed => uploadInOrder disk manifest (stored ++ [upload]) failed rest
    | .failed _ => (manifest.dropFiles upload.files).bind fun manifest =>
      uploadInOrder disk manifest stored (failed ++ [upload]) rest
    | .blocked => none

/-- `backupLatest` with its uploads one at a time, in the order of `LatestEntries`. -/
def backupLatestInOrder (disk : Disk) (manifest : Manifest) (store : Store) :
    Option (Store × Except Failure Unit) :=
  if manifest.latestEntries = [] then some (store, .ok ())
  else (uploadInOrder disk manifest [] [] manifest.uploads).map fun final =>
    saveManifest (store.putArchives disk final.stored) final.manifest

/-- `ScanAndBackup` with the uploads of `backupLatest` one at a time. -/
def scanAndBackupInOrder (sha1 : GoString → Digest) (disk : Disk) (now : Time) (store : Store)
    (scan : List File) : Option (Store × Except Failure Unit) :=
  if scan = [] then some (store, .ok ())
  else match getLatestManifest store with
    | .missing => backupLatestInOrder disk (Manifest.newManifest sha1 disk now scan) store
    | .found document =>
      match readManifestData document with
      | .error failure => some (store, .error failure)
      | .ok manifest =>
        if manifest.compare sha1 disk scan = [] then some (store, .ok ())
        else backupLatestInOrder disk (manifest.update sha1 disk now (manifest.compare sha1 disk scan))
          store

section InOrder

variable {sha1 : GoString → Digest} {disk : Disk} {now : Time} {manifest : Manifest}
  {store after : Store} {result : Except Failure Unit}

/-- Running the uploads one at a time is an interleaving of the goroutines: from the state
with `rest` waiting and nothing running, it reaches its end state, finished, and every
upload it stored or failed ended as its archive decides. -/
theorem uploadInOrder_run {manifest : Manifest} {stored failed : List Upload}
    (storedPacked : ∀ upload ∈ stored, packFiles disk upload.files = .packed)
    (failedFailed : ∀ upload ∈ failed, ∃ text, packFiles disk upload.files = .failed text)
    {rest : List Upload} {final : Uploading}
    (ends : uploadInOrder disk manifest stored failed rest = some final) :
    Relation.ReflTransGen UploadStep ⟨manifest, rest, [], concurrentUploads, stored, failed⟩
      final ∧ final.Finished ∧
    (∀ upload ∈ final.stored, packFiles disk upload.files = .packed) ∧
    (∀ upload ∈ final.failed, ∃ text, packFiles disk upload.files = .failed text) := by
  induction rest generalizing manifest stored failed with
  | nil =>
    cases ends
    exact ⟨.refl, ⟨rfl, rfl⟩, storedPacked, failedFailed⟩
  | cons upload rest more =>
    have start : UploadStep ⟨manifest, upload :: rest, [], concurrentUploads, stored, failed⟩
        ⟨manifest, rest, [upload], concurrentUploads - 1, stored, failed⟩ :=
      @UploadStep.start _ [] rest upload rfl (show 0 < concurrentUploads by decide)
    rw [uploadInOrder] at ends
    split at ends
    case h_1 packed =>
      have succeed : UploadStep ⟨manifest, rest, [upload], concurrentUploads - 1, stored, failed⟩
          ⟨manifest, rest, [], concurrentUploads, stored ++ [upload], failed⟩ :=
        @UploadStep.succeed _ [] [] upload rfl
      obtain ⟨run, done⟩ := more (by simpa [or_imp, forall_and, packed] using storedPacked)
        failedFailed ends
      exact ⟨.head start (.head succeed run), done⟩
    case h_2 text failure =>
      obtain ⟨dropped, drop, ends⟩ := Option.bind_eq_some.1 ends
      have fail : UploadStep ⟨manifest, rest, [upload], concurrentUploads - 1, stored, failed⟩
          ⟨dropped, rest, [], concurrentUploads, stored, failed ++ [upload]⟩ :=
        @UploadStep.fail _ [] [] upload dropped rfl drop
      obtain ⟨run, done⟩ := more storedPacked
        (by simpa [or_imp, forall_and, failure] using failedFailed) ends
      exact ⟨.head start (.head fail run), done⟩
    case h_3 => cases ends

/-- The one-at-a-time run is one of the end states of `backupLatest`. -/
theorem backupLatest_of_inOrder
    (ends : backupLatestInOrder disk manifest store = some (after, result)) :
    BackupLatest disk manifest store after result := by
  rw [backupLatestInOrder] at ends
  split_ifs at ends with empty
  · cases ends
    exact .nothing empty
  · obtain ⟨final, uploaded, saved⟩ := Option.map_eq_some'.1 ends
    obtain ⟨run, finished, stored, failed⟩ :=
      uploadInOrder_run (by simp) (by simp) uploaded
    exact .uploaded empty run finished stored failed saved

/-- The one-at-a-time run is one of the end states of `ScanAndBackup`. -/
theorem scanAndBackup_of_inOrder {scan : List File}
    (ends : scanAndBackupInOrder sha1 disk now store scan = some (after, result)) :
    ScanAndBackup sha1 disk now store scan after result := by
  rw [scanAndBackupInOrder] at ends
  split_ifs at ends with scanned
  · cases ends
    exact .nothingScanned scanned
  · split at ends
    next missing => exact .fresh scanned missing (backupLatest_of_inOrder ends)
    next document found =>
      split at ends
      next failure unread =>
        cases ends
        exact .unreadable scanned found unread
      next manifest read =>
        split_ifs at ends with same
        · cases ends
          exact .unchanged scanned found read same
        · exact .changed scanned found read same (backupLatest_of_inOrder ends)

/-- A one-at-a-time run that ends and returns nil is an end state of `ScanAndBackup` that
returns nil. -/
theorem scanAndBackup_of_inOrder_ok {scan : List File}
    (ends : (scanAndBackupInOrder sha1 disk now store scan).isSome)
    (returns : ((scanAndBackupInOrder sha1 disk now store scan).getD (store, .ok ())).2 = .ok ())
    (leaves : ((scanAndBackupInOrder sha1 disk now store scan).getD (store, .ok ())).1 = after) :
    ScanAndBackup sha1 disk now store scan after (.ok ()) := by
  obtain ⟨⟨after', result⟩, run⟩ := Option.isSome_iff_exists.1 ends
  rw [run] at returns leaves
  cases returns
  cases leaves
  exact scanAndBackup_of_inOrder run

end InOrder

/-! ## Backing up twice, and backing up a directory -/

/-- Checksums that are all zero, the checksum pass of a disk that holds nothing. -/
def zeroDigests : GoString → Digest := fun _ => Digest.zero

/-- A disk whose files and links are all empty. -/
def emptyDisk : Disk := ⟨fun _ => [], fun _ => []⟩

/-- A socket `s`. -/
def socketFile : File :=
  { (default : File) with root := ascii "/", name := ascii "s", mode := ⟨FileMode.modeSocket⟩ }

/-- The clocks of two runs a minute apart, in 2017. -/
def firstClock : Time := ⟨1500000000000000000, 0⟩

/-- The clock of the second run. -/
def secondClock : Time := ⟨1500000060000000000, 0⟩

/-- The store the one-at-a-time `ScanAndBackup` of the socket leaves, from an empty store. -/
def socketOnce : Store :=
  ((scanAndBackupInOrder zeroDigests emptyDisk firstClock Store.empty [socketFile]).getD
    (Store.empty, .ok ())).1

/-- The store the second one-at-a-time `ScanAndBackup` of the socket leaves. -/
def socketTwice : Store :=
  ((scanAndBackupInOrder zeroDigests emptyDisk secondClock socketOnce [socketFile]).getD
    (socketOnce, .ok ())).1

/-- A scan holding a socket, backed up into an empty store and then again into the store
the first run left: both runs return nil, and the second writes a new manifest and the
metadata pointer, because the socket's upload is rolled back each time and `Compare` finds
it again. -/
theorem scanAndBackup_socket_writes_again :
    ∃ first, ScanAndBackup zeroDigests emptyDisk firstClock Store.empty [socketFile] first (.ok ()) ∧
    ∃ second, ScanAndBackup zeroDigests emptyDisk secondClock first [socketFile] second (.ok ()) ∧
      second.writes = first.writes ++ [ascii "manifest/" ++ manifestKey secondClock, ascii "metadata"] :=
  ⟨socketOnce, scanAndBackup_of_inOrder_ok (by decide) (by decide) rfl,
    socketTwice, scanAndBackup_of_inOrder_ok (by decide) (by decide) rfl, by decide⟩

/-- A scan of one directory into an empty store: every run of `ScanAndBackup` returns nil
and writes nothing, so no manifest, and no entry for the directory, can be read
afterwards. -/
theorem scanAndBackup_directory_unsaved :
    (∃ after result,
      ScanAndBackup zeroDigests emptyDisk firstClock Store.empty [directoryFile] after result) ∧
    ∀ after result,
      ScanAndBackup zeroDigests emptyDisk firstClock Store.empty [directoryFile] after result →
      result = .ok () ∧ after.writes = [] ∧ getLatestManifest after = .missing := by
  have nothing : (Manifest.newManifest zeroDigests emptyDisk firstClock [directoryFile]).latestEntries
      = [] := by decide
  have missing : getLatestManifest Store.empty = .missing := rfl
  refine ⟨⟨_, _, .fresh (List.cons_ne_nil _ _) missing (.nothing nothing)⟩,
    fun after result run => ?_⟩
  cases run with
  | nothingScanned empty => cases empty
  | fresh _ _ backup =>
    cases backup with
    | nothing => exact ⟨rfl, rfl, rfl⟩
    | uploaded uploading => exact absurd nothing uploading
  | unreadable _ found | unchanged _ found | changed _ found =>
    rw [missing] at found
    cases found

end Backup

end IncBackup
