import IncBackup.Backup.Destination
import IncBackup.Backup.ScanAndBackup

/-!
# Restoring to a path

`RestoreToPath(root, incl)` reads the latest manifest, scans what `root` already holds and
checksums it, and picks every entry under one of the prefixes of `incl` that the scan does
not hold identically.  Directories are made from the manifest's data with
`archive.RestoreDir`; the other entries are grouped by the object their first part names,
and each object's archive is unpacked by `archive.UnpackReader`, which writes only the
files picked from it.  The objects are visited in the order their first entry comes in the
manifest; the source ranges over a Go map, in no fixed order.

`UnpackReader` leaves alone a path that holds anything already, and the calls that could
change an existing node, `Lchown` and `Chtimes`, only ever reach a node the restore made.
So a restore never changes what the destination held (`restoreToPath_keeps`): a file that
differs from its entry is picked, and then skipped.
-/

namespace IncBackup

namespace Backup

/-! ## Unpacking -/

/-- Where a file goes below the restore root, `filepath.Join(root, name)`. -/
def below (name : GoString) : GoString := Filepath.join [Filepath.separator] name

/-- The loop over `only` of an old-style tarball: the `Root` of the files picked, which
must be one. -/
def sharedRoot (only : List File) : Except Failure GoString :=
  only.foldlM (fun subdir file =>
    if subdir = [] then .ok file.root
    else if subdir ≠ file.root then
      .error (.error "tarball shouldn't contain files from different roots")
    else .ok subdir) []

/-- The root of an old-style tarball, whose header names hold a base name only: found once,
from the files picked. -/
def oldStyleRoot (only : List File) (subdir : GoString) (name : GoString) :
    Except Failure GoString :=
  if subdir = [] ∧ Filepath.base name = name then sharedRoot only else .ok subdir

/-- The node a header makes at a path: a directory, a symlink, or a file of its data. -/
def createEntry (restorer : Restorer) (path : GoString) (entry : TarEntry) : Fs Unit :=
  if entry.header.mode.isDir then Fs.mkdir restorer path entry.header.mode
  else if entry.header.mode.isSymlink then Fs.symlink restorer entry.header.linkname path
  else Fs.openWrite restorer path entry.header.mode entry.data

/-- What `UnpackReader` does with a header picked for a path: skip it where the path holds
something already, else make it and try to give it the header's owner and time. -/
def unpackFile (restorer : Restorer) (path : GoString) (entry : TarEntry) : Fs Unit := do
  Fs.makeDir restorer (Filepath.dir path)
  match ← Fs.lstat path with
  | some _ => pure ()
  | none => do
    createEntry restorer path entry
    Fs.ignoring (Fs.lchown restorer path entry.header.uid entry.header.gid)
    Fs.ignoring (Fs.chtimes path entry.header.modTime)

/-- One header of `UnpackReader` with the files `only` picked, after the root `subdir` of an
old-style tarball found so far. -/
def unpackEntry (restorer : Restorer) (only : List File) (subdir : GoString)
    (entry : TarEntry) : Fs GoString := do
  let subdir ← (oldStyleRoot only subdir entry.header.name : Fs GoString)
  let name := if subdir = [] then entry.header.name else Filepath.join subdir entry.header.name
  if only.all fun file => file.path ≠ name then pure subdir
  else do
    unpackFile restorer (below name) entry
    pure subdir

/-- `archive.UnpackReader(root, tarball, only)`. -/
def unpackReader (restorer : Restorer) (entries : List TarEntry) (only : List File) :
    Fs Unit := do
  let _ ← entries.foldlM (unpackEntry restorer only) []

/-- `archive.RestoreDir(root, entry)`: make the directory with the entry's mode, owner and
time. -/
def restoreDir (restorer : Restorer) (root : GoString) (entry : File) : Fs Unit := do
  if !entry.isDir then throw (.error "can only restore dirs from file header data")
  else
    let path := Filepath.join root entry.name
    Fs.mkdir restorer path entry.mode
    Fs.lchown restorer path entry.uid entry.gid
    Fs.chtimes path entry.modTime

/-! ## `RestoreToPath` -/

/-- `GetReader` of an object, read as a tar stream. -/
def archiveOf : Option StoreObject → Except Failure (List TarEntry)
  | some (.archive entries) => .ok entries
  | some (.document _) => .error (.error "archive/tar: invalid tar header")
  | none => .error (.error "the object does not exist")

/-- Add a file to the group of an object key, opening the group if it is new. -/
def addTarget (key : GoString) (file : File) :
    List (GoString × List File) → List (GoString × List File)
  | [] => [(key, [file])]
  | (other, files) :: rest =>
    if other = key then (other, files ++ [file]) :: rest
    else (other, files) :: addTarget key file rest

/-- One entry of the loop over the manifest: a directory is restored from the manifest's
data, another entry is picked from the object of its first part, and `e.Parts[0]` of an
entry without parts panics. -/
def pickEntry (restorer : Restorer) (scanned : Manifest) (included : GoString → Bool)
    (targets : List (GoString × List File)) (entry : ManifestEntry) :
    Fs (List (GoString × List File)) := do
  if !scanned.hasIdentical entry.file && included entry.file.path then
    let subdir := below (Filepath.dir entry.file.path)
    if entry.file.isDir then do
      Fs.ignoring (Fs.makeDir restorer subdir)
      Fs.ignoring (restoreDir restorer subdir entry.file)
      pure targets
    else match entry.parts with
      | part :: _ =>
        pure (addTarget (ascii "blob/" ++ entry.set ++ ascii "/" ++ part.key) entry.file targets)
      | [] => throw (.panic "runtime error: index out of range [0] with length 0")
  else pure targets

/-- The manifest `getLatestManifest` finds, or the store's error when there is none. -/
def latestData (store : Store) : Except Failure (Option Json) :=
  match getLatestManifest store with
  | .found document => .ok document
  | .missing => .error (.error "the object does not exist")

/-- `RestoreToPath(root, incl)`, with the checksums `sha1` and the file system `cwd` that
the checksum pass of `NewManifest` reads. -/
def restoreToPath (sha1 : GoString → Digest) (cwd : Disk) (restorer : Restorer)
    (store : Store) (incl : List GoString) : Fs Unit := do
  let document ← (latestData store : Fs (Option Json))
  let manifest ← (readManifestData document : Fs Manifest)
  let destination ← get
  let localFiles := checksumFilesFS sha1 destination.disk [destination.map Node.file]
  let scanned := Manifest.newManifest sha1 cwd restorer.now localFiles.flatten
  let included := fun path => incl.any fun start => start.isPrefixOf path
  let targets ← (manifest.entries.map manifest.heap).foldlM
    (pickEntry restorer scanned included) []
  targets.forM fun (key, files) => do
    let entries ← (archiveOf (store.objects key) : Fs (List TarEntry))
    unpackReader restorer entries files

/-! ## A restore keeps what the destination held -/

section Keeping

open Fs

variable {base : Destination} (restorer : Restorer)

theorem keeping_createEntry {path : GoString} (fresh : base.lstat path = none)
    (entry : TarEntry) : Keeping base (createEntry restorer path entry) :=
  Keeping.ite (keeping_mkdir restorer _ _)
    (Keeping.ite (keeping_symlink restorer _ _) (keeping_openWrite restorer fresh _ _))

/-- `UnpackReader` makes a node only where `Lstat` found nothing, and changes only that. -/
theorem keeping_unpackFile (path : GoString) (entry : TarEntry) :
    Keeping base (unpackFile restorer path entry) :=
  Keeping.bind (keeping_makeDir restorer _) fun _ => Keeping.lstat_bind fun found absent => by
    cases found with
    | some _ => exact Keeping.pure _
    | none =>
      have fresh := absent rfl
      exact Keeping.bind (keeping_createEntry restorer fresh entry) fun _ =>
        Keeping.bind (Keeping.ignoring (keeping_lchown restorer fresh _ _)) fun _ =>
          Keeping.ignoring (keeping_chtimes fresh _)

theorem keeping_unpackReader (entries : List TarEntry) (only : List File) :
    Keeping base (unpackReader restorer entries only) :=
  Keeping.bind (Keeping.foldlM (fun _ _ => Keeping.bind (Keeping.lift _) fun _ =>
    Keeping.ite (Keeping.pure _)
      (Keeping.bind (keeping_unpackFile restorer _ _) fun _ => Keeping.pure _)) entries [])
    fun _ => Keeping.pure _

/-- `RestoreDir` changes owner and time only of the directory its `Mkdir` made. -/
theorem keeping_restoreDir (root : GoString) (entry : File) :
    Keeping base (restoreDir restorer root entry) :=
  Keeping.ite (Keeping.throw _) <| keeping_mkdir_bind restorer fun fresh =>
    Keeping.bind (keeping_lchown restorer fresh _ _) fun _ => keeping_chtimes fresh _

theorem keeping_pickEntry (scanned : Manifest) (included : GoString → Bool)
    (targets : List (GoString × List File)) (entry : ManifestEntry) :
    Keeping base (pickEntry restorer scanned included targets entry) := by
  refine Keeping.ite (Keeping.ite ?_ ?_) (Keeping.pure _)
  · exact Keeping.bind (Keeping.ignoring (keeping_makeDir restorer _)) fun _ =>
      Keeping.bind (Keeping.ignoring (keeping_restoreDir restorer _ _)) fun _ => Keeping.pure _
  · split
    · exact Keeping.pure _
    · exact Keeping.throw _

/-- A restore changes no node the destination held, whether it returns nil or fails. -/
theorem restoreToPath_keeps (sha1 : GoString → Digest) (cwd : Disk) (store : Store)
    (incl : List GoString) (destination : Destination) :
    destination.Keeps ((restoreToPath sha1 cwd restorer store incl).exec destination).2 := by
  refine Keeping.bind (Keeping.lift _) (fun _ => Keeping.bind (Keeping.lift _) fun _ =>
    Keeping.bind Keeping.get fun _ => ?_) destination (.refl _)
  exact Keeping.bind (Keeping.foldlM (keeping_pickEntry restorer _ _) _ _) fun _ =>
    Keeping.forM (fun _ => Keeping.bind (Keeping.lift _) fun _ =>
      keeping_unpackReader restorer _ _) _

end Keeping

/-! ## Restoring over an older file -/

/-- A regular file `/f` of five bytes. -/
def restoredFile : File :=
  ⟨ascii "/", ascii "f", 5, ⟨0o644⟩, firstClock, 1000, 1000, Digest.zero⟩

/-- A disk where `/f` holds `newer`. -/
def newerDisk : Disk := ⟨fun _ => ascii "newer", fun _ => []⟩

/-- The store the one-at-a-time backup of `/f` leaves, from an empty store. -/
def newerStore : Store :=
  ((scanAndBackupInOrder zeroDigests newerDisk firstClock Store.empty [restoredFile]).getD
    (Store.empty, .ok ())).1

/-- A destination that holds an older `/f` of three bytes. -/
def staleDestination : Destination :=
  [⟨ascii "/f", ⟨ascii "/", ascii "f", 3, ⟨0o644⟩, ⟨1400000000000000000, 0⟩, 1000, 1000, Digest.zero⟩,
    ascii "old"⟩]

/-- An unprivileged restorer with umask 022, at the second clock. -/
def fileOwner : Restorer := ⟨0o022, 1000, 1000, false, secondClock⟩

/-- The backup of `/f` holding `newer`, restored with the prefix `/` over a destination that
holds an older `/f`: the restore returns nil and `/f` still holds `old`. -/
theorem restoreToPath_keeps_stale_file :
    ScanAndBackup zeroDigests newerDisk firstClock Store.empty [restoredFile] newerStore (.ok ()) ∧
    ((restoreToPath zeroDigests newerDisk fileOwner newerStore [ascii "/"]).exec
      staleDestination).1 = .ok () ∧
    (((restoreToPath zeroDigests newerDisk fileOwner newerStore [ascii "/"]).exec
      staleDestination).2.lstat (ascii "/f")).map Node.contents = some (ascii "old") :=
  ⟨scanAndBackup_of_inOrder_ok (by decide) (by decide) rfl, by decide, by
    rw [restoreToPath_keeps fileOwner _ _ _ _ staleDestination (ascii "/f") _ rfl]
    rfl⟩

end Backup

end IncBackup
