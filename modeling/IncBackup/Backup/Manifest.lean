import IncBackup.File.Checksum
import IncBackup.Backup.Bundle
import IncBackup.Backup.Keys

/-!
# The manifest

A `Manifest` is the index of every file a store holds: a slice `Entries` of
pointers to `ManifestEntry` records and a map `pathMap` from full path to the
same pointers.  Entries are updated in place through their pointer, so the
heap the pointers refer to is part of the model: `heap` gives the record each
pointer refers to, and `nextPtr` is the first pointer not yet allocated.

`Update` writes one entry per changed file, reusing the cell of an entry at the
same path; `Remove` moves the last entry into the removed entry's cell and
truncates the slice.  `Compare` and `HasIdentical` are the two ways the program
decides whether a scanned record differs from its entry.
-/

namespace IncBackup

namespace Backup

/-- `store.ByteRange`: an inclusive byte range; `[0, 0]` stands for the whole object. -/
structure ByteRange where
  low : Int
  high : Int
deriving DecidableEq, Inhabited

/-- The zero `ByteRange`, `emptyRange`. -/
def ByteRange.empty : ByteRange := ⟨0, 0⟩

/-- `ManifestEntryPart`: the object key and byte range holding a file. -/
structure ManifestEntryPart where
  key : GoString
  range : ByteRange
deriving DecidableEq, Inhabited

/-- `ManifestEntry`: a file with the set that uploaded it and the parts holding it. -/
structure ManifestEntry where
  file : File
  set : GoString
  parts : List ManifestEntryPart
deriving DecidableEq, Inhabited

/-- A `*ManifestEntry`. -/
abbrev EntryPtr := Nat

/-- `Manifest`, with the heap cells its pointers refer to. -/
structure Manifest where
  version : Int
  lastSet : GoString
  created : Time
  updated : Time
  entries : List EntryPtr
  pathMap : GoString → Option EntryPtr
  heap : EntryPtr → ManifestEntry
  nextPtr : EntryPtr

namespace Manifest

/-- The zero `Manifest{pathMap: make(...)}` with no cell allocated. -/
def empty : Manifest :=
  ⟨0, [], Time.zero, Time.zero, [], fun _ => none, fun _ => default, 0⟩

/-- The manifest read as a map from path to entry value. -/
def lookup (manifest : Manifest) (path : GoString) : Option ManifestEntry :=
  (manifest.pathMap path).map manifest.heap

/-- `Manifest.Has`. -/
def has (manifest : Manifest) (file : File) : Bool := (manifest.pathMap file.path).isSome

/-! ## Removal -/

/-- `removeEntry`: copy the last entry into the removed entry's cell, point the last
entry's path at that cell, truncate `Entries` and drop the removed path.  `none` is the
panic of indexing an empty `Entries`. -/
def removeEntry (manifest : Manifest) (ptr : EntryPtr) : Option Manifest :=
  match manifest.entries.getLast? with
  | none => none
  | some last =>
    let oldPath := (manifest.heap ptr).file.path
    let lastPath := (manifest.heap last).file.path
    some { manifest with
      heap := Function.update manifest.heap ptr (manifest.heap last)
      pathMap := Function.update (Function.update manifest.pathMap lastPath (some ptr)) oldPath none
      entries := manifest.entries.dropLast }

/-- `Manifest.Remove`: whether the path was present, and the manifest after. -/
def remove (manifest : Manifest) (file : File) : Option (Bool × Manifest) :=
  match manifest.pathMap file.path with
  | none => some (false, manifest)
  | some ptr => (manifest.removeEntry ptr).map fun after => (true, after)

/-! ## Update -/

/-- The entry `Update` builds for a file of the bundle with key `key`. -/
def newEntry (manifest : Manifest) (key : GoString) (file : File) : ManifestEntry :=
  ⟨file, manifest.lastSet, if file.isDir then [] else [⟨key, ByteRange.empty⟩]⟩

/-- One file of `Update`'s inner loop: overwrite the entry at the file's path in place,
or allocate a new cell and append it. -/
def putEntry (manifest : Manifest) (key : GoString) (file : File) : Manifest :=
  match manifest.pathMap file.path with
  | some ptr =>
    { manifest with heap := Function.update manifest.heap ptr (manifest.newEntry key file) }
  | none =>
    { manifest with
      heap := Function.update manifest.heap manifest.nextPtr (manifest.newEntry key file)
      pathMap := Function.update manifest.pathMap file.path (some manifest.nextPtr)
      entries := manifest.entries ++ [manifest.nextPtr]
      nextPtr := manifest.nextPtr + 1 }

/-- The loop of `Update` over the keyed bundles. -/
def putBundles (manifest : Manifest) (bundles : List (List File)) : Manifest :=
  bundles.enum.foldl
    (fun manifest keyed =>
      keyed.2.foldl (fun manifest => manifest.putEntry (keyFactory bundles.length keyed.1))
        manifest)
    manifest

/-- `Manifest.Update` at the wall-clock time `now`: checksum the files, start a new set,
bundle the files and write one entry per file. -/
def update (sha1 : GoString → Digest) (disk : Disk) (now : Time) (files : List File)
    (manifest : Manifest) : Manifest :=
  let files := checksumFiles sha1 disk files
  let manifest := { manifest with lastSet := manifestKey now, updated := now.truncateSecond }
  manifest.putBundles (bundleSmallFilesAcrossPaths files)

/-- `NewManifest`. -/
def newManifest (sha1 : GoString → Digest) (disk : Disk) (now : Time) (files : List File) :
    Manifest :=
  { empty.update sha1 disk now files with created := now.truncateSecond }

/-! ## Latest entries -/

/-- Append a pointer to the group of an object key, opening the group if it is new. -/
def addLatest (object : GoString) (ptr : EntryPtr) :
    List (GoString × List EntryPtr) → List (GoString × List EntryPtr)
  | [] => [(object, [ptr])]
  | (key, ptrs) :: rest =>
    if key = object then (key, ptrs ++ [ptr]) :: rest else (key, ptrs) :: addLatest object ptr rest

/-- `Manifest.LatestEntries`: the entries of the last set grouped by the object
`LastSet/key` of each of their parts.  Go's map has no order; the list keeps the order of
first insertion. -/
def latestEntries (manifest : Manifest) : List (GoString × List EntryPtr) :=
  manifest.entries.foldl
    (fun groups ptr =>
      if (manifest.heap ptr).set = manifest.lastSet then
        (manifest.heap ptr).parts.foldl
          (fun groups part => addLatest (manifest.lastSet ++ ascii "/" ++ part.key) ptr groups)
          groups
      else groups)
    []

/-! ## Comparing with scanned records -/

/-- `Manifest.HasIdentical`: the entry at the record's path has its mode, its size unless
it is a directory, and its modification time or else its checksum. -/
def hasIdentical (manifest : Manifest) (their : File) : Bool :=
  match manifest.pathMap their.path with
  | none => false
  | some ptr =>
    let our := (manifest.heap ptr).file
    if !our.isDir && our.size != their.size then false
    else if our.mode != their.mode then false
    else if !our.modTime.Equal their.modTime then our.sha1 == their.sha1
    else true

/-- The first loop of `Compare`: sort a scanned record into `touched` or `changed`. -/
def compareStep (manifest : Manifest) (sorted : List File × List File) (after : File) :
    List File × List File :=
  match manifest.pathMap after.path with
  | some ptr =>
    let before := (manifest.heap ptr).file
    if !after.isDir && after.size != before.size then (sorted.1, sorted.2 ++ [after])
    else if !after.modTime.Equal before.modTime then (sorted.1 ++ [after], sorted.2)
    else sorted
  | none => (sorted.1, sorted.2 ++ [after])

/-- The second loop of `Compare`: a touched record whose checksum differs is changed. -/
def promoteTouched (manifest : Manifest) (changed : List File) (touched : File) : List File :=
  match manifest.pathMap touched.path with
  | some ptr => if touched.sha1 != (manifest.heap ptr).file.sha1 then changed ++ [touched]
    else changed
  | none => changed

/-- `Manifest.Compare`: the scanned records that are new or differ from their entry. -/
def compare (sha1 : GoString → Digest) (disk : Disk) (manifest : Manifest)
    (after : List File) : List File :=
  let sorted := after.foldl manifest.compareStep ([], [])
  match checksumFilesFS sha1 disk [sorted.1, sorted.2] with
  | [touched, changed] => touched.foldl manifest.promoteTouched changed
  | _ => sorted.2

end Manifest

end Backup

end IncBackup
