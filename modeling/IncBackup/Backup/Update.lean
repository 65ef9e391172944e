import IncBackup.Backup.PathIndex

/-!
# What `Update` writes

`Manifest.Update` checksums the files, bundles them with `bundleSmallFilesAcrossPaths` and
writes one entry per file of each bundle, with the bundle's key: over the entry the file's path
already has, or into a new cell appended to `Entries`.  On a manifest with the path index,
the manifest read as a map from path to entry is a fold of these writes, a later write to a
path replacing an earlier one (`lookup_putBundles`).

For files whose records of one path are equal, this gives `Update`'s postcondition
(`update_postcondition`): each checksummed file has an entry of its own record and the new
set, with the key of the last bundle that holds the record unless it is a directory; distinct
bundles have distinct keys; and every path the files do not name keeps its pointer and its
entry.  A record listed twice can be cut into two bundles by the running byte count, and its
entry then names the second (`update_duplicate_in_two_bundles`).
-/

namespace IncBackup

namespace Backup

namespace Manifest

variable {manifest : Manifest}

/-! ## One entry -/

@[simp]
theorem putEntry_lastSet (manifest : Manifest) (key : GoString) (file : File) :
    (manifest.putEntry key file).lastSet = manifest.lastSet := by
  unfold putEntry; split <;> rfl

@[simp]
theorem newEntry_putEntry (manifest : Manifest) (key : GoString) (file : File) :
    (manifest.putEntry key file).newEntry = manifest.newEntry := by
  funext key' file'; simp [newEntry]

theorem pathMap_putEntry_of_ne (manifest : Manifest) (key : GoString) {file : File}
    {path : GoString} (other : path ≠ file.path) :
    (manifest.putEntry key file).pathMap path = manifest.pathMap path := by
  unfold Manifest.putEntry; split
  · rfl
  · exact Function.update_noteq other _ _

/-- `putEntry` changes no cell but the one of the file's path. -/
theorem PathIndexed.heap_putEntry_of_ne (indexed : manifest.PathIndexed) (key : GoString)
    {file : File} {path : GoString} {ptr : EntryPtr} (found : manifest.pathMap path = some ptr)
    (other : path ≠ file.path) : (manifest.putEntry key file).heap ptr = manifest.heap ptr := by
  obtain ⟨member, samePath⟩ := indexed.sound path ptr found
  unfold Manifest.putEntry; split
  · next cell found' =>
    refine Function.update_noteq (fun same => other ?_) _ _
    rw [← samePath, same, (indexed.sound _ _ found').2]
  · exact Function.update_noteq (ne_of_lt (indexed.allocated ptr member)) _ _

/-- On a manifest with the path index, `putEntry` writes the new entry at the file's path and
leaves the entry of every other path alone. -/
theorem PathIndexed.lookup_putEntry (indexed : manifest.PathIndexed) (key : GoString)
    (file : File) : (manifest.putEntry key file).lookup =
      Function.update manifest.lookup file.path (some (manifest.newEntry key file)) := by
  funext path
  by_cases same : path = file.path
  · subst same
    unfold Manifest.putEntry lookup; split
    · next ptr found => simp [found]
    · simp
  · rw [Function.update_noteq same]
    unfold lookup
    rw [pathMap_putEntry_of_ne _ _ same]
    cases found : manifest.pathMap path with
    | none => rfl
    | some ptr => simp [indexed.heap_putEntry_of_ne key found same]

/-! ## All the entries -/

/-- Writing entries into a map from path to entry, a later write to a path replacing an
earlier one. -/
def writeAll (map : GoString → Option ManifestEntry) (writes : List (GoString × ManifestEntry)) :
    GoString → Option ManifestEntry :=
  writes.foldl (fun map write => Function.update map write.1 (some write.2)) map

theorem writeAll_append (map : GoString → Option ManifestEntry)
    (writes more : List (GoString × ManifestEntry)) :
    writeAll map (writes ++ more) = writeAll (writeAll map writes) more :=
  List.foldl_append _ _ _ _

/-- The entries `Update` writes, in order: each file of each bundle at its path, with the key
of its bundle. -/
def writes (manifest : Manifest) (count : Nat) (keyed : List (Nat × List File)) :
    List (GoString × ManifestEntry) :=
  keyed.flatMap fun bundle =>
    bundle.2.map fun file => (file.path, manifest.newEntry (keyFactory count bundle.1) file)

theorem PathIndexed.lookup_foldl_putEntry (key : GoString) :
    ∀ (files : List File) {manifest : Manifest}, manifest.PathIndexed →
      (files.foldl (fun manifest => manifest.putEntry key) manifest).lookup =
        writeAll manifest.lookup (files.map fun file => (file.path, manifest.newEntry key file))
  | [], _, _ => rfl
  | file :: files, _, indexed => by
    rw [List.foldl_cons, PathIndexed.lookup_foldl_putEntry key files (indexed.putEntry key file),
      indexed.lookup_putEntry, newEntry_putEntry]
    rfl

theorem newEntry_foldl_putEntry (key : GoString) :
    ∀ (files : List File) (manifest : Manifest),
      (files.foldl (fun manifest => manifest.putEntry key) manifest).newEntry = manifest.newEntry
  | [], _ => rfl
  | file :: files, manifest => by
    rw [List.foldl_cons, newEntry_foldl_putEntry key files, newEntry_putEntry]

/-- The loop of `Update` over keyed bundles, as a map from path to entry. -/
theorem PathIndexed.lookup_foldl_keyed (count : Nat) :
    ∀ (keyed : List (Nat × List File)) {manifest : Manifest}, manifest.PathIndexed →
      (keyed.foldl (fun manifest bundle =>
        bundle.2.foldl (fun manifest => manifest.putEntry (keyFactory count bundle.1)) manifest)
        manifest).lookup = writeAll manifest.lookup (manifest.writes count keyed)
  | [], _, _ => rfl
  | bundle :: keyed, manifest, indexed => by
    rw [List.foldl_cons, PathIndexed.lookup_foldl_keyed count keyed (indexed.foldl_putEntry _ _),
      indexed.lookup_foldl_putEntry, writes, writes, List.flatMap_cons, writeAll_append,
      newEntry_foldl_putEntry]

theorem PathIndexed.lookup_putBundles (indexed : manifest.PathIndexed)
    (bundles : List (List File)) : (manifest.putBundles bundles).lookup =
      writeAll manifest.lookup (manifest.writes bundles.length bundles.enum) :=
  indexed.lookup_foldl_keyed _ _

/-! ## Reading the writes back -/

theorem writeAll_of_not_mem {path : GoString} :
    ∀ (writes : List (GoString × ManifestEntry)) (map : GoString → Option ManifestEntry),
      (∀ write ∈ writes, write.1 ≠ path) → writeAll map writes path = map path
  | [], _, _ => rfl
  | write :: writes, map, absent => by
    rw [writeAll, List.foldl_cons, ← writeAll,
      writeAll_of_not_mem writes _ fun other mem => absent other (.tail _ mem),
      Function.update_noteq (absent write (.head _)).symm]

/-- Once a path holds an entry, writes of that same entry keep it. -/
theorem writeAll_stable {path : GoString} {entry : ManifestEntry} :
    ∀ (writes : List (GoString × ManifestEntry)) {map : GoString → Option ManifestEntry},
      map path = some entry → (∀ write ∈ writes, write.1 = path → write.2 = entry) →
      writeAll map writes path = some entry
  | [], _, holds, _ => holds
  | write :: writes, map, holds, same => by
    rw [writeAll, List.foldl_cons, ← writeAll]
    refine writeAll_stable writes ?_ fun other mem => same other (.tail _ mem)
    by_cases at_path : write.1 = path
    · rw [← at_path, Function.update_same, same write (.head _) at_path]
    · rwa [Function.update_noteq (Ne.symm at_path)]

/-- A path holds the entry of its last write. -/
theorem writeAll_last {path : GoString} {entry : ManifestEntry}
    (map : GoString → Option ManifestEntry) (before after : List (GoString × ManifestEntry))
    (same : ∀ write ∈ after, write.1 = path → write.2 = entry) :
    writeAll map (before ++ (path, entry) :: after) path = some entry := by
  rw [writeAll_append, writeAll, List.foldl_cons, ← writeAll]
  exact writeAll_stable after (Function.update_same _ _ _) same

theorem foldl_putEntry_frame (key : GoString) :
    ∀ (files : List File) (manifest : Manifest),
      (files.foldl (fun manifest => manifest.putEntry key) manifest).lastSet = manifest.lastSet ∧
      ∀ path, (∀ file ∈ files, file.path ≠ path) →
        (files.foldl (fun manifest => manifest.putEntry key) manifest).pathMap path =
          manifest.pathMap path
  | [], _ => ⟨rfl, fun _ _ => rfl⟩
  | file :: files, manifest => by
    obtain ⟨lastSet, pathMap⟩ := foldl_putEntry_frame key files (manifest.putEntry key file)
    refine ⟨by rw [List.foldl_cons, lastSet, putEntry_lastSet], fun path absent => ?_⟩
    rw [List.foldl_cons, pathMap path fun other mem => absent other (.tail _ mem),
      pathMap_putEntry_of_ne _ _ (absent file (.head _)).symm]

theorem foldl_keyed_frame (count : Nat) :
    ∀ (keyed : List (Nat × List File)) (manifest : Manifest),
      (keyed.foldl (fun manifest bundle =>
        bundle.2.foldl (fun manifest => manifest.putEntry (keyFactory count bundle.1)) manifest)
        manifest).lastSet = manifest.lastSet ∧
      ∀ path, (∀ bundle ∈ keyed, ∀ file ∈ bundle.2, file.path ≠ path) →
        (keyed.foldl (fun manifest bundle =>
          bundle.2.foldl (fun manifest => manifest.putEntry (keyFactory count bundle.1)) manifest)
          manifest).pathMap path = manifest.pathMap path
  | [], _ => ⟨rfl, fun _ _ => rfl⟩
  | bundle :: keyed, manifest => by
    have inner := foldl_putEntry_frame (keyFactory count bundle.1) bundle.2 manifest
    obtain ⟨lastSet, pathMap⟩ := foldl_keyed_frame count keyed
      (bundle.2.foldl (fun manifest => manifest.putEntry (keyFactory count bundle.1)) manifest)
    refine ⟨by rw [List.foldl_cons, lastSet, inner.1], fun path absent => ?_⟩
    rw [List.foldl_cons, pathMap path fun other mem => absent other (.tail _ mem),
      inner.2 path (absent bundle (.head _))]

/-- `putBundles` keeps `LastSet`, and the pointer of every path no file names. -/
theorem putBundles_frame (manifest : Manifest) (bundles : List (List File)) :
    (manifest.putBundles bundles).lastSet = manifest.lastSet ∧
      ∀ path, (∀ bundle ∈ bundles, ∀ file ∈ bundle, file.path ≠ path) →
        (manifest.putBundles bundles).pathMap path = manifest.pathMap path :=
  ⟨(foldl_keyed_frame _ _ _).1, fun path absent => (foldl_keyed_frame _ _ _).2 path
    fun _ mem => absent _ (List.snd_mem_of_mem_enum mem)⟩

end Manifest

/-! ## The postcondition -/

/-- The bundles `Update` writes: `bundleSmallFilesAcrossPaths` of the checksummed files. -/
def updateBundles (sha1 : GoString → Digest) (disk : Disk) (files : List File) :
    List (List File) :=
  bundleSmallFilesAcrossPaths (checksumFiles sha1 disk files)

/-- `Update(files)` at `now` turned `before` into `after`: `LastSet` is the new set key; each
checksummed file has an entry of its own record, the new set and, unless it is a directory,
the key of the last bundle that holds it; the bundle keys differ; and every path the files do
not name keeps its pointer and its entry. -/
structure Updated (sha1 : GoString → Digest) (disk : Disk) (now : Time) (files : List File)
    (before after : Manifest) : Prop where
  lastSet : after.lastSet = manifestKey now
  written : ∀ file ∈ checksumFiles sha1 disk files, ∃ pre bundle post,
    updateBundles sha1 disk files = pre ++ bundle :: post ∧ file ∈ bundle ∧
    (∀ later ∈ post, file ∉ later) ∧
    after.lookup file.path = some ⟨file, manifestKey now, if file.isDir then [] else
      [⟨keyFactory (updateBundles sha1 disk files).length pre.length, ByteRange.empty⟩]⟩
  distinctKeys : ((List.range (updateBundles sha1 disk files).length).map
    (keyFactory (updateBundles sha1 disk files).length)).Nodup
  untouched : ∀ path, (∀ file ∈ files, file.path ≠ path) →
    after.pathMap path = before.pathMap path ∧
    ∀ ptr, before.pathMap path = some ptr → after.heap ptr = before.heap ptr

/-- The checksum pass changes each record on its own, and no path or mode. -/
theorem checksumFiles_eq_map (sha1 : GoString → Digest) (disk : Disk) (files : List File) :
    ∃ checksum : File → File, checksumFiles sha1 disk files = files.map checksum ∧
      (∀ file, (checksum file).path = file.path) ∧ ∀ file, (checksum file).mode = file.mode := by
  unfold checksumFiles checksumFilesFS
  split_ifs
  · exact ⟨File.checksummed sha1 disk, by simp, File.checksummed_path sha1 disk,
      File.checksummed_mode sha1 disk⟩
  · exact ⟨id, by simp, fun _ => rfl, fun _ => rfl⟩

/-- A member of a list of bundles is in a last bundle that holds it. -/
theorem exists_last_bundle {file : File} :
    ∀ {bundles : List (List File)}, file ∈ bundles.flatten →
      ∃ pre bundle post, bundles = pre ++ bundle :: post ∧ file ∈ bundle ∧
        ∀ later ∈ post, file ∉ later
  | [], mem => absurd mem (List.not_mem_nil _)
  | bundle :: bundles, mem => by
    by_cases later : file ∈ bundles.flatten
    · obtain ⟨pre, last, post, split, inside, after⟩ := exists_last_bundle later
      exact ⟨bundle :: pre, last, post, by rw [split]; rfl, inside, after⟩
    · refine ⟨[], bundle, bundles, rfl, ?_, fun other mem' inside => later ?_⟩
      · simpa [later] using mem
      · exact List.mem_flatten.2 ⟨other, mem', inside⟩
namespace Manifest

theorem writes_append (manifest : Manifest) (count : Nat) (keyed keyed' : List (Nat × List File)) :
    manifest.writes count (keyed ++ keyed') =
      manifest.writes count keyed ++ manifest.writes count keyed' :=
  List.flatMap_append _ _ _

/-- The path of every write is the path of a file of one of the bundles written. -/
theorem path_of_mem_writes {manifest : Manifest} {count : Nat} {keyed : List (Nat × List File)}
    {write : GoString × ManifestEntry} (mem : write ∈ manifest.writes count keyed) :
    ∃ bundle ∈ keyed, ∃ file ∈ bundle.2, write = (file.path,
      manifest.newEntry (keyFactory count bundle.1) file) := by
  obtain ⟨bundle, keyed, written⟩ := List.mem_flatMap.1 mem
  obtain ⟨file, inside, rfl⟩ := List.mem_map.1 written
  exact ⟨bundle, keyed, file, inside, rfl⟩

/-- Records that share a path stay equal through the checksum pass. -/
theorem checksumFiles_consistent (sha1 : GoString → Digest) (disk : Disk) {files : List File}
    (consistent : ∀ file ∈ files, ∀ other ∈ files, file.path = other.path → file = other) :
    ∀ file ∈ checksumFiles sha1 disk files, ∀ other ∈ checksumFiles sha1 disk files,
      file.path = other.path → file = other := by
  obtain ⟨checksum, checksummedEq, samePath, -⟩ := checksumFiles_eq_map sha1 disk files
  rw [checksummedEq]
  intro file mem other mem' same
  obtain ⟨original, listed, rfl⟩ := List.mem_map.1 mem
  obtain ⟨original', listed', rfl⟩ := List.mem_map.1 mem'
  rw [samePath, samePath] at same
  rw [consistent _ listed _ listed' same]

/-- Every record of a bundle `Update` writes is a checksummed record of its input. -/
theorem mem_checksumFiles_of_bundle {sha1 : GoString → Digest} {disk : Disk}
    {files : List File} {bundle : List File} (mem : bundle ∈ updateBundles sha1 disk files)
    {file : File} (inside : file ∈ bundle) : file ∈ checksumFiles sha1 disk files :=
  (bundleSmallFilesAcrossPaths_partitions _).perm.mem_iff.1
    (List.mem_flatten.2 ⟨bundle, mem, inside⟩)

variable (sha1 : GoString → Digest) (disk : Disk) (now : Time) {files : List File}
  {manifest : Manifest}

/-- `Update` sets the new set and time, then writes the bundles. -/
theorem update_eq_putBundles (manifest : Manifest) :
    manifest.update sha1 disk now files =
      { manifest with lastSet := manifestKey now, updated := now.truncateSecond }.putBundles
        (updateBundles sha1 disk files) := rfl

/-- `Update` starts the set of `now`. -/
@[simp]
theorem update_lastSet (manifest : Manifest) :
    (manifest.update sha1 disk now files).lastSet = manifestKey now := by
  rw [update_eq_putBundles]
  exact (putBundles_frame _ _).1

/-- `Update` writes its bundles over the manifest it was given: a lookup after it reads the
writes of the bundles over the lookup before it. -/
theorem PathIndexed.lookup_update (indexed : manifest.PathIndexed) :
    (manifest.update sha1 disk now files).lookup = writeAll manifest.lookup
      ({ manifest with lastSet := manifestKey now, updated := now.truncateSecond }.writes
        (updateBundles sha1 disk files).length (updateBundles sha1 disk files).enum) := by
  have started : ({ manifest with lastSet := manifestKey now, updated := now.truncateSecond } :
      Manifest).PathIndexed := indexed.congr rfl rfl rfl rfl
  rw [update_eq_putBundles]
  exact started.lookup_putBundles _

/-- A checksummed file's entry after `Update` is its record in the new set, with the key of
the last bundle that holds it. -/
theorem PathIndexed.update_written (indexed : manifest.PathIndexed)
    (consistent : ∀ file ∈ files, ∀ other ∈ files, file.path = other.path → file = other)
    {file : File} (mem : file ∈ checksumFiles sha1 disk files) :
    ∃ pre bundle post, updateBundles sha1 disk files = pre ++ bundle :: post ∧ file ∈ bundle ∧
      (∀ later ∈ post, file ∉ later) ∧
      (manifest.update sha1 disk now files).lookup file.path = some ⟨file, manifestKey now,
        if file.isDir then [] else
          [⟨keyFactory (updateBundles sha1 disk files).length pre.length, ByteRange.empty⟩]⟩ := by
  have same := checksumFiles_consistent sha1 disk consistent
  set bundles := updateBundles sha1 disk files with bundlesDef
  obtain ⟨pre, bundle, post, split, inside, after⟩ :
      ∃ pre bundle post, bundles = pre ++ bundle :: post ∧ file ∈ bundle ∧
        ∀ later ∈ post, file ∉ later :=
    exists_last_bundle ((bundleSmallFilesAcrossPaths_partitions _).perm.mem_iff.2 mem)
  obtain ⟨front, back, rfl⟩ := List.append_of_mem inside
  refine ⟨pre, _, post, split, inside, after, ?_⟩
  set count := bundles.length
  set started : Manifest :=
    { manifest with lastSet := manifestKey now, updated := now.truncateSecond }
  set write := fun other : File => (other.path, started.newEntry (keyFactory count pre.length) other)
  have shape : started.writes count bundles.enum =
      (started.writes count pre.enum ++ front.map write) ++ write file ::
        (back.map write ++ started.writes count (post.enumFrom (pre.length + 1))) := by
    rw [split, List.enum_append, List.enumFrom_cons, writes_append]
    simp [writes, write]
  rw [indexed.lookup_update, shape, writeAll_last]
  · rfl
  intro write mem' at_path
  rcases List.mem_append.1 mem' with mem' | mem'
  · obtain ⟨other, inside', rfl⟩ := List.mem_map.1 mem'
    rw [same _ (mem_checksumFiles_of_bundle (split ▸ List.mem_append_right _ (.head _))
      (List.mem_append_right _ (.tail _ inside'))) _ mem at_path]
  · obtain ⟨keyed, mem'', other, inside', rfl⟩ := path_of_mem_writes mem'
    have later := List.snd_mem_of_mem_enumFrom mem''
    have equal := same _ (mem_checksumFiles_of_bundle
      (show keyed.2 ∈ bundles from split ▸ List.mem_append_right _ (.tail _ later)) inside') _
      mem at_path
    exact absurd (equal ▸ inside') (after _ later)

/-- A path no input file names keeps its pointer and its entry through `Update`. -/
theorem PathIndexed.update_untouched (indexed : manifest.PathIndexed) {path : GoString}
    (absent : ∀ file ∈ files, file.path ≠ path) :
    (manifest.update sha1 disk now files).pathMap path = manifest.pathMap path ∧
      ∀ ptr, manifest.pathMap path = some ptr →
        (manifest.update sha1 disk now files).heap ptr = manifest.heap ptr := by
  obtain ⟨checksum, checksummedEq, samePath, -⟩ := checksumFiles_eq_map sha1 disk files
  have absent' : ∀ bundle ∈ updateBundles sha1 disk files, ∀ file ∈ bundle, file.path ≠ path := by
    intro bundle mem file inside
    obtain ⟨original, mem, rfl⟩ :=
      List.mem_map.1 (checksummedEq ▸ mem_checksumFiles_of_bundle mem inside)
    rw [samePath]
    exact absent original mem
  have pathMap : (manifest.update sha1 disk now files).pathMap path = manifest.pathMap path := by
    rw [update_eq_putBundles]
    exact (putBundles_frame _ _).2 path absent'
  have kept : (manifest.update sha1 disk now files).lookup path = manifest.lookup path := by
    rw [indexed.lookup_update]
    refine writeAll_of_not_mem _ _ fun write mem => ?_
    obtain ⟨keyed, keyedMem, file, inside, rfl⟩ := path_of_mem_writes mem
    exact absent' _ (List.snd_mem_of_mem_enum keyedMem) file inside
  refine ⟨pathMap, fun ptr found => ?_⟩
  unfold Manifest.lookup at kept
  rw [pathMap, found] at kept
  exact Option.some.inj kept

/-- `Update`'s postcondition, for a manifest with the path index and files whose records of
one path are equal. -/
theorem update_postcondition (sha1 : GoString → Digest) (disk : Disk) (now : Time)
    (files : List File) (manifest : Manifest) (indexed : manifest.PathIndexed)
    (consistent :
      ∀ file ∈ files, ∀ other ∈ files, file.path = other.path → file = other) :
    Updated sha1 disk now files manifest (manifest.update sha1 disk now files) :=
  ⟨update_lastSet sha1 disk now manifest, fun _ => indexed.update_written sha1 disk now consistent,
    (pairwise_keyFactory _).imp ne_of_goLess, fun _ => indexed.update_untouched sha1 disk now⟩

/-- The file `/a`. -/
def fileA : File := { (default : File) with root := ascii "/", name := ascii "a" }

/-- The manifest of a first `Update`, of `/a` into the empty manifest, with zero checksums. -/
def manifestA : Manifest :=
  empty.update (fun _ => Digest.zero) ⟨fun _ => [], fun _ => []⟩ Time.zero [fileA]

/-- A second `Update` of that manifest, a minute later, with the seventeen files of
`c_BUNDLE_LIMIT_SIZE` bytes and `/q` again: two bundles, and `/a` written over in
place. -/
theorem update_postcondition_limitFiles :
    (updateBundles (fun _ => Digest.zero) ⟨fun _ => [], fun _ => []⟩
      (limitFiles ++ limitFiles.drop 16)).length = 2 ∧
    Updated (fun _ => Digest.zero) ⟨fun _ => [], fun _ => []⟩ ⟨60000000000, 0⟩
      (limitFiles ++ limitFiles.drop 16) manifestA
      (manifestA.update (fun _ => Digest.zero) ⟨fun _ => [], fun _ => []⟩ ⟨60000000000, 0⟩
        (limitFiles ++ limitFiles.drop 16)) :=
  ⟨by decide, update_postcondition _ _ _ _ manifestA (pathIndexed_empty.update _ _ _ _)
    (by decide)⟩

/-- The seventeen files of `c_BUNDLE_LIMIT_SIZE` bytes, with `/q` listed twice: the first `/q`
closes the first bundle and the second opens the next, so `/q` is in both bundles and its
entry names the second. -/
theorem update_duplicate_in_two_bundles :
    updateBundles (fun _ => Digest.zero) ⟨fun _ => [], fun _ => []⟩
        (limitFiles ++ limitFiles.drop 16) = [limitFiles, limitFiles.drop 16] ∧
      ((empty.update (fun _ => Digest.zero) ⟨fun _ => [], fun _ => []⟩ Time.zero
        (limitFiles ++ limitFiles.drop 16)).lookup (ascii "/q")).map ManifestEntry.parts =
        some [⟨keyFactory 2 1, ByteRange.empty⟩] ∧
      keyFactory 2 0 ≠ keyFactory 2 1 := by
  decide

end Manifest

end Backup

end IncBackup
