import IncBackup.Backup.Update

/-!
# Uploading the latest set

`backupLatest` uploads one object per group of `LatestEntries`: the archive of the files of
the group's entries that are not directories, under `blob/LastSet/key`.  Each upload runs
in its own goroutine, at most `c_CONCURRENT_UPLOADS` at a time.  A goroutine whose `Pack`,
`PutReader` or `Close` fails removes its files from the manifest.  When all have finished
the manifest is handed to `saveManifest`, unless there was nothing to upload, in which
case `backupLatest` returns without saving anything.

The goroutines are a step relation: the main loop starts the next upload when a token of
`uploadSem` is free, and any running upload can finish, with success or failure, at any
time.  The removals of a failed upload are one step, the atomic rollback of the spec.  The
file lists are read by the main loop before the goroutines that could change the heap
touch the cells it reads (a cell is written only when its own path is removed), so they
are fixed up front, from the manifest `Update` returned.

The main result: for the manifest `m.Update(F)` of a manifest with no entry in the new
set, every finished run hands `saveManifest` that manifest with exactly the paths of the
failed uploads removed; every entry of the new set that is left names an object that was
stored and holds its file; and the path index holds.
-/

namespace IncBackup

namespace Backup

namespace Manifest

/-! ## The groups of `LatestEntries` -/

/-- `ptr` is listed under `object` in `groups`. -/
def Grouped (groups : List (GoString × List EntryPtr)) (object : GoString) (ptr : EntryPtr) :
    Prop :=
  ∃ ptrs, (object, ptrs) ∈ groups ∧ ptr ∈ ptrs

theorem grouped_addLatest (object : GoString) (ptr : EntryPtr) :
    ∀ (groups : List (GoString × List EntryPtr)) (other : GoString) (entry : EntryPtr),
      Grouped (addLatest object ptr groups) other entry ↔
        (other = object ∧ entry = ptr) ∨ Grouped groups other entry
  | [], other, entry => by
    simp only [Grouped, addLatest, List.mem_singleton, Prod.mk.injEq, List.not_mem_nil, false_and,
      exists_false, or_false]
    exact ⟨fun ⟨_, ⟨same, rfl⟩, inside⟩ => ⟨same, List.mem_singleton.1 inside⟩,
      fun ⟨same, rfl⟩ => ⟨_, ⟨same, rfl⟩, List.mem_singleton_self _⟩⟩
  | (key, ptrs) :: rest, other, entry => by
    have more := grouped_addLatest object ptr rest other entry
    by_cases same : key = object
    · subst same
      simp only [Grouped, addLatest, if_true, List.mem_cons, Prod.mk.injEq] at more ⊢
      constructor
      · rintro ⟨found, (⟨rfl, rfl⟩ | member), inside⟩
        · simp only [List.mem_append, List.mem_singleton] at inside
          rcases inside with old | rfl
          · exact .inr ⟨ptrs, .inl ⟨rfl, rfl⟩, old⟩
          · exact .inl ⟨rfl, rfl⟩
        · exact .inr ⟨found, .inr member, inside⟩
      · rintro (⟨rfl, rfl⟩ | ⟨found, (⟨rfl, rfl⟩ | member), inside⟩)
        · exact ⟨_, .inl ⟨rfl, rfl⟩, by simp⟩
        · exact ⟨_, .inl ⟨rfl, rfl⟩, by simp [inside]⟩
        · exact ⟨found, .inr member, inside⟩
    · simp only [Grouped, addLatest, same, if_false, List.mem_cons, Prod.mk.injEq] at more ⊢
      constructor
      · rintro ⟨found, (⟨rfl, rfl⟩ | member), inside⟩
        · exact .inr ⟨_, .inl ⟨rfl, rfl⟩, inside⟩
        · rcases more.1 ⟨found, member, inside⟩ with fresh | ⟨found', member', inside'⟩
          · exact .inl fresh
          · exact .inr ⟨found', .inr member', inside'⟩
      · rintro (fresh | ⟨found, (⟨rfl, rfl⟩ | member), inside⟩)
        · obtain ⟨found, member, inside⟩ := more.2 (.inl fresh)
          exact ⟨found, .inr member, inside⟩
        · exact ⟨_, .inl ⟨rfl, rfl⟩, inside⟩
        · obtain ⟨found', member', inside'⟩ := more.2 (.inr ⟨found, member, inside⟩)
          exact ⟨found', .inr member', inside'⟩

/-- `addLatest` opens a group only for a new object, so the objects stay distinct. -/
theorem keys_addLatest (object : GoString) (ptr : EntryPtr) :
    ∀ groups : List (GoString × List EntryPtr),
      (addLatest object ptr groups).map Prod.fst =
        if object ∈ groups.map Prod.fst then groups.map Prod.fst
        else groups.map Prod.fst ++ [object]
  | [] => by simp [addLatest]
  | (key, ptrs) :: rest => by
    by_cases same : key = object
    · subst same; simp [addLatest]
    · simp only [addLatest, if_neg same, List.map_cons, keys_addLatest object ptr rest,
        List.mem_cons, Ne.symm same, false_or]
      split_ifs <;> rfl

theorem nodup_keys_addLatest (object : GoString) (ptr : EntryPtr)
    {groups : List (GoString × List EntryPtr)} (distinct : (groups.map Prod.fst).Nodup) :
    ((addLatest object ptr groups).map Prod.fst).Nodup := by
  rw [keys_addLatest]
  split_ifs with member
  · exact distinct
  · exact distinct.append (List.nodup_singleton _) (List.disjoint_singleton.2 member)

variable {manifest : Manifest}

/-- One entry of `LatestEntries`'s loop. -/
def latestStep (manifest : Manifest) (groups : List (GoString × List EntryPtr))
    (ptr : EntryPtr) : List (GoString × List EntryPtr) :=
  if (manifest.heap ptr).set = manifest.lastSet then
    (manifest.heap ptr).parts.foldl
      (fun groups part => addLatest (manifest.lastSet ++ ascii "/" ++ part.key) ptr groups)
      groups
  else groups

theorem latestEntries_eq (manifest : Manifest) :
    manifest.latestEntries = manifest.entries.foldl manifest.latestStep [] := rfl

theorem grouped_foldl_parts (object : GoString → GoString) (ptr : EntryPtr) :
    ∀ (parts : List ManifestEntryPart) (groups : List (GoString × List EntryPtr)) other entry,
      Grouped (parts.foldl (fun groups part => addLatest (object part.key) ptr groups) groups)
          other entry ↔
        (entry = ptr ∧ ∃ part ∈ parts, other = object part.key) ∨ Grouped groups other entry
  | [], _, _, _ => by simp
  | part :: parts, groups, other, entry => by
    rw [List.foldl_cons, grouped_foldl_parts object ptr parts, grouped_addLatest]
    constructor
    · rintro (⟨rfl, found, member, rfl⟩ | ⟨rfl, rfl⟩ | old)
      · exact .inl ⟨rfl, found, List.mem_cons_of_mem _ member, rfl⟩
      · exact .inl ⟨rfl, part, List.mem_cons_self _ _, rfl⟩
      · exact .inr old
    · rintro (⟨rfl, found, member, rfl⟩ | old)
      · rcases List.mem_cons.1 member with rfl | member
        · exact .inr (.inl ⟨rfl, rfl⟩)
        · exact .inl ⟨rfl, found, member, rfl⟩
      · exact .inr (.inr old)

theorem nodup_keys_foldl_parts (object : GoString → GoString) (ptr : EntryPtr) :
    ∀ (parts : List ManifestEntryPart) {groups : List (GoString × List EntryPtr)},
      (groups.map Prod.fst).Nodup →
      ((parts.foldl (fun groups part => addLatest (object part.key) ptr groups) groups).map
        Prod.fst).Nodup
  | [], _, distinct => distinct
  | _ :: parts, _, distinct =>
    nodup_keys_foldl_parts object ptr parts (nodup_keys_addLatest _ _ distinct)

/-- An entry is grouped under `LastSet/key` exactly when it is an entry of the last set
with a part of that key. -/
theorem grouped_latestEntries_iff (object : GoString) (ptr : EntryPtr) :
    Grouped manifest.latestEntries object ptr ↔
      ptr ∈ manifest.entries ∧ (manifest.heap ptr).set = manifest.lastSet ∧
        ∃ part ∈ (manifest.heap ptr).parts, object = manifest.lastSet ++ ascii "/" ++ part.key := by
  rw [latestEntries_eq]
  suffices ∀ (ptrs : List EntryPtr) groups, Grouped (ptrs.foldl manifest.latestStep groups)
      object ptr ↔ (ptr ∈ ptrs ∧ (manifest.heap ptr).set = manifest.lastSet ∧
        ∃ part ∈ (manifest.heap ptr).parts, object = manifest.lastSet ++ ascii "/" ++ part.key) ∨
        Grouped groups object ptr by
    simpa [Grouped] using this manifest.entries []
  intro ptrs
  induction ptrs with
  | nil => simp
  | cons head rest more =>
    intro groups
    rw [List.foldl_cons, more]
    unfold latestStep
    split_ifs with current
    · rw [grouped_foldl_parts (fun key => manifest.lastSet ++ ascii "/" ++ key)]
      constructor
      · rintro (⟨member, set, found⟩ | ⟨rfl, found⟩ | old)
        · exact .inl ⟨List.mem_cons_of_mem _ member, set, found⟩
        · exact .inl ⟨List.mem_cons_self _ _, current, found⟩
        · exact .inr old
      · rintro (⟨member, set, found⟩ | old)
        · rcases List.mem_cons.1 member with rfl | member
          · exact .inr (.inl ⟨rfl, found⟩)
          · exact .inl ⟨member, set, found⟩
        · exact .inr (.inr old)
    · constructor
      · rintro (⟨member, set, found⟩ | old)
        · exact .inl ⟨List.mem_cons_of_mem _ member, set, found⟩
        · exact .inr old
      · rintro (⟨member, set, found⟩ | old)
        · rcases List.mem_cons.1 member with rfl | member
          · exact absurd set current
          · exact .inl ⟨member, set, found⟩
        · exact .inr old

/-- The objects of `LatestEntries` are distinct. -/
theorem nodup_keys_latestEntries (manifest : Manifest) :
    (manifest.latestEntries.map Prod.fst).Nodup := by
  rw [latestEntries_eq]
  suffices ∀ (ptrs : List EntryPtr) {groups : List (GoString × List EntryPtr)},
      (groups.map Prod.fst).Nodup → ((ptrs.foldl manifest.latestStep groups).map Prod.fst).Nodup
    from this _ List.nodup_nil
  intro ptrs
  induction ptrs with
  | nil => exact id
  | cons head rest more =>
    intro groups distinct
    apply more
    unfold latestStep
    split_ifs
    · exact nodup_keys_foldl_parts _ _ _ distinct
    · exact distinct

/-! ## The entries of the new set -/

/-- Every entry of the last set is keyed as `Update` writes it: no part for a directory,
and one part naming the whole object otherwise. -/
def SetKeyed (manifest : Manifest) : Prop :=
  ∀ ptr ∈ manifest.entries, (manifest.heap ptr).set = manifest.lastSet →
    ∃ key, (manifest.heap ptr).parts =
      if (manifest.heap ptr).file.isDir then [] else [⟨key, ByteRange.empty⟩]

theorem SetKeyed.putEntry (keyed : manifest.SetKeyed) (indexed : manifest.PathIndexed)
    (key : GoString) (file : File) : (manifest.putEntry key file).SetKeyed := by
  unfold Manifest.putEntry
  split
  case h_1 ptr _ =>
    intro other member set
    by_cases same : other = ptr
    · subst same; exact ⟨key, by simp [newEntry]⟩
    · simp only [Function.update_apply, same, if_false] at set ⊢
      exact keyed other member set
  case h_2 =>
    intro ptr member set
    rcases List.mem_append.1 member with old | new
    · have other : ptr ≠ manifest.nextPtr := fun same => lt_irrefl _ (same ▸ indexed.allocated _ old)
      simp only [Function.update_apply, other, if_false] at set ⊢
      exact keyed ptr old set
    · rw [List.mem_singleton.1 new]
      exact ⟨key, by simp [newEntry]⟩

theorem SetKeyed.putBundles (keyed : manifest.SetKeyed) (indexed : manifest.PathIndexed)
    (bundles : List (List File)) : (manifest.putBundles bundles).SetKeyed := by
  unfold Manifest.putBundles
  generalize bundles.enum = keyed'
  induction keyed' generalizing manifest with
  | nil => exact keyed
  | cons head tail more =>
    apply more _ (indexed.foldl_putEntry _ head.2)
    generalize keyFactory bundles.length head.1 = key
    induction head.2 generalizing manifest with
    | nil => exact keyed
    | cons file files inner => exact inner (keyed.putEntry indexed key file) (indexed.putEntry key file)

/-- After `Update` on a manifest with no entry in the new set, the entries of the new set
are those `Update` wrote. -/
theorem setKeyed_update (indexed : manifest.PathIndexed) {now : Time}
    (fresh : ∀ ptr ∈ manifest.entries, (manifest.heap ptr).set ≠ manifestKey now)
    (sha1 : GoString → Digest) (disk : Disk) (files : List File) :
    (manifest.update sha1 disk now files).SetKeyed := by
  dsimp only [Manifest.update]
  apply SetKeyed.putBundles
  · exact fun ptr member set => absurd set (fresh ptr member)
  · exact indexed.congr rfl rfl rfl rfl

/-- After `Update` on a manifest with no entry in the new set, every entry of the new set
holds a checksummed record of the input files. -/
theorem PathIndexed.update_new_entry (indexed : manifest.PathIndexed) {now : Time}
    (fresh : ∀ ptr ∈ manifest.entries, (manifest.heap ptr).set ≠ manifestKey now)
    (sha1 : GoString → Digest) (disk : Disk) {files : List File}
    (consistent : ∀ file ∈ files, ∀ other ∈ files, file.path = other.path → file = other)
    {ptr : EntryPtr} (member : ptr ∈ (manifest.update sha1 disk now files).entries)
    (set : ((manifest.update sha1 disk now files).heap ptr).set = manifestKey now) :
    ((manifest.update sha1 disk now files).heap ptr).file ∈ checksumFiles sha1 disk files := by
  have updated := indexed.update sha1 disk now files
  have found := lookup_eq_some (updated.indexed ptr member)
  by_cases written : ∃ file ∈ files,
      file.path = ((manifest.update sha1 disk now files).heap ptr).file.path
  case pos =>
    obtain ⟨file, mem, atPath⟩ := written
    obtain ⟨checksum, checksummedEq, samePath, -⟩ := checksumFiles_eq_map sha1 disk files
    have mem' : checksum file ∈ checksumFiles sha1 disk files :=
      checksummedEq ▸ List.mem_map_of_mem _ mem
    obtain ⟨_, _, _, -, -, -, entry⟩ := indexed.update_written sha1 disk now consistent mem'
    rw [samePath, atPath, found] at entry
    rw [Option.some.inj entry]
    exact mem'
  case neg =>
    push_neg at written
    obtain ⟨pathMap, heap⟩ := indexed.update_untouched sha1 disk now written
    have before := pathMap.symm.trans (updated.indexed ptr member)
    rw [heap ptr before] at set
    exact absurd set (fresh ptr (indexed.sound _ _ before).1)

/-- `LatestEntries` is empty when no entry of the last set has a part. -/
theorem latestEntries_eq_nil (partless : ∀ ptr ∈ manifest.entries,
    (manifest.heap ptr).set = manifest.lastSet → (manifest.heap ptr).parts = []) :
    manifest.latestEntries = [] := by
  rw [latestEntries_eq, List.foldl_ext _ (fun groups _ => groups) _ fun groups ptr member => ?_,
    List.foldl_fixed]
  unfold latestStep
  split_ifs with set
  · rw [partless ptr member set, List.foldl_nil]
  · rfl

/-- In a path-indexed manifest, the entry at a path is the entry of the pointer holding
that path. -/
theorem PathIndexed.lookup_eq_some_iff (indexed : manifest.PathIndexed) {path : GoString}
    {entry : ManifestEntry} :
    manifest.lookup path = some entry ↔
      ∃ ptr ∈ manifest.entries, manifest.pathOf ptr = path ∧ manifest.heap ptr = entry := by
  constructor
  · intro found
    obtain ⟨ptr, mapped, rfl⟩ := Option.map_eq_some'.1 found
    obtain ⟨member, path⟩ := indexed.sound _ ptr mapped
    exact ⟨ptr, member, path, rfl⟩
  · rintro ⟨ptr, member, rfl, rfl⟩
    exact lookup_eq_some (indexed.indexed ptr member)

/-! ## Dropping the files of a failed upload -/

/-- `dropFromManifest`: `Remove` each file of a failed upload; `none` is a panic of
`Remove`. -/
def dropFiles (manifest : Manifest) (files : List File) : Option Manifest :=
  files.foldlM (fun manifest file => (manifest.remove file).map Prod.snd) manifest

/-- Dropping files never panics; afterwards the path index holds and exactly the files'
paths are gone. -/
theorem PathIndexed.dropFiles (indexed : manifest.PathIndexed) (files : List File) :
    ∃ after, manifest.dropFiles files = some after ∧ after.PathIndexed ∧
      ∀ path, after.lookup path =
        if ∃ file ∈ files, file.path = path then none else manifest.lookup path := by
  induction files generalizing manifest with
  | nil => exact ⟨manifest, rfl, indexed, fun path => by simp⟩
  | cons file files more =>
    obtain ⟨removed, remove, indexed₁, lookup₁⟩ := indexed.remove file
    obtain ⟨after, drop, indexed₂, lookup₂⟩ := more indexed₁
    refine ⟨after, by simpa [Manifest.dropFiles, remove] using drop, indexed₂, fun path => ?_⟩
    rw [lookup₂, lookup₁]
    by_cases here : file.path = path
    · simp [here]
    · by_cases later : ∃ file ∈ files, file.path = path
      · simp [later]
      · simp [here, later, Ne.symm here]

end Manifest

/-! ## The goroutines of `backupLatest` -/

/-- `c_CONCURRENT_UPLOADS`, the tokens of `uploadSem`. -/
def concurrentUploads : Nat := 20

/-- One upload of `backupLatest`: the object `LastSet/key` and the files whose archive
`archive.PackReader` streams to it. -/
structure Upload where
  key : GoString
  files : List File
deriving DecidableEq

/-- The uploads `backupLatest` starts, one per object of `LatestEntries`, with the files of
the object's entries that are not directories. -/
def Manifest.uploads (manifest : Manifest) : List Upload :=
  manifest.latestEntries.map fun group =>
    ⟨group.1, (group.2.map fun ptr => (manifest.heap ptr).file).filter fun file => !file.isDir⟩

/-! ## Uploads and entries -/

section Uploads

variable {manifest : Manifest}

/-- Every file of an upload is the file of an entry grouped under the upload's key, and is
not a directory. -/
theorem Manifest.grouped_of_mem_uploads {upload : Upload} (member : upload ∈ manifest.uploads)
    {file : File} (found : file ∈ upload.files) :
    ∃ ptr, Grouped manifest.latestEntries upload.key ptr ∧ (manifest.heap ptr).file = file ∧
      file.isDir = false := by
  obtain ⟨⟨object, ptrs⟩, group, rfl⟩ := List.mem_map.1 member
  obtain ⟨found, nondir⟩ := List.mem_filter.1 found
  obtain ⟨ptr, listed, rfl⟩ := List.mem_map.1 found
  exact ⟨ptr, ⟨ptrs, group, listed⟩, rfl, by simpa using nondir⟩

/-- Every entry grouped under an object, if not a directory, is uploaded under it. -/
theorem Manifest.mem_uploads_of_grouped {object : GoString} {ptr : EntryPtr}
    (grouped : Grouped manifest.latestEntries object ptr)
    (nondir : (manifest.heap ptr).file.isDir = false) :
    ∃ upload ∈ manifest.uploads, upload.key = object ∧ (manifest.heap ptr).file ∈ upload.files := by
  obtain ⟨ptrs, group, listed⟩ := grouped
  exact ⟨_, List.mem_map_of_mem _ group, rfl,
    List.mem_filter.2 ⟨List.mem_map_of_mem _ listed, by simp [nondir]⟩⟩

theorem Manifest.nodup_keys_uploads (manifest : Manifest) :
    (manifest.uploads.map Upload.key).Nodup := by
  have keys : manifest.uploads.map Upload.key = manifest.latestEntries.map Prod.fst := by
    simp [Manifest.uploads, Function.comp_def]
  rw [keys]
  exact manifest.nodup_keys_latestEntries

/-- One upload per object key. -/
theorem Manifest.eq_of_key_eq {upload other : Upload} (member : upload ∈ manifest.uploads)
    (member' : other ∈ manifest.uploads) (same : upload.key = other.key) : upload = other :=
  List.inj_on_of_nodup_map manifest.nodup_keys_uploads member member' same

/-- In a path-indexed manifest whose new set is keyed, each entry of the new set that is
not a directory has one part, and its file is in the upload of that part's object. -/
theorem Manifest.SetKeyed.upload_of_entry (keyed : manifest.SetKeyed) {ptr : EntryPtr} (member : ptr ∈ manifest.entries)
    (set : (manifest.heap ptr).set = manifest.lastSet)
    (nondir : (manifest.heap ptr).file.isDir = false) :
    ∃ key, (manifest.heap ptr).parts = [⟨key, ByteRange.empty⟩] ∧
      ∃ upload ∈ manifest.uploads, upload.key = manifest.lastSet ++ ascii "/" ++ key ∧
        (manifest.heap ptr).file ∈ upload.files := by
  obtain ⟨key, parts⟩ := keyed ptr member set
  rw [nondir, if_neg Bool.false_ne_true] at parts
  have grouped : Grouped manifest.latestEntries (manifest.lastSet ++ ascii "/" ++ key) ptr :=
    (grouped_latestEntries_iff _ ptr).2 ⟨member, set, ⟨key, ByteRange.empty⟩, by simp [parts], rfl⟩
  exact ⟨key, parts, manifest.mem_uploads_of_grouped grouped nondir⟩

/-- An entry of a keyed new set is grouped under one object at most. -/
theorem Manifest.SetKeyed.grouped_unique (keyed : manifest.SetKeyed) {ptr : EntryPtr}
    {object other : GoString} (grouped : Grouped manifest.latestEntries object ptr)
    (grouped' : Grouped manifest.latestEntries other ptr) : object = other := by
  obtain ⟨member, set, part, listed, rfl⟩ := (grouped_latestEntries_iff _ ptr).1 grouped
  obtain ⟨-, -, part', listed', rfl⟩ := (grouped_latestEntries_iff _ ptr).1 grouped'
  obtain ⟨key, parts⟩ := keyed ptr member set
  rw [parts] at listed listed'
  split_ifs at listed listed' <;> simp_all

theorem Manifest.nodup_uploads (manifest : Manifest) : manifest.uploads.Nodup :=
  List.Nodup.of_map Upload.key manifest.nodup_keys_uploads

end Uploads

/-- The state of `backupLatest` while its goroutines run: the manifest `m` they share, the
uploads the main loop has not started, those started and not finished, the free tokens of
`uploadSem`, and the uploads that were stored and that failed. -/
structure Uploading where
  manifest : Manifest
  waiting : List Upload
  running : List Upload
  tokens : Nat
  stored : List Upload
  failed : List Upload

/-- One step of `backupLatest`. -/
inductive UploadStep : Uploading → Uploading → Prop
  /-- The main loop takes a token of `uploadSem` and starts an upload it has not started;
  it ranges over a Go map, so in any order. -/
  | start {state : Uploading} {before after : List Upload} {upload : Upload}
      (waiting : state.waiting = before ++ upload :: after) (free : 0 < state.tokens) :
      UploadStep state
        { state with
          waiting := before ++ after, running := state.running ++ [upload],
          tokens := state.tokens - 1 }
  /-- A running upload's `Pack`, `PutReader` and `Close` succeed: the archive is stored
  under `blob/key` and the token given back. -/
  | succeed {state : Uploading} {before after : List Upload} {upload : Upload}
      (running : state.running = before ++ upload :: after) :
      UploadStep state
        { state with
          running := before ++ after, tokens := state.tokens + 1, stored := state.stored ++ [upload] }
  /-- One of them fails: the upload's files are removed from the manifest in one step and
  the token given back. -/
  | fail {state : Uploading} {before after : List Upload} {upload : Upload}
      {manifest : Manifest} (running : state.running = before ++ upload :: after)
      (dropped : state.manifest.dropFiles upload.files = some manifest) :
      UploadStep state
        { state with
          manifest := manifest, running := before ++ after, tokens := state.tokens + 1,
          failed := state.failed ++ [upload] }

/-- `backupLatest` before its loop: every upload waiting, every token free. -/
def Uploading.initial (manifest : Manifest) : Uploading :=
  ⟨manifest, manifest.uploads, [], concurrentUploads, [], []⟩

/-- The main loop is over and every goroutine has given its token back. -/
def Uploading.Finished (state : Uploading) : Prop := state.waiting = [] ∧ state.running = []

/-- What `backupLatest` hands to `saveManifest` once a run has finished: the shared
manifest, unless `LatestEntries` was empty, when it returns without saving. -/
def savedManifest (manifest : Manifest) (state : Uploading) : Option Manifest :=
  if manifest.latestEntries = [] then none else some state.manifest

/-- A path is among the files of some of the uploads. -/
def Dropped (uploads : List Upload) (path : GoString) : Prop :=
  ∃ upload ∈ uploads, ∃ file ∈ upload.files, file.path = path

instance (uploads : List Upload) : DecidablePred (Dropped uploads) := fun path =>
  inferInstanceAs (Decidable (∃ upload ∈ uploads, ∃ file ∈ upload.files, file.path = path))

@[simp]
theorem not_dropped_nil (path : GoString) : ¬ Dropped [] path := by
  simp [Dropped]

@[simp]
theorem dropped_append_singleton {uploads : List Upload} {upload : Upload} {path : GoString} :
    Dropped (uploads ++ [upload]) path ↔
      Dropped uploads path ∨ ∃ file ∈ upload.files, file.path = path := by
  simp only [Dropped, List.mem_append, List.mem_singleton, or_and_right, exists_or,
    exists_eq_left]

/-- What holds along every run from `Uploading.initial base`: the path index, the manifest
is `base` without the paths of the failed uploads, and every upload is in exactly one
place. -/
structure UploadInvariant (base : Manifest) (state : Uploading) : Prop where
  indexed : state.manifest.PathIndexed
  lookup : ∀ path, state.manifest.lookup path =
    if Dropped state.failed path then none else base.lookup path
  perm : base.uploads.Perm (state.waiting ++ state.running ++ state.stored ++ state.failed)
  tokens : state.tokens + state.running.length = concurrentUploads

variable {base : Manifest} {state next : Uploading}

theorem uploadInvariant_initial (indexed : base.PathIndexed) :
    UploadInvariant base (Uploading.initial base) :=
  ⟨indexed, fun path => by simp [Uploading.initial], by simp [Uploading.initial], rfl⟩

/-- Every step keeps the invariant. -/
theorem UploadInvariant.step (holds : UploadInvariant base state) (step : UploadStep state next) :
    UploadInvariant base next := by
  obtain ⟨indexed, lookup, perm, tokens⟩ := holds
  cases step with
  | start waiting free =>
    refine ⟨indexed, lookup, perm.trans (List.perm_iff_count.2 fun upload => ?_), ?_⟩
    · simp only [waiting, List.count_append, List.count_cons, List.count_singleton',
        List.count_nil]
      omega
    · simp only [List.length_append, List.length_singleton]
      omega
  | succeed running =>
    refine ⟨indexed, lookup, perm.trans (List.perm_iff_count.2 fun upload => ?_), ?_⟩
    · simp only [running, List.count_append, List.count_cons, List.count_singleton',
        List.count_nil]
      omega
    · simp only [running, List.length_append, List.length_cons] at tokens ⊢
      omega
  | @fail before after upload manifest running dropped =>
    obtain ⟨after', drop, indexed', lookup'⟩ := indexed.dropFiles upload.files
    rw [dropped, Option.some.injEq] at drop
    subst drop
    refine ⟨indexed', fun path => ?_, perm.trans (List.perm_iff_count.2 fun upload => ?_), ?_⟩
    · rw [lookup', lookup]
      by_cases here : ∃ file ∈ upload.files, file.path = path <;>
        by_cases earlier : Dropped state.failed path <;> simp [here, earlier]
    · simp only [running, List.count_append, List.count_cons, List.count_singleton',
        List.count_nil]
      omega
    · simp only [running, List.length_append, List.length_cons] at tokens ⊢
      omega

/-- Every run keeps the invariant. -/
theorem uploadInvariant_run (indexed : base.PathIndexed)
    (run : Relation.ReflTransGen UploadStep (Uploading.initial base) state) :
    UploadInvariant base state := by
  induction run with
  | refl => exact uploadInvariant_initial indexed
  | tail _ step holds => exact holds.step step

/-! ## Every run finishes -/

/-- A run that has not finished can take a step: an upload is running and can finish, or
none is, so every token is free and the main loop can start one. -/
theorem UploadInvariant.progress (holds : UploadInvariant base state) (unfinished : ¬ state.Finished) :
    ∃ next, UploadStep state next := by
  match running : state.running, waiting : state.waiting with
  | upload :: after, _ => exact ⟨_, @UploadStep.succeed state [] after upload running⟩
  | [], upload :: after =>
    have free : 0 < state.tokens := by
      have tokens := holds.tokens
      rw [running, List.length_nil, Nat.add_zero] at tokens
      rw [tokens]
      decide
    exact ⟨_, @UploadStep.start state [] after upload waiting free⟩
  | [], [] => exact absurd ⟨waiting, running⟩ unfinished

/-- The uploads still to start count twice, those running once. -/
def Uploading.remaining (state : Uploading) : Nat := 2 * state.waiting.length + state.running.length

/-- What a finished run hands `saveManifest`, for the manifest `base` it started from and
the uploads that were stored and that failed. -/
structure RolledBack (base : Manifest) (stored failed : List Upload) (saved : Manifest) :
    Prop where
  /-- Every upload ended once, stored or failed. -/
  ended : base.uploads.Perm (stored ++ failed)
  indexed : saved.PathIndexed
  /-- The paths of the failed uploads' files are gone; every other path is unchanged. -/
  lookup : ∀ path, saved.lookup path = if Dropped failed path then none else base.lookup path
  /-- The failed uploads' files were entries of the new set. -/
  failedEntries : ∀ upload ∈ failed, ∀ file ∈ upload.files,
    ∃ entry, base.lookup file.path = some entry ∧ entry.file = file ∧ entry.set = base.lastSet
  /-- An entry of the new set that is left and is not a directory names one object, which
  was stored with the entry's file in its archive. -/
  uploaded : ∀ path entry, saved.lookup path = some entry → entry.set = base.lastSet →
    entry.file.isDir = false → ∃ key, entry.parts = [⟨key, ByteRange.empty⟩] ∧
      ∃ upload ∈ stored, upload.key = base.lastSet ++ ascii "/" ++ key ∧ entry.file ∈ upload.files
  /-- Directories, entries of older sets and the files of stored uploads keep their entry. -/
  kept : ∀ path entry, base.lookup path = some entry →
    (entry.file.isDir = true ∨ entry.set ≠ base.lastSet ∨
      ∃ upload ∈ stored, entry.file ∈ upload.files) →
    saved.lookup path = some entry

section Finished

open Manifest

variable {stored failed : List Upload}

/-- A dropped path holds an entry of the new set, not a directory, listed under a failed
upload's key with its file in that upload. -/
theorem dropped_entry (ended : base.uploads.Perm (stored ++ failed)) {path : GoString}
    (dropped : Dropped failed path) :
    ∃ upload ∈ failed, ∃ ptr ∈ base.entries, Grouped base.latestEntries upload.key ptr ∧
      base.pathOf ptr = path ∧ (base.heap ptr).file.isDir = false ∧
      (base.heap ptr).file ∈ upload.files := by
  obtain ⟨upload, failing, file, found, rfl⟩ := dropped
  have member := ended.symm.subset (List.mem_append_right _ failing)
  obtain ⟨ptr, grouped, rfl, nondir⟩ := base.grouped_of_mem_uploads member found
  exact ⟨upload, failing, ptr, ((grouped_latestEntries_iff _ ptr).1 grouped).1, grouped, rfl,
    nondir, found⟩

/-- An entry is never in a stored and a failed upload at once. -/
theorem not_dropped_of_stored (indexed : base.PathIndexed) (keyed : base.SetKeyed)
    (ended : base.uploads.Perm (stored ++ failed)) {path : GoString} {entry : ManifestEntry}
    (found : base.lookup path = some entry) {upload : Upload} (storing : upload ∈ stored)
    (member : entry.file ∈ upload.files) : ¬ Dropped failed path := by
  intro dropped
  obtain ⟨failure, failing, ptr, listed, grouped, atPath, -, -⟩ := dropped_entry ended dropped
  have uploaded := ended.symm.subset (List.mem_append_left _ storing)
  obtain ⟨ptr', grouped', same, -⟩ := base.grouped_of_mem_uploads uploaded member
  obtain ⟨other, -, otherPath, rfl⟩ := indexed.lookup_eq_some_iff.1 found
  have samePtr : ptr' = ptr := indexed.eq_of_pathOf_eq
    ((grouped_latestEntries_iff _ ptr').1 grouped').1 listed
    (by rw [atPath]; exact (congrArg File.path same).trans otherPath)
  subst samePtr
  have sameUpload := base.eq_of_key_eq uploaded
    (ended.symm.subset (List.mem_append_right _ failing)) (keyed.grouped_unique grouped' grouped)
  subst sameUpload
  exact List.disjoint_of_nodup_append (ended.nodup_iff.1 base.nodup_uploads) storing failing

/-- A finished run holds the rolled-back manifest. -/
theorem UploadInvariant.rolledBack (holds : UploadInvariant base state)
    (indexed : base.PathIndexed) (keyed : base.SetKeyed) (finished : state.Finished) :
    RolledBack base state.stored state.failed state.manifest := by
  obtain ⟨indexed', lookup, perm, -⟩ := holds
  have ended : base.uploads.Perm (state.stored ++ state.failed) := by
    simpa [finished.1, finished.2] using perm
  refine ⟨ended, indexed', lookup, ?failedEntries, ?uploaded, ?kept⟩
  case failedEntries =>
    intro upload failing file found
    obtain ⟨ptr, grouped, rfl, -⟩ :=
      base.grouped_of_mem_uploads (ended.symm.subset (List.mem_append_right _ failing)) found
    obtain ⟨member, set, -⟩ := (grouped_latestEntries_iff _ ptr).1 grouped
    exact ⟨_, indexed.lookup_eq_some_iff.2 ⟨ptr, member, rfl, rfl⟩, rfl, set⟩
  case uploaded =>
    intro path entry found set nondir
    have notDropped : ¬ Dropped state.failed path := fun dropped => by
      simp [lookup, dropped] at found
    rw [lookup, if_neg notDropped] at found
    obtain ⟨ptr, member, atPath, rfl⟩ := indexed.lookup_eq_some_iff.1 found
    obtain ⟨key, parts, upload, uploading, named, file⟩ := keyed.upload_of_entry member set nondir
    refine ⟨key, parts, upload, ?_, named, file⟩
    rcases List.mem_append.1 (ended.subset uploading) with storing | failing
    · exact storing
    · exact absurd ⟨upload, failing, _, file, atPath⟩ notDropped
  case kept =>
    intro path entry found keep
    suffices notDropped : ¬ Dropped state.failed path by rw [lookup, if_neg notDropped, found]
    intro dropped
    obtain ⟨_, _, ptr, member, grouped, atPath, nondir, _⟩ := dropped_entry ended dropped
    obtain ⟨-, set, -⟩ := (grouped_latestEntries_iff _ ptr).1 grouped
    have same : base.heap ptr = entry := Option.some.inj
      ((indexed.lookup_eq_some_iff.2 ⟨ptr, member, atPath, rfl⟩).symm.trans found)
    subst same
    rcases keep with dir | older | ⟨upload, storing, member'⟩
    · exact Bool.false_ne_true (nondir.symm.trans dir)
    · exact older set
    · exact not_dropped_of_stored indexed keyed ended found storing member' dropped

/-- `backupLatest` on `m.Update(F)`, for a path-indexed `m` with no entry in the new set:
in every finished run, whatever uploads failed and in whatever order the goroutines
finished, `saveManifest` is called exactly when `LatestEntries` is not empty, and then with
the rolled-back manifest. -/
theorem backupLatest_saves_rolled_back {manifest : Manifest} (indexed : manifest.PathIndexed)
    {now : Time} (fresh : ∀ ptr ∈ manifest.entries, (manifest.heap ptr).set ≠ manifestKey now)
    (sha1 : GoString → Digest) (disk : Disk) (files : List File) {state : Uploading}
    (run : Relation.ReflTransGen UploadStep
      (Uploading.initial (manifest.update sha1 disk now files)) state)
    (finished : state.Finished) :
    (savedManifest (manifest.update sha1 disk now files) state = none ↔
      (manifest.update sha1 disk now files).latestEntries = []) ∧
    ∀ saved, savedManifest (manifest.update sha1 disk now files) state = some saved →
      RolledBack (manifest.update sha1 disk now files) state.stored state.failed saved := by
  have updated := indexed.update sha1 disk now files
  refine ⟨by unfold savedManifest; split_ifs <;> simp_all, fun saved save => ?_⟩
  unfold savedManifest at save
  split_ifs at save
  cases save
  exact (uploadInvariant_run updated run).rolledBack updated
    (Manifest.setKeyed_update indexed fresh sha1 disk files) finished

/-- A regular file `f`. -/
def regularFile : File := { (default : File) with root := ascii "/", name := ascii "f" }

/-- A directory `d`. -/
def directoryFile : File :=
  { (default : File) with root := ascii "/", name := ascii "d", mode := ⟨FileMode.modeDir⟩ }

/-- `Update` of the empty manifest at the zero time, on a disk of empty files. -/
def updatedEmpty (files : List File) : Manifest :=
  Manifest.empty.update (fun _ => Digest.zero) ⟨fun _ => [], fun _ => []⟩ Time.zero files

/-- `backupLatest_saves_rolled_back` on the run that stores the one upload of a regular
file. -/
theorem backupLatest_saves_rolled_back_regular :
    Manifest.empty.PathIndexed ∧
    (∀ ptr ∈ Manifest.empty.entries, (Manifest.empty.heap ptr).set ≠ manifestKey Time.zero) ∧
    Relation.ReflTransGen UploadStep (Uploading.initial (updatedEmpty [regularFile]))
      ⟨updatedEmpty [regularFile], [], [], concurrentUploads, (updatedEmpty [regularFile]).uploads,
        []⟩ ∧
    Uploading.Finished
      ⟨updatedEmpty [regularFile], [], [], concurrentUploads, (updatedEmpty [regularFile]).uploads,
        []⟩ ∧
    ((savedManifest (updatedEmpty [regularFile])
        ⟨updatedEmpty [regularFile], [], [], concurrentUploads,
          (updatedEmpty [regularFile]).uploads, []⟩ = none ↔
      (updatedEmpty [regularFile]).latestEntries = []) ∧
    ∀ saved, savedManifest (updatedEmpty [regularFile])
        ⟨updatedEmpty [regularFile], [], [], concurrentUploads,
          (updatedEmpty [regularFile]).uploads, []⟩ = some saved →
      RolledBack (updatedEmpty [regularFile]) (updatedEmpty [regularFile]).uploads [] saved) :=
  have fresh : ∀ ptr ∈ Manifest.empty.entries,
      (Manifest.empty.heap ptr).set ≠ manifestKey Time.zero := by
    simp [Manifest.empty]
  have run : Relation.ReflTransGen UploadStep (Uploading.initial (updatedEmpty [regularFile]))
      ⟨updatedEmpty [regularFile], [], [], concurrentUploads, (updatedEmpty [regularFile]).uploads,
        []⟩ :=
    .tail (.single (@UploadStep.start _ [] [] _ (by decide) (by decide)))
      (@UploadStep.succeed _ [] [] _ rfl)
  ⟨Manifest.pathIndexed_empty, fresh, run, ⟨rfl, rfl⟩,
    backupLatest_saves_rolled_back Manifest.pathIndexed_empty fresh _ _ _ run ⟨rfl, rfl⟩⟩

/-- `backupLatest` on `m.Update(F)`, for a path-indexed `m` with no entry in the new set
and changed files `F` that are all directories: `LatestEntries` is empty, so the run is over
before it starts and no state it reaches hands anything to `saveManifest`, though
`m.Update(F)` holds an entry of the new set, with no part, for every directory of `F`. -/
theorem backupLatest_skips_directories {manifest : Manifest} (indexed : manifest.PathIndexed)
    {now : Time} (fresh : ∀ ptr ∈ manifest.entries, (manifest.heap ptr).set ≠ manifestKey now)
    (sha1 : GoString → Digest) (disk : Disk) {files : List File}
    (consistent : ∀ file ∈ files, ∀ other ∈ files, file.path = other.path → file = other)
    (directories : ∀ file ∈ files, file.isDir = true) :
    (Uploading.initial (manifest.update sha1 disk now files)).Finished ∧
    (∀ state, Relation.ReflTransGen UploadStep
        (Uploading.initial (manifest.update sha1 disk now files)) state →
      savedManifest (manifest.update sha1 disk now files) state = none) ∧
    ∀ file ∈ files, ∃ entry, (manifest.update sha1 disk now files).lookup file.path = some entry ∧
      entry.set = manifestKey now ∧ entry.file.isDir = true ∧ entry.parts = [] := by
  obtain ⟨checksum, checksummedEq, samePath, sameMode⟩ := checksumFiles_eq_map sha1 disk files
  have checksummedDir : ∀ file ∈ checksumFiles sha1 disk files, file.isDir = true := by
    rw [checksummedEq]
    rintro _ listed
    obtain ⟨file, mem, rfl⟩ := List.mem_map.1 listed
    rw [File.isDir, sameMode]
    exact directories file mem
  have nothing : (manifest.update sha1 disk now files).latestEntries = [] := by
    refine latestEntries_eq_nil fun ptr member set => ?_
    obtain ⟨key, parts⟩ := setKeyed_update indexed fresh sha1 disk files ptr member set
    rw [update_lastSet] at set
    rw [parts, if_pos (checksummedDir _ (indexed.update_new_entry fresh sha1 disk consistent
      member set))]
  refine ⟨⟨by rw [Uploading.initial, uploads, nothing, List.map_nil], rfl⟩,
    fun _ _ => if_pos nothing, fun file mem => ?_⟩
  have mem' : checksum file ∈ checksumFiles sha1 disk files :=
    checksummedEq ▸ List.mem_map_of_mem _ mem
  obtain ⟨_, _, _, -, -, -, entry⟩ := indexed.update_written sha1 disk now consistent mem'
  rw [samePath] at entry
  exact ⟨_, entry, rfl, checksummedDir _ mem', if_pos (checksummedDir _ mem')⟩

/-- With a directory `d` as the only changed file of the empty manifest, no run hands
anything to `saveManifest`. -/
theorem backupLatest_skips_directory :
    Manifest.empty.PathIndexed ∧
    (∀ ptr ∈ Manifest.empty.entries, (Manifest.empty.heap ptr).set ≠ manifestKey Time.zero) ∧
    (∀ file ∈ [directoryFile], ∀ other ∈ [directoryFile], file.path = other.path → file = other) ∧
    (∀ file ∈ [directoryFile], file.isDir = true) ∧
    (Uploading.initial (updatedEmpty [directoryFile])).Finished ∧
    (∀ state, Relation.ReflTransGen UploadStep (Uploading.initial (updatedEmpty [directoryFile]))
        state → savedManifest (updatedEmpty [directoryFile]) state = none) ∧
    ∀ file ∈ [directoryFile], ∃ entry, (updatedEmpty [directoryFile]).lookup file.path = some entry ∧
      entry.set = manifestKey Time.zero ∧ entry.file.isDir = true ∧ entry.parts = [] :=
  have fresh : ∀ ptr ∈ Manifest.empty.entries,
      (Manifest.empty.heap ptr).set ≠ manifestKey Time.zero := List.forall_mem_nil _
  have consistent : ∀ file ∈ [directoryFile], ∀ other ∈ [directoryFile],
      file.path = other.path → file = other := by simp
  have directories : ∀ file ∈ [directoryFile], file.isDir = true := by decide
  ⟨Manifest.pathIndexed_empty, fresh, consistent, directories,
    backupLatest_skips_directories Manifest.pathIndexed_empty fresh _ _ consistent directories⟩

end Finished

end Backup

end IncBackup
