import IncBackup.Backup.Manifest

/-!
# The path-index invariant

Every manifest the program builds keeps its slice and its map in step: the
pointers of `Entries` are distinct allocated cells, `pathMap` sends the path of
each entry to that entry's own pointer, and every pointer in `pathMap` is one of
`Entries`, stored under its entry's path.  Entry paths are therefore pairwise
distinct and `pathMap` has exactly the entry paths as keys.

`Update` keeps the invariant because it reuses the cell of an existing path and
allocates a fresh cell otherwise; `Remove` keeps it because the cell it
overwrites takes over the last entry's path before the last slot is cut.  Both
are proved once, and the invariant then holds of every manifest reachable from
`NewManifest` by `Update` and `Remove`.
-/

namespace IncBackup

namespace Backup

namespace Manifest

/-- The invariant that ties `Entries`, `pathMap` and the heap together. -/
structure PathIndexed (manifest : Manifest) : Prop where
  nodup : manifest.entries.Nodup
  allocated : ∀ ptr ∈ manifest.entries, ptr < manifest.nextPtr
  indexed : ∀ ptr ∈ manifest.entries, manifest.pathMap (manifest.heap ptr).file.path = some ptr
  sound : ∀ path ptr, manifest.pathMap path = some ptr →
    ptr ∈ manifest.entries ∧ (manifest.heap ptr).file.path = path

variable {manifest : Manifest}

/-- The path of an entry. -/
def pathOf (manifest : Manifest) (ptr : EntryPtr) : GoString := (manifest.heap ptr).file.path

theorem PathIndexed.eq_of_pathOf_eq (indexed : manifest.PathIndexed) {ptr other : EntryPtr}
    (member : ptr ∈ manifest.entries) (member' : other ∈ manifest.entries)
    (same : manifest.pathOf ptr = manifest.pathOf other) : ptr = other := by
  have first := indexed.indexed ptr member
  rw [show (manifest.heap ptr).file.path = manifest.pathOf other from same,
    pathOf, indexed.indexed other member'] at first
  exact (Option.some.inj first).symm

/-- Entry paths are pairwise distinct. -/
theorem PathIndexed.nodup_paths (indexed : manifest.PathIndexed) :
    (manifest.entries.map manifest.pathOf).Nodup :=
  (List.nodup_map_iff_inj_on indexed.nodup).2 fun _ member _ member' same =>
    indexed.eq_of_pathOf_eq member member' same

/-- The keys of `pathMap` are exactly the entry paths. -/
theorem PathIndexed.isSome_iff (indexed : manifest.PathIndexed) (path : GoString) :
    (manifest.pathMap path).isSome ↔ ∃ ptr ∈ manifest.entries, manifest.pathOf ptr = path := by
  constructor
  · intro present
    obtain ⟨ptr, found⟩ := Option.isSome_iff_exists.1 present
    exact ⟨ptr, indexed.sound path ptr found⟩
  · rintro ⟨ptr, member, rfl⟩
    simp [pathOf, indexed.indexed ptr member]

@[simp]
theorem lookup_eq_some {path : GoString} {ptr : EntryPtr}
    (found : manifest.pathMap path = some ptr) :
    manifest.lookup path = some (manifest.heap ptr) := by
  simp [lookup, found]

@[simp]
theorem pathIndexed_empty : empty.PathIndexed :=
  ⟨List.nodup_nil, by simp [empty], by simp [empty], by simp [empty]⟩

/-! ## Update -/

theorem PathIndexed.putEntry (indexed : manifest.PathIndexed) (key : GoString) (file : File) :
    (manifest.putEntry key file).PathIndexed := by
  unfold Manifest.putEntry
  split
  case h_1 ptr found =>
    obtain ⟨member, samePath⟩ := indexed.sound _ _ found
    refine ⟨indexed.nodup, indexed.allocated, fun other member' => ?_, fun path other found' => ?_⟩
    · by_cases same : other = ptr
      · subst same; simpa [Function.update_apply, newEntry] using found
      · simpa [Function.update_apply, same] using indexed.indexed other member'
    · obtain ⟨member', samePath'⟩ := indexed.sound path other found'
      refine ⟨member', ?_⟩
      by_cases same : other = ptr
      · subst same; simp_all [newEntry]
      · simpa [Function.update_apply, same] using samePath'
  case h_2 absent =>
    have fresh : manifest.nextPtr ∉ manifest.entries := fun member =>
      lt_irrefl _ (indexed.allocated _ member)
    refine ⟨?_, ?_, fun ptr member => ?_, fun path ptr found => ?_⟩
    · exact List.nodup_append.2 ⟨indexed.nodup, List.nodup_singleton _,
        List.disjoint_singleton.2 fresh⟩
    · intro ptr member
      rcases List.mem_append.1 member with old | new
      · exact Nat.lt_succ_of_lt (indexed.allocated ptr old)
      · simp_all
    · rcases List.mem_append.1 member with old | new
      · have other : ptr ≠ manifest.nextPtr := fun same => fresh (same ▸ old)
        have otherPath : (manifest.heap ptr).file.path ≠ file.path := fun same => by
          simp [← same, indexed.indexed ptr old] at absent
        simp [Function.update_apply, other, otherPath, indexed.indexed ptr old]
      · rw [List.mem_singleton.1 new]; simp [Function.update_apply, newEntry]
    · by_cases same : path = file.path
      · subst same
        simp only [Function.update_apply, if_true, Option.some.injEq] at found
        subst found
        exact ⟨List.mem_append_right _ (List.mem_singleton_self _),
          by simp [Function.update_apply, newEntry]⟩
      · simp only [Function.update_apply, same, if_false] at found
        obtain ⟨member, samePath⟩ := indexed.sound path ptr found
        have other : ptr ≠ manifest.nextPtr := fun same => fresh (same ▸ member)
        exact ⟨List.mem_append_left _ member, by simpa [Function.update_apply, other] using samePath⟩

/-- A fold of `putEntry` keeps the invariant. -/
theorem PathIndexed.foldl_putEntry (key : GoString) :
    ∀ (files : List File) {manifest : Manifest}, manifest.PathIndexed →
      (files.foldl (fun manifest => manifest.putEntry key) manifest).PathIndexed
  | [], _, indexed => indexed
  | file :: files, _, indexed => PathIndexed.foldl_putEntry key files (indexed.putEntry key file)

theorem PathIndexed.putBundles (indexed : manifest.PathIndexed) (bundles : List (List File)) :
    (manifest.putBundles bundles).PathIndexed := by
  unfold Manifest.putBundles
  generalize bundles.enum = keyed
  induction keyed generalizing manifest with
  | nil => exact indexed
  | cons head tail ih => exact ih (indexed.foldl_putEntry _ head.2)

/-- The invariant reads only the slice, the map and the heap. -/
theorem PathIndexed.congr {other : Manifest} (indexed : manifest.PathIndexed)
    (entries : other.entries = manifest.entries) (pathMap : other.pathMap = manifest.pathMap)
    (heap : other.heap = manifest.heap) (nextPtr : other.nextPtr = manifest.nextPtr) :
    other.PathIndexed := by
  obtain ⟨nodup, allocated, indexed', sound⟩ := indexed
  rw [← entries, ← pathMap, ← heap, ← nextPtr] at *
  exact ⟨nodup, allocated, indexed', sound⟩

theorem PathIndexed.update (indexed : manifest.PathIndexed) (sha1 : GoString → Digest)
    (disk : Disk) (now : Time) (files : List File) :
    (manifest.update sha1 disk now files).PathIndexed := by
  dsimp only [Manifest.update]
  apply PathIndexed.putBundles
  exact indexed.congr rfl rfl rfl rfl

theorem PathIndexed.setCreated (indexed : manifest.PathIndexed) (created : Time) :
    ({ manifest with created }).PathIndexed :=
  indexed.congr rfl rfl rfl rfl

theorem pathIndexed_newManifest (sha1 : GoString → Digest) (disk : Disk) (now : Time)
    (files : List File) : (newManifest sha1 disk now files).PathIndexed :=
  (pathIndexed_empty.update sha1 disk now files).setCreated _

/-! ## Removal -/

/-- `removeEntry` of an entry's pointer never panics; afterwards the invariant holds and the
manifest, as a map from path to entry, has lost exactly that entry's path. -/
theorem PathIndexed.removeEntry (indexed : manifest.PathIndexed) {ptr : EntryPtr}
    (member : ptr ∈ manifest.entries) :
    ∃ after, manifest.removeEntry ptr = some after ∧ after.PathIndexed ∧
      ∀ path, after.lookup path =
        if path = manifest.pathOf ptr then none else manifest.lookup path := by
  obtain ⟨init, last, split⟩ : ∃ init last, manifest.entries = init ++ [last] := by
    rcases List.eq_nil_or_concat manifest.entries with empty | ⟨init, last, split⟩
    · simp [empty] at member
    · exact ⟨init, last, by simpa using split⟩
  have nodup : (init ++ [last]).Nodup := split ▸ indexed.nodup
  have lastFresh : last ∉ init := fun mem => by simp_all [List.nodup_append]
  have inEntries : ∀ other ∈ init, other ∈ manifest.entries := fun other mem => by simp [split, mem]
  have lastMem : last ∈ manifest.entries := by simp [split]
  have samePtr : ∀ other ∈ manifest.entries, manifest.pathOf other = manifest.pathOf ptr →
      other = ptr := fun other mem same => indexed.eq_of_pathOf_eq mem member same
  have lastPath : manifest.pathOf last = manifest.pathOf ptr → last = ptr := samePtr last lastMem
  refine ⟨{ manifest with
      heap := Function.update manifest.heap ptr (manifest.heap last)
      pathMap := Function.update (Function.update manifest.pathMap (manifest.pathOf last)
        (some ptr)) (manifest.pathOf ptr) none
      entries := init }, by simp [Manifest.removeEntry, split, pathOf],
    ⟨?_, ?_, fun other mem => ?_, fun path other found => ?_⟩, fun path => ?_⟩
  · exact nodup.sublist (List.sublist_append_left _ _)
  · exact fun other mem => indexed.allocated other (inEntries other mem)
  · have otherLast : other ≠ last := fun same => lastFresh (same ▸ mem)
    by_cases atPtr : other = ptr
    · subst atPtr
      have : manifest.pathOf last ≠ manifest.pathOf other := fun same => otherLast (lastPath same).symm
      simp [Function.update_apply, pathOf] at this ⊢
      simp [this]
    · have oldPath : (manifest.heap other).file.path ≠ manifest.pathOf ptr := fun same =>
        atPtr (samePtr other (inEntries other mem) same)
      have otherPath : (manifest.heap other).file.path ≠ manifest.pathOf last := fun same =>
        otherLast (indexed.eq_of_pathOf_eq (inEntries other mem) lastMem same)
      show Function.update _ _ _
        ((Function.update manifest.heap ptr (manifest.heap last) other).file.path) = _
      rw [Function.update_noteq atPtr, Function.update_noteq oldPath,
        Function.update_noteq otherPath]
      exact indexed.indexed other (inEntries other mem)
  · simp only [Function.update_apply] at found ⊢
    split_ifs at found with atOld atLast
    · obtain rfl := Option.some.inj found
      have ptrInit : ptr ∈ init := by
        rcases List.mem_append.1 (split ▸ member) with mem | mem
        · exact mem
        · exact absurd (by rw [atLast, List.mem_singleton.1 mem]) atOld
      exact ⟨ptrInit, by simp [atLast, pathOf]⟩
    · obtain ⟨mem, samePath⟩ := indexed.sound path other found
      have notPtr : other ≠ ptr := fun same => atOld (by rw [← samePath, same]; rfl)
      have notLast : other ≠ last := fun same => atLast (by rw [← samePath, same]; rfl)
      refine ⟨?_, by simp [notPtr, samePath]⟩
      rcases List.mem_append.1 (split ▸ mem) with mem | mem
      · exact mem
      · exact absurd (List.mem_singleton.1 mem) notLast
  · simp only [lookup, Function.update_apply]
    split_ifs with atOld atLast
    · rfl
    · subst atLast
      simp [pathOf, indexed.indexed last lastMem]
    · cases found : manifest.pathMap path with
      | none => rfl
      | some other =>
        have notPtr : other ≠ ptr := fun same =>
          atOld (by rw [← (indexed.sound path other found).2, same]; rfl)
        simp [notPtr]

/-- `Remove` never panics on an indexed manifest; it reports whether the path was a key,
keeps the invariant, and deletes exactly that path from the map view. -/
theorem PathIndexed.remove (indexed : manifest.PathIndexed) (file : File) :
    ∃ after, manifest.remove file = some ((manifest.pathMap file.path).isSome, after) ∧
      after.PathIndexed ∧
      ∀ path, after.lookup path = if path = file.path then none else manifest.lookup path := by
  cases found : manifest.pathMap file.path with
  | none =>
    refine ⟨manifest, by simp [Manifest.remove, found], indexed, fun path => ?_⟩
    split_ifs with same
    · simp [lookup, same, found]
    · rfl
  | some ptr =>
    obtain ⟨member, samePath⟩ := indexed.sound _ _ found
    obtain ⟨after, removed, indexed', lookup'⟩ := indexed.removeEntry member
    refine ⟨after, by simp [Manifest.remove, found, removed], indexed', fun path => ?_⟩
    rw [lookup', pathOf, samePath]

/-! ## Reachable manifests -/

/-- The manifests the program builds: `NewManifest`, then any sequence of `Update` and
`Remove` calls, each with its own files, clock and filesystem. -/
inductive Reachable (sha1 : GoString → Digest) : Manifest → Prop
  | newManifest (disk : Disk) (now : Time) (files : List File) :
    Reachable sha1 (newManifest sha1 disk now files)
  | update {manifest : Manifest} (disk : Disk) (now : Time) (files : List File) :
    Reachable sha1 manifest → Reachable sha1 (manifest.update sha1 disk now files)
  | remove {manifest after : Manifest} {found : Bool} (file : File) :
    Reachable sha1 manifest → manifest.remove file = some (found, after) → Reachable sha1 after

theorem Reachable.pathIndexed {sha1 : GoString → Digest} (reach : Reachable sha1 manifest) :
    manifest.PathIndexed := by
  induction reach with
  | newManifest disk now files => exact pathIndexed_newManifest sha1 disk now files
  | update disk now files _ indexed => exact indexed.update sha1 disk now files
  | remove file _ removed indexed =>
    obtain ⟨_, removed', indexed', -⟩ := indexed.remove file
    rw [removed] at removed'
    cases removed'
    exact indexed'

/-- Every manifest built by `NewManifest`, `Update` and `Remove` has pairwise distinct entry
paths, has the entry paths as the keys of `pathMap`, and maps each entry's path to the entry's
own pointer; `Remove` on it returns whether the path was a key and deletes exactly that path
from the manifest read as a map from path to entry. -/
theorem reachable_path_index {sha1 : GoString → Digest} (reach : Reachable sha1 manifest) :
    (manifest.entries.map manifest.pathOf).Nodup ∧
    (∀ path, (manifest.pathMap path).isSome ↔
      ∃ ptr ∈ manifest.entries, manifest.pathOf ptr = path) ∧
    (∀ ptr ∈ manifest.entries, manifest.pathMap (manifest.pathOf ptr) = some ptr) ∧
    ∀ file, ∃ after, manifest.remove file = some ((manifest.pathMap file.path).isSome, after) ∧
      ∀ path, after.lookup path = if path = file.path then none else manifest.lookup path :=
  have indexed := reach.pathIndexed
  ⟨indexed.nodup_paths, indexed.isSome_iff, indexed.indexed, fun file =>
    let ⟨after, removed, _, lookup⟩ := indexed.remove file
    ⟨after, removed, lookup⟩⟩

/-- `reachable_path_index` on a one-file `NewManifest`. -/
theorem reachable_path_index_newManifest :
    let sha1 : GoString → Digest := fun _ => Digest.zero
    let manifest := newManifest sha1 ⟨fun _ => [], fun _ => []⟩ Time.zero [default]
    Reachable sha1 manifest ∧
    (manifest.entries.map manifest.pathOf).Nodup ∧
    (∀ path, (manifest.pathMap path).isSome ↔
      ∃ ptr ∈ manifest.entries, manifest.pathOf ptr = path) ∧
    (∀ ptr ∈ manifest.entries, manifest.pathMap (manifest.pathOf ptr) = some ptr) ∧
    ∀ file, ∃ after, manifest.remove file = some ((manifest.pathMap file.path).isSome, after) ∧
      ∀ path, after.lookup path = if path = file.path then none else manifest.lookup path :=
  ⟨Reachable.newManifest _ _ _, reachable_path_index (Reachable.newManifest _ _ _)⟩

end Manifest

end Backup

end IncBackup
