import IncBackup.Backup.PathIndex

/-!
# What `Compare` and `HasIdentical` accept

The backup side asks `Compare` which scanned records must be uploaded again; the
restore side asks `HasIdentical` which entries are already on disk.  For a
single record whose checksum is already the one the checksum pass computes,
`Compare` leaves the record out exactly when the entry at its path has its size
(unless the record is a directory) and its modification time or else its
checksum.  `HasIdentical` asks the same of the entry's size, time and checksum,
and asks in addition that the entry have the record's mode: a change of mode
bits alone is invisible to `Compare`.
-/

namespace IncBackup

namespace Backup

open Manifest

variable (sha1 : GoString → Digest) (disk : Disk)

/-- A checksum pass over records that are already checksummed changes nothing. -/
theorem checksumFilesFS_of_checksummed (groups : List (List File))
    (filled : ∀ group ∈ groups, ∀ file ∈ group, file.Checksummed sha1 disk) :
    checksumFilesFS sha1 disk groups = groups := by
  unfold checksumFilesFS
  split_ifs
  · conv_rhs => rw [← List.map_id groups]
    refine List.map_congr_left fun group member => ?_
    conv_rhs => rw [← List.map_id group]
    exact List.map_congr_left fun file member' => filled group member file member'
  · rfl

/-- The relation under which `Compare` leaves a record out: same size unless the record is a
directory, and same modification time or else same checksum. -/
def Unchanged (entry record : File) : Prop :=
  (record.isDir = true ∨ entry.size = record.size) ∧
    (entry.modTime.Equal record.modTime = true ∨ entry.sha1 = record.sha1)

instance (entry record : File) : Decidable (Unchanged entry record) :=
  inferInstanceAs (Decidable (_ ∧ _))

/-- `Compare` of a single checksummed record returns nothing or the record itself. -/
theorem compare_singleton (manifest : Manifest) {record : File}
    (filled : record.Checksummed sha1 disk) :
    manifest.compare sha1 disk [record] =
      match manifest.lookup record.path with
      | some entry => if Unchanged entry.file record then [] else [record]
      | none => [record] := by
  have fixed : ∀ groups : List (List File), (∀ group ∈ groups, ∀ file ∈ group, file = record) →
      checksumFilesFS sha1 disk groups = groups := fun groups only =>
    checksumFilesFS_of_checksummed sha1 disk groups fun group member file member' =>
      (only group member file member') ▸ filled
  unfold Manifest.compare
  cases found : manifest.pathMap record.path with
  | none => simp [compareStep, found, lookup, fixed [[], [record]] (by simp)]
  | some ptr =>
    simp only [List.foldl, compareStep, found, lookup, Option.map_some']
    set entry := (manifest.heap ptr).file with entryDef
    by_cases size : record.isDir = false ∧ record.size ≠ entry.size
    · have stale : ¬ Unchanged entry record := fun ⟨same, _⟩ => by
        rcases same with directory | same
        · simp [size.1] at directory
        · exact size.2 same.symm
      simp [size, stale, fixed [[], [record]] (by simp)]
    · have sizeOk : record.isDir = true ∨ entry.size = record.size := by
        by_cases directory : record.isDir = true
        · exact Or.inl directory
        · exact Or.inr (by_contra fun differ => size ⟨by simpa using directory,
            fun same => differ same.symm⟩)
      have notSize : (!record.isDir && record.size != entry.size) = false := by
        rcases sizeOk with directory | same
        · simp [directory]
        · simp [same]
      by_cases time : entry.modTime.Equal record.modTime = true
      · have notTime : (!record.modTime.Equal entry.modTime) = false := by
          rw [Time.equal_comm, time]; rfl
        simp [notSize, notTime, fixed [[], []] (by simp), Unchanged, sizeOk, time]
      · have touched : (!record.modTime.Equal entry.modTime) = true := by
          rw [Time.equal_comm, Bool.eq_false_iff.2 time]; rfl
        simp only [notSize, touched, if_true, if_false, Bool.false_eq_true, List.nil_append,
          fixed [[record], []] (by simp), List.foldl, promoteTouched, found]
        by_cases sum : entry.sha1 = record.sha1
        · simp [← entryDef, Unchanged, sizeOk, sum]
        · simp [← entryDef, Unchanged, time, sum, Ne.symm sum]

/-- `HasIdentical` is `Unchanged` together with equal modes. -/
theorem hasIdentical_iff (manifest : Manifest) (record : File) :
    manifest.hasIdentical record = true ↔
      ∃ entry, manifest.lookup record.path = some entry ∧ Unchanged entry.file record ∧
        entry.file.mode = record.mode := by
  unfold hasIdentical
  cases found : manifest.pathMap record.path with
  | none => simp [lookup, found]
  | some ptr =>
    simp only [lookup, found, Option.map_some', Option.some.injEq, exists_eq_left']
    by_cases mode : (manifest.heap ptr).file.mode = record.mode
    · have sameDir : (manifest.heap ptr).file.isDir = record.isDir := by simp [File.isDir, mode]
      by_cases time : (manifest.heap ptr).file.modTime.Equal record.modTime
      · simp [Unchanged, mode, time, sameDir]
      · simp [Unchanged, mode, time, sameDir]
    · simp [mode]

/-- For one scanned record whose checksum is already filled, `Compare` leaves the record out
exactly when the entry at its path is `Unchanged`; `HasIdentical` accepts the record exactly
when `Compare` leaves it out and that entry also has the record's mode. -/
theorem compare_singleton_eq_nil_iff (manifest : Manifest) (record : File)
    (filled : record.Checksummed sha1 disk) :
    (manifest.compare sha1 disk [record] = [] ↔
      ∃ entry, manifest.lookup record.path = some entry ∧ Unchanged entry.file record) ∧
    (manifest.hasIdentical record = true ↔
      manifest.compare sha1 disk [record] = [] ∧
        ∃ entry, manifest.lookup record.path = some entry ∧ entry.file.mode = record.mode) := by
  rw [hasIdentical_iff, compare_singleton sha1 disk manifest filled]
  cases manifest.lookup record.path with
  | none => simp
  | some entry => by_cases unchanged : Unchanged entry.file record <;> simp [unchanged]

/-- A regular file `0644` stored by a backup. -/
def modeOnlyStored : File :=
  ⟨ascii "/home/user", ascii "notes", 5, ⟨0o644⟩, ⟨1700000000000000000, 0⟩, 1000, 1000,
    Digest.zero⟩

/-- The same file scanned again after a `chmod 600`: only its permission bits differ. -/
def modeOnlyScanned : File := { modeOnlyStored with mode := ⟨0o600⟩ }

/-- The filesystem of that run. -/
def modeOnlyDisk : Disk := ⟨fun _ => ascii "hello", fun _ => []⟩

/-- `compare_singleton_eq_nil_iff` at the permission-only change. -/
theorem compare_singleton_eq_nil_iff_modeOnly :
    let sha1 : GoString → Digest := fun _ => Digest.zero
    let manifest := newManifest sha1 modeOnlyDisk ⟨1700000000000000001, 0⟩ [modeOnlyStored]
    modeOnlyScanned.Checksummed sha1 modeOnlyDisk ∧
    (manifest.compare sha1 modeOnlyDisk [modeOnlyScanned] = [] ↔
      ∃ entry, manifest.lookup modeOnlyScanned.path = some entry ∧
        Unchanged entry.file modeOnlyScanned) ∧
    (manifest.hasIdentical modeOnlyScanned = true ↔
      manifest.compare sha1 modeOnlyDisk [modeOnlyScanned] = [] ∧
        ∃ entry, manifest.lookup modeOnlyScanned.path = some entry ∧
          entry.file.mode = modeOnlyScanned.mode) :=
  have filled : modeOnlyScanned.Checksummed (fun _ => Digest.zero) modeOnlyDisk := by decide
  ⟨filled, compare_singleton_eq_nil_iff _ _ _ _ filled⟩

/-- `Compare` and `HasIdentical` disagree on a record whose mode alone changed: in a manifest
built by `NewManifest`, `Compare` leaves it out and `HasIdentical` rejects it. -/
theorem compare_ignores_mode_change :
    let sha1 : GoString → Digest := fun _ => Digest.zero
    let manifest := newManifest sha1 modeOnlyDisk ⟨1700000000000000001, 0⟩ [modeOnlyStored]
    manifest.PathIndexed ∧ modeOnlyScanned.Checksummed sha1 modeOnlyDisk ∧
      manifest.compare sha1 modeOnlyDisk [modeOnlyScanned] = [] ∧
      manifest.hasIdentical modeOnlyScanned = false :=
  ⟨pathIndexed_newManifest _ _ _ _, by decide, by decide, by decide⟩

end Backup

end IncBackup
