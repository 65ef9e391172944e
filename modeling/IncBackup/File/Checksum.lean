import IncBackup.File.Path

/-!
# The checksum pass

`ChecksumFilesFS` fills the `SHA1` field of the regular files and symlinks of
one or more groups of records, reading file contents and link targets from a
filesystem.  If no such record lacks a checksum it does nothing at all;
otherwise it recomputes the checksum of every regular file and symlink, those
that already had one included.

The filesystem is read through a `Disk`: the bytes a read of a path returns
during the run.  A failed read ends the process with `log.Fatal`, so a run that
goes on has read every path it asked for.  SHA-1 itself is a parameter.
-/

namespace IncBackup

/-- What the program reads from a filesystem during one run. -/
structure Disk where
  /-- The contents of the regular file at a path. -/
  contents : GoString → GoString
  /-- `os.Readlink` of the symlink at a path. -/
  linkTarget : GoString → GoString

namespace File

variable (sha1 : GoString → Digest) (disk : Disk)

/-- The record with the checksum `ChecksumFilesFS` writes into it. -/
def checksummed (file : File) : File :=
  if file.isRegular then { file with sha1 := sha1 (disk.contents file.path) }
  else if file.isSymlink then { file with sha1 := sha1 (disk.linkTarget file.path) }
  else file

/-- The records counted by `ChecksumFilesFS`'s first loop. -/
def needsChecksum (file : File) : Bool :=
  (file.isRegular || file.isSymlink) && !file.hasChecksum

/-- A record the checksum pass leaves as it is: its checksum is already the one computed
from its contents, or it is neither a regular file nor a symlink. -/
def Checksummed (file : File) : Prop := file.checksummed sha1 disk = file

instance (file : File) : Decidable (file.Checksummed sha1 disk) :=
  inferInstanceAs (Decidable (_ = _))

@[simp]
theorem checksummed_path (file : File) : (file.checksummed sha1 disk).path = file.path := by
  unfold checksummed; split_ifs <;> rfl

@[simp]
theorem checksummed_mode (file : File) : (file.checksummed sha1 disk).mode = file.mode := by
  unfold checksummed; split_ifs <;> rfl

@[simp]
theorem checksummed_size (file : File) : (file.checksummed sha1 disk).size = file.size := by
  unfold checksummed; split_ifs <;> rfl

@[simp]
theorem checksummed_modTime (file : File) :
    (file.checksummed sha1 disk).modTime = file.modTime := by
  unfold checksummed; split_ifs <;> rfl

@[simp]
theorem checksummed_isDir (file : File) : (file.checksummed sha1 disk).isDir = file.isDir := by
  simp [isDir]

end File

/-- `file.ChecksumFilesFS`, returning the groups it updates in place. -/
def checksumFilesFS (sha1 : GoString → Digest) (disk : Disk) (groups : List (List File)) :
    List (List File) :=
  if groups.any (·.any File.needsChecksum) then groups.map (·.map (File.checksummed sha1 disk))
  else groups

/-- `file.ChecksumFiles(files)`: one group, on the default filesystem. -/
def checksumFiles (sha1 : GoString → Digest) (disk : Disk) (files : List File) : List File :=
  (checksumFilesFS sha1 disk [files]).flatten

end IncBackup
