import IncBackup.Store.Session

/-!
# File storage

`FileStorage` keeps each object of a store in a file below its root folder, at the path
`filepath.Join(root, key)`.  The disk is modelled as what each cleaned path holds, a directory
or the bytes of a file, the current directory and `/` being directories; the `os` calls that
`FileStorage` makes run on it one after the other, and fail with the error kind of the call.

A `PutReader` makes the parent directories of its path and writes the file there.  It changes
what no other path holds, and only adds directories; after one that returns no error, a
`GetReader` of the key reads back what was written (`fileStorage_reads_back`).

`Put` refuses the key `metadata`, under which the store keeps its salt, by comparing keys as
strings, while `FileStorage` looks keys up by the path they clean to.  So a key such as
`./metadata` is accepted, and its `Put` overwrites the store's metadata with the envelope of
its data (`put_overwrites_metadata`).
-/

namespace IncBackup

namespace Storage

open Store Crypto

/-! ## The disk -/

/-- What a path of the disk holds. -/
inductive Node where
  | dir
  | file (data : List UInt8)
deriving DecidableEq

/-- The disk `FileStorage` works on: what each cleaned path holds. -/
abbrev Volume := GoString → Option Node

/-- What a path holds: `/` and `.` are directories. -/
def lookup (volume : Volume) (path : GoString) : Option Node :=
  if path = [Filepath.separator] ∨ path = [Filepath.dot] then some .dir else volume path

/-- The parent directories of a path, nearest first: `filepath.Dir` until it stops changing. -/
def parents : Nat → GoString → List GoString
  | 0, _ => []
  | fuel + 1, path =>
    if Filepath.dir path = path then [] else Filepath.dir path :: parents fuel (Filepath.dir path)

/-- `ENOENT` after the name of a call. -/
def errNotExist (op : String) : String := op ++ ": no such file or directory"

/-- `ENOTDIR` after the name of a call. -/
def errNotDir (op : String) : String := op ++ ": not a directory"

/-- `EISDIR` after the name of a call. -/
def errIsDir (op : String) : String := op ++ ": is a directory"

/-- `EEXIST` after the name of a call. -/
def errExist (op : String) : String := op ++ ": file exists"

/-- `os.IsNotExist(err)`: the error kind is `ENOENT`. -/
def isNotExist (err : String) : Bool :=
  [errNotExist "stat", errNotExist "open", errNotExist "mkdir"].contains err

/-- The error of a call on a path that holds nothing: `ENOTDIR` where one of its parents is a
file, `ENOENT` otherwise. -/
def missing (volume : Volume) (op : String) (path : GoString) : String :=
  if (parents (path.length + 1) path).any fun parent =>
    match lookup volume parent with
    | some (.file _) => true
    | _ => false
  then errNotDir op else errNotExist op

/-! ## The `os` calls -/

/-- `os.Stat(path)`. -/
def stat (volume : Volume) (path : GoString) : Except String Node :=
  match lookup volume path with
  | some node => .ok node
  | none => .error (missing volume "stat" path)

/-- `os.Mkdir(path)`: a new directory in an existing one. -/
def mkdir (volume : Volume) (path : GoString) : Except String Volume :=
  match lookup volume path with
  | some _ => .error (errExist "mkdir")
  | none =>
    match lookup volume (Filepath.dir path) with
    | some .dir => .ok (Function.update volume path (some .dir))
    | some (.file _) => .error (errNotDir "mkdir")
    | none => .error (missing volume "mkdir" path)

/-- `os.MkdirAll(path)`: nothing where a directory is there, an error where a file is, and
otherwise the parents made first and then the directory. -/
def mkdirAll : Nat → Volume → GoString → Except String Volume
  | 0, volume, _ => .ok volume
  | fuel + 1, volume, path =>
    match lookup volume path with
    | some .dir => .ok volume
    | some (.file _) => .error (errNotDir "mkdir")
    | none =>
      let made := if Filepath.dir path = path then .ok volume
        else mkdirAll fuel volume (Filepath.dir path)
      match made with
      | .error err => .error err
      | .ok volume => mkdir volume path

/-- `os.OpenFile(path, O_WRONLY|O_CREATE|O_TRUNC, 0644)` and the `io.Copy` of `data` into it. -/
def writeFile (volume : Volume) (path : GoString) (data : List UInt8) : Except String Volume :=
  match lookup volume path with
  | some .dir => .error (errIsDir "open")
  | some (.file _) => .ok (Function.update volume path (some (.file data)))
  | none =>
    match lookup volume (Filepath.dir path) with
    | some .dir => .ok (Function.update volume path (some (.file data)))
    | some (.file _) => .error (errNotDir "open")
    | none => .error (missing volume "open" path)

/-- `os.Open(path)` and `ioutil.ReadAll` of the file. -/
def readFile (volume : Volume) (path : GoString) : Except String (List UInt8) :=
  match lookup volume path with
  | some (.file data) => .ok data
  | some .dir => .error (errIsDir "read")
  | none => .error (missing volume "open" path)

/-- `makeDir(path)` of the storage package: `MkdirAll` where `Stat` finds nothing. -/
def makeDir (volume : Volume) (path : GoString) : Except String Volume :=
  match stat volume path with
  | .ok _ => .ok volume
  | .error err => if isNotExist err then mkdirAll (path.length + 1) volume path else .error err

/-- `os.ErrPermission`. -/
def errPermission : String := "permission denied"

/-- `fs.Exists()`: a directory at the root, or a file, which `OpenFile` makes with the owner's
permissions. -/
def present (root : GoString) (volume : Volume) : Except String Bool :=
  match stat volume root with
  | .ok _ => .ok true
  | .error err => if isNotExist err then .ok false else .error err

/-- `FileStorage` of a root folder. -/
def fileStorage (root : GoString) : StorageLayer Volume where
  present := present root
  create volume :=
    match mkdirAll (root.length + 1) volume root with
    | .error err => (volume, some err)
    | .ok volume =>
      match present root volume with
      | .ok true => (volume, none)
      | .ok false => (volume, some errPermission)
      | .error err => (volume, some err)
  getReader volume key := readFile volume (Filepath.join root key)
  putReader volume key data :=
    match makeDir volume (Filepath.dir (Filepath.join root key)) with
    | .error err => (volume, some err)
    | .ok volume =>
      match writeFile volume (Filepath.join root key) data with
      | .error err => (volume, some err)
      | .ok volume => (volume, none)
  isNotExist := isNotExist

/-! ## What a `PutReader` changes -/

section Frame

variable {volume after : Volume} {path : GoString}

/-- Every path `volume` holds something at, `after` holds the same at. -/
def Grows (volume after : Volume) : Prop :=
  ∀ ⦃p node⦄, lookup volume p = some node → lookup after p = some node

theorem Grows.refl (volume : Volume) : Grows volume volume := fun _ _ => id

theorem Grows.trans {middle : Volume} (first : Grows volume middle) (second : Grows middle after) :
    Grows volume after := fun _ _ held => second (first held)

theorem lookup_update_of_ne {other : GoString} (ne : other ≠ path) (node : Option Node) :
    lookup (Function.update volume path node) other = lookup volume other := by
  simp only [lookup, Function.update_noteq ne]

/-- Setting a path that holds nothing adds to what the disk holds. -/
theorem grows_update_of_none (absent : lookup volume path = none) (node : Option Node) :
    Grows volume (Function.update volume path node) := fun p _ held => by
  have ne : p ≠ path := by rintro rfl; simp [absent] at held
  rwa [lookup_update_of_ne ne]

theorem mkdir_grows (made : mkdir volume path = .ok after) : Grows volume after := by
  unfold mkdir at made
  split at made
  · cases made
  · rename_i absent
    split at made <;> cases made
    exact grows_update_of_none absent _

theorem mkdirAll_grows : ∀ {fuel : Nat} {volume after : Volume} {path : GoString},
    mkdirAll fuel volume path = .ok after → Grows volume after
  | 0, _, _, _, made => by cases made; exact Grows.refl _
  | fuel + 1, volume, after, path, made => by
    simp only [mkdirAll] at made
    split at made
    · cases made; exact Grows.refl _
    · cases made
    · split at made
      · cases made
      · rename_i middle parent
        refine Grows.trans ?_ (mkdir_grows made)
        split at parent
        · cases parent; exact Grows.refl _
        · exact mkdirAll_grows parent

theorem makeDir_grows (made : makeDir volume path = .ok after) : Grows volume after := by
  unfold makeDir at made
  split at made
  · cases made; exact Grows.refl _
  · split at made
    · exact mkdirAll_grows made
    · cases made

/-- A `writeFile` that returns no error puts the data at its path, which is neither `/` nor
`.`, and changes nothing else. -/
theorem writeFile_eq_ok {data : List UInt8} (written : writeFile volume path data = .ok after) :
    after = Function.update volume path (some (.file data)) ∧
      lookup after path = some (.file data) := by
  have plain : ¬(path = [Filepath.separator] ∨ path = [Filepath.dot]) := by
    intro special
    simp [writeFile, lookup, special] at written
  unfold writeFile at written
  split at written
  · cases written
  · cases written; simp [lookup, plain]
  · split at written <;> cases written
    simp [lookup, plain]

end Frame

section Objects

variable {root : GoString} {volume : Volume} {key : GoString} {data : List UInt8}

/-- Whatever a `PutReader` returns, every other path holds what it held. -/
theorem putReader_keeps {p : GoString} {node : Node} (other : p ≠ Filepath.join root key)
    (held : lookup volume p = some node) :
    lookup ((fileStorage root).putReader volume key data).1 p = some node := by
  rcases made : makeDir volume (Filepath.dir (Filepath.join root key)) with _ | middle
  · simpa only [fileStorage, made]
  have grown := makeDir_grows made held
  rcases written : writeFile middle (Filepath.join root key) data with _ | after
  · simpa only [fileStorage, made, written]
  simp only [fileStorage, made, written, (writeFile_eq_ok written).1, lookup_update_of_ne other]
  exact grown

/-- A `PutReader` that returns no error leaves the data at the key's path. -/
theorem putReader_eq_none {after : Volume}
    (stored : (fileStorage root).putReader volume key data = (after, none)) :
    lookup after (Filepath.join root key) = some (.file data) := by
  rcases made : makeDir volume (Filepath.dir (Filepath.join root key)) with _ | middle
  · simp [fileStorage, made] at stored
  rcases written : writeFile middle (Filepath.join root key) data with _ | after'
  · simp [fileStorage, made, written] at stored
  simp only [fileStorage, made, written, Prod.mk.injEq] at stored
  rw [← stored.1]
  exact (writeFile_eq_ok written).2

/-- A read that returned data returns it still from a disk that holds what its path held. -/
theorem readFile_of_kept {volume' : Volume} {p : GoString} {found : List UInt8}
    (read : readFile volume p = .ok found)
    (kept : ∀ {node}, lookup volume p = some node → lookup volume' p = some node) :
    readFile volume' p = .ok found := by
  unfold readFile at read ⊢
  split at read <;> cases read
  rename_i held
  rw [kept held]

/-- `FileStorage` reads back what it wrote and keeps every other object: after a `PutReader`
that returns no error, a `GetReader` of its key returns the data; and whatever a `PutReader`
returns, a `GetReader` of a key at another path that returned data returns it still. -/
theorem fileStorage_reads_back (root : GoString) (volume : Volume) (key : GoString)
    (data : List UInt8) :
    (∀ after, (fileStorage root).putReader volume key data = (after, none) →
      (fileStorage root).getReader after key = .ok data) ∧
    ∀ key' data', Filepath.join root key' ≠ Filepath.join root key →
      (fileStorage root).getReader volume key' = .ok data' →
      (fileStorage root).getReader ((fileStorage root).putReader volume key data).1 key' =
        .ok data' :=
  ⟨fun _ stored => by simp only [fileStorage, readFile, putReader_eq_none stored],
    fun _ _ other read => readFile_of_kept read (putReader_keeps other)⟩

end Objects

/-! ## A key at the metadata's path -/

section Aliasing

variable {lib : Library} {root : GoString}

/-- `Put` refuses the key `metadata`, but not the keys that clean to its path below the root:
over `FileStorage`, a `Put` of such a key that returns no error leaves the envelope of its data
where the store keeps its metadata. -/
theorem put_overwrites_metadata {s : Store Volume} {iv : Block} {key : GoString}
    {data : List UInt8} {n : Nat}
    (aliased : Filepath.join root key = Filepath.join root Metadata.metadataKey)
    (stored : (s.put lib (fileStorage root) iv key data).1 = .ok n) :
    ∃ enc envelope, s.enc = some enc ∧
      encrypt lib.hmac enc iv (lib.gzip.compress data) = some envelope ∧
      (fileStorage root).getReader (s.put lib (fileStorage root) iv key data).2.layer
        Metadata.metadataKey = .ok envelope := by
  rcases put_cases s iv key data with
    ⟨err, refused⟩ | ⟨-, enc, envelope, connected, sealed, written⟩
  · rw [refused] at stored; cases stored
  rw [written] at stored ⊢
  refine ⟨enc, envelope, connected, sealed, ?_⟩
  change readFile _ (Filepath.join root Metadata.metadataKey) = _
  rw [← aliased]
  simp only [readFile, putReader_eq_none (putCiphertext_ok stored)]

end Aliasing

/-- A disk whose one directory below `/` is `/s`. -/
def sampleVolume : Volume := fun path => if path = ascii "/s" then some .dir else none

theorem fileStorage_reads_back_sample :
    (fileStorage (ascii "/s")).putReader sampleVolume (ascii "a") [7] =
      (Function.update sampleVolume (ascii "/s/a") (some (.file [7])), none) ∧
    (fileStorage (ascii "/s")).getReader
      (Function.update sampleVolume (ascii "/s/a") (some (.file [7]))) (ascii "a") = .ok [7] :=
  ⟨rfl, (fileStorage_reads_back (ascii "/s") sampleVolume (ascii "a") [7]).1 _ rfl⟩

/-- A store opened on the `FileStorage` of `/s`. -/
def sampleFileStore : Store Volume := { newStore sampleVolume [] with enc := some plainCrypter }

theorem put_overwrites_metadata_dot :
    ascii "./metadata" ≠ Metadata.metadataKey ∧ ∃ n,
      (sampleFileStore.put sampleLibrary (fileStorage (ascii "/s")) zeroIv (ascii "./metadata")
        [7]).1 = .ok n ∧
      ∃ enc envelope, sampleFileStore.enc = some enc ∧
        encrypt sampleLibrary.hmac enc zeroIv (sampleLibrary.gzip.compress [7]) = some envelope ∧
        (fileStorage (ascii "/s")).getReader (sampleFileStore.put sampleLibrary
          (fileStorage (ascii "/s")) zeroIv (ascii "./metadata") [7]).2.layer
          Metadata.metadataKey = .ok envelope := by
  have aliased : Filepath.join (ascii "/s") (ascii "./metadata") =
      Filepath.join (ascii "/s") Metadata.metadataKey := by decide
  have allowed : ascii "./metadata" ≠ Metadata.metadataKey := by decide
  have accepted : ∀ data, (fileStorage (ascii "/s")).putReader sampleVolume (ascii "./metadata")
      data = (Function.update sampleVolume (ascii "/s/metadata") (some (.file data)), none) :=
    fun _ => rfl
  obtain ⟨_, _, -, drained⟩ := drain_encryptReader sampleLibrary.hmac plainCrypter zeroIv
    (sampleLibrary.gzip.compress [7])
  obtain ⟨n, stored⟩ : ∃ n, (sampleFileStore.put sampleLibrary (fileStorage (ascii "/s")) zeroIv
      (ascii "./metadata") [7]).1 = .ok n := by
    simp [put, sampleFileStore, newStore, allowed, drained, putCiphertext, accepted]
  exact ⟨allowed, n, stored, put_overwrites_metadata aliased stored⟩

end Storage

end IncBackup
