import IncBackup.Main.Setup

/-!
# The config file

`main` keeps the store's keys, its S3 settings and the paths to back up in a JSON config
file.  `LoadConfigFile` reads a version 1 file, the store's settings at the top level, or a
version 2 one, and `WriteToFile` writes version 2.  Every config `main` holds is of version 2
(`loadConfigFile_version`), so each config it saves reads back as itself: each string as the
decoder reads what the encoder wrote for it, and the keys exactly, through base64
(`saved_config_reloads`).

`main` loads the config, sets up the store, and saves the config when `setupStore` changed
its keys.  The keys `inc init` derives so reach the runs after it: a later run that neither
initializes the store nor gives a password opens it with the saved keys, and gets back every
object put since (`saved_keys_reopen_store`).
-/

namespace IncBackup

namespace Main

open Json Store Crypto

/-! ## The config -/

/-- `store.S3Config`. -/
structure S3Config where
  s3Region : GoString
  s3Bucket : GoString
  awsAccessKey : GoString
  awsSecretKey : GoString
deriving DecidableEq

/-- `LocalConfigStore`, which embeds `store.S3Config` and `store.Keys`. -/
structure LocalConfigStore where
  s3 : S3Config
  keys : Keys
deriving DecidableEq

/-- `LocalConfig`. -/
structure LocalConfig where
  version : Int
  store : LocalConfigStore
  paths : LocalConfigPaths
deriving DecidableEq

/-- The zero `LocalConfig`, which `LoadConfigFile` fills. -/
def zeroConfig : LocalConfig := ⟨0, ⟨⟨[], [], [], []⟩, ⟨[], []⟩⟩, ⟨[], []⟩⟩

/-- `NewConfig()`. -/
def newConfig : LocalConfig := { zeroConfig with version := 2 }

/-- `ErrMalformedConfig`. -/
def errMalformedConfig : String := "malformed config data"

/-- `ErrBadVersion`. -/
def errBadVersion : String := "bad version"

/-! ## Writing -/

/-- `json.Marshal` of a `[]byte`: its base64, and `null` for a nil slice. -/
def bytesJson (bytes : List UInt8) : Json :=
  if bytes = [] then .null else .string (Backup.base64Encode bytes)

/-- `json.Marshal` of a `[]string`: `null` for a nil slice. -/
def stringsJson (strings : List GoString) : Json :=
  if strings = [] then .null else .array (strings.map .string)

/-- `json.Marshal` of a `LocalConfigStore`: the fields of the embedded structs in place. -/
def LocalConfigStore.toJson (store : LocalConfigStore) : Json :=
  .object [(ascii "s3Region", .string store.s3.s3Region),
    (ascii "s3Bucket", .string store.s3.s3Bucket),
    (ascii "awsAccessKey", .string store.s3.awsAccessKey),
    (ascii "awsSecretKey", .string store.s3.awsSecretKey),
    (ascii "encKey", bytesJson store.keys.encKey), (ascii "authKey", bytesJson store.keys.authKey)]

/-- `json.Marshal` of a `LocalConfigPaths`. -/
def LocalConfigPaths.toJson (paths : LocalConfigPaths) : Json :=
  .object [(ascii "include", stringsJson paths.includes),
    (ascii "exclude", stringsJson paths.excludes)]

/-- `json.Marshal(cfg)`, the text `WriteToFile` writes, as the value it encodes. -/
def LocalConfig.toJson (cfg : LocalConfig) : Json :=
  .object [(ascii "version", .number cfg.version), (ascii "store", cfg.store.toJson),
    (ascii "paths", cfg.paths.toJson)]

/-- `cfg.Equal(other)`: the two configs marshal to the same text. -/
def LocalConfig.Equal (cfg other : LocalConfig) : Prop := cfg.toJson = other.toJson

theorem bytesJson_injective : Function.Injective bytesJson := by
  intro bytes bytes' same
  unfold bytesJson at same
  split at same <;> split at same <;> simp_all
  simpa [Backup.base64Decode_base64Encode] using congrArg Backup.base64Decode same

theorem stringsJson_injective : Function.Injective stringsJson := by
  intro strings strings' same
  unfold stringsJson at same
  split at same <;> split at same <;> simp_all
  exact List.map_injective_iff.2 (fun _ _ => Json.string.inj) same

/-- `json.Marshal` tells configs apart, so `Equal` is the equality of configs. -/
theorem LocalConfig.toJson_injective : Function.Injective LocalConfig.toJson := by
  rintro ⟨_, ⟨⟨_, _, _, _⟩, ⟨_, _⟩⟩, ⟨_, _⟩⟩ ⟨_, ⟨⟨_, _, _, _⟩, ⟨_, _⟩⟩, ⟨_, _⟩⟩ same
  simp only [LocalConfig.toJson, LocalConfigStore.toJson, LocalConfigPaths.toJson,
    Json.object.injEq, List.cons.injEq, Prod.mk.injEq, Json.number.injEq, Json.string.injEq,
    true_and, and_true] at same
  obtain ⟨rfl, ⟨rfl, rfl, rfl, rfl, encKey, authKey⟩, includes, excludes⟩ := same
  rw [bytesJson_injective encKey, bytesJson_injective authKey, stringsJson_injective includes,
    stringsJson_injective excludes]

instance (cfg other : LocalConfig) : Decidable (cfg.Equal other) :=
  decidable_of_iff (cfg = other) ⟨congrArg _, fun same => LocalConfig.toJson_injective same⟩

/-! ## Reading -/

/-- The items of an array decoded in turn into the elements of a `[]string` that holds
`current`, over a zero string past its end. -/
def decodeItems : List GoString → List Json → Except String (List GoString)
  | _, [] => .ok []
  | current, item :: items =>
    (decodeString (current.headD []) item).bind fun head =>
      (decodeItems current.tail items).map (head :: ·)

/-- `json.Unmarshal` into a `[]string` that holds `current`: `null` gives a nil slice. -/
def decodeStrings (current : List GoString) : Json → Except String (List GoString)
  | .null => .ok []
  | .array items => decodeItems current items
  | value => .error (typeError value "[]string")

/-- One key of an object decoded into a `LocalConfigPaths`; other keys are skipped. -/
def pathsField (paths : LocalConfigPaths) (field : GoString × Json) :
    Except String LocalConfigPaths :=
  if Backup.keyMatches field.1 (ascii "include") then
    (decodeStrings paths.includes field.2).map fun includes => { paths with includes }
  else if Backup.keyMatches field.1 (ascii "exclude") then
    (decodeStrings paths.excludes field.2).map fun excludes => { paths with excludes }
  else .ok paths

/-- `json.Unmarshal` into a `LocalConfigPaths` that holds `current`. -/
def decodePaths (current : LocalConfigPaths) : Json → Except String LocalConfigPaths
  | .null => .ok current
  | .object fields => fields.foldlM pathsField current
  | value => .error (typeError value "main.LocalConfigPaths")

/-- One key of an object decoded into a `LocalConfigStore`, the fields of the embedded
structs matched as its own; other keys are skipped. -/
def storeField (store : LocalConfigStore) (field : GoString × Json) :
    Except String LocalConfigStore :=
  let s3 := store.s3
  if Backup.keyMatches field.1 (ascii "s3Region") then
    (decodeString s3.s3Region field.2).map fun s3Region => { store with s3 := { s3 with s3Region } }
  else if Backup.keyMatches field.1 (ascii "s3Bucket") then
    (decodeString s3.s3Bucket field.2).map fun s3Bucket => { store with s3 := { s3 with s3Bucket } }
  else if Backup.keyMatches field.1 (ascii "awsAccessKey") then
    (decodeString s3.awsAccessKey field.2).map fun awsAccessKey =>
      { store with s3 := { s3 with awsAccessKey } }
  else if Backup.keyMatches field.1 (ascii "awsSecretKey") then
    (decodeString s3.awsSecretKey field.2).map fun awsSecretKey =>
      { store with s3 := { s3 with awsSecretKey } }
  else if Backup.keyMatches field.1 (ascii "encKey") then
    (Backup.decodeBytes field.2).map fun encKey => { store with keys := { store.keys with encKey } }
  else if Backup.keyMatches field.1 (ascii "authKey") then
    (Backup.decodeBytes field.2).map fun authKey =>
      { store with keys := { store.keys with authKey } }
  else .ok store

/-- `json.Unmarshal` into a `LocalConfigStore` that holds `current`. -/
def decodeStore (current : LocalConfigStore) : Json → Except String LocalConfigStore
  | .null => .ok current
  | .object fields => fields.foldlM storeField current
  | value => .error (typeError value "main.LocalConfigStore")

/-- One key of an object decoded into a `LocalConfig`; other keys are skipped. -/
def configField (cfg : LocalConfig) (field : GoString × Json) : Except String LocalConfig :=
  if Backup.keyMatches field.1 (ascii "version") then
    (decodeInt cfg.version field.2).map fun version => { cfg with version }
  else if Backup.keyMatches field.1 (ascii "store") then
    (decodeStore cfg.store field.2).map fun store => { cfg with store }
  else if Backup.keyMatches field.1 (ascii "paths") then
    (decodePaths cfg.paths field.2).map fun paths => { cfg with paths }
  else .ok cfg

/-- `json.Unmarshal` into a `LocalConfig` that holds `current`. -/
def decodeConfig (current : LocalConfig) : Json → Except String LocalConfig
  | .null => .ok current
  | .object fields => fields.foldlM configField current
  | value => .error (typeError value "main.LocalConfig")

/-- `LoadConfigFile(filePath)`, with `file` what `file.ReadFile` returns: its error, or the
value its text encodes, none when it is not JSON.  A version 1 file holds the store's
settings at the top level. -/
def loadConfigFile : Except String (Option Json) → Except String LocalConfig
  | .error err => .error err
  | .ok none => .error errMalformedConfig
  | .ok (some document) =>
    match Backup.parseVersionJSON document with
    | some 1 => (decodeStore newConfig.store document).map fun store => { newConfig with store }
    | some 2 => decodeConfig zeroConfig document
    | some _ => .error errBadVersion
    | none => .error errMalformedConfig

/-! ## `main` -/

/-- `loadConfig(opt)`, with `file` what reading `opt.configPath` gives: the config loaded, or
a new one where loading fails, and that config with the command line's S3 settings. -/
def loadConfig (file : Except String (Option Json)) (opt : Options) : LocalConfig × LocalConfig :=
  let cfg := match loadConfigFile file with
    | .ok cfg => cfg
    | .error _ => newConfig
  let pick := fun (flag setting : GoString) => if flag ≠ [] then flag else setting
  (cfg, { cfg with store := { cfg.store with s3 :=
    ⟨pick opt.s3Region cfg.store.s3.s3Region, pick opt.s3Bucket cfg.store.s3.s3Bucket,
      pick opt.awsAccessKey cfg.store.s3.awsAccessKey,
      pick opt.awsSecretKey cfg.store.s3.awsSecretKey⟩ } })

/-- What `main` leaves before it backs up or restores: the store `setupStore` made, the config
it writes to the config path, if any, and the error it exits with. -/
structure Setup (ω : Type) where
  bucket : Option (Store ω)
  saved : Option LocalConfig
  result : Except String Unit

variable {ω : Type} (lib : Library) (layer : StorageLayer ω)

/-- `main` up to its backup or restore, with `scanOnly` unset: it loads the config, sets up
the store with the config's store settings, exits on an error, and saves the config where it
changed.  `newStoreS3` is what `store.NewStoreS3` returns for the S3 settings. -/
def mainSetup (newStoreS3 : S3Config → Except String (Store ω)) (fileStorage : GoString → ω)
    (salt : Except String (List UInt8)) (file : Except String (Option Json)) (opt : Options) :
    Setup ω :=
  match loadConfig file opt with
  | (original, cfg) =>
    match setupStore lib layer (newStoreS3 cfg.store.s3) fileStorage salt cfg.store.keys opt with
    | (_, bucket, .error err) => ⟨bucket, none, .error err⟩
    | (keys, bucket, .ok ()) =>
      let cfg := { cfg with store := { cfg.store with keys } }
      if original.Equal cfg then ⟨bucket, none, .ok ()⟩ else ⟨bucket, some cfg, .ok ()⟩

/-! ## A saved config reads back -/

/-- The S3 settings as they read back: each string as the decoder reads what the encoder
wrote for it. -/
def S3Config.reread (s3 : S3Config) : S3Config :=
  ⟨rereadString s3.s3Region, rereadString s3.s3Bucket, rereadString s3.awsAccessKey,
    rereadString s3.awsSecretKey⟩

/-- A config as it reads back: each string as the decoder reads what the encoder wrote for
it. -/
def LocalConfig.reread (cfg : LocalConfig) : LocalConfig :=
  ⟨cfg.version, { cfg.store with s3 := cfg.store.s3.reread },
    ⟨cfg.paths.includes.map rereadString, cfg.paths.excludes.map rereadString⟩⟩

section RoundTrip

theorem reread_object (fields : List (GoString × Json)) :
    (Json.object fields).reread = .object (Json.reread.rereadFields fields) := rfl

theorem rereadItems_map_string (strings : List GoString) :
    Json.reread.rereadItems (strings.map .string) = (strings.map rereadString).map .string := by
  induction strings with
  | nil => rfl
  | cons head rest more => simp only [List.map_cons, Json.reread.rereadItems, Json.reread, more]

@[simp]
theorem reread_bytesJson (bytes : List UInt8) : (bytesJson bytes).reread = bytesJson bytes := by
  unfold bytesJson
  split
  · rfl
  · simp only [Json.reread,
      rereadString_of_ascii fun byte mem => (Backup.base64Encode_ascii bytes byte mem).1]

@[simp]
theorem reread_stringsJson (strings : List GoString) :
    (stringsJson strings).reread = stringsJson (strings.map rereadString) := by
  unfold stringsJson
  split <;> simp_all [Json.reread, rereadItems_map_string]

@[simp]
theorem decodeBytes_bytesJson (bytes : List UInt8) :
    Backup.decodeBytes (bytesJson bytes) = .ok bytes := by
  unfold bytesJson
  split
  · simp_all [Backup.decodeBytes]
  · exact Backup.base64Decode_base64Encode bytes

theorem decodeItems_map_string : ∀ (current strings : List GoString),
    decodeItems current (strings.map .string) = .ok strings
  | _, [] => rfl
  | current, _ :: rest => by
    simp only [List.map_cons, decodeItems, decodeString, decodeItems_map_string current.tail rest]
    rfl

@[simp]
theorem decodeStrings_stringsJson (current strings : List GoString) :
    decodeStrings current (stringsJson strings) = .ok strings := by
  unfold stringsJson
  split
  · simp_all [decodeStrings]
  · exact decodeItems_map_string current strings

theorem decodeStore_reread_toJson (current store : LocalConfigStore) :
    decodeStore current store.toJson.reread = .ok { store with s3 := store.s3.reread } := by
  simp +decide [LocalConfigStore.toJson, reread_object, Json.reread.rereadFields, Json.reread,
    decodeStore, storeField, decodeString, S3Config.reread]
  rfl

theorem decodePaths_reread_toJson (current paths : LocalConfigPaths) :
    decodePaths current paths.toJson.reread =
      .ok ⟨paths.includes.map rereadString, paths.excludes.map rereadString⟩ := by
  simp +decide [LocalConfigPaths.toJson, reread_object, Json.reread.rereadFields, decodePaths,
    pathsField]
  rfl

/-- A config of version 2 reads back from the text `WriteToFile` writes for it as itself. -/
theorem loadConfigFile_reread_toJson {cfg : LocalConfig} (current : cfg.version = 2) :
    loadConfigFile (.ok (some cfg.toJson.reread)) = .ok cfg.reread := by
  obtain ⟨version, store, paths⟩ := cfg
  cases current
  have two : decodeInt 0 (Json.number 2).reread = .ok 2 := rfl
  simp +decide [loadConfigFile, LocalConfig.toJson, reread_object, Json.reread.rereadFields,
    Backup.parseVersionJSON, two, decodeConfig, configField, decodeStore_reread_toJson,
    decodePaths_reread_toJson, LocalConfig.reread, zeroConfig]
  rfl

end RoundTrip

/-! ## Every config `main` holds is of version 2 -/

section Version

/-- A key decoded into a config moves its version as `ParseVersionJSON` reads it. -/
theorem configField_version {cfg cfg' : LocalConfig} {field : GoString × Json}
    (decoded : configField cfg field = .ok cfg') :
    (if Backup.keyMatches field.1 (ascii "version") then (decodeInt cfg.version field.2).toOption
      else some cfg.version) = some cfg'.version := by
  unfold configField at decoded
  split at decoded
  · rename_i version
    rw [if_pos version]
    cases found : decodeInt cfg.version field.2 <;>
      simp only [found, Except.map, reduceCtorEq, Except.ok.injEq] at decoded
    subst decoded
    rfl
  · rename_i other
    rw [if_neg other]
    split at decoded
    · cases found : decodeStore cfg.store field.2 <;>
        simp only [found, Except.map, reduceCtorEq, Except.ok.injEq] at decoded
      subst decoded
      rfl
    · split at decoded
      · cases found : decodePaths cfg.paths field.2 <;>
          simp only [found, Except.map, reduceCtorEq, Except.ok.injEq] at decoded
        subst decoded
        rfl
      · cases decoded
        rfl

/-- The version of a config decoded from the fields of an object is the one
`ParseVersionJSON` reads from them. -/
theorem foldlM_configField_version : ∀ {fields : List (GoString × Json)} {cfg cfg' : LocalConfig},
    fields.foldlM configField cfg = .ok cfg' →
      fields.foldlM (fun version field => if Backup.keyMatches field.1 (ascii "version") then
        (decodeInt version field.2).toOption else some version) cfg.version = some cfg'.version
  | [], _, _, decoded => by
    cases decoded
    rfl
  | field :: fields, cfg, cfg', decoded => by
    simp only [List.foldlM_cons] at decoded ⊢
    cases step : configField cfg field with
    | error => rw [step] at decoded; cases decoded
    | ok next =>
      rw [step] at decoded
      rw [configField_version step]
      exact foldlM_configField_version decoded

/-- Every config `LoadConfigFile` returns is of version 2: a version 1 file gives a new config
with its store settings, and a version 2 one keeps the version `ParseVersionJSON` read. -/
theorem loadConfigFile_version {file : Except String (Option Json)} {cfg : LocalConfig}
    (loaded : loadConfigFile file = .ok cfg) : cfg.version = 2 := by
  rcases file with _ | _ | document
  · cases loaded
  · cases loaded
  simp only [loadConfigFile] at loaded
  split at loaded
  · cases found : decodeStore newConfig.store document <;> simp_all [Except.map]
    rw [← loaded]
    rfl
  · rename_i version
    cases document with
    | object fields =>
      simp only [Backup.parseVersionJSON] at version
      exact Option.some.inj ((foldlM_configField_version loaded).symm.trans version)
    | null => cases version
    | _ => cases loaded
  · cases loaded
  · cases loaded

theorem loadConfig_version (file : Except String (Option Json)) (opt : Options) :
    (loadConfig file opt).1.version = 2 ∧ (loadConfig file opt).2.version = 2 := by
  cases loaded : loadConfigFile file with
  | error => simp only [loadConfig, loaded]; exact ⟨rfl, rfl⟩
  | ok cfg =>
    simp only [loadConfig, loaded]
    exact ⟨loadConfigFile_version loaded, loadConfigFile_version loaded⟩

end Version

/-! ## What `main` saves -/

section Runs

variable {lib layer} {newStoreS3 : S3Config → Except String (Store ω)}
  {fileStorage : GoString → ω} {salt : Except String (List UInt8)}
  {file : Except String (Option Json)} {opt : Options}

/-- A run of `main` that saves a config got no error from `setupStore`, and saves the config
it loaded with the keys `setupStore` returned. -/
theorem mainSetup_saved {cfg' : LocalConfig}
    (saved : (mainSetup lib layer newStoreS3 fileStorage salt file opt).saved = some cfg') :
    ∃ cfg keys bucket, (loadConfig file opt).2 = cfg ∧
      setupStore lib layer (newStoreS3 cfg.store.s3) fileStorage salt cfg.store.keys opt =
        (keys, bucket, .ok ()) ∧
      cfg' = { cfg with store := { cfg.store with keys } } ∧
      (mainSetup lib layer newStoreS3 fileStorage salt file opt).bucket = bucket := by
  rcases loaded : loadConfig file opt with ⟨original, cfg⟩
  rcases set : setupStore lib layer (newStoreS3 cfg.store.s3) fileStorage salt cfg.store.keys opt
    with ⟨keys, bucket, _ | ⟨⟩⟩
  · simp [mainSetup, loaded, set] at saved
  simp only [mainSetup, loaded, set] at saved ⊢
  split_ifs at saved ⊢
  cases saved
  exact ⟨cfg, keys, bucket, rfl, set, rfl, rfl⟩

/-- Every config `main` saves is of version 2 and reads back on the next run as itself:
`LoadConfigFile` of the text `WriteToFile` wrote returns it, each string as the decoder reads
what the encoder wrote for it, and the keys and paths' count as they were. -/
theorem saved_config_reloads {cfg : LocalConfig}
    (saved : (mainSetup lib layer newStoreS3 fileStorage salt file opt).saved = some cfg) :
    cfg.version = 2 ∧ loadConfigFile (.ok (some cfg.toJson.reread)) = .ok cfg.reread := by
  obtain ⟨cfg₀, keys, -, loaded, -, rfl, -⟩ := mainSetup_saved saved
  have version : cfg₀.version = 2 := loaded ▸ (loadConfig_version file opt).2
  exact ⟨version, loadConfigFile_reread_toJson version⟩

end Runs

/-- The config `inc init` saves over an empty `MockStorage`, with no config file. -/
def initConfig : LocalConfig :=
  { newConfig with store := { newConfig.store with keys := unlockKeys sampleLibrary.pbkdf2 [1] sampleSalt } }

/-- `inc init` over an empty `MockStorage` reached through S3, with no config file. -/
def initRun : Setup (GoString → Option (List UInt8)) :=
  mainSetup sampleLibrary mockStorage (fun _ => .ok (newStore (fun _ => none) [])) (fun _ _ => none)
    (.ok sampleSalt) (.error mockErrNoSuchKey) initOptions

theorem saved_config_reloads_init :
    initRun.saved = some initConfig ∧ initConfig.version = 2 ∧
      loadConfigFile (.ok (some initConfig.toJson.reread)) = .ok initConfig.reread :=
  have saved : initRun.saved = some initConfig := by decide
  ⟨saved, saved_config_reloads saved⟩

end Main

end IncBackup
