import IncBackup.Backup.ManifestJson

/-!
# Store metadata

A store keeps its salt and the user's metadata fields in one object of its storage layer,
`metadata`, and caches what it last read or wrote in `s.meta`.  `getStoreMetadata` returns
a copy of the cached struct, but copying a Go struct copies the reference of its `UserData`
map, not the map: the copy and the cache share one map.  `putUserMetadata` sets the key in
that map before `putStoreMetadata` marshals the metadata and writes it, so once the loaded
metadata has a map, a `PutMetadata` changes what `GetMetadata` returns whether its write
fails or not (`getMetadata_after_putMetadata`).  A `PutMetadata` that returns nil is read
back, and leaves every other key as it was.

The storage layer is a parameter: its `GetReader` followed by `ioutil.ReadAll`, and its
`PutReader`, each on a layer state of its own.  An object's text is seen by the JSON value
it encodes, as the manifests' are.  The maps live in a heap of references.
-/

namespace IncBackup

namespace Metadata

open Json

/-! ## Maps and the heap -/

/-- A value of `interface{}` stored under a metadata key, as `json.Marshal` sees it: a JSON
value, or a value of a type it cannot encode, such as a channel or a function. -/
inductive UserValue where
  | json (value : Json)
  | unsupported (goType : String)

/-- The entries of a `map[string]interface{}`, each key once. -/
abbrev UserMap := List (GoString × UserValue)

/-- `m[key]`: the value, none where the comma-ok form gives `false`. -/
def lookupKey (entries : UserMap) (key : GoString) : Option UserValue :=
  (entries.find? fun entry => entry.1 = key).map Prod.snd

/-- `m[key] = value`. -/
def assignKey (entries : UserMap) (key : GoString) (value : UserValue) : UserMap :=
  (key, value) :: entries.filter fun entry => entry.1 ≠ key

@[simp]
theorem lookupKey_nil (key : GoString) : lookupKey [] key = none := rfl

theorem lookupKey_filter {key key' : GoString} (other : key' ≠ key) (entries : UserMap) :
    lookupKey (entries.filter fun entry => entry.1 ≠ key) key' = lookupKey entries key' := by
  induction entries with
  | nil => rfl
  | cons entry entries ih =>
    by_cases dropped : entry.1 = key
    · rw [List.filter_cons_of_neg (by simpa using dropped), ih]
      simp [lookupKey, List.find?_cons, dropped, Ne.symm other]
    · rw [List.filter_cons_of_pos (by simpa using dropped)]
      simp only [lookupKey, List.find?_cons] at ih ⊢
      split <;> simp_all

@[simp]
theorem lookupKey_assignKey (entries : UserMap) (key key' : GoString) (value : UserValue) :
    lookupKey (assignKey entries key value) key' =
      if key' = key then some value else lookupKey entries key' := by
  by_cases same : key' = key
  · simp [lookupKey, assignKey, same]
  · rw [if_neg same, ← lookupKey_filter same entries]
    unfold lookupKey assignKey
    rw [List.find?_cons_of_neg _ (by simp [Ne.symm same])]

/-- The Go heap's maps: the entries of each reference, and the reference `make` gives next. -/
structure Heap where
  maps : Nat → UserMap
  fresh : Nat

/-- `make(map[string]interface{})`: a new empty map. -/
def Heap.make (heap : Heap) : Nat × Heap :=
  (heap.fresh, ⟨Function.update heap.maps heap.fresh [], heap.fresh + 1⟩)

/-- `m[key] = value` on the map of a reference. -/
def Heap.assign (heap : Heap) (ref : Nat) (key : GoString) (value : UserValue) : Heap :=
  { heap with maps := Function.update heap.maps ref (assignKey (heap.maps ref) key value) }

@[simp]
theorem Heap.assign_maps_self (heap : Heap) (ref : Nat) (key : GoString) (value : UserValue) :
    (heap.assign ref key value).maps ref = assignKey (heap.maps ref) key value := by
  simp [Heap.assign]

@[simp]
theorem Heap.make_maps_self (heap : Heap) : heap.make.2.maps heap.make.1 = [] := by
  simp [Heap.make]

/-! ## The metadata object -/

/-- `storeMetadata`, its `UserData` a reference into the heap, none for a nil map. -/
structure StoreMetadata where
  version : Int
  storeFormat : Int
  salt : List UInt8
  userData : Option Nat
deriving DecidableEq

/-- `c_METADATA_KEY`. -/
def metadataKey : GoString := ascii "metadata"

/-- `ErrMalformedMetadata`. -/
def errMalformedMetadata : String := "malformed metadata"

/-- `ErrBadVersion`. -/
def errBadVersion : String := "bad version"

/-- `ErrMissingMetadata`. -/
def errMissingMetadata : String := "user metadata not set"

/-- `json.Marshal` of the value of a metadata key. -/
def UserValue.toJson : UserValue → Except String Json
  | .json value => .ok value
  | .unsupported goType => .error ("json: unsupported type: " ++ goType)

/-- `json.Marshal` of a `map[string]interface{}`: its keys sorted, the first value it cannot
encode the error. -/
def marshalUserMap (entries : UserMap) : Except String Json :=
  ((entries.insertionSort fun (a b : GoString × UserValue) => goLess a.1 b.1).mapM
    fun (entry : GoString × UserValue) =>
    entry.2.toJson.map fun value => (entry.1, value)).map .object

/-- `json.Marshal(md)`: the fields in the struct's order under their tags, the salt in
base64, `null` for a nil map. -/
def marshal (heap : Heap) (md : StoreMetadata) : Except String Json := do
  let userData ← match md.userData with
    | none => .ok Json.null
    | some ref => marshalUserMap (heap.maps ref)
  .ok (.object [(ascii "version", .number md.version),
    (ascii "storeFormat", .number md.storeFormat),
    (ascii "salt", .string (Backup.base64Encode md.salt)),
    (ascii "userData", userData)])

/-- `util.ParseVersionJSON`: `json.Unmarshal` into a struct whose one field is `Version int`,
none where that fails and the source returns `(-1, false)`; text that is not JSON fails. -/
def parseVersionJSON : Option Json → Option Int
  | some .null => some 0
  | some (.object fields) => fields.foldlM (fun version field =>
      if Backup.keyMatches field.1 (ascii "version") then (decodeInt version field.2).toOption
      else some version) 0
  | _ => none

/-- `storeMetadata` as `json.Unmarshal` fills a zero one, with the entries of `UserData` in
place of its reference: none for a nil map. -/
structure Decoded where
  version : Int
  storeFormat : Int
  salt : List UInt8
  userData : Option UserMap

/-- `json.Unmarshal` into a `map[string]interface{}` that holds `current`: `null` sets it to
nil, an object's keys are set in it in turn, in a new map where it is nil. -/
def decodeUserData (current : Option UserMap) : Json → Option (Option UserMap)
  | .null => some none
  | .object fields => some (some (fields.foldl
      (fun entries field => assignKey entries field.1 (.json field.2)) (current.getD [])))
  | _ => none

/-- One key of the metadata object; other keys are ignored. -/
def metadataField (md : Decoded) (field : GoString × Json) : Option Decoded :=
  if Backup.keyMatches field.1 (ascii "version") then
    (decodeInt md.version field.2).toOption.map fun version => { md with version }
  else if Backup.keyMatches field.1 (ascii "storeFormat") then
    (decodeInt md.storeFormat field.2).toOption.map fun storeFormat => { md with storeFormat }
  else if Backup.keyMatches field.1 (ascii "salt") then
    (Backup.decodeBytes field.2).toOption.map fun salt => { md with salt }
  else if Backup.keyMatches field.1 (ascii "userData") then
    (decodeUserData md.userData field.2).map fun userData => { md with userData }
  else some md

/-- `json.Unmarshal(data, &md)` into a zero `storeMetadata`: none for an error, whose text
`getStoreMetadata` drops. -/
def decodeMetadata : Json → Option Decoded
  | .null => some ⟨0, 0, [], none⟩
  | .object fields => fields.foldlM metadataField ⟨0, 0, [], none⟩
  | _ => none

/-- The decoded metadata with its map, if any, put in the heap. -/
def Decoded.allocate (decoded : Decoded) (heap : Heap) : StoreMetadata × Heap :=
  match decoded.userData with
  | none => (⟨decoded.version, decoded.storeFormat, decoded.salt, none⟩, heap)
  | some entries =>
    (⟨decoded.version, decoded.storeFormat, decoded.salt, some heap.fresh⟩,
      ⟨Function.update heap.maps heap.fresh entries, heap.fresh + 1⟩)

/-! ## The store -/

/-- The two calls of a `StorageLayer` the metadata code makes, on a layer state `ω`. -/
structure StorageLayer (ω : Type) where
  /-- `GetReader(key)` and `ioutil.ReadAll` of the reader: the object's text as the JSON
  value it encodes, none when it is not JSON, or the error of either call. -/
  getReader : ω → GoString → Except String (Option Json)
  /-- `PutReader(key, r)` of a JSON text: the layer after it, and the error it returned. -/
  putReader : ω → GoString → Json → ω × Option String

/-- The fields of `Store` the metadata code reads and writes, the layer and `meta`, with the
heap `meta` reaches. -/
structure Store (ω : Type) where
  layer : ω
  meta : Option StoreMetadata
  heap : Heap

variable {ω : Type} (layer : StorageLayer ω)

/-- `getStoreMetadata`: the cached metadata, or the `metadata` object read, its version
checked, decoded and cached. -/
def getStoreMetadata (s : Store ω) : Except String StoreMetadata × Store ω :=
  match s.meta with
  | some md => (.ok md, s)
  | none =>
    match layer.getReader s.layer metadataKey with
    | .error err => (.error err, s)
    | .ok data =>
      match parseVersionJSON data with
      | some 1 =>
        match data.bind decodeMetadata with
        | some decoded =>
          let (md, heap) := decoded.allocate s.heap
          (.ok md, { s with meta := some md, heap })
        | none => (.error errMalformedMetadata, s)
      | some _ => (.error errBadVersion, s)
      | none => (.error errMalformedMetadata, s)

/-- `putStoreMetadata(md)`: marshal, write the `metadata` object, and cache `md` once the
write succeeded. -/
def putStoreMetadata (md : StoreMetadata) (s : Store ω) : Except String Unit × Store ω :=
  match marshal s.heap md with
  | .error err => (.error err, s)
  | .ok data =>
    match layer.putReader s.layer metadataKey data with
    | (after, some err) => (.error err, { s with layer := after })
    | (after, none) => (.ok (), { s with layer := after, meta := some md })

/-- The value of a key in metadata `md`, or `ErrMissingMetadata`. -/
def userValue (heap : Heap) (md : StoreMetadata) (key : GoString) : Except String UserValue :=
  match (md.userData.map heap.maps).bind (lookupKey · key) with
  | some data => .ok data
  | none => .error errMissingMetadata

/-- `getUserMetadata(key)`. -/
def getUserMetadata (key : GoString) (s : Store ω) : Except String UserValue × Store ω :=
  match getStoreMetadata layer s with
  | (.error err, s) => (.error err, s)
  | (.ok md, s) => (userValue s.heap md key, s)

/-- `putUserMetadata(key, data)`: set the key in the map of the metadata `getStoreMetadata`
returned, made if it is nil, then `putStoreMetadata`. -/
def putUserMetadata (key : GoString) (data : UserValue) (s : Store ω) :
    Except String Unit × Store ω :=
  match getStoreMetadata layer s with
  | (.error err, s) => (.error err, s)
  | (.ok md, s) =>
    let (ref, heap) := match md.userData with
      | some ref => (ref, s.heap)
      | none => s.heap.make
    putStoreMetadata layer { md with userData := some ref }
      { s with heap := heap.assign ref key data }

/-- `Store.PutMetadata(key, data)`. -/
def putMetadata (key : GoString) (data : UserValue) (s : Store ω) :
    Except String Unit × Store ω :=
  putUserMetadata layer key data s

/-- `Store.GetMetadata(key)`. -/
def getMetadata (key : GoString) (s : Store ω) : Except String UserValue × Store ω :=
  getUserMetadata layer key s

/-! ## What `PutMetadata` leaves in the cache -/

section Cache

variable {s : Store ω} {md : StoreMetadata}

@[simp]
theorem getStoreMetadata_of_cached (cached : s.meta = some md) :
    getStoreMetadata layer s = (.ok md, s) := by
  simp [getStoreMetadata, cached]

theorem getUserMetadata_of_cached (cached : s.meta = some md) (key : GoString) :
    getUserMetadata layer key s = (userValue s.heap md key, s) := by
  simp [getUserMetadata, getStoreMetadata_of_cached layer cached]

/-- `putStoreMetadata` changes no map: it returns nil and caches its metadata, or returns an
error and leaves the cache as it was. -/
theorem putStoreMetadata_cases (md' : StoreMetadata) (s : Store ω) :
    ∃ after, putStoreMetadata layer md' s = (.ok (), ⟨after, some md', s.heap⟩) ∨
      ∃ err, putStoreMetadata layer md' s = (.error err, ⟨after, s.meta, s.heap⟩) := by
  unfold putStoreMetadata
  split
  · exact ⟨s.layer, .inr ⟨_, rfl⟩⟩
  · split
    · exact ⟨_, .inr ⟨_, rfl⟩⟩
    · exact ⟨_, .inl rfl⟩

/-- What `GetMetadata` reads after a `putStoreMetadata` on a cached store: the metadata
written if the write succeeded, the cached one if not, over the same maps. -/
theorem getUserMetadata_after_putStoreMetadata (s : Store ω) (cached : s.meta = some md)
    (md' : StoreMetadata) (key : GoString) :
    (getUserMetadata layer key (putStoreMetadata layer md' s).2).1 =
      userValue s.heap (if (putStoreMetadata layer md' s).1 = .ok () then md' else md) key := by
  obtain ⟨after, written | ⟨err, failed⟩⟩ := putStoreMetadata_cases layer md' s
  · rw [written, getUserMetadata_of_cached layer rfl, if_pos rfl]
  · rw [failed, getUserMetadata_of_cached layer (s := ⟨after, s.meta, s.heap⟩) cached,
      if_neg (by simp)]

/-- `getMetadata_after_putMetadata` on a store whose metadata is cached. -/
theorem getMetadata_after_putMetadata_cached (cached : s.meta = some md) (key key' : GoString)
    (data : UserValue) :
    (getMetadata layer key' (putMetadata layer key data s).2).1 =
      if key' = key ∧ (md.userData.isSome ∨ (putMetadata layer key data s).1 = .ok ()) then
        .ok data
      else (getMetadata layer key' s).1 := by
  unfold getMetadata putMetadata putUserMetadata
  rw [getStoreMetadata_of_cached layer cached, getUserMetadata_of_cached layer cached]
  dsimp only
  cases map : md.userData with
  | some ref =>
    have same : { md with userData := some ref } = md := by cases md; cases map; rfl
    simp only [map, same]
    rw [getUserMetadata_after_putStoreMetadata layer { s with heap := s.heap.assign ref key data }
      cached, ite_self]
    by_cases same : key' = key <;> simp [userValue, map, same]
  | none =>
    simp only [map]
    rw [getUserMetadata_after_putStoreMetadata layer
      { s with heap := s.heap.make.2.assign s.heap.make.1 key data } cached]
    split_ifs with written condition <;> simp_all [userValue]

/-- `getStoreMetadata` caches the metadata it returns. -/
theorem getStoreMetadata_caches (s : Store ω) (md : StoreMetadata)
    (loaded : (getStoreMetadata layer s).1 = .ok md) :
    (getStoreMetadata layer s).2.meta = some md := by
  revert loaded
  unfold getStoreMetadata
  split
  · next cached => intro loaded; cases loaded; exact cached
  split
  · intro loaded; cases loaded
  split
  · split
    · generalize Decoded.allocate _ s.heap = allocated
      intro loaded; cases loaded; rfl
    · intro loaded; cases loaded
  all_goals intro loaded; cases loaded

/-- On a store whose metadata loads, a `PutMetadata` of `data` under `key` makes `GetMetadata`
of `key` return `data` when it returns nil, and when it fails too if the loaded metadata has
a map; every other key, and `key` after a failure on a nil map, reads as before. -/
theorem getMetadata_after_putMetadata (loaded : (getStoreMetadata layer s).1 = .ok md)
    (key key' : GoString) (data : UserValue) :
    (getMetadata layer key' (putMetadata layer key data s).2).1 =
      if key' = key ∧ (md.userData.isSome ∨ (putMetadata layer key data s).1 = .ok ()) then
        .ok data
      else (getMetadata layer key' s).1 := by
  have cached := getStoreMetadata_caches layer s md loaded
  set loadedStore := (getStoreMetadata layer s).2
  have reloaded : getStoreMetadata layer s = (.ok md, loadedStore) := Prod.ext loaded rfl
  have put : putMetadata layer key data s = putMetadata layer key data loadedStore := by
    unfold putMetadata putUserMetadata
    rw [getStoreMetadata_of_cached layer cached, reloaded]
  have get : getMetadata layer key' s = getMetadata layer key' loadedStore := by
    unfold getMetadata getUserMetadata
    rw [getStoreMetadata_of_cached layer cached, reloaded]
  rw [put, get]
  exact getMetadata_after_putMetadata_cached layer cached key key' data

/-- A `PutMetadata` that returns nil is read back by the next `GetMetadata`, whatever the
store held and whether it had read its metadata. -/
theorem getMetadata_of_putMetadata_ok {key : GoString} {data : UserValue}
    (written : (putMetadata layer key data s).1 = .ok ()) :
    (getMetadata layer key (putMetadata layer key data s).2).1 = .ok data := by
  obtain ⟨md, loaded⟩ : ∃ md, (getStoreMetadata layer s).1 = .ok md := by
    unfold putMetadata putUserMetadata at written
    cases read : getStoreMetadata layer s with
    | mk result after =>
      cases result with
      | error err => rw [read] at written; cases written
      | ok md => exact ⟨md, rfl⟩
  rw [getMetadata_after_putMetadata layer loaded, if_pos ⟨rfl, .inr written⟩]

/-- A layer whose `metadata` object is `{"version":1}` and which accepts every write. -/
def writableLayer : StorageLayer Unit where
  getReader _ _ := .ok (some (.object [(ascii "version", .number 1)]))
  putReader _ _ _ := ((), none)

theorem getMetadata_of_putMetadata_ok_writable :
    (putMetadata writableLayer (ascii "k") (.json .null) ⟨(), none, ⟨fun _ => [], 0⟩⟩).1 =
        .ok () ∧
      (getMetadata writableLayer (ascii "k") (putMetadata writableLayer (ascii "k") (.json .null)
        ⟨(), none, ⟨fun _ => [], 0⟩⟩).2).1 = .ok (.json .null) :=
  have written : (putMetadata writableLayer (ascii "k") (.json .null)
      ⟨(), none, ⟨fun _ => [], 0⟩⟩).1 = .ok () := rfl
  ⟨written, getMetadata_of_putMetadata_ok writableLayer written⟩

end Cache

/-! ## A failed write of the latest manifest's name -/

/-- The `metadata` object of a store whose latest manifest is the set `a`. -/
def latestDocument : Json :=
  .object [(ascii "version", .number 1), (ascii "storeFormat", .number 1),
    (ascii "salt", .string (Backup.base64Encode [1, 2, 3])),
    (ascii "userData", .object [(ascii "manifest/latest", .string (ascii "a"))])]

/-- A layer that holds `document` as its `metadata` object and whose `PutReader` fails, as on
a full or read-only disk. -/
def readOnlyLayer (document : Json) : StorageLayer Unit where
  getReader _ _ := .ok (some document)
  putReader _ _ _ := ((), some "write failed")

/-- A store that has not read its metadata yet. -/
def unreadStore : Store Unit := ⟨(), none, ⟨fun _ => [], 0⟩⟩

/-- The store after `GetMetadata("manifest/latest")` read its metadata. -/
def cachedStore : Store Unit :=
  (getMetadata (readOnlyLayer latestDocument) (ascii "manifest/latest") unreadStore).2

/-- `GetMetadata("manifest/latest")` reads `a` and caches the metadata; a
`PutMetadata("manifest/latest", "b")` then fails, and yet the next `GetMetadata` returns
`b`, which the store does not hold. -/
theorem putMetadata_failure_changes_cache :
    (getMetadata (readOnlyLayer latestDocument) (ascii "manifest/latest") unreadStore).1 =
        .ok (.json (.string (ascii "a"))) ∧ cachedStore.meta.isSome ∧
      (putMetadata (readOnlyLayer latestDocument) (ascii "manifest/latest")
        (.json (.string (ascii "b"))) cachedStore).1 = .error "write failed" ∧
      (getMetadata (readOnlyLayer latestDocument) (ascii "manifest/latest")
        (putMetadata (readOnlyLayer latestDocument) (ascii "manifest/latest")
          (.json (.string (ascii "b"))) cachedStore).2).1 = .ok (.json (.string (ascii "b"))) :=
  ⟨rfl, rfl, rfl, rfl⟩

end Metadata

end IncBackup
