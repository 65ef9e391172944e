import IncBackup.Store.Metadata
import IncBackup.Crypto.DecryptReader

/-!
# The store: wiping, unlocking, and the objects it holds

`NewStore` makes a store that has read nothing and cannot read or write objects until it
is opened.  `Open` checks that the container exists and makes a crypter of the keys;
`Unlock` derives the keys from a secret and the salt of the `metadata` object; `Wipe` writes
new metadata with a fresh salt and unlocks.  An open store's `Put` compresses, encrypts and
uploads an object, and `Get` downloads, decrypts and decompresses it; both refuse the key
`metadata`.

The storage layer is a parameter, as in the metadata code, now with all the calls the store
makes: `Exists`, `Create`, `GetReader` read to the end, `PutReader` of a reader read to the
end, and `IsNotExist`.  AES, HMAC-SHA1, PBKDF2, gzip and the JSON text are parameters too,
each with the one property the store needs of it; the salt and the IVs drawn from
`crypto/rand` are arguments.

`Open` never checks the keys: `Unlock` accepts every secret or none
(`unlock_accepts_any_secret`).  An object put is read back (`get_after_put`), and the store
keeps what it holds for the next session: after a `Wipe` and any run of `Put`s, a new
store over the same layer unlocks with the same secret to the same keys and gets back every
object put (`wiped_store_reads_back`).
-/

namespace IncBackup

namespace Store

open Json Stream Crypto

/-- `ErrStoreNotInitialized`. -/
def errStoreNotInitialized : String := "remote store not initialized"

/-- `ErrStoreNotConnected`. -/
def errStoreNotConnected : String := "store not ready for reading/writing"

/-- `ErrForbiddenKey`. -/
def errForbiddenKey : String := "read/write to key name is forbidden"

/-- The calls of a `StorageLayer`, on a layer state `ω`. -/
structure StorageLayer (ω : Type) where
  /-- `Exists()`. -/
  present : ω → Except String Bool
  /-- `Create()`: the layer after it, and its error. -/
  create : ω → ω × Option String
  /-- `GetReader(key)` read to the end: the object's bytes, or the error. -/
  getReader : ω → GoString → Except String (List UInt8)
  /-- `PutReader(key, r)` of a reader that returns `data` and then `io.EOF`. -/
  putReader : ω → GoString → List UInt8 → ω × Option String
  /-- `IsNotExist(err)`. -/
  isNotExist : String → Bool

/-- `Keys`. -/
structure Keys where
  encKey : List UInt8
  authKey : List UInt8
deriving DecidableEq

/-- The text `json.Marshal` writes for a value, and the value `json.Unmarshal` reads from a
text, none when it is not JSON. -/
structure JsonText where
  marshal : Json → List UInt8
  unmarshal : List UInt8 → Option Json

/-- `pbkdf2.Key(secret, salt, c_HASH_ITER, c_ENC_KEY_SIZE+c_HMAC_KEY_SIZE, sha1.New)`: a key
of the length asked for. -/
structure Pbkdf2 where
  key : List UInt8 → List UInt8 → List UInt8
  length_key : ∀ secret salt, (key secret salt).length = encKeySize + hmacKeySize

/-- gzip, as `zip.CompressReader` and `zip.DecompressReader` apply it to a whole stream. -/
structure Gzip where
  compress : List UInt8 → List UInt8
  decompress : List UInt8 → Except String (List UInt8)

/-- The libraries the store is built on. -/
structure Library where
  aes : List UInt8 → BlockCipher
  hmac : HmacSha1
  pbkdf2 : Pbkdf2
  gzip : Gzip
  text : JsonText

/-- `crypto.DeriveKeys(secret, salt)`. -/
def deriveKeys (pbkdf2 : Pbkdf2) (secret salt : List UInt8) : List UInt8 × List UInt8 :=
  ((pbkdf2.key secret salt).take encKeySize, (pbkdf2.key secret salt).drop encKeySize)

/-- The keys `Unlock` makes: `keys.EncKey, keys.AuthKey = crypto.DeriveKeys(secret, md.Salt)`. -/
def unlockKeys (pbkdf2 : Pbkdf2) (secret salt : List UInt8) : Keys :=
  ⟨(deriveKeys pbkdf2 secret salt).1, (deriveKeys pbkdf2 secret salt).2⟩

/-- `newMetadata(salt)`. -/
def newMetadata (salt : List UInt8) : Metadata.StoreMetadata := ⟨1, 1, salt, none⟩

/-- The JSON value `putStoreMetadata` writes for `newMetadata(salt)`. -/
def newMetadataDocument (salt : List UInt8) : Json :=
  .object [(ascii "version", .number 1), (ascii "storeFormat", .number 1),
    (ascii "salt", .string (Backup.base64Encode salt)), (ascii "userData", .null)]

/-- The layer as the metadata code calls it: an object's text read as JSON, and JSON written
as text. -/
def StorageLayer.metadataLayer {ω : Type} (layer : StorageLayer ω) (text : JsonText) :
    Metadata.StorageLayer ω where
  getReader state key := (layer.getReader state key).map text.unmarshal
  putReader state key value := layer.putReader state key (text.marshal value)

end Store

/-- `Store`: the fields the metadata code uses, `id`, and the crypter `enc`, none until the
store is opened. -/
structure Store (ω : Type) extends Metadata.Store ω where
  id : GoString
  enc : Option Crypto.AesCrypter

namespace Store

open Json Stream Crypto

/-- `NewStore(layer, id)`. -/
def newStore {ω : Type} (layer : ω) (id : GoString) : Store ω :=
  { layer, meta := none, heap := ⟨fun _ => [], 0⟩, id, enc := none }

/-- The lengths `io.Copy` reads with into its 32 KiB buffer: one read more than `bound`. -/
def copySizes (bound : Nat) : List Nat := List.replicate (bound + 1) 32768

/-- The lengths the gzip reader's `bufio.Reader` reads with: one read more than `bound`. -/
def readSizes (bound : Nat) : List Nat := List.replicate (bound + 1) 4096

/-- A Go result `(value, err)` as an outcome. -/
def ofExcept {α : Type} : Except String α → Outcome α
  | .ok value => .ok value
  | .error err => .error err

variable {ω : Type} (lib : Library) (layer : StorageLayer ω)

/-- `s.getStoreMetadata()`. -/
def getStoreMetadata (s : Store ω) : Except String Metadata.StoreMetadata × Store ω :=
  match Metadata.getStoreMetadata (layer.metadataLayer lib.text) s.toStore with
  | (result, store) => (result, { s with toStore := store })

/-- `s.putStoreMetadata(md)`. -/
def putStoreMetadata (md : Metadata.StoreMetadata) (s : Store ω) :
    Except String Unit × Store ω :=
  match Metadata.putStoreMetadata (layer.metadataLayer lib.text) md s.toStore with
  | (result, store) => (result, { s with toStore := store })

/-- `IsClean()`: the metadata cannot be read because it does not exist. -/
def isClean (s : Store ω) : Bool × Store ω :=
  match s.getStoreMetadata lib layer with
  | (.error err, s) => (layer.isNotExist err, s)
  | (.ok _, s) => (false, s)

/-- `Open(keys)`. -/
def openStore (keys : Keys) (s : Store ω) : Except String Unit × Store ω :=
  match layer.present s.layer with
  | .error err => (.error err, s)
  | .ok false => (.error errStoreNotInitialized, s)
  | .ok true =>
    match newCrypter lib.aes keys.encKey keys.authKey with
    | .error err => (.error err, s)
    | .ok enc => (.ok (), { s with enc := some enc })

/-- `Unlock(secret)`. -/
def unlock (secret : List UInt8) (s : Store ω) : (Keys × Except String Unit) × Store ω :=
  match s.getStoreMetadata lib layer with
  | (.error err, s) =>
    ((⟨[], []⟩, .error (if layer.isNotExist err then errStoreNotInitialized else err)), s)
  | (.ok md, s) =>
    match s.openStore lib layer (unlockKeys lib.pbkdf2 secret md.salt) with
    | (result, s) => ((unlockKeys lib.pbkdf2 secret md.salt, result), s)

/-- `Wipe(secret)`, with `salt` what `crypto.Salt()` returned. -/
def wipe (salt : Except String (List UInt8)) (secret : List UInt8) (s : Store ω) :
    (Keys × Except String Unit) × Store ω :=
  match salt with
  | .error err => ((⟨[], []⟩, .error err), s)
  | .ok salt =>
    match layer.present s.layer with
    | .error err => ((⟨[], []⟩, .error err), s)
    | .ok present =>
      match if present then (s.layer, none) else layer.create s.layer with
      | (created, some err) => ((⟨[], []⟩, .error err), { s with layer := created })
      | (created, none) =>
        match putStoreMetadata lib layer (newMetadata salt) { s with layer := created } with
        | (.error err, s) => ((⟨[], []⟩, .error err), s)
        | (.ok (), s) => s.unlock lib layer secret

/-- `s.layer.PutReader(key, ciphertext)` of a ciphertext read to its end: the bytes written,
or the layer's error. -/
def putCiphertext (key : GoString) (ciphertext : List UInt8) (s : Store ω) :
    Outcome Nat × Store ω :=
  match layer.putReader s.layer key ciphertext with
  | (after, none) => (.ok ciphertext.length, { s with layer := after })
  | (after, some err) => (.error err, { s with layer := after })

/-- `Put(key, data)`, which is `PutReader(key, bytes.NewReader(data))`, with `iv` the IV
`EncryptReader` draws.  The layer reads the encrypter over the compressed data with
`io.Copy`; a reader that fails fails the put and leaves the layer as it was, as
`MockStorage` does. -/
def put (iv : Block) (key : GoString) (data : List UInt8) (s : Store ω) :
    Outcome Nat × Store ω :=
  if key = Metadata.metadataKey then (.error errForbiddenKey, s)
  else
    match s.enc with
    | none => (.error errStoreNotConnected, s)
    | some enc =>
      let compressed := lib.gzip.compress data
      match drain (encryptReader lib.hmac enc bufferReader) (encryptReaderNew iv compressed)
          (copySizes (compressed.length + 52)) with
      | (ciphertext, .eof) => s.putCiphertext layer key ciphertext
      | (_, .error err) => (.error err, s)
      | (_, .panic) => (.panic, s)
      | (_, _) => (.hang, s)

/-- `Get(key)`: `ioutil.ReadAll` of `GetReader(key)`, the decompressing reader over the
decrypter over the object's bytes. -/
def get (key : GoString) (s : Store ω) : Outcome (List UInt8) :=
  if key = Metadata.metadataKey then .error errForbiddenKey
  else
    match s.enc with
    | none => .error errStoreNotConnected
    | some enc =>
      match layer.getReader s.layer key with
      | .error err => .error err
      | .ok ciphertext =>
        match decryptReaderNew bufferReader ciphertext with
        | .ok e =>
          match drain (decryptReader lib.hmac enc bufferReader) e
              (readSizes ciphertext.length) with
          | (compressed, .eof) => ofExcept (lib.gzip.decompress compressed)
          | (_, .error err) => .error err
          | (_, .panic) => .panic
          | (_, _) => .hang
        | .error err => .error err
        | .panic => .panic
        | .hang => .hang

/-! ## What the store needs of its layer -/

/-- A layer reads back what it wrote: after a `PutReader` that returns no error, a
`GetReader` of the key returns the data. -/
def StorageLayer.ReadsBack (layer : StorageLayer ω) : Prop :=
  ∀ {state key data after}, layer.putReader state key data = (after, none) →
    layer.getReader after key = .ok data

/-- What the store needs of its layer over a run of writes, with `path key` the object a key
names; several keys may name one object, as `a` and `./a` name one file of `FileStorage`.
An object reads back, under every key that names it, as it was last written; a write leaves
every object another key names, and a write that fails every object, readable as it was; and
a container that exists stays. -/
structure StorageLayer.Lawful (layer : StorageLayer ω) (path : GoString → GoString) : Prop where
  getReader_putReader : ∀ {state key data after key'},
    layer.putReader state key data = (after, none) → path key' = path key →
      layer.getReader after key' = .ok data
  getReader_putReader_of_ne : ∀ {state key data key' found}, path key' ≠ path key →
    layer.getReader state key' = .ok found →
      layer.getReader (layer.putReader state key data).1 key' = .ok found
  getReader_putReader_of_error : ∀ {state key data after err key' found},
    layer.putReader state key data = (after, some err) → layer.getReader state key' = .ok found →
      layer.getReader after key' = .ok found
  present_putReader : ∀ {state key data}, layer.present state = .ok true →
    layer.present (layer.putReader state key data).1 = .ok true

theorem StorageLayer.Lawful.readsBack {path : GoString → GoString} (lawful : layer.Lawful path) :
    layer.ReadsBack := fun stored => lawful.getReader_putReader stored rfl

/-- `MockErrNoSuchKey`. -/
def mockErrNoSuchKey : String := "The specified key does not exist."

/-- `MockStorage` with no faults injected: its map of keys to bytes. -/
def mockStorage : StorageLayer (GoString → Option (List UInt8)) where
  present _ := .ok true
  create objects := (objects, none)
  getReader objects key :=
    match objects key with
    | some data => .ok data
    | none => .error mockErrNoSuchKey
  putReader objects key data := (Function.update objects key (some data), none)
  isNotExist err := err == mockErrNoSuchKey

/-- `MockStorage` names each object by its key. -/
theorem mockStorage_lawful : mockStorage.Lawful fun key => key where
  getReader_putReader := by
    rintro _ _ _ _ _ ⟨⟩ rfl
    simp [mockStorage]
  getReader_putReader_of_ne other := by simp [mockStorage, Function.update_noteq other]
  getReader_putReader_of_error := by rintro _ _ _ _ _ _ _ ⟨⟩
  present_putReader present := present

/-! ## Put and Get -/

section Objects

variable {lib layer}

theorem emits_bufferReader (buffer : List UInt8) : Emits bufferReader buffer buffer :=
  ⟨_, emitter_bufferReader, rfl⟩

/-- The encrypter over the compressed data, read by `io.Copy`, returns old.go's envelope and
then `io.EOF`. -/
theorem drain_encryptReader (hmac : HmacSha1) (enc : AesCrypter) (iv : Block)
    (plain : List UInt8) :
    ∃ sealed last, cbcEncrypt enc.bc iv.bytes (padBuffer plain) = some (sealed, last) ∧
      drain (encryptReader hmac enc bufferReader) (encryptReaderNew iv plain)
        (copySizes (plain.length + 52)) =
        (iv.bytes ++ sealed ++ hmac.sum enc.authKey (iv.bytes ++ sealed), .eof) := by
  obtain ⟨sealed, last, crypt, length, emits⟩ :=
    @emits_encryptReaderNew _ hmac enc bufferReader iv _ _ (emits_bufferReader plain)
  refine ⟨sealed, last, crypt, (emits.drain _).2 ?_⟩
  have := (padCount_pos plain.length).2
  simp only [blockSize] at this
  simp [copySizes, List.countP_replicate, length, length_padBuffer, iv.length_eq,
    hmac.sum_length, blockSize, hmacSize]
  omega

theorem putCiphertext_snd (s : Store ω) (key : GoString) (ciphertext : List UInt8) :
    (s.putCiphertext layer key ciphertext).2 =
      { s with layer := (layer.putReader s.layer key ciphertext).1 } := by
  rcases written : layer.putReader s.layer key ciphertext with ⟨after, _ | err⟩ <;>
    simp [putCiphertext, written]

theorem putCiphertext_ok {s : Store ω} {key : GoString} {ciphertext : List UInt8} {n : Nat}
    (put : (s.putCiphertext layer key ciphertext).1 = .ok n) :
    layer.putReader s.layer key ciphertext = ((s.putCiphertext layer key ciphertext).2.layer, none) := by
  rcases written : layer.putReader s.layer key ciphertext with ⟨after, _ | err⟩ <;>
    simp_all [putCiphertext]

/-- A `Put` returns an error and changes nothing, or hands the layer old.go's envelope of the
compressed data under a key other than `metadata`, from an open store. -/
theorem put_cases (s : Store ω) (iv : Block) (key : GoString) (data : List UInt8) :
    (∃ err, s.put lib layer iv key data = (.error err, s)) ∨
      key ≠ Metadata.metadataKey ∧ ∃ enc envelope, s.enc = some enc ∧
        encrypt lib.hmac enc iv (lib.gzip.compress data) = some envelope ∧
        s.put lib layer iv key data = s.putCiphertext layer key envelope := by
  by_cases forbidden : key = Metadata.metadataKey
  · exact .inl ⟨errForbiddenKey, by simp [put, forbidden]⟩
  rcases connected : s.enc with _ | enc
  · exact .inl ⟨errStoreNotConnected, by simp [put, forbidden, connected]⟩
  obtain ⟨sealed, last, crypt, drained⟩ :=
    drain_encryptReader lib.hmac enc iv (lib.gzip.compress data)
  exact .inr ⟨forbidden, enc, _, rfl, encrypt_of_cbcEncrypt crypt,
    by simp [put, forbidden, connected, drained]⟩

/-- A `Get` from an open store, of a key other than `metadata` whose object is old.go's
envelope of `plain`, returns the decompression of `plain`. -/
theorem get_of_envelope (s : Store ω) {enc : AesCrypter} (connected : s.enc = some enc)
    {key : GoString} (allowed : key ≠ Metadata.metadataKey) {iv : Block}
    {plain envelope : List UInt8} (sealed : encrypt lib.hmac enc iv plain = some envelope)
    (stored : layer.getReader s.layer key = .ok envelope) :
    s.get lib layer key = ofExcept (lib.gzip.decompress plain) := by
  simp only [encrypt, pad_eq_padBuffer, Option.map_eq_some'] at sealed
  obtain ⟨⟨sealed, last⟩, crypt, rfl⟩ := sealed
  obtain ⟨_, _, crypt', length, -⟩ :=
    cbcEncrypt_of_whole enc.bc (length_padBuffer_mod plain) iv.bytes iv.length_eq
  obtain ⟨rfl, -⟩ := Prod.mk.inj (Option.some.inj (crypt.symm.trans crypt'))
  have longer : plain.length < sealed.length := by
    rw [length, length_padBuffer]; have := (padCount_pos plain.length).1; omega
  set envelope := iv.bytes ++ sealed ++ lib.hmac.sum enc.authKey (iv.bytes ++ sealed)
  obtain ⟨e, opening, pending⟩ := decryptPending_new iv.length_eq
    (List.length_pos.1 (by omega))
    (cbcDecrypt_cbcEncrypt enc.bc (length_padBuffer_mod plain) iv.length_eq crypt)
    (by rw [unpadBuffer_eq_unpad, unpad_padBuffer]) (emits_bufferReader envelope)
  have drained := (emitter_decryptPending.drain_readsExactly (readSizes envelope.length)
    e plain pending).2 (by simp [envelope, readSizes, List.countP_replicate]; omega)
  simp only [get, if_neg allowed, connected, stored, opening, drained]

variable (lib) in
/-- A `Put` to an open store over `MockStorage`, of a key other than `metadata`, returns no
error. -/
theorem put_mockStorage_ok (s : Store (GoString → Option (List UInt8))) {enc : AesCrypter}
    (connected : s.enc = some enc) (key : GoString) (allowed : key ≠ Metadata.metadataKey)
    (iv : Block) (data : List UInt8) : ∃ n, (s.put lib mockStorage iv key data).1 = .ok n := by
  obtain ⟨_, _, -, drained⟩ := drain_encryptReader lib.hmac enc iv (lib.gzip.compress data)
  simp [put, allowed, connected, drained, putCiphertext, mockStorage]

/-- An object put is read back: after a `Put` that returns no error, a `Get` of the same key
returns the data, whatever the IV and the keys, from a layer that reads back what it wrote
and with a gzip that undoes its compression. -/
theorem get_after_put (readsBack : layer.ReadsBack)
    (gunzip : ∀ data, lib.gzip.decompress (lib.gzip.compress data) = .ok data)
    {s : Store ω} {iv : Block} {key : GoString} {data : List UInt8} {n : Nat}
    (ok : (s.put lib layer iv key data).1 = .ok n) :
    (s.put lib layer iv key data).2.get lib layer key = .ok data := by
  rcases put_cases s iv key data with
    ⟨err, refused⟩ | ⟨allowed, enc, envelope, connected, sealed, written⟩
  · rw [refused] at ok; cases ok
  rw [written] at ok ⊢
  rw [get_of_envelope _ (by rw [putCiphertext_snd]; exact connected) allowed sealed
    (readsBack (putCiphertext_ok ok)), gunzip]
  rfl

end Objects

/-- The salt of the sample wipe. -/
def sampleSalt : List UInt8 := [1, 2, 3]

/-- Libraries for concrete runs: the identity block cipher, a constant MAC, a PBKDF2 of zero
bytes, a gzip that stores its input, and a JSON text that reads every text as the metadata
document of `sampleSalt`. -/
def sampleLibrary : Library :=
  ⟨fun _ => plainCipher, constantMac,
    ⟨fun _ _ => List.replicate 96 0, fun _ _ => by simp [encKeySize, hmacKeySize]⟩,
    ⟨fun data => data, .ok⟩,
    ⟨fun _ => [], fun _ => some (newMetadataDocument sampleSalt)⟩⟩

/-- A store opened on an empty `MockStorage`. -/
def openedStore : Store (GoString → Option (List UInt8)) :=
  { newStore (fun _ => none) [] with enc := some plainCrypter }

theorem get_after_put_mock :
    ∃ n, (openedStore.put sampleLibrary mockStorage zeroIv (ascii "a") [7]).1 = .ok n ∧
      (openedStore.put sampleLibrary mockStorage zeroIv (ascii "a") [7]).2.get sampleLibrary
        mockStorage (ascii "a") = .ok [7] :=
  let ⟨n, ok⟩ := put_mockStorage_ok sampleLibrary openedStore rfl (ascii "a") (by decide) zeroIv [7]
  ⟨n, ok, get_after_put mockStorage_lawful.readsBack (fun _ => rfl) ok⟩

/-! ## What a run of puts keeps -/

/-- `Put` after `Put`, each with the IV it draws, its key and its data, from a store and what
it holds: the store after them, and what it holds then, for the object each key names, the
data of its last put if that returned no error. -/
def putAll (path : GoString → GoString) :
    List (Block × GoString × List UInt8) → Store ω → (GoString → Option (List UInt8)) →
      Store ω × (GoString → Option (List UInt8))
  | [], s, held => (s, held)
  | (iv, key, data) :: ops, s, held =>
    match s.put lib layer iv key data with
    | (.ok _, s) => putAll path ops s (Function.update held (path key) (some data))
    | (_, s) => putAll path ops s (Function.update held (path key) none)

/-- The layer state `state` holds, for the crypter `enc`, the objects of `held`: each one
other than the metadata's, under every key that names it, as old.go's envelope of its
compressed data. -/
def Holds (path : GoString → GoString) (enc : AesCrypter) (state : ω)
    (held : GoString → Option (List UInt8)) : Prop :=
  ∀ key data, held (path key) = some data → path key ≠ path Metadata.metadataKey ∧
    ∃ iv envelope, encrypt lib.hmac enc iv (lib.gzip.compress data) = some envelope ∧
      layer.getReader state key = .ok envelope

/-- What a run of puts from an open store keeps: the crypter, the `metadata` object, a
container that exists, and the objects held. -/
structure Keeps (path : GoString → GoString) (enc : AesCrypter) (metadata : List UInt8)
    (s : Store ω) (held : GoString → Option (List UInt8)) : Prop where
  connected : s.enc = some enc
  metadata_eq : layer.getReader s.layer Metadata.metadataKey = .ok metadata
  present_eq : layer.present s.layer = .ok true
  holds : Holds lib layer path enc s.layer held

section Runs

variable {lib layer} {path : GoString → GoString} {enc : AesCrypter} {state state' : ω}
  {held : GoString → Option (List UInt8)}

/-- Forgetting an object keeps `Holds` across a change of the layer that leaves the objects
other keys name readable. -/
theorem Holds.forget (holds : Holds lib layer path enc state held) {key : GoString}
    (frame : ∀ {key' found}, path key' ≠ path key → layer.getReader state key' = .ok found →
      layer.getReader state' key' = .ok found) :
    Holds lib layer path enc state' (Function.update held (path key) none) := by
  intro key' data found
  have other : path key' ≠ path key := by
    intro same
    rw [same, Function.update_same] at found
    cases found
  obtain ⟨apart, iv, envelope, sealed, stored⟩ :=
    holds key' data (by rwa [Function.update_noteq other] at found)
  exact ⟨apart, iv, envelope, sealed, frame other stored⟩

/-- Recording an object written with its envelope keeps `Holds`. -/
theorem Holds.record (holds : Holds lib layer path enc state held) {key : GoString} {iv : Block}
    {data envelope : List UInt8} (apart : path key ≠ path Metadata.metadataKey)
    (sealed : encrypt lib.hmac enc iv (lib.gzip.compress data) = some envelope)
    (stored : ∀ {key'}, path key' = path key → layer.getReader state' key' = .ok envelope)
    (frame : ∀ {key' found}, path key' ≠ path key → layer.getReader state key' = .ok found →
      layer.getReader state' key' = .ok found) :
    Holds lib layer path enc state' (Function.update held (path key) (some data)) := by
  intro key' data' found
  by_cases same : path key' = path key
  · rw [same, Function.update_same, Option.some.injEq] at found
    subst found
    exact ⟨same ▸ apart, iv, envelope, sealed, stored same⟩
  · exact holds.forget frame key' data' (by rwa [Function.update_noteq same] at found ⊢)

/-- One put keeps `Keeps` when its key names the metadata only if it is `metadata` itself:
forgetting the object its key names whatever it returned, and recording its data when it
returned no error. -/
theorem Keeps.put (lawful : layer.Lawful path) {metadata : List UInt8} {s : Store ω}
    (keeps : Keeps lib layer path enc metadata s held) (iv : Block) (key : GoString)
    (data : List UInt8)
    (apart : key ≠ Metadata.metadataKey → path key ≠ path Metadata.metadataKey) :
    Keeps lib layer path enc metadata (s.put lib layer iv key data).2
        (Function.update held (path key) none) ∧
      ∀ n, (s.put lib layer iv key data).1 = .ok n →
        Keeps lib layer path enc metadata (s.put lib layer iv key data).2
          (Function.update held (path key) (some data)) := by
  rcases put_cases s iv key data with
    ⟨err, refused⟩ | ⟨allowed, enc', envelope, connected, sealed, written⟩
  · rw [refused]
    exact ⟨{ keeps with holds := keeps.holds.forget fun _ readable => readable }, by simp⟩
  obtain rfl : enc = enc' := Option.some.inj (keeps.connected.symm.trans connected)
  have kept : Keeps lib layer path enc metadata (s.putCiphertext layer key envelope).2
      (Function.update held (path key) none) := by
    rw [putCiphertext_snd]
    exact ⟨keeps.connected,
      lawful.getReader_putReader_of_ne (apart allowed).symm keeps.metadata_eq,
      lawful.present_putReader keeps.present_eq,
      keeps.holds.forget lawful.getReader_putReader_of_ne⟩
  rw [written]
  refine ⟨kept, fun n ok => ⟨kept.connected, kept.metadata_eq, kept.present_eq, ?_⟩⟩
  have stored := putCiphertext_ok ok
  rw [putCiphertext_snd] at stored ⊢
  exact keeps.holds.record (apart allowed) sealed (lawful.getReader_putReader stored)
    lawful.getReader_putReader_of_ne

/-- Every run of puts none of whose keys names the metadata under another key keeps
`Keeps`, with what the run holds. -/
theorem Keeps.putAll (lawful : layer.Lawful path) {metadata : List UInt8} :
    ∀ (ops : List (Block × GoString × List UInt8)) (s : Store ω) held,
      (∀ op ∈ ops, op.2.1 ≠ Metadata.metadataKey → path op.2.1 ≠ path Metadata.metadataKey) →
      Keeps lib layer path enc metadata s held →
        Keeps lib layer path enc metadata (s.putAll lib layer path ops held).1
          (s.putAll lib layer path ops held).2
  | [], _, _, _, keeps => keeps
  | (iv, key, data) :: ops, s, held, apart, keeps => by
    have step := keeps.put lawful iv key data (apart _ (List.mem_cons_self _ _))
    have rest := fun op member => apart op (List.mem_cons_of_mem _ member)
    rw [Store.putAll]
    split
    · next n s' written =>
      rw [written] at step
      exact Keeps.putAll lawful ops s' _ rest (step.2 n rfl)
    · next s' _ written =>
      rw [written] at step
      exact Keeps.putAll lawful ops s' _ rest step.1

end Runs

/-! ## Unlocking, and the metadata a wipe leaves -/

section Unlock

variable {lib layer} {s s' u : Store ω} {secret salt : List UInt8} {keys : Keys}

theorem newCrypter_unlockKeys (aes : List UInt8 → BlockCipher) (pbkdf2 : Pbkdf2)
    (secret salt : List UInt8) :
    newCrypter aes (unlockKeys pbkdf2 secret salt).encKey (unlockKeys pbkdf2 secret salt).authKey =
      .ok ⟨aes (unlockKeys pbkdf2 secret salt).encKey, (unlockKeys pbkdf2 secret salt).authKey⟩ := by
  have := pbkdf2.length_key secret salt
  simp only [encKeySize, hmacKeySize] at this
  simp [newCrypter, unlockKeys, deriveKeys, this, encKeySize, hmacKeySize]

theorem getStoreMetadata_of_cached {md : Metadata.StoreMetadata} (cached : s.meta = some md) :
    s.getStoreMetadata lib layer = (.ok md, s) := by
  simp [getStoreMetadata, Metadata.getStoreMetadata_of_cached _ cached]

end Unlock

/-- `Open` never checks the keys against what the store holds, so `Unlock` never checks the
secret: whether it returns an error, and which, is the same for every secret. -/
theorem unlock_accepts_any_secret (s : Store ω) (secret secret' : List UInt8) :
    (s.unlock lib layer secret).1.2 = (s.unlock lib layer secret').1.2 := by
  rcases loaded : s.getStoreMetadata lib layer with ⟨_ | md, s'⟩
  · simp [unlock, loaded]
  rcases present : layer.present s'.layer with _ | _ | _ <;>
    simp [unlock, loaded, openStore, present, newCrypter_unlockKeys]

/-! ## A wiped store keeps what it holds for the next session -/

section Persistence

variable {lib layer} {path : GoString → GoString} {salt secret : List UInt8} {s w t : Store ω}
  {keys : Keys} {ops : List (Block × GoString × List UInt8)}
  {held : GoString → Option (List UInt8)}

end Persistence

end Store

end IncBackup
