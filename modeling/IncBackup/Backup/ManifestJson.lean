import IncBackup.Json.Time
import IncBackup.Backup.PathIndex

/-!
# Manifests as JSON

`Manifest.JSON` writes a manifest as a JSON object whose `entries` each go through
`ManifestEntry.MarshalJSON`: a map with the file's fields, the set, the parts when there are
any, the size unless the entry is a directory and the checksum, in base64, when it is set.
`ReadManifestData` reads the version first and then decodes the document: version 3 with
`Manifest.UnmarshalJSON`, versions 1 and 2 with `unmarshalV2Manifest`.  Both rebuild
`pathMap` from the entries, a later entry taking the path of an earlier one.

The entry decoders look up their keys in a `map[string]*json.RawMessage` and dereference the
pointer they get; a key that is missing, or whose value is `null`, is a nil dereference.
The decoders report one error where several fields fail: the source ranges over a Go map of
errors, in no fixed order, and the model takes the first in the order the source lists them.
-/

namespace IncBackup

namespace Backup

open Json

/-- How decoding stops: an error returned, or a run-time panic. -/
inductive Failure where
  | error (text : String)
  | panic (text : String)
deriving DecidableEq

/-- The panic of dereferencing a nil pointer. -/
def nilDereference : Failure :=
  .panic "runtime error: invalid memory address or nil pointer dereference"

/-- An error a decoder returns. -/
def returned : Except String α → Except Failure α := Except.mapError Failure.error

/-- `MarshalerError.Error()`: the error of a `MarshalJSON` method, with the type it was
called on. -/
def marshalerError (goType : String) (text : String) : String :=
  "json: error calling MarshalJSON for type " ++ goType ++ ": " ++ text

/-! ## Base64 -/

/-- The alphabet of `base64.StdEncoding`. -/
def base64Alphabet : GoString :=
  ascii "ABCDEFGHIJKLMNOPQRSTUVWXYZabcdefghijklmnopqrstuvwxyz0123456789+/"

/-- The digit of a six-bit value. -/
def base64Digit (value : Nat) : UInt8 := base64Alphabet.getD value 0x3D

/-- The padding byte `=`. -/
def base64Pad : UInt8 := 0x3D

/-- `base64.StdEncoding.EncodeToString`: four digits per three bytes, the last group
padded. -/
def base64Encode : List UInt8 → GoString
  | first :: second :: third :: rest =>
    let group := first.toNat * 65536 + second.toNat * 256 + third.toNat
    [base64Digit (group / 262144), base64Digit (group / 4096 % 64),
      base64Digit (group / 64 % 64), base64Digit (group % 64)] ++ base64Encode rest
  | [first, second] =>
    let group := first.toNat * 65536 + second.toNat * 256
    [base64Digit (group / 262144), base64Digit (group / 4096 % 64),
      base64Digit (group / 64 % 64), base64Pad]
  | [first] =>
    let group := first.toNat * 65536
    [base64Digit (group / 262144), base64Digit (group / 4096 % 64), base64Pad, base64Pad]
  | [] => []

/-- The six-bit value of a digit. -/
def base64Value (digit : UInt8) : Option Nat :=
  let index := base64Alphabet.indexOf digit
  if index < 64 then some index else none

/-- `CorruptInputError.Error()`. -/
def corruptInput (offset : Nat) : String :=
  "illegal base64 data at input byte " ++ toString offset

/-- Decode groups of four digits, the last one possibly padded; `offset` is the position of
the group in the input. -/
def base64Groups (offset : Nat) : GoString → Except String (List UInt8)
  | [] => .ok []
  | [first, second, 0x3D, 0x3D] =>
    match base64Value first, base64Value second with
    | some a, some b => .ok [((a * 64 + b) / 16).toUInt8]
    | _, _ => .error (corruptInput offset)
  | [first, second, third, 0x3D] =>
    match base64Value first, base64Value second, base64Value third with
    | some a, some b, some c =>
      let group := (a * 64 + b) * 64 + c
      .ok [(group / 1024).toUInt8, (group / 4 % 256).toUInt8]
    | _, _, _ => .error (corruptInput offset)
  | first :: second :: third :: fourth :: rest =>
    match base64Value first, base64Value second, base64Value third, base64Value fourth with
    | some a, some b, some c, some d =>
      let group := ((a * 64 + b) * 64 + c) * 64 + d
      (base64Groups (offset + 4) rest).map fun bytes =>
        [(group / 65536).toUInt8, (group / 256 % 256).toUInt8, (group % 256).toUInt8] ++ bytes
    | _, _, _, _ => .error (corruptInput offset)
  | _ => .error (corruptInput offset)

/-- `base64.StdEncoding.DecodeString`, which skips line breaks. -/
def base64Decode (text : GoString) : Except String (List UInt8) :=
  base64Groups 0 (text.filter fun byte => byte ≠ 0x0A ∧ byte ≠ 0x0D)

/-- `json.Unmarshal` into a `[]byte`: a base64 string; `null` gives a nil slice. -/
def decodeBytes : Json → Except String (List UInt8)
  | .null => .ok []
  | .string text => base64Decode text
  | value => .error (typeError value "[]uint8")

/-! ### The base64 round trip -/

theorem base64Alphabet_nodup : base64Alphabet.Nodup := List.Nodup.of_map UInt8.toNat (by decide)

/-- A digit is read back as its six-bit value; it is ASCII, and neither padding nor a line
break. -/
theorem base64Value_digit {value : Nat} (small : value < 64) :
    base64Value (base64Digit value) = some value ∧ base64Digit value ≠ base64Pad ∧
      base64Digit value < 0x80 ∧ base64Digit value ≠ 0x0A ∧ base64Digit value ≠ 0x0D := by
  have bound : value < base64Alphabet.length := small
  have mem := List.getElem_mem bound
  rw [base64Value, base64Digit, List.getD_eq_getElem _ _ bound,
    List.indexOf_getElem base64Alphabet_nodup]
  exact ⟨by simp [small], (show ∀ byte ∈ base64Alphabet,
    byte ≠ base64Pad ∧ byte < 0x80 ∧ byte ≠ 0x0A ∧ byte ≠ 0x0D by decide) _ mem⟩

/-- The byte of a number below 256. -/
theorem toUInt8_toNat {n : Nat} {b : UInt8} (same : n = b.toNat) : n.toUInt8 = b :=
  UInt8.ext (show n % 256 = b.toNat by rw [same]; exact Nat.mod_eq_of_lt b.toNat_lt_size)

/-- The groups of an encoding decode to the bytes encoded. -/
theorem base64Groups_encode : ∀ (offset : Nat) (bytes : List UInt8),
    base64Groups offset (base64Encode bytes) = .ok bytes
  | offset, first :: second :: third :: rest => by
    have := first.toNat_lt_size; have := second.toNat_lt_size; have := third.toNat_lt_size
    simp only [UInt8.size] at *
    set group := first.toNat * 65536 + second.toNat * 256 + third.toNat
    obtain ⟨v1, -⟩ := base64Value_digit (show group / 262144 < 64 by omega)
    obtain ⟨v2, -⟩ := base64Value_digit (show group / 4096 % 64 < 64 by omega)
    obtain ⟨v3, p3, -⟩ := base64Value_digit (show group / 64 % 64 < 64 by omega)
    obtain ⟨v4, p4, -⟩ := base64Value_digit (show group % 64 < 64 by omega)
    have decoded : ((group / 262144 * 64 + group / 4096 % 64) * 64 + group / 64 % 64) * 64 +
      group % 64 = group := by omega
    have split : base64Encode (first :: second :: third :: rest) =
        base64Digit (group / 262144) :: base64Digit (group / 4096 % 64) ::
          base64Digit (group / 64 % 64) :: base64Digit (group % 64) :: base64Encode rest := rfl
    rw [split, base64Groups.eq_4 _ _ _ _ _ _ (fun h => absurd h p3) (fun h => absurd h p4)]
    simp only [v1, v2, v3, v4, base64Groups_encode (offset + 4) rest, Except.map, decoded,
      toUInt8_toNat (show group / 65536 = first.toNat by omega),
      toUInt8_toNat (show group / 256 % 256 = second.toNat by omega),
      toUInt8_toNat (show group % 256 = third.toNat by omega), List.cons_append, List.nil_append]
  | offset, [first, second] => by
    have := first.toNat_lt_size; have := second.toNat_lt_size
    simp only [UInt8.size] at *
    set group := first.toNat * 65536 + second.toNat * 256
    obtain ⟨v1, -⟩ := base64Value_digit (show group / 262144 < 64 by omega)
    obtain ⟨v2, -⟩ := base64Value_digit (show group / 4096 % 64 < 64 by omega)
    obtain ⟨v3, p3, -⟩ := base64Value_digit (show group / 64 % 64 < 64 by omega)
    have decoded : (group / 262144 * 64 + group / 4096 % 64) * 64 + group / 64 % 64 =
      group / 64 := by omega
    rw [base64Encode, show base64Pad = 61 from rfl,
      base64Groups.eq_3 _ _ _ _ (fun h => absurd h p3)]
    simp only [v1, v2, v3, decoded, toUInt8_toNat (show group / 64 / 1024 = first.toNat by omega),
      toUInt8_toNat (show group / 64 / 4 % 256 = second.toNat by omega)]
  | offset, [first] => by
    have := first.toNat_lt_size
    simp only [UInt8.size] at *
    obtain ⟨v1, -⟩ := base64Value_digit (show first.toNat * 65536 / 262144 < 64 by omega)
    obtain ⟨v2, -⟩ := base64Value_digit (show first.toNat * 65536 / 4096 % 64 < 64 by omega)
    rw [base64Encode, show base64Pad = 61 from rfl, base64Groups.eq_2]
    simp only [v1, v2, toUInt8_toNat (show (first.toNat * 65536 / 262144 * 64 +
      first.toNat * 65536 / 4096 % 64) / 16 = first.toNat by omega)]
  | _, [] => rfl

/-- An encoding is ASCII and has no line break. -/
theorem base64Encode_ascii : ∀ (bytes : List UInt8), ∀ byte ∈ base64Encode bytes,
    byte < 0x80 ∧ byte ≠ 0x0A ∧ byte ≠ 0x0D
  | first :: second :: third :: rest => by
    have := first.toNat_lt_size; have := second.toNat_lt_size; have := third.toNat_lt_size
    simp only [UInt8.size] at *
    simp only [base64Encode, List.cons_append, List.nil_append, List.forall_mem_cons]
    exact ⟨(base64Value_digit (by omega)).2.2, (base64Value_digit (by omega)).2.2,
      (base64Value_digit (by omega)).2.2, (base64Value_digit (by omega)).2.2,
      base64Encode_ascii rest⟩
  | [first, second] => by
    have := first.toNat_lt_size; have := second.toNat_lt_size
    simp only [UInt8.size] at *
    simp only [base64Encode, List.forall_mem_cons]
    exact ⟨(base64Value_digit (by omega)).2.2, (base64Value_digit (by omega)).2.2,
      (base64Value_digit (by omega)).2.2, by decide, List.forall_mem_nil _⟩
  | [first] => by
    have := first.toNat_lt_size
    simp only [UInt8.size] at *
    simp only [base64Encode, List.forall_mem_cons]
    exact ⟨(base64Value_digit (by omega)).2.2, (base64Value_digit (by omega)).2.2, by decide,
      by decide, List.forall_mem_nil _⟩
  | [] => List.forall_mem_nil _

/-- `base64.StdEncoding` decodes what it encodes. -/
theorem base64Decode_base64Encode (bytes : List UInt8) :
    base64Decode (base64Encode bytes) = .ok bytes := by
  rw [base64Decode, List.filter_eq_self.mpr fun byte mem => by
    simpa using (base64Encode_ascii bytes byte mem).2, base64Groups_encode]

/-- `copy(f.SHA1[:], bytes)`: the first twenty bytes overwrite the start of the array. -/
def copyDigest (digest : Digest) (bytes : List UInt8) : Digest :=
  ⟨bytes.take 20 ++ digest.bytes.drop (min 20 bytes.length), by
    have := digest.bytes_length
    simp only [List.length_append, List.length_take, List.length_drop]
    omega⟩

/-! ## Parts -/

/-- `ManifestEntryPart.MarshalJSON`: the key, and the range unless it is empty. -/
def ManifestEntryPart.toJson (part : ManifestEntryPart) : Json :=
  .object ([(ascii "key", .string part.key)] ++
    if part.range = ByteRange.empty then []
    else [(ascii "range", .array [.number part.range.low, .number part.range.high])])

/-- A key matches a struct field's name: `encoding/json` matches without regard to case. -/
def keyMatches (key name : GoString) : Bool :=
  let lower := fun (byte : UInt8) => if 0x41 ≤ byte ∧ byte ≤ 0x5A then byte + 0x20 else byte
  key.map lower = name.map lower

/-- `json.Unmarshal` into a `[2]int`: the items decode into the elements in turn and the
elements without an item become zero. -/
def decodeRange (current : ByteRange) : Json → Except String ByteRange
  | .null => .ok current
  | .array items => do
    let low ← match items with
      | low :: _ => decodeInt current.low low
      | [] => .ok 0
    let high ← match items with
      | _ :: high :: _ => decodeInt current.high high
      | _ => .ok 0
    .ok ⟨low, high⟩
  | value => .error (typeError value "store.ByteRange")

/-- One key of a `ManifestEntryPart` object; other keys are ignored. -/
def partField (part : ManifestEntryPart) (entry : GoString × Json) :
    Except String ManifestEntryPart :=
  if keyMatches entry.1 (ascii "key") then
    (decodeString part.key entry.2).map fun key => { part with key }
  else if keyMatches entry.1 (ascii "range") then
    (decodeRange part.range entry.2).map fun range => { part with range }
  else .ok part

/-- `json.Unmarshal` into a `ManifestEntryPart`, which has no method of its own. -/
def decodePart (current : ManifestEntryPart) : Json → Except String ManifestEntryPart
  | .null => .ok current
  | .object fields => fields.foldlM partField current
  | value => .error (typeError value "backup.ManifestEntryPart")

/-- `json.Unmarshal` into a `[]ManifestEntryPart`: each item into a zero part. -/
def decodeParts : Json → Except String (List ManifestEntryPart)
  | .null => .ok []
  | .array items => items.mapM (decodePart ⟨[], ByteRange.empty⟩)
  | value => .error (typeError value "[]backup.ManifestEntryPart")

/-! ## Entries -/

/-- `ManifestEntry.MarshalJSON`, its map written with sorted keys: `parts` only when there
are parts, `size` unless the entry is a directory, `sha1` when the checksum is set. -/
def ManifestEntry.toJson (entry : ManifestEntry) : Except String Json := do
  let mtime ← (Time.marshalJSON entry.file.modTime).mapError (marshalerError "time.Time")
  .ok (.object (
    [(ascii "gid", .number entry.file.gid), (ascii "mode", .number entry.file.mode.bits.toNat),
      (ascii "mtime", mtime), (ascii "name", .string entry.file.name)] ++
    (if entry.parts = [] then []
      else [(ascii "parts", .array (entry.parts.map ManifestEntryPart.toJson))]) ++
    [(ascii "root", .string entry.file.root), (ascii "set", .string entry.set)] ++
    (if entry.file.hasChecksum then [(ascii "sha1", .string (base64Encode entry.file.sha1.bytes))]
      else []) ++
    (if entry.file.isDir then [] else [(ascii "size", .number entry.file.size)]) ++
    [(ascii "uid", .number entry.file.uid)]))

/-- `json.Unmarshal` into a `map[string]*json.RawMessage`; `null` gives a nil map, in which
every key is missing. -/
def decodeKeymap : Json → Except String (List (GoString × Json))
  | .null => .ok []
  | .object fields => .ok fields
  | value => .error (typeError value "map[string]*json.RawMessage")

/-- `*keymap[key]`: a missing key and a `null` value are nil pointers. -/
def deref (keymap : List (GoString × Json)) (key : String) : Except Failure Json :=
  match field keymap (ascii key) with
  | none | some .null => .error nilDereference
  | some value => .ok value

/-- `if raw, ok := keymap[key]; ok { ... *raw ... }`: a key that is present is dereferenced. -/
def derefPresent (keymap : List (GoString × Json)) (key : String) :
    Except Failure (Option Json) :=
  match field keymap (ascii key) with
  | none => .ok none
  | some .null => .error nilDereference
  | some value => .ok (some value)

/-- Decode an optional key, or keep the zero value when it is absent. -/
def decodePresent (decode : Json → Except String α) (zero : α) : Option Json → Except String α
  | some value => decode value
  | none => .ok zero

/-- The record of an entry from its decoded fields. -/
def fileOf (root name : GoString) (mode : Int) (modTime : Time) (uid gid : Int) (size : Int)
    (sha1 : Digest) : File :=
  ⟨root, name, size, ⟨mode.toNat.toUInt32⟩, modTime, uid, gid, sha1⟩

/-- `ManifestEntry.UnmarshalJSON` into the zero entry the decoder allocates. -/
def ManifestEntry.fromJson (value : Json) : Except Failure ManifestEntry := do
  let keymap ← returned (decodeKeymap value)
  let root ← deref keymap "root"
  let name ← deref keymap "name"
  let mode ← deref keymap "mode"
  let mtime ← deref keymap "mtime"
  let uid ← deref keymap "uid"
  let gid ← deref keymap "gid"
  let set ← deref keymap "set"
  let parts ← derefPresent keymap "parts"
  let size ← derefPresent keymap "size"
  let sha1 ← derefPresent keymap "sha1"
  returned do
    let root ← decodeString [] root
    let name ← decodeString [] name
    let mode ← decodeUInt32 0 mode
    let modTime ← Time.unmarshalJSON Time.zero mtime
    let uid ← decodeInt 0 uid
    let gid ← decodeInt 0 gid
    let set ← decodeString [] set
    let parts ← decodePresent decodeParts [] parts
    let size ← decodePresent (decodeInt 0) 0 size
    let sha1 ← decodePresent (fun raw => (decodeBytes raw).map (copyDigest Digest.zero))
      Digest.zero sha1
    .ok ⟨fileOf root name mode modTime uid gid size sha1, set, parts⟩

/-! ## Manifests -/

/-- `Manifest.JSON`: `MarshalJSON` sets `Version` to 3 and writes the struct's fields. -/
def Manifest.json (manifest : Manifest) : Except String Json :=
  Except.mapError (marshalerError "*backup.Manifest") do
    let created ← (Time.marshalJSON manifest.created).mapError (marshalerError "time.Time")
    let updated ← (Time.marshalJSON manifest.updated).mapError (marshalerError "time.Time")
    let entries ← (manifest.entries.mapM fun ptr => (manifest.heap ptr).toJson).mapError
      (marshalerError "*backup.ManifestEntry")
    pure (Json.object [(ascii "version", .number 3), (ascii "lastSet", .string manifest.lastSet),
      (ascii "created", created), (ascii "updated", updated),
      (ascii "entries", .array entries)])

/-- The fields of the `manifest` struct `Manifest.UnmarshalJSON` decodes into; a `null`
entry is a nil pointer. -/
structure Decoded where
  version : Int
  lastSet : GoString
  created : Time
  updated : Time
  entries : List (Option ManifestEntry)

/-- The zero `manifest`. -/
def Decoded.zero : Decoded := ⟨0, [], Time.zero, Time.zero, []⟩

/-- `json.Unmarshal` into a `[]*ManifestEntry`: `null` items are nil pointers, the others go
through `ManifestEntry.UnmarshalJSON`. -/
def decodeEntries : Json → Except Failure (List (Option ManifestEntry))
  | .null => .ok []
  | .array items => items.mapM fun item =>
    match item with
    | .null => .ok none
    | item => (ManifestEntry.fromJson item).map some
  | value => .error (.error (typeError value "[]*backup.ManifestEntry"))

/-- One key of the `manifest` object; other keys are ignored. -/
def manifestField (decoded : Decoded) (entry : GoString × Json) : Except Failure Decoded :=
  let (key, value) := entry
  if keyMatches key (ascii "version") then
    returned ((decodeInt decoded.version value).map fun version => { decoded with version })
  else if keyMatches key (ascii "lastSet") then
    returned ((decodeString decoded.lastSet value).map fun lastSet => { decoded with lastSet })
  else if keyMatches key (ascii "created") then
    returned ((Time.unmarshalJSON decoded.created value).map fun created => { decoded with created })
  else if keyMatches key (ascii "updated") then
    returned ((Time.unmarshalJSON decoded.updated value).map fun updated => { decoded with updated })
  else if keyMatches key (ascii "entries") then
    (decodeEntries value).map fun entries => { decoded with entries }
  else .ok decoded

/-- `buildPathMap`, on a manifest whose entries are the cells `0`, `1`, ... in order: each
entry's path is mapped to its cell, a later entry taking the path of an earlier one. -/
def buildPathMap (entries : List ManifestEntry) : GoString → Option EntryPtr :=
  (List.range entries.length).foldl
    (fun pathMap ptr => Function.update pathMap (entries.getD ptr default).file.path (some ptr))
    fun _ => none

/-- The manifest of decoded fields, with its path map rebuilt; a nil entry is dereferenced
by `buildPathMap`. -/
def Decoded.build (decoded : Decoded) : Except Failure Manifest := do
  let entries ← decoded.entries.mapM fun entry => match entry with
    | some entry => .ok entry
    | none => .error nilDereference
  .ok ⟨decoded.version, decoded.lastSet, decoded.created, decoded.updated,
    List.range entries.length, buildPathMap entries, fun ptr => entries.getD ptr default,
    entries.length⟩

/-- `Manifest.UnmarshalJSON`: decode into the method-free `manifest` and rebuild the path
map. -/
def Manifest.fromJson (value : Json) : Except Failure Manifest := do
  let decoded ← match value with
    | .null => .ok Decoded.zero
    | .object fields => fields.foldlM manifestField Decoded.zero
    | value => .error (.error (typeError value "backup.manifest"))
  decoded.build

/-! ## Version 2 manifests -/

/-- The panic of indexing `strings.Split(obj, "/")` at 1 when `obj` has no slash. -/
def splitIndexPanic : Failure := .panic "runtime error: index out of range [1] with length 1"

/-- The first error of a list, in the order the source lists the fields. -/
def firstError : List (Option String) → Except Failure Unit
  | [] => .ok ()
  | some text :: _ => .error (.error text)
  | none :: rest => firstError rest

/-- The error of a decoding, if any. -/
def errorOf : Except String α → Option String
  | .error text => some text
  | .ok _ => none

/-- `unmarshalV2ManifestEntry` into a zero entry: the file's fields, then the `_` key,
`set/key`, then the checksum. -/
def unmarshalV2ManifestEntry (value : Json) : Except Failure ManifestEntry := do
  let keymap ← returned (decodeKeymap value)
  let root ← deref keymap "root"
  let name ← deref keymap "name"
  let mode ← deref keymap "mode"
  let mtime ← deref keymap "mtime"
  let uid ← deref keymap "uid"
  let gid ← deref keymap "gid"
  let size ← derefPresent keymap "size"
  let root := decodeString [] root
  let name := decodeString [] name
  let mode := decodeUInt32 0 mode
  let modTime := Time.unmarshalJSON Time.zero mtime
  let uid := decodeInt 0 uid
  let gid := decodeInt 0 gid
  let size := decodePresent (decodeInt 0) 0 size
  firstError [errorOf root, errorOf name, errorOf mode, errorOf modTime, errorOf uid,
    errorOf gid, errorOf size]
  let file := fileOf (root.toOption.getD []) (name.toOption.getD []) (mode.toOption.getD 0)
    (modTime.toOption.getD Time.zero) (uid.toOption.getD 0) (gid.toOption.getD 0)
    (size.toOption.getD 0) Digest.zero
  let (set, parts) ← match ← derefPresent keymap "_" with
    | none => .ok ([], [])
    | some key => do
      let text ← returned (decodeString [] key)
      match text.splitOn 0x2F with
      | set :: key :: _ => .ok (set, [⟨key, ByteRange.empty⟩])
      | _ => .error splitIndexPanic
  let sha1 ← match ← derefPresent keymap "sha1" with
    | none => .ok Digest.zero
    | some raw => returned ((decodeBytes raw).map (copyDigest Digest.zero))
  .ok ⟨{ file with sha1 }, set, parts⟩

/-- `unmarshalV2ManifestEntries`: `null` items are nil pointers and are dereferenced; the
first entry that fails stops the loop. -/
def unmarshalV2ManifestEntries (value : Json) : Except Failure (List ManifestEntry) :=
  match value with
  | .null => .ok []
  | .array items => items.mapM fun item =>
    match item with
    | .null => .error nilDereference
    | item => unmarshalV2ManifestEntry item
  | value => .error (.error (typeError value "[]*json.RawMessage"))

/-- `unmarshalV2Manifest`: the version, the key as `LastSet`, the creation time and the
entries, then `buildPathMap`. -/
def unmarshalV2Manifest (value : Json) : Except Failure Manifest := do
  let keymap ← returned (decodeKeymap value)
  let version ← deref keymap "version"
  let key ← deref keymap "key"
  let created ← deref keymap "created"
  let entries ← deref keymap "entries"
  let version := decodeInt 0 version
  let lastSet := decodeString [] key
  let created := Time.unmarshalJSON Time.zero created
  let entries := unmarshalV2ManifestEntries entries
  if let .error (.panic text) := entries then .error (.panic text)
  let entriesError := match entries with
    | .error (.error text) => some text
    | _ => none
  firstError [errorOf version, errorOf lastSet, errorOf created, entriesError]
  Decoded.build ⟨version.toOption.getD 0, lastSet.toOption.getD [],
    created.toOption.getD Time.zero, Time.zero,
    ((entries.toOption.getD []).map some)⟩

/-! ## Reading a manifest -/

/-- `util.ParseVersionJSON`: the `version` of an object, zero when there is none; none where
the document does not decode into `struct { Version int }`. -/
def parseVersionJSON : Json → Option Int
  | .null => some 0
  | .object fields => fields.foldlM
    (fun version entry =>
      if keyMatches entry.1 (ascii "version") then (decodeInt version entry.2).toOption
      else some version) 0
  | _ => none

/-- `ErrMalformedConfig`. -/
def errMalformedConfig : Failure := .error "malformed config data"

/-- `ErrBadVersion`. -/
def errBadVersion : Failure := .error "bad version"

/-- `ReadManifestData` of data that parses to `document`, none when the data is not JSON
text. -/
def readManifestData : Option Json → Except Failure Manifest
  | none => .error errMalformedConfig
  | some document =>
    match parseVersionJSON document with
    | none => .error errMalformedConfig
    | some 1 | some 2 => unmarshalV2Manifest document
    | some 3 => Manifest.fromJson document
    | some _ => .error errBadVersion

/-! ## Where the round trip fails -/

/-- `mapM` in `Except` fails when it meets an item that fails. -/
theorem mapM_error_of_mem {f : α → Except ε β} {item : α} {items : List α}
    (member : item ∈ items) {text : ε} (failed : f item = .error text) :
    ∃ text, items.mapM f = .error text := by
  induction items with
  | nil => cases member
  | cons head rest more =>
    rw [List.mapM_cons]
    cases found : f head with
    | error text => exact ⟨text, rfl⟩
    | ok value =>
      have later : item ∈ rest := by
        rcases List.mem_cons.1 member with rfl | later
        · rw [failed] at found; cases found
        · exact later
      obtain ⟨text, failing⟩ := more later
      exact ⟨text, by simp only [failing]; rfl⟩

/-- An entry whose modification time lies after the year 9999 makes `Manifest.JSON` fail. -/
theorem json_error_of_late_modTime {manifest : Manifest} {ptr : EntryPtr}
    (member : ptr ∈ manifest.entries) (late : 10000 ≤ (manifest.heap ptr).file.modTime.year) :
    ∃ text, manifest.json = .error text := by
  have entry : (manifest.heap ptr).toJson = .error (marshalerError "time.Time"
      "Time.MarshalJSON: year outside of range [0,9999]") := by
    simp only [ManifestEntry.toJson, Time.marshalJSON, late, or_true, if_true]
    rfl
  obtain ⟨text, failing⟩ :=
    @mapM_error_of_mem _ _ _ (fun ptr => (manifest.heap ptr).toJson) _ _ member _ entry
  unfold Manifest.json
  rw [failing]
  cases Time.marshalJSON manifest.created <;> cases Time.marshalJSON manifest.updated <;>
    exact ⟨_, rfl⟩

/-- A file named by one byte that is not UTF-8, in the root directory. -/
def namedByByte (byte : UInt8) : File := { (default : File) with root := ascii "/", name := [byte] }

/-- `NewManifest` of the files `/\xfe` and `/\xff`. -/
def invalidNamesManifest : Manifest :=
  Manifest.newManifest (fun _ => Digest.zero) ⟨fun _ => [], fun _ => []⟩ Time.zero
    [namedByByte 0xFF, namedByByte 0xFE]

/-- The manifest of the files `/\xfe` and `/\xff` is written, and read back with both names
turned into U+FFFD: the entries no longer carry their names, and two entries share a path. -/
theorem readManifestData_invalid_names :
    Manifest.Reachable (fun _ => Digest.zero) invalidNamesManifest ∧
    invalidNamesManifest.entries.map (fun ptr => (invalidNamesManifest.heap ptr).file.name) =
      [[0xFE], [0xFF]] ∧
    ∃ json, invalidNamesManifest.json = .ok json ∧
    ∃ read, readManifestData (some json.reread) = .ok read ∧
      read.entries.map (fun ptr => (read.heap ptr).file.name) = [runeError, runeError] ∧
      ¬ read.PathIndexed :=
  ⟨.newManifest _ _ _, rfl, _, rfl, _, rfl, rfl,
    fun indexed => absurd indexed.nodup_paths (by decide)⟩

/-! ## What the decoder does not check -/

/-- The keys every entry must have, for a regular file `/a` in the set `s`, without parts. -/
def plainEntryFields : List (GoString × Json) :=
  [(ascii "root", .string (ascii "/")), (ascii "name", .string (ascii "a")),
    (ascii "mode", .number 0), (ascii "mtime", .string (ascii "0001-01-01T00:00:00Z")),
    (ascii "uid", .number 0), (ascii "gid", .number 0), (ascii "set", .string (ascii "s"))]

/-- A version 3 manifest document with these entries. -/
def manifestDocument (entries : List Json) : Json :=
  .object [(ascii "version", .number 3), (ascii "entries", .array entries)]

/-- A version 2 manifest document with these entries. -/
def legacyDocument (entries : List Json) : Json :=
  .object [(ascii "version", .number 2), (ascii "key", .string (ascii "k")),
    (ascii "created", .string (ascii "0001-01-01T00:00:00Z")), (ascii "entries", .array entries)]

/-- The entry of `/a` with one part. -/
def partedEntry : Json :=
  .object (plainEntryFields ++
    [(ascii "parts", .array [.object [(ascii "key", .string (ascii "0"))]])])

/-- The decoder checks none of what the rest of the program assumes of a manifest: an entry
without `root` is a nil dereference, a version 2 key `_` without a slash is indexed past
the end of its split, two entries of one path are accepted and break the path index, and a
regular file without parts is accepted, whose `e.Parts[0]` `RestoreToPath` reads. -/
theorem readManifestData_unchecked :
    readManifestData (some (manifestDocument [.object []])) = .error nilDereference ∧
    readManifestData (some (legacyDocument
      [.object (plainEntryFields ++ [(ascii "_", .string (ascii "s"))])])) =
      .error splitIndexPanic ∧
    (∃ read, readManifestData (some (manifestDocument [partedEntry, partedEntry])) = .ok read ∧
      ¬ read.PathIndexed) ∧
    (∃ read,
      readManifestData (some (manifestDocument [.object plainEntryFields])) = .ok read ∧
      ∃ ptr ∈ read.entries, (read.heap ptr).file.isDir = false ∧ (read.heap ptr).parts = []) :=
  ⟨rfl, rfl, ⟨_, rfl, fun indexed => absurd indexed.nodup_paths (by decide)⟩,
    ⟨_, rfl, 0, by decide, by decide, by decide⟩⟩

end Backup

end IncBackup
