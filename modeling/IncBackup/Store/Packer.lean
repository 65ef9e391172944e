import IncBackup.Store.Session

/-!
# Packing objects

`backupLatest` stores each archive through a `Packer`: `Pack(key)` opens a pipe whose read
end a goroutine hands to the layer's `PutReader`; each `PutReader` of the packer compresses
and encrypts a reader into the pipe, and `Close` closes the write end and waits for the
layer's answer.  The pipe is modelled by what was written to it: the layer's `PutReader`
runs once the write end is closed, over all of it, and stores nothing when the writer was
closed with an error.

A packer that takes one reader and closes without error leaves the same object as `Put`:
a `Get` of its key returns the reader's data (`get_after_pack`).
-/

namespace IncBackup

namespace Store

open Stream Crypto

/-- The fields of `Packer`: its key, what was written to the pipe, `closed`, and
`closeErr`. -/
structure Packer where
  key : GoString
  piped : List UInt8
  closed : Bool
  closeErr : Option String

/-- `io.ErrClosedPipe`. -/
def errClosedPipe : String := "io: read/write on closed pipe"

variable {ω : Type} (lib : Library) (layer : StorageLayer ω)

/-- `Pack(key)`: a packer with an empty pipe, or the error. -/
def pack (key : GoString) (s : Store ω) : Except String Packer :=
  if key = Metadata.metadataKey then .error errForbiddenKey
  else if s.enc.isNone then .error errStoreNotConnected
  else .ok ⟨key, [], false, none⟩

/-- `p.closeWriter(err)`: on the first call the write end is closed with `err`, and the
goroutine's `PutReader` over the pipe returns its error into `closeErr`; it stores what was
written when `err` is nil, and fails with `err` otherwise. -/
def Packer.closeWriter (err : Option String) (p : Packer) (s : Store ω) : Packer × Store ω :=
  if p.closed then (p, s)
  else
    match err with
    | some err => ({ p with closed := true, closeErr := some err }, s)
    | none =>
      match layer.putReader s.layer p.key p.piped with
      | (after, result) => ({ p with closed := true, closeErr := result }, { s with layer := after })

/-- `p.PutReader(r)` of a reader holding `data`, with `iv` the IV `EncryptReader` draws:
`io.Copy` of the encrypter over the compressed data into the pipe. -/
def Packer.putReader (iv : Block) (data : List UInt8) (p : Packer) (s : Store ω) :
    Outcome Nat × Packer × Store ω :=
  match s.enc with
  | none => (.panic, p, s)
  | some enc =>
    let compressed := lib.gzip.compress data
    match drain (encryptReader lib.hmac enc bufferReader) (encryptReaderNew iv compressed)
        (copySizes (compressed.length + 52)) with
    | (ciphertext, .eof) =>
      if p.closed then
        match p.closeWriter layer (some errClosedPipe) s with
        | (p, s) => (.error errClosedPipe, p, s)
      else (.ok ciphertext.length, { p with piped := p.piped ++ ciphertext }, s)
    | (_, .error err) =>
      match p.closeWriter layer (some err) s with
      | (p, s) => (.error err, p, s)
    | (_, .panic) => (.panic, p, s)
    | (_, _) => (.hang, p, s)

/-- `p.Close()`. -/
def Packer.close (p : Packer) (s : Store ω) : Except String Unit × Packer × Store ω :=
  match p.closeWriter layer none s with
  | (p, s) =>
    match p.closeErr with
    | none => (.ok (), p, s)
    | some err => (.error err, p, s)

section Packing

variable {lib layer}

/-- A `PutReader` into an open pipe of an open store writes old.go's envelope of the
compressed data to the pipe, and leaves the store as it was. -/
theorem Packer.putReader_of_open {s : Store ω} {enc : AesCrypter} (connected : s.enc = some enc)
    (p : Packer) (running : p.closed = false) (iv : Block) (data : List UInt8) :
    ∃ envelope, encrypt lib.hmac enc iv (lib.gzip.compress data) = some envelope ∧
      p.putReader lib layer iv data s =
        (.ok envelope.length, { p with piped := p.piped ++ envelope }, s) := by
  obtain ⟨sealed, last, crypt, drained⟩ :=
    drain_encryptReader lib.hmac enc iv (lib.gzip.compress data)
  exact ⟨_, encrypt_of_cbcEncrypt crypt, by simp [putReader, connected, drained, running]⟩

/-- A `Close` that returns no error handed the layer all that was written, and the layer
took it. -/
theorem Packer.close_eq_ok {p p' : Packer} {s s' : Store ω}
    (closed : p.close layer s = (.ok (), p', s')) (running : p.closed = false) :
    ∃ after, layer.putReader s.layer p.key p.piped = (after, none) ∧
      s' = { s with layer := after } := by
  rcases written : layer.putReader s.layer p.key p.piped with ⟨after, _ | _⟩ <;>
    simp [close, closeWriter, running, written] at closed
  exact ⟨after, rfl, closed.2.symm⟩

/-- A packer that takes one reader and closes without error leaves the same object as `Put`:
after `Pack`, a `PutReader` and a `Close` that return no error, a `Get` of the key returns
the reader's data, from a layer that reads back what it wrote and with a gzip that undoes its
compression. -/
theorem get_after_pack (readsBack : layer.ReadsBack)
    (gunzip : ∀ data, lib.gzip.decompress (lib.gzip.compress data) = .ok data)
    {s : Store ω} {key : GoString} {p : Packer} (packed : s.pack key = .ok p) {iv : Block}
    {data : List UInt8} {n : Nat} {p' p'' : Packer} {s' s'' : Store ω}
    (wrote : p.putReader lib layer iv data s = (.ok n, p', s'))
    (closed : p'.close layer s' = (.ok (), p'', s'')) :
    s''.get lib layer key = .ok data := by
  have allowed : key ≠ Metadata.metadataKey := fun same => by simp [pack, same] at packed
  rcases connected : s.enc with _ | enc
  · simp [pack, allowed, connected] at packed
  simp only [pack, if_neg allowed, connected, Option.isNone_some, Bool.false_eq_true, if_false,
    Except.ok.injEq] at packed
  subst packed
  obtain ⟨envelope, sealed, putting⟩ := Packer.putReader_of_open connected ⟨key, [], false, none⟩ rfl iv data
  rw [putting, Prod.mk.injEq, Prod.mk.injEq] at wrote
  obtain ⟨-, rfl, rfl⟩ := wrote
  obtain ⟨after, stored, rfl⟩ := Packer.close_eq_ok closed rfl
  rw [get_of_envelope { s with layer := after } connected allowed sealed
    (readsBack stored), gunzip]
  rfl

/-- Over `MockStorage`, packing `[7]` under `a` and closing returns no error, and `Get`
returns `[7]`. -/
theorem get_after_pack_mock :
    ∃ n p' p'' s' s'', openedStore.pack (ascii "a") = .ok ⟨ascii "a", [], false, none⟩ ∧
      Packer.putReader sampleLibrary mockStorage zeroIv [7] ⟨ascii "a", [], false, none⟩
        openedStore = (.ok n, p', s') ∧
      p'.close mockStorage s' = (.ok (), p'', s'') ∧
      s''.get sampleLibrary mockStorage (ascii "a") = .ok [7] := by
  obtain ⟨envelope, -, putting⟩ := @Packer.putReader_of_open _ sampleLibrary mockStorage
    openedStore plainCrypter rfl ⟨ascii "a", [], false, none⟩ rfl zeroIv [7]
  have packed : openedStore.pack (ascii "a") = .ok ⟨ascii "a", [], false, none⟩ := rfl
  have closed : Packer.close mockStorage ⟨ascii "a", [] ++ envelope, false, none⟩ openedStore =
      (.ok (), _, _) := rfl
  exact ⟨_, _, _, _, _, packed, putting, closed,
    get_after_pack mockStorage_lawful.readsBack (fun _ => rfl) packed putting closed⟩

end Packing

end Store

end IncBackup
