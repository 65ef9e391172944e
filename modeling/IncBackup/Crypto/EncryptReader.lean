import IncBackup.Crypto.Cipher

/-!
# The streaming encrypter

`encryptReader` produces the envelope of old.go's `encrypt` one `Read` at a time.  The
IV is its first output.  A `Read` that its buffer cannot fill copies the next whole
blocks of plaintext, rounded up past the bytes asked for, encrypts them and writes them
to the HMAC; at the end of the plaintext it pads, encrypts, and appends the HMAC sum.

The invariant is stated over the bytes the reader still emits (`EncryptPending`): its
buffer, then the CBC encryption of the padded plaintext still to come from the current
chaining block, then the HMAC sum of everything the MAC has seen with that ciphertext.
Every `Read` keeps it, whatever the lengths of the reads and however the source splits
its data, so the reader emits exactly old.go's envelope.
-/

namespace IncBackup

namespace Crypto

open Stream

/-- The fields of `encryptReader`: the plaintext source's state, the CBC chaining block,
the bytes written to the HMAC, the unread bytes of `buf`, and `fin`. -/
structure EncryptReader (σ : Type) where
  text : σ
  cbc : List UInt8
  mac : List UInt8
  buf : List UInt8
  fin : Bool

variable {σ : Type} (hmac : HmacSha1) (crypter : AesCrypter) (source : Reader σ)

/-- `aesCrypter.EncryptReader` once the IV is drawn: the IV is written to the HMAC and is
the first content of `buf`. -/
def encryptReaderNew (iv : Block) (text : σ) : EncryptReader σ :=
  ⟨text, iv.bytes, iv.bytes, iv.bytes, false⟩

/-- The `target` of a `Read` of `size` bytes after `drained` came from the buffer: the bytes
still asked for, rounded up past the next block boundary. -/
def readTarget (size drained : Nat) : Nat := ((size - drained) / blockSize + 1) * blockSize

/-- `encryptReader.Read` into a slice of length `size`. -/
def encryptRead (e : EncryptReader σ) (size : Nat) : ReadOutcome (EncryptReader σ) :=
  let drained := bufferRead e.buf size
  if drained.data.length = size ∨ e.fin then
    .done { e with buf := drained.rest } drained.data drained.status
  else
    match copyN source e.text (readTarget size drained.data.length) with
    | .done text plain (.error message) =>
      .done { e with text := text, buf := drained.rest ++ plain } drained.data (.error message)
    | .done text plain status =>
      let fin := status == .eof
      let buf := if fin then padBuffer (drained.rest ++ plain) else drained.rest ++ plain
      match cbcEncrypt crypter.bc e.cbc buf with
      | none => .panic
      | some (sealed, cbc) =>
        let mac := e.mac ++ sealed
        let buf := if fin then sealed ++ hmac.sum crypter.authKey mac else sealed
        let more := bufferRead buf (size - drained.data.length)
        .done ⟨text, cbc, mac, more.rest, fin⟩ (drained.data ++ more.data) more.status
    | .panic => .panic
    | .hang => .hang

/-- `encryptReader` as an `io.Reader`. -/
def encryptReader : Reader (EncryptReader σ) := ⟨encryptRead hmac crypter source⟩

/-! ## What the reader still emits -/

/-- What an encrypter in state `e` still emits: after the end of the plaintext, the rest of
its buffer; before it, the buffer, the CBC encryption of the padded plaintext the source
still emits, and the HMAC sum of all the ciphertext. -/
def EncryptPending (e : EncryptReader σ) (output : List UInt8) : Prop :=
  (e.fin = true ∧ output = e.buf) ∨
    (e.fin = false ∧ e.cbc.length = blockSize ∧ ∃ rest sealed last, Emits source e.text rest ∧
      cbcEncrypt crypter.bc e.cbc (padBuffer rest) = some (sealed, last) ∧
      output = e.buf ++ sealed ++ hmac.sum crypter.authKey (e.mac ++ sealed))

/-- The read target is a positive number of whole blocks past the bytes asked for. -/
theorem readTarget_spec (size drained : Nat) :
    (readTarget size drained) % blockSize = 0 ∧ blockSize ≤ readTarget size drained ∧
      size - drained < readTarget size drained := by
  unfold readTarget blockSize
  omega

variable {hmac crypter source}

/-- A `Read` the buffer fills returns from the buffer alone. -/
theorem encryptPending_of_full {e : EncryptReader σ} {output : List UInt8} {size : Nat}
    (pending : EncryptPending hmac crypter source e output) (pos : 0 < size)
    (full : size ≤ e.buf.length) :
    encryptRead hmac crypter source e size =
        .done { e with buf := e.buf.drop size } (e.buf.take size) .ok ∧
      ∃ rest, output = e.buf.take size ++ rest ∧
        EncryptPending hmac crypter source { e with buf := e.buf.drop size } rest := by
  have nonempty : e.buf ≠ [] := List.length_pos.1 (by omega)
  refine ⟨by simp [encryptRead, nonempty, full], ?_⟩
  rcases pending with ⟨fin, rfl⟩ | ⟨running, chained, rest, sealed, last, emits, crypt, rfl⟩
  · exact ⟨_, (List.take_append_drop _ _).symm, .inl ⟨fin, rfl⟩⟩
  · refine ⟨_, ?_, .inr ⟨running, chained, rest, sealed, last, emits, crypt, rfl⟩⟩
    simp [← List.append_assoc]

/-- A `Read` the buffer cannot fill before the end of the plaintext returns the whole buffer
and a non-empty start of the next ciphertext, and keeps the invariant. -/
theorem encryptPending_refill {e : EncryptReader σ} {output : List UInt8} {size : Nat}
    (pending : EncryptPending hmac crypter source e output) (running : e.fin = false)
    (short : e.buf.length < size) :
    ∃ next data rest, encryptRead hmac crypter source e size = .done next data .ok ∧
      data ≠ [] ∧ data.length ≤ size ∧ output = data ++ rest ∧
      EncryptPending hmac crypter source next rest := by
  rcases pending with ⟨fin, -⟩ | ⟨-, chained, rest, sealed, last, emits, crypt, rfl⟩
  · simp [running] at fin
  obtain ⟨whole, long, over⟩ := readTarget_spec size e.buf.length
  set target := readTarget size e.buf.length with targetDef
  obtain ⟨text, copied, kept⟩ := emitter_emits.copyN_take emits (target : Int)
  simp only [Int.toNat_ofNat] at copied kept
  have drained := bufferRead_of_lt short
  have asked : 0 < size - e.buf.length := by omega
  by_cases enough : target ≤ rest.length
  · -- a whole target of plaintext is left: encrypt it and go on
    have plainLength : (rest.take target).length = target := by simp [enough]
    have wholePlain : (rest.take target).length % blockSize = 0 := by rw [plainLength]; exact whole
    obtain ⟨sealed₁, cbc₁, crypt₁, length₁, chained₁⟩ :=
      cbcEncrypt_of_whole crypter.bc wholePlain e.cbc chained
    have split : padBuffer rest = rest.take target ++ padBuffer (rest.drop target) := by
      conv_lhs => rw [← List.take_append_drop target rest]
      exact padBuffer_append wholePlain _
    rw [split, cbcEncrypt_append _ wholePlain, crypt₁] at crypt
    obtain ⟨⟨sealed₂, last'⟩, crypt₂, equal⟩ := Option.map_eq_some'.1 crypt
    simp only [Prod.mk.injEq] at equal
    obtain ⟨rfl, rfl⟩ := equal
    have nonempty : sealed₁ ≠ [] := List.length_pos.1 (by omega)
    refine ⟨⟨text, cbc₁, e.mac ++ sealed₁, sealed₁.drop (size - e.buf.length), false⟩,
      e.buf ++ sealed₁.take (size - e.buf.length), _, ?_, by simp [nonempty, asked.ne'],
      by simp; omega, ?_, .inr ⟨rfl, chained₁, _, sealed₂, last', kept, crypt₂, rfl⟩⟩
    · simp [encryptRead, drained, short.ne, running, ← targetDef, copied, enough, crypt₁,
        nonempty]
    · nth_rewrite 1 [← List.take_append_drop (size - e.buf.length) sealed₁]
      simp only [List.append_assoc]
  · -- the plaintext ends within the target: pad, encrypt and sign
    have plain : rest.take target = rest := List.take_of_length_le (by omega)
    have nonempty : sealed ++ hmac.sum crypter.authKey (e.mac ++ sealed) ≠ [] := by
      simp [← List.length_pos, hmac.sum_length, hmacSize]
    refine ⟨⟨text, last, e.mac ++ sealed,
        (sealed ++ hmac.sum crypter.authKey (e.mac ++ sealed)).drop (size - e.buf.length), true⟩,
      e.buf ++ (sealed ++ hmac.sum crypter.authKey (e.mac ++ sealed)).take (size - e.buf.length),
      _, ?_, by simp [nonempty, asked.ne'], by simp; omega, ?_, .inl ⟨rfl, rfl⟩⟩
    · simp [encryptRead, drained, short.ne, running, ← targetDef, copied, enough, plain, crypt,
        nonempty]
    · simp only [List.append_assoc, List.take_append_drop]

/-- Every `Read` of the encrypter keeps `EncryptPending`. -/
theorem emitter_encryptPending :
    Emitter (encryptReader hmac crypter source) (EncryptPending hmac crypter source) := by
  intro e output pending
  refine ⟨by cases e; simp [encryptReader, encryptRead], fun size pos => ?_⟩
  by_cases full : size ≤ e.buf.length
  · obtain ⟨read, rest, split, kept⟩ := encryptPending_of_full pending pos full
    exact .inl ⟨_, _, rest, read, List.length_pos.1 (by simp; omega), List.length_take_le _ _,
      split, kept⟩
  cases fin : e.fin
  · exact .inl (encryptPending_refill pending fin (by omega))
  rcases pending with ⟨-, rfl⟩ | ⟨running, -⟩
  · -- after the end of the plaintext only the buffer is left
    have drained := bufferRead_of_lt (show e.buf.length < size by omega)
    by_cases empty : e.buf = []
    · exact .inr ⟨{ e with buf := [] },
        by simp only [encryptReader, encryptRead, drained]; simp [fin, empty],
        by simp [empty], .inl ⟨fin, rfl⟩⟩
    · exact .inl ⟨{ e with buf := [] }, e.buf, [],
        by simp only [encryptReader, encryptRead, drained]; simp [fin, empty], empty, by omega,
        by simp, .inl ⟨fin, rfl⟩⟩
  · simp [fin] at running

/-- A new encrypter emits the IV, the CBC encryption of the padded plaintext its source
emits, and the HMAC sum of both. -/
theorem emits_encryptReaderNew (iv : Block) {text : σ} {plaintext : List UInt8}
    (emits : Emits source text plaintext) :
    ∃ sealed last, cbcEncrypt crypter.bc iv.bytes (padBuffer plaintext) = some (sealed, last) ∧
      sealed.length = (padBuffer plaintext).length ∧
      Emits (encryptReader hmac crypter source) (encryptReaderNew iv text)
        (iv.bytes ++ sealed ++ hmac.sum crypter.authKey (iv.bytes ++ sealed)) := by
  obtain ⟨sealed, last, crypt, length, -⟩ :=
    cbcEncrypt_of_whole crypter.bc (length_padBuffer_mod plaintext) iv.bytes iv.length_eq
  exact ⟨sealed, last, crypt, length, _, emitter_encryptPending,
    .inr ⟨rfl, iv.length_eq, plaintext, sealed, last, emits, crypt, rfl⟩⟩

/-- Streaming and bulk encryption agree: however the source splits the plaintext across
reads and whatever lengths the consumer reads with, `EncryptReader` returns old.go's
envelope of the plaintext under the same IV, then `io.EOF`, and never an error. -/
theorem encryptReader_reads_encrypt (iv : Block) {text : σ} {plaintext : List UInt8}
    (emits : Emits source text plaintext) (sizes : List Nat) :
    ∃ envelope, encrypt hmac crypter iv plaintext = some envelope ∧
      ReadsExactly (drain (encryptReader hmac crypter source) (encryptReaderNew iv text) sizes)
        envelope sizes :=
  let ⟨_, _, crypt, _, reads⟩ := @emits_encryptReaderNew _ hmac crypter source iv _ _ emits
  ⟨_, encrypt_of_cbcEncrypt crypt, reads.drain sizes⟩

/-- `encryptReader_reads_encrypt` for a source holding `[1, 2]` then `[3]`, read five bytes at a
time. -/
theorem encryptReader_reads_encrypt_chunks :
    ∃ envelope, encrypt constantMac plainCrypter zeroIv [1, 2, 3] = some envelope ∧
      ReadsExactly (drain (encryptReader constantMac plainCrypter chunkSource)
        (encryptReaderNew zeroIv [[1, 2], [3]]) (List.replicate 12 5)) envelope
        (List.replicate 12 5) :=
  encryptReader_reads_encrypt zeroIv (emits_chunkSource [[1, 2], [3]]) _

end Crypto

end IncBackup
