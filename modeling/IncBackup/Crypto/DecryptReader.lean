import IncBackup.Crypto.EncryptReader

/-!
# The streaming decrypter

`decryptReader` reads an envelope `iv ‖ ciphertext ‖ hmac` and returns the plaintext.  It
cannot tell where the ciphertext ends until its source returns `io.EOF`, so each `Read`
that its buffer cannot fill copies `c_HMAC_SIZE + 1` bytes more than the whole blocks it
decrypts, and keeps them in `enc`.  At the end of the input everything in `enc` but the
last `c_HMAC_SIZE` bytes is decrypted, the HMAC is checked and the padding stripped.

For a valid envelope the invariant `DecryptPending` says what the reader still emits:
its buffer, then the unpadded decryption of the ciphertext it has not decrypted yet, and
the bytes in `enc` followed by those the source still emits are that ciphertext and the
HMAC sum of all of it.  Every `Read` keeps it, so a valid envelope is read back exactly,
whatever the read lengths; with `encryptReader` this gives the round trip.

The reader does not reject every invalid envelope with an error.  Four bytes after the
IV make the end-of-input `target` equal `4 - c_HMAC_SIZE = -16`, which passes the check
`target % aes.BlockSize != 0`; `io.CopyN` of a negative count copies nothing and the
sanity check after it panics (`decryptRead_panics_of_short`).
-/

namespace IncBackup

namespace Crypto

open Stream

/-- The fields of `decryptReader`: the ciphertext source's state, the CBC chaining block,
the bytes written to the HMAC, the unread bytes of `buf`, `fin`, and `enc`, the bytes
read but not yet decrypted. -/
structure DecryptReader (σ : Type) where
  text : σ
  cbc : List UInt8
  mac : List UInt8
  buf : List UInt8
  fin : Bool
  enc : List UInt8

variable {σ : Type} (hmac : HmacSha1) (crypter : AesCrypter) (source : Reader σ)

/-- `aesCrypter.DecryptReader`: read the IV from the start of the stream, write it to the
HMAC and start the CBC decrypter with it. -/
def decryptReaderNew (text : σ) : Outcome (DecryptReader σ) :=
  match copyN source text blockSize with
  | .done text iv status =>
    if iv.length < blockSize ∨ status = .eof then .error "ciphertext too short"
    else
      match status with
      | .error message => .error message
      | _ => .ok ⟨text, iv, iv, [], false, []⟩
  | .panic => .panic
  | .hang => .hang

/-- `decryptReader.Read` into a slice of length `size`. -/
def decryptRead (e : DecryptReader σ) (size : Nat) : ReadOutcome (DecryptReader σ) :=
  let drained := bufferRead e.buf size
  if drained.data.length = size ∨ e.fin then
    .done { e with buf := drained.rest } drained.data drained.status
  else
    match copyN source e.text (readTarget size drained.data.length + hmacSize + 1) with
    | .done text more (.error message) =>
      .done { e with text := text, buf := drained.rest, enc := e.enc ++ more } drained.data
        (.error message)
    | .done text more status =>
      let fin := status == .eof
      let enc := e.enc ++ more
      let target : Int := if fin then enc.length - hmacSize else readTarget size drained.data.length
      if fin ∧ target.tmod blockSize ≠ 0 then
        .done { e with text := text, buf := drained.rest, fin := fin, enc := enc } drained.data
          (.error "ciphertext is not a multiple of the block size")
      else
        match copyN bufferReader enc target with
        | .done enc moved _ =>
          if (moved.length : Int) ≠ target then .panic
          else
            let buf := drained.rest ++ moved
            let mac := e.mac ++ buf
            match cbcDecrypt crypter.bc e.cbc buf with
            | none => .panic
            | some (opened, cbc) =>
              if fin then
                if enc ≠ hmac.sum crypter.authKey mac then
                  .done ⟨text, cbc, mac, opened, fin, enc⟩ drained.data
                    (.error "ciphertext not authentic")
                else
                  match unpadBuffer opened with
                  | .ok plain =>
                    let more := bufferRead plain (size - drained.data.length)
                    .done ⟨text, cbc, mac, more.rest, fin, enc⟩ (drained.data ++ more.data)
                      more.status
                  | .error message =>
                    .done ⟨text, cbc, mac, opened, fin, enc⟩ drained.data (.error message)
                  | .panic => .panic
                  | .hang => .hang
              else
                let more := bufferRead opened (size - drained.data.length)
                .done ⟨text, cbc, mac, more.rest, fin, enc⟩ (drained.data ++ more.data)
                  more.status
        | .panic => .panic
        | .hang => .hang
    | .panic => .panic
    | .hang => .hang

/-- `decryptReader` as an `io.Reader`. -/
def decryptReader : Reader (DecryptReader σ) := ⟨decryptRead hmac crypter source⟩

/-! ## What the reader still emits from a valid envelope -/

/-- What a decrypter in state `e` still emits when its input is a valid envelope: after the
end of the input, the rest of its buffer; before it, the buffer and the unpadded
decryption of the ciphertext `sealed` it has not decrypted yet, where `enc` and what the
source still emits are `sealed` and the HMAC sum of all the ciphertext. -/
def DecryptPending (e : DecryptReader σ) (output : List UInt8) : Prop :=
  (e.fin = true ∧ output = e.buf) ∨
    (e.fin = false ∧ e.cbc.length = blockSize ∧
      ∃ sealed input opened last plain, Emits source e.text input ∧ sealed ≠ [] ∧
        e.enc ++ input = sealed ++ hmac.sum crypter.authKey (e.mac ++ sealed) ∧
        cbcDecrypt crypter.bc e.cbc sealed = some (opened, last) ∧
        unpadBuffer opened = .ok plain ∧ output = e.buf ++ plain)

variable {hmac crypter source}

/-! ## A stream too short for its HMAC -/

/-- An IV followed by four bytes makes the first `Read` of positive length panic, whatever
the keys: at the end of the input `target` is `4 - c_HMAC_SIZE = -16`, which the test
`target % aes.BlockSize != 0` lets through, `io.CopyN` of `-16` bytes copies none, and the
sanity check `int(copied) != target` panics. -/
theorem decryptRead_panics_of_short {iv tail : List UInt8} (ivLength : iv.length = blockSize)
    (tailLength : tail.length = 4) {text : σ} (emits : Emits source text (iv ++ tail))
    {size : Nat} (pos : 0 < size) :
    ∃ e, decryptReaderNew source text = .ok e ∧
      drain (decryptReader hmac crypter source) e [size] = ([], .panic) := by
  obtain ⟨text₁, opening, kept⟩ := emitter_emits.copyN_take emits blockSize
  have first : (iv ++ tail).take blockSize = iv := List.take_left' ivLength
  have rest : (iv ++ tail).drop blockSize = tail := List.drop_left' ivLength
  simp only [Int.toNat_ofNat, first, rest, List.length_append, ivLength, tailLength,
    show blockSize ≤ blockSize + 4 from Nat.le_add_right _ _, if_true] at opening kept
  refine ⟨⟨text₁, iv, iv, [], false, []⟩, by simp [decryptReaderNew, opening, ivLength], ?_⟩
  obtain ⟨text₂, copied, -⟩ := emitter_emits.copyN_take kept
    ((readTarget size 0 : Int) + hmacSize + 1)
  have ends : ¬ ((readTarget size 0 : Int) + hmacSize + 1).toNat ≤ tail.length := by
    rw [tailLength]; unfold hmacSize; omega
  simp only [ends, if_false, List.take_of_length_le (Nat.le_of_not_le ends)] at copied
  simp only [drain, decryptReader, decryptRead, bufferRead_nil pos, List.length_nil,
    Nat.ne_of_lt pos, false_or, if_false, copied]
  have wraps : (-16 : Int).tmod 16 = 0 := by decide
  simp [wraps, copyN, tailLength, hmacSize, blockSize]

/-- `decryptRead_panics_of_short` at twenty zero bytes, read with a one-byte slice. -/
theorem decryptRead_panics_of_short_zeros :
    ∃ e, decryptReaderNew chunkSource [List.replicate 20 0] = .ok e ∧
      drain (decryptReader constantMac plainCrypter chunkSource) e [1] = ([], .panic) :=
  @decryptRead_panics_of_short _ constantMac plainCrypter chunkSource (List.replicate 16 0)
    (List.replicate 4 0) rfl rfl _ (emits_chunkSource [List.replicate 20 0]) 1 Nat.one_pos

/-! ## Reading a valid envelope -/

/-- A `Read` the buffer fills returns from the buffer alone. -/
theorem decryptPending_of_full {e : DecryptReader σ} {output : List UInt8} {size : Nat}
    (pending : DecryptPending hmac crypter source e output) (pos : 0 < size)
    (full : size ≤ e.buf.length) :
    decryptRead hmac crypter source e size =
        .done { e with buf := e.buf.drop size } (e.buf.take size) .ok ∧
      ∃ rest, output = e.buf.take size ++ rest ∧
        DecryptPending hmac crypter source { e with buf := e.buf.drop size } rest := by
  have nonempty : e.buf ≠ [] := List.length_pos.1 (by omega)
  refine ⟨by simp [decryptRead, nonempty, full], ?_⟩
  rcases pending with ⟨fin, rfl⟩ | ⟨running, chained, sealed, input, opened, last, plain, emits,
    nonempty, split, decrypted, unpadded, rfl⟩
  · exact ⟨_, (List.take_append_drop _ _).symm, .inl ⟨fin, rfl⟩⟩
  · refine ⟨_, ?_, .inr ⟨running, chained, sealed, input, opened, last, plain, emits, nonempty,
      split, decrypted, unpadded, rfl⟩⟩
    simp [← List.append_assoc]

/-- A `Read` the buffer cannot fill before the end of the input.  With more than
`c_HMAC_SIZE` bytes after the next `target` it decrypts `target` bytes; at the end of the
input it decrypts the rest, checks the HMAC and strips the padding. -/
theorem decryptPending_refill {e : DecryptReader σ} {output : List UInt8} {size : Nat}
    (pending : DecryptPending hmac crypter source e output) (running : e.fin = false)
    (short : e.buf.length < size) :
    (∃ next data rest, decryptRead hmac crypter source e size = .done next data .ok ∧
      data ≠ [] ∧ data.length ≤ size ∧ output = data ++ rest ∧
      DecryptPending hmac crypter source next rest) ∨
    (∃ next, decryptRead hmac crypter source e size = .done next output .eof ∧
      output.length ≤ size ∧ DecryptPending hmac crypter source next []) := by
  rcases pending with ⟨fin, -⟩ | ⟨-, chained, sealed, input, opened, last, plain, emits,
    nonempty, split, decrypted, unpadded, rfl⟩
  · simp [running] at fin
  obtain ⟨whole, long, over⟩ := readTarget_spec size e.buf.length
  set target := readTarget size e.buf.length with targetDef
  obtain ⟨text, copied, kept⟩ := emitter_emits.copyN_take emits ((target : Int) + hmacSize + 1)
  have count : ((target : Int) + hmacSize + 1).toNat = target + hmacSize + 1 := by omega
  rw [count] at copied kept
  have drained := bufferRead_of_lt short
  have asked : 0 < size - e.buf.length := by omega
  have lengths := congrArg List.length split
  simp only [List.length_append, hmac.sum_length] at lengths
  have wholeSealed := whole_of_cryptBlocks decrypted
  by_cases enough : target + hmacSize + 1 ≤ input.length
  · -- more than `c_HMAC_SIZE` bytes follow the next `target`: decrypt `target` bytes
    simp only [enough, if_true] at copied
    set enc := e.enc ++ input.take (target + hmacSize + 1) with encDef
    have within : target ≤ enc.length := by simp [encDef, enough]; omega
    have inSealed : target < sealed.length := by omega
    have joined : enc ++ input.drop (target + hmacSize + 1) =
        sealed ++ hmac.sum crypter.authKey (e.mac ++ sealed) := by
      rw [encDef, List.append_assoc, List.take_append_drop, split]
    have moved : enc.take target = sealed.take target := by
      have := congrArg (List.take target) joined
      rwa [List.take_append_of_le_length within, List.take_append_of_le_length inSealed.le] at this
    have remaining : enc.drop target ++ input.drop (target + hmacSize + 1) =
        sealed.drop target ++ hmac.sum crypter.authKey (e.mac ++ sealed) := by
      have := congrArg (List.drop target) joined
      rwa [List.drop_append_of_le_length within, List.drop_append_of_le_length inSealed.le] at this
    obtain ⟨_, moving, rfl⟩ := emitter_bufferReader.copyN_take (rfl : enc = enc) (target : Int)
    simp only [Int.toNat_ofNat] at moving
    have wholeTake : (sealed.take target).length % blockSize = 0 := by simp [inSealed.le, whole]
    have wholeDrop : (sealed.drop target).length % blockSize = 0 := by
      simp only [List.length_drop, blockSize] at whole wholeSealed ⊢; omega
    have longDrop : blockSize ≤ (sealed.drop target).length := by
      simp only [List.length_drop, blockSize] at whole wholeSealed inSealed ⊢; omega
    obtain ⟨opened₁, cbc₁, decrypt₁, length₁, chained₁⟩ :=
      cbcDecrypt_of_whole crypter.bc wholeTake e.cbc chained
    obtain ⟨opened₂, last₂, decrypt₂, length₂, -⟩ :=
      cbcDecrypt_of_whole crypter.bc wholeDrop cbc₁ chained₁
    rw [← List.take_append_drop target sealed, cbcDecrypt_append _ wholeTake, decrypt₁,
      Option.some_bind, decrypt₂] at decrypted
    simp only [Option.map_some', Option.some.injEq, Prod.mk.injEq] at decrypted
    obtain ⟨rfl, rfl⟩ := decrypted
    rw [unpadBuffer_eq_unpad, unpad_append _ (length₂ ▸ longDrop), Outcome.map_eq_ok] at unpadded
    obtain ⟨plain₂, unpadded₂, rfl⟩ := unpadded
    have nonempty₁ : opened₁ ≠ [] := List.length_pos.1 (by simp only [length₁, List.length_take]; omega)
    refine .inl ⟨⟨text, cbc₁, e.mac ++ sealed.take target, opened₁.drop (size - e.buf.length),
      false, enc.drop target⟩, e.buf ++ opened₁.take (size - e.buf.length), _, ?_,
      by simp [nonempty₁, asked.ne'],
      by simp only [List.length_append, List.length_take]; omega, ?_,
      .inr ⟨rfl, chained₁, sealed.drop target, _, opened₂, _, plain₂, kept,
        List.length_pos.1 (lt_of_lt_of_le (by decide) longDrop), ?_, decrypt₂,
        by rwa [unpadBuffer_eq_unpad], rfl⟩⟩
    · simp [decryptRead, drained, short.ne, running, ← targetDef, copied, moving, within, moved,
        List.length_take_of_le inSealed.le, decrypt₁, nonempty₁]
    · nth_rewrite 1 [← List.take_append_drop (size - e.buf.length) opened₁]
      simp only [List.append_assoc]
    · rw [remaining, List.append_assoc, List.take_append_drop]
  · -- the input ends within the next `target`: decrypt the rest, authenticate and unpad
    simp only [enough, if_false,
      List.take_of_length_le (by omega : input.length ≤ target + hmacSize + 1)] at copied
    obtain ⟨_, moving, rfl⟩ := emitter_bufferReader.copyN_take (rfl : e.enc ++ input = _)
      (sealed.length : Int)
    simp only [Int.toNat_ofNat, split, List.take_left', List.drop_left'] at moving
    have blocks : (sealed.length : Int).tmod blockSize = 0 := by
      rw [← Int.ofNat_tmod, wholeSealed]; rfl
    by_cases empty : plain = []
    · subst empty
      refine .inr ⟨⟨text, last, e.mac ++ sealed, [], true,
        hmac.sum crypter.authKey (e.mac ++ sealed)⟩, ?_, by rw [List.append_nil]; omega, .inl ⟨rfl, rfl⟩⟩
      simp [decryptRead, drained, short.ne, running, ← targetDef, copied, hmac.sum_length, blocks, split,
        moving, decrypted, unpadded, bufferRead_nil asked]
    · refine .inl ⟨⟨text, last, e.mac ++ sealed, plain.drop (size - e.buf.length), true,
        hmac.sum crypter.authKey (e.mac ++ sealed)⟩, e.buf ++ plain.take (size - e.buf.length),
        _, ?_, by simp [empty, asked.ne'],
        by simp only [List.length_append, List.length_take]; omega, ?_, .inl ⟨rfl, rfl⟩⟩
      · simp [decryptRead, drained, short.ne, running, ← targetDef, copied, hmac.sum_length, blocks, split,
          moving, decrypted, unpadded, empty]
      · simp only [List.append_assoc, List.take_append_drop]

/-- Every `Read` of the decrypter keeps `DecryptPending`. -/
theorem emitter_decryptPending :
    Emitter (decryptReader hmac crypter source) (DecryptPending hmac crypter source) := by
  intro e output pending
  refine ⟨by cases e; simp [decryptReader, decryptRead], fun size pos => ?_⟩
  by_cases full : size ≤ e.buf.length
  · obtain ⟨read, rest, split, kept⟩ := decryptPending_of_full pending pos full
    exact .inl ⟨_, _, rest, read, List.length_pos.1 (by simp; omega), List.length_take_le _ _,
      split, kept⟩
  cases fin : e.fin
  · exact decryptPending_refill pending fin (by omega)
  rcases pending with ⟨-, rfl⟩ | ⟨running, -⟩
  · -- after the end of the input only the buffer is left
    have drained := bufferRead_of_lt (show e.buf.length < size by omega)
    by_cases empty : e.buf = []
    · exact .inr ⟨{ e with buf := [] },
        by simp only [decryptReader, decryptRead, drained]; simp [fin, empty],
        by simp [empty], .inl ⟨fin, rfl⟩⟩
    · exact .inl ⟨{ e with buf := [] }, e.buf, [],
        by simp only [decryptReader, decryptRead, drained]; simp [fin, empty], empty, by omega,
        by simp, .inl ⟨fin, rfl⟩⟩
  · simp [fin] at running

/-- A decrypter opened on a valid envelope reads the IV and then emits the plaintext. -/
theorem decryptPending_new {iv sealed opened last plain : List UInt8} {text : σ}
    (ivLength : iv.length = blockSize) (nonempty : sealed ≠ [])
    (decrypted : cbcDecrypt crypter.bc iv sealed = some (opened, last))
    (unpadded : unpadBuffer opened = .ok plain)
    (emits : Emits source text (iv ++ sealed ++ hmac.sum crypter.authKey (iv ++ sealed))) :
    ∃ e, decryptReaderNew source text = .ok e ∧ DecryptPending hmac crypter source e plain := by
  obtain ⟨text₁, opening, kept⟩ := emitter_emits.copyN_take emits blockSize
  have enough : blockSize ≤ (iv ++ sealed ++ hmac.sum crypter.authKey (iv ++ sealed)).length := by
    simp [ivLength]
  simp only [Int.toNat_ofNat, enough, if_true, List.append_assoc, List.take_left' ivLength,
    List.drop_left' ivLength] at opening kept
  exact ⟨⟨text₁, iv, iv, [], false, []⟩, by simp [decryptReaderNew, opening, ivLength],
    .inr ⟨rfl, ivLength, sealed, _, opened, last, plain, kept, nonempty, rfl, decrypted, unpadded,
      rfl⟩⟩

/-- A valid envelope, `iv ‖ ciphertext ‖ HMAC(iv ‖ ciphertext)` with a non-empty ciphertext
whose CBC decryption has valid padding, is read back as its unpadded plaintext and then
`io.EOF`, whatever the lengths of the reads. -/
theorem decryptReader_reads_valid {iv sealed opened last plain : List UInt8} {text : σ}
    (ivLength : iv.length = blockSize) (nonempty : sealed ≠ [])
    (decrypted : cbcDecrypt crypter.bc iv sealed = some (opened, last))
    (unpadded : unpad opened = .ok plain)
    (emits : Emits source text (iv ++ sealed ++ hmac.sum crypter.authKey (iv ++ sealed)))
    (sizes : List Nat) :
    ∃ e, decryptReaderNew source text = .ok e ∧
      ReadsExactly (drain (decryptReader hmac crypter source) e sizes) plain sizes :=
  let ⟨e, opening, pending⟩ := decryptPending_new ivLength nonempty decrypted
    (by rwa [unpadBuffer_eq_unpad]) emits
  ⟨e, opening, emitter_decryptPending.drain_readsExactly sizes e plain pending⟩

/-- The block of `a` padded with fifteen bytes of fifteen. -/
def paddedA : List UInt8 := 0x61 :: List.replicate 15 15

unseal cryptBlocks in
/-- Under the identity cipher and a zero IV, the padded block of `a` with a MAC of zeros is
read back as `a` by reads of one and of 64 bytes. -/
theorem decryptReader_reads_valid_paddedA :
    ∃ e, decryptReaderNew chunkSource [zeroIv.bytes ++ paddedA ++ List.replicate hmacSize 0] =
        .ok e ∧
      ReadsExactly (drain (decryptReader constantMac plainCrypter chunkSource) e [1, 64]) [0x61]
        [1, 64] :=
  have decrypted : cbcDecrypt plainCrypter.bc zeroIv.bytes paddedA = some (paddedA, paddedA) := by
    decide
  have unpadded : unpad paddedA = .ok [0x61] := by decide
  have emits : Emits chunkSource [zeroIv.bytes ++ paddedA ++ List.replicate hmacSize 0]
      (zeroIv.bytes ++ paddedA ++ constantMac.sum plainCrypter.authKey (zeroIv.bytes ++ paddedA)) :=
    emits_chunkSource _
  decryptReader_reads_valid zeroIv.length_eq (List.cons_ne_nil _ _) decrypted unpadded emits [1, 64]

/-! ## The round trip -/

/-- The streaming round trip: however the source splits the plaintext, in whatever pieces
the decrypter's copies read the encrypter's output, and whatever lengths the consumer
reads the decrypter with, `DecryptReader(EncryptReader(P))` opens without error and
returns exactly `P`, then `io.EOF`, and no `Read` returns an error. -/
theorem decryptReader_encryptReader (iv : Block) {text : σ} {plaintext : List UInt8}
    (emits : Emits source text plaintext) (caps sizes : List Nat) :
    ∃ e, decryptReaderNew (throttle (encryptReader hmac crypter source))
        (encryptReaderNew iv text, caps) = .ok e ∧
      ReadsExactly (drain (decryptReader hmac crypter (throttle (encryptReader hmac crypter source)))
        e sizes) plaintext sizes := by
  obtain ⟨sealed, last, crypt, length, envelope⟩ :=
    @emits_encryptReaderNew _ hmac crypter source iv _ _ emits
  have nonempty : sealed ≠ [] := List.length_pos.1 (by
    rw [length, length_padBuffer]; exact Nat.lt_add_left _ (padCount_pos _).1)
  obtain ⟨e, opening, pending⟩ := decryptPending_new iv.length_eq nonempty
    (cbcDecrypt_cbcEncrypt crypter.bc (length_padBuffer_mod plaintext) iv.length_eq crypt)
    (by rw [unpadBuffer_eq_unpad, unpad_padBuffer]) (envelope.throttle caps)
  exact ⟨e, opening, emitter_decryptPending.drain_readsExactly sizes e plaintext pending⟩


/-- `decryptReader_encryptReader` for a source holding `[1, 2]` then `[3]`, with the
encrypter read a byte at a time and the decrypter five bytes at a time. -/
theorem decryptReader_encryptReader_chunks :
    ∃ e, decryptReaderNew (throttle (encryptReader constantMac plainCrypter chunkSource))
        (encryptReaderNew zeroIv [[1, 2], [3]], List.replicate 64 0) = .ok e ∧
      ReadsExactly (drain (decryptReader constantMac plainCrypter
        (throttle (encryptReader constantMac plainCrypter chunkSource))) e (List.replicate 4 5))
        [1, 2, 3] (List.replicate 4 5) :=
  decryptReader_encryptReader zeroIv (emits_chunkSource [[1, 2], [3]]) _ _

end Crypto

end IncBackup
