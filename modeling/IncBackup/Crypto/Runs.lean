import IncBackup.Crypto.DecryptReader

/-!
# Runs of the crypto readers

`decryptReader` cannot tell where the ciphertext ends before its source returns `io.EOF`,
so it reads ahead.  `LookAhead` says what any sequence of `Read` calls leaves it with: the
bytes it has written to the HMAC and CBC-decrypted are whole blocks at the front of the
input after the IV, `enc` holds the bytes after them, and the source still emits the rest.
Until the end of the input has been seen `enc` holds at least `c_HMAC_SIZE + 1` bytes, once
anything was read.  At the end of the input the source is empty and `enc` is either the
last `c_HMAC_SIZE` bytes, compared with the HMAC and never decrypted, or a tail that is not
`c_HMAC_SIZE` bytes more than whole blocks, for which `Read` returned the length error and
decrypted nothing.  Every `Read` keeps it (`LookAhead.read`), so it holds after every run
from `DecryptReader` (`decryptReader_lookAhead`).

Neither reader keeps an error.  `Read` returns the error of its source or of its checks
once, and the next `Read` drains the buffer: plaintext the encrypter read with the error,
or the decryption of a ciphertext that failed its HMAC, and then a bare `io.EOF`.  On a
source that emits an envelope every error of the decrypter ends its input, and whatever
the reads after it, the reader returns the rest of its buffer and then a bare `io.EOF`
(`decryptReader_drains_after_error`).
-/

namespace IncBackup

namespace Crypto

open Stream

variable {σ : Type} {hmac : HmacSha1} {crypter : AesCrypter} {source : Reader σ}

/-! ## The look-ahead of the decrypter -/

/-- A decrypter in state `e`, started on a source that emits `iv` and then `input`, where
`input` is `fed`, the bytes written to the HMAC after the IV and CBC-decrypted, then `enc`,
then `rest`, the bytes the source still emits. -/
structure LookAhead (crypter : AesCrypter) (source : Reader σ) (iv input : List UInt8)
    (e : DecryptReader σ) (fed rest : List UInt8) : Prop where
  mac : e.mac = iv ++ fed
  whole : fed.length % blockSize = 0
  decrypted : ∃ opened, cbcDecrypt crypter.bc iv fed = some (opened, e.cbc)
  split : input = fed ++ e.enc ++ rest
  emits : Emits source e.text rest
  ahead : e.fin = false → fed = [] ∧ e.enc = [] ∨ hmacSize + 1 ≤ e.enc.length
  ended : e.fin = true → rest = [] ∧
    (e.enc.length = hmacSize ∨ ((e.enc.length : Int) - hmacSize).tmod blockSize ≠ 0)

/-- The CBC decrypter goes on from the chaining block whole blocks left it with. -/
theorem cbcDecrypt_feed {iv fed moved opened last cbc : List UInt8}
    (whole : fed.length % blockSize = 0)
    (decrypted : ∃ opened, cbcDecrypt crypter.bc iv fed = some (opened, last))
    (step : cbcDecrypt crypter.bc last moved = some (opened, cbc)) :
    ∃ opened, cbcDecrypt crypter.bc iv (fed ++ moved) = some (opened, cbc) := by
  obtain ⟨front, front_eq⟩ := decrypted
  exact ⟨front ++ opened, by simp [cbcDecrypt_append _ whole, front_eq, step]⟩

/-- `DecryptReader` on a source that emits `envelope`: nothing is fed yet, and the source
emits what follows the IV. -/
theorem LookAhead.new {text : σ} {envelope : List UInt8} {e : DecryptReader σ}
    (emits : Emits source text envelope) (opened : decryptReaderNew source text = .ok e) :
    LookAhead crypter source (envelope.take blockSize) (envelope.drop blockSize) e []
      (envelope.drop blockSize) := by
  obtain ⟨text₁, copied, kept⟩ := emitter_emits.copyN_take emits blockSize
  rw [Int.toNat_ofNat] at copied kept
  by_cases long : blockSize ≤ envelope.length
  · simp [decryptReaderNew, copied, long] at opened
    subst opened
    exact ⟨(List.append_nil _).symm, rfl, ⟨[], cryptBlocks_nil _⟩, rfl, kept,
      fun _ => .inl ⟨rfl, rfl⟩, nofun⟩
  · simp [decryptReaderNew, copied, long] at opened

/-- One `Read` of a decrypter whose source emits what is left of its input keeps the
look-ahead, and an error it returns ends the input. -/
theorem LookAhead.read {iv input fed rest : List UInt8} {e e' : DecryptReader σ} {size : Nat}
    {data : List UInt8} {status : Status} (ahead : LookAhead crypter source iv input e fed rest)
    (read : decryptRead hmac crypter source e size = .done e' data status) :
    (∃ fed' rest', LookAhead crypter source iv input e' fed' rest') ∧
      ∀ message, status = .error message → e'.fin = true := by
  obtain ⟨mac, whole, decrypted, split, emits, running, ended⟩ := ahead
  unfold decryptRead at read
  by_cases idle : (bufferRead e.buf size).data.length = size ∨ e.fin
  · rw [if_pos idle] at read
    cases read
    exact ⟨⟨fed, rest, mac, whole, decrypted, split, emits, running, ended⟩,
      fun _ failed => absurd failed (bufferRead_status_ne_error _ _ _)⟩
  rw [if_neg idle] at read
  simp only [not_or, Bool.not_eq_true] at idle
  obtain ⟨short, open_⟩ := idle
  have shortBuf : e.buf.length < size := by
    rw [bufferRead_data, List.length_take] at short; omega
  obtain ⟨aligned, -, -⟩ := readTarget_spec size e.buf.length
  set target := readTarget size e.buf.length with targetDef
  have count : ((target : Int) + hmacSize + 1).toNat = target + hmacSize + 1 := by omega
  obtain ⟨text, copied, kept⟩ := emitter_emits.copyN_take emits ((target : Int) + hmacSize + 1)
  rw [count] at copied kept
  simp only [bufferRead_of_lt shortBuf, ← targetDef, copied, List.nil_append] at read
  by_cases enough : target + hmacSize + 1 ≤ rest.length
  · -- the source had enough: `target` bytes are decrypted, `c_HMAC_SIZE + 1` stay in `enc`
    have notEof : (Status.ok == Status.eof) = false := rfl
    simp only [enough, if_true, notEof, Bool.false_eq_true, false_and, if_false] at read
    obtain ⟨_, moving, rfl⟩ := emitter_bufferReader.copyN_take
      (rfl : e.enc ++ rest.take (target + hmacSize + 1) = _) (target : Int)
    have fits : target ≤ (e.enc ++ rest.take (target + hmacSize + 1)).length := by
      simp [enough]; omega
    simp only [moving, Int.toNat_ofNat, List.length_take, Nat.min_eq_left fits, ne_eq,
      not_true_eq_false, if_false] at read
    split at read
    · cases read
    next opened cbc step =>
      cases read
      refine ⟨⟨fed ++ _, rest.drop (target + hmacSize + 1), ⟨by rw [mac, List.append_assoc], ?_,
        cbcDecrypt_feed whole decrypted step, ?_, kept, fun _ => .inr ?_, nofun⟩⟩,
        fun _ failed => absurd failed (bufferRead_status_ne_error _ _ _)⟩
      · rw [List.length_append, List.length_take_of_le fits, Nat.add_mod, whole, aligned]; rfl
      · dsimp only
        rw [split]
        simp only [List.append_assoc]
        congr 1
        rw [← List.append_assoc, List.take_append_drop, List.append_assoc, List.take_append_drop]
      · simp only [List.length_drop, List.length_append, List.length_take,
          Nat.min_eq_left enough]
        omega
  -- the source ended: everything but the last `c_HMAC_SIZE` bytes is decrypted, if whole
  have isEof : (Status.eof == Status.eof) = true := rfl
  rw [List.take_of_length_le (by omega)] at read
  rw [List.drop_of_length_le (by omega)] at kept
  simp only [enough, if_false, isEof, if_true, true_and] at read
  split_ifs at read with misaligned
  · cases read
    exact ⟨⟨fed, [], mac, whole, decrypted, by rw [split, List.append_assoc, List.append_nil],
      kept, nofun, fun _ => ⟨rfl, .inr misaligned⟩⟩, fun _ _ => rfl⟩
  by_cases long : hmacSize ≤ (e.enc ++ rest).length
  · obtain ⟨_, moving, rfl⟩ := emitter_bufferReader.copyN_take (rfl : e.enc ++ rest = _)
      (((e.enc ++ rest).length : Int) - hmacSize)
    have decrypted' : (((e.enc ++ rest).length : Int) - hmacSize).toNat =
        (e.enc ++ rest).length - hmacSize := by omega
    have whole' : ((e.enc ++ rest).length - hmacSize) % blockSize = 0 := by
      have nonneg : 0 ≤ ((e.enc ++ rest).length : Int) - hmacSize := by omega
      rw [not_not, Int.tmod_eq_emod nonneg (by decide)] at misaligned
      rw [show blockSize = 16 from rfl] at misaligned ⊢
      omega
    have final : ∀ opened cbc buf,
        cbcDecrypt crypter.bc e.cbc ((e.enc ++ rest).take ((e.enc ++ rest).length - hmacSize)) =
          some (opened, cbc) →
        ∃ fed' rest', LookAhead crypter source iv input ⟨text, cbc,
          e.mac ++ (e.enc ++ rest).take ((e.enc ++ rest).length - hmacSize), buf, true,
          (e.enc ++ rest).drop ((e.enc ++ rest).length - hmacSize)⟩ fed' rest' :=
      fun _ _ _ step =>
        ⟨fed ++ _, [], by rw [mac, List.append_assoc],
          by rw [List.length_append, List.length_take, Nat.min_eq_left (Nat.sub_le _ _), Nat.add_mod,
            whole, whole']; rfl,
          cbcDecrypt_feed whole decrypted step,
          by rw [split, List.append_nil, List.append_assoc, List.append_assoc,
            List.take_append_drop],
          kept, nofun, fun _ => ⟨rfl, .inl (by rw [List.length_drop]; omega)⟩⟩
    rw [moving] at read
    simp only [decrypted', List.length_take, Nat.min_eq_left (Nat.sub_le _ _)] at read
    rw [if_neg (by omega)] at read
    split at read
    · cases read
    next opened cbc step =>
      split_ifs at read
      · cases read; exact ⟨final _ _ _ step, fun _ _ => rfl⟩
      · split at read <;> cases read <;> exact ⟨final _ _ _ step, fun _ _ => rfl⟩
  · -- fewer than `c_HMAC_SIZE` bytes: `io.CopyN` of a negative count, and the panic
    have negative : ((e.enc ++ rest).length : Int) - hmacSize < 0 := by omega
    have nothing : copyN bufferReader (e.enc ++ rest) (((e.enc ++ rest).length : Int) - hmacSize) =
        .done (e.enc ++ rest) [] .ok := by unfold copyN; rw [if_pos (Int.le_of_lt negative)]
    rw [nothing] at read
    dsimp only at read
    rw [if_pos (by rw [List.length_nil]; omega)] at read
    cases read

/-- Every `Read` keeps the look-ahead, so every run does. -/
theorem LookAhead.run {iv input fed rest : List UInt8} {e e' : DecryptReader σ}
    (ahead : LookAhead crypter source iv input e fed rest)
    (reads : Relation.ReflTransGen (Steps (decryptReader hmac crypter source)) e e') :
    ∃ fed' rest', LookAhead crypter source iv input e' fed' rest' := by
  induction reads with
  | refl => exact ⟨_, _, ahead⟩
  | tail _ step seen =>
    obtain ⟨fed, rest, ahead⟩ := seen
    obtain ⟨size, data, status, read⟩ := step
    exact (ahead.read read).1

/-- Whatever the lengths of the reads, every state a decrypter reaches from `DecryptReader`
on a source that emits `envelope` has fed whole blocks from the front of what follows the
IV to its HMAC and CBC decrypter, holds at least `c_HMAC_SIZE + 1` further bytes in `enc`
once it has read any, and at the end of the input holds in `enc` the last `c_HMAC_SIZE`
bytes or a misaligned tail. -/
theorem decryptReader_lookAhead {text : σ} {envelope : List UInt8} {e e' : DecryptReader σ}
    (emits : Emits source text envelope) (opened : decryptReaderNew source text = .ok e)
    (reads : Relation.ReflTransGen (Steps (decryptReader hmac crypter source)) e e') :
    ∃ fed rest, LookAhead crypter source (envelope.take blockSize) (envelope.drop blockSize)
      e' fed rest :=
  (LookAhead.new emits opened).run reads

/-- An IV, then 37 bytes: 17 after the HMAC's 20, not a whole block. -/
def misalignedEnvelope : List UInt8 := List.replicate 53 0

/-- One `Read` of 64 bytes from an IV and 37 bytes ends the input with a misaligned tail. -/
theorem decryptReader_lookAhead_misaligned :
    ∃ e e', decryptReaderNew chunkSource [misalignedEnvelope] = .ok e ∧
      Relation.ReflTransGen (Steps (decryptReader constantMac plainCrypter chunkSource)) e e' ∧
      e'.fin = true ∧
      ∃ fed rest, LookAhead plainCrypter chunkSource (misalignedEnvelope.take blockSize)
        (misalignedEnvelope.drop blockSize) e' fed rest :=
  let reads := Relation.ReflTransGen.single ⟨64, _, _, rfl⟩
  ⟨_, _, rfl, reads, rfl,
    decryptReader_lookAhead (emits_chunkSource [misalignedEnvelope]) rfl reads⟩

/-- An IV and 37 bytes read with one `Read` of 64: the length error at the end of the input,
with nothing after the IV written to the HMAC or decrypted, and all 37 bytes in `enc`. -/
theorem decryptReader_misaligned_feeds_nothing :
    ∃ e e', decryptReaderNew chunkSource [misalignedEnvelope] = .ok e ∧
      decryptRead constantMac plainCrypter chunkSource e 64 =
        .done e' [] (.error "ciphertext is not a multiple of the block size") ∧
      e'.fin = true ∧ e'.mac = misalignedEnvelope.take blockSize ∧
      e'.enc = misalignedEnvelope.drop blockSize :=
  ⟨_, _, rfl, rfl, rfl, rfl, rfl⟩

/-! ## Reads after an error -/

/-- A `Read` of the encrypter fails only with its source's error, and then leaves `fin`, the
chaining block and the MAC as they were, and keeps the plaintext `io.CopyN` read after what
it has not returned of its buffer. -/
theorem encryptRead_error {e e' : EncryptReader σ} {size : Nat} {data : List UInt8}
    {message : String} (failed : encryptRead hmac crypter source e size = .done e' data (.error message)) :
    e'.fin = false ∧ e'.cbc = e.cbc ∧ e'.mac = e.mac ∧ ∃ plain,
      copyN source e.text (readTarget size data.length) = .done e'.text plain (.error message) ∧
      e'.buf = e.buf.drop size ++ plain := by
  simp only [encryptRead] at failed
  split at failed
  · exact absurd (ReadOutcome.done.inj failed).2.2 (bufferRead_status_ne_error _ _ _)
  rename_i short
  split at failed
  · rename_i text plain _ copied
    cases failed
    refine ⟨by simpa using (not_or.1 short).2, rfl, rfl, plain, ?_, ?_⟩
    · rw [bufferRead_data] at copied ⊢; exact copied
    · by_cases empty : e.buf = [] <;> simp [bufferRead, empty]
  · split at failed
    · cases failed
    · exact absurd (ReadOutcome.done.inj failed).2.2 (bufferRead_status_ne_error _ _ _)
  · cases failed
  · cases failed

/-- Every `Read` of the encrypter returns the start of its buffer first. -/
theorem encryptRead_buffer_first {e e' : EncryptReader σ} {size : Nat} {data : List UInt8}
    {status : Status} (read : encryptRead hmac crypter source e size = .done e' data status) :
    e.buf.take size <+: data := by
  simp only [encryptRead] at read
  split at read
  · rw [(ReadOutcome.done.inj read).2.1.symm, bufferRead_data]
  split at read
  · rw [(ReadOutcome.done.inj read).2.1.symm, bufferRead_data]
  · split at read
    · cases read
    · rw [(ReadOutcome.done.inj read).2.1.symm, bufferRead_data]
      exact List.prefix_append _ _
  · cases read
  · cases read

/-- A `Read` of the decrypter fails with its source's error, with `fin` unset and what it
read kept in `enc`, or with an error of its checks, which it makes at the end of the input. -/
theorem decryptRead_error {e e' : DecryptReader σ} {size : Nat} {data : List UInt8}
    {message : String} (failed : decryptRead hmac crypter source e size = .done e' data (.error message)) :
    (e'.fin = false ∧ ∃ more, copyN source e.text (readTarget size data.length + hmacSize + 1) =
      .done e'.text more (.error message) ∧ e'.enc = e.enc ++ more) ∨ e'.fin = true := by
  simp only [decryptRead] at failed
  split at failed
  · exact absurd (ReadOutcome.done.inj failed).2.2 (bufferRead_status_ne_error _ _ _)
  rename_i short
  split at failed
  · rename_i text more _ copied
    cases failed
    refine .inl ⟨by simpa using (not_or.1 short).2, more, ?_, rfl⟩
    rw [bufferRead_data] at copied ⊢
    exact copied
  · rename_i text more status _ _
    by_cases ended : (status == Status.eof) = true
    · simp only [ended, true_and, if_true] at failed
      right
      repeat' split at failed
      all_goals first
        | exact (ReadOutcome.done.inj failed).1 ▸ rfl
        | cases failed
    · simp only [ended, false_and, if_false, Bool.false_eq_true] at failed
      repeat' split at failed
      all_goals first
        | cases failed
        | exact absurd (ReadOutcome.done.inj failed).2.2 (bufferRead_status_ne_error _ _ _)
  · cases failed
  · cases failed

/-- A decrypter that has seen the end of its input only drains its buffer. -/
theorem emitter_decryptReader_ended :
    Emitter (decryptReader hmac crypter source) fun e output => e.fin = true ∧ output = e.buf := by
  rintro e _ ⟨ended, rfl⟩
  refine ⟨by cases e; simp [decryptReader, decryptRead, bufferRead_zero], fun size pos => ?_⟩
  by_cases empty : e.buf = []
  · refine .inr ⟨{ e with buf := [] }, ?_, by simp [empty], ended, rfl⟩
    simp [decryptReader, decryptRead, ended, empty, bufferRead_nil pos]
  · refine .inl ⟨{ e with buf := e.buf.drop size }, e.buf.take size, e.buf.drop size, ?_,
      by simp [empty, pos.ne'], List.length_take_le _ _, (List.take_append_drop _ _).symm, ended,
      rfl⟩
    simp [decryptReader, decryptRead, ended, bufferRead_of_ne_nil empty]

/-- `secret` in ASCII. -/
def secretBytes : List UInt8 := [0x73, 0x65, 0x63, 0x72, 0x65, 0x74]

/-- A source whose first read returns `secret` together with an error, and whose later reads
return `io.EOF`. -/
def failingSource : Reader Bool where
  read
    | false, _ => .done true secretBytes (.error "read failed")
    | true, _ => .done true [] .eof

/-- Neither reader keeps an error.  A `Read` of the encrypter fails only with its source's
error, and then leaves `fin`, the chaining block and the MAC as they were and keeps, after
what it has not returned of its buffer, the plaintext `io.CopyN` read, unencrypted; every
`Read` returns the start of its buffer first.  A `Read` of the decrypter fails with its
source's error, with `fin` unset and what it read kept in `enc`, or with an error of its
checks at the end of the input, after which it only returns the rest of its buffer and then a
bare `io.EOF`. -/
theorem readers_keep_no_error :
    (∀ (e e' : EncryptReader σ) size data message,
      encryptRead hmac crypter source e size = .done e' data (.error message) →
        e'.fin = false ∧ e'.cbc = e.cbc ∧ e'.mac = e.mac ∧ ∃ plain,
          copyN source e.text (readTarget size data.length) =
            .done e'.text plain (.error message) ∧
          e'.buf = e.buf.drop size ++ plain) ∧
    (∀ (e e' : EncryptReader σ) size data status,
      encryptRead hmac crypter source e size = .done e' data status → e.buf.take size <+: data) ∧
    (∀ (e e' : DecryptReader σ) size data message,
      decryptRead hmac crypter source e size = .done e' data (.error message) →
        (e'.fin = false ∧ ∃ more, copyN source e.text (readTarget size data.length + hmacSize + 1) =
          .done e'.text more (.error message) ∧ e'.enc = e.enc ++ more) ∨
        (e'.fin = true ∧ Emits (decryptReader hmac crypter source) e' e'.buf)) :=
  ⟨fun _ _ _ _ _ => encryptRead_error, fun _ _ _ _ _ => encryptRead_buffer_first,
    fun _ _ _ _ _ failed => (decryptRead_error failed).imp_right fun ended =>
      ⟨ended, _, emitter_decryptReader_ended, ended, rfl⟩⟩

/-- The encrypter after it returned the IV, over a source whose first read fails with `secret`:
its next `Read` fails and keeps `secret` in its buffer. -/
theorem readers_keep_no_error_secret :
    ∃ e e', encryptRead constantMac plainCrypter failingSource e 16 =
        .done e' [] (.error "read failed") ∧
      e'.fin = false ∧ e'.cbc = e.cbc ∧ e'.mac = e.mac ∧ ∃ plain,
        copyN failingSource e.text (readTarget 16 ([] : List UInt8).length) =
          .done e'.text plain (.error "read failed") ∧
        e'.buf = e.buf.drop 16 ++ plain :=
  have failed : encryptRead constantMac plainCrypter failingSource
      { encryptReaderNew zeroIv false with buf := [] } 16 =
      .done ⟨true, zeroIv.bytes, zeroIv.bytes, secretBytes, false⟩ [] (.error "read failed") := rfl
  ⟨_, _, failed, readers_keep_no_error.1 _ _ _ _ _ failed⟩

/-- No error of the decrypter sticks.  On a source that emits an envelope, after any reads
from `DecryptReader`, a `Read` that returns an error (the length error, `ciphertext not
authentic` or a padding error) ends the input, and from then on the reader returns the rest
of its buffer with no error and then a bare `io.EOF`, whatever the lengths of the reads. -/
theorem decryptReader_drains_after_error {text : σ} {envelope : List UInt8}
    {e e' e'' : DecryptReader σ} {size : Nat} {data : List UInt8} {message : String}
    (emits : Emits source text envelope) (opened : decryptReaderNew source text = .ok e)
    (reads : Relation.ReflTransGen (Steps (decryptReader hmac crypter source)) e e')
    (failed : decryptRead hmac crypter source e' size = .done e'' data (.error message)) :
    e''.fin = true ∧ Emits (decryptReader hmac crypter source) e'' e''.buf := by
  obtain ⟨fed, rest, ahead⟩ := (LookAhead.new emits opened).run reads
  have ended := (ahead.read failed).2 message rfl
  exact ⟨ended, _, emitter_decryptReader_ended, ended, rfl⟩

/-- An IV and one block of zeros under an HMAC of twenty ones. -/
def forgedEnvelope : List UInt8 := List.replicate 32 0 ++ List.replicate 20 1

unseal cryptBlocks in
/-- The decrypter over a forged envelope fails its first read with `ciphertext not authentic`,
and then only drains its buffer. -/
theorem decryptReader_drains_after_error_forged :
    ∃ e e'', decryptReaderNew chunkSource [forgedEnvelope] = .ok e ∧
      decryptRead constantMac plainCrypter chunkSource e 64 =
        .done e'' [] (.error "ciphertext not authentic") ∧
      e''.fin = true ∧ Emits (decryptReader constantMac plainCrypter chunkSource) e'' e''.buf :=
  ⟨_, _, rfl, rfl, @decryptReader_drains_after_error _ constantMac plainCrypter chunkSource _ _ _ _ _
    64 _ _ (emits_chunkSource [forgedEnvelope]) rfl .refl rfl⟩

unseal cryptBlocks in
/-- Reads go on after an error.  The encrypter returns its source's error, and the next
`Read` returns the plaintext the source gave with it, unencrypted.  The decrypter returns
`ciphertext not authentic`, then the decryption it did not authenticate, then `io.EOF`;
after the length error it returns `io.EOF`. -/
theorem readers_continue_after_error :
    (∃ rest, readEach (encryptReader constantMac plainCrypter failingSource)
        (encryptReaderNew zeroIv false) [16, 16, 16] =
      some [(zeroIv.bytes, .ok), ([], .error "read failed"), (secretBytes ++ rest, .ok)]) ∧
    (∃ e, decryptReaderNew chunkSource [forgedEnvelope] = .ok e ∧
      readEach (decryptReader constantMac plainCrypter chunkSource) e [64, 64, 64] =
        some [([], .error "ciphertext not authentic"), (List.replicate 16 0, .ok), ([], .eof)]) ∧
    (∃ e, decryptReaderNew chunkSource [misalignedEnvelope] = .ok e ∧
      readEach (decryptReader constantMac plainCrypter chunkSource) e [64, 64] =
        some [([], .error "ciphertext is not a multiple of the block size"), ([], .eof)]) :=
  ⟨⟨_, rfl⟩, ⟨_, rfl, rfl⟩, ⟨_, rfl, rfl⟩⟩

end Crypto

end IncBackup
