import IncBackup.Stream.Reader

/-!
# AES-CBC with an HMAC-SHA1 signature

The store encrypts every object into the envelope `iv ‖ ciphertext ‖ hmac`: AES-256 in
CBC mode over the PKCS#7-padded plaintext, signed by HMAC-SHA1 of the IV and the
ciphertext.  The block cipher and the MAC are parameters: a `BlockCipher` is any map of
16-byte blocks with an inverse, so AES-256 under every key is one, and `HmacSha1` is any
map to 20-byte sums, keyed by the authentication key.  Nothing below depends on which.

`cryptBlocks` is the loop of `CryptBlocks` shared by the CBC encrypter and decrypter:
it walks the input block by block with a chaining block, and panics (`none`) on input
that is not whole blocks.  The padding functions exist twice in the source, once for
slices in old.go and once for `bytes.Buffer`s in the streaming readers; each is
modelled from its own text.
-/

namespace IncBackup

namespace Crypto

open Stream

/-- `aes.BlockSize`. -/
def blockSize : Nat := 16

/-- `c_HMAC_SIZE`, the length of an HMAC-SHA1 sum. -/
def hmacSize : Nat := 20

/-- `c_ENC_KEY_SIZE`, the key length of AES-256. -/
def encKeySize : Nat := 32

/-- `c_HMAC_KEY_SIZE`, `sha1.BlockSize`. -/
def hmacKeySize : Nat := 64

/-- A `cipher.Block` of `aes.BlockSize` bytes, such as AES-256 under one key: `Encrypt`
and `Decrypt` of a single block, the second undoing the first. -/
structure BlockCipher where
  encrypt : List UInt8 → List UInt8
  decrypt : List UInt8 → List UInt8
  encrypt_length : ∀ block, block.length = blockSize → (encrypt block).length = blockSize
  decrypt_length : ∀ block, block.length = blockSize → (decrypt block).length = blockSize
  decrypt_encrypt : ∀ block, block.length = blockSize → decrypt (encrypt block) = block

/-- HMAC-SHA1, `hmac.New(sha1.New, key)`: its `Sum` after `message` was written. -/
structure HmacSha1 where
  sum : List UInt8 → List UInt8 → List UInt8
  sum_length : ∀ key message, (sum key message).length = hmacSize

/-- `aesCrypter`: the block cipher of the encryption key, and the authentication key. -/
structure AesCrypter where
  bc : BlockCipher
  authKey : List UInt8

/-- `NewCrypter`, with `aes` the block cipher `aes.NewCipher` makes of a 32-byte key. -/
def newCrypter (aes : List UInt8 → BlockCipher) (encKey authKey : List UInt8) :
    Except String AesCrypter :=
  if encKey.length ≠ encKeySize then .error "invalid encryption key length"
  else if authKey.length ≠ hmacKeySize then .error "invalid authentication key length"
  else .ok ⟨aes encKey, authKey⟩

/-- An IV: the `aes.BlockSize` bytes drawn from `rand.Reader`. -/
structure Block where
  bytes : List UInt8
  length_eq : bytes.length = blockSize

/-! ## Exclusive or -/

/-- `subtle.XORBytes` of two blocks. -/
def xorBytes (left right : List UInt8) : List UInt8 := List.zipWith (· ^^^ ·) left right

theorem xor_xor_cancel (byte key : UInt8) : byte ^^^ key ^^^ key = byte :=
  congrArg UInt8.mk (by
    show byte.toBitVec ^^^ key.toBitVec ^^^ key.toBitVec = byte.toBitVec
    rw [BitVec.xor_assoc, BitVec.xor_self, BitVec.xor_zero])

/-- Exclusive or with the same key twice is the identity. -/
theorem xorBytes_xorBytes : ∀ {block key : List UInt8}, block.length = key.length →
    xorBytes (xorBytes block key) key = block
  | [], _, _ => rfl
  | _ :: _, [], same => absurd same (by simp)
  | byte :: block, k :: key, same => by
    simp only [xorBytes, List.zipWith_cons_cons, xor_xor_cancel, List.cons.injEq, true_and]
    exact xorBytes_xorBytes (by simpa using same)

@[simp]
theorem length_xorBytes (left right : List UInt8) :
    (xorBytes left right).length = min left.length right.length :=
  List.length_zipWith _ _ _

/-! ## Padding -/

/-- `pad` of old.go: PKCS#7 padding of a slice to the next whole block. -/
def pad (slice : List UInt8) : List UInt8 :=
  let oldLen := slice.length
  let pad := blockSize - oldLen % blockSize
  let newLen := oldLen + pad
  slice ++ List.replicate (newLen - oldLen) pad.toUInt8

/-- `padBuffer`: PKCS#7 padding of a buffer's bytes to the next whole block. -/
def padBuffer (buffer : List UInt8) : List UInt8 :=
  let pad := blockSize - buffer.length % blockSize
  buffer ++ List.replicate pad pad.toUInt8

/-- `unpad` of old.go: the slice without its padding; an error for a padding length out of
`[1, aes.BlockSize]` or for padding bytes that differ from it; a panic for indexing an
empty slice or slicing before its start. -/
def unpad (slice : List UInt8) : Outcome (List UInt8) :=
  match slice.getLast? with
  | none => .panic
  | some last =>
    let pad := last.toNat
    if pad > blockSize ∨ pad = 0 then .error "invalid padding length"
    else if slice.length < pad then .panic
    else if (slice.drop (slice.length - pad)).all (· == pad.toUInt8) then
      .ok (slice.take (slice.length - pad))
    else .error "invalid padding bytes"

/-- `unpadBuffer`: the same on a buffer's bytes, with the test `pad <= 0` for `pad == 0`. -/
def unpadBuffer (buffer : List UInt8) : Outcome (List UInt8) :=
  match buffer.getLast? with
  | none => .panic
  | some last =>
    let pad := last.toNat
    if pad > blockSize ∨ pad ≤ 0 then .error "invalid padding length"
    else if buffer.length < pad then .panic
    else if (buffer.drop (buffer.length - pad)).all (· == pad.toUInt8) then
      .ok (buffer.take (buffer.length - pad))
    else .error "invalid padding bytes"

/-- The two padding functions agree. -/
theorem pad_eq_padBuffer (slice : List UInt8) : pad slice = padBuffer slice := by
  simp [pad, padBuffer]

/-- The two unpadding functions agree: a byte is never negative. -/
theorem unpadBuffer_eq_unpad (buffer : List UInt8) : unpadBuffer buffer = unpad buffer := by
  simp only [unpadBuffer, unpad, Nat.le_zero]

/-- The number of padding bytes is between one and a whole block. -/
theorem padCount_pos (length : Nat) : 0 < blockSize - length % blockSize ∧
    blockSize - length % blockSize ≤ blockSize := by
  have := Nat.mod_lt length (show 0 < blockSize by decide)
  omega

@[simp]
theorem length_padBuffer (buffer : List UInt8) :
    (padBuffer buffer).length = buffer.length + (blockSize - buffer.length % blockSize) := by
  simp [padBuffer]

/-- Padding ends on a block boundary. -/
theorem length_padBuffer_mod (buffer : List UInt8) :
    (padBuffer buffer).length % blockSize = 0 := by
  simp only [length_padBuffer, blockSize]
  omega

/-- Padding after whole blocks pads only what follows them. -/
theorem padBuffer_append {blocks : List UInt8} (whole : blocks.length % blockSize = 0)
    (rest : List UInt8) : padBuffer (blocks ++ rest) = blocks ++ padBuffer rest := by
  have : (blocks.length + rest.length) % blockSize = rest.length % blockSize := by
    simp only [blockSize] at *; omega
  simp [padBuffer, this]

/-- `unpad` strips what `padBuffer` adds. -/
theorem unpad_padBuffer (slice : List UInt8) : unpad (padBuffer slice) = .ok slice := by
  obtain ⟨pos, le⟩ := padCount_pos slice.length
  set count := blockSize - slice.length % blockSize with countDef
  have byte : count.toUInt8.toNat = count :=
    UInt8.toNat_ofNat_of_lt (by simp only [blockSize] at le; simp only [UInt8.size]; omega)
  have last : (padBuffer slice).getLast? = some count.toUInt8 := by
    simp [padBuffer, ← countDef, List.getLast?_append_of_ne_nil, List.getLast?_replicate,
      Nat.pos_iff_ne_zero.1 pos]
  simp only [unpad, last, byte, length_padBuffer, ← countDef]
  rw [if_neg (by omega), if_neg (by omega)]
  simp [padBuffer, ← countDef, List.drop_append_eq_append_drop, List.all_replicate,
    Nat.pos_iff_ne_zero.1 pos]

/-- `unpad` looks only at the last block, so what precedes it passes through. -/
theorem unpad_append (front : List UInt8) {last : List UInt8}
    (long : blockSize ≤ last.length) :
    unpad (front ++ last) = (unpad last).map (front ++ ·) := by
  have nonempty : last ≠ [] := by
    rintro rfl; simp [blockSize] at long
  unfold unpad
  rw [List.getLast?_append_of_ne_nil _ nonempty]
  cases last.getLast? with
  | none => rfl
  | some byte =>
    simp only [List.length_append]
    by_cases bad : byte.toNat > blockSize ∨ byte.toNat = 0
    · simp [bad, Outcome.map]
    · have fits : byte.toNat ≤ last.length := by omega
      have keep : front.length ≤ front.length + last.length - byte.toNat := by omega
      rw [List.drop_append_eq_append_drop, List.take_append_eq_append_take,
        List.drop_of_length_le keep, List.take_of_length_le keep,
        show front.length + last.length - byte.toNat - front.length =
          last.length - byte.toNat by omega]
      simp only [bad, if_false, show ¬ front.length + last.length < byte.toNat by omega,
        show ¬ last.length < byte.toNat by omega, List.nil_append]
      split_ifs <;> rfl

/-- On whole blocks `unpad` never panics, and what it accepts is a padding of what it
returns. -/
theorem unpad_of_whole {y : List UInt8} (positive : 0 < y.length)
    (whole : y.length % blockSize = 0) :
    (∃ x, unpad y = .ok x ∧ y = padBuffer x) ∨ ∃ message, unpad y = .error message := by
  obtain ⟨last, lastEq⟩ : ∃ last, y.getLast? = some last :=
    Option.isSome_iff_exists.1 (by simpa [List.getLast?_isSome] using List.ne_nil_of_length_pos positive)
  unfold unpad
  rw [lastEq]
  dsimp only
  by_cases bad : last.toNat > blockSize ∨ last.toNat = 0
  · simp [bad]
  · have fits : ¬ y.length < last.toNat := by simp only [blockSize] at *; omega
    simp only [bad, fits, if_false]
    split
    · next padded =>
      refine .inl ⟨_, rfl, ?_⟩
      have count : blockSize - (y.length - last.toNat) % blockSize = last.toNat := by
        simp only [blockSize] at *; omega
      have tail : y.drop (y.length - last.toNat) = List.replicate last.toNat last.toNat.toUInt8 :=
        List.eq_replicate_iff.2 ⟨by rw [List.length_drop]; omega, by simpa using padded⟩
      simp only [padBuffer, List.length_take, Nat.min_eq_left (Nat.sub_le _ _), count, ← tail,
        List.take_append_drop]
    · exact .inr ⟨_, rfl⟩

/-- What `unpad` accepts of whole blocks is exactly the paddings. -/
theorem unpad_eq_ok_iff {x y : List UInt8} (positive : 0 < y.length)
    (whole : y.length % blockSize = 0) : unpad y = .ok x ↔ y = padBuffer x := by
  constructor
  · intro opened
    rcases unpad_of_whole positive whole with ⟨x', opened', rfl⟩ | ⟨_, failed⟩
    · rw [opened'] at opened; cases opened; rfl
    · rw [failed] at opened; cases opened
  · rintro rfl; exact unpad_padBuffer x

/-- PKCS#7 padding: `pad` and `padBuffer` agree and add one to sixteen bytes up to a block
boundary, both unpadders undo them, and of whole blocks they accept exactly the paddings
and reject everything else with an error. -/
theorem unpad_accepts_paddings (x y : List UInt8) :
    (pad x = padBuffer x ∧ (pad x).length % blockSize = 0 ∧
      x.length + 1 ≤ (pad x).length ∧ (pad x).length ≤ x.length + blockSize ∧
      unpad (pad x) = .ok x ∧ unpadBuffer (pad x) = .ok x) ∧
    (0 < y.length → y.length % blockSize = 0 →
      (unpad y = .ok x ↔ y = pad x) ∧ (unpadBuffer y = .ok x ↔ y = pad x) ∧
      ((∀ x, y ≠ pad x) →
        (∃ message, unpad y = .error message) ∧ ∃ message, unpadBuffer y = .error message)) := by
  have bounds := padCount_pos x.length
  rw [pad_eq_padBuffer, unpadBuffer_eq_unpad, unpadBuffer_eq_unpad, unpad_padBuffer,
    length_padBuffer_mod, length_padBuffer]
  refine ⟨⟨rfl, rfl, by omega, by omega, rfl, rfl⟩, fun positive whole => ?_⟩
  refine ⟨unpad_eq_ok_iff positive whole, unpad_eq_ok_iff positive whole, fun unpadded => ?_⟩
  rcases unpad_of_whole positive whole with ⟨x', -, padded⟩ | failed
  · exact absurd (padded.trans (pad_eq_padBuffer x').symm) (unpadded x')
  · exact ⟨failed, failed⟩

/-- An empty slice pads to a whole block of sixteens, which both unpadders open back; sixteen
zero bytes are a whole block that pads nothing, and both reject it. -/
theorem unpad_accepts_paddings_zeros :
    (unpad (pad []) = .ok [] ∧ unpadBuffer (pad []) = .ok []) ∧
    (∃ message, unpad (List.replicate 16 0) = .error message) ∧
      ∃ message, unpadBuffer (List.replicate 16 0) = .error message :=
  have rejected : unpad (List.replicate 16 0) = .error "invalid padding length" := by decide
  have unpadded : ∀ x, List.replicate 16 0 ≠ pad x := fun x same => by
    rw [same, pad_eq_padBuffer, unpad_padBuffer] at rejected
    cases rejected
  ⟨(unpad_accepts_paddings [] (List.replicate 16 0)).1.2.2.2.2,
    ((unpad_accepts_paddings [] (List.replicate 16 0)).2 (by decide) (by decide)).2.2 unpadded⟩

/-! ## Cipher block chaining -/

/-- The loop of `CryptBlocks` in a CBC mode whose block step `step` maps the chaining block
and an input block to an output block and the next chaining block: the output and the
chaining block after it; `none` is the panic on input that is not whole blocks. -/
def cryptBlocks (step : List UInt8 → List UInt8 → List UInt8 × List UInt8)
    (iv src : List UInt8) : Option (List UInt8 × List UInt8) :=
  if src = [] then some ([], iv)
  else if src.length < blockSize then none
  else
    (cryptBlocks step (step iv (src.take blockSize)).2 (src.drop blockSize)).map
      fun out => ((step iv (src.take blockSize)).1 ++ out.1, out.2)
termination_by src.length
decreasing_by simp only [List.length_drop, blockSize] at *; omega

/-- `CryptBlocks` of `cipher.NewCBCEncrypter(bc, iv)`: each block is encrypted after it is
combined with the previous ciphertext block. -/
def cbcEncrypt (bc : BlockCipher) : List UInt8 → List UInt8 → Option (List UInt8 × List UInt8) :=
  cryptBlocks fun iv block => (bc.encrypt (xorBytes block iv), bc.encrypt (xorBytes block iv))

/-- `CryptBlocks` of `cipher.NewCBCDecrypter(bc, iv)`. -/
def cbcDecrypt (bc : BlockCipher) : List UInt8 → List UInt8 → Option (List UInt8 × List UInt8) :=
  cryptBlocks fun iv block => (xorBytes (bc.decrypt block) iv, block)

section CryptBlocks

variable {step : List UInt8 → List UInt8 → List UInt8 × List UInt8}

/-- Induction over a byte string one block at a time, ending in a short piece. -/
theorem blocks_induction {motive : List UInt8 → Prop} (nil : motive [])
    (short : ∀ src, src ≠ [] → src.length < blockSize → motive src)
    (block : ∀ block rest, block.length = blockSize → motive rest → motive (block ++ rest)) :
    ∀ src, motive src := fun src =>
  if empty : src = [] then by rw [empty]; exact nil
  else if small : src.length < blockSize then short src empty small
  else
    List.take_append_drop blockSize src ▸
      block _ _ (by simp only [List.length_take]; omega) (blocks_induction nil short block _)
termination_by src => src.length
decreasing_by simp only [List.length_drop, blockSize] at small ⊢; omega

/-- Whole blocks shorter than a block are no blocks. -/
theorem eq_nil_of_short {src : List UInt8} (whole : src.length % blockSize = 0)
    (small : src.length < blockSize) : src = [] :=
  List.length_eq_zero.1 (by simp only [blockSize] at *; omega)

/-- Whole blocks after a first block. -/
theorem whole_of_block_append {block rest : List UInt8} (one : block.length = blockSize)
    (whole : (block ++ rest).length % blockSize = 0) : rest.length % blockSize = 0 := by
  simp only [List.length_append, one, blockSize] at whole ⊢; omega

@[simp]
theorem cryptBlocks_nil (iv : List UInt8) : cryptBlocks step iv [] = some ([], iv) := by
  rw [cryptBlocks]; simp

/-- `CryptBlocks` of a first block and the rest. -/
theorem cryptBlocks_block_append (iv : List UInt8) {block : List UInt8}
    (one : block.length = blockSize) (rest : List UInt8) :
    cryptBlocks step iv (block ++ rest) =
      (cryptBlocks step (step iv block).2 rest).map fun out => ((step iv block).1 ++ out.1, out.2) := by
  rw [cryptBlocks]
  have nonempty : block ++ rest ≠ [] :=
    List.length_pos.1 (by simp only [List.length_append, one, blockSize]; omega)
  simp [nonempty, one, List.take_append_eq_append_take, List.drop_append_eq_append_drop]

/-- `CryptBlocks` of whole blocks and what follows them: the chaining block carries over. -/
theorem cryptBlocks_append {front : List UInt8} (whole : front.length % blockSize = 0)
    (back : List UInt8) (iv : List UInt8) : cryptBlocks step iv (front ++ back) =
      (cryptBlocks step iv front).bind fun out =>
        (cryptBlocks step out.2 back).map fun more => (out.1 ++ more.1, more.2) := by
  induction front using blocks_induction generalizing iv with
  | nil => simp
  | short src nonempty small => exact absurd (eq_nil_of_short whole small) nonempty
  | block block rest one more =>
    rw [List.append_assoc, cryptBlocks_block_append _ one, cryptBlocks_block_append _ one,
      more (whole_of_block_append one whole)]
    cases cryptBlocks step (step iv block).2 rest with
    | none => rfl
    | some out => simp [Option.map_map, Function.comp_def]

/-- A block step that maps blocks to blocks. -/
def BlockStep (step : List UInt8 → List UInt8 → List UInt8 × List UInt8) : Prop :=
  ∀ iv block, iv.length = blockSize → block.length = blockSize →
    (step iv block).1.length = blockSize ∧ (step iv block).2.length = blockSize

/-- Whole blocks go through `CryptBlocks` without a panic, into as many bytes. -/
theorem cryptBlocks_of_whole (keeps : BlockStep step) {src : List UInt8}
    (whole : src.length % blockSize = 0) (iv : List UInt8) (chained : iv.length = blockSize) :
    ∃ dst last, cryptBlocks step iv src = some (dst, last) ∧ dst.length = src.length ∧
      last.length = blockSize := by
  induction src using blocks_induction generalizing iv with
  | nil => exact ⟨[], iv, by simp, rfl, chained⟩
  | short src nonempty small => exact absurd (eq_nil_of_short whole small) nonempty
  | block block rest one more =>
    obtain ⟨out, next⟩ := keeps iv block chained one
    obtain ⟨dst, last, crypt, length, lastLength⟩ :=
      more (whole_of_block_append one whole) _ next
    exact ⟨_, last, by rw [cryptBlocks_block_append _ one, crypt]; rfl,
      by simp [length, out, one], lastLength⟩

/-- What `CryptBlocks` accepts is whole blocks. -/
theorem whole_of_cryptBlocks {iv src : List UInt8} {out : List UInt8 × List UInt8}
    (done : cryptBlocks step iv src = some out) : src.length % blockSize = 0 := by
  induction iv, src using cryptBlocks.induct step generalizing out with
  | case1 => simp
  | case2 iv src nonempty short =>
    rw [cryptBlocks, if_neg nonempty, if_pos short] at done
    cases done
  | case3 iv src nonempty long more =>
    rw [cryptBlocks, if_neg nonempty, if_neg long] at done
    obtain ⟨rest, crypt, -⟩ := Option.map_eq_some'.1 done
    have := more crypt
    simp only [List.length_drop, blockSize] at this long ⊢
    omega

end CryptBlocks

/-- CBC encryption maps blocks to blocks. -/
theorem blockStep_encrypt (bc : BlockCipher) :
    BlockStep fun iv block => (bc.encrypt (xorBytes block iv), bc.encrypt (xorBytes block iv)) :=
  fun _ _ chained one =>
    have length := bc.encrypt_length _ (by simp [chained, one])
    ⟨length, length⟩

/-- CBC decryption maps blocks to blocks. -/
theorem blockStep_decrypt (bc : BlockCipher) :
    BlockStep fun iv block => (xorBytes (bc.decrypt block) iv, block) :=
  fun _ _ chained one => ⟨by simp [bc.decrypt_length _ one, chained], one⟩

/-- Whole blocks go through the CBC encrypter into as many bytes. -/
theorem cbcEncrypt_of_whole (bc : BlockCipher) {src : List UInt8}
    (whole : src.length % blockSize = 0) (iv : List UInt8) (chained : iv.length = blockSize) :
    ∃ sealed last, cbcEncrypt bc iv src = some (sealed, last) ∧ sealed.length = src.length ∧
      last.length = blockSize :=
  cryptBlocks_of_whole (blockStep_encrypt bc) whole iv chained

/-- Whole blocks go through the CBC decrypter into as many bytes. -/
theorem cbcDecrypt_of_whole (bc : BlockCipher) {src : List UInt8}
    (whole : src.length % blockSize = 0) (iv : List UInt8) (chained : iv.length = blockSize) :
    ∃ opened last, cbcDecrypt bc iv src = some (opened, last) ∧ opened.length = src.length ∧
      last.length = blockSize :=
  cryptBlocks_of_whole (blockStep_decrypt bc) whole iv chained

/-- The CBC encrypter carries its chaining block from whole blocks to what follows. -/
theorem cbcEncrypt_append (bc : BlockCipher) {front : List UInt8}
    (whole : front.length % blockSize = 0) (back iv : List UInt8) :
    cbcEncrypt bc iv (front ++ back) = (cbcEncrypt bc iv front).bind fun out =>
      (cbcEncrypt bc out.2 back).map fun more => (out.1 ++ more.1, more.2) :=
  cryptBlocks_append whole back iv

/-- The CBC decrypter carries its chaining block from whole blocks to what follows. -/
theorem cbcDecrypt_append (bc : BlockCipher) {front : List UInt8}
    (whole : front.length % blockSize = 0) (back iv : List UInt8) :
    cbcDecrypt bc iv (front ++ back) = (cbcDecrypt bc iv front).bind fun out =>
      (cbcDecrypt bc out.2 back).map fun more => (out.1 ++ more.1, more.2) :=
  cryptBlocks_append whole back iv

/-- CBC decryption undoes CBC encryption, and ends with the same chaining block. -/
theorem cbcDecrypt_cbcEncrypt (bc : BlockCipher) {plain : List UInt8}
    (whole : plain.length % blockSize = 0) {iv sealed last : List UInt8}
    (chained : iv.length = blockSize) (done : cbcEncrypt bc iv plain = some (sealed, last)) :
    cbcDecrypt bc iv sealed = some (plain, last) := by
  induction plain using blocks_induction generalizing iv sealed with
  | nil => simp_all [cbcEncrypt, cbcDecrypt]
  | short src nonempty small => exact absurd (eq_nil_of_short whole small) nonempty
  | block block rest one more =>
    simp only [cbcEncrypt, cryptBlocks_block_append _ one, Option.map_eq_some'] at done
    obtain ⟨⟨tail, last'⟩, crypt, equal⟩ := done
    simp only [Prod.mk.injEq] at equal
    obtain ⟨rfl, rfl⟩ := equal
    have sealedLength := bc.encrypt_length (xorBytes block iv) (by simp [chained, one])
    simp only [cbcDecrypt, cryptBlocks_block_append _ sealedLength]
    rw [show cryptBlocks _ _ tail = cbcDecrypt bc _ tail from rfl,
      more (whole_of_block_append one whole) sealedLength crypt]
    simp [bc.decrypt_encrypt (xorBytes block iv) (by simp [chained, one]),
      xorBytes_xorBytes (one.trans chained.symm)]

/-! ## The envelope of old.go -/

/-- `encrypt` of old.go, with `iv` the IV `newEnvelope` draws: the envelope
`iv ‖ CBC(pad(plaintext)) ‖ HMAC(iv ‖ CBC(pad(plaintext)))`.  `none` is the panic of
`CryptBlocks`, which padded input never meets. -/
def encrypt (hmac : HmacSha1) (crypter : AesCrypter) (iv : Block) (plaintext : List UInt8) :
    Option (List UInt8) :=
  let plaintext := pad plaintext
  (cbcEncrypt crypter.bc iv.bytes plaintext).map fun out =>
    let message := iv.bytes ++ out.1
    message ++ hmac.sum crypter.authKey message

/-- The envelope in terms of the CBC encryption of the padded plaintext. -/
theorem encrypt_of_cbcEncrypt {hmac : HmacSha1} {crypter : AesCrypter} {iv : Block}
    {plaintext sealed last : List UInt8}
    (crypt : cbcEncrypt crypter.bc iv.bytes (padBuffer plaintext) = some (sealed, last)) :
    encrypt hmac crypter iv plaintext =
      some (iv.bytes ++ sealed ++ hmac.sum crypter.authKey (iv.bytes ++ sealed)) := by
  simp [encrypt, pad_eq_padBuffer, crypt]

/-! ## Fixed primitives for concrete runs -/

/-- A block cipher that leaves blocks as they are. -/
def plainCipher : BlockCipher := ⟨id, id, fun _ one => one, fun _ one => one, fun _ _ => rfl⟩

/-- A MAC whose sum is twenty zero bytes. -/
def constantMac : HmacSha1 := ⟨fun _ _ => List.replicate hmacSize 0, fun _ _ => by simp⟩

/-- A crypter over `plainCipher` with an empty authentication key. -/
def plainCrypter : AesCrypter := ⟨plainCipher, []⟩

/-- The IV of sixteen zero bytes. -/
def zeroIv : Block := ⟨List.replicate blockSize 0, by simp⟩

end Crypto

end IncBackup
