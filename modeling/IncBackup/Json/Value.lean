import IncBackup.File.Record

/-!
# JSON values as `encoding/json` writes and reads them

Manifests reach the store as JSON.  The program's own code decides which JSON value each
Go value becomes (`MarshalJSON`) and how a value is read back (`UnmarshalJSON`); the text
in between is `encoding/json`'s.  That text layer is modelled by its one effect on values:
strings are written as UTF-8, and the encoder replaces every byte that does not start a
valid UTF-8 sequence with the escape of U+FFFD.  A value read back from the text the
encoder wrote is `Json.reread` of the value written.

The decoders into Go's basic types follow `encoding/json`: `null` leaves the target as it
was, and a value of another kind is an `UnmarshalTypeError`.
-/

namespace IncBackup

/-- Results of decoding are compared in the statements about them. -/
instance decidableEqExcept {ε α : Type} [DecidableEq ε] [DecidableEq α] :
    DecidableEq (Except ε α)
  | .error a, .error b => decidable_of_iff (a = b) (by simp)
  | .ok a, .ok b => decidable_of_iff (a = b) (by simp)
  | .error _, .ok _ => isFalse (by simp)
  | .ok _, .error _ => isFalse (by simp)

/-- A JSON value, its strings held as the bytes of a Go string. -/
inductive Json where
  | null
  | bool (value : Bool)
  | number (value : Int)
  | string (bytes : GoString)
  | array (items : List Json)
  | object (fields : List (GoString × Json))

namespace Json

/-! ## UTF-8 -/

/-- The bounds of the second byte and the length of a sequence with this leading byte,
`utf8.first` and `acceptRanges`; none for a byte that starts no sequence of two to four. -/
def leadingRange (byte : UInt8) : Option (UInt8 × UInt8 × Nat) :=
  if 0xC2 ≤ byte ∧ byte ≤ 0xDF then some (0x80, 0xBF, 2)
  else if byte = 0xE0 then some (0xA0, 0xBF, 3)
  else if 0xE1 ≤ byte ∧ byte ≤ 0xEC then some (0x80, 0xBF, 3)
  else if byte = 0xED then some (0x80, 0x9F, 3)
  else if 0xEE ≤ byte ∧ byte ≤ 0xEF then some (0x80, 0xBF, 3)
  else if byte = 0xF0 then some (0x90, 0xBF, 4)
  else if 0xF1 ≤ byte ∧ byte ≤ 0xF3 then some (0x80, 0xBF, 4)
  else if byte = 0xF4 then some (0x80, 0x8F, 4)
  else none

/-- A continuation byte, `0x80` to `0xBF`. -/
def isContinuation (byte : UInt8) : Bool := 0x80 ≤ byte && byte ≤ 0xBF

/-- The width of the rune `utf8.DecodeRune` decodes at the head of `bytes`; none where it
returns `RuneError` with width 1. -/
def runeWidth : GoString → Option Nat
  | [] => none
  | byte :: rest =>
    if byte < 0x80 then some 1
    else match leadingRange byte, rest with
      | some (low, high, size), second :: more =>
        if low ≤ second ∧ second ≤ high ∧ size - 2 ≤ more.length ∧
            (more.take (size - 2)).all isContinuation then some size
        else none
      | _, _ => none

/-- The encoding of U+FFFD, `utf8.RuneError`. -/
def runeError : GoString := [0xEF, 0xBF, 0xBD]

/-- `encodeState.string` read back, one rune per step: a valid rune is kept, a byte that
starts none becomes U+FFFD.  Each step takes at least one byte, so the length is fuel
enough. -/
def rereadRunes : Nat → GoString → GoString
  | 0, _ => []
  | _ + 1, [] => []
  | fuel + 1, byte :: rest =>
    match runeWidth (byte :: rest) with
    | some width => (byte :: rest).take width ++ rereadRunes fuel ((byte :: rest).drop width)
    | none => runeError ++ rereadRunes fuel rest

/-- The string the decoder returns for a Go string the encoder wrote. -/
def rereadString (bytes : GoString) : GoString := rereadRunes bytes.length bytes

/-- A value read back from the text the encoder wrote for it. -/
def reread : Json → Json
  | .string bytes => .string (rereadString bytes)
  | .array items => .array (rereadItems items)
  | .object fields => .object (rereadFields fields)
  | other => other
where
  /-- `reread` on each item of an array. -/
  rereadItems : List Json → List Json
    | [] => []
    | item :: rest => item.reread :: rereadItems rest
  /-- `reread` on each key and value of an object. -/
  rereadFields : List (GoString × Json) → List (GoString × Json)
    | [] => []
    | (key, value) :: rest => (rereadString key, value.reread) :: rereadFields rest

/-- An ASCII byte is a rune of its own. -/
@[simp]
theorem runeWidth_of_lt {byte : UInt8} (ascii : byte < 0x80) (rest : GoString) :
    runeWidth (byte :: rest) = some 1 := by
  simp [runeWidth, ascii]

/-- Strings of ASCII bytes are read back as they were written. -/
theorem rereadRunes_of_ascii (fuel : Nat) (bytes : GoString) (enough : bytes.length ≤ fuel)
    (ascii : ∀ byte ∈ bytes, byte < 0x80) : rereadRunes fuel bytes = bytes := by
  induction fuel generalizing bytes with
  | zero => rw [List.eq_nil_of_length_eq_zero (Nat.le_zero.1 enough)]; rfl
  | succ fuel more =>
    match bytes with
    | [] => rfl
    | byte :: rest =>
      have head : byte < 0x80 := ascii byte (List.mem_cons_self _ _)
      simp only [rereadRunes, runeWidth_of_lt head, List.take_succ_cons, List.take_zero,
        List.drop_succ_cons, List.drop_zero, List.singleton_append]
      rw [more rest (Nat.le_of_succ_le_succ enough)
        fun other member => ascii other (List.mem_cons_of_mem _ member)]

theorem rereadString_of_ascii {bytes : GoString} (ascii : ∀ byte ∈ bytes, byte < 0x80) :
    rereadString bytes = bytes :=
  rereadRunes_of_ascii _ bytes le_rfl ascii

/-! ## Decoding into Go values -/

/-- The kind of a value, as `UnmarshalTypeError` names it. -/
def kind : Json → String
  | .null => "null"
  | .bool _ => "bool"
  | .number _ => "number"
  | .string _ => "string"
  | .array _ => "array"
  | .object _ => "object"

/-- `UnmarshalTypeError.Error()`. -/
def typeError (value : Json) (goType : String) : String :=
  "json: cannot unmarshal " ++ value.kind ++ " into Go value of type " ++ goType

/-- `json.Unmarshal` into a `string` that holds `current`. -/
def decodeString (current : GoString) : Json → Except String GoString
  | .null => .ok current
  | .string bytes => .ok bytes
  | value => .error (typeError value "string")

/-- `json.Unmarshal` into an integer type of the given range that holds `current`; a number
out of the range is an `UnmarshalTypeError` naming the number. -/
def decodeInteger (goType : String) (low high : Int) (current : Int) : Json → Except String Int
  | .null => .ok current
  | .number value =>
    if low ≤ value ∧ value < high then .ok value
    else .error ("json: cannot unmarshal number " ++ toString value ++ " into Go value of type "
      ++ goType)
  | value => .error (typeError value goType)

/-- `json.Unmarshal` into an `int` (64 bits). -/
def decodeInt (current : Int) : Json → Except String Int :=
  decodeInteger "int" (-2 ^ 63) (2 ^ 63) current

/-- `json.Unmarshal` into a `uint32`. -/
def decodeUInt32 (current : Int) : Json → Except String Int :=
  decodeInteger "uint32" 0 (2 ^ 32) current

/-- The value of a key of an object, the last one where the key repeats, as
`json.Unmarshal` into a map keeps it. -/
def field (fields : List (GoString × Json)) (key : GoString) : Option Json :=
  (fields.reverse.find? fun entry => entry.1 = key).map Prod.snd

end Json

end IncBackup
