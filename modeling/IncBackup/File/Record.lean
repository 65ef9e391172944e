import Mathlib

/-!
# File records

A `file.File` is the scanner's immutable snapshot of one filesystem entry: the
directory `Root` and base `Name` of its path, its length, its mode bits, its
modification time, its owner, and a lazily filled SHA-1 of its contents.

Go strings are byte strings, so every string of the program is a list of bytes
here: a file name need not be valid UTF-8.  A `time.Time` is kept as the instant
it denotes together with the offset of its location, the only two things the
program reads of it.
-/

namespace IncBackup

/-- A Go `string`: any sequence of bytes. -/
abbrev GoString := List UInt8

/-- The bytes of an ASCII literal of the source. -/
def ascii (text : String) : GoString :=
  text.toList.map fun character => character.toNat.toUInt8

/-- Go's `<` on strings: bytewise lexicographic order. -/
def goLess : GoString → GoString → Bool
  | [], [] => false
  | [], _ :: _ => true
  | _ :: _, [] => false
  | byte :: rest, other :: rest' =>
    decide (byte.toNat < other.toNat) || (byte == other && goLess rest rest')

@[simp]
theorem goLess_self : ∀ text : GoString, goLess text text = false
  | [] => rfl
  | _ :: rest => by simp [goLess, goLess_self rest]

/-- Go's `<` is irreflexive. -/
theorem ne_of_goLess {text text' : GoString} (less : goLess text text') : text ≠ text' := by
  rintro rfl
  rw [goLess_self] at less
  cases less

/-- One byte more on strings of one length decides only between equal strings. -/
theorem goLess_append_singleton : ∀ {left right : GoString}, left.length = right.length →
    ∀ last last' : UInt8, goLess (left ++ [last]) (right ++ [last']) =
      (goLess left right || (left == right && decide (last.toNat < last'.toNat)))
  | [], [], _, _, _ => by simp [goLess]
  | [], _ :: _, same, _, _ => absurd same (by simp)
  | _ :: _, [], same, _, _ => absurd same (by simp)
  | _ :: left, _ :: right, same, last, last' => by
    simp only [List.cons_append, goLess, List.append_eq,
      goLess_append_singleton (by simpa using same), List.cons_beq_cons,
      Bool.and_or_distrib_left, Bool.or_assoc, Bool.and_assoc]

/-! ## Printing numbers -/

/-- `Nat.toDigits`, which `strconv` and `fmt` follow, with more fuel than the number: the
digits of the quotient, then the last digit. -/
theorem toDigitsCore_eq {base : Nat} (large : 1 < base) (n : Nat) : ∀ {fuel}, n < fuel →
    ∀ digits, Nat.toDigitsCore base fuel n digits =
      (if n < base then [] else Nat.toDigits base (n / base)) ++
        Nat.digitChar (n % base) :: digits := by
  induction n using Nat.strong_induction_on with
  | _ n ih =>
    intro fuel enough digits
    obtain ⟨fuel, rfl⟩ : ∃ rest, fuel = rest + 1 := ⟨fuel - 1, by omega⟩
    by_cases small : n < base
    · simp [Nat.toDigitsCore, small, Nat.div_eq_of_lt small]
    · have smaller : n / base < n := Nat.div_lt_self (by omega) large
      have quotient : Nat.toDigits base (n / base) = (if n / base < base then [] else
          Nat.toDigits base (n / base / base)) ++ [Nat.digitChar (n / base % base)] :=
        ih _ smaller (Nat.lt_succ_self _) []
      simp only [Nat.toDigitsCore, (Nat.div_pos (not_lt.1 small) (by omega)).ne', if_false,
        small, quotient]
      rw [ih _ smaller (by omega)]
      simp

/-! ## Mode bits -/

/-- An `os.FileMode`: the type bits and permission bits of a file. -/
structure FileMode where
  bits : UInt32
deriving DecidableEq, Inhabited

namespace FileMode

/-- `os.ModeDir`. -/
def modeDir : UInt32 := 0x80000000

/-- `os.ModeSymlink`. -/
def modeSymlink : UInt32 := 0x08000000

/-- `os.ModeDevice`. -/
def modeDevice : UInt32 := 0x04000000

/-- `os.ModeNamedPipe`. -/
def modeNamedPipe : UInt32 := 0x02000000

/-- `os.ModeSocket`. -/
def modeSocket : UInt32 := 0x01000000

/-- `os.ModeCharDevice`. -/
def modeCharDevice : UInt32 := 0x00200000

/-- `os.ModeIrregular`. -/
def modeIrregular : UInt32 := 0x00080000

/-- `os.ModeType`: the bits that make a file something other than a regular file. -/
def modeType : UInt32 :=
  modeDir ||| modeSymlink ||| modeNamedPipe ||| modeSocket ||| modeDevice |||
    modeCharDevice ||| modeIrregular

/-- `FileMode.IsDir`. -/
def isDir (mode : FileMode) : Bool := mode.bits &&& modeDir != 0

/-- `FileMode.IsRegular`. -/
def isRegular (mode : FileMode) : Bool := mode.bits &&& modeType == 0

/-- The symlink test `mode & os.ModeSymlink != 0` of `File.IsSymlink`. -/
def isSymlink (mode : FileMode) : Bool := mode.bits &&& modeSymlink != 0

/-- The socket test `mode & os.ModeSocket != 0` made by `tar.FileInfoHeader`. -/
def isSocket (mode : FileMode) : Bool := mode.bits &&& modeSocket != 0

/-- The device test `mode & os.ModeDevice != 0` made by `tar.FileInfoHeader`. -/
def isDevice (mode : FileMode) : Bool := mode.bits &&& modeDevice != 0

/-- The named-pipe test `mode & os.ModeNamedPipe != 0` made by `tar.FileInfoHeader`. -/
def isNamedPipe (mode : FileMode) : Bool := mode.bits &&& modeNamedPipe != 0

end FileMode

/-! ## Times -/

/-- A `time.Time`, reduced to its instant and the offset of its location. -/
structure Time where
  /-- Nanoseconds since the Unix epoch. -/
  unixNano : Int
  /-- Seconds east of UTC of the time's location at that instant. -/
  offset : Int
deriving DecidableEq, Inhabited

namespace Time

/-- The zero `time.Time`: January 1 of year 1, UTC. -/
def zero : Time := ⟨-62135596800 * 1000000000, 0⟩

/-- `Time.Equal`: two times denote the same instant, whatever their locations. -/
def Equal (time other : Time) : Bool := time.unixNano == other.unixNano

/-- `Time.Truncate(time.Second)`: round down to a whole second. -/
def truncateSecond (time : Time) : Time :=
  { time with unixNano := time.unixNano - time.unixNano % 1000000000 }

@[simp]
theorem equal_iff {time other : Time} :
    time.Equal other = true ↔ time.unixNano = other.unixNano := by
  simp [Equal]

@[simp]
theorem equal_self (time : Time) : time.Equal time = true := by
  simp

theorem equal_comm (time other : Time) : time.Equal other = other.Equal time :=
  Bool.beq_comm

end Time

/-! ## Checksums -/

/-- A `[sha1.Size]byte` array. -/
structure Digest where
  bytes : List UInt8
  bytes_length : bytes.length = 20
deriving DecidableEq

namespace Digest

/-- The zero array, which `HasChecksum` reads as "not yet computed". -/
def zero : Digest := ⟨List.replicate 20 0, rfl⟩

instance : Inhabited Digest := ⟨zero⟩

end Digest

/-! ## The record -/

/-- `file.File`. -/
structure File where
  root : GoString
  name : GoString
  size : Int
  mode : FileMode
  modTime : Time
  uid : Int
  gid : Int
  sha1 : Digest
deriving DecidableEq, Inhabited

namespace File

/-- `File.IsDir`. -/
def isDir (file : File) : Bool := file.mode.isDir

/-- `File.IsRegular`. -/
def isRegular (file : File) : Bool := file.mode.isRegular

/-- `File.IsSymlink`. -/
def isSymlink (file : File) : Bool := file.mode.isSymlink

/-- `File.HasChecksum`: the checksum differs from the zero array. -/
def hasChecksum (file : File) : Bool := file.sha1 != Digest.zero

/-- `ByPath.Less`: order by root, then by name within a root. -/
def pathLess (file other : File) : Bool :=
  if file.root = other.root then goLess file.name other.name
  else goLess file.root other.root

/-- `BySize.Less`. -/
def sizeLess (file other : File) : Bool := decide (file.size < other.size)

end File

end IncBackup
