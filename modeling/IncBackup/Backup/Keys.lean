import IncBackup.File.Record

/-!
# Set keys and bundle keys

A backup run is named by `manifestKey`, the run's wall-clock time in
nanoseconds printed as 16 lowercase hex digits; its bundles are named by the
keys of `keyFactory`, the counters `0, 1, ...` printed in hex and zero-padded to
`hexLog` of the number of bundles.  Go's `%0*x` verb is modelled by
`formatHex`; `UnixNano` wraps to `int64`.
-/

namespace IncBackup

namespace Backup

/-- The recursion of `hexLog`, bounded by a fuel that each step spends. -/
def hexLogFuel : Nat → Nat → Nat
  | 0, _ => 1
  | fuel + 1, n => if n < 16 then 1 else 1 + hexLogFuel fuel (n / 16)

/-- `hexLog`: how many hexadecimal places a number needs.  The argument itself is
enough fuel, since each step divides it by 16. -/
def hexLog (n : Nat) : Nat := hexLogFuel n n

theorem hexLogFuel_congr (fuel other n : Nat) (enough : n ≤ fuel) (enough' : n ≤ other) :
    hexLogFuel fuel n = hexLogFuel other n := by
  induction fuel generalizing other n with
  | zero => cases other <;> simp_all [hexLogFuel]
  | succ fuel ih =>
    cases other with
    | zero => simp_all [hexLogFuel]
    | succ other =>
      simp only [hexLogFuel]
      split_ifs with small
      · rfl
      · rw [ih other (n / 16) (by omega) (by omega)]

/-- The recursion of the source's `hexLog`. -/
theorem hexLog_eq (n : Nat) : hexLog n = if n < 16 then 1 else 1 + hexLog (n / 16) := by
  unfold hexLog
  cases n with
  | zero => rfl
  | succ n =>
    simp only [hexLogFuel]
    split_ifs
    · rfl
    · rw [hexLogFuel_congr n ((n + 1) / 16) _ (by omega) le_rfl]

/-- The lowercase hex digits of a natural number, as `%x` prints them. -/
def hexDigits (n : Nat) : GoString := (Nat.toDigits 16 n).map fun digit => digit.toNat.toUInt8

/-- `%0<width>x` of a non-negative number: hex digits left-padded with `0`. -/
def formatHex (width n : Nat) : GoString :=
  List.replicate (width - (hexDigits n).length) (ascii "0").head! ++ hexDigits n

/-- The `int64` a Go integer computation wraps to. -/
def toInt64 (n : Int) : Int := (n + 2 ^ 63) % 2 ^ 64 - 2 ^ 63

/-- `manifestKey`: `fmt.Sprintf("%016x", t.UnixNano())`; a negative value prints its sign
inside the width. -/
def manifestKey (time : Time) : GoString :=
  let nano := toInt64 time.unixNano
  if 0 ≤ nano then formatHex 16 nano.toNat
  else ascii "-" ++ formatHex 15 nano.natAbs

/-- `keyFactory(size)`: the key returned by the generator's call number `counter`. -/
def keyFactory (size counter : Nat) : GoString := formatHex (hexLog size) counter

example : keyFactory 300 10 = ascii "00a" := by decide

/-! ## Fixed-width hex -/

/-- The byte `%x` prints for a digit below 16. -/
def hexChar (digit : Nat) : UInt8 := (Nat.digitChar digit).toNat.toUInt8

/-- The lowest `width` hex digits of `n`, most significant first. -/
def fixedHex : Nat → Nat → GoString
  | 0, _ => []
  | width + 1, n => fixedHex width (n / 16) ++ [hexChar (n % 16)]

/-- The recursion of `%x`: the digits of the quotient by 16, then the last digit. -/
theorem hexDigits_eq (n : Nat) :
    hexDigits n = (if n < 16 then [] else hexDigits (n / 16)) ++ [hexChar (n % 16)] := by
  simp only [hexDigits, Nat.toDigits, @toDigitsCore_eq 16 (by norm_num) n _ (Nat.lt_succ_self n)]
  split_ifs <;> simp [hexChar, Nat.toDigits]

@[simp]
theorem length_fixedHex (width n : Nat) : (fixedHex width n).length = width := by
  induction width generalizing n <;> simp [fixedHex, *]

theorem fixedHex_zero (width : Nat) : fixedHex width 0 = List.replicate width (hexChar 0) := by
  induction width with
  | zero => rfl
  | succ width ih => simp [fixedHex, ih, List.replicate_succ']

/-- Below `16 ^ width`, `%0<width>x` prints exactly `width` digits. -/
theorem formatHex_eq_fixedHex {width n : Nat} (positive : 0 < width) (fits : n < 16 ^ width) :
    formatHex width n = fixedHex width n := by
  induction width generalizing n with
  | zero => contradiction
  | succ width ih =>
    rw [formatHex, hexDigits_eq, fixedHex]
    by_cases small : n < 16
    · have zero : (ascii "0").head! = hexChar 0 := rfl
      simp [small, Nat.div_eq_of_lt small, fixedHex_zero, zero]
    · have wide : 0 < width := Nat.pos_of_ne_zero fun zero => by subst zero; omega
      rw [← ih wide (by rw [Nat.pow_succ] at fits; omega), formatHex]
      simp only [small, if_false, List.length_append, List.length_singleton, List.append_assoc]
      congr 2
      omega

/-- `%x` orders the digits below 16 as numbers. -/
theorem hexChar_lt_hexChar {digit digit' : Nat} (small : digit < 16) (small' : digit' < 16) :
    (hexChar digit).toNat < (hexChar digit').toNat ↔ digit < digit' := by
  have table : ∀ digit, digit < 16 → ∀ digit', digit' < 16 →
      ((hexChar digit).toNat < (hexChar digit').toNat ↔ digit < digit') := by decide
  exact table _ small _ small'

/-- Fixed-width hex strings are ordered as the numbers they print. -/
theorem goLess_fixedHex {width n m : Nat} (fits : n < 16 ^ width) (fits' : m < 16 ^ width) :
    goLess (fixedHex width n) (fixedHex width m) = decide (n < m) := by
  induction width generalizing n m with
  | zero => simp only [Nat.pow_zero] at fits fits'; simp [fixedHex, goLess]; omega
  | succ width ih =>
    rw [Nat.pow_succ] at fits fits'
    have injective : ∀ {k k'}, k < 16 ^ width → k' < 16 ^ width →
        (fixedHex width k == fixedHex width k') = decide (k = k') := by
      intro k k' fits fits'
      by_cases same : k = k'
      · simp [same]
      · rw [decide_eq_false same, beq_eq_false_iff_ne]
        intro equal
        have lt := ih fits fits'
        have gt := ih fits' fits
        rw [equal, goLess_self, eq_comm, decide_eq_false_iff_not] at lt gt
        omega
    rw [fixedHex, fixedHex, goLess_append_singleton (by simp), ih (by omega) (by omega),
      injective (by omega) (by omega),
      decide_eq_decide.2 (hexChar_lt_hexChar (Nat.mod_lt _ (by decide)) (Nat.mod_lt _ (by decide))),
      ← Bool.decide_and, ← Bool.decide_or, decide_eq_decide]
    omega

/-- Every byte of a fixed-width hex string is a lowercase hex digit. -/
theorem fixedHex_subset (width n : Nat) : fixedHex width n ⊆ ascii "0123456789abcdef" := by
  induction width generalizing n with
  | zero => exact List.nil_subset _
  | succ width ih =>
    have table : ∀ digit, digit < 16 → hexChar digit ∈ ascii "0123456789abcdef" := by decide
    exact List.append_subset.2
      ⟨ih _, List.cons_subset.2 ⟨table _ (Nat.mod_lt _ (by decide)), List.nil_subset _⟩⟩

/-- `hexLog n` places are enough for `n`. -/
theorem lt_pow_hexLog (n : Nat) : n < 16 ^ hexLog n := by
  induction n using Nat.strong_induction_on with
  | _ n ih =>
    rw [hexLog_eq]
    split_ifs with small
    · simpa using small
    · have := ih (n / 16) (by omega)
      rw [Nat.add_comm, Nat.pow_succ]
      omega

theorem hexLog_pos (n : Nat) : 0 < hexLog n := by
  rw [hexLog_eq]; split_ifs <;> omega

/-- A non-negative `int64` prints as its 16 hex digits. -/
theorem manifestKey_eq {time : Time} (nonneg : 0 ≤ time.unixNano)
    (fits : time.unixNano < 2 ^ 63) :
    manifestKey time = fixedHex 16 time.unixNano.toNat := by
  have wraps : toInt64 time.unixNano = time.unixNano := by simp only [toInt64]; omega
  simp only [manifestKey, wraps, nonneg, if_true]
  exact formatHex_eq_fixedHex (by decide) (by omega)

/-- The first `N` keys of `keyFactory(N)` print their counter in `hexLog N` digits. -/
theorem keyFactory_eq_fixedHex {N k : Nat} (small : k < N) :
    keyFactory N k = fixedHex (hexLog N) k :=
  formatHex_eq_fixedHex (hexLog_pos N) (by have := lt_pow_hexLog N; omega)

/-- The first `N` keys of `keyFactory(N)` increase. -/
theorem pairwise_keyFactory (N : Nat) :
    ((List.range N).map (keyFactory N)).Pairwise fun key key' => goLess key key' := by
  rw [List.pairwise_map]
  refine List.Pairwise.imp_of_mem (fun {k k'} mem mem' lt => ?_) (List.pairwise_lt_range N)
  rw [List.mem_range] at mem mem'
  have := lt_pow_hexLog N
  rw [keyFactory_eq_fixedHex mem, keyFactory_eq_fixedHex mem',
    goLess_fixedHex (by omega) (by omega)]
  exact decide_eq_true lt

/-- Set keys are 16 lowercase hex digits ordered as the times they name, and the first `N`
bundle keys of `keyFactory(N)` are distinct, `hexLog N` digits long and increasing. -/
theorem keys_ordered_hex (a b : Time) (N : Nat) (nonneg : 0 ≤ a.unixNano)
    (earlier : a.unixNano < b.unixNano) (fits : b.unixNano < 2 ^ 63) :
    ((manifestKey a).length = 16 ∧ (manifestKey b).length = 16 ∧
      manifestKey a ++ manifestKey b ⊆ ascii "0123456789abcdef" ∧
      goLess (manifestKey a) (manifestKey b)) ∧
    (((List.range N).map (keyFactory N)).Nodup ∧
      (∀ key ∈ (List.range N).map (keyFactory N), key.length = hexLog N) ∧
      ((List.range N).map (keyFactory N)).Pairwise fun key key' => goLess key key') := by
  have bound : (2 : Int) ^ 63 < 16 ^ 16 := by decide
  rw [manifestKey_eq nonneg (by omega), manifestKey_eq (by omega) fits]
  refine ⟨⟨by simp, by simp, List.append_subset.2 ⟨fixedHex_subset _ _, fixedHex_subset _ _⟩,
    by rw [goLess_fixedHex (by omega) (by omega)]; exact decide_eq_true (by omega)⟩,
    (pairwise_keyFactory N).imp ne_of_goLess, fun key mem => ?_, pairwise_keyFactory N⟩
  obtain ⟨k, small, rfl⟩ := List.mem_map.1 mem
  rw [keyFactory_eq_fixedHex (List.mem_range.1 small), length_fixedHex]

/-- The times zero and one nanosecond, and three bundles. -/
theorem keys_ordered_hex_first :
    ((manifestKey ⟨0, 0⟩).length = 16 ∧ (manifestKey ⟨1, 0⟩).length = 16 ∧
      manifestKey ⟨0, 0⟩ ++ manifestKey ⟨1, 0⟩ ⊆ ascii "0123456789abcdef" ∧
      goLess (manifestKey ⟨0, 0⟩) (manifestKey ⟨1, 0⟩)) ∧
    (((List.range 3).map (keyFactory 3)).Nodup ∧
      (∀ key ∈ (List.range 3).map (keyFactory 3), key.length = hexLog 3) ∧
      ((List.range 3).map (keyFactory 3)).Pairwise fun key key' => goLess key key') :=
  keys_ordered_hex ⟨0, 0⟩ ⟨1, 0⟩ 3 le_rfl (by decide) (by decide)

end Backup

end IncBackup
