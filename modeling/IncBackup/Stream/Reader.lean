import Mathlib

/-!
# Readers

The crypto package is written against Go's `io.Reader`: a `Read` into a slice of some
length returns some bytes and an error.  A `Reader` here is the `Read` method of one
concrete reader, as a function of the reader's state and of the slice's length; it
returns the state after the call, the bytes written into the slice and the error, or
it does not return normally.

Two functions of the standard library that the crypto readers call are modelled from
their Go source: `bytes.Buffer.Read` (`bufferRead`) and `io.CopyN` into a
`bytes.Buffer` (`copyN`), which reads its source through an `io.LimitReader` until the
limit, `io.EOF` or an error.  The buffer's free capacity, which also bounds each read
of `io.CopyN`, is not modelled: `throttle` cuts the reads of a source to any lengths,
and every result below holds whatever those lengths are.

What a consumer sees is stated without fixing the lengths of its reads.
`Emits reader state output` says that from `state` the reader returns the bytes
`output` and then `io.EOF`, however the reads are sized: each read of positive length
returns a non-empty piece of what is left, or all that is left together with `io.EOF`.
It is the largest relation kept by every read (`Emitter`), so it also fixes what the
reader does after `io.EOF`.  `drain` reads with a given list of lengths, and
`Emits.drain` says what it returns.
-/

namespace IncBackup

namespace Stream

/-- The `err` a `Read` returns: `nil`, `io.EOF`, or another error with its text. -/
inductive Status where
  | ok
  | eof
  | error (message : String)
deriving DecidableEq, Inhabited

/-- What a call of `Read` does: return with the reader's next state, the bytes written
into the slice and the error; panic; or never return. -/
inductive ReadOutcome (σ : Type) where
  | done (next : σ) (data : List UInt8) (status : Status)
  | panic
  | hang

/-- The result of Go code that returns a value or an error, panics, or never returns. -/
inductive Outcome (α : Type) where
  | ok (value : α)
  | error (message : String)
  | panic
  | hang
deriving DecidableEq

/-- The `Read` method of a reader whose state is `σ`, as a function of the state and of
the length of the slice it reads into. -/
structure Reader (σ : Type) where
  read : σ → Nat → ReadOutcome σ

variable {σ τ : Type}

/-- The same call, seen through a map of the reader's state. -/
def ReadOutcome.mapState (f : σ → τ) : ReadOutcome σ → ReadOutcome τ
  | .done next data status => .done (f next) data status
  | .panic => .panic
  | .hang => .hang

/-- The same result with `f` applied to its value. -/
def Outcome.map {α β : Type} (f : α → β) : Outcome α → Outcome β
  | .ok value => .ok (f value)
  | .error message => .error message
  | .panic => .panic
  | .hang => .hang

@[simp]
theorem Outcome.map_eq_ok {α β : Type} {f : α → β} {outcome : Outcome α} {value : β} :
    outcome.map f = .ok value ↔ ∃ inner, outcome = .ok inner ∧ f inner = value := by
  cases outcome <;> simp [Outcome.map]

/-! ## `bytes.Buffer` and `io.CopyN` -/

/-- What `bytes.Buffer.Read` returns, and the unread bytes of the buffer after it. -/
structure BufferRead where
  data : List UInt8
  rest : List UInt8
  status : Status

/-- `bytes.Buffer.Read` on a buffer whose unread bytes are `buffer`, into a slice of
length `size`. -/
def bufferRead (buffer : List UInt8) (size : Nat) : BufferRead :=
  if buffer = [] then ⟨[], [], if size = 0 then .ok else .eof⟩
  else ⟨buffer.take size, buffer.drop size, .ok⟩

/-- A `bytes.Buffer` used as an `io.Reader`. -/
def bufferReader : Reader (List UInt8) where
  read buffer size :=
    .done (bufferRead buffer size).rest (bufferRead buffer size).data (bufferRead buffer size).status

/-- The loop of `bytes.Buffer.ReadFrom` over an `io.LimitReader` with `remaining` bytes
left: it stops at the limit or at `io.EOF`, returning no error, or at another error.
`fuel` bounds the number of reads. -/
def readFromLimit (reader : Reader σ) : Nat → σ → Nat → ReadOutcome σ
  | 0, _, _ => .hang
  | fuel + 1, state, remaining =>
    if remaining = 0 then .done state [] .ok
    else
      match reader.read state remaining with
      | .done next data .ok =>
        match readFromLimit reader fuel next (remaining - data.length) with
        | .done last more status => .done last (data ++ more) status
        | .panic => .panic
        | .hang => .hang
      | .done next data .eof => .done next data .ok
      | .done next data (.error message) => .done next data (.error message)
      | .panic => .panic
      | .hang => .hang

/-- `io.CopyN(dst, src, n)` into a `bytes.Buffer`: the bytes copied and the error, `nil`
when all `n` bytes were copied and `io.EOF` when the source ended first.  A count that
is not positive copies nothing and returns no error.  The fuel allows one read more than
there are bytes to copy, which is enough for a source that makes progress. -/
def copyN (reader : Reader σ) (state : σ) (count : Int) : ReadOutcome σ :=
  if count ≤ 0 then .done state [] .ok
  else
    match readFromLimit reader (count.toNat + 1) state count.toNat with
    | .done next data status =>
      if data.length = count.toNat then .done next data .ok
      else .done next data (if status = .ok then .eof else status)
    | .panic => .panic
    | .hang => .hang

@[simp]
theorem bufferRead_of_ne_nil {buffer : List UInt8} (nonempty : buffer ≠ []) (size : Nat) :
    bufferRead buffer size = ⟨buffer.take size, buffer.drop size, .ok⟩ := by
  simp [bufferRead, nonempty]

/-- `bytes.Buffer.Read` of an empty buffer into a positive slice returns `io.EOF`. -/
theorem bufferRead_nil {size : Nat} (positive : 0 < size) :
    bufferRead [] size = ⟨[], [], .eof⟩ := by
  simp [bufferRead, Nat.pos_iff_ne_zero.1 positive]

/-- `bytes.Buffer.Read` into a slice longer than the buffer drains it. -/
theorem bufferRead_of_lt {buffer : List UInt8} {size : Nat} (short : buffer.length < size) :
    bufferRead buffer size = ⟨buffer, [], if buffer = [] then .eof else .ok⟩ := by
  by_cases empty : buffer = []
  · subst empty; exact bufferRead_nil short
  · simp [empty, List.take_of_length_le short.le, List.drop_of_length_le short.le]

/-- `bytes.Buffer.Read` into an empty slice reads nothing and leaves the buffer as it is. -/
@[simp]
theorem bufferRead_zero (buffer : List UInt8) : bufferRead buffer 0 = ⟨[], buffer, .ok⟩ := by
  by_cases empty : buffer = [] <;> simp [bufferRead, empty]

/-- `bytes.Buffer.Read` returns the first bytes of the buffer, as many as fit. -/
theorem bufferRead_data (buffer : List UInt8) (size : Nat) :
    (bufferRead buffer size).data = buffer.take size := by
  by_cases empty : buffer = [] <;> simp [bufferRead, empty]

/-- `bytes.Buffer.Read` returns no error but `io.EOF`. -/
theorem bufferRead_status_ne_error (buffer : List UInt8) (size : Nat) (message : String) :
    (bufferRead buffer size).status ≠ .error message := by
  unfold bufferRead
  split
  · split <;> nofun
  · nofun

/-! ## Readers that emit a known string -/

/-- `emits` relates reader states to the bytes still to come, and every read keeps it: a
read of length zero returns nothing and changes nothing; a read of positive length
returns a non-empty piece of what is left, no longer than the slice, or all that is left
with `io.EOF`, after which nothing is left. -/
def Emitter (reader : Reader σ) (emits : σ → List UInt8 → Prop) : Prop :=
  ∀ state output, emits state output →
    reader.read state 0 = .done state [] .ok ∧
    ∀ size, 0 < size →
      (∃ next data rest, reader.read state size = .done next data .ok ∧ data ≠ [] ∧
        data.length ≤ size ∧ output = data ++ rest ∧ emits next rest) ∨
      (∃ next, reader.read state size = .done next output .eof ∧ output.length ≤ size ∧
        emits next [])

/-- From `state` the reader returns exactly `output` and then `io.EOF`, whatever the
lengths of the reads. -/
def Emits (reader : Reader σ) (state : σ) (output : List UInt8) : Prop :=
  ∃ emits, Emitter reader emits ∧ emits state output

variable {reader : Reader σ} {emits : σ → List UInt8 → Prop}

/-- `Emits` is itself kept by every read: it is the largest such relation. -/
theorem emitter_emits : Emitter reader (Emits reader) := by
  rintro state output ⟨emits, emitter, holds⟩
  obtain ⟨zero, positive⟩ := emitter state output holds
  refine ⟨zero, fun size pos => (positive size pos).imp ?_ ?_⟩
  · rintro ⟨next, data, rest, read, nonempty, short, split, kept⟩
    exact ⟨next, data, rest, read, nonempty, short, split, emits, emitter, kept⟩
  · rintro ⟨next, read, short, kept⟩
    exact ⟨next, read, short, emits, emitter, kept⟩

/-- The loop of `io.CopyN` over a source that emits `output` copies the first `remaining`
bytes of it, given one read more than there are bytes to copy. -/
theorem Emitter.readFromLimit_take (emitter : Emitter reader emits) :
    ∀ (fuel : Nat) (state : σ) (output : List UInt8) (remaining : Nat),
      emits state output → remaining < fuel →
      ∃ next, readFromLimit reader fuel state remaining = .done next (output.take remaining) .ok ∧
        emits next (output.drop remaining)
  | 0, _, _, _, _, bound => absurd bound (Nat.not_lt_zero _)
  | fuel + 1, state, output, remaining, holds, bound => by
    by_cases zero : remaining = 0
    · subst zero
      exact ⟨state, by simp [Stream.readFromLimit], by simpa using holds⟩
    rcases (emitter state output holds).2 remaining (Nat.pos_of_ne_zero zero) with
      ⟨next, data, rest, read, nonempty, short, rfl, kept⟩ | ⟨next, read, short, kept⟩
    · have progress : 0 < data.length := List.length_pos.2 nonempty
      obtain ⟨last, loop, kept⟩ :=
        emitter.readFromLimit_take fuel next rest (remaining - data.length) kept (by omega)
      refine ⟨last, ?_, ?_⟩
      · simp [Stream.readFromLimit, zero, read, loop, List.take_append_eq_append_take,
          List.take_of_length_le short]
      · simpa [List.drop_append_eq_append_drop, List.drop_of_length_le short] using kept
    · exact ⟨next, by simp [Stream.readFromLimit, zero, read, List.take_of_length_le short],
        by simpa [List.drop_of_length_le short] using kept⟩

/-- `io.CopyN` of `count` bytes from a source that emits `output` returns the first `count`
bytes, with `io.EOF` exactly when the source ends first, and leaves the source emitting
the rest. -/
theorem Emitter.copyN_take (emitter : Emitter reader emits) {state : σ}
    {output : List UInt8} (holds : emits state output) (count : Int) :
    ∃ next, copyN reader state count = .done next (output.take count.toNat)
        (if count.toNat ≤ output.length then .ok else .eof) ∧
      emits next (output.drop count.toNat) := by
  unfold copyN
  by_cases nonpositive : count ≤ 0
  · have zero : count.toNat = 0 := by omega
    exact ⟨state, by simp [nonpositive, zero], by simpa [zero] using holds⟩
  obtain ⟨next, loop, kept⟩ :=
    emitter.readFromLimit_take _ state output count.toNat holds (Nat.lt_succ_self _)
  refine ⟨next, ?_, kept⟩
  by_cases enough : count.toNat ≤ output.length
  · have full : (output.take count.toNat).length = count.toNat := List.length_take_of_le enough
    simp only [nonpositive, if_false, loop, full, enough, if_true]
  · have short : (output.take count.toNat).length ≠ count.toNat := by
      rw [List.length_take]; omega
    simp only [nonpositive, if_false, loop, short, enough, if_true]

/-- A `bytes.Buffer` emits its unread bytes, and its state is what it has still to emit. -/
theorem emitter_bufferReader : Emitter bufferReader (· = ·) := by
  rintro buffer _ rfl
  refine ⟨by simp [bufferReader], fun size pos => ?_⟩
  by_cases empty : buffer = []
  · subst empty
    exact .inr ⟨[], by simp [bufferReader, bufferRead_nil pos], by simp, rfl⟩
  · exact .inl ⟨_, _, _, by simp [bufferReader, empty], by simp [empty, Nat.pos_iff_ne_zero.1 pos],
      List.length_take_le _ _, (List.take_append_drop _ _).symm, rfl⟩

/-! ## Consumers -/

/-- How a `drain` stopped. -/
inductive Ending where
  | pending
  | eof
  | error (message : String)
  | panic
  | hang
deriving DecidableEq

/-- A consumer that calls `Read` with the lengths `sizes` in turn and keeps what each call
returns, until a call returns an error or does not return; `pending` if the lengths run
out first. -/
def drain (reader : Reader σ) : σ → List Nat → List UInt8 × Ending
  | _, [] => ([], .pending)
  | state, size :: sizes =>
    match reader.read state size with
    | .done next data .ok => (drain reader next sizes).map (data ++ ·) id
    | .done _ data .eof => (data, .eof)
    | .done _ data (.error message) => (data, .error message)
    | .panic => ([], .panic)
    | .hang => ([], .hang)

/-- What a consumer reads from a reader that returns `output` and then `io.EOF`: a prefix
of `output` and no error while the lengths last, and all of `output` then `io.EOF` as soon
as more than `output.length` of the lengths are positive. -/
def ReadsExactly (result : List UInt8 × Ending) (output : List UInt8) (sizes : List Nat) :
    Prop :=
  (result = (output, .eof) ∨ result.2 = .pending ∧ result.1 <+: output) ∧
    (output.length < sizes.countP (0 < ·) → result = (output, .eof))

/-- Reading a reader that emits `output` with any lengths reads exactly `output`. -/
theorem Emitter.drain_readsExactly (emitter : Emitter reader emits) :
    ∀ (sizes : List Nat) (state : σ) (output : List UInt8), emits state output →
      ReadsExactly (drain reader state sizes) output sizes
  | [], _, _, _ => ⟨.inr ⟨rfl, List.nil_prefix⟩, by simp⟩
  | size :: sizes, state, output, holds => by
    obtain ⟨zero, positive⟩ := emitter state output holds
    rcases Nat.eq_zero_or_pos size with rfl | pos
    · simpa [Stream.drain, zero, ReadsExactly] using
        emitter.drain_readsExactly sizes state output holds
    rcases positive size pos with
      ⟨next, data, rest, read, nonempty, -, rfl, kept⟩ | ⟨next, read, -, -⟩
    · have progress : 0 < data.length := List.length_pos.2 nonempty
      obtain ⟨early, late⟩ := emitter.drain_readsExactly sizes next rest kept
      rw [drain, read]
      refine ⟨?_, fun more => ?_⟩
      · rcases early with done | ⟨pending, leading⟩
        · exact .inl (by simp [done])
        · exact .inr ⟨pending, (List.prefix_append_right_inj data).2 leading⟩
      · have fewer : rest.length < sizes.countP (0 < ·) := by
          simp [List.countP_cons, pos] at more; omega
        simp [late fewer]
    · simp [ReadsExactly, drain, read]

/-- `Emits` read with any lengths reads exactly what it emits. -/
theorem Emits.drain {state : σ} {output : List UInt8} (holds : Emits reader state output)
    (sizes : List Nat) : ReadsExactly (drain reader state sizes) output sizes :=
  emitter_emits.drain_readsExactly sizes state output holds

/-- A consumer that calls `Read` with the lengths `sizes` in turn whatever each call returns,
errors included: what each call returned, or none once a call panics or does not return. -/
def readEach (reader : Reader σ) : σ → List Nat → Option (List (List UInt8 × Status))
  | _, [] => some []
  | state, size :: sizes =>
    match reader.read state size with
    | .done next data status => (readEach reader next sizes).map ((data, status) :: ·)
    | .panic | .hang => none

/-- `next` is the state of `reader` after one `Read` from `state`, whatever it returned. -/
def Steps (reader : Reader σ) (state next : σ) : Prop :=
  ∃ size data status, reader.read state size = .done next data status

/-! ## Sources -/

/-- `Read` of a source holding `chunks`: at most one chunk per read. -/
def chunkRead : List (List UInt8) → Nat → ReadOutcome (List (List UInt8))
  | chunks, 0 => .done chunks [] .ok
  | [], _ + 1 => .done [] [] .eof
  | [] :: rest, size + 1 => chunkRead rest (size + 1)
  | chunk :: rest, size + 1 => .done (chunk.drop (size + 1) :: rest) (chunk.take (size + 1)) .ok

/-- A source that splits its data across reads as `chunks` does: any way of splitting
the bytes is one. -/
def chunkSource : Reader (List (List UInt8)) := ⟨chunkRead⟩

/-- A chunk source emits its chunks one after the other. -/
theorem emits_chunkSource (chunks : List (List UInt8)) :
    Emits chunkSource chunks chunks.flatten := by
  refine ⟨fun chunks output => output = chunks.flatten, ?_, rfl⟩
  rintro state _ rfl
  refine ⟨by cases state <;> simp [chunkSource, chunkRead], fun size pos => ?_⟩
  obtain ⟨size, rfl⟩ : ∃ smaller, size = smaller + 1 := ⟨size - 1, by omega⟩
  induction state with
  | nil => exact .inr ⟨[], by simp [chunkSource, chunkRead], by simp, rfl⟩
  | cons chunk rest more =>
    cases chunk with
    | nil => simpa [chunkSource, chunkRead] using more
    | cons byte bytes =>
      exact .inl ⟨bytes.drop size :: rest, byte :: bytes.take size, _,
        by simp [chunkSource, chunkRead], by simp, by simp [min_le_left],
        by simp [← List.append_assoc], rfl⟩

/-- The reader `inner` read through slices of at most `cap + 1` bytes for the lengths `cap`
of `caps` in turn, and read as it is once they run out. -/
def throttle (inner : Reader σ) : Reader (σ × List Nat) where
  read
    | (state, []), size => (inner.read state size).mapState (·, [])
    | (state, cap :: caps), size =>
      if size = 0 then (inner.read state 0).mapState (·, cap :: caps)
      else (inner.read state (min size (cap + 1))).mapState (·, caps)

/-- A read shorter than the slice keeps the promise a read of the whole slice makes. -/
theorem Emits.read_shorter {inner : Reader σ} {state : σ} {output : List UInt8}
    (holds : Emits inner state output) (f : σ → τ) {emitsAfter : τ → List UInt8 → Prop}
    (lift : ∀ next rest, Emits inner next rest → emitsAfter (f next) rest)
    {request size : Nat} (pos : 0 < request) (shorter : request ≤ size) :
    (∃ next data rest, (inner.read state request).mapState f = .done next data .ok ∧
        data ≠ [] ∧ data.length ≤ size ∧ output = data ++ rest ∧ emitsAfter next rest) ∨
      (∃ next, (inner.read state request).mapState f = .done next output .eof ∧
        output.length ≤ size ∧ emitsAfter next []) := by
  rcases (emitter_emits state output holds).2 request pos with
    ⟨next, data, rest, read, nonempty, short, split, kept⟩ | ⟨next, read, short, kept⟩
  · exact .inl ⟨f next, data, rest, by simp [read, ReadOutcome.mapState], nonempty,
      short.trans shorter, split, lift _ _ kept⟩
  · exact .inr ⟨f next, by simp [read, ReadOutcome.mapState], short.trans shorter,
      lift _ _ kept⟩

/-- Cutting the reads of a source leaves what it emits unchanged. -/
theorem Emits.throttle {inner : Reader σ} {state : σ} {output : List UInt8}
    (holds : Emits inner state output) (caps : List Nat) :
    Emits (throttle inner) (state, caps) output := by
  refine ⟨fun cut output => Emits inner cut.1 output, ?_, holds⟩
  rintro ⟨state, caps⟩ output holds
  have zero := (emitter_emits state output holds).1
  cases caps with
  | nil =>
    refine ⟨by simp [Stream.throttle, zero, ReadOutcome.mapState], fun size pos => ?_⟩
    exact holds.read_shorter (·, []) (fun _ _ kept => kept) pos le_rfl
  | cons cap caps =>
    refine ⟨by simp [Stream.throttle, zero, ReadOutcome.mapState], fun size pos => ?_⟩
    simp only [Stream.throttle, Nat.pos_iff_ne_zero.1 pos, if_false]
    exact holds.read_shorter (·, caps) (fun _ _ kept => kept) (lt_min pos cap.succ_pos)
      (min_le_left _ _)

end Stream

end IncBackup
