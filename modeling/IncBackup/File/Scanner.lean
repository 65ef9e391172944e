import IncBackup.File.Path

/-!
# The path scanner

`PathScanner.Scan` lists the files below the included paths.  One goroutine per included path
stats it and tags it; `tagFile` queues a directory on `chDir` and sends every file it keeps
on `chAll`; a dispatcher starts `doWalkDir` for each directory queued, and each walker reads
its directory one entry at a time and tags each entry.  The semaphore `sem` bounds the
goroutines holding a stat or a directory open to `c_CONCURRENT_FILES`, the wait group counts
the goroutines that have not returned, and a last goroutine closes both channels once that
count is zero; `Scan` collects what `chAll` delivers until it is closed.

The goroutines are a step relation over the scan's shared state, in which any goroutine that
is not blocked takes its next step.  The dispatcher and `Scan`'s loop only ever wait to
receive, so a send on `chDir` starts its walker at once and a send on `chAll` appends to the
result at once.  The file system is the calls the scanner makes of it; `log.Fatal` and a
panic end the process with their message.

Over every run and every file system, the wait group counts exactly the goroutines left and
`sem`'s tokens and their holders make `c_CONCURRENT_FILES` (`balanced_of_reachable`), so the
scan never deadlocks, never sends on a closed channel and never drives the wait group
negative, and it never lists an excluded path.
-/

namespace IncBackup

namespace Scanner

open Relation

/-! ## The file system -/

/-- An `os.FileInfo` as `Lstat` and `Readdir` give it, with the owner `SysStat` reads from a
`*syscall.Stat_t` in `Sys()`, none for any other value. -/
structure FileInfo where
  name : GoString
  size : Int
  mode : FileMode
  modTime : Time
  owner : Option (Int × Int)
deriving DecidableEq

/-- The calls of `fs.FileSystem` the scanner makes. -/
structure FileSystem where
  /-- `AbsPath(path)`. -/
  absPath : GoString → Except String GoString
  /-- `Lstat(name)`. -/
  lstat : GoString → Except String FileInfo
  /-- `OpenRead(name)`, then `Readdir(1)` until it returns an error: the error of `OpenRead`,
  or the entries the calls return in turn and the error that ends them, none for `io.EOF`. -/
  readdir : GoString → Except String (List FileInfo × Option String)

/-- `c_CONCURRENT_FILES`: the tokens of `sem`. -/
def concurrentFiles : Nat := 10

/-- `foundFile(fs, pwd, fi)`: the record of entry `fi` of directory `pwd`, none where `SysStat`
gave a nil `*FileStat_t` and reading its `Uid` panics. -/
def foundFile (pwd : GoString) (fi : FileInfo) : Option File :=
  fi.owner.map fun owner =>
    { root := pwd, name := fi.name, size := fi.size, mode := fi.mode, modTime := fi.modTime,
      uid := owner.1, gid := owner.2, sha1 := Digest.zero }

/-! ## Building a scanner -/

/-- `PathScanner`: the included paths in order, and the excluded ones. -/
structure PathScanner where
  incl : List GoString
  excl : List GoString

/-- `NewScannerFS(fs)`. -/
def newScannerFS : PathScanner := ⟨[], []⟩

/-- `IncludePath(path)`: the absolute path appended, or the message of `log.Fatal`. -/
def PathScanner.includePath (fs : FileSystem) (s : PathScanner) (path : GoString) :
    Except String PathScanner :=
  match fs.absPath path with
  | .ok abs => .ok { s with incl := s.incl ++ [abs] }
  | .error err => .error ("scan: error finding absolute path. " ++ err)

/-- `ExcludePath(path)`: the absolute path added to the set; an error is logged and ignored. -/
def PathScanner.excludePath (fs : FileSystem) (s : PathScanner) (path : GoString) :
    PathScanner :=
  match fs.absPath path with
  | .ok abs => if abs ∈ s.excl then s else { s with excl := s.excl ++ [abs] }
  | .error _ => s

/-! ## The goroutines -/

/-- What `tagFile(pwd, fi, chDir, chAll)` does with an entry. -/
inductive Tag where
  /-- The path is excluded: nothing is sent. -/
  | excluded
  /-- `chAll <- f` of a file that is not a directory. -/
  | found (f : File)
  /-- `s.wait.Add(1)`, `chDir <- f`, then `chAll <- f`, of a directory. -/
  | directory (f : File)
  /-- `foundFile` panicked. -/
  | nilStat
deriving DecidableEq

/-- `tagFile`: the record is made first, then its path looked up in the excluded set. -/
def tagFile (excl : List GoString) (pwd : GoString) (fi : FileInfo) : Tag :=
  match foundFile pwd fi with
  | none => .nilStat
  | some f => if f.path ∈ excl then .excluded else if f.isDir then .directory f else .found f

/-- A goroutine of `scanRecursive` that has not returned; the dispatcher, the closer and
`Scan`'s loop are the steps that start walkers, close the channels and collect the files. -/
inductive Goroutine where
  /-- The goroutine of an included path, before `<-sem`. -/
  | root (path : GoString)
  /-- `doWalkDir(pwd)`, before `<-sem`. -/
  | walker (pwd : GoString)
  /-- A goroutine holding a token of `sem` that tags `infos` in `pwd`: the file whose
  `chAll <- f` it is at, if any, and how its listing ends, none for `io.EOF`. -/
  | tagging (pwd : GoString) (sending : Option File) (infos : List FileInfo)
      (ending : Option String)

/-- The next step of a goroutine. -/
inductive Action where
  /-- `<-sem`, then the calls up to the next channel operation: what the goroutine becomes,
  or the message the process exits with. -/
  | acquire (next : Except String Goroutine)
  /-- Statements that do not block: what the goroutine becomes, or the exit message. -/
  | proceed (next : Except String Goroutine)
  /-- `s.wait.Add(1)` and `chDir <- f`: the dispatcher starts `doWalkDir(pwd)`. -/
  | queue (next : Goroutine) (pwd : GoString)
  /-- `chAll <- f`. -/
  | send (next : Goroutine) (f : File)
  /-- `sem <- true` and `s.wait.Done()`: the goroutine returns. -/
  | release

/-- The panic of reading through a nil pointer. -/
def nilDereference : String := "runtime error: invalid memory address or nil pointer dereference"

/-- The panic of a send on a closed channel. -/
def sendOnClosed : String := "send on closed channel"

/-- The panic of `WaitGroup.Done` on a zero counter. -/
def negativeCounter : String := "sync: negative WaitGroup counter"

/-- What goroutine `g` does next: the goroutine of an included path stats it and tags it in
its parent directory, a walker lists its directory and tags each entry. -/
def Goroutine.action (fs : FileSystem) (excl : List GoString) : Goroutine → Action
  | .root path => .acquire <|
    match fs.lstat path with
    | .ok fi => .ok (.tagging (Filepath.dir path) none [fi] none)
    | .error err => .error ("scan: file stat error. " ++ err)
  | .walker pwd => .acquire <|
    match fs.readdir pwd with
    | .ok (infos, ending) => .ok (.tagging pwd none infos ending)
    | .error err => .error ("scan: open error. " ++ err)
  | .tagging pwd (some f) infos ending => .send (.tagging pwd none infos ending) f
  | .tagging pwd none (fi :: infos) ending =>
    match tagFile excl pwd fi with
    | .excluded => .proceed (.ok (.tagging pwd none infos ending))
    | .found f => .proceed (.ok (.tagging pwd (some f) infos ending))
    | .directory f => .queue (.tagging pwd (some f) infos ending) f.path
    | .nilStat => .proceed (.error nilDereference)
  | .tagging _ none [] none => .release
  | .tagging _ none [] (some err) => .proceed (.error ("scan: readdir error. " ++ err))

/-- Whether a goroutine holds a token of `sem`. -/
def Goroutine.holds : Goroutine → Bool
  | .tagging .. => true
  | _ => false

/-! ## Runs -/

/-- The shared state of `Scan` while the goroutines run. -/
structure Scanning where
  /-- The goroutines that have not returned. -/
  goroutines : List Goroutine
  /-- The tokens in `sem`. -/
  sem : Nat
  /-- The counter of `s.wait`. -/
  wait : Nat
  /-- What `Scan`'s loop has received from `chAll`, in order. -/
  entries : List File
  /-- Whether `chDir` and `chAll` are closed, and `Scan` returns `entries`. -/
  closed : Bool
  /-- The message the process exited with, if it did. -/
  exited : Option String

/-- The process exits with `message`. -/
def Scanning.exit (s : Scanning) (message : String) : Scanning := { s with exited := some message }

/-- `scanRecursive()`: one goroutine per included path, `sem` full, and the wait group at the
number of included paths. -/
def scanRecursive (incl : List GoString) : Scanning :=
  ⟨incl.map .root, concurrentFiles, incl.length, [], false, none⟩

/-- One step of the scan: goroutine `before ++ g :: after` takes its next step, or the last
goroutine closes the channels; nothing runs once the process has exited. -/
inductive Step (fs : FileSystem) (excl : List GoString) : Scanning → Scanning → Prop
  | acquire {s before g after next} : s.exited = none → s.goroutines = before ++ g :: after →
      g.action fs excl = .acquire (.ok next) → 0 < s.sem →
      Step fs excl s { s with goroutines := before ++ next :: after, sem := s.sem - 1 }
  | acquireExit {s before g after message} : s.exited = none →
      s.goroutines = before ++ g :: after → g.action fs excl = .acquire (.error message) →
      0 < s.sem → Step fs excl s (s.exit message)
  | proceed {s before g after next} : s.exited = none → s.goroutines = before ++ g :: after →
      g.action fs excl = .proceed (.ok next) →
      Step fs excl s { s with goroutines := before ++ next :: after }
  | proceedExit {s before g after message} : s.exited = none →
      s.goroutines = before ++ g :: after → g.action fs excl = .proceed (.error message) →
      Step fs excl s (s.exit message)
  | queue {s before g after next pwd} : s.exited = none → s.goroutines = before ++ g :: after →
      g.action fs excl = .queue next pwd → s.closed = false →
      Step fs excl s
        { s with goroutines := before ++ next :: after ++ [.walker pwd], wait := s.wait + 1 }
  | send {s before g after next f} : s.exited = none → s.goroutines = before ++ g :: after →
      g.action fs excl = .send next f → s.closed = false →
      Step fs excl s { s with goroutines := before ++ next :: after, entries := s.entries ++ [f] }
  | sendClosed {s before g after} : s.exited = none → s.goroutines = before ++ g :: after →
      (∃ next pwd, g.action fs excl = .queue next pwd) ∨
        (∃ next f, g.action fs excl = .send next f) →
      s.closed = true → Step fs excl s (s.exit sendOnClosed)
  | release {s before g after} : s.exited = none → s.goroutines = before ++ g :: after →
      g.action fs excl = .release → s.sem < concurrentFiles → 0 < s.wait →
      Step fs excl s
        { s with goroutines := before ++ after, sem := s.sem + 1, wait := s.wait - 1 }
  | releaseNegative {s before g after} : s.exited = none → s.goroutines = before ++ g :: after →
      g.action fs excl = .release → s.sem < concurrentFiles → s.wait = 0 →
      Step fs excl s (s.exit negativeCounter)
  | close {s} : s.exited = none → s.closed = false → s.wait = 0 →
      Step fs excl s { s with closed := true }

/-- `s.Scan()` returns `entries`: some run of the goroutines from `scanRecursive` closes the
channels with `entries` received, and the process has not exited. -/
def Scans (fs : FileSystem) (scanner : PathScanner) (entries : List File) : Prop :=
  ∃ final, ReflTransGen (Step fs scanner.excl) (scanRecursive scanner.incl) final ∧
    final.closed = true ∧ final.exited = none ∧ final.entries = entries

/-! ## What a step can do -/

variable {fs : FileSystem} {excl : List GoString}

/-- Only the goroutine of an included path and a walker wait on `sem`, and what they become
holds a token; every other step is taken by a goroutine holding one, and keeps it until it
returns. -/
theorem Goroutine.holds_of_action (fs : FileSystem) (excl : List GoString) (g : Goroutine) :
    match g.action fs excl with
    | .acquire next => g.holds = false ∧ ∀ g', next = .ok g' → g'.holds = true
    | .proceed next => g.holds = true ∧ ∀ g', next = .ok g' → g'.holds = true
    | .queue next _ => g.holds = true ∧ next.holds = true
    | .send next _ => g.holds = true ∧ next.holds = true
    | .release => g.holds = true := by
  match g with
  | .root path =>
    refine ⟨rfl, fun g' next => ?_⟩
    split at next <;> cases next; rfl
  | .walker pwd =>
    refine ⟨rfl, fun g' next => ?_⟩
    split at next <;> cases next; rfl
  | .tagging _ (some _) _ _ => exact ⟨rfl, rfl⟩
  | .tagging pwd none (fi :: _) _ =>
    simp only [action]
    cases tagFile excl pwd fi with
    | excluded | found => exact ⟨rfl, by rintro _ ⟨⟩; rfl⟩
    | directory => exact ⟨rfl, rfl⟩
    | nilStat => exact ⟨rfl, fun _ failed => by cases failed⟩
  | .tagging _ none [] none => rfl
  | .tagging _ none [] (some _) => exact ⟨rfl, fun _ failed => by cases failed⟩

/-! ## The counters -/

/-- The counters the goroutines keep: the wait group counts the goroutines that have not
returned, `sem`'s tokens and the goroutines holding one make `c_CONCURRENT_FILES`, and once
the channels are closed no goroutine is left to send on them. -/
structure Balanced (s : Scanning) : Prop where
  wait : s.wait = s.goroutines.length
  sem : s.sem + s.goroutines.countP Goroutine.holds = concurrentFiles
  closed : s.closed = true → s.goroutines = []

theorem balanced_scanRecursive (incl : List GoString) : Balanced (scanRecursive incl) where
  wait := by simp [scanRecursive]
  sem := by simp [scanRecursive, List.countP_eq_zero, Goroutine.holds]
  closed := fun shut => by cases shut

/-- Every step keeps the counters. -/
theorem Balanced.step {s s' : Scanning} (balanced : Balanced s) (step : Step fs excl s s') :
    Balanced s' := by
  obtain ⟨wait, sem, closed⟩ := balanced
  cases step with
  | @acquire before g after next _ split action free =>
    have holds := Goroutine.holds_of_action fs excl g
    rw [action] at holds
    refine ⟨by simpa [split] using wait, ?_, fun shut => absurd (closed shut) (by simp [split])⟩
    simp [split, holds.1, holds.2 next rfl] at sem ⊢
    omega
  | @proceed before g after next _ split action =>
    have holds := Goroutine.holds_of_action fs excl g
    rw [action] at holds
    refine ⟨by simpa [split] using wait, ?_, fun shut => absurd (closed shut) (by simp [split])⟩
    simpa [split, holds.1, holds.2 next rfl] using sem
  | @queue before g after next pwd _ split action opened =>
    have holds := Goroutine.holds_of_action fs excl g
    rw [action] at holds
    refine ⟨by simp [split] at wait ⊢; omega, ?_, fun shut => by simp [opened] at shut⟩
    simp only [split, List.countP_append, List.countP_cons, holds.1, holds.2] at sem ⊢
    simpa [Goroutine.holds] using sem
  | @send before g after next f _ split action opened =>
    have holds := Goroutine.holds_of_action fs excl g
    rw [action] at holds
    refine ⟨by simpa [split] using wait, ?_, fun shut => by simp [opened] at shut⟩
    simpa [split, holds.1, holds.2] using sem
  | @release before g after _ split action _ _ =>
    have holds := Goroutine.holds_of_action fs excl g
    rw [action] at holds
    refine ⟨by simp [split] at wait ⊢; omega, ?_,
      fun shut => absurd (closed shut) (by simp [split])⟩
    simp [split, holds] at sem ⊢
    omega
  | close _ _ zero => exact ⟨wait, sem, fun _ => List.length_eq_zero.mp (wait ▸ zero)⟩
  | acquireExit | proceedExit | sendClosed | releaseNegative => exact ⟨wait, sem, closed⟩

/-- The counters hold in every state a run reaches. -/
theorem balanced_of_reachable {incl : List GoString} {s : Scanning}
    (run : ReflTransGen (Step fs excl) (scanRecursive incl) s) : Balanced s := by
  induction run with
  | refl => exact balanced_scanRecursive incl
  | tail _ step balanced => exact balanced.step step

/-! ## Progress and the panics that cannot happen -/

/-- A goroutine's step is enabled whenever the process runs: `sem` has a token for a goroutine
that waits on it when no goroutine holds one, and a goroutine that holds one can always
return it. -/
theorem Balanced.step_of_goroutine {s : Scanning} (balanced : Balanced s)
    (running : s.exited = none) (shut : s.closed = false) {before after : List Goroutine}
    {g : Goroutine} (split : s.goroutines = before ++ g :: after)
    (enabled : g.holds = true ∨ ∀ g' ∈ s.goroutines, g'.holds = false) :
    ∃ s', Step fs excl s s' := by
  have length : 0 < s.wait := by rw [balanced.wait, split]; simp
  have holders := balanced.sem
  match action : g.action fs excl with
  | .acquire (.ok next) | .acquire (.error message) =>
    have free : 0 < s.sem := by
      have holds := Goroutine.holds_of_action fs excl g
      rw [action] at holds
      have none : s.goroutines.countP Goroutine.holds = 0 :=
        List.countP_eq_zero.mpr fun g' mem => by
          simp [enabled.resolve_left (by simp [holds.1]) g' mem]
      simp only [concurrentFiles] at holders
      omega
    first
    | exact ⟨_, .acquire running split action free⟩
    | exact ⟨_, .acquireExit running split action free⟩
  | .proceed (.ok next) => exact ⟨_, .proceed running split action⟩
  | .proceed (.error message) => exact ⟨_, .proceedExit running split action⟩
  | .queue next pwd => exact ⟨_, .queue running split action shut⟩
  | .send next f => exact ⟨_, .send running split action shut⟩
  | .release =>
    have holds := Goroutine.holds_of_action fs excl g
    rw [action] at holds
    have taken : 0 < s.goroutines.countP Goroutine.holds :=
      List.countP_pos_iff.mpr ⟨g, by simp [split], holds⟩
    exact ⟨_, .release running split action (by simp only [concurrentFiles] at *; omega) length⟩

/-- A state with the counters kept, where the process runs and the channels are open, has a
next step. -/
theorem Balanced.exists_step {s : Scanning} (balanced : Balanced s) (running : s.exited = none)
    (shut : s.closed = false) : ∃ s', Step fs excl s s' := by
  cases goroutines : s.goroutines with
  | nil => exact ⟨_, .close running shut (by simpa [goroutines] using balanced.wait)⟩
  | cons first rest =>
    by_cases holding : ∃ g ∈ s.goroutines, g.holds = true
    · obtain ⟨g, mem, holds⟩ := holding
      obtain ⟨before, after, split⟩ := List.append_of_mem mem
      exact balanced.step_of_goroutine running shut split (.inl holds)
    · have split : s.goroutines = [] ++ first :: rest := goroutines
      exact balanced.step_of_goroutine running shut split
        (.inr fun g mem => by simpa using fun holds => holding ⟨g, mem, holds⟩)

/-- The scan never deadlocks: a state the goroutines reach, where the process runs and the
channels are open, always has a next step. -/
theorem exists_step_of_reachable {incl : List GoString} {s : Scanning}
    (run : ReflTransGen (Step fs excl) (scanRecursive incl) s) (running : s.exited = none)
    (shut : s.closed = false) : ∃ s', Step fs excl s s' :=
  (balanced_of_reachable run).exists_step running shut

/-- An entry of the sample directory, owned by root. -/
def sampleInfo (name : String) (mode : UInt32) : FileInfo := ⟨ascii name, 0, ⟨mode⟩, ⟨0, 0⟩, some (0, 0)⟩

/-- A file system with one directory `/d`, which holds a file `a` and an entry `x`. -/
def sampleFs : FileSystem where
  absPath path := .ok path
  lstat path :=
    if path = ascii "/d" then .ok (sampleInfo "d" FileMode.modeDir) else .error "no such file"
  readdir path :=
    if path = ascii "/d" then .ok ([sampleInfo "a" 0, sampleInfo "x" 0], none)
    else .error "not a directory"

/-- A scanner including `/d` and excluding `/d/x`. -/
def sampleScanner : PathScanner := ⟨[ascii "/d"], [ascii "/d/x"]⟩

/-- Two steps into the sample scan, `<-sem` by the goroutine of `/d` and its queueing of
`/d` as a directory, leave a sender and a walker; the scan goes on from there. -/
theorem exists_step_of_reachable_sample :
    ∃ s, ReflTransGen (Step sampleFs sampleScanner.excl) (scanRecursive sampleScanner.incl) s ∧
      s.goroutines.length = 2 ∧ s.wait = 2 ∧ s.exited = none ∧ s.closed = false ∧
      ∃ s', Step sampleFs sampleScanner.excl s s' :=
  have first := @Step.acquire sampleFs sampleScanner.excl (scanRecursive sampleScanner.incl) []
    (.root (ascii "/d")) [] _ rfl rfl rfl (by decide)
  have run := (ReflTransGen.single first).tail
    (@Step.queue sampleFs sampleScanner.excl _ [] _ [] _ _ rfl rfl rfl rfl)
  ⟨_, run, rfl, rfl, rfl, rfl, exists_step_of_reachable run rfl rfl⟩

/-- In every run the process exits only where a call of the file system fails or a nil owner
is read: never by a send on a closed channel, and never by the wait group going negative. -/
theorem exit_of_reachable {incl : List GoString} {s s' : Scanning}
    (run : ReflTransGen (Step fs excl) (scanRecursive incl) s) (step : Step fs excl s s')
    {message : String} (exits : s'.exited = some message) :
    ∃ g ∈ s.goroutines, g.action fs excl = .acquire (.error message) ∨
      g.action fs excl = .proceed (.error message) := by
  have balanced := balanced_of_reachable run
  cases step with
  | @acquireExit before g after _ _ split action _ =>
    exact ⟨g, by simp [split], .inl (by cases exits; exact action)⟩
  | @proceedExit before g after _ _ split action =>
    exact ⟨g, by simp [split], .inr (by cases exits; exact action)⟩
  | sendClosed _ split _ shut => simp [balanced.closed shut] at split
  | releaseNegative _ split _ _ zero => simp [balanced.wait, split] at zero
  | acquire | proceed | queue | send | release | close => simp_all

/-- The scan of a path that does not exist. -/
def missingScan : Scanning := scanRecursive [ascii "/missing"]

theorem exit_of_reachable_missing :
    ReflTransGen (Step sampleFs []) missingScan missingScan ∧
      Step sampleFs [] missingScan (missingScan.exit "scan: file stat error. no such file") ∧
      (missingScan.exit "scan: file stat error. no such file").exited =
        some "scan: file stat error. no such file" ∧
      ∃ g ∈ missingScan.goroutines,
        g.action sampleFs [] = .acquire (.error "scan: file stat error. no such file") ∨
          g.action sampleFs [] = .proceed (.error "scan: file stat error. no such file") :=
  have step : Step sampleFs [] missingScan (missingScan.exit "scan: file stat error. no such file") :=
    @Step.acquireExit sampleFs [] missingScan [] (.root (ascii "/missing")) [] _ rfl rfl rfl
      (by decide)
  ⟨.refl, step, rfl, exit_of_reachable .refl step rfl⟩

/-! ## Excluded paths -/

/-- The file whose `chAll <- f` a goroutine is at. -/
def Goroutine.sending : Goroutine → Option File
  | .tagging _ sending _ _ => sending
  | _ => none

/-- A file a goroutine comes to send is one `tagFile` kept, so its path is not excluded, and
the send itself is of the file the goroutine was at. -/
theorem Goroutine.sending_of_action (fs : FileSystem) (excl : List GoString) (g : Goroutine) :
    match g.action fs excl with
    | .acquire next | .proceed next => ∀ g', next = .ok g' → ∀ f ∈ g'.sending, f.path ∉ excl
    | .queue next _ => ∀ f ∈ next.sending, f.path ∉ excl
    | .send next f => g.sending = some f ∧ next.sending = none
    | .release => True := by
  match g with
  | .root path =>
    intro g' next f found
    split at next <;> cases next
    cases found
  | .walker pwd =>
    intro g' next f found
    split at next <;> cases next
    cases found
  | .tagging _ (some _) _ _ => exact ⟨rfl, rfl⟩
  | .tagging pwd none (fi :: _) _ =>
    simp only [action, tagFile]
    cases foundFile pwd fi with
    | none => intro g' failed; cases failed
    | some f =>
      simp only
      split_ifs with excluded
      · intro g' next f' found; cases next; cases found
      · intro f' found; cases found; exact excluded
      · intro g' next f' found; cases next; cases found; exact excluded
  | .tagging _ none [] none => trivial
  | .tagging _ none [] (some _) => intro g' failed; cases failed

/-- No file that a goroutine is at, or that `Scan` has received, has an excluded path. -/
def Unexcluded (excl : List GoString) (s : Scanning) : Prop :=
  (∀ f ∈ s.entries, f.path ∉ excl) ∧ ∀ g ∈ s.goroutines, ∀ f ∈ g.sending, f.path ∉ excl

/-- Every step keeps excluded paths out of what is sent. -/
theorem Unexcluded.step {s s' : Scanning} (kept : Unexcluded excl s) (step : Step fs excl s s') :
    Unexcluded excl s' := by
  obtain ⟨entries, sending⟩ := kept
  cases step with
  | @acquire before g after next _ split action =>
    have fresh := Goroutine.sending_of_action fs excl g
    rw [action] at fresh
    simp only [Unexcluded, split, List.forall_mem_append, List.forall_mem_cons] at sending ⊢
    exact ⟨entries, sending.1, fresh next rfl, sending.2.2⟩
  | @proceed before g after next _ split action =>
    have fresh := Goroutine.sending_of_action fs excl g
    rw [action] at fresh
    simp only [Unexcluded, split, List.forall_mem_append, List.forall_mem_cons] at sending ⊢
    exact ⟨entries, sending.1, fresh next rfl, sending.2.2⟩
  | @queue before g after next _ _ split action =>
    have fresh := Goroutine.sending_of_action fs excl g
    rw [action] at fresh
    simp only [Unexcluded, split, List.forall_mem_append, List.forall_mem_cons,
      List.forall_mem_singleton] at sending ⊢
    exact ⟨entries, ⟨sending.1, fresh, sending.2.2⟩, by simp [Goroutine.sending],
      fun _ found => by cases found⟩
  | @send before g after next f _ split action =>
    have fresh := Goroutine.sending_of_action fs excl g
    rw [action] at fresh
    simp only [Unexcluded, split, List.forall_mem_append, List.forall_mem_cons,
      List.forall_mem_singleton] at sending ⊢
    exact ⟨⟨entries, sending.2.1 f fresh.1, fun _ found => by cases found⟩, sending.1,
      by simp [fresh.2], sending.2.2⟩
  | @release before g after _ split =>
    simp only [Unexcluded, split, List.forall_mem_append, List.forall_mem_cons] at sending ⊢
    exact ⟨entries, sending.1, sending.2.2⟩
  | close | acquireExit | proceedExit | sendClosed | releaseNegative => exact ⟨entries, sending⟩

/-- In every run, whatever the file system, no file `Scan` has received has an excluded path. -/
theorem entries_not_excluded {incl : List GoString} {s : Scanning}
    (run : ReflTransGen (Step fs excl) (scanRecursive incl) s) :
    ∀ f ∈ s.entries, f.path ∉ excl := by
  suffices kept : Unexcluded excl s from kept.1
  induction run with
  | refl => exact ⟨(fun _ found => by cases found), by simp [scanRecursive, Goroutine.sending]⟩
  | tail _ step kept => exact kept.step step

end Scanner

end IncBackup
