import IncBackup.Backup.ManifestJson

/-!
# The destination of a restore

A restore writes below its root through the calls of the `fs` package: `Lstat`, `Mkdir`,
`MkdirAll`, `Symlink`, `OpenWrite`, `Lchown` and `Chtimes`.  The destination is seen below
the root: a node per path, its path the one a manifest uses (`ScanRelativeTo` roots the
scanned records at `/`), with the record its scan gives and the bytes a read of it gives.

The calls run in `Fs`, state passing over the destination with errors, where a failing
call leaves what the calls before it did, as a sequence of system calls does.

`Keeps base destination` says that every node of `base` is still there, unchanged.  Each
call is proved to keep `base` from any destination that keeps it (`Fs.Keeping`), the ones
that change a node in place (`OpenWrite` of an existing file, `Lchown`, `Chtimes`) where
the path is not one of `base`.
-/

namespace IncBackup

namespace Backup

/-! ## The destination -/

/-- What the destination holds at one path below the restore root: the record a scan of it
gives, rooted at the restore root, and the bytes a read of it gives (a symlink's target). -/
structure Node where
  path : GoString
  file : File
  contents : GoString

/-- The destination below the restore root, in the order the scanner lists it. -/
abbrev Destination := List Node

/-- The process that restores: the umask of the modes it creates, its owner, whether it may
give a file to another owner, and its clock. -/
structure Restorer where
  umask : UInt32
  uid : Int
  gid : Int
  privileged : Bool
  now : Time

namespace Destination

/-- `Lstat` of a path below the restore root. -/
def lstat (destination : Destination) (path : GoString) : Option Node :=
  destination.find? fun node => node.path = path

/-- The file system `ChecksumFilesFS` reads below the restore root. -/
def disk (destination : Destination) : Disk :=
  ⟨fun path => ((destination.lstat path).map Node.contents).getD [],
    fun path => ((destination.lstat path).map Node.contents).getD []⟩

/-- Change the node at a path. -/
def change (destination : Destination) (path : GoString) (update : Node → Node) : Destination :=
  destination.map fun node => if node.path = path then { update node with path } else node

/-- Every node `before` holds, `after` holds unchanged. -/
def Keeps (before after : Destination) : Prop :=
  ∀ path node, before.lstat path = some node → after.lstat path = some node

variable {base destination : Destination} {path : GoString}

theorem Keeps.refl (destination : Destination) : destination.Keeps destination := fun _ _ => id

/-- A path a destination that keeps `base` lacks, `base` lacks too. -/
theorem Keeps.fresh (keeps : base.Keeps destination) (absent : destination.lstat path = none) :
    base.lstat path = none := by
  cases found : base.lstat path with
  | none => rfl
  | some node => simp [keeps path node found] at absent

theorem Keeps.append (keeps : base.Keeps destination) (nodes : List Node) :
    base.Keeps (destination ++ nodes) := fun path node found => by
  have kept := keeps path node found
  simp only [lstat, List.find?_append] at kept ⊢
  rw [kept]
  rfl

/-- A change at one path leaves what `Lstat` sees elsewhere. -/
theorem lstat_change_of_ne {other : GoString} {update : Node → Node} (ne : other ≠ path) :
    (destination.change path update).lstat other = destination.lstat other := by
  induction destination with
  | nil => rfl
  | cons node rest more =>
    simp only [change, lstat, List.map_cons, List.find?_cons] at more ⊢
    by_cases here : node.path = path
    · simp only [here, if_true, ne.symm, decide_False]
      exact more
    · simp only [here, if_false]
      split
      · rfl
      · exact more

theorem Keeps.change {update : Node → Node} (keeps : base.Keeps destination)
    (fresh : base.lstat path = none) : base.Keeps (destination.change path update) :=
  fun other node found => by
  have ne : other ≠ path := by
    rintro rfl
    simp [found] at fresh
  rw [lstat_change_of_ne ne]
  exact keeps other node found

end Destination

/-- A node the restorer makes at a path: its type bits and permission bits, the restorer as
its owner and its clock as the modification time. -/
def Restorer.create (restorer : Restorer) (path : GoString) (mode : UInt32)
    (contents : GoString) : Node :=
  ⟨path, ⟨Filepath.dir path, Filepath.base path, contents.length, ⟨mode⟩, restorer.now,
    restorer.uid, restorer.gid, Digest.zero⟩, contents⟩

/-- The permission bits of a mode that a new node gets, less the umask. -/
def Restorer.permissions (restorer : Restorer) (mode : FileMode) : UInt32 :=
  mode.bits &&& 0x1FF &&& ~~~restorer.umask

/-! ## Calls -/

/-- Calls on the destination: a failure leaves what the calls before it did. -/
abbrev Fs := ExceptT Failure (StateM Destination)

/-- Run calls on a destination: their result, and the destination they leave. -/
def Fs.exec (action : Fs α) (destination : Destination) : Except Failure α × Destination :=
  action.run.run destination

namespace Fs

variable {α β : Type} (destination : Destination)

@[simp]
theorem exec_pure (a : α) : (pure a : Fs α).exec destination = (.ok a, destination) := rfl

@[simp]
theorem exec_throw (failure : Failure) :
    (throw failure : Fs α).exec destination = (.error failure, destination) := rfl

@[simp]
theorem exec_lift (result : Except Failure α) :
    Fs.exec (result : Fs α) destination = (result, destination) := rfl

/-- Calls in sequence: the second runs on what the first left, unless the first failed. -/
theorem exec_bind (first : Fs α) (rest : α → Fs β) :
    (first >>= rest).exec destination = match first.exec destination with
      | (.ok a, after) => (rest a).exec after
      | (.error failure, after) => (.error failure, after) := by
  simp only [Fs.exec, ExceptT.run_bind, StateT.run_bind]
  rcases first.run.run destination with ⟨_ | a, after⟩ <;> rfl

variable (restorer : Restorer)

/-- `fs.Lstat(path)`. -/
def lstat (path : GoString) : Fs (Option Node) := return (← get).lstat path

@[simp]
theorem exec_lstat (path : GoString) :
    (lstat path).exec destination = (.ok (destination.lstat path), destination) := rfl

/-- `fs.Mkdir(path, mode)`. -/
def mkdir (path : GoString) (mode : FileMode) : Fs Unit := do
  if (← lstat path).isSome then throw (.error "mkdir: file exists")
  else modify (· ++ [restorer.create path (FileMode.modeDir ||| restorer.permissions mode) []])

theorem exec_mkdir (path : GoString) (mode : FileMode) :
    (mkdir restorer path mode).exec destination =
      if (destination.lstat path).isSome then (.error (.error "mkdir: file exists"), destination)
      else (.ok (), destination ++
        [restorer.create path (FileMode.modeDir ||| restorer.permissions mode) []]) := by
  simp only [mkdir, exec_bind, exec_lstat]
  split <;> rfl

/-- `fs.Symlink(target, path)`: a link has every permission bit. -/
def symlink (target path : GoString) : Fs Unit := do
  if (← lstat path).isSome then throw (.error "symlink: file exists")
  else modify (· ++ [restorer.create path (FileMode.modeSymlink ||| 0x1FF) target])

/-- `fs.OpenWrite(path, mode)` and the copy of the data: a new file, or an existing one
truncated and written. -/
def openWrite (path : GoString) (mode : FileMode) (data : GoString) : Fs Unit := do
  match ← lstat path with
  | some node =>
    if node.file.isDir then throw (.error "open: is a directory")
    else modify (·.change path fun node => { node with file.size := data.length, contents := data })
  | none => modify (· ++ [restorer.create path (restorer.permissions mode) data])

/-- `os.MkdirAll(path, 0755)`, the directories up the path made first; the restore root `/`
exists.  A non-directory in the way fails. -/
def mkdirAll : Nat → GoString → Fs Unit
  | 0, _ => pure ()
  | fuel + 1, path => do
    if path = [Filepath.separator] then pure ()
    else match ← lstat path with
      | some node => if node.file.isDir then pure () else throw (.error "mkdir: not a directory")
      | none => do
        mkdirAll fuel (Filepath.dir path)
        mkdir restorer path ⟨0o755⟩

/-- `file.MakeDir(path)`. -/
def makeDir (path : GoString) : Fs Unit := do
  match ← lstat path with
  | some node => if node.file.isDir then pure () else mkdirAll restorer path.length path
  | none => mkdirAll restorer path.length path

/-- `fs.Lchown(path, uid, gid)`: only a privileged process gives a file to another owner. -/
def lchown (path : GoString) (uid gid : Int) : Fs Unit :=
  if restorer.privileged ∨ (uid = restorer.uid ∧ gid = restorer.gid) then
    modify (·.change path fun node => { node with file.uid := uid, file.gid := gid })
  else throw (.error "lchown: operation not permitted")

/-- `fs.Chtimes(path, atime, mtime)`: it follows a symlink, whose target the model leaves. -/
def chtimes (path : GoString) (modTime : Time) : Fs Unit :=
  modify (·.change path fun node =>
    if node.file.isSymlink then node else { node with file.modTime := modTime })

/-- A call whose error the source ignores. -/
def ignoring (action : Fs Unit) : Fs Unit := tryCatch action fun _ => pure ()

@[simp]
theorem exec_ignoring (action : Fs Unit) :
    (ignoring action).exec destination = (.ok (), (action.exec destination).2) := by
  show (ExceptT.tryCatch action fun _ => pure ()).run.run destination =
    (.ok (), (StateT.run action destination).2)
  simp only [ExceptT.tryCatch, ExceptT.run_mk, StateT.run_bind]
  rcases StateT.run action destination with ⟨_ | a, after⟩ <;> rfl

end Fs

/-! ## Calls that keep the destination -/

/-- Calls that keep, from any destination that keeps `base`, every node of `base`. -/
def Fs.Keeping (base : Destination) (action : Fs α) : Prop :=
  ∀ destination, base.Keeps destination → base.Keeps (action.exec destination).2

namespace Fs.Keeping

variable {α β : Type} {base : Destination}

theorem bind {first : Fs α} {rest : α → Fs β} (kept : Keeping base first)
    (keeping : ∀ a, Keeping base (rest a)) : Keeping base (first >>= rest) :=
  fun destination keeps => by
    have after := kept destination keeps
    rw [exec_bind]
    rcases run : first.exec destination with ⟨_ | a, _⟩
    all_goals simp only [run] at after ⊢
    · exact after
    · exact keeping a _ after

theorem pure (a : α) : Keeping base (Pure.pure a : Fs α) := fun _ => id

theorem throw (failure : Failure) : Keeping base (MonadExcept.throw failure : Fs α) :=
  fun _ => id

theorem lift (result : Except Failure α) : Keeping base (result : Fs α) := fun _ => id

theorem get : Keeping base (MonadState.get : Fs Destination) := fun _ => id

theorem ite {condition : Prop} [Decidable condition] {yes no : Fs α}
    (keepsYes : Keeping base yes) (keepsNo : Keeping base no) :
    Keeping base (if condition then yes else no) := by
  split
  · exact keepsYes
  · exact keepsNo

theorem append (nodes : List Node) : Keeping base (modify (· ++ nodes) : Fs Unit) :=
  fun _ keeps => keeps.append nodes

theorem change {path : GoString} {update : Node → Node} (fresh : base.lstat path = none) :
    Keeping base (modify (·.change path update) : Fs Unit) :=
  fun _ keeps => keeps.change fresh

theorem ignoring {action : Fs Unit} (kept : Keeping base action) :
    Keeping base (Fs.ignoring action) :=
  fun destination keeps => by simpa using kept destination keeps

/-- The calls after an `Lstat` that found nothing may count on `base` lacking the path. -/
theorem lstat_bind {path : GoString} {rest : Option Node → Fs β}
    (keeping : ∀ found, (found = none → base.lstat path = none) → Keeping base (rest found)) :
    Keeping base (Fs.lstat path >>= rest) := fun destination keeps => by
  rw [exec_bind, exec_lstat]
  exact keeping _ keeps.fresh destination keeps

theorem foldlM {γ δ : Type} {step : γ → δ → Fs γ} (keeping : ∀ acc x, Keeping base (step acc x)) :
    ∀ (xs : List δ) (init : γ), Keeping base (xs.foldlM step init)
  | [], init => pure init
  | x :: xs, init => bind (keeping init x) fun acc => foldlM keeping xs acc

theorem forM {γ : Type} {step : γ → Fs PUnit} (keeping : ∀ x, Keeping base (step x)) :
    ∀ xs : List γ, Keeping base (xs.forM step)
  | [] => pure _
  | x :: xs => bind (keeping x) fun _ => forM keeping xs

end Fs.Keeping

namespace Fs

variable {base : Destination} (restorer : Restorer)

theorem keeping_mkdir (path : GoString) (mode : FileMode) :
    Keeping base (mkdir restorer path mode) :=
  Keeping.lstat_bind fun _ _ => Keeping.ite (Keeping.throw _) (Keeping.append _)

/-- The calls after a `Mkdir` that succeeded may count on `base` lacking the path. -/
theorem keeping_mkdir_bind {β : Type} {path : GoString} {mode : FileMode} {rest : Fs β}
    (keeping : base.lstat path = none → Keeping base rest) :
    Keeping base (mkdir restorer path mode >>= fun _ => rest) := fun destination keeps => by
  rw [exec_bind, exec_mkdir]
  by_cases found : (destination.lstat path).isSome
  · simpa [found] using keeps
  · simp only [found, Bool.false_eq_true, if_false]
    exact keeping (keeps.fresh (by simpa using found)) _ (keeps.append _)

theorem keeping_symlink (target path : GoString) : Keeping base (symlink restorer target path) :=
  Keeping.lstat_bind fun _ _ => Keeping.ite (Keeping.throw _) (Keeping.append _)

section Fresh

variable {path : GoString} (fresh : base.lstat path = none)
include fresh

theorem keeping_openWrite (mode : FileMode) (data : GoString) :
    Keeping base (openWrite restorer path mode data) :=
  Keeping.lstat_bind fun found _ => by
    cases found with
    | some _ => exact Keeping.ite (Keeping.throw _) (Keeping.change fresh)
    | none => exact Keeping.append _

theorem keeping_lchown (uid gid : Int) : Keeping base (lchown restorer path uid gid) :=
  Keeping.ite (Keeping.change fresh) (Keeping.throw _)

theorem keeping_chtimes (modTime : Time) : Keeping base (chtimes path modTime) :=
  Keeping.change fresh

end Fresh

theorem keeping_mkdirAll : ∀ fuel path, Keeping base (mkdirAll restorer fuel path)
  | 0, _ => Keeping.pure _
  | fuel + 1, path => Keeping.ite (Keeping.pure _) <| Keeping.lstat_bind fun found _ => by
    cases found with
    | some _ => exact Keeping.ite (Keeping.pure _) (Keeping.throw _)
    | none => exact Keeping.bind (keeping_mkdirAll fuel _) fun _ => keeping_mkdir restorer path _

theorem keeping_makeDir (path : GoString) : Keeping base (makeDir restorer path) :=
  Keeping.lstat_bind fun found _ => by
    cases found with
    | some _ => exact Keeping.ite (Keeping.pure _) (keeping_mkdirAll restorer _ _)
    | none => exact keeping_mkdirAll restorer _ _

end Fs

end Backup

end IncBackup
