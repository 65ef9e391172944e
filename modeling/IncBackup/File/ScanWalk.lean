import IncBackup.File.Scanner

/-!
# What a scan lists

The goroutines of a scan run in any order, but what `Scan` returns is fixed up to order: the
files the plain recursive walk of the included paths lists, each as often.  `walkEntry` is that
walk, reading one entry after another, with a bound on the depth.  Wherever it lists `out` for
the included paths, no run of the goroutines is infinite, every run that cannot go on has
closed the channels without the process exiting, and what `Scan` returns is a permutation of
`out` (`scan_lists_walk`).

The proof follows each goroutine's share of the walk: the files it has still to send and the
steps it has still to take.  Every step moves files from a goroutine's share to `Scan`'s result
or to a new walker's share, and lowers the steps left by one.
-/

namespace IncBackup

namespace Scanner

open Relation

/-- What items list one after another, none where one of them fails. -/
def concatWalks {α : Type} (walkOne : α → Option (List File)) (items : List α) :
    Option (List File) :=
  items.foldr (fun item rest => (walkOne item).bind fun first => rest.map (first ++ ·)) (some [])

section Concat

variable {α : Type} {walkOne : α → Option (List File)}

@[simp]
theorem concatWalks_nil : concatWalks walkOne [] = some [] := rfl

theorem concatWalks_cons (item : α) (items : List α) :
    concatWalks walkOne (item :: items) =
      (walkOne item).bind fun first => (concatWalks walkOne items).map (first ++ ·) := rfl

theorem concatWalks_cons_eq_some {item : α} {items : List α} {out : List File} :
    concatWalks walkOne (item :: items) = some out ↔
      ∃ first rest, walkOne item = some first ∧ concatWalks walkOne items = some rest ∧
        out = first ++ rest := by
  simp only [concatWalks_cons, Option.bind_eq_some, Option.map_eq_some']
  constructor
  · rintro ⟨first, one, rest, others, rfl⟩
    exact ⟨first, rest, one, others, rfl⟩
  · rintro ⟨first, rest, one, others, rfl⟩
    exact ⟨first, one, rest, others, rfl⟩

@[simp]
theorem concatWalks_singleton (item : α) : concatWalks walkOne [item] = walkOne item := by
  cases walked : walkOne item <;> simp [concatWalks, walked]

/-- A walk that succeeds wherever a first one does lists the same. -/
theorem concatWalks_of_imp {walkOne' : α → Option (List File)}
    (imp : ∀ item out, walkOne item = some out → walkOne' item = some out) :
    ∀ {items : List α} {out : List File}, concatWalks walkOne items = some out →
      concatWalks walkOne' items = some out
  | [], _, walked => walked
  | _ :: _, _, walked => by
    obtain ⟨first, rest, one, others, rfl⟩ := concatWalks_cons_eq_some.mp walked
    exact concatWalks_cons_eq_some.mpr ⟨first, rest, imp _ _ one, concatWalks_of_imp imp others, rfl⟩

end Concat

section Walk

variable (fs : FileSystem) (excl : List GoString)

/-- The files the scan lists for entry `fi` of directory `pwd` and below it, read one after
another in directory order: a kept entry, then for a directory what each of its entries lists
in turn; none where a goroutine would end the process, or once `fuel`, a bound on the depth,
runs out. -/
def walkEntry : Nat → GoString → FileInfo → Option (List File)
  | 0, _, _ => none
  | fuel + 1, pwd, fi =>
    match tagFile excl pwd fi with
    | .excluded => some []
    | .found f => some [f]
    | .directory f =>
      match fs.readdir f.path with
      | .ok (infos, none) => (concatWalks (walkEntry fuel f.path) infos).map (f :: ·)
      | _ => none
    | .nilStat => none

/-- What the entries `infos` of `pwd` list. -/
def walkEntries (fuel : Nat) (pwd : GoString) (infos : List FileInfo) : Option (List File) :=
  concatWalks (walkEntry fs excl fuel pwd) infos

/-- What an included path lists: its own entry, tagged in its parent directory. -/
def walkRoot (fuel : Nat) (path : GoString) : Option (List File) :=
  match fs.lstat path with
  | .ok fi => walkEntry fs excl fuel (Filepath.dir path) fi
  | .error _ => none

/-- The walk of the included paths, one after another. -/
def walk (fuel : Nat) (incl : List GoString) : Option (List File) :=
  concatWalks (walkRoot fs excl fuel) incl

variable {fs excl}

/-- `tagFile` sends a file that is not a directory as found, and a directory for a walker. -/
theorem isDir_of_tagFile {pwd : GoString} {fi : FileInfo} {f : File} :
    (tagFile excl pwd fi = .found f → f.isDir = false) ∧
      (tagFile excl pwd fi = .directory f → f.isDir = true) := by
  unfold tagFile
  cases foundFile pwd fi with
  | none => simp
  | some f' =>
    by_cases excluded : f'.path ∈ excl <;> by_cases dir : f'.isDir = true <;>
      simp [excluded, dir] <;> rintro rfl <;> simp_all

theorem walkEntry_excluded {fuel : Nat} {pwd : GoString} {fi : FileInfo}
    (tag : tagFile excl pwd fi = .excluded) : walkEntry fs excl (fuel + 1) pwd fi = some [] := by
  simp [walkEntry, tag]

theorem walkEntry_found {fuel : Nat} {pwd : GoString} {fi : FileInfo} {f : File}
    (tag : tagFile excl pwd fi = .found f) : walkEntry fs excl (fuel + 1) pwd fi = some [f] := by
  simp [walkEntry, tag]

theorem walkEntry_directory {fuel : Nat} {pwd : GoString} {fi : FileInfo} {f : File}
    {infos : List FileInfo} (tag : tagFile excl pwd fi = .directory f)
    (listing : fs.readdir f.path = .ok (infos, none)) :
    walkEntry fs excl (fuel + 1) pwd fi = (walkEntries fs excl fuel f.path infos).map (f :: ·) := by
  rw [walkEntry.eq_2]
  simp only [tag, listing]
  rfl

/-- One entry of a directory: a kept entry that is not a directory lists itself, and a
directory lists itself and then what its own entries list, with one unit of fuel less. -/
theorem walkEntry_eq_some {fuel : Nat} {pwd : GoString} {fi : FileInfo} {out : List File}
    (walked : walkEntry fs excl fuel pwd fi = some out) :
    ∃ fuel', fuel = fuel' + 1 ∧
      (tagFile excl pwd fi = .excluded ∧ out = [] ∨
        (∃ f, tagFile excl pwd fi = .found f ∧ out = [f]) ∨
        ∃ f infos below, tagFile excl pwd fi = .directory f ∧
          fs.readdir f.path = .ok (infos, none) ∧ walkEntries fs excl fuel' f.path infos = some below ∧
          out = f :: below) := by
  match fuel, walked with
  | fuel' + 1, walked =>
    refine ⟨fuel', rfl, ?_⟩
    simp only [walkEntry] at walked
    cases tag : tagFile excl pwd fi with
    | excluded => rw [tag, Option.some.injEq] at walked; exact .inl ⟨rfl, walked.symm⟩
    | found f => rw [tag, Option.some.injEq] at walked; exact .inr (.inl ⟨f, rfl, walked.symm⟩)
    | nilStat => simp [tag] at walked
    | directory f =>
      rcases listing : fs.readdir f.path with _ | ⟨infos, _ | _⟩ <;>
        simp only [tag, listing, reduceCtorEq, Option.map_eq_some'] at walked
      obtain ⟨below, inner, rfl⟩ := walked
      exact .inr (.inr ⟨f, infos, below, rfl, listing, inner, rfl⟩)

/-- More fuel lists the same. -/
theorem walkEntry_succ : ∀ {fuel : Nat} {pwd : GoString} {fi : FileInfo} {out : List File},
    walkEntry fs excl fuel pwd fi = some out → walkEntry fs excl (fuel + 1) pwd fi = some out
  | 0, _, _, _, walked => by simp [walkEntry] at walked
  | fuel + 1, pwd, fi, out, walked => by
    obtain ⟨fuel', same, shape⟩ := walkEntry_eq_some walked
    obtain rfl : fuel = fuel' := Nat.succ_injective same
    rcases shape with ⟨tag, rfl⟩ | ⟨f, tag, rfl⟩ | ⟨f, infos, below, tag, listing, below_walked, rfl⟩
    · exact walkEntry_excluded tag
    · exact walkEntry_found tag
    · rw [walkEntry_directory tag listing]
      exact congrArg (Option.map _) (concatWalks_of_imp (fun _ _ => walkEntry_succ) below_walked)

theorem walkEntries_cons (fuel : Nat) (pwd : GoString) (fi : FileInfo) (infos : List FileInfo) :
    walkEntries fs excl fuel pwd (fi :: infos) = (walkEntry fs excl fuel pwd fi).bind fun first =>
      (walkEntries fs excl fuel pwd infos).map (first ++ ·) := rfl

theorem walkEntries_succ {fuel : Nat} {pwd : GoString} {infos : List FileInfo}
    {out : List File} (walked : walkEntries fs excl fuel pwd infos = some out) :
    walkEntries fs excl (fuel + 1) pwd infos = some out :=
  concatWalks_of_imp (fun _ _ => walkEntry_succ) walked

end Walk

/-! ## Each goroutine's share -/

section Shares

variable (fs : FileSystem) (excl : List GoString) (fuel : Nat)

/-- What a goroutine has still to send, by the walk: all that its path or its directory lists
before it takes a token, and after, the file it is at and what its remaining entries list;
none where it would end the process. -/
def Goroutine.remaining : Goroutine → Option (List File)
  | .root path => walkRoot fs excl fuel path
  | .walker pwd =>
    match fs.readdir pwd with
    | .ok (infos, none) => walkEntries fs excl fuel pwd infos
    | _ => none
  | .tagging pwd sending infos none => (walkEntries fs excl fuel pwd infos).map (sending.toList ++ ·)
  | .tagging _ _ _ (some _) => none

/-- The files a goroutine has still to send, none where its walk fails. -/
def Goroutine.rest (g : Goroutine) : List File := (g.remaining fs excl fuel).getD []

/-- The entries `Readdir` gives for `path`. -/
def childCount (path : GoString) : Nat :=
  match fs.readdir path with
  | .ok (infos, _) => infos.length
  | .error _ => 0

/-- The steps a file left to list costs: its send, and for a directory its walker's `<-sem`,
release and one tag per entry. -/
def weight (f : File) : Nat := if f.isDir then 3 + childCount fs f.path else 1

/-- The weight of files still to list. -/
def weights (files : List File) : Nat := (files.map (weight fs)).sum

/-- The steps a goroutine has left: its `<-sem`, the tag of each entry it reads, the send it
is at, its release, and the weight of what its entries list. -/
def Goroutine.work : Goroutine → Nat
  | .root path => 3 + weights fs ((walkRoot fs excl fuel path).getD [])
  | .walker pwd => 2 + childCount fs pwd + weights fs ((walkEntries fs excl fuel pwd
      (match fs.readdir pwd with | .ok (infos, _) => infos | .error _ => [])).getD [])
  | .tagging pwd sending infos _ =>
    infos.length + 1 + sending.toList.length + weights fs ((walkEntries fs excl fuel pwd infos).getD [])

/-- The steps a scan has left: every goroutine's, and the close. -/
def stepsLeft (s : Scanning) : Nat :=
  (if s.closed then 0 else 1) + (s.goroutines.map (Goroutine.work fs excl fuel)).sum

@[simp]
theorem weights_nil : weights fs [] = 0 := rfl

@[simp]
theorem weights_cons (f : File) (files : List File) :
    weights fs (f :: files) = weight fs f + weights fs files := by
  simp [weights]

@[simp]
theorem weights_append (files files' : List File) :
    weights fs (files ++ files') = weights fs files + weights fs files' := by
  simp [weights]

end Shares

/-! ## A goroutine's step on its share -/

section Steps

variable {fs : FileSystem} {excl : List GoString} (fuel : Nat) {g next : Goroutine}

/-- A goroutine whose share is walked never exits the process. -/
theorem Goroutine.remaining_of_exit {message : String}
    (exits : g.action fs excl = .acquire (.error message) ∨
      g.action fs excl = .proceed (.error message)) :
    g.remaining fs excl fuel = none := by
  match g with
  | .root path =>
    simp only [Goroutine.action, walkRoot, Goroutine.remaining] at exits ⊢
    split <;> simp_all
  | .walker pwd =>
    simp only [Goroutine.action, Goroutine.remaining] at exits ⊢
    split <;> simp_all
  | .tagging _ (some _) _ _ => simp [Goroutine.action] at exits
  | .tagging _ _ _ (some _) => rfl
  | .tagging pwd none (fi :: infos) none =>
    simp only [Goroutine.action, Goroutine.remaining, walkEntries] at exits ⊢
    cases tag : tagFile excl pwd fi <;> simp only [tag] at exits <;> simp at exits
    cases walked : walkEntry fs excl fuel pwd fi with
    | none => simp [concatWalks, walked]
    | some out =>
      obtain ⟨_, _, _ | ⟨_, found, _⟩ | ⟨_, _, _, found, _⟩⟩ := walkEntry_eq_some walked <;>
        simp_all
  | .tagging _ none [] none => simp [Goroutine.action] at exits

/-- `<-sem` leaves a goroutine's share as it was and takes one of its steps. -/
theorem Goroutine.remaining_of_acquire (action : g.action fs excl = .acquire (.ok next)) :
    next.remaining fs excl fuel = g.remaining fs excl fuel ∧
      g.work fs excl fuel = next.work fs excl fuel + 1 := by
  match g with
  | .root path =>
    simp only [Goroutine.action] at action
    split at action <;> cases action
    rename_i stat
    simp [Goroutine.remaining, Goroutine.work, walkRoot, walkEntries, stat]
    omega
  | .walker pwd =>
    simp only [Goroutine.action] at action
    split at action <;> cases action
    rename_i listing
    rcases ending : ‹Option String› with _ | _ <;>
      simp [Goroutine.remaining, Goroutine.work, childCount, listing, ending] <;> omega
  | .tagging _ none (_ :: _) _ =>
    simp only [Goroutine.action] at action; split at action <;> cases action
  | .tagging _ (some _) _ _ | .tagging _ none [] none | .tagging _ none [] (some _) => cases action

/-- The share of a goroutine tagging entries is what its next entry lists and then what the
others do. -/
theorem Goroutine.remaining_tagging_cons {pwd : GoString} {fi : FileInfo} {infos : List FileInfo}
    {out : List File}
    (walked : (Goroutine.tagging pwd none (fi :: infos) none).remaining fs excl fuel = some out) :
    ∃ first rest, walkEntry fs excl fuel pwd fi = some first ∧
      walkEntries fs excl fuel pwd infos = some rest ∧ out = first ++ rest := by
  simp only [Goroutine.remaining, Option.map_eq_some', walkEntries, concatWalks_cons_eq_some] at walked
  obtain ⟨_, ⟨first, rest, one, others, rfl⟩, rfl⟩ := walked
  exact ⟨first, rest, one, others, rfl⟩

/-- A step that does not block moves the file a goroutine tagged to the send it is at, and takes
one of its steps. -/
theorem Goroutine.remaining_of_proceed (action : g.action fs excl = .proceed (.ok next))
    (walked : (g.remaining fs excl fuel).isSome) :
    next.remaining fs excl fuel = g.remaining fs excl fuel ∧
      g.work fs excl fuel = next.work fs excl fuel + 1 := by
  match g, walked with
  | .tagging pwd none (fi :: infos) none, walked =>
    obtain ⟨out, walked⟩ := Option.isSome_iff_exists.mp walked
    obtain ⟨first, rest, one, others, rfl⟩ := remaining_tagging_cons fuel walked
    obtain ⟨fuel', rfl, shape⟩ := walkEntry_eq_some one
    simp only [Goroutine.action] at action
    rcases shape with ⟨tag, rfl⟩ | ⟨f, tag, rfl⟩ | ⟨f, _, _, tag, -⟩ <;>
      simp only [tag] at action <;> cases action
    · simp [Goroutine.remaining, Goroutine.work, walkEntries_cons, one, others]
      omega
    · have file := isDir_of_tagFile.1 tag
      simp [Goroutine.remaining, Goroutine.work, walkEntries_cons, one, others,
        weight, file]
      omega
  | .tagging _ none (_ :: _) (some _), walked => cases walked
  | .root _, _ | .walker _, _ =>
    simp only [Goroutine.action] at action; split at action <;> cases action
  | .tagging _ (some _) _ _, _ | .tagging _ none [] none, _ | .tagging _ none [] (some _), _ =>
    cases action

/-- `s.wait.Add(1)` and `chDir <- f` hand the directory's entries to a new walker. -/
theorem Goroutine.remaining_of_queue {pwd' : GoString}
    (action : g.action fs excl = .queue next pwd') (walked : (g.remaining fs excl fuel).isSome) :
    ∃ f below rest, g.remaining fs excl fuel = some (f :: below ++ rest) ∧
      next.remaining fs excl fuel = some (f :: rest) ∧
      (Goroutine.walker pwd').remaining fs excl fuel = some below ∧
      g.work fs excl fuel = next.work fs excl fuel + (Goroutine.walker pwd').work fs excl fuel + 1 := by
  match g, walked with
  | .tagging pwd none (fi :: infos) none, walked =>
    obtain ⟨out, walked⟩ := Option.isSome_iff_exists.mp walked
    obtain ⟨first, rest, one, others, rfl⟩ := remaining_tagging_cons fuel walked
    obtain ⟨fuel', rfl, shape⟩ := walkEntry_eq_some one
    simp only [Goroutine.action] at action
    rcases shape with ⟨tag, rfl⟩ | ⟨f, tag, rfl⟩ | ⟨f, children, below, tag, listing, inner, rfl⟩ <;>
      simp only [tag] at action <;> cases action
    have dir := isDir_of_tagFile.2 tag
    have inner' := walkEntries_succ inner
    refine ⟨f, below, rest, walked, ?_, ?_, ?_⟩
    · simp [Goroutine.remaining, others]
    · simp [Goroutine.remaining, listing, inner']
    · simp [Goroutine.work, walkEntries_cons, one, others, weight, dir, childCount, listing, inner']
      omega
  | .tagging _ none (_ :: _) (some _), walked => cases walked
  | .root _, _ | .walker _, _ =>
    simp only [Goroutine.action] at action; split at action <;> cases action
  | .tagging _ (some _) _ _, _ | .tagging _ none [] none, _ | .tagging _ none [] (some _), _ =>
    cases action

/-- `chAll <- f` sends the first file of the goroutine's share. -/
theorem Goroutine.remaining_of_send {f : File} (action : g.action fs excl = .send next f)
    (walked : (g.remaining fs excl fuel).isSome) :
    ∃ rest, g.remaining fs excl fuel = some (f :: rest) ∧
      next.remaining fs excl fuel = some rest ∧
      g.work fs excl fuel = next.work fs excl fuel + 1 := by
  match g, walked with
  | .tagging pwd (some f') infos none, walked =>
    simp only [Goroutine.action] at action
    cases action
    obtain ⟨out, walked⟩ := Option.isSome_iff_exists.mp walked
    obtain ⟨rest, others, rfl⟩ := Option.map_eq_some'.mp walked
    exact ⟨rest, by simp [Goroutine.remaining, others], by simp [Goroutine.remaining, others],
      by simp [Goroutine.work]; omega⟩
  | .tagging _ (some _) _ (some _), walked => cases walked
  | .root _, _ | .walker _, _ =>
    simp only [Goroutine.action] at action; split at action <;> cases action
  | .tagging _ none (_ :: _) _, _ =>
    simp only [Goroutine.action] at action; split at action <;> cases action
  | .tagging _ none [] none, _ | .tagging _ none [] (some _), _ => cases action

/-- A goroutine returns with nothing left to send, at its last step. -/
theorem Goroutine.remaining_of_release (action : g.action fs excl = .release) :
    g.remaining fs excl fuel = some [] ∧ g.work fs excl fuel = 1 := by
  match g with
  | .tagging _ none [] none => simp [Goroutine.remaining, Goroutine.work, walkEntries]
  | .root _ | .walker _ => simp only [Goroutine.action] at action; split at action <;> cases action
  | .tagging _ none (_ :: _) _ =>
    simp only [Goroutine.action] at action; split at action <;> cases action
  | .tagging _ (some _) _ _ | .tagging _ none [] (some _) => cases action

end Steps

/-! ## Runs on walked shares -/

section Runs

variable {fs : FileSystem} {excl : List GoString} {fuel : Nat} {out : List File}

/-- What items list, item after item, once each has walked. -/
theorem concatWalks_eq_some {α : Type} {walkOne : α → Option (List File)} :
    ∀ {items : List α} {out : List File}, concatWalks walkOne items = some out →
      (∀ item ∈ items, (walkOne item).isSome) ∧
        (items.map fun item => (walkOne item).getD []).flatten = out
  | [], _, walked => by simp_all
  | _ :: _, _, walked => by
    obtain ⟨first, rest, one, others, rfl⟩ := concatWalks_cons_eq_some.mp walked
    obtain ⟨each, flat⟩ := concatWalks_eq_some others
    exact ⟨List.forall_mem_cons.mpr ⟨by simp [one], each⟩, by simp [one, flat]⟩

variable (fs excl fuel) in
/-- The shares of a scan that runs on: the process has not exited, every goroutine's walk
succeeds, and what `Scan` received and what the goroutines have still to send make `out`, in
some order. -/
structure Pending (out : List File) (s : Scanning) : Prop where
  running : s.exited = none
  walks : ∀ g ∈ s.goroutines, (g.remaining fs excl fuel).isSome
  perm : (s.entries ++ (s.goroutines.map (Goroutine.rest fs excl fuel)).flatten).Perm out

theorem pending_scanRecursive {incl : List GoString} (walked : walk fs excl fuel incl = some out) :
    Pending fs excl fuel out (scanRecursive incl) := by
  obtain ⟨each, flat⟩ := concatWalks_eq_some walked
  refine ⟨rfl, fun g member => ?_, ?_⟩
  · obtain ⟨path, included, rfl⟩ := List.mem_map.mp member
    exact each path included
  rw [← flat]
  simp [scanRecursive, Function.comp_def, Goroutine.rest, Goroutine.remaining]

/-- Every step keeps the shares walked and moves files between them and `Scan`'s result without
losing or copying one, and the steps left fall by one. -/
theorem Pending.step {s s' : Scanning} (balanced : Balanced s)
    (pending : Pending fs excl fuel out s) (step : Step fs excl s s') :
    Pending fs excl fuel out s' ∧ stepsLeft fs excl fuel s' + 1 = stepsLeft fs excl fuel s := by
  obtain ⟨running, walks, perm⟩ := pending
  cases step with
  | @acquire before g after next _ split action _ =>
    have walked := walks g (by simp [split])
    obtain ⟨same, work⟩ := Goroutine.remaining_of_acquire fuel action
    have rest : next.rest fs excl fuel = g.rest fs excl fuel := by simp [Goroutine.rest, same]
    simp only [split, List.forall_mem_append, List.forall_mem_cons] at walks
    refine ⟨⟨running, ?_, by simpa [split, rest] using perm⟩, ?_⟩
    · show ∀ g ∈ before ++ next :: after, _
      simp only [List.forall_mem_append, List.forall_mem_cons, same]
      exact walks
    · simp [stepsLeft, split, work]; omega
  | @proceed before g after next _ split action =>
    have walked := walks g (by simp [split])
    obtain ⟨same, work⟩ := Goroutine.remaining_of_proceed fuel action walked
    have rest : next.rest fs excl fuel = g.rest fs excl fuel := by simp [Goroutine.rest, same]
    simp only [split, List.forall_mem_append, List.forall_mem_cons] at walks
    refine ⟨⟨running, ?_, by simpa [split, rest] using perm⟩, ?_⟩
    · show ∀ g ∈ before ++ next :: after, _
      simp only [List.forall_mem_append, List.forall_mem_cons, same]
      exact walks
    · simp [stepsLeft, split, work]; omega
  | @queue before g after next pwd _ split action _ =>
    have walked := walks g (by simp [split])
    obtain ⟨f, below, rest, shared, kept, handed, work⟩ :=
      Goroutine.remaining_of_queue fuel action walked
    simp only [split, List.forall_mem_append, List.forall_mem_cons] at walks
    refine ⟨⟨running, ?_, ?_⟩, ?_⟩
    · show ∀ g ∈ before ++ next :: after ++ [.walker pwd], _
      simp only [List.forall_mem_append, List.forall_mem_cons, List.forall_mem_singleton, kept,
        handed]
      exact ⟨⟨walks.1, rfl, walks.2.2⟩, rfl, List.forall_mem_nil _⟩
    · refine List.Perm.trans (List.perm_iff_count.mpr fun file => ?_) perm
      simp only [split, Goroutine.rest, shared, kept, handed, List.map_append, List.map_cons,
        List.flatten_append, List.flatten_cons, Option.getD_some, List.map_nil, List.flatten_nil,
        List.count_append, List.count_cons, List.count_nil, List.cons_append]
      omega
    · simp [stepsLeft, split, work]; omega
  | @send before g after next f _ split action _ =>
    have walked := walks g (by simp [split])
    obtain ⟨rest, shared, kept, work⟩ := Goroutine.remaining_of_send fuel action walked
    simp only [split, List.forall_mem_append, List.forall_mem_cons] at walks
    refine ⟨⟨running, ?_, ?_⟩, ?_⟩
    · show ∀ g ∈ before ++ next :: after, _
      simp only [List.forall_mem_append, List.forall_mem_cons, kept]
      exact ⟨walks.1, rfl, walks.2.2⟩
    · refine List.Perm.trans (List.perm_iff_count.mpr fun file => ?_) perm
      simp only [split, Goroutine.rest, shared, kept, List.map_append, List.map_cons,
        List.flatten_append, List.flatten_cons, Option.getD_some, List.count_append,
        List.count_cons, List.count_nil, List.cons_append, List.nil_append]
      omega
    · simp [stepsLeft, split, work]; omega
  | @release before g after _ split action _ _ =>
    obtain ⟨shared, work⟩ := Goroutine.remaining_of_release fuel action
    have rest : g.rest fs excl fuel = [] := by simp [Goroutine.rest, shared]
    simp only [split, List.forall_mem_append, List.forall_mem_cons] at walks
    refine ⟨⟨running, List.forall_mem_append.mpr ⟨walks.1, walks.2.2⟩,
      by simpa [split, rest] using perm⟩, ?_⟩
    simp [stepsLeft, split, work]; omega
  | close _ _ zero =>
    have none : s.goroutines = [] := List.length_eq_zero.mp (balanced.wait ▸ zero)
    exact ⟨⟨running, walks, perm⟩, by simp [stepsLeft, none, *]⟩
  | @acquireExit before g after _ _ split action _ =>
    have walked := walks g (by simp [split])
    simp [Goroutine.remaining_of_exit fuel (.inl action)] at walked
  | @proceedExit before g after _ _ split action =>
    have walked := walks g (by simp [split])
    simp [Goroutine.remaining_of_exit fuel (.inr action)] at walked
  | sendClosed _ split _ shut => simp [balanced.closed shut] at split
  | releaseNegative _ split _ _ zero => simp [balanced.wait, split] at zero

/-- From a state with walked shares, no run is infinite. -/
theorem Pending.acc : ∀ (n : Nat) {s : Scanning}, Balanced s → Pending fs excl fuel out s →
    stepsLeft fs excl fuel s ≤ n → Acc (fun next state => Step fs excl state next) s
  | 0, s, balanced, pending, few => Acc.intro s fun _ step => by
    have := (pending.step balanced step).2
    omega
  | n + 1, s, balanced, pending, few => Acc.intro s fun _ step =>
    have ⟨pending', fewer⟩ := pending.step balanced step
    Pending.acc n (balanced.step step) pending' (by omega)

theorem pending_of_reachable {incl : List GoString} (walked : walk fs excl fuel incl = some out)
    {s : Scanning} (run : ReflTransGen (Step fs excl) (scanRecursive incl) s) :
    Pending fs excl fuel out s := by
  induction run with
  | refl => exact pending_scanRecursive walked
  | tail reached step pending => exact (pending.step (balanced_of_reachable reached) step).1

/-- A state from which every run is finite reaches one with no next step. -/
theorem exists_final_of_acc {σ : Type} {r : σ → σ → Prop} {s : σ}
    (acc : Acc (fun next state => r state next) s) : ∃ final, ReflTransGen r s final ∧
      ∀ next, ¬ r final next := by
  induction acc with
  | intro s _ more =>
    by_cases moves : ∃ next, r s next
    · obtain ⟨next, step⟩ := moves
      obtain ⟨final, run, stuck⟩ := more next step
      exact ⟨final, ReflTransGen.head step run, stuck⟩
    · exact ⟨s, .refl, fun next step => moves ⟨next, step⟩⟩

/-- Wherever the walk of the included paths lists `out`, the scan's goroutines run no infinite
run; every run that cannot go on has closed the channels without the process exiting, so
`Scan` returns; and whatever it returns is a permutation of `out`. -/
theorem scan_lists_walk {scanner : PathScanner}
    (walked : walk fs scanner.excl fuel scanner.incl = some out) :
    Acc (fun next state => Step fs scanner.excl state next) (scanRecursive scanner.incl) ∧
      (∀ final, ReflTransGen (Step fs scanner.excl) (scanRecursive scanner.incl) final →
        (∀ next, ¬ Step fs scanner.excl final next) → final.closed = true ∧ final.exited = none) ∧
      (∃ entries, Scans fs scanner entries) ∧
      ∀ entries, Scans fs scanner entries → entries.Perm out := by
  have acc := Pending.acc _ (balanced_scanRecursive scanner.incl) (pending_scanRecursive walked)
    le_rfl
  have ends : ∀ final, ReflTransGen (Step fs scanner.excl) (scanRecursive scanner.incl) final →
      (∀ next, ¬ Step fs scanner.excl final next) → final.closed = true ∧ final.exited = none := by
    intro final run stuck
    have running := (pending_of_reachable walked run).running
    refine ⟨?_, running⟩
    by_contra shut
    obtain ⟨next, step⟩ := (balanced_of_reachable run).exists_step running (by simpa using shut)
    exact stuck next step
  refine ⟨acc, ends, ?_, ?_⟩
  · obtain ⟨final, run, stuck⟩ := exists_final_of_acc acc
    exact ⟨final.entries, final, run, (ends final run stuck).1, (ends final run stuck).2, rfl⟩
  · rintro _ ⟨final, run, shut, -, rfl⟩
    simpa [(balanced_of_reachable run).closed shut] using (pending_of_reachable walked run).perm

/-- The records of `/d` and `/d/a`. -/
def sampleListing : List File :=
  [{ root := ascii "/", name := ascii "d", size := 0, mode := ⟨FileMode.modeDir⟩,
      modTime := ⟨0, 0⟩, uid := 0, gid := 0, sha1 := Digest.zero },
    { root := ascii "/d", name := ascii "a", size := 0, mode := ⟨0⟩, modTime := ⟨0, 0⟩,
      uid := 0, gid := 0, sha1 := Digest.zero }]

theorem scan_lists_walk_sample :
    walk sampleFs sampleScanner.excl 2 sampleScanner.incl = some sampleListing ∧
      Acc (fun next state => Step sampleFs sampleScanner.excl state next)
        (scanRecursive sampleScanner.incl) ∧
      (∀ final, ReflTransGen (Step sampleFs sampleScanner.excl)
          (scanRecursive sampleScanner.incl) final →
        (∀ next, ¬ Step sampleFs sampleScanner.excl final next) →
          final.closed = true ∧ final.exited = none) ∧
      (∃ entries, Scans sampleFs sampleScanner entries) ∧
      ∀ entries, Scans sampleFs sampleScanner entries → entries.Perm sampleListing :=
  have walked : walk sampleFs sampleScanner.excl 2 sampleScanner.incl = some sampleListing := by
    decide
  ⟨walked, scan_lists_walk walked⟩

end Runs

end Scanner

end IncBackup
