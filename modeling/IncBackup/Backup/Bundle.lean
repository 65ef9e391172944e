import IncBackup.File.Record

/-!
# Bundling

The bundler partitions the changed files of a run into the groups that are
archived and uploaded together.  The current strategy,
`bundleSmallFilesAcrossPaths`, splits the files into small files, big files and
directories, sorts the groups by path, and packs them with `bundleSmallFiles`:
a running byte count closes a bundle once it has passed `c_BUNDLE_MAX_SIZE`, a
big file always opens a new bundle, and the directories are gathered into one
final bundle.  The legacy strategy `bundleByPathAndSize` is kept as well.

Go's `sort.Sort` is not stable; the model sorts with a stable insertion sort,
which fixes the order Go leaves open between records of equal root and name.

Both strategies partition the files they are given (`bundlings_partition`): every
bundle is non-empty, together they hold each file once, the directories make up the
last bundle, and a non-directory above `c_BUNDLE_LIMIT_SIZE` is alone.  A directory
is never alone, whatever its size (`bundles_share_large_directory`).  The running
count is compared with `c_BUNDLE_MAX_SIZE` before a file joins the open bundle, so a
bundle may pass it by up to `c_BUNDLE_LIMIT_SIZE` (`bundleSmallFiles_bounded`,
`bundle_exceeds_max_size`).
-/

namespace IncBackup

namespace Backup

/-- `c_BUNDLE_LIMIT_SIZE`: files above this size are not bundled with others. -/
def bundleLimitSize : Int := 1000 * 2 ^ 6

/-- `c_BUNDLE_MAX_SIZE`: the byte count past which a bundle is closed. -/
def bundleMaxSize : Int := 1000 * 2 ^ 10

/-- `makeBundle`: the initial bundle, if there are any files. -/
def makeBundle (files : List File) : List (List File) :=
  if files = [] then [] else [files]

/-- `sort.Sort(file.BySize(bundle))`. -/
def sortBySize (bundle : List File) : List File :=
  bundle.insertionSort fun file other => !other.sizeLess file

/-- `sort.Sort(file.ByPath(bundle))`. -/
def sortByPath (bundle : List File) : List File :=
  bundle.insertionSort fun file other => !other.pathLess file

/-- `sortBundlesBySize`. -/
def sortBundlesBySize (bundles : List (List File)) : List (List File) :=
  bundles.map sortBySize

/-- `sortBundlesByPath`. -/
def sortBundlesByPath (bundles : List (List File)) : List (List File) :=
  bundles.map sortByPath

/-- `splitBundlesBySizeLimit`: each bundle becomes its small files, its big files and its
directories, empty parts included. -/
def splitBundlesBySizeLimit (input : List (List File)) : List (List File) :=
  input.flatMap fun bundle =>
    [bundle.filter fun file => !file.isDir && !decide (file.size > bundleLimitSize),
     bundle.filter fun file => !file.isDir && decide (file.size > bundleLimitSize),
     bundle.filter File.isDir]

/-- The variables `bundleByPath` closes over. -/
structure PathBundler where
  out : List (List File)
  currRoot : GoString
  currBundle : List File

/-- `nextBundle` of `bundleByPath`. -/
def PathBundler.nextBundle (state : PathBundler) : PathBundler :=
  if state.currBundle = [] then state
  else { state with out := state.out ++ [state.currBundle], currBundle := [] }

/-- One file of `bundleByPath`'s inner loop. -/
def PathBundler.push (state : PathBundler) (file : File) : PathBundler :=
  let state := if file.root ≠ state.currRoot then { state.nextBundle with currRoot := file.root }
    else state
  { state with currBundle := state.currBundle ++ [file] }

/-- `bundleByPath`: cut each bundle where the root changes. -/
def bundleByPath (input : List (List File)) : List (List File) :=
  (input.foldl (fun (state : PathBundler) (bundle : List File) =>
    (bundle.foldl PathBundler.push state).nextBundle) ⟨[], [], []⟩).out

/-- The variables `bundleSmallFiles` closes over. -/
structure SizeBundler where
  out : List (List File)
  currBytes : Int
  currBundle : List File
  dirBundle : List File

/-- `nextBundle` of `bundleSmallFiles`. -/
def SizeBundler.nextBundle (state : SizeBundler) : SizeBundler :=
  if state.currBundle = [] then state
  else { state with out := state.out ++ [state.currBundle], currBundle := [], currBytes := 0 }

/-- One file of `bundleSmallFiles`'s inner loop. -/
def SizeBundler.push (state : SizeBundler) (file : File) : SizeBundler :=
  if file.isDir then { state with dirBundle := state.dirBundle ++ [file] }
  else
    let state := if file.size > bundleLimitSize then state.nextBundle else state
    let state := if state.currBytes > bundleMaxSize then state.nextBundle else state
    { state with currBundle := state.currBundle ++ [file], currBytes := state.currBytes + file.size }

/-- `bundleSmallFiles`: pack files by a running byte count, directories last. -/
def bundleSmallFiles (input : List (List File)) : List (List File) :=
  let state := input.foldl (fun (state : SizeBundler) (bundle : List File) =>
    (bundle.foldl SizeBundler.push state).nextBundle) ⟨[], 0, [], []⟩
  if state.dirBundle = [] then state.out else state.out ++ [state.dirBundle]

/-- `bundleByPathAndSize`: the legacy strategy. -/
def bundleByPathAndSize (files : List File) : List (List File) :=
  bundleSmallFiles (sortBundlesBySize (bundleByPath (sortBundlesByPath (makeBundle files))))

/-- `bundleSmallFilesAcrossPaths`: the strategy `Update` uses. -/
def bundleSmallFilesAcrossPaths (files : List File) : List (List File) :=
  bundleSmallFiles (sortBundlesByPath (splitBundlesBySizeLimit (makeBundle files)))

/-! ## Bundle sizes and the invariants of the loop -/

/-- The bytes a bundle holds. -/
def totalSize (bundle : List File) : Int := (bundle.map File.size).sum

@[simp]
theorem totalSize_nil : totalSize [] = 0 := rfl

@[simp]
theorem totalSize_append (bundle more : List File) :
    totalSize (bundle ++ more) = totalSize bundle + totalSize more := by
  induction bundle with
  | nil => simp [totalSize]
  | cons file bundle ih =>
    simp only [totalSize, List.cons_append, List.map_cons, List.sum_cons] at ih ⊢
    rw [ih, Int.add_assoc]

@[simp]
theorem totalSize_singleton (file : File) : totalSize [file] = file.size := by
  simp [totalSize]

/-- A bundle in which a file above `c_BUNDLE_LIMIT_SIZE` is the only file. -/
def BigAlone (bundle : List File) : Prop :=
  ∀ file ∈ bundle, file.size > bundleLimitSize → bundle = [file]

/-- In an input bundle, a big non-directory is followed only by big non-directories. -/
def BigLast (bundle : List File) : Prop :=
  bundle.Pairwise fun file next => file.isDir = false → next.isDir = false →
    file.size > bundleLimitSize → next.size > bundleLimitSize

namespace SizeBundler

@[simp]
theorem nextBundle_currBundle (state : SizeBundler) : state.nextBundle.currBundle = [] := by
  unfold nextBundle; split_ifs with empty <;> simp [empty]

@[simp]
theorem nextBundle_dirBundle (state : SizeBundler) :
    state.nextBundle.dirBundle = state.dirBundle := by
  unfold nextBundle; split_ifs <;> rfl

theorem nextBundle_out (state : SizeBundler) : state.nextBundle.out =
    if state.currBundle = [] then state.out else state.out ++ [state.currBundle] := by
  unfold nextBundle; split_ifs <;> rfl

theorem nextBundle_of_empty {state : SizeBundler} (empty : state.currBundle = []) :
    state.nextBundle = state :=
  if_pos empty

theorem nextBundle_nextBundle (state : SizeBundler) :
    state.nextBundle.nextBundle = state.nextBundle :=
  nextBundle_of_empty (nextBundle_currBundle state)

/-- A non-directory joins the open bundle, after `nextBundle` if it is big or the open bundle
has passed `c_BUNDLE_MAX_SIZE`. -/
theorem push_of_not_isDir (state : SizeBundler) {file : File} (nondir : file.isDir = false) :
    ∃ prepared, (prepared = state ∨ prepared = state.nextBundle) ∧
      (file.size > bundleLimitSize → prepared.currBundle = []) ∧
      (prepared.currBundle ≠ [] → prepared.currBytes ≤ bundleMaxSize) ∧
      state.push file = { prepared with
        currBundle := prepared.currBundle ++ [file]
        currBytes := prepared.currBytes + file.size } := by
  have closed :
      state.nextBundle.currBundle ≠ [] → state.nextBundle.currBytes ≤ bundleMaxSize :=
    fun opened => absurd (nextBundle_currBundle _) opened
  simp only [push, nondir, Bool.false_eq_true, if_false]
  by_cases big : file.size > bundleLimitSize
  · refine ⟨state.nextBundle, .inr rfl, fun _ => nextBundle_currBundle _, closed, ?_⟩
    simp only [big, if_true]
    split_ifs <;> simp only [nextBundle_nextBundle]
  · by_cases full : state.currBytes > bundleMaxSize
    · exact ⟨state.nextBundle, .inr rfl, fun small => absurd small big, closed,
        by simp [big, full]⟩
    · exact ⟨state, .inl rfl, fun small => absurd small big, fun _ => not_lt.1 full,
        by simp [big, full]⟩

/-- What `bundleSmallFiles` has built from the files `seen`: the closed bundles and the open
one hold the non-directories in order, the directories wait in `dirBundle`, no closed bundle
is empty, `currBytes` counts the open bundle, and a bundle of two files or more holds at
most `c_BUNDLE_MAX_SIZE + c_BUNDLE_LIMIT_SIZE` bytes. -/
structure Holds (seen : List File) (state : SizeBundler) : Prop where
  files : state.out.flatten ++ state.currBundle = seen.filter fun file => !file.isDir
  dirs : state.dirBundle = seen.filter File.isDir
  nonempty : ∀ bundle ∈ state.out, bundle ≠ []
  bytes : state.currBytes = totalSize state.currBundle
  bounded : ∀ bundle ∈ state.out, 2 ≤ bundle.length →
    totalSize bundle ≤ bundleMaxSize + bundleLimitSize
  openBounded : 2 ≤ state.currBundle.length →
    state.currBytes ≤ bundleMaxSize + bundleLimitSize

theorem holds_initial : Holds [] ⟨[], 0, [], []⟩ :=
  ⟨rfl, rfl, by simp, rfl, by simp, by simp⟩

theorem Holds.nextBundle {seen : List File} {state : SizeBundler} (holds : Holds seen state) :
    Holds seen state.nextBundle := by
  rw [SizeBundler.nextBundle]
  split_ifs with empty
  · exact holds
  · refine ⟨by simpa using holds.files, holds.dirs, ?_, rfl, ?_, by simp⟩
    · intro bundle mem
      rcases List.mem_append.1 mem with mem | mem
      · exact holds.nonempty _ mem
      · rwa [List.mem_singleton.1 mem]
    · intro bundle mem
      rcases List.mem_append.1 mem with mem | mem
      · exact holds.bounded _ mem
      · rw [List.mem_singleton.1 mem, ← holds.bytes]; exact holds.openBounded

theorem Holds.push {seen : List File} {state : SizeBundler} (holds : Holds seen state)
    (file : File) : Holds (seen ++ [file]) (state.push file) := by
  cases dir : file.isDir
  · obtain ⟨prepared, made, big, room, pushed⟩ := state.push_of_not_isDir dir
    have ready : Holds seen prepared := by
      rcases made with rfl | rfl
      · exact holds
      · exact holds.nextBundle
    rw [pushed]
    refine ⟨?_, by simpa [dir] using ready.dirs, ready.nonempty, by simp [ready.bytes],
      ready.bounded, fun two => ?_⟩
    · simp [← ready.files, dir]
    · dsimp only at two ⊢
      have opened : prepared.currBundle ≠ [] := by
        rintro empty; simp [empty] at two
      have small : ¬ file.size > bundleLimitSize := fun big' => opened (big big')
      have := room opened
      omega
  · have pushed : state.push file = { state with dirBundle := state.dirBundle ++ [file] } := by
      simp [SizeBundler.push, dir]
    rw [pushed]
    exact ⟨by simp [holds.files, dir], by simp [holds.dirs, dir], holds.nonempty, holds.bytes,
      holds.bounded, holds.openBounded⟩


/-- Big files are alone in the closed bundles and in the open one, and stay alone there while
the non-directories still to come in the same input bundle are big. -/
structure Separates (rest : List File) (state : SizeBundler) : Prop where
  closed : ∀ bundle ∈ state.out, BigAlone bundle
  opened : BigAlone state.currBundle
  ahead : ∀ file ∈ state.currBundle, file.size > bundleLimitSize →
    ∀ next ∈ rest, next.isDir = false → next.size > bundleLimitSize

theorem Separates.nextBundle {rest : List File} {state : SizeBundler}
    (separates : Separates rest state) (rest' : List File) : Separates rest' state.nextBundle := by
  refine ⟨?_, by simp [BigAlone], by simp⟩
  rw [nextBundle_out]
  split_ifs
  · exact separates.closed
  · intro bundle mem
    rcases List.mem_append.1 mem with mem | mem
    · exact separates.closed _ mem
    · rw [List.mem_singleton.1 mem]; exact separates.opened

/-- Pushing a file keeps big files alone, provided a big non-directory is followed only by big
non-directories. -/
theorem Separates.push {file : File} {rest : List File} {state : SizeBundler}
    (separates : Separates (file :: rest) state)
    (bigAfter : file.isDir = false → file.size > bundleLimitSize →
      ∀ next ∈ rest, next.isDir = false → next.size > bundleLimitSize) :
    Separates rest (state.push file) := by
  cases dir : file.isDir
  · obtain ⟨prepared, made, big, -, pushed⟩ := state.push_of_not_isDir dir
    have ready : Separates (file :: rest) prepared := by
      rcases made with rfl | rfl
      · exact separates
      · exact separates.nextBundle _
    rw [pushed]
    by_cases large : file.size > bundleLimitSize
    · refine ⟨ready.closed, ?_, fun _ _ _ => bigAfter dir large⟩
      rw [big large, List.nil_append]
      intro other mem _
      rw [List.mem_singleton.1 mem]
    · have small : ∀ other ∈ prepared.currBundle, ¬ other.size > bundleLimitSize :=
        fun other mem large' => large (ready.ahead other mem large' file (.head _) dir)
      refine ⟨ready.closed, fun other mem large' => ?_, fun other mem large' => ?_⟩ <;>
      · rcases List.mem_append.1 mem with mem | mem
        · exact absurd large' (small other mem)
        · rw [List.mem_singleton.1 mem] at large'; exact absurd large' large
  · have pushed : state.push file = { state with dirBundle := state.dirBundle ++ [file] } := by
      simp [SizeBundler.push, dir]
    rw [pushed]
    exact ⟨separates.closed, separates.opened, fun other mem large next mem' =>
      separates.ahead other mem large next (.tail _ mem')⟩

theorem Holds.foldl {seen : List File} {state : SizeBundler} (holds : Holds seen state)
    (files : List File) : Holds (seen ++ files) (files.foldl SizeBundler.push state) := by
  induction files generalizing seen state with
  | nil => simpa using holds
  | cons file files ih => simpa using ih (holds.push file)

theorem Separates.foldl {files : List File} {state : SizeBundler} (last : BigLast files)
    (separates : Separates files state) :
    Separates [] (files.foldl SizeBundler.push state) := by
  induction files generalizing state with
  | nil => exact separates
  | cons file files ih =>
    rw [BigLast, List.pairwise_cons] at last
    exact ih last.2 (separates.push fun dir large next mem dir' =>
      last.1 next mem dir dir' large)

/-- One input bundle of `bundleSmallFiles`: its files, then `nextBundle`. -/
def fill (state : SizeBundler) (bundle : List File) : SizeBundler :=
  (bundle.foldl SizeBundler.push state).nextBundle

/-- The state after the loop over the input bundles. -/
def closing (input : List (List File)) : SizeBundler := input.foldl fill ⟨[], 0, [], []⟩

theorem bundleSmallFiles_eq (input : List (List File)) : bundleSmallFiles input =
    if (closing input).dirBundle = [] then (closing input).out
    else (closing input).out ++ [(closing input).dirBundle] := rfl

theorem Holds.foldl_fill {seen : List File} {state : SizeBundler} (holds : Holds seen state)
    (input : List (List File)) : Holds (seen ++ input.flatten) (input.foldl fill state) := by
  induction input generalizing seen state with
  | nil => simpa using holds
  | cons bundle input ih => simpa using ih (holds.foldl bundle).nextBundle

theorem foldl_fill_currBundle {state : SizeBundler} (empty : state.currBundle = []) :
    ∀ input : List (List File), (input.foldl fill state).currBundle = []
  | [] => empty
  | bundle :: input => by
    rw [List.foldl_cons]; exact foldl_fill_currBundle (nextBundle_currBundle _) input

theorem Separates.foldl_fill {state : SizeBundler} {input : List (List File)}
    (last : ∀ bundle ∈ input, BigLast bundle) (separates : ∀ rest, Separates rest state) :
    ∀ rest, Separates rest (input.foldl fill state) := by
  induction input generalizing state with
  | nil => exact separates
  | cons bundle input ih =>
    exact ih (fun other mem => last other (.tail _ mem))
      ((separates bundle).foldl (last bundle (.head _))).nextBundle

/-- After the loop the open bundle is empty and the invariants hold of every file. -/
theorem closing_holds (input : List (List File)) :
    Holds input.flatten (closing input) ∧ (closing input).currBundle = [] ∧
      ((∀ bundle ∈ input, BigLast bundle) → Separates [] (closing input)) :=
  ⟨by simpa using holds_initial.foldl_fill input, foldl_fill_currBundle rfl input,
    fun last =>
      Separates.foldl_fill last (fun _ => ⟨by simp, by simp [BigAlone], by simp⟩) []⟩

end SizeBundler

/-! ## The two strategies partition their input -/

/-- The partition a bundling strategy should make of `files`: non-empty bundles that together
hold the files, the directories all in the last bundle and nothing else there, and a big
non-directory alone in its bundle. -/
structure Partitions (files : List File) (bundles : List (List File)) : Prop where
  nonempty : ∀ bundle ∈ bundles, bundle ≠ []
  perm : bundles.flatten.Perm files
  dirsLast : ∀ file ∈ files, file.isDir →
    ∃ last, bundles.getLast? = some last ∧ file ∈ last ∧ ∀ other ∈ last, other.isDir
  bigAlone : ∀ bundle ∈ bundles, ∀ file ∈ bundle, file.isDir = false →
    file.size > bundleLimitSize → bundle = [file]

theorem Partitions.of_perm {files files' : List File} {bundles : List (List File)}
    (partitions : Partitions files bundles) (same : files.Perm files') :
    Partitions files' bundles :=
  ⟨partitions.nonempty, partitions.perm.trans same,
    fun file mem => partitions.dirsLast file (same.mem_iff.2 mem), partitions.bigAlone⟩

/-- `bundleSmallFiles` partitions the files of its input bundles, and keeps big files alone when
no input bundle has a small non-directory after a big one. -/
theorem bundleSmallFiles_partitions {input : List (List File)}
    (last : ∀ bundle ∈ input, BigLast bundle) :
    Partitions input.flatten (bundleSmallFiles input) := by
  obtain ⟨holds, empty, separates⟩ := SizeBundler.closing_holds input
  have files := holds.files
  rw [empty, List.append_nil] at files
  have alone := (separates last).closed
  rw [SizeBundler.bundleSmallFiles_eq]
  split_ifs with noDirs
  · rw [holds.dirs, List.filter_eq_nil_iff] at noDirs
    refine ⟨holds.nonempty, ?_, fun file mem dir => absurd dir (noDirs file mem),
      fun bundle mem file inside _ => alone bundle mem file inside⟩
    rw [files, List.filter_eq_self.2 fun file mem => by simpa using noDirs file mem]
  · refine ⟨?_, ?_, fun file mem dir => ⟨_, List.getLast?_concat _, ?_, ?_⟩, ?_⟩
    · intro bundle mem
      rcases List.mem_append.1 mem with mem | mem
      · exact holds.nonempty _ mem
      · rwa [List.mem_singleton.1 mem]
    · rw [List.flatten_append, files, List.flatten_singleton, holds.dirs]
      exact List.perm_append_comm.trans (List.filter_append_perm _ _)
    · rw [holds.dirs]; exact List.mem_filter.2 ⟨mem, dir⟩
    · intro other mem; rw [holds.dirs] at mem; exact (List.mem_filter.1 mem).2
    · intro bundle mem file inside nondir
      rcases List.mem_append.1 mem with mem | mem
      · exact alone bundle mem file inside
      · rw [List.mem_singleton.1 mem, holds.dirs] at inside
        simp [(List.mem_filter.1 inside).2] at nondir

/-! ## The pipelines -/

theorem flatten_makeBundle (files : List File) : (makeBundle files).flatten = files := by
  unfold makeBundle; split_ifs with empty <;> simp [empty]

/-- Sorting each bundle keeps the files of all of them. -/
theorem flatten_map_perm {sort : List File → List File}
    (perm : ∀ bundle, (sort bundle).Perm bundle) (bundles : List (List File)) :
    (bundles.map sort).flatten.Perm bundles.flatten := by
  induction bundles with
  | nil => rfl
  | cons bundle bundles ih => exact (perm bundle).append ih

theorem sortByPath_perm (bundle : List File) : (sortByPath bundle).Perm bundle :=
  List.perm_insertionSort _ _

theorem sortBySize_perm (bundle : List File) : (sortBySize bundle).Perm bundle :=
  List.perm_insertionSort _ _

/-- `sort.Sort(file.BySize(bundle))` orders a bundle by size. -/
theorem sortBySize_sorted (bundle : List File) :
    (sortBySize bundle).Pairwise fun file other => file.size ≤ other.size := by
  have ordered :
      ∀ file other : File, (!other.sizeLess file) = true ↔ file.size ≤ other.size :=
    fun _ _ => by simp [File.sizeLess]
  have total : IsTotal File fun file other => (!other.sizeLess file) = true :=
    ⟨fun file other => by simp only [ordered]; omega⟩
  have trans : IsTrans File fun file other => (!other.sizeLess file) = true :=
    ⟨fun _ _ _ => by simp only [ordered]; omega⟩
  exact (List.sorted_insertionSort _ bundle).imp fun {file other} => (ordered file other).1

/-- The small files, big files and directories of a bundle are its files. -/
theorem flatten_splitBundlesBySizeLimit (input : List (List File)) :
    (splitBundlesBySizeLimit input).flatten.Perm input.flatten := by
  induction input with
  | nil => rfl
  | cons bundle input ih =>
    simp only [splitBundlesBySizeLimit, List.flatMap_cons, List.flatten_append,
      List.flatten_cons, List.flatten_nil, List.append_nil] at ih ⊢
    refine List.Perm.append ?_ ih
    have nondirs := (List.perm_append_comm.trans (List.filter_append_perm
      (fun file => decide (file.size > bundleLimitSize)) bundle)).filter fun file => !file.isDir
    rw [List.filter_append, List.filter_filter, List.filter_filter] at nondirs
    rw [← List.append_assoc]
    exact (nondirs.append_right _).trans
      (List.perm_append_comm.trans (List.filter_append_perm _ _))

/-- After the split and the sort by path, no input bundle has a small non-directory after a big
one. -/
theorem bigLast_split (input : List (List File)) :
    ∀ bundle ∈ sortBundlesByPath (splitBundlesBySizeLimit input), BigLast bundle := by
  intro bundle mem
  simp only [sortBundlesByPath, splitBundlesBySizeLimit, List.mem_map, List.mem_flatMap,
    List.mem_cons, List.not_mem_nil, or_false] at mem
  obtain ⟨part, ⟨original, -, which⟩, rfl⟩ := mem
  refine List.pairwise_of_forall_mem_list fun file mem next mem' nondir nondir' large => ?_
  rw [(sortByPath_perm _).mem_iff] at mem mem'
  rcases which with rfl | rfl | rfl <;> simp_all

/-- Sorting by size puts the big files of a bundle last. -/
theorem bigLast_sortBundlesBySize (input : List (List File)) :
    ∀ bundle ∈ sortBundlesBySize input, BigLast bundle := by
  intro bundle mem
  obtain ⟨original, -, rfl⟩ := List.mem_map.1 mem
  exact (sortBySize_sorted original).imp fun ordered _ _ large => lt_of_lt_of_le large ordered

namespace PathBundler

@[simp]
theorem nextBundle_currBundle (state : PathBundler) : state.nextBundle.currBundle = [] := by
  unfold nextBundle; split_ifs with empty <;> simp [empty]

theorem flatten_nextBundle (state : PathBundler) :
    state.nextBundle.out.flatten ++ state.nextBundle.currBundle =
      state.out.flatten ++ state.currBundle := by
  unfold nextBundle; split_ifs with empty <;> simp [empty]

theorem flatten_push (state : PathBundler) (file : File) :
    (state.push file).out.flatten ++ (state.push file).currBundle =
      state.out.flatten ++ state.currBundle ++ [file] := by
  unfold push
  split_ifs
  · simp only [← List.append_assoc]; rw [flatten_nextBundle]
  · simp

theorem flatten_foldl_push (files : List File) (state : PathBundler) :
    (files.foldl push state).out.flatten ++ (files.foldl push state).currBundle =
      state.out.flatten ++ state.currBundle ++ files := by
  induction files generalizing state with
  | nil => simp
  | cons file files ih => simp [ih, flatten_push]

/-- One input bundle of `bundleByPath`: its files, then `nextBundle`. -/
def fill (state : PathBundler) (bundle : List File) : PathBundler :=
  (bundle.foldl push state).nextBundle

theorem flatten_fill (state : PathBundler) (bundle : List File) :
    (fill state bundle).out.flatten = state.out.flatten ++ state.currBundle ++ bundle := by
  have step := flatten_nextBundle (bundle.foldl push state)
  rwa [flatten_foldl_push, nextBundle_currBundle, List.append_nil] at step

theorem flatten_foldl_fill {state : PathBundler} (empty : state.currBundle = [])
    (input : List (List File)) :
    (input.foldl fill state).out.flatten = state.out.flatten ++ input.flatten := by
  induction input generalizing state with
  | nil => simp
  | cons bundle input ih =>
    rw [List.foldl_cons, @ih (fill state bundle) (nextBundle_currBundle _), flatten_fill, empty]
    simp

end PathBundler

/-- `bundleByPath` only cuts its input. -/
theorem flatten_bundleByPath (input : List (List File)) :
    (bundleByPath input).flatten = input.flatten :=
  PathBundler.flatten_foldl_fill (show (⟨[], [], []⟩ : PathBundler).currBundle = [] from rfl)
    input

theorem bundleSmallFilesAcrossPaths_partitions (files : List File) :
    Partitions files (bundleSmallFilesAcrossPaths files) :=
  (bundleSmallFiles_partitions (bigLast_split _)).of_perm <|
    (flatten_map_perm sortByPath_perm _).trans <|
      (flatten_splitBundlesBySizeLimit _).trans (by rw [flatten_makeBundle])

theorem bundleByPathAndSize_partitions (files : List File) :
    Partitions files (bundleByPathAndSize files) :=
  (bundleSmallFiles_partitions (bigLast_sortBundlesBySize _)).of_perm <|
    (flatten_map_perm sortBySize_perm _).trans <| by
      rw [flatten_bundleByPath]
      exact (flatten_map_perm sortByPath_perm _).trans (by rw [flatten_makeBundle])

/-- Both strategies partition every list of files. -/
theorem bundlings_partition (files : List File) :
    Partitions files (bundleSmallFilesAcrossPaths files) ∧
      Partitions files (bundleByPathAndSize files) :=
  ⟨bundleSmallFilesAcrossPaths_partitions files, bundleByPathAndSize_partitions files⟩

/-- A directory `/a` of 100000 bytes, more than `c_BUNDLE_LIMIT_SIZE`. -/
def largeDirectory : File :=
  ⟨ascii "/", ascii "a", 100000, ⟨FileMode.modeDir ||| 0o755⟩, Time.zero, 0, 0, Digest.zero⟩

/-- A directory `/b` of 4096 bytes. -/
def smallDirectory : File :=
  ⟨ascii "/", ascii "b", 4096, ⟨FileMode.modeDir ||| 0o755⟩, Time.zero, 0, 0, Digest.zero⟩

/-- A directory above `c_BUNDLE_LIMIT_SIZE` is not alone: both strategies put it in the final
bundle with the other directories. -/
theorem bundles_share_large_directory :
    largeDirectory.size > bundleLimitSize ∧
      bundleSmallFilesAcrossPaths [largeDirectory, smallDirectory] =
        [[largeDirectory, smallDirectory]] ∧
      bundleByPathAndSize [largeDirectory, smallDirectory] =
        [[smallDirectory, largeDirectory]] := by
  decide

/-! ## The size of a bundle -/

/-- A bundle of two files or more is a bundle of directories, or holds at most
`c_BUNDLE_MAX_SIZE + c_BUNDLE_LIMIT_SIZE` bytes: the running count is checked before a file
joins the bundle, and only a file of at most `c_BUNDLE_LIMIT_SIZE` bytes joins a non-empty
one. -/
theorem bundleSmallFiles_bounded (input : List (List File)) :
    ∀ bundle ∈ bundleSmallFiles input, 2 ≤ bundle.length →
      (∀ file ∈ bundle, file.isDir) ∨
        totalSize bundle ≤ bundleMaxSize + bundleLimitSize := by
  obtain ⟨holds, -, -⟩ := SizeBundler.closing_holds input
  intro bundle mem two
  rw [SizeBundler.bundleSmallFiles_eq] at mem
  split_ifs at mem
  · exact .inr (holds.bounded bundle mem two)
  · rcases List.mem_append.1 mem with mem | mem
    · exact .inr (holds.bounded bundle mem two)
    · rw [List.mem_singleton.1 mem, holds.dirs]
      exact .inl fun file inside => (List.mem_filter.1 inside).2

/-- Seventeen files `/a` to `/q` of `c_BUNDLE_LIMIT_SIZE` bytes each. -/
def limitFiles : List File :=
  (List.range 17).map fun index =>
    ⟨ascii "/", [(97 + index).toUInt8], 64000, ⟨0o644⟩, Time.zero, 0, 0, Digest.zero⟩

/-- Sixteen files of `c_BUNDLE_LIMIT_SIZE` bytes bring the running count to exactly
`c_BUNDLE_MAX_SIZE`, which does not close the bundle, so the seventeenth joins it: both
strategies make one bundle of 1,088,000 bytes. -/
theorem bundle_exceeds_max_size :
    bundleSmallFilesAcrossPaths limitFiles = [limitFiles] ∧
      bundleByPathAndSize limitFiles = [limitFiles] ∧
      totalSize limitFiles = 1088000 ∧ bundleMaxSize < totalSize limitFiles := by
  decide

end Backup

end IncBackup
