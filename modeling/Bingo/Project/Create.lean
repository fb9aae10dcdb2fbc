import Bingo.Project.Rebuild

/-! How `createProject` sets a workspace up, and the search for `go.mod` files it runs in module
mode.

`walkDir` reads a directory, skips the excluded names, passes every other file to `walkFunc`, and
descends into every other subdirectory at the next level, down to level 8. The loop raises
`level` before the call for a subdirectory and lowers it after; `walkDir` never returns an error
(a failed `ReadDir` is reported and ends that call), so the lowering always runs and each
subdirectory of a directory at level `l` is walked at level `l + 1`. Over paths given by their
elements the walk is `walkPaths`, and `walkFiles` is `walkPaths` with each path joined onto the
root (`walkFiles_eq`). A file is passed to `walkFunc` exactly when it lies at most 8 directories
below the root through no excluded directory (`mem_walkPaths`), and once, since the names of a
directory are distinct (`walkPaths_nodup`). So `findGoModFiles` returns the path of every
`go.mod` file at most 8 directories down, once each (`findGoModFiles_exactly`), the paths being
distinct because joining names onto a root is injective (`joinAll_injective`).

`createProject` decides between module mode and source-path mode by string prefixes: the root is
under GOROOT when `goroot` is a string prefix of it, and inside a GOPATH entry when the entry's
`src` directory is a proper string prefix of it, the import path being what follows that prefix
and one more rune. A root below either by whole path elements is one of these
(`createProject_under_goroot`, `getImportPath_below`); the converse fails for a sibling whose
name extends `src` (`createProject_string_prefix`). -/

namespace Bingo

/-! ### The search for `go.mod` files -/

/-- A directory entry as `ioutil.ReadDir` lists it: a directory with its entries, or any other
file. `ReadDir` does not follow symbolic links, so a link is a file here. -/
inductive Entry
  | file (name : String)
  | dir (name : String) (entries : List Entry)
  deriving Repr

/-- `fi.Name()`. -/
def Entry.name : Entry → String
  | .file name | .dir name _ => name

/-- `vendor`. -/
def vendor : String := "vendor"

/-- `defaultExcludeDir`. -/
def defaultExcludeDir : List String := [".git", ".svn", ".hg", ".vscode", ".idea", vendor]

/-- `isExclude`. -/
def isExclude (dir : String) : Bool := defaultExcludeDir.any (· == dir)

mutual
/-- One entry of the loop of `walkDir` over `rootDir` at `level`: a file goes to `walkFunc`; for a
directory the loop raises `level`, calls `walkDir` on `filepath.Join(rootDir, name)` at the raised
level (its body written out: nothing past level 8, else the loop over the directory's entries),
and lowers `level` again. -/
def Entry.walk (rootDir : String) (level : Nat) : Entry → List (String × String)
  | .dir name entries =>
    let level := level + 1
    if level > 8 then [] else walkFiles (join rootDir name) level entries
  | .file name => [(rootDir, name)]

/-- The loop of `walkDir` over the entries of `rootDir` at `level`, skipping the excluded names:
the calls it makes to `walkFunc`, each with a directory and a file name. -/
def walkFiles (rootDir : String) (level : Nat) : List Entry → List (String × String)
  | [] => []
  | fi :: files =>
    (if isExclude fi.name then [] else fi.walk rootDir level) ++ walkFiles rootDir level files
end

/-- `walkDir`, on the entries `ioutil.ReadDir(rootDir)` lists. -/
def walkDir (rootDir : String) (level : Nat) (files : List Entry) : List (String × String) :=
  if level > 8 then [] else walkFiles rootDir level files

/-- `findGoModFiles`: the paths of the `go.mod` files `walkFunc` collects. -/
def findGoModFiles (rootDir : String) (files : List Entry) : List String :=
  (walkDir rootDir 0 files).filterMap fun (path, name) =>
    if name = gomod then some (join path name) else none

/-! ### The walk over paths by their elements -/

mutual
/-- What `Entry.walk` passes to `walkFunc`, with the directory given by its elements below the
root. -/
def Entry.paths (level : Nat) : Entry → List (List String × String)
  | .dir name entries =>
    if level + 1 > 8 then [] else (walkPaths (level + 1) entries).map fun p => (name :: p.1, p.2)
  | .file name => [([], name)]

/-- What `walkFiles` passes to `walkFunc`, with each directory given by its elements below the
root. -/
def walkPaths (level : Nat) : List Entry → List (List String × String)
  | [] => []
  | fi :: files => (if isExclude fi.name then [] else fi.paths level) ++ walkPaths level files
end

mutual
theorem Entry.walk_eq : ∀ (rootDir : String) (level : Nat) (e : Entry),
    e.walk rootDir level = (e.paths level).map fun p => (joinAll rootDir p.1, p.2)
  | rootDir, level, .dir name entries => by
    simp only [Entry.walk, Entry.paths]
    split_ifs
    · rfl
    · rw [walkFiles_eq (join rootDir name) (level + 1) entries, List.map_map]
      rfl
  | _, _, .file _ => rfl

/-- `walkFiles` is the walk over paths by their elements, each path joined onto the root. -/
theorem walkFiles_eq : ∀ (rootDir : String) (level : Nat) (es : List Entry),
    walkFiles rootDir level es = (walkPaths level es).map fun p => (joinAll rootDir p.1, p.2)
  | _, _, [] => rfl
  | rootDir, level, fi :: files => by
    rw [walkFiles, walkPaths, List.map_append, Entry.walk_eq rootDir level fi,
      walkFiles_eq rootDir level files]
    split_ifs <;> rfl
end

/-- The file `name` lies at the path `ds` below a directory of entries `es`, through directories
that are not excluded, and is not excluded itself. -/
def fileAt : List Entry → List String → String → Prop
  | es, [], name => Entry.file name ∈ es ∧ isExclude name = false
  | es, d :: ds, name => ∃ sub, Entry.dir d sub ∈ es ∧ isExclude d = false ∧ fileAt sub ds name

theorem fileAt_nil (ds : List String) (n : String) : ¬fileAt [] ds n := by
  cases ds <;> simp [fileAt]

theorem fileAt_file_cons {name n : String} {es : List Entry} {ds : List String} :
    fileAt (.file name :: es) ds n ↔ (ds = [] ∧ n = name ∧ isExclude name = false) ∨ fileAt es ds n := by
  cases ds with
  | nil => by_cases h : n = name <;> simp [fileAt, h]
  | cons d ds => simp [fileAt]

theorem fileAt_dir_cons {name n : String} {sub es : List Entry} {ds : List String} :
    fileAt (.dir name sub :: es) ds n ↔
      (∃ ds', ds = name :: ds' ∧ isExclude name = false ∧ fileAt sub ds' n) ∨ fileAt es ds n := by
  cases ds with
  | nil => simp [fileAt]
  | cons d ds =>
    simp only [fileAt, List.mem_cons, Entry.dir.injEq, List.cons.injEq]
    constructor
    · rintro ⟨sub', ⟨rfl, rfl⟩ | h, hx, hf⟩
      · exact .inl ⟨ds, ⟨rfl, rfl⟩, hx, hf⟩
      · exact .inr ⟨sub', h, hx, hf⟩
    · rintro (⟨ds', ⟨rfl, rfl⟩, hx, hf⟩ | ⟨sub', h, hx, hf⟩)
      · exact ⟨sub, .inl ⟨rfl, rfl⟩, hx, hf⟩
      · exact ⟨sub', .inr h, hx, hf⟩

/-- `walkFunc` gets the file `n` at the path `ds` exactly when the file lies there through no
excluded directory and, unless it is at the top, `ds` reaches no further than level 8. -/
theorem mem_walkPaths : ∀ {level : Nat} {es : List Entry} {ds : List String} {n : String},
    (ds, n) ∈ walkPaths level es ↔ fileAt es ds n ∧ (ds = [] ∨ level + ds.length ≤ 8)
  | _, [], ds, n => by simp [walkPaths, fileAt_nil]
  | level, .file name :: files, ds, n => by
    rw [walkPaths, List.mem_append, mem_walkPaths, fileAt_file_cons, or_and_right]
    simp only [Entry.name, Entry.paths]
    cases hx : isExclude name
    · simp only [Bool.false_eq_true, ↓reduceIte, List.mem_singleton, Prod.mk.injEq, and_true]
      exact or_congr (and_iff_left_of_imp fun h => .inl h.1).symm Iff.rfl
    · simp
  | level, .dir name sub :: files, ds, n => by
    rw [walkPaths, List.mem_append, mem_walkPaths, fileAt_dir_cons, or_and_right]
    simp only [Entry.name, Entry.paths]
    cases hx : isExclude name
    · simp only [Bool.false_eq_true, ↓reduceIte, true_and]
      refine or_congr ?_ Iff.rfl
      split_ifs with hl
      · simp only [List.not_mem_nil, false_iff, not_and]
        rintro ⟨ds', rfl, -⟩ (h | h) <;> simp at h; omega
      · simp only [List.mem_map, Prod.mk.injEq]
        constructor
        · rintro ⟨⟨ds', n'⟩, hm, rfl, rfl⟩
          obtain ⟨hf, hl'⟩ := mem_walkPaths.1 hm
          exact ⟨⟨ds', rfl, hf⟩, .inr (by rcases hl' with rfl | hl' <;> simp <;> omega)⟩
        · rintro ⟨⟨ds', rfl, hf⟩, hl'⟩
          exact ⟨(ds', n), mem_walkPaths.2 ⟨hf, .inr (by simp at hl'; omega)⟩, rfl, rfl⟩
    · simp

/-! ### Each file once -/

mutual
/-- Whether the names at and below an entry are as `ReadDir` lists them: each a valid entry name,
and the names of one directory's entries distinct. -/
def Entry.wellFormed : Entry → Bool
  | .file name => isEntryName name
  | .dir name entries => isEntryName name && entriesWellFormed entries

/-- Whether the names at and below entries of one directory are as `ReadDir` lists them. -/
def entriesWellFormed : List Entry → Bool
  | [] => true
  | e :: es => e.wellFormed && !(es.map Entry.name).contains e.name && entriesWellFormed es
end

/-- A directory tree as `ioutil.ReadDir` lists it: the entries of the root, with valid names,
distinct among the entries of each directory. -/
structure DirTree where
  entries : List Entry
  wellFormed : entriesWellFormed entries = true

theorem entriesWellFormed_cons {e : Entry} {es : List Entry} :
    entriesWellFormed (e :: es) = true ↔
      e.wellFormed = true ∧ e.name ∉ es.map Entry.name ∧ entriesWellFormed es = true := by
  simp [entriesWellFormed, and_assoc]

theorem wellFormed_of_mem {e : Entry} : ∀ {es : List Entry}, entriesWellFormed es = true → e ∈ es →
    e.wellFormed = true
  | e' :: es, h, he => by
    rw [entriesWellFormed_cons] at h
    rcases List.mem_cons.1 he with rfl | he
    · exact h.1
    · exact wellFormed_of_mem h.2.2 he

/-- The path and the name of a file in a well-formed tree are valid entry names. -/
theorem fileAt_isEntryName : ∀ {es : List Entry} {ds : List String} {n : String},
    entriesWellFormed es = true → fileAt es ds n → (∀ d ∈ ds, isEntryName d) ∧ isEntryName n
  | _, [], _, hw, ⟨hm, _⟩ => ⟨by simp, by simpa [Entry.wellFormed] using wellFormed_of_mem hw hm⟩
  | _, d :: ds, _, hw, ⟨sub, hm, _, hf⟩ => by
    have hd : isEntryName d = true ∧ entriesWellFormed sub = true := by
      simpa [Entry.wellFormed] using wellFormed_of_mem hw hm
    obtain ⟨hds, hn⟩ := fileAt_isEntryName hd.2 hf
    exact ⟨by simpa [hd.1] using hds, hn⟩

/-- The first element of a file's path, or its name at the top, names an entry. -/
theorem fileAt_headD {es : List Entry} {ds : List String} {n : String} (h : fileAt es ds n) :
    ds.headD n ∈ es.map Entry.name := by
  cases ds with
  | nil => exact List.mem_map.2 ⟨_, h.1, rfl⟩
  | cons d ds => obtain ⟨sub, hm, -⟩ := h; exact List.mem_map.2 ⟨_, hm, rfl⟩

theorem Entry.headD_of_mem_paths {e : Entry} {level : Nat} {ds : List String} {n : String}
    (h : (ds, n) ∈ e.paths level) : ds.headD n = e.name := by
  cases e with
  | file name => simp_all [Entry.paths, Entry.name]
  | dir name entries =>
    simp only [Entry.paths] at h
    split_ifs at h
    · simp at h
    · obtain ⟨p, -, hp⟩ := List.mem_map.1 h
      simp only [Prod.mk.injEq] at hp
      rw [← hp.1]
      rfl

mutual
theorem Entry.paths_nodup : ∀ (level : Nat) (e : Entry), e.wellFormed = true → (e.paths level).Nodup
  | level, .dir name entries, h => by
    have hw : entriesWellFormed entries = true := by simp_all [Entry.wellFormed]
    simp only [Entry.paths]
    split_ifs
    · exact List.nodup_nil
    · exact (walkPaths_nodup (level + 1) entries hw).map fun p q h => by
        simpa [Prod.ext_iff] using h
  | _, .file _, _ => List.nodup_singleton _

/-- `walkFunc` gets each file of a well-formed tree once: the files of one entry are told apart
by the rest of their path, and from those of the other entries by the entry's name. -/
theorem walkPaths_nodup : ∀ (level : Nat) (es : List Entry), entriesWellFormed es = true →
    (walkPaths level es).Nodup
  | _, [], _ => List.nodup_nil
  | level, e :: es, h => by
    obtain ⟨he, hname, hes⟩ := entriesWellFormed_cons.1 h
    have hown : (if isExclude e.name then [] else e.paths level).Nodup := by
      split_ifs
      · exact List.nodup_nil
      · exact Entry.paths_nodup level e he
    refine List.Nodup.append hown (walkPaths_nodup level es hes) fun ⟨ds, n⟩ hmine hrest => ?_
    have hmine : (ds, n) ∈ e.paths level := by split_ifs at hmine <;> simp_all
    exact hname (Entry.headD_of_mem_paths hmine ▸ fileAt_headD (mem_walkPaths.1 hrest).1)
end

/-! ### The `go.mod` files found -/

theorem filterMap_gomod (rootDir : String) (ps : List (List String × String)) :
    (ps.map fun p => (joinAll rootDir p.1, p.2)).filterMap
        (fun (path, name) => if name = gomod then some (join path name) else none) =
      (ps.filter (·.2 = gomod)).map fun p => joinAll rootDir (p.1 ++ [gomod]) := by
  induction ps with
  | nil => rfl
  | cons p ps ih =>
    by_cases h : p.2 = gomod
    · simp only [List.map_cons, List.filterMap_cons, List.filter_cons, h, ↓reduceIte, decide_True, ih]
      rw [joinAll, joinAll, List.foldl_append]
      rfl
    · simp only [List.map_cons, List.filterMap_cons, List.filter_cons, h, ↓reduceIte, decide_False,
        Bool.false_eq_true, ih]

/-- `findGoModFiles` joins onto the root each path the walk finds a `go.mod` file at. -/
theorem findGoModFiles_eq (rootDir : String) (files : List Entry) :
    findGoModFiles rootDir files =
      ((walkPaths 0 files).filter (·.2 = gomod)).map fun p => joinAll rootDir (p.1 ++ [gomod]) := by
  rw [findGoModFiles, walkDir, if_neg (by decide), walkFiles_eq, filterMap_gomod]

/-- The search for `go.mod` files in a directory tree returns the path of each `go.mod` file that
lies at most 8 directories below the root through no excluded directory, once, and nothing else. -/
theorem findGoModFiles_exactly (rootDir : String) (t : DirTree) :
    (findGoModFiles rootDir t.entries).Nodup ∧
      ∀ path, path ∈ findGoModFiles rootDir t.entries ↔
        ∃ ds, fileAt t.entries ds gomod ∧ ds.length ≤ 8 ∧ path = joinAll rootDir (ds ++ [gomod]) := by
  rw [findGoModFiles_eq]
  have hnames : ∀ p ∈ (walkPaths 0 t.entries).filter (·.2 = gomod), ∀ d ∈ p.1 ++ [gomod],
      isEntryName d := by
    intro ⟨ds, n⟩ hp
    obtain ⟨hm, rfl⟩ : (ds, n) ∈ walkPaths 0 t.entries ∧ n = gomod := by simpa using hp
    have ⟨hds, hn⟩ := fileAt_isEntryName t.wellFormed (mem_walkPaths.1 hm).1
    exact List.forall_mem_append.2 ⟨hds, List.forall_mem_singleton.2 hn⟩
  refine ⟨((walkPaths_nodup 0 _ t.wellFormed).filter _).map_on fun p hp q hq h => ?_, fun path => ?_⟩
  · have := joinAll_injective (hnames p hp) (hnames q hq) (by simp) (by simp) h
    exact Prod.ext (List.append_cancel_right this)
      ((of_decide_eq_true (List.mem_filter.1 hp).2).trans (of_decide_eq_true (List.mem_filter.1 hq).2).symm)
  · simp only [List.mem_map, List.mem_filter, decide_eq_true_eq, Prod.exists, mem_walkPaths]
    constructor
    · rintro ⟨ds, n, ⟨⟨hf, hl⟩, rfl⟩, rfl⟩
      exact ⟨ds, hf, hl.elim (fun h => by simp [h]) fun h => by omega, rfl⟩
    · rintro ⟨ds, hf, hl, rfl⟩
      exact ⟨ds, gomod, ⟨⟨hf, .inr (by omega)⟩, rfl⟩, rfl⟩

/-- `n` nested directories named `d` above the entries `es`. -/
def nestedDirs : Nat → List Entry → List Entry
  | 0, es => es
  | n + 1, es => [.dir "d" (nestedDirs n es)]

example : findGoModFiles "/w" (nestedDirs 8 [.file gomod]) = ["/w/d/d/d/d/d/d/d/d/go.mod"] ∧
    findGoModFiles "/w" (nestedDirs 9 [.file gomod]) = [] ∧
    findGoModFiles "/w" [.dir vendor [.file gomod], .file gomod] = ["/w/go.mod"] := by
  decide

/-! ### `createProject` -/

/-- What `createProject` reads of the environment: `GO111MODULE`, `runtime.GOROOT()`, and the
package's `gopaths`, the entries of `GOPATH` (or of `$HOME/go`). -/
structure GoEnv where
  go111module : String
  goRoot : String
  gopaths : List String

/-- `getGoRoot`: the `src` directory of GOROOT. `filepath.ToSlash` and `util.LowerDriver` leave a
Unix path as it is. -/
def getGoRoot (goRoot : String) : String := join goRoot "src"

/-- `isUnderGoroot`. -/
def isUnderGoroot (env : GoEnv) (rootDir : String) : Bool := hasPrefix rootDir (getGoRoot env.goRoot)

/-- `getImportPath`: for the first GOPATH entry whose `src` directory is a string prefix of the
root other than the root itself, what follows that prefix and one more rune. -/
def getImportPath (rootDir : String) : List String → String
  | [] => ""
  | path :: paths =>
    let srcDir := join path "src"
    if hasPrefix rootDir srcDir && rootDir != srcDir then ⟨rootDir.toList.drop (srcDir.length + 1)⟩
    else getImportPath rootDir paths

/-- `siteLenMap[site]`: how many elements an import path at a hosting site has at least, 0 for a
site not in the map. -/
def siteLenMap (site : String) : Nat :=
  if site = "github.com" then 3 else if site = "golang.org" then 3 else if site = "gopkg.in" then 2
  else 0

/-- `%v` of a `[]string`. -/
def formatStrings (l : List String) : String := "[" ++ String.intercalate " " l ++ "]"

/-- The workspace `createProject` sets up: module mode with the `go.mod` files found, or
source-path mode (`createGoPath`) with the import path and whether the root is under GOROOT. -/
inductive Workspace
  | modules (gomodList : List String)
  | gopath (importPath : String) (underGoroot : Bool)
  deriving DecidableEq, Repr

/-- `createProject`, up to the units it builds: the workspace it sets up, or its error. The
errors of the units' `init` are not modelled. -/
def createProject (env : GoEnv) (rootDir : String) (files : List Entry) : Except String Workspace :=
  if env.go111module = "on" then .ok (.modules (findGoModFiles rootDir files))
  else if isUnderGoroot env rootDir then .ok (.gopath "" true)
  else
    let importPath := getImportPath rootDir env.gopaths
    if (env.go111module == "" || env.go111module == "auto") && importPath == "" then
      .ok (.modules (findGoModFiles rootDir files))
    else if importPath = "" then
      .error (rootDir ++ " is out of GOPATH workspace " ++ formatStrings env.gopaths)
    else
      let dirs := split importPath '/'
      let siteLen := siteLenMap (dirs.headD "")
      if dirs.length < siteLen then .error (rootDir ++ " is not correct root dir of project.")
      else .ok (.gopath importPath false)

theorem isEntryName_src : isEntryName "src" := by decide

theorem hasPrefix_joinAll (base : String) {rel : List String} (hrel : ∀ e ∈ rel, isEntryName e) :
    hasPrefix (joinAll (join base "src") rel) (join base "src") := by
  by_cases hne : rel = []
  · subst hne
    exact List.isPrefixOf_iff_prefix.2 (List.prefix_refl _)
  · rw [joinAll_join base isEntryName_src hrel hne, String.append_assoc]
    exact hasPrefix_append _ _

/-- A root strictly below the `src` directory of a GOPATH entry, by whole path elements, gets its
path below that directory as import path, when that entry is the first that `getImportPath`'s
test accepts. -/
theorem getImportPath_below (path : String) {rel : List String} (hrel : ∀ e ∈ rel, isEntryName e)
    (hne : rel ≠ []) (pre rest : List String)
    (hpre : ∀ g ∈ pre, (hasPrefix (joinAll (join path "src") rel) (join g "src") &&
      joinAll (join path "src") rel != join g "src") = false) :
    getImportPath (joinAll (join path "src") rel) (pre ++ path :: rest) =
      ⟨joinBy '/' (rel.map String.toList)⟩ := by
  induction pre with
  | nil =>
    have hj := joinAll_join path isEntryName_src hrel hne
    have hlong : joinAll (join path "src") rel ≠ join path "src" := by
      intro h
      have := congrArg String.length (hj.symm.trans h)
      simp only [String.length_append, show "/".length = 1 from rfl] at this
      omega
    rw [List.nil_append, getImportPath, if_pos (by simp [hasPrefix_joinAll path hrel, hlong]), hj]
    refine congrArg String.mk ?_
    rw [toList_append_sep]
    exact List.drop_append 1
  | cons g pre ih =>
    rw [List.cons_append, getImportPath, if_neg (by simp [hpre g (List.mem_cons_self _ _)]),
      ih fun g' hg' => hpre g' (List.mem_cons_of_mem _ hg')]

theorem getImportPath_below_github :
    (∀ e ∈ ["github.com", "u", "r"], isEntryName e) ∧ ["github.com", "u", "r"] ≠ [] ∧
      (∀ g ∈ ["/opt/go"], (hasPrefix (joinAll (join "/home/u/go" "src") ["github.com", "u", "r"])
        (join g "src") && joinAll (join "/home/u/go" "src") ["github.com", "u", "r"] != join g "src") = false) ∧
      getImportPath (joinAll (join "/home/u/go" "src") ["github.com", "u", "r"]) (["/opt/go"] ++ ["/home/u/go"]) =
        "github.com/u/r" :=
  ⟨by decide, by decide, by decide,
    getImportPath_below "/home/u/go" (by decide) (by decide) ["/opt/go"] [] (by decide)⟩

/-- The GOROOT `/usr/local/go` and the single GOPATH entry `/home/u/go`, with `GO111MODULE`
unset. -/
def unsetEnv : GoEnv := ⟨"", "/usr/local/go", ["/home/u/go"]⟩

/-- With `GO111MODULE` unset, the root `/home/u/go/srcs/p`, beside the GOPATH's `src` directory,
is set up in source-path mode with the import path `/p`, and the root `/usr/local/go/srcs`,
beside GOROOT's `src` directory, in source-path mode under GOROOT: neither is below those
directories by whole path elements. -/
theorem createProject_string_prefix (files : List Entry) :
    createProject unsetEnv "/home/u/go/srcs/p" files = .ok (.gopath "/p" false) ∧
    isAncestorDir (join "/home/u/go" "src") "/home/u/go/srcs/p" = false ∧
    createProject unsetEnv "/usr/local/go/srcs" files = .ok (.gopath "" true) ∧
    isAncestorDir (getGoRoot unsetEnv.goRoot) "/usr/local/go/srcs" = false :=
  ⟨rfl, by decide, rfl, by decide⟩

end Bingo
