import Bingo.Project.Create

/-! `Init`, which sets a project up for its global cache style. With the style `none` it does
nothing; with any style but `always` it only loads the builtin package. With `always` it runs
`createProject`, restarts the clock and starts the file watcher (`fsnotify`) when the project is
cached. Whatever `createProject` returns, the project is then one of the states `Project.init`
describes (`initWithStyle_eq_init`), so the watcher's theorems hold from it.

In module mode the project has one module for each directory holding a `go.mod` file at most 8
directories below the root, through no excluded directory, each once and sorted greatest root
first, and the watcher runs when there is one (`initWithStyle_modules`): `filepath.Dir` of the
path `findGoModFiles` returns is the directory joined onto the cleaned root (`dir_joinAll`). -/

namespace Bingo

/-- `Init` with the global cache style `globalCacheStyle`, from `NewProject`'s state, with the
clock `now` after `createProject`: the project, and whether `fsnotify` starts the watcher. The
builtin package and the units' own loading are not modelled; `gopathInitOk` is whether the
source-path unit's `init` succeeds, and an error of `createProject` is only reported. -/
def Project.initWithStyle (env : GoEnv) (globalCacheStyle rootDir : String) (files : List Entry)
    (gopathInitOk : Bool) (now : Nat) : Project × Bool :=
  if globalCacheStyle = "none" then ({}, false)
  else if globalCacheStyle ≠ "always" then ({}, false)
  else
    let p : Project := match createProject env rootDir files with
      | .ok (.modules gomodList) => createGoModule {} gomodList
      | .ok (.gopath _ _) => createGoPath {} gopathInitOk
      | .error _ => {}
    let p := { p with lastBuildTime := now }
    (p, p.cached)

/-- The watcher starts exactly when the project is cached. -/
theorem initWithStyle_snd (env : GoEnv) (style rootDir : String) (files : List Entry) (ok : Bool)
    (now : Nat) :
    (Project.initWithStyle env style rootDir files ok now).2 =
      (Project.initWithStyle env style rootDir files ok now).1.cached := by
  unfold Project.initWithStyle
  split_ifs <;> rfl

theorem createProject_modules {env : GoEnv} {rootDir : String} {files : List Entry}
    {gomodList : List String} (h : createProject env rootDir files = .ok (.modules gomodList)) :
    gomodList = findGoModFiles rootDir files := by
  simp only [createProject] at h
  split_ifs at h <;> first | cases h; rfl | cases h

/-- With the style `always`, `Init` leaves the project in the state `Project.init` gives for the
layout `createProject` chose; after an error, in `NewProject`'s state, which is module mode
without modules. -/
theorem initWithStyle_eq_init (env : GoEnv) (rootDir : String) (files : List Entry) (ok : Bool)
    (now : Nat) :
    (Project.initWithStyle env "always" rootDir files ok now).1 =
      Project.init (match createProject env rootDir files with
        | .ok (.modules gomodList) => .modules gomodList
        | .ok (.gopath _ _) => .gopath ok
        | .error _ => .modules []) now := by
  unfold Project.initWithStyle
  rw [if_neg (by decide), if_neg (by decide)]
  rcases createProject env rootDir files with _ | _ | _ <;> rfl

/-! ### Module mode -/

theorem createGoModule_cached (gomodList : List String) :
    (createGoModule {} gomodList).cached = true ↔ (createGoModule {} gomodList).modules ≠ [] := by
  dsimp only [createGoModule]
  split_ifs with h
  · simp [h]
  · simpa [← List.length_eq_zero, List.length_insertionSort] using h

theorem mem_createGoModule_findGoModFiles (rootDir : String) (t : DirTree) (m : Module) :
    m ∈ (createGoModule {} (findGoModFiles rootDir t.entries)).modules ↔
      ∃ ds, fileAt t.entries ds gomod ∧ ds.length ≤ 8 ∧ m.rootDir = joinAll (clean rootDir) ds := by
  rw [createGoModule_modules, (List.perm_insertionSort _ _).mem_iff, List.nil_append,
    findGoModFiles_eq, List.map_map]
  simp only [List.mem_map, List.mem_filter, decide_eq_true_eq, Prod.exists, mem_walkPaths,
    Function.comp]
  constructor
  · rintro ⟨ds, n, ⟨⟨hf, hl⟩, rfl⟩, rfl⟩
    have hds := (fileAt_isEntryName t.wellFormed hf)
    exact ⟨ds, hf, hl.elim (fun h => by simp [h]) fun h => by omega, dir_joinAll _ hds.1 hds.2⟩
  · rintro ⟨ds, hf, hl, hm⟩
    have hds := (fileAt_isEntryName t.wellFormed hf)
    exact ⟨ds, gomod, ⟨⟨hf, .inr (by omega)⟩, rfl⟩, by rw [dir_joinAll _ hds.1 hds.2, ← hm]⟩

theorem createGoModule_findGoModFiles_nodup (rootDir : String) (t : DirTree) :
    ((createGoModule {} (findGoModFiles rootDir t.entries)).modules.map (·.rootDir)).Nodup := by
  rw [createGoModule_modules, List.nil_append, ((List.perm_insertionSort _ _).map _).nodup_iff,
    findGoModFiles_eq, List.map_map, List.map_map]
  refine ((walkPaths_nodup 0 _ t.wellFormed).filter _).map_on fun p hp q hq h => ?_
  have hgo : ∀ x ∈ (walkPaths 0 t.entries).filter (·.2 = gomod),
      x.2 = gomod ∧ (∀ d ∈ x.1, isEntryName d) ∧ isEntryName gomod := fun x hx => by
    obtain ⟨hx, hn⟩ := List.mem_filter.1 hx
    have hn := of_decide_eq_true hn
    exact ⟨hn, hn ▸ fileAt_isEntryName t.wellFormed (mem_walkPaths.1 hx).1⟩
  obtain ⟨hp₂, hp₁, hg⟩ := hgo p hp
  obtain ⟨hq₂, hq₁, -⟩ := hgo q hq
  have h : joinAll (clean rootDir) p.1 = joinAll (clean rootDir) q.1 := by
    simpa only [Function.comp, dir_joinAll _ hp₁ hg, dir_joinAll _ hq₁ hg] using h
  have h' : joinAll (clean rootDir) (p.1 ++ [gomod]) = joinAll (clean rootDir) (q.1 ++ [gomod]) := by
    simp only [joinAll, List.foldl_append] at h ⊢
    rw [h]
  have hall : ∀ x ∈ (walkPaths 0 t.entries).filter (·.2 = gomod), ∀ d ∈ x.1 ++ [gomod], isEntryName d :=
    fun x hx => List.forall_mem_append.2 ⟨(hgo x hx).2.1, List.forall_mem_singleton.2 hg⟩
  exact Prod.ext (List.append_cancel_right (joinAll_injective (hall p hp) (hall q hq) (by simp)
    (by simp) h')) (hp₂.trans hq₂.symm)

/-- In module mode, `Init` gives the project one module for each directory that holds a `go.mod`
file at most 8 directories below the root through no excluded directory: the directory's path
below the root joined onto the cleaned root, each once, sorted greatest root first. The watcher
starts exactly when there is such a directory. -/
theorem initWithStyle_modules (env : GoEnv) (rootDir : String) (t : DirTree) (ok : Bool) (now : Nat)
    {gomodList : List String} (hmode : createProject env rootDir t.entries = .ok (.modules gomodList)) :
    let r := Project.initWithStyle env "always" rootDir t.entries ok now
    r.1.modules.Sorted rootDirGE ∧ (r.1.modules.map (·.rootDir)).Nodup ∧
      (∀ m, m ∈ r.1.modules ↔
        ∃ ds, fileAt t.entries ds gomod ∧ ds.length ≤ 8 ∧ m.rootDir = joinAll (clean rootDir) ds) ∧
      (r.2 = true ↔ r.1.modules ≠ []) := by
  have hp : (Project.initWithStyle env "always" rootDir t.entries ok now).1 =
      Project.init (.modules (findGoModFiles rootDir t.entries)) now := by
    rw [initWithStyle_eq_init, hmode, createProject_modules hmode]
  intro r
  refine ⟨hp ▸ init_modules_sorted _ now, ?_, ?_, ?_⟩
  · exact hp ▸ createGoModule_findGoModFiles_nodup rootDir t
  · exact fun m => hp ▸ mem_createGoModule_findGoModFiles rootDir t m
  · show r.2 = true ↔ _
    rw [initWithStyle_snd, hp]
    exact createGoModule_cached _

/-- A root `/w` holding a `go.mod` file, a directory `a` with another, and a `vendor` directory
with a third. -/
def twoModules : DirTree :=
  ⟨[.dir "a" [.file gomod], .file gomod, .dir vendor [.file gomod]], by decide⟩

/-- `GO111MODULE=on`. -/
def moduleEnv : GoEnv := ⟨"on", "/usr/local/go", ["/home/u/go"]⟩

theorem initWithStyle_modules_twoModules :
    createProject moduleEnv "/w" twoModules.entries = .ok (.modules ["/w/a/go.mod", "/w/go.mod"]) ∧
    let r := Project.initWithStyle moduleEnv "always" "/w" twoModules.entries false 0
    r.1.modules.Sorted rootDirGE ∧ (r.1.modules.map (·.rootDir)).Nodup ∧
      (∀ m, m ∈ r.1.modules ↔
        ∃ ds, fileAt twoModules.entries ds gomod ∧ ds.length ≤ 8 ∧ m.rootDir = joinAll (clean "/w") ds) ∧
      (r.2 = true ↔ r.1.modules ≠ []) :=
  ⟨rfl, initWithStyle_modules moduleEnv "/w" twoModules false 0 rfl⟩

end Bingo
