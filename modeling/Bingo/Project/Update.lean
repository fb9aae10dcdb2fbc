import Bingo.FilePath
import Mathlib.Data.Char
import Mathlib.Data.List.Lex
import Mathlib.Data.List.Sort

/-! The project's reaction to file-system events. `Project.update` asks `needRebuild` whether an
event calls for a rebuild: always for a `go.mod` file; never for an editor lock file, a file
that is not Go source, or a file the view holds; otherwise it counts the event and rebuilds on
the 21st counted event or when 60 seconds have passed since the last rebuild. A rebuild reloads
the source-path unit (`rebuildGopapthCache`) and the first module whose root prefixes the
event's directory (`rebuildModuleCache`), then restarts the clock.

The clock is in nanoseconds. The state is the part of `Project` these functions read and
write; `Project.init` is `Init` after `createProject` has chosen a layout. -/

namespace Bingo

/-- `goext`. -/
def goext : String := ".go"

/-- `gomod`. -/
def gomod : String := "go.mod"

/-- `emacsLockPrefix`. -/
def emacsLockPrefix : String := ".#"

/-- `time.Second`, in nanoseconds. -/
def second : Nat := 1000000000

/-- A `module` of a project in module mode. -/
structure Module where
  rootDir : String
  deriving DecidableEq, Repr

/-- The `gopath` unit of a project in source-path mode. -/
structure Gopath where
  rootDir : String
  deriving DecidableEq, Repr

structure Project where
  modules : List Module := []
  gopath : Option Gopath := none
  cached : Bool := false
  changedCount : Nat := 0
  lastBuildTime : Nat := 0
  deriving DecidableEq, Repr

/-- The order `createGoModule` sorts by: `rootDir >=`, Go's comparison of strings, which is
lexicographic on the runes. -/
def rootDirGE (m m' : Module) : Prop := m'.rootDir.toList ≤ m.rootDir.toList

instance : DecidableRel rootDirGE := fun m m' =>
  inferInstanceAs (Decidable (m'.rootDir.toList ≤ m.rootDir.toList))

/-- `createGoModule`: a module for the directory of each `go.mod` file, sorted by root
directory, greatest first. Go's `sort.Slice` sorts these few roots by insertion; distinct roots
have only one such order. -/
def createGoModule (p : Project) (gomodList : List String) : Project :=
  let p := { p with modules := p.modules ++ gomodList.map fun v => ⟨dir v⟩ }
  if p.modules = [] then p
  else { p with cached := true, modules := p.modules.insertionSort rootDirGE }

@[simp] theorem createGoModule_changedCount (p : Project) (gomodList : List String) :
    (createGoModule p gomodList).changedCount = p.changedCount := by
  dsimp only [createGoModule]
  split_ifs <;> rfl

/-- `createGoPath`, given whether `gopath.init` succeeds. The unit it makes is a local
variable: `p.gopath` is left as it was. -/
def createGoPath (p : Project) (initOk : Bool) : Project := { p with cached := initOk }

/-- The layout `createProject` chose: module mode with the `go.mod` files found, or source-path
mode with whether the unit's `init` succeeded. -/
inductive Layout
  | modules (gomodList : List String)
  | gopath (initOk : Bool)

/-- `Init` with the cache style `always`, from `NewProject`'s state, with the clock `now` after
`createProject`. -/
def Project.init (layout : Layout) (now : Nat) : Project :=
  let p : Project := match layout with
    | .modules gomodList => createGoModule {} gomodList
    | .gopath initOk => createGoPath {} initOk
  { p with lastBuildTime := now }

/-- A file-system event as `update` processes it. -/
structure Event where
  name : String
  /-- Whether the view holds a file for the event's URI. -/
  inOverlay : Bool
  /-- The clock when `needRebuild` reads it. -/
  now : Nat
  /-- The clock when `update` sets `lastBuildTime` after rebuilding. -/
  doneTime : Nat
  deriving DecidableEq, Repr

/-- `needRebuild`: the decision and the project with its updated counter. -/
def needRebuild (p : Project) (e : Event) : Bool × Project :=
  if hasSuffix e.name gomod then (true, p)
  else if hasPrefix e.name emacsLockPrefix then (false, p)
  else if !hasSuffix e.name goext then (false, p)
  else if e.inOverlay then (false, p)
  else
    let p := { p with changedCount := p.changedCount + 1 }
    if p.changedCount > 20 then (true, { p with changedCount := 0 })
    else (decide (60 * second ≤ e.now - p.lastBuildTime), p)

/-- A unit whose `rebuildCache` a rebuild calls. -/
inductive Reload
  | gopath (g : Gopath)
  | module (m : Module)
  deriving DecidableEq, Repr

/-- `rebuildGopapthCache`. -/
def rebuildGopapthCache (p : Project) (eventName : String) : List Reload :=
  match p.gopath with
  | none => []
  | some g => if hasSuffix eventName g.rootDir then [.gopath g] else []

/-- `rebuildModuleCache`: the first module whose root directory is a prefix of the event's
directory. -/
def rebuildModuleCache (p : Project) (eventName : String) : List Reload :=
  match p.modules.find? fun m => hasPrefix (dir eventName) m.rootDir with
  | some m => [.module m]
  | none => []

/-- What `update` did with an event: whether it rebuilt, and the units it reloaded. -/
structure Outcome where
  rebuild : Bool
  reloads : List Reload
  deriving DecidableEq, Repr

/-- `update`. -/
def update (p : Project) (e : Event) : Project × Outcome :=
  match needRebuild p e with
  | (true, p) => ({ p with lastBuildTime := e.doneTime },
      ⟨true, rebuildGopapthCache p e.name ++ rebuildModuleCache p e.name⟩)
  | (false, p) => (p, ⟨false, []⟩)

/-- `update` on each event in turn. -/
def runUpdates : Project → List Event → Project × List Outcome
  | p, [] => (p, [])
  | p, e :: es =>
    let r := runUpdates (update p e).1 es
    (r.1, (update p e).2 :: r.2)

@[simp] theorem runUpdates_nil (p : Project) : runUpdates p [] = (p, []) := rfl

@[simp] theorem runUpdates_cons (p : Project) (e : Event) (es : List Event) :
    runUpdates p (e :: es) =
      ((runUpdates (update p e).1 es).1, (update p e).2 :: (runUpdates (update p e).1 es).2) :=
  rfl

/-! ### What `update` reads and writes -/

/-- An event `needRebuild` counts, unless it is a `go.mod` file: Go source, whose name (the whole
path `update` receives) does not begin with `.#`, not held by the view. -/
def qualifying (e : Event) : Bool :=
  hasSuffix e.name goext && !hasPrefix e.name emacsLockPrefix && !e.inOverlay

/-- `needRebuild` by cases: a `go.mod` file, a qualifying event, any other event. -/
theorem needRebuild_eq (p : Project) (e : Event) : needRebuild p e =
    if hasSuffix e.name gomod then (true, p)
    else if qualifying e then
      if 20 < p.changedCount + 1 then (true, { p with changedCount := 0 })
      else (decide (60 * second ≤ e.now - p.lastBuildTime),
        { p with changedCount := p.changedCount + 1 })
    else (false, p) := by
  unfold needRebuild qualifying
  by_cases h₁ : hasSuffix e.name gomod <;> by_cases h₂ : hasPrefix e.name emacsLockPrefix <;>
    by_cases h₃ : hasSuffix e.name goext <;> by_cases h₄ : e.inOverlay <;> simp [*]

/-- `needRebuild` changes the counter only. -/
theorem needRebuild_snd (p : Project) (e : Event) :
    (needRebuild p e).2 = { p with changedCount := (needRebuild p e).2.changedCount } := by
  rw [needRebuild_eq]
  split_ifs <;> rfl

/-- `update` by cases on the decision. -/
theorem update_eq (p : Project) (e : Event) :
    update p e = if (needRebuild p e).1 then
      ({ (needRebuild p e).2 with lastBuildTime := e.doneTime },
        ⟨true, rebuildGopapthCache p e.name ++ rebuildModuleCache p e.name⟩)
    else ((needRebuild p e).2, ⟨false, []⟩) := by
  have hg : rebuildGopapthCache (needRebuild p e).2 = rebuildGopapthCache p := by
    rw [needRebuild_snd]; rfl
  have hm : rebuildModuleCache (needRebuild p e).2 = rebuildModuleCache p := by
    rw [needRebuild_snd]; rfl
  rw [← hg, ← hm, update]
  rcases needRebuild p e with ⟨_ | _, p'⟩ <;> rfl

@[simp] theorem update_modules (p : Project) (e : Event) :
    (update p e).1.modules = p.modules := by
  rw [update_eq, needRebuild_snd]; split <;> rfl

@[simp] theorem update_gopath (p : Project) (e : Event) :
    (update p e).1.gopath = p.gopath := by
  rw [update_eq, needRebuild_snd]; split <;> rfl

end Bingo
