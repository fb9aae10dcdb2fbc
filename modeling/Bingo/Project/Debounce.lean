import Bingo.Project.Update

/-! The watcher's debounce over whole runs. `Policy` is the policy as a machine of its own: it
counts the events it calls countable (Go source, not an editor lock file by its basename, not held
by the view) since `Init` and remembers when the last rebuild ended, and it rebuilds on a `go.mod`
file, on every 21st countable event, and on a countable event 60 seconds or more after the last
rebuild. Every run of `update` from `Init` on events with absolute names, none of them an editor
lock file, makes the policy's decisions, with `changedCount` the number of countable events since
`Init` modulo 21 (`update_follows_policy`).

The counter restarts only when it passes 20. A rebuild on time, or for a `go.mod` file, leaves it
as it is, so the next count-triggered rebuild can come fewer than 21 countable events after the
last rebuild (`update_count_survives_rebuild`).

`needRebuild` tests the prefix `.#` on the whole name it receives, not on the basename. The
watcher's names are absolute paths, so the test never holds and an editor lock file such as
`/w/.#a.go` is counted like the file it locks. -/

namespace Bingo

/-- An editor lock file, as the policy names it: its basename begins with `.#`. -/
def isLockFile (name : String) : Bool := hasPrefix (base name) emacsLockPrefix

/-- An event the policy counts: Go source, not an editor lock file, not held by the view. -/
def countable (e : Event) : Bool := hasSuffix e.name goext && !isLockFile e.name && !e.inOverlay

/-- A name that is an absolute path does not begin with `.#`. -/
theorem hasPrefix_emacsLockPrefix_of_abs {s : String} (h : hasPrefix s "/") :
    hasPrefix s emacsLockPrefix = false := by
  obtain ⟨t, ht⟩ := hasPrefix_iff.1 h
  simp only [hasPrefix, emacsLockPrefix, ← ht]
  rfl

/-- On an absolute name that is not an editor lock file, `needRebuild`'s test and the policy's
agree. -/
theorem qualifying_eq_countable {e : Event} (habs : hasPrefix e.name "/")
    (hlock : isLockFile e.name = false) : qualifying e = countable e := by
  simp [qualifying, countable, hasPrefix_emacsLockPrefix_of_abs habs, hlock]

/-- The debounce policy: the number of countable events since `Init`, and the clock when the last
rebuild ended. -/
structure Policy where
  qualified : Nat
  lastBuild : Nat
  deriving DecidableEq, Repr

namespace Policy

/-- A `go.mod` file, or a countable event that is the 21st, 42nd, ... since `Init`, or that comes
at least 60 seconds after the last rebuild. -/
def trigger (a : Policy) (e : Event) : Bool :=
  hasSuffix e.name gomod ||
    countable e && ((a.qualified + 1) % 21 == 0 || decide (60 * second ≤ e.now - a.lastBuild))

def step (a : Policy) (e : Event) : Policy where
  qualified := a.qualified + if countable e then 1 else 0
  lastBuild := if a.trigger e then e.doneTime else a.lastBuild

/-- The policy's decision on each event of a run. -/
def triggers : Policy → List Event → List Bool
  | _, [] => []
  | a, e :: es => a.trigger e :: (a.step e).triggers es

def run (a : Policy) (es : List Event) : Policy := es.foldl step a

theorem run_qualified : ∀ (a : Policy) (es : List Event),
    (a.run es).qualified = a.qualified + es.countP countable
  | _, [] => rfl
  | a, e :: es => by
    rw [run, List.foldl_cons, ← run, run_qualified, List.countP_cons]
    dsimp only [step]
    omega

end Policy

/-! ### `update` makes the policy's decisions -/

/-- A `go.mod` file is not Go source. -/
theorem goext_of_gomod {e : Event} (h : hasSuffix e.name gomod) : hasSuffix e.name goext = false :=
  Bool.eq_false_iff.2 fun hq => absurd (List.suffix_of_suffix_length_le
    (List.isSuffixOf_iff_suffix.1 hq) (List.isSuffixOf_iff_suffix.1 h) (by decide)) (by decide)

/-- A project in the state the policy `a` describes. -/
def Simulates (p : Project) (a : Policy) : Prop :=
  p.changedCount = a.qualified % 21 ∧ p.lastBuildTime = a.lastBuild

/-- One event on which `needRebuild`'s test agrees with the policy's: `update` decides as the
policy does, and stays in the state it describes. -/
theorem update_simulates {p : Project} {a : Policy} (h : Simulates p a) {e : Event}
    (he : qualifying e = countable e) :
    (update p e).2.rebuild = a.trigger e ∧ Simulates (update p e).1 (a.step e) := by
  obtain ⟨hc, ht⟩ := h
  simp only [update_eq, needRebuild_eq, Policy.trigger, Policy.step, Simulates, he]
  by_cases hm : hasSuffix e.name gomod
  · simp [hm, countable, goext_of_gomod hm, hc]
  by_cases hq : countable e
  · by_cases hn : 20 < p.changedCount + 1
    · have h21 : (a.qualified + 1) % 21 = 0 := by omega
      simp [hm, hq, hn, h21]
    · have h21 : (a.qualified + 1) % 21 ≠ 0 := by omega
      by_cases hl : 60 * second ≤ e.now - p.lastBuildTime <;>
        simp [hm, hq, hn, h21, hl, ← ht] <;> omega
  · simp [hm, hq, hc, ht]

/-- A whole run on whose events the two tests agree: `update` decides as the policy does at every
event. -/
theorem runUpdates_simulates : ∀ {p : Project} {a : Policy}, Simulates p a → ∀ es : List Event,
    (∀ e ∈ es, qualifying e = countable e) →
    (runUpdates p es).2.map (·.rebuild) = a.triggers es ∧ Simulates (runUpdates p es).1 (a.run es)
  | _, _, h, [], _ => ⟨rfl, h⟩
  | _, a, h, e :: es, hes => by
    obtain ⟨h₁, h₂⟩ := update_simulates h (hes e (List.mem_cons_self _ _))
    obtain ⟨ih₁, ih₂⟩ := runUpdates_simulates h₂ es fun e' he' => hes e' (List.mem_cons_of_mem _ he')
    exact ⟨by rw [runUpdates_cons, List.map_cons, h₁, ih₁]; rfl, ih₂⟩

@[simp] theorem init_changedCount (layout : Layout) (now : Nat) :
    (Project.init layout now).changedCount = 0 := by
  cases layout <;> simp [Project.init, createGoPath]

theorem init_simulates (layout : Layout) (now : Nat) :
    Simulates (Project.init layout now) ⟨0, now⟩ :=
  ⟨init_changedCount layout now, rfl⟩

/-- Over every run after `Init` whose events have absolute names and include no editor lock file,
whatever the layout, the clock and the overlay, `update` rebuilds exactly when the debounce policy
says so, and `changedCount` is the number of countable events since `Init` modulo 21. -/
theorem update_follows_policy (layout : Layout) (t₀ : Nat) (es : List Event)
    (habs : ∀ e ∈ es, hasPrefix e.name "/") (hlock : ∀ e ∈ es, isLockFile e.name = false) :
    (runUpdates (Project.init layout t₀) es).2.map (·.rebuild) = Policy.triggers ⟨0, t₀⟩ es ∧
      (runUpdates (Project.init layout t₀) es).1.changedCount = es.countP countable % 21 := by
  obtain ⟨h₁, h₂, -⟩ := runUpdates_simulates (init_simulates layout t₀) es
    fun e he => qualifying_eq_countable (habs e he) (hlock e he)
  rw [Policy.run_qualified, Nat.zero_add] at h₂
  exact ⟨h₁, h₂⟩

/-- A change to `/w/a.go`, then to `/w/go.mod`, in module mode. -/
theorem update_follows_policy_goFiles :
    let es : List Event := [⟨"/w/a.go", false, 0, 0⟩, ⟨"/w/go.mod", false, 0, 0⟩]
    (∀ e ∈ es, hasPrefix e.name "/") ∧ (∀ e ∈ es, isLockFile e.name = false) ∧
      (runUpdates (Project.init (.modules ["/w/go.mod"]) 0) es).2.map (·.rebuild) =
        Policy.triggers ⟨0, 0⟩ es ∧
      (runUpdates (Project.init (.modules ["/w/go.mod"]) 0) es).1.changedCount = es.countP countable % 21 :=
  have habs : ∀ e ∈ ([⟨"/w/a.go", false, 0, 0⟩, ⟨"/w/go.mod", false, 0, 0⟩] : List Event),
      hasPrefix e.name "/" := by decide
  have hlock : ∀ e ∈ ([⟨"/w/a.go", false, 0, 0⟩, ⟨"/w/go.mod", false, 0, 0⟩] : List Event),
      isLockFile e.name = false := by decide
  ⟨habs, hlock, update_follows_policy (.modules ["/w/go.mod"]) 0 _ habs hlock⟩

/-- The lock file `/w/.#a.go` is counted: `needRebuild`'s test on the whole path misses it. -/
example : isLockFile "/w/.#a.go" = true ∧
    (update (Project.init (.modules ["/w/go.mod"]) 0) ⟨"/w/.#a.go", false, 0, 0⟩).1.changedCount = 1 := by
  decide

/-! ### The count is not restarted by every rebuild -/

/-- The policy as it would be if every rebuild restarted the count: a rebuild on the 21st
countable event since the last rebuild. -/
structure ResetPolicy where
  count : Nat
  lastBuild : Nat
  deriving DecidableEq, Repr

namespace ResetPolicy

def trigger (a : ResetPolicy) (e : Event) : Bool :=
  hasSuffix e.name gomod ||
    countable e && (a.count + 1 == 21 || decide (60 * second ≤ e.now - a.lastBuild))

def step (a : ResetPolicy) (e : Event) : ResetPolicy :=
  if a.trigger e then ⟨0, e.doneTime⟩
  else ⟨a.count + if countable e then 1 else 0, a.lastBuild⟩

def triggers : ResetPolicy → List Event → List Bool
  | _, [] => []
  | a, e :: es => a.trigger e :: (a.step e).triggers es

end ResetPolicy

/-- One change to `/w/a.go` a minute after `Init`, then twenty more at the same instant. The first
rebuilds on time; the 21st rebuilds on the count, the 20th countable event after that rebuild. -/
theorem update_count_survives_rebuild :
    ¬ ∀ (layout : Layout) (t₀ : Nat) (es : List Event),
      (runUpdates (Project.init layout t₀) es).2.map (·.rebuild) = ResetPolicy.triggers ⟨0, t₀⟩ es := by
  intro h
  exact absurd (h (.gopath true) 0 (List.replicate 21 ⟨"/w/a.go", false, 60 * second, 60 * second⟩))
    (by decide)

end Bingo
