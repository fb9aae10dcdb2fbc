import Bingo.Project.Update

/-! Which units a rebuild reloads. `createGoModule` sorts the modules greatest root first, and
`rebuildModuleCache` reloads the first whose root is a string prefix of the event's directory.
Two roots that are prefixes of one directory are prefixes of each other, and the shorter sorts
first among them only if it is not a proper prefix of the longer one: so over every run from
`Init` the module reloaded is the one with the longest root that is a string prefix of the
directory (`runUpdates_reloads_longest`).

A string prefix is not a directory above: `/w/a` is a string prefix of `/w/ab`, and a change
under `/w/ab` reloads the module of `/w/a` when there is one, not the module of `/w` that holds
it. In source-path mode no unit is reloaded at all: `createGoPath` keeps its unit in a local
variable, nothing sets `p.gopath`, and `rebuildGopapthCache` returns at once. Its test, were it
reached, asks whether the event's name ends in the unit's root. -/

namespace Bingo

/-- The directory `r` is `d` or a directory above it, comparing whole path elements. -/
def isAncestorDir (r d : String) : Bool := (pathElements r).isPrefixOf (pathElements d)

instance : IsTotal Module rootDirGE :=
  ⟨fun m m' => le_total m'.rootDir.toList m.rootDir.toList⟩

instance : IsTrans Module rootDirGE :=
  ⟨fun a b c (h₁ : b.rootDir.toList ≤ a.rootDir.toList) (h₂ : c.rootDir.toList ≤ b.rootDir.toList) =>
    le_trans h₂ h₁⟩

/-! ### The modules of a project -/

theorem createGoModule_modules (p : Project) (gomodList : List String) :
    (createGoModule p gomodList).modules =
      (p.modules ++ gomodList.map fun v => Module.mk (dir v)).insertionSort rootDirGE := by
  dsimp only [createGoModule]
  split_ifs with h
  · rw [h]; rfl
  · rfl

theorem init_modules_sorted (layout : Layout) (now : Nat) :
    (Project.init layout now).modules.Sorted rootDirGE := by
  cases layout with
  | modules gomodList =>
    show (createGoModule {} gomodList).modules.Sorted rootDirGE
    rw [createGoModule_modules]
    exact List.sorted_insertionSort _ _
  | gopath initOk => exact List.sorted_nil

@[simp] theorem init_gopath (layout : Layout) (now : Nat) :
    (Project.init layout now).gopath = none := by
  cases layout with
  | modules gomodList =>
    show (createGoModule {} gomodList).gopath = none
    dsimp only [createGoModule]
    split_ifs <;> rfl
  | gopath initOk => rfl

@[simp] theorem runUpdates_modules : ∀ (p : Project) (es : List Event),
    (runUpdates p es).1.modules = p.modules
  | _, [] => rfl
  | p, e :: es => by rw [runUpdates_cons, runUpdates_modules, update_modules]

@[simp] theorem runUpdates_gopath : ∀ (p : Project) (es : List Event),
    (runUpdates p es).1.gopath = p.gopath
  | _, [] => rfl
  | p, e :: es => by rw [runUpdates_cons, runUpdates_gopath, update_gopath]

/-! ### The first prefix in the sorted order is the longest -/

/-- A proper prefix sorts first. -/
theorem lt_of_isPrefix_ne : ∀ {l l' : List Char}, l <+: l' → l ≠ l' → l < l'
  | [], [], _, hne => (hne rfl).elim
  | [], _ :: _, _, _ => List.nil_lt_cons _ _
  | _ :: _, [], h, _ => (List.cons_ne_nil _ _ (List.prefix_nil.1 h)).elim
  | a :: l, b :: l', h, hne => by
    obtain ⟨rfl, hl⟩ := List.cons_prefix_cons.1 h
    exact List.Lex.cons (lt_of_isPrefix_ne hl fun e => hne (e ▸ rfl))

/-- In a list sorted greatest root first, every root that is a prefix of `d` is a prefix of the
first such root. -/
theorem find?_hasPrefix_longest {d : String} : ∀ {ms : List Module}, ms.Sorted rootDirGE →
    ∀ {m : Module}, ms.find? (fun m => hasPrefix d m.rootDir) = some m →
    ∀ m' ∈ ms, hasPrefix d m'.rootDir → m'.rootDir.toList <+: m.rootDir.toList
  | [], _, _, h, _, _, _ => nomatch h
  | x :: xs, hs, m, h, m', hm', hp' => by
    rw [List.sorted_cons] at hs
    by_cases hx : hasPrefix d x.rootDir
    · simp only [List.find?_cons, hx, Option.some.injEq] at h
      subst h
      rcases List.mem_cons.1 hm' with rfl | hm'
      · exact List.prefix_refl _
      rw [hasPrefix_iff] at hx hp'
      refine (List.prefix_or_prefix_of_prefix hp' hx).elim id fun hxm => ?_
      by_cases he : x.rootDir.toList = m'.rootDir.toList
      · exact he ▸ List.prefix_refl _
      · exact absurd (hs.1 m' hm' : m'.rootDir.toList ≤ x.rootDir.toList)
          (not_le.2 (lt_of_isPrefix_ne hxm he))
    · simp only [List.find?_cons, hx] at h
      rcases List.mem_cons.1 hm' with rfl | hm'
      · exact (hx hp').elim
      · exact find?_hasPrefix_longest hs.2 h m' hm' hp'

/-- With the modules sorted greatest root first, `rebuildModuleCache` reloads the module whose
root is the longest string prefix of the event's directory, and none when there is no such
root. -/
theorem rebuildModuleCache_longest {p : Project} (hs : p.modules.Sorted rootDirGE)
    (name : String) :
    (rebuildModuleCache p name = [] ∧ ∀ m ∈ p.modules, hasPrefix (dir name) m.rootDir = false) ∨
      ∃ m ∈ p.modules, rebuildModuleCache p name = [.module m] ∧ hasPrefix (dir name) m.rootDir ∧
        ∀ m' ∈ p.modules, hasPrefix (dir name) m'.rootDir → m'.rootDir.toList <+: m.rootDir.toList := by
  unfold rebuildModuleCache
  cases h : p.modules.find? fun m => hasPrefix (dir name) m.rootDir with
  | none => exact .inl ⟨rfl, by simpa using List.find?_eq_none.1 h⟩
  | some m =>
    have hm := List.find?_some h
    exact .inr ⟨m, List.mem_of_find?_eq_some h, rfl, hm, find?_hasPrefix_longest hs h⟩

example : rebuildModuleCache (Project.init (.modules ["/w/go.mod", "/w/a/go.mod"]) 0) "/w/a/b/x.go" =
    [.module ⟨"/w/a"⟩] := by decide

/-- What the watcher reloads for an event, by the longest-root rule: nothing without a rebuild;
with one, the module whose root is the longest string prefix of the event's directory, or nothing
when no root is such a prefix. -/
def ReloadsLongest (ms : List Module) (name : String) (o : Outcome) : Prop :=
  (o.rebuild = false → o.reloads = []) ∧
  (o.rebuild = true →
    ((∀ m ∈ ms, hasPrefix (dir name) m.rootDir = false) ∧ o.reloads = []) ∨
    ∃ m ∈ ms, o.reloads = [.module m] ∧ hasPrefix (dir name) m.rootDir ∧
      ∀ m' ∈ ms, hasPrefix (dir name) m'.rootDir → m'.rootDir.toList <+: m.rootDir.toList)

/-- One event, from a project with no source-path unit and its modules sorted. -/
theorem update_reloads_longest {q : Project} (hs : q.modules.Sorted rootDirGE)
    (hg : q.gopath = none) (e : Event) : ReloadsLongest q.modules e.name (update q e).2 := by
  rw [update_eq]
  split
  · simp only [rebuildGopapthCache, hg, List.nil_append]
    exact ⟨nofun, fun _ => (rebuildModuleCache_longest hs e.name).imp_left And.symm⟩
  · exact ⟨fun _ => rfl, nofun⟩

theorem runUpdates_reloads_longest_of {q : Project} (hs : q.modules.Sorted rootDirGE)
    (hg : q.gopath = none) : ∀ (es : List Event), ∀ eo ∈ es.zip (runUpdates q es).2,
      ReloadsLongest q.modules eo.1.name eo.2
  | [], _, h => nomatch h
  | e :: es, eo, h => by
    rw [runUpdates_cons, List.zip_cons_cons] at h
    rcases List.mem_cons.1 h with rfl | h
    · exact update_reloads_longest hs hg e
    · have ih := runUpdates_reloads_longest_of (q := (update q e).1) (by rwa [update_modules])
        (by rwa [update_gopath]) es eo h
      rwa [update_modules] at ih

/-- Over every run of events from `Init`, an event that does not rebuild reloads nothing, and one
that rebuilds reloads the module whose root is the longest string prefix of the event's
directory, or nothing when no module's root is such a prefix. -/
theorem runUpdates_reloads_longest (layout : Layout) (t₀ : Nat) (es : List Event) :
    let p := Project.init layout t₀
    ∀ eo ∈ es.zip (runUpdates p es).2, ReloadsLongest p.modules eo.1.name eo.2 :=
  runUpdates_reloads_longest_of (init_modules_sorted layout t₀) (init_gopath layout t₀) es

/-- Roots `/w` and `/w/a`, and one change below `/w/a/b`: the module of `/w/a` is reloaded. -/
theorem runUpdates_reloads_longest_nested :
    let p := Project.init (.modules ["/w/go.mod", "/w/a/go.mod"]) 0
    let e : Event := ⟨"/w/a/b/go.mod", false, 0, 0⟩
    (e, ⟨true, [.module ⟨"/w/a"⟩]⟩) ∈ [e].zip (runUpdates p [e]).2 ∧
      ReloadsLongest p.modules e.name ⟨true, [.module ⟨"/w/a"⟩]⟩ :=
  have h : ((⟨"/w/a/b/go.mod", false, 0, 0⟩ : Event), (⟨true, [.module ⟨"/w/a"⟩]⟩ : Outcome)) ∈
      [(⟨"/w/a/b/go.mod", false, 0, 0⟩ : Event)].zip
        (runUpdates (Project.init (.modules ["/w/go.mod", "/w/a/go.mod"]) 0) [⟨"/w/a/b/go.mod", false, 0, 0⟩]).2 := by
    decide
  ⟨h, runUpdates_reloads_longest (.modules ["/w/go.mod", "/w/a/go.mod"]) 0 _ _ h⟩

/-- Module mode with roots `/w` and `/w/a`: a change to `/w/ab/go.mod` reloads the module of
`/w/a`, which is not a directory above `/w/ab`, and not the module of `/w`, which is. Source-path
mode: a change to a `go.mod` file reloads nothing, and the test `rebuildGopapthCache` would make
fails for the unit's own `go.mod`. -/
theorem update_reloads_sibling_module :
    (update (Project.init (.modules ["/w/go.mod", "/w/a/go.mod"]) 0)
        ⟨"/w/ab/go.mod", false, 0, 0⟩).2 = ⟨true, [.module ⟨"/w/a"⟩]⟩ ∧
      isAncestorDir "/w/a" (dir "/w/ab/go.mod") = false ∧
      isAncestorDir "/w" (dir "/w/ab/go.mod") = true ∧
      (update (Project.init (.gopath true) 0) ⟨"/w/p/go.mod", false, 0, 0⟩).2 = ⟨true, []⟩ ∧
      rebuildGopapthCache { gopath := some ⟨"/w/p"⟩ } "/w/p/go.mod" = [] := by
  decide

end Bingo
