import Bingo.Workspace

/-! `findReferences`: walk the cache, skip every package that neither is the queried object's
package nor imports it directly, and collect the identifiers of `Uses` whose object is
`sameObj` to the query. With a context that is never cancelled the result is exactly the
`sameObj` uses of the packages that pass this filter. That makes it sound and complete for
`sameObj`, and `sameObj` equates distinct declarations that share an exported name and a
package path. -/

namespace Bingo

/-- The second clause of `sameObj`: owned by packages of one path, one name, both exported. -/
def exportedTwins (u : Unicode) (x y : Obj) : Bool :=
  match x.pkg, y.pkg with
  | some px, some py => px.path == py.path && x.name == y.name && x.exported u && y.exported u
  | _, _ => false

/-- The last clause of `sameObj`: package names of one imported package. -/
def importSame (x y : Obj) : Bool :=
  match x.kind, y.kind with
  | .pkgName a, .pkgName b => a == b
  | _, _ => false

/-- `sameObj`. -/
def sameObj (u : Unicode) (x y : Obj) : Bool :=
  x == y || exportedTwins u x y || (x.pkg.isNone && y.pkg.isNone && x.name == y.name) ||
    importSame x y

theorem exportedTwins_iff {u : Unicode} {x y : Obj} :
    exportedTwins u x y ↔ ∃ px py, x.pkg = some px ∧ y.pkg = some py ∧ px.path = py.path ∧
      x.name = y.name ∧ x.exported u ∧ y.exported u := by
  unfold exportedTwins
  rcases x.pkg with _ | px <;> rcases y.pkg with _ | py <;> simp [and_assoc]

theorem importSame_iff {x y : Obj} :
    importSame x y ↔ ∃ a, x.kind = .pkgName a ∧ y.kind = .pkgName a := by
  constructor
  · unfold importSame
    split
    · rename_i a b hx hy
      intro h
      exact ⟨a, hx, by simpa [eq_comm] using hy.trans (congrArg _ (beq_iff_eq.1 h).symm)⟩
    · intro h
      cases h
  · rintro ⟨a, hx, hy⟩
    simp [importSame, hx, hy]

theorem sameObj_iff (u : Unicode) (x y : Obj) :
    sameObj u x y ↔ x = y ∨
      (∃ px py, x.pkg = some px ∧ y.pkg = some py ∧ px.path = py.path ∧ x.name = y.name ∧
        x.exported u ∧ y.exported u) ∨
      (x.pkg = none ∧ y.pkg = none ∧ x.name = y.name) ∨
      (∃ a, x.kind = .pkgName a ∧ y.kind = .pkgName a) := by
  simp only [sameObj, Bool.or_eq_true, beq_iff_eq, exportedTwins_iff, importSame_iff,
    Bool.and_eq_true, Option.isNone_iff_eq_none, or_assoc, and_assoc]

/-- `cache.BuiltinPkg`. -/
def builtinPkg : String := "builtin"

/-- The package path `findReferences` searches from. -/
def defPkgPath (queryObj : Obj) : String :=
  match queryObj.pkg with
  | some p => p.path
  | none => builtinPkg

/-- The package filter of `findReferences`: the defining package and its direct importers. -/
def searched (defPath : String) (pkg : Package) : Prop :=
  defPath = builtinPkg ∨ defPath ∈ pkg.imports ∨ pkg.pkgPath = defPath

instance (defPath : String) (pkg : Package) : Decidable (searched defPath pkg) :=
  inferInstanceAs (Decidable (_ ∨ _ ∨ _))

/-- What the walk function of `findReferences` appends for one package. -/
def usesIn (u : Unicode) (queryObj : Obj) (pkg : Package) : List Ident :=
  if searched (defPkgPath queryObj) pkg then
    match pkg.typesInfo with
    | none => []
    | some info => (info.uses.filter fun e => sameObj u queryObj e.2).map Prod.fst
  else []

/-- `findReferences`. -/
def findReferences (u : Unicode) (ctx : Context) (pkgs : List Package) (queryObj : Obj) :
    Except ContextError (List Ident) :=
  walk (fun k pkg refs =>
    match ctx.err k with
    | some e => .error e
    | none => .ok (refs ++ usesIn u queryObj pkg)) pkgs 0 []

/-! ### The result of the walk -/

/-- The walk of `findReferences` fails at the first package boundary where the context has an
error, and otherwise returns the uses of the searched packages. -/
theorem walk_references (ctx : Context) (g : Package → List Ident) :
    ∀ (ps : List Package) (k : Nat) (acc : List Ident),
      walk (fun k pkg refs =>
        match ctx.err k with
        | some e => .error e
        | none => .ok (refs ++ g pkg)) ps k acc =
      match (List.range' k ps.length).findSome? ctx.err with
      | some e => .error e
      | none => .ok (acc ++ ps.flatMap g)
  | [], _, _ => by simp [walk]
  | p :: ps, k, acc => by
    simp only [walk, List.length_cons, List.range'_succ, List.findSome?_cons]
    rcases ctx.err k with _ | e
    · simp [walk_references ctx g ps (k + 1)]
    · rfl

theorem findReferences_eq (u : Unicode) (ctx : Context) (pkgs : List Package) (q : Obj) :
    findReferences u ctx pkgs q =
      match (List.range' 0 pkgs.length).findSome? ctx.err with
      | some e => .error e
      | none => .ok (pkgs.flatMap (usesIn u q)) := by
  simpa using walk_references ctx (usesIn u q) pkgs 0 []

/-- Whatever the context does, a result that is returned is the uses of the searched packages. -/
theorem findReferences_eq_of_ok {u : Unicode} {ctx : Context} {pkgs : List Package} {q : Obj}
    {refs : List Ident} (h : findReferences u ctx pkgs q = .ok refs) :
    refs = pkgs.flatMap (usesIn u q) := by
  rw [findReferences_eq] at h
  split at h <;> cases h
  rfl

/-- With a context that is never cancelled, the search returns the uses of the searched
packages. -/
theorem findReferences_background (u : Unicode) (pkgs : List Package) (q : Obj) :
    findReferences u .background pkgs q = .ok (pkgs.flatMap (usesIn u q)) := by
  rw [findReferences_eq, show (List.range' 0 pkgs.length).findSome? Context.background.err = none
    from List.findSome?_eq_none_iff.2 fun _ _ => rfl]

theorem mem_usesIn {u : Unicode} {q : Obj} {pkg : Package} {id : Ident} :
    id ∈ usesIn u q pkg ↔ searched (defPkgPath q) pkg ∧
      ∃ info, pkg.typesInfo = some info ∧ ∃ o, (id, o) ∈ info.uses ∧ sameObj u q o := by
  unfold usesIn
  split_ifs with hs
  · rcases pkg.typesInfo with _ | info <;> simp [hs]
  · simp [hs]

/-! ### Soundness and completeness -/

/-- `o` denotes the same entity as `q`: it is `q` itself, the copy of `q`'s declaration in a test
variant of its package (same package path, same file and offset), a package name importing the
package `q` imports, or a universe object of `q`'s name when `q` is one. -/
def DenotesSame (q o : Obj) : Prop :=
  o = q ∨ (∃ pq po, q.pkg = some pq ∧ o.pkg = some po ∧ pq.path = po.path ∧ o.pos = q.pos) ∨
    (∃ a, q.kind = .pkgName a ∧ o.kind = .pkgName a) ∨
    (q.pkg = none ∧ o.pkg = none ∧ o.name = q.name)

/-- Every identifier a search returns is a use, in a cached package, of an object that
`sameObj` takes for the query: the query itself, an object of a package with the query's
path and with the query's name when both are exported, a universe object of the query's name
when the query is one, or a package name of the package the query imports. -/
theorem findReferences_sound {u : Unicode} {ctx : Context} {pkgs : List Package} {q : Obj}
    {refs : List Ident} (h : findReferences u ctx pkgs q = .ok refs) :
    ∀ id ∈ refs, ∃ pkg ∈ pkgs, ∃ info, pkg.typesInfo = some info ∧ ∃ o, (id, o) ∈ info.uses ∧
      (o = q ∨
        (∃ pq po, q.pkg = some pq ∧ o.pkg = some po ∧ pq.path = po.path ∧ o.name = q.name ∧
          q.exported u ∧ o.exported u) ∨
        (q.pkg = none ∧ o.pkg = none ∧ o.name = q.name) ∨
        (∃ a, q.kind = .pkgName a ∧ o.kind = .pkgName a)) := by
  rw [findReferences_eq_of_ok h]
  intro id hid
  obtain ⟨pkg, hpkg, hid⟩ := List.mem_flatMap.1 hid
  obtain ⟨-, info, hinfo, o, ho, hsame⟩ := mem_usesIn.1 hid
  refine ⟨pkg, hpkg, info, hinfo, o, ho, ?_⟩
  rcases (sameObj_iff u q o).1 hsame with rfl | ⟨pq, po, h1, h2, h3, h4, h5, h6⟩ | ⟨h1, h2, h3⟩ | h
  · exact .inl rfl
  · exact .inr (.inl ⟨pq, po, h1, h2, h3, h4.symm, h5, h6⟩)
  · exact .inr (.inr (.inl ⟨h1, h2, h3.symm⟩))
  · exact .inr (.inr (.inr h))

/-- Fields `Name` of `type A struct{ Name int }` and of `type B struct{ Name int }` in package
`p`, and a use of each. -/
def pkgP : TypesPackage := ⟨1, "p"⟩

def fieldA : Obj := ⟨1, .var, "Name", some pkgP, ⟨"p.go", 20⟩⟩

def fieldB : Obj := ⟨2, .var, "Name", some pkgP, ⟨"p.go", 50⟩⟩

def useA : Ident := ⟨10, ⟨"p.go", 100⟩, "Name"⟩

def useB : Ident := ⟨11, ⟨"p.go", 120⟩, "Name"⟩

def twoFields : Package := ⟨"p", "p", [], some ⟨[(useA, fieldA), (useB, fieldB)], []⟩, [], []⟩

theorem findReferences_sound_twoFields :
    findReferences Unicode.ascii .background [twoFields] fieldA = .ok [useA, useB] ∧
    ∀ id ∈ [useA, useB], ∃ pkg ∈ [twoFields], ∃ info, pkg.typesInfo = some info ∧
      ∃ o, (id, o) ∈ info.uses ∧
      (o = fieldA ∨
        (∃ pq po, fieldA.pkg = some pq ∧ o.pkg = some po ∧ pq.path = po.path ∧
          o.name = fieldA.name ∧ fieldA.exported Unicode.ascii ∧ o.exported Unicode.ascii) ∨
        (fieldA.pkg = none ∧ o.pkg = none ∧ o.name = fieldA.name) ∨
        (∃ a, fieldA.kind = .pkgName a ∧ o.kind = .pkgName a)) :=
  ⟨rfl, @findReferences_sound Unicode.ascii .background [twoFields] fieldA [useA, useB] rfl⟩

/-- A search for field `A.Name` returns the use of field `B.Name`, a different declaration. -/
theorem findReferences_returns_other_field :
    ¬ ∀ (u : Unicode) (ctx : Context) (pkgs : List Package) (q : Obj) (refs : List Ident),
      findReferences u ctx pkgs q = .ok refs →
      ∀ id ∈ refs, ∃ pkg ∈ pkgs, ∃ info, pkg.typesInfo = some info ∧
        ∃ o, (id, o) ∈ info.uses ∧ DenotesSame q o := by
  intro h
  obtain ⟨pkg, hpkg, info, hinfo, o, ho, hsame⟩ :=
    h Unicode.ascii .background [twoFields] fieldA [useA, useB] rfl useB (by simp)
  obtain rfl : pkg = twoFields := List.mem_singleton.1 hpkg
  obtain rfl : info = ⟨[(useA, fieldA), (useB, fieldB)], []⟩ := Option.some.inj hinfo.symm
  obtain rfl : o = fieldB := by simpa [useA, useB] using ho
  revert hsame
  simp [DenotesSame, fieldA, fieldB, pkgP]

/-- With a context that is never cancelled, the identifiers a search for an object of package
`P` returns are exactly the `sameObj` uses of it in the cached packages with type information
that are searched: every package when `P` is the `builtin` package, otherwise `P` itself and
the packages importing it directly. -/
theorem findReferences_complete (u : Unicode) (pkgs : List Package) {q : Obj} {P : TypesPackage}
    (hq : q.pkg = some P) (id : Ident) :
    ∃ refs, findReferences u .background pkgs q = .ok refs ∧
      (id ∈ refs ↔ ∃ pkg ∈ pkgs,
        (P.path = builtinPkg ∨ P.path ∈ pkg.imports ∨ pkg.pkgPath = P.path) ∧
        ∃ info, pkg.typesInfo = some info ∧ ∃ o, (id, o) ∈ info.uses ∧ sameObj u q o) := by
  refine ⟨_, findReferences_background u pkgs q, ?_⟩
  simp only [List.mem_flatMap, mem_usesIn, searched, defPkgPath, hq]

/-- Package `p` declares a method `M`; package `i` imports `p`; package `r` imports only `i` and
calls `M` on a value it obtains from `i`. -/
def methodM : Obj := ⟨1, .func, "M", some pkgP, ⟨"p/t.go", 30⟩⟩

def callM : Ident := ⟨7, ⟨"r/r.go", 40⟩, "M"⟩

def indirect : List Package :=
  [⟨"p", "p", [], some ⟨[], []⟩, [], []⟩, ⟨"i", "i", ["p"], some ⟨[], []⟩, [], []⟩,
    ⟨"r", "r", ["i"], some ⟨[(callM, methodM)], []⟩, [], []⟩]

theorem findReferences_complete_indirect :
    methodM.pkg = some pkgP ∧
    ∃ refs, findReferences Unicode.ascii .background indirect methodM = .ok refs ∧
      (callM ∈ refs ↔ ∃ pkg ∈ indirect,
        (pkgP.path = builtinPkg ∨ pkgP.path ∈ pkg.imports ∨ pkg.pkgPath = pkgP.path) ∧
        ∃ info, pkg.typesInfo = some info ∧ ∃ o, (callM, o) ∈ info.uses ∧
          sameObj Unicode.ascii methodM o) :=
  ⟨rfl, findReferences_complete Unicode.ascii indirect rfl callM⟩

/-- The call of `M` in package `r`, which reaches `p` only through `i`, is not found. -/
theorem findReferences_misses_indirect_use :
    ¬ ∀ (u : Unicode) (pkgs : List Package) (q : Obj) (P : TypesPackage), q.pkg = some P →
      ∀ pkg ∈ pkgs, ∀ info, pkg.typesInfo = some info → ∀ id o, (id, o) ∈ info.uses →
        (o = q ∨ ∃ po, o.pkg = some po ∧ po.path = P.path ∧ o.pos = q.pos) →
        ∃ refs, findReferences u .background pkgs q = .ok refs ∧ id ∈ refs := by
  intro h
  obtain ⟨refs, hrefs, hmem⟩ := h Unicode.ascii indirect methodM pkgP rfl
    ⟨"r", "r", ["i"], some ⟨[(callM, methodM)], []⟩, [], []⟩ (by simp [indirect]) _ rfl callM methodM
    (by simp) (.inl rfl)
  obtain rfl : refs = [] := by
    have : findReferences Unicode.ascii .background indirect methodM = .ok [] := rfl
    rw [this] at hrefs
    exact (Except.ok.inj hrefs).symm
  simp at hmem

end Bingo
