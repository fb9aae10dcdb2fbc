import Bingo.Workspace
import Mathlib.Data.Char
import Mathlib.Data.List.Lex
import Mathlib.Data.List.Sort

/-! `implements`, the search behind `textDocument/implementation`. It takes the selected type `T`
(the receiver's type when a method is selected), collects the named types of every cached
package and the universe's `error`, sorts them into the buckets `to`, `from` and `fromPtr` by
assignability, and reports each bucket's types, or the selected method in each of them, in the
order of their printed forms. The three loops share one `seen` map, keyed by object.

The buckets are three filters of the named types by the rules of the implementation search
(`buckets_eq`). In the method case `seen` makes the entries the locations of pairwise distinct
objects (`implements_method_objects`), and when no two methods of the named types are declared
at one place no location comes twice (`implements_method_nodup`). For a bare type nothing is
deduplicated: when no two named types are declared at one place, no location comes twice with
one tag and pointer flag (`implements_type_nodup`), but an interface whose method set is the
selected one's comes twice, tagged `to` and `from`. A
package and its test variant check the same files into distinct objects, and with both cached
a declaration is reported once for each (`implements_reports_test_variant_twice`). -/

namespace Bingo

/-- The classification of the node under the cursor that `implements` distinguishes:
`findInterestingNode`'s action, which is not in the source. -/
inductive Action
  | expr | type | other
  deriving DecidableEq, Repr

/-- What the node under the cursor resolves to: the `*types.Func` that `path[0]` denotes when it
is an identifier of a function, with the type of its receiver when it has one, and
`TypeOf(path[0])`. -/
structure Selection where
  func : Option (Obj × Option Ty)
  typeOf : Option Ty

/-- The start of `implements`: the selected method, if any, and the type `T`. -/
def selectTarget : Action → Selection → Except String (Option Obj × Ty)
  | .expr, ⟨some (_, none), _⟩ => .error "this function is not a method"
  | .expr, ⟨some (m, some recv), _⟩ => .ok (some m, recv)
  | .expr, ⟨none, some t⟩ => .ok (none, t)
  | .type, ⟨_, some t⟩ => .ok (none, t)
  | _, _ => .error "not a type, method, or value"

/-- What the walk function `f` appends for a package: the named types among the type names of
its `Defs`, aliases left out; a package without type information gives none. -/
def definedNamed (p : Package) : List Named :=
  match p.typesInfo with
  | none => []
  | some info => info.defs.filterMap fun
    | .typeName false (.named n) => some n
    | _ => none

/-! ### The buckets -/

structure Buckets where
  to' : List Ty := []
  from' : List Ty := []
  fromPtr : List Ty := []
  deriving DecidableEq, Repr

/-- One iteration of the loop over `allNamed`. -/
def classify (u : Unicode) (T U : Ty) (b : Buckets) : Buckets :=
  if T.isInterface then
    if T.methodSet.length = 0 then b
    else if U.isInterface then
      if U.methodSet.length = 0 then b
      else if !identical T U then
        let b := if assignableTo u U T then { b with to' := b.to' ++ [U] } else b
        if assignableTo u T U then { b with from' := b.from' ++ [U] } else b
      else b
    else if assignableTo u U T then { b with to' := b.to' ++ [U] }
    else if assignableTo u (.pointer U) T then { b with to' := b.to' ++ [.pointer U] }
    else b
  else if U.isInterface then
    if U.methodSet.length = 0 then b
    else if assignableTo u T U then { b with from' := b.from' ++ [U] }
    else if assignableTo u (.pointer T) U then { b with fromPtr := b.fromPtr ++ [U] }
    else b
  else b

def buckets (u : Unicode) (T : Ty) (allNamed : List Named) : Buckets :=
  allNamed.foldl (fun b U => classify u T (.named U) b) {}

/-- `sort.Sort(typesByString(ts))`. -/
def sortTypes (ts : List Ty) : List Ty :=
  ts.insertionSort fun a b => a.string.toList ≤ b.string.toList

/-! ### The locations -/

/-- `lspext.ImplementationLocation`. -/
structure ImplementationLocation where
  location : Location
  type : String
  ptr : Bool
  method : Bool
  deriving DecidableEq, Repr

/-- `source.Deref(t).(*types.Named)`. -/
def derefNamed (t : Ty) : Option Named :=
  match deref t with
  | .named n => some n
  | _ => none

/-- The entry `toLocation` builds for an object. -/
def report (loc : LocationOf) (method : Bool) (obj : Obj) : ImplementationLocation :=
  ⟨loc obj.pos obj.name, "", false, method⟩

/-- `toLocation`, with the `seen` map before and after. -/
def toLocation (u : Unicode) (loc : LocationOf) (method : Option Obj) (seen : List Nat) (t : Ty) :
    Option ImplementationLocation × List Nat :=
  match method with
  | none =>
    match derefNamed t with
    | some nt => (some (report loc false nt.obj), seen)
    | none => (none, seen)
  | some m =>
    match t.lookup u m.pkg m.name with
    | none => (none, seen)
    | some tm =>
      if tm.obj.id ∈ seen then (none, seen) else (some (report loc true tm.obj), tm.obj.id :: seen)

/-- One iteration of the loops over `to`, `from` and `fromPtr`: the entry of `t`, tagged. -/
def collectStep (u : Unicode) (loc : LocationOf) (method : Option Obj) (type : String) (ptr : Bool)
    (s : List Nat × List ImplementationLocation) (t : Ty) : List Nat × List ImplementationLocation :=
  match toLocation u loc method s.1 t with
  | (none, seen) => (seen, s.2)
  | (some l, seen) => (seen, s.2 ++ [{ l with type, ptr }])

/-- The three loops, over the sorted buckets, sharing `seen`. -/
def locations (u : Unicode) (loc : LocationOf) (method : Option Obj) (b : Buckets) :
    List ImplementationLocation :=
  let s := (sortTypes b.to').foldl (collectStep u loc method "to" false) ([], [])
  let s := (sortTypes b.from').foldl (collectStep u loc method "from" false) s
  ((sortTypes b.fromPtr).foldl (collectStep u loc method "from" true) s).2

/-- `implements`, from the node under the cursor on, over the cached packages in walk order. -/
def implements (u : Unicode) (loc : LocationOf) (pkgs : List Package) (action : Action)
    (sel : Selection) : Except String (List ImplementationLocation) := do
  let (method, T) ← selectTarget action sel
  match walk (fun _ p acc => .ok (acc ++ definedNamed p)) pkgs 0 [] with
  | .error e => .error e.message
  | .ok allNamed => .ok (locations u loc method (buckets u T (allNamed ++ [errorType])))

/-! ### The search returns -/

/-- The named types `implements` tests. -/
def allNamed (pkgs : List Package) : List Named := pkgs.flatMap definedNamed ++ [errorType]

/-- Once the target is selected, the search returns the locations of the buckets of the cached
packages' named types. -/
theorem implements_eq {u : Unicode} {loc : LocationOf} {pkgs : List Package} {action : Action}
    {sel : Selection} {method : Option Obj} {T : Ty} (hs : selectTarget action sel = .ok (method, T)) :
    implements u loc pkgs action sel = .ok (locations u loc method (buckets u T (allNamed pkgs))) := by
  have hw := walk_of_ok (fun p acc => acc ++ definedNamed p) pkgs 0 []
  simp only [implements, hs, bind, Except.bind, hw, ← List.flatMap_eq_foldl, allNamed]

/-! ### The buckets are filters -/

/-- The rule for `to`: with `T` a non-empty interface, a non-empty interface `U` other than `T`
that is assignable to `T`; a concrete `U` that is; or else `*U`, when that is. -/
def toOf (u : Unicode) (T U : Ty) : Option Ty :=
  if T.isInterface ∧ T.methodSet ≠ [] then
    if U.isInterface then
      if U.methodSet ≠ [] ∧ identical T U = false ∧ assignableTo u U T then some U else none
    else if assignableTo u U T then some U
    else if assignableTo u (.pointer U) T then some (.pointer U)
    else none
  else none

/-- The rule for `from`: a non-empty interface `U` to which `T` is assignable, `T` being a
concrete type or a non-empty interface other than `U`. -/
def fromOf (u : Unicode) (T U : Ty) : Bool :=
  U.isInterface && U.methodSet ≠ [] && assignableTo u T U &&
    (!T.isInterface || T.methodSet ≠ [] && !identical T U)

/-- The rule for `fromPtr`: a non-empty interface `U` to which the concrete `T` is not
assignable and `*T` is. -/
def fromPtrOf (u : Unicode) (T U : Ty) : Bool :=
  !T.isInterface && U.isInterface && U.methodSet ≠ [] && !assignableTo u T U &&
    assignableTo u (.pointer T) U

theorem classify_eq (u : Unicode) (T U : Ty) (b : Buckets) :
    classify u T U b = ⟨b.to' ++ (toOf u T U).toList,
      b.from' ++ if fromOf u T U then [U] else [], b.fromPtr ++ if fromPtrOf u T U then [U] else []⟩ := by
  unfold classify toOf fromOf fromPtrOf
  cases hT : T.isInterface with
  | false =>
    cases hU : U.isInterface with
    | false => simp
    | true =>
      by_cases hm : U.methodSet = []
      · simp [hm]
      · by_cases h₁ : assignableTo u T U <;> by_cases h₂ : assignableTo u T.pointer U <;>
          simp [hm, h₁, h₂]
  | true =>
    by_cases hmT : T.methodSet = []
    · simp [hmT]
    cases hU : U.isInterface with
    | false =>
      by_cases h₁ : assignableTo u U T <;> by_cases h₂ : assignableTo u U.pointer T <;>
        simp [hmT, h₁, h₂]
    | true =>
      by_cases hmU : U.methodSet = []
      · simp [hmT, hmU]
      by_cases hid : identical T U <;> by_cases h₁ : assignableTo u U T <;>
        by_cases h₂ : assignableTo u T U <;> simp [hmT, hmU, hid, h₁, h₂]

/-- The loop over the named types fills each bucket with the types its rule admits, in order. -/
theorem buckets_eq (u : Unicode) (T : Ty) (ns : List Named) :
    buckets u T ns = ⟨ns.filterMap (toOf u T ∘ .named),
      (ns.filter (fromOf u T ∘ .named)).map .named, (ns.filter (fromPtrOf u T ∘ .named)).map .named⟩ := by
  suffices ∀ b : Buckets, ns.foldl (fun b U => classify u T (.named U) b) b =
      ⟨b.to' ++ ns.filterMap (toOf u T ∘ .named), b.from' ++ (ns.filter (fromOf u T ∘ .named)).map .named,
        b.fromPtr ++ (ns.filter (fromPtrOf u T ∘ .named)).map .named⟩ from this {}
  induction ns with
  | nil => intro b; simp
  | cons n ns ih =>
    intro b
    rw [List.foldl_cons, ih, classify_eq]
    cases h : toOf u T (.named n) <;>
      by_cases hf : fromOf u T (.named n) <;> by_cases hp : fromPtrOf u T (.named n) <;>
      simp [List.filterMap_cons, List.filter_cons, h, hf, hp]

theorem deref_of_toOf {u : Unicode} {T : Ty} {n : Named} {t : Ty}
    (h : toOf u T (.named n) = some t) : deref t = .named n := by
  unfold toOf at h
  split_ifs at h <;> cases h <;> rfl

/-- Every type in a bucket is a named type of the search, or a pointer to one. -/
theorem deref_of_mem_buckets {u : Unicode} {T : Ty} {ns : List Named} {t : Ty}
    (h : t ∈ (buckets u T ns).to' ++ (buckets u T ns).from' ++ (buckets u T ns).fromPtr) :
    ∃ n ∈ ns, deref t = .named n := by
  rw [buckets_eq] at h
  simp only [List.mem_append, List.mem_filterMap, List.mem_map, List.mem_filter] at h
  rcases h with (⟨n, hn, ht⟩ | ⟨n, ⟨hn, -⟩, rfl⟩) | ⟨n, ⟨hn, -⟩, rfl⟩
  · exact ⟨n, hn, deref_of_toOf ht⟩
  · exact ⟨n, hn, rfl⟩
  · exact ⟨n, hn, rfl⟩

/-! ### A bare type: every bucket type is reported -/

theorem foldl_collectStep_none (u : Unicode) (loc : LocationOf) (type : String) (ptr : Bool) :
    ∀ (ts : List Ty) (s : List Nat × List ImplementationLocation),
      ts.foldl (collectStep u loc none type ptr) s =
        (s.1, s.2 ++ (ts.filterMap derefNamed).map fun n => { report loc false n.obj with type, ptr })
  | [], s => by simp
  | t :: ts, s => by
    rw [List.foldl_cons, foldl_collectStep_none u loc type ptr ts]
    cases h : derefNamed t <;> simp [collectStep, toLocation, h]

theorem locations_none (u : Unicode) (loc : LocationOf) (b : Buckets) :
    locations u loc none b =
      ((sortTypes b.to').filterMap derefNamed).map (fun n => { report loc false n.obj with
          type := "to", ptr := false }) ++
        ((sortTypes b.from').filterMap derefNamed).map (fun n => { report loc false n.obj with
          type := "from", ptr := false }) ++
        ((sortTypes b.fromPtr).filterMap derefNamed).map fun n => { report loc false n.obj with
          type := "from", ptr := true } := by
  simp only [locations, foldl_collectStep_none, List.nil_append]

/-- The entry's location, tag and pointer flag. -/
def ImplementationLocation.key (l : ImplementationLocation) : Location × String × Bool :=
  (l.location, l.type, l.ptr)

/-- The named types are declared at pairwise distinct locations. -/
def TypesApart (loc : LocationOf) (ns : List Named) : Prop :=
  (ns.map fun n => loc n.obj.pos n.obj.name).Nodup

theorem filterMap_derefNamed_sortTypes_to (u : Unicode) (T : Ty) (ns : List Named) :
    ((sortTypes (buckets u T ns).to').filterMap derefNamed).Perm
      (ns.filter fun n => (toOf u T (.named n)).isSome) := by
  refine ((List.perm_insertionSort _ _).filterMap derefNamed).trans ?_
  rw [buckets_eq]
  induction ns with
  | nil => rfl
  | cons n ns ih =>
    cases h : toOf u T (.named n) with
    | none => simpa [List.filterMap_cons, List.filter_cons, h] using ih
    | some t =>
      have ht : derefNamed t = some n := by simp [derefNamed, deref_of_toOf h]
      simpa [List.filterMap_cons, List.filter_cons, h, ht] using ih

theorem filterMap_derefNamed_sortTypes_map (p : Named → Bool) (ns : List Named) :
    ((sortTypes ((ns.filter p).map .named)).filterMap derefNamed).Perm (ns.filter p) := by
  refine ((List.perm_insertionSort _ _).filterMap derefNamed).trans ?_
  rw [List.filterMap_map]
  exact (List.filterMap_some _).symm ▸ List.Perm.refl _

section Keys

variable {loc : LocationOf}

/-- Entries of one tag, for named types of pairwise distinct locations, have distinct keys. -/
theorem nodup_tagged {ns ns' : List Named} (hp : ns'.Perm ns) (c : String × Bool)
    (h : (ns.map fun n => loc n.obj.pos n.obj.name).Nodup) :
    (ns'.map fun n => (loc n.obj.pos n.obj.name, c)).Nodup :=
  List.Nodup.of_map Prod.fst (by rw [List.map_map]; exact (hp.map _).nodup_iff.2 h)

theorem disjoint_tagged {ns ns' : List Named} {c c' : String × Bool} (hc : c ≠ c') :
    List.Disjoint (ns.map fun n => (loc n.obj.pos n.obj.name, c))
      (ns'.map fun n => (loc n.obj.pos n.obj.name, c')) := by
  intro x hx hx'
  obtain ⟨n, -, rfl⟩ := List.mem_map.1 hx
  obtain ⟨n', -, h⟩ := List.mem_map.1 hx'
  exact hc (congrArg Prod.snd h).symm

end Keys

/-- A bare type: when the named types are declared at pairwise distinct locations, no entry is
repeated with its tag and pointer flag. -/
theorem implements_type_nodup {u : Unicode} {loc : LocationOf} {pkgs : List Package}
    {action : Action} {sel : Selection} {T : Ty} {locs : List ImplementationLocation}
    (hs : selectTarget action sel = .ok (none, T)) (ha : TypesApart loc (allNamed pkgs))
    (h : implements u loc pkgs action sel = .ok locs) : (locs.map (·.key)).Nodup := by
  rw [implements_eq hs] at h
  cases h
  have hsub : ∀ p : Named → Bool,
      (((allNamed pkgs).filter p).map fun n => loc n.obj.pos n.obj.name).Nodup :=
    fun p => ha.sublist ((List.filter_sublist _).map _)
  rw [locations_none]
  simp only [List.map_append, List.map_map, Function.comp_def, ImplementationLocation.key, report]
  refine List.nodup_append.2 ⟨List.nodup_append.2 ⟨nodup_tagged
    (filterMap_derefNamed_sortTypes_to u T _) _ (hsub _), ?_, disjoint_tagged (by simp)⟩, ?_, ?_⟩
  · rw [buckets_eq]
    exact nodup_tagged (filterMap_derefNamed_sortTypes_map _ _) _ (hsub _)
  · rw [buckets_eq]
    exact nodup_tagged (filterMap_derefNamed_sortTypes_map _ _) _ (hsub _)
  · exact List.disjoint_append_left.2 ⟨disjoint_tagged (by simp), disjoint_tagged (by simp)⟩

/-! ### A method: `seen` reports each object once -/

/-- The loop invariant of the method case: the entries so far are the locations of objects `os`
that satisfy `C`, are pairwise distinct, and are all in `seen`. -/
def Reported (loc : LocationOf) (C : Obj → Prop) (s : List Nat × List ImplementationLocation) :
    Prop :=
  ∃ os : List Obj, (os.map Obj.id).Nodup ∧ (∀ o ∈ os, o.id ∈ s.1 ∧ C o) ∧
    s.2.map (·.location) = os.map fun o => loc o.pos o.name

theorem reported_nil (loc : LocationOf) (C : Obj → Prop) : Reported loc C ([], []) :=
  ⟨[], List.nodup_nil, fun _ h => absurd h (List.not_mem_nil _), rfl⟩

section Method

variable {u : Unicode} {loc : LocationOf} {m : Obj} {C : Obj → Prop}

/-- One iteration keeps the invariant, when the method found in `t` satisfies `C`. -/
theorem collectStep_reported {type : String} {ptr : Bool} {t : Ty}
    (ht : ∀ tm, t.lookup u m.pkg m.name = some tm → C tm.obj) {s : List Nat × List ImplementationLocation}
    (hs : Reported loc C s) : Reported loc C (collectStep u loc (some m) type ptr s t) := by
  obtain ⟨os, hn, hos, hl⟩ := hs
  cases hlk : t.lookup u m.pkg m.name with
  | none => simpa [collectStep, toLocation, hlk] using ⟨os, hn, hos, hl⟩
  | some tm =>
    by_cases hseen : tm.obj.id ∈ s.1
    · simpa [collectStep, toLocation, hlk, hseen] using ⟨os, hn, hos, hl⟩
    · simp only [collectStep, toLocation, hlk, hseen, if_false]
      refine ⟨os ++ [tm.obj], ?_, fun o ho => ?_, ?_⟩
      · simpa [List.nodup_append] using ⟨hn, fun o ho h => hseen (h ▸ (hos o ho).1)⟩
      · rcases List.mem_append.1 ho with ho | ho
        · exact ⟨List.mem_cons_of_mem _ (hos o ho).1, (hos o ho).2⟩
        · obtain rfl := List.mem_singleton.1 ho
          exact ⟨List.mem_cons_self _ _, ht tm hlk⟩
      · simp [hl, report]

/-- The three loops keep the invariant, when the method found in every bucket type satisfies
`C`. -/
theorem locations_reported (b : Buckets)
    (hC : ∀ t ∈ b.to' ++ b.from' ++ b.fromPtr, ∀ tm, t.lookup u m.pkg m.name = some tm → C tm.obj) :
    ∃ os : List Obj, (os.map Obj.id).Nodup ∧ (∀ o ∈ os, C o) ∧
      (locations u loc (some m) b).map (·.location) = os.map fun o => loc o.pos o.name := by
  have step : ∀ (ts : List Ty), (∀ t ∈ ts, t ∈ b.to' ++ b.from' ++ b.fromPtr) →
      ∀ {type ptr s}, Reported loc C s →
        Reported loc C ((sortTypes ts).foldl (collectStep u loc (some m) type ptr) s) :=
    fun ts hts _ _ _ hs => foldl_invariant hs fun s hs t ht =>
      collectStep_reported (hC t (hts t ((List.perm_insertionSort _ _).mem_iff.1 ht))) hs
  obtain ⟨os, hn, hos, hl⟩ := step b.fromPtr (by simp +contextual) <|
    step b.from' (by simp +contextual) <| step b.to' (by simp +contextual) (reported_nil loc C)
  exact ⟨os, hn, fun o ho => (hos o ho).2, hl⟩

end Method

/-- The methods of the named types: what `C` is for `implements`. -/
def IsMethodOf (ns : List Named) (o : Obj) : Prop :=
  ∃ n ∈ ns, ∃ mm ∈ n.underlying.methods, mm.obj = o

/-- A method: the entries are the locations of pairwise distinct methods of the workspace's named
types. The `seen` map keeps an object from being reported twice, through several result types
or several buckets. -/
theorem implements_method_objects {u : Unicode} {loc : LocationOf} {pkgs : List Package}
    {action : Action} {sel : Selection} {m : Obj} {T : Ty} {locs : List ImplementationLocation}
    (hs : selectTarget action sel = .ok (some m, T))
    (h : implements u loc pkgs action sel = .ok locs) :
    ∃ os : List Obj, (os.map Obj.id).Nodup ∧ (∀ o ∈ os, IsMethodOf (allNamed pkgs) o) ∧
      locs.map (·.location) = os.map fun o => loc o.pos o.name := by
  rw [implements_eq hs] at h
  cases h
  refine locations_reported _ fun t ht tm htm => ?_
  obtain ⟨n, hn, hd⟩ := deref_of_mem_buckets ht
  exact ⟨n, hn, tm, mem_methods_of_methodSet hd (Ty.mem_methodSet_of_lookup htm), rfl⟩

/-- Two methods of the named types declared at one location are one object. -/
def MethodsApart (loc : LocationOf) (ns : List Named) : Prop :=
  ∀ o o', IsMethodOf ns o → IsMethodOf ns o' → loc o.pos o.name = loc o'.pos o'.name → o.id = o'.id

/-- A method: when no two methods of the named types are declared at one location, the entries
are at pairwise distinct locations. -/
theorem implements_method_nodup {u : Unicode} {loc : LocationOf} {pkgs : List Package}
    {action : Action} {sel : Selection} {m : Obj} {T : Ty} {locs : List ImplementationLocation}
    (hs : selectTarget action sel = .ok (some m, T)) (ha : MethodsApart loc (allNamed pkgs))
    (h : implements u loc pkgs action sel = .ok locs) : (locs.map (·.location)).Nodup := by
  obtain ⟨os, hn, hos, hl⟩ := implements_method_objects hs h
  rw [hl]
  exact (List.Nodup.of_map _ hn).map_on fun o ho o' ho' he =>
    List.inj_on_of_nodup_map hn ho ho' (ha o o' (hos o ho) (hos o' ho') he)

/-! ### A package cached with its test variant -/

/-- `type I interface { M() }` at offset 20 of `/w/p/p.go`, with its method at 40, as the package
`pkg` type-checks it into the objects `k` and `k + 1`. -/
def ifaceI (pkg : TypesPackage) (k : Nat) : Named :=
  ⟨⟨k, .typeName, "I", some pkg, ⟨"/w/p/p.go", 20⟩⟩,
    .iface [⟨⟨k + 1, .func, "M", some pkg, ⟨"/w/p/p.go", 40⟩⟩, 1, false⟩]⟩

/-- `type T struct{}` at offset 60 of `/w/p/p.go` and `func (T) M()` at 80. -/
def structT (pkg : TypesPackage) (k : Nat) : Named :=
  ⟨⟨k, .typeName, "T", some pkg, ⟨"/w/p/p.go", 60⟩⟩,
    .concrete [⟨⟨k + 1, .func, "M", some pkg, ⟨"/w/p/p.go", 80⟩⟩, 1, false⟩]⟩

/-- A package of path `p` that type-checks `/w/p/p.go`. -/
def packageP (id : String) (pkg : TypesPackage) (k : Nat) (filenames : List String) : Package :=
  ⟨id, "p", [], some ⟨[], [.typeName false (.named (ifaceI pkg k)),
    .typeName false (.named (structT pkg (k + 2)))]⟩, filenames, []⟩

/-- The package `p` and its test variant `p [p.test]`, which checks the same file again into
objects of its own. -/
def withTestVariant : List Package :=
  [packageP "p" ⟨10, "p"⟩ 20 ["/w/p/p.go"],
    packageP "p [p.test]" ⟨11, "p"⟩ 30 ["/w/p/p.go", "/w/p/p_test.go"]]

/-- With `p` and its test variant cached, selecting the method `I.M` of `p` reports `T.M` twice,
once for each copy of `T`, and also the copy of `I.M` itself; selecting the type `I` reports `T`
twice. -/
theorem implements_reports_test_variant_twice (u : Unicode) :
    implements u offsetLocation withTestVariant .expr
        ⟨some (⟨21, .func, "M", some ⟨10, "p"⟩, ⟨"/w/p/p.go", 40⟩⟩,
          some (.named (ifaceI ⟨10, "p"⟩ 20))), none⟩ =
      .ok [⟨offsetLocation ⟨"/w/p/p.go", 40⟩ "M", "to", false, true⟩,
        ⟨offsetLocation ⟨"/w/p/p.go", 80⟩ "M", "to", false, true⟩,
        ⟨offsetLocation ⟨"/w/p/p.go", 80⟩ "M", "to", false, true⟩] ∧
    implements u offsetLocation withTestVariant .type
        ⟨none, some (.named (ifaceI ⟨10, "p"⟩ 20))⟩ =
      .ok [⟨offsetLocation ⟨"/w/p/p.go", 20⟩ "I", "to", false, false⟩,
        ⟨offsetLocation ⟨"/w/p/p.go", 60⟩ "T", "to", false, false⟩,
        ⟨offsetLocation ⟨"/w/p/p.go", 60⟩ "T", "to", false, false⟩,
        ⟨offsetLocation ⟨"/w/p/p.go", 20⟩ "I", "from", false, false⟩] :=
  ⟨rfl, rfl⟩

/-! ### The package alone -/

/-- The methods of the named types, listed. -/
theorem isMethodOf_iff {ns : List Named} {o : Obj} :
    IsMethodOf ns o ↔ o ∈ ns.flatMap fun n => n.underlying.methods.map (·.obj) := by
  simp [IsMethodOf, List.mem_flatMap]

theorem implements_type_nodup_onePackage :
    let sel : Selection := ⟨none, some (.named (ifaceI ⟨10, "p"⟩ 20))⟩
    let locs : List ImplementationLocation := [⟨offsetLocation ⟨"/w/p/p.go", 60⟩ "T", "to", false, false⟩]
    selectTarget .type sel = .ok (none, .named (ifaceI ⟨10, "p"⟩ 20)) ∧
      TypesApart offsetLocation (allNamed [packageP "p" ⟨10, "p"⟩ 20 ["/w/p/p.go"]]) ∧
      implements Unicode.ascii offsetLocation [packageP "p" ⟨10, "p"⟩ 20 ["/w/p/p.go"]] .type sel = .ok locs ∧
      (locs.map (·.key)).Nodup :=
  have hs : selectTarget .type ⟨none, some (.named (ifaceI ⟨10, "p"⟩ 20))⟩ =
      .ok (none, .named (ifaceI ⟨10, "p"⟩ 20)) := rfl
  have ha : TypesApart offsetLocation (allNamed [packageP "p" ⟨10, "p"⟩ 20 ["/w/p/p.go"]]) := by
    unfold TypesApart; decide
  have h : implements Unicode.ascii offsetLocation [packageP "p" ⟨10, "p"⟩ 20 ["/w/p/p.go"]] .type
      ⟨none, some (.named (ifaceI ⟨10, "p"⟩ 20))⟩ = .ok [⟨offsetLocation ⟨"/w/p/p.go", 60⟩ "T", "to", false, false⟩] := rfl
  ⟨hs, ha, h, implements_type_nodup hs ha h⟩

theorem implements_method_nodup_onePackage :
    let sel : Selection := ⟨some (⟨21, .func, "M", some ⟨10, "p"⟩, ⟨"/w/p/p.go", 40⟩⟩,
      some (.named (ifaceI ⟨10, "p"⟩ 20))), none⟩
    let locs : List ImplementationLocation := [⟨offsetLocation ⟨"/w/p/p.go", 80⟩ "M", "to", false, true⟩]
    selectTarget .expr sel = .ok (some ⟨21, .func, "M", some ⟨10, "p"⟩, ⟨"/w/p/p.go", 40⟩⟩, .named (ifaceI ⟨10, "p"⟩ 20)) ∧
      MethodsApart offsetLocation (allNamed [packageP "p" ⟨10, "p"⟩ 20 ["/w/p/p.go"]]) ∧
      implements Unicode.ascii offsetLocation [packageP "p" ⟨10, "p"⟩ 20 ["/w/p/p.go"]] .expr sel = .ok locs ∧
      (locs.map (·.location)).Nodup :=
  have hs : selectTarget .expr ⟨some (⟨21, .func, "M", some ⟨10, "p"⟩, ⟨"/w/p/p.go", 40⟩⟩,
      some (.named (ifaceI ⟨10, "p"⟩ 20))), none⟩ =
      .ok (some ⟨21, .func, "M", some ⟨10, "p"⟩, ⟨"/w/p/p.go", 40⟩⟩, .named (ifaceI ⟨10, "p"⟩ 20)) := rfl
  have ha : MethodsApart offsetLocation (allNamed [packageP "p" ⟨10, "p"⟩ 20 ["/w/p/p.go"]]) :=
    have key : ∀ o ∈ (allNamed [packageP "p" ⟨10, "p"⟩ 20 ["/w/p/p.go"]]).flatMap
        (fun n => n.underlying.methods.map (·.obj)), ∀ o' ∈ (allNamed [packageP "p" ⟨10, "p"⟩ 20 ["/w/p/p.go"]]).flatMap
        (fun n => n.underlying.methods.map (·.obj)), offsetLocation o.pos o.name = offsetLocation o'.pos o'.name →
          o.id = o'.id := by decide
    fun o o' ho ho' => key o (isMethodOf_iff.1 ho) o' (isMethodOf_iff.1 ho')
  have h : implements Unicode.ascii offsetLocation [packageP "p" ⟨10, "p"⟩ 20 ["/w/p/p.go"]] .expr
      ⟨some (⟨21, .func, "M", some ⟨10, "p"⟩, ⟨"/w/p/p.go", 40⟩⟩, some (.named (ifaceI ⟨10, "p"⟩ 20))), none⟩ =
      .ok [⟨offsetLocation ⟨"/w/p/p.go", 80⟩ "M", "to", false, true⟩] := rfl
  ⟨hs, ha, h, implements_method_nodup hs ha h⟩

/-! ### A bare type: the entries are the bucket rules -/

/-- A bare type: up to order, the entries are the named types each bucket's rule admits, once per
bucket: those `toOf` admits tagged `to`, those `fromOf` admits tagged `from`, and those
`fromPtrOf` admits tagged `from` with the pointer flag. -/
theorem implements_type_entries {u : Unicode} {loc : LocationOf} {pkgs : List Package}
    {action : Action} {sel : Selection} {T : Ty} {locs : List ImplementationLocation}
    (hs : selectTarget action sel = .ok (none, T)) (h : implements u loc pkgs action sel = .ok locs) :
    locs.Perm ((((allNamed pkgs).filter fun n => (toOf u T (.named n)).isSome).map fun n =>
        { report loc false n.obj with type := "to", ptr := false }) ++
      (((allNamed pkgs).filter fun n => fromOf u T (.named n)).map fun n =>
        { report loc false n.obj with type := "from", ptr := false }) ++
      (((allNamed pkgs).filter fun n => fromPtrOf u T (.named n)).map fun n =>
        { report loc false n.obj with type := "from", ptr := true })) := by
  rw [implements_eq hs] at h
  cases h
  rw [locations_none]
  refine (((filterMap_derefNamed_sortTypes_to u T _).map _).append ?_).append ?_
  all_goals
    rw [buckets_eq]
    exact (filterMap_derefNamed_sortTypes_map _ _).map _

theorem implements_type_entries_onePackage :
    let sel : Selection := ⟨none, some (.named (ifaceI ⟨10, "p"⟩ 20))⟩
    let pkgs := [packageP "p" ⟨10, "p"⟩ 20 ["/w/p/p.go"]]
    let T : Ty := .named (ifaceI ⟨10, "p"⟩ 20)
    let locs : List ImplementationLocation := [⟨offsetLocation ⟨"/w/p/p.go", 60⟩ "T", "to", false, false⟩]
    selectTarget .type sel = .ok (none, T) ∧
      implements Unicode.ascii offsetLocation pkgs .type sel = .ok locs ∧
      locs.Perm ((((allNamed pkgs).filter fun n => (toOf Unicode.ascii T (.named n)).isSome).map fun n =>
          { report offsetLocation false n.obj with type := "to", ptr := false }) ++
        (((allNamed pkgs).filter fun n => fromOf Unicode.ascii T (.named n)).map fun n =>
          { report offsetLocation false n.obj with type := "from", ptr := false }) ++
        (((allNamed pkgs).filter fun n => fromPtrOf Unicode.ascii T (.named n)).map fun n =>
          { report offsetLocation false n.obj with type := "from", ptr := true })) :=
  have hs : selectTarget .type ⟨none, some (.named (ifaceI ⟨10, "p"⟩ 20))⟩ =
      .ok (none, .named (ifaceI ⟨10, "p"⟩ 20)) := rfl
  have h : implements Unicode.ascii offsetLocation [packageP "p" ⟨10, "p"⟩ 20 ["/w/p/p.go"]] .type
      ⟨none, some (.named (ifaceI ⟨10, "p"⟩ 20))⟩ = .ok [⟨offsetLocation ⟨"/w/p/p.go", 60⟩ "T", "to", false, false⟩] := rfl
  ⟨hs, h, implements_type_entries hs h⟩

end Bingo
