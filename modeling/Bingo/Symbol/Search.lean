import Bingo.FilePath
import Bingo.Symbol.Collect
import Mathlib.Data.Char
import Mathlib.Data.List.Lex
import Mathlib.Data.List.Sort
import Mathlib.Data.Prod.Lex

/-! Workspace symbol search. `handleSymbol` walks the cached packages, collects from each
package that passes the query's file and directory filters the symbols of positive `score`
(only the exported ones under `is:exported`), stops collecting once it holds `limit` results,
sorts them by `resultSorter.Less` and keeps the first `limit`. The results are therefore the best
`limit` symbols of the packages walked up to the one at which `limit` was reached, not of the
whole workspace (`handleSymbol_collects`): a better symbol of a later package is not returned.

Under `is:exported` a member counts as exported when its name and its container's name are: for
a method, the container is the receiver's text, which for a pointer receiver begins with `*`.
So no method with a pointer receiver is ever a result of an `is:exported` query. -/

namespace Bingo

/-- `util.IsURI`, which is not in the source: a URI of the `file` scheme. -/
def isURI (uri : String) : Bool := hasPrefix uri "file://"

/-- `util.UriToPath`, which is not in the source: the path of a `file` URI. -/
def uriToPath (uri : String) : String := trimPrefix uri "file://"

section Search

variable (u : Unicode)

/-- One token's part of `score`, given whether it is the query's last token. -/
def tokenScore (name container filename : String) (last : Bool) (tok : String) : Nat :=
  let tok := toLower u tok
  (if hasPrefix container tok then 2 else 0) + (if hasPrefix name tok then 3 else 0) +
    (if contains filename tok ∧ 3 ≤ tok.utf8ByteSize then 1 else 0) +
    (if hasPrefix (base filename) tok ∧ 3 ≤ tok.utf8ByteSize then 2 else 0) +
    (if tok = name then if last then 50 else 5 else 0) + (if tok = container then 3 else 0)

/-- The loop of `score` over the query's tokens. -/
def tokensScore (name container filename : String) : List String → Nat
  | [] => 0
  | tok :: toks => tokenScore u name container filename toks.isEmpty tok +
      tokensScore name container filename toks

/-- `score`, for a query without a symbol descriptor. -/
def score (q : Query) (s : SymbolInformation) : Nat :=
  if q.kind ≠ 0 ∧ q.kind ≠ s.kind then 0 else
  let name := toLower u s.name
  let container := toLower u s.containerName
  if !isURI s.location.uri then 0 else
  let filename := uriToPath s.location.uri
  if q.file ≠ "" ∧ filename ≠ q.file then 0 else
  if q.tokens = [] then 2 else
  let scor := tokensScore u name container filename q.tokens
  let scor := if 0 < scor ∧ !(hasPrefix filename "vendor/" || contains filename "/vendor/")
    then scor + 5 else scor
  if 0 < scor ∧ isExported u s.name then scor + 1 else scor

end Search

/-- `scoredSymbol`. -/
structure ScoredSymbol where
  score : Nat
  sym : SymbolInformation
  deriving DecidableEq, Repr

/-- `resultSorter.Less`: the higher score first, then container, name and URI in Go's string
order, which is lexicographic on the runes. -/
def less (a b : ScoredSymbol) : Bool :=
  if a.score = b.score then
    if a.sym.containerName = b.sym.containerName then
      if a.sym.name = b.sym.name then decide (a.sym.location.uri.toList < b.sym.location.uri.toList)
      else decide (a.sym.name.toList < b.sym.name.toList)
    else decide (a.sym.containerName.toList < b.sym.containerName.toList)
  else decide (b.score < a.score)

/-- `sort.Sort` with `resultSorter.Less`. Go sorts up to twelve results by insertion, moving a
result only past results it is `Less` than; the model sorts every list so, which fixes the
order of the results `Less` does not tell apart. -/
def sortResults (results : List ScoredSymbol) : List ScoredSymbol :=
  results.insertionSort fun a b => !less b a

section Search

variable (u : Unicode)

/-- `isExported` on a symbol: its name, and for a member also its container's name. -/
def SymbolInformation.isExported (sym : SymbolInformation) : Bool :=
  if sym.containerName = "" then Bingo.isExported u sym.name
  else Bingo.isExported u sym.containerName && Bingo.isExported u sym.name

/-- `resultSorter.Collect`: a symbol of positive score joins the results. -/
def collect (q : Query) (results : List ScoredSymbol) (si : SymbolInformation) :
    List ScoredSymbol :=
  if 0 < score u q si then results ++ [⟨score u q si, si⟩] else results

/-- `collectFromPkg`. -/
def collectFromPkg (q : Query) (loc : LocationOf) (pkg : Package)
    (results : List ScoredSymbol) : List ScoredSymbol :=
  (astPkgToSymbols loc pkg).foldl (fun results sym =>
    if q.filter = .exported ∧ !sym.isExported u then results else collect u q results sym) results

/-- The function `handleSymbol` walks the cache with, at its `k`-th package. -/
def searchPkg (ctx : Context) (q : Query) (loc : LocationOf) (limit : Int) (k : Nat)
    (pkg : Package) (results : List ScoredSymbol) : Except ContextError (List ScoredSymbol) :=
  match ctx.err k with
  | some e => .error e
  | none =>
    if q.file ≠ "" ∧ q.file ∉ pkg.filenames then .ok results
    else if q.filter = .dir ∧ pkg.pkgPath ≠ q.dir then .ok results
    else if limit ≤ results.length then .ok results
    else .ok (collectFromPkg u q loc pkg results)

/-- `handleSymbol`. -/
def handleSymbol (ctx : Context) (pkgs : List Package) (loc : LocationOf) (query : Query)
    (limit : Int) : Except ContextError (List SymbolInformation) :=
  match walk (searchPkg u ctx query loc limit) pkgs 0 [] with
  | .error e => .error e
  | .ok results =>
    let results := sortResults results
    let results := if limit < results.length ∧ 0 < limit then results.take limit.toNat else results
    .ok (results.map (·.sym))

/-- `handleWorkspaceSymbol`, for parameters without a symbol descriptor. -/
def handleWorkspaceSymbol (ctx : Context) (pkgs : List Package) (loc : LocationOf)
    (rootImportPath query : String) (limit : Int) : Except ContextError (List SymbolInformation) :=
  let q := parseQuery u query
  let q := if q.filter = .dir then { q with dir := join rootImportPath q.dir } else q
  handleSymbol u ctx pkgs loc q (if limit = 0 then 50 else limit)

end Search

/-! ### The order of the results -/

/-- The key `Less` compares: the score in reverse, then container, name and URI. -/
def sortKey (a : ScoredSymbol) : Lex (ℕᵒᵈ × Lex (List Char × Lex (List Char × List Char))) :=
  toLex (OrderDual.toDual a.score, toLex (a.sym.containerName.toList,
    toLex (a.sym.name.toList, a.sym.location.uri.toList)))

theorem less_iff (a b : ScoredSymbol) : less a b = true ↔ sortKey a < sortKey b := by
  simp only [less, sortKey, Prod.Lex.lt_iff, OrderDual.toDual_lt_toDual, String.ext_iff]
  by_cases h₁ : a.score = b.score <;>
    by_cases h₂ : a.sym.containerName.data = b.sym.containerName.data <;>
    by_cases h₃ : a.sym.name.data = b.sym.name.data <;> simp [h₁, h₂, h₃]

theorem not_less_iff (a b : ScoredSymbol) : (!less b a) = true ↔ sortKey a ≤ sortKey b := by
  rw [Bool.not_eq_true', ← Bool.not_eq_true, less_iff, not_lt]

instance : IsTotal ScoredSymbol fun a b => (!less b a) = true :=
  ⟨fun a b => (le_total (sortKey a) (sortKey b)).imp (not_less_iff a b).2 (not_less_iff b a).2⟩

instance : IsTrans ScoredSymbol fun a b => (!less b a) = true :=
  ⟨fun a b c h₁ h₂ =>
    (not_less_iff a c).2 (le_trans ((not_less_iff a b).1 h₁) ((not_less_iff b c).1 h₂))⟩

/-- `sort.Sort` leaves no result after one it is `Less` than. -/
theorem sortResults_sorted (results : List ScoredSymbol) :
    (sortResults results).Sorted fun a b => (!less b a) = true :=
  List.sorted_insertionSort _ _

/-! ### What the search returns -/

section Results

variable (u : Unicode)

/-- A symbol `collectFromPkg` keeps: exported when the query asks for that, of positive score. -/
def kept (q : Query) (s : SymbolInformation) : Bool :=
  (q.filter != .exported || s.isExported u) && decide (0 < score u q s)

/-- One symbol of `collectFromPkg`'s loop. -/
theorem collectFromPkg_step (q : Query) (results : List ScoredSymbol) (s : SymbolInformation) :
    (if q.filter = .exported ∧ !s.isExported u then results else collect u q results s) =
      results ++ if kept u q s then [⟨score u q s, s⟩] else [] := by
  unfold kept collect
  by_cases he : q.filter = .exported <;> cases s.isExported u <;>
    by_cases hs : 0 < score u q s <;> simp [he, hs]

theorem collectFromPkg_eq (q : Query) (loc : LocationOf) (pkg : Package)
    (results : List ScoredSymbol) :
    collectFromPkg u q loc pkg results =
      results ++ ((astPkgToSymbols loc pkg).filter (kept u q)).map fun s => ⟨score u q s, s⟩ := by
  unfold collectFromPkg
  generalize astPkgToSymbols loc pkg = syms
  induction syms generalizing results with
  | nil => simp
  | cons s ss ih =>
    rw [List.foldl_cons, ih, collectFromPkg_step, List.filter_cons]
    cases kept u q s <;> simp

/-- A result of the search: a symbol of one of the packages, with its score, that
`collectFromPkg` keeps. -/
def Found (pkgs : List Package) (loc : LocationOf) (q : Query) (s : ScoredSymbol) : Prop :=
  ∃ pkg ∈ pkgs, s.sym ∈ astPkgToSymbols loc pkg ∧ s.score = score u q s.sym ∧ kept u q s.sym

theorem searchPkg_found {pkgs : List Package} {loc : LocationOf} {q : Query} {ctx : Context}
    {limit : Int} {k : Nat} {pkg : Package} (hpkg : pkg ∈ pkgs) {results results' : List ScoredSymbol}
    (h : ∀ s ∈ results, Found u pkgs loc q s)
    (hstep : searchPkg u ctx q loc limit k pkg results = .ok results') :
    ∀ s ∈ results', Found u pkgs loc q s := by
  unfold searchPkg at hstep
  split at hstep
  · cases hstep
  split_ifs at hstep <;> cases hstep
  all_goals try exact h
  rw [collectFromPkg_eq]
  intro s hs
  rcases List.mem_append.1 hs with hs | hs
  · exact h s hs
  · obtain ⟨sym, hsym, rfl⟩ := List.mem_map.1 hs
    exact ⟨pkg, hpkg, (List.mem_filter.1 hsym).1, rfl, (List.mem_filter.1 hsym).2⟩

/-- With a context that is never cancelled, the search returns results sorted by `Less`, at
most `limit` of them when `limit` is positive, each a symbol of a cached package that
`collectFromPkg` keeps, with its score. -/
theorem handleSymbol_results (pkgs : List Package) (loc : LocationOf) (q : Query) (limit : Int) :
    ∃ scored : List ScoredSymbol,
      handleSymbol u .background pkgs loc q limit = .ok (scored.map (·.sym)) ∧
      (scored.Sorted fun a b => (!less b a) = true) ∧ (0 < limit → (scored.length : Int) ≤ limit) ∧
      ∀ s ∈ scored, Found u pkgs loc q s := by
  obtain ⟨r, hr⟩ := @walk_ok _ (searchPkg u .background q loc limit) (fun k pkg results => by
    unfold searchPkg; split_ifs <;> exact ⟨_, rfl⟩) pkgs 0 []
  have hmem : ∀ s ∈ sortResults r, Found u pkgs loc q s := fun s hs =>
    walk_invariant (fun _ h => nomatch h) (fun _ _ _ _ hp hs hstep => searchPkg_found u hp hs hstep)
      hr s ((List.perm_insertionSort _ _).mem_iff.1 hs)
  by_cases hcut : limit < (sortResults r).length ∧ 0 < limit
  · refine ⟨(sortResults r).take limit.toNat, ?_,
      List.Pairwise.sublist (List.take_sublist _ _) (sortResults_sorted r), fun _ => ?_,
      fun s hs => hmem s (List.mem_of_mem_take hs)⟩
    · simp only [handleSymbol, hr, if_pos hcut]
    · rw [List.length_take]
      omega
  · refine ⟨sortResults r, ?_, sortResults_sorted r, fun _ => by omega, hmem⟩
    simp only [handleSymbol, hr, if_neg hcut]

/-- A `workspace/symbol` request whose context is never cancelled answers results sorted by `Less`,
at most 50 of them when it gives no limit and at most its limit when that is positive, each a
symbol of a cached package that the parsed query, its directory joined onto the root import
path, keeps. -/
theorem handleWorkspaceSymbol_results (pkgs : List Package) (loc : LocationOf)
    (rootImportPath query : String) (limit : Int) :
    let q := parseQuery u query
    let q := if q.filter = .dir then { q with dir := join rootImportPath q.dir } else q
    ∃ scored : List ScoredSymbol,
      handleWorkspaceSymbol u .background pkgs loc rootImportPath query limit = .ok (scored.map (·.sym)) ∧
      (scored.Sorted fun a b => (!less b a) = true) ∧ (limit = 0 → scored.length ≤ 50) ∧
      (0 < limit → (scored.length : Int) ≤ limit) ∧ ∀ s ∈ scored, Found u pkgs loc q s := by
  intro q₀ q
  obtain ⟨scored, h, hs, hl, hf⟩ := handleSymbol_results u pkgs loc q (if limit = 0 then 50 else limit)
  refine ⟨scored, h, hs, fun h₀ => ?_, fun hpos => ?_, hf⟩
  · have hl := hl (by simp [h₀])
    rw [if_pos h₀] at hl
    omega
  · simpa [hpos.ne'] using hl (by simpa [hpos.ne'] using hpos)

end Results

/-! ### The search stops taking packages at the limit -/

section Limit

variable (u : Unicode)

/-- The file and directory filters of `handleSymbol`'s walk function. -/
def passesFilters (q : Query) (pkg : Package) : Bool :=
  (q.file = "" || decide (q.file ∈ pkg.filenames)) && (q.filter != .dir || pkg.pkgPath == q.dir)

/-- What `collectFromPkg` adds for a package. -/
def scoredSymbols (q : Query) (loc : LocationOf) (pkg : Package) : List ScoredSymbol :=
  ((astPkgToSymbols loc pkg).filter (kept u q)).map fun s => ⟨score u q s, s⟩

/-- `handleSymbol`'s walk function with a context that is never cancelled. -/
def gather (q : Query) (loc : LocationOf) (limit : Int) (results : List ScoredSymbol)
    (pkg : Package) : List ScoredSymbol :=
  if passesFilters q pkg ∧ (results.length : Int) < limit then results ++ scoredSymbols u q loc pkg
  else results

/-- The kept symbols of the first `n` packages that pass the filters. -/
def firstScored (q : Query) (loc : LocationOf) (pkgs : List Package) (n : Nat) :
    List ScoredSymbol :=
  ((pkgs.filter (passesFilters q)).take n).flatMap (scoredSymbols u q loc)

theorem searchPkg_background (q : Query) (loc : LocationOf) (limit : Int) :
    searchPkg u .background q loc limit = fun _ pkg results => .ok (gather u q loc limit results pkg) := by
  funext k pkg results
  simp only [searchPkg, Context.background, gather, collectFromPkg_eq, scoredSymbols]
  by_cases hA : q.file ≠ "" ∧ q.file ∉ pkg.filenames
  · have hp : passesFilters q pkg = false := by simp [passesFilters, hA.1, hA.2]
    rw [if_pos hA, if_neg fun h => absurd h.1 (by simp [hp])]
  rw [if_neg hA]
  by_cases hB : q.filter = .dir ∧ pkg.pkgPath ≠ q.dir
  · have hp : passesFilters q pkg = false := by simp [passesFilters, hB.1, hB.2]
    rw [if_pos hB, if_neg fun h => absurd h.1 (by simp [hp])]
  rw [if_neg hB]
  have hp : passesFilters q pkg := by
    simp only [not_and, not_not, ne_eq] at hA hB
    simp only [passesFilters, Bool.and_eq_true, Bool.or_eq_true, decide_eq_true_eq, bne_iff_ne,
      ne_eq, beq_iff_eq]
    exact ⟨(em _).imp_right hA, ((em _).imp_left hB).symm⟩
  by_cases hl : limit ≤ results.length
  · rw [if_pos hl, if_neg fun h => absurd h.2 (not_lt.2 hl)]
  · rw [if_neg hl, if_pos ⟨hp, lt_of_not_le hl⟩]

/-- Once the walk holds `limit` results it takes no more. -/
theorem foldl_gather_full {q : Query} {loc : LocationOf} {limit : Int} {acc : List ScoredSymbol}
    (h : limit ≤ acc.length) : ∀ ps : List Package, ps.foldl (gather u q loc limit) acc = acc
  | [] => rfl
  | p :: ps => by
    rw [List.foldl_cons, gather, if_neg fun h' => absurd h'.2 (not_lt.2 h), foldl_gather_full h ps]

/-- The walk takes the packages that pass the filters, in order, as long as it holds fewer than
`limit` results: the first `n` of them, `n` being the first count that reaches `limit`, or all of
them. -/
theorem foldl_gather (q : Query) (loc : LocationOf) (limit : Int) :
    ∀ (ps : List Package) (acc : List ScoredSymbol), ∃ n,
      ps.foldl (gather u q loc limit) acc = acc ++ firstScored u q loc ps n ∧
      (∀ m < n, ((acc.length + (firstScored u q loc ps m).length : Nat) : Int) < limit) ∧
      (n < (ps.filter (passesFilters q)).length →
        limit ≤ ((acc.length + (firstScored u q loc ps n).length : Nat) : Int))
  | [], acc => ⟨0, by simp [firstScored], fun m hm => absurd hm (Nat.not_lt_zero m), by simp⟩
  | p :: ps, acc => by
    by_cases hp : passesFilters q p
    · by_cases hl : (acc.length : Int) < limit
      · obtain ⟨n, heq, hlt, hge⟩ := foldl_gather q loc limit ps (acc ++ scoredSymbols u q loc p)
        have hfirst : ∀ m, firstScored u q loc (p :: ps) (m + 1) =
            scoredSymbols u q loc p ++ firstScored u q loc ps m := fun m => by
          simp [firstScored, List.filter_cons_of_pos hp]
        refine ⟨n + 1, ?_, fun m hm => ?_, fun hn => ?_⟩
        · rw [List.foldl_cons, gather, if_pos ⟨hp, hl⟩, heq, hfirst, List.append_assoc]
        · rcases m with _ | m
          · simpa [firstScored] using hl
          · have := hlt m (by omega)
            simp only [hfirst, List.length_append] at this ⊢
            omega
        · have := hge (by simpa [List.filter_cons_of_pos hp] using hn)
          simp only [hfirst, List.length_append] at this ⊢
          omega
      · refine ⟨0, ?_, fun m hm => absurd hm (Nat.not_lt_zero m), fun _ => by simpa [firstScored] using hl⟩
        rw [List.foldl_cons, gather, if_neg fun h => hl h.2, foldl_gather_full u (not_lt.1 hl)]
        simp [firstScored]
    · obtain ⟨n, heq, hlt, hge⟩ := foldl_gather q loc limit ps acc
      have hfirst : ∀ m, firstScored u q loc (p :: ps) m = firstScored u q loc ps m := fun m => by
        simp [firstScored, List.filter_cons_of_neg hp]
      refine ⟨n, ?_, fun m hm => hfirst m ▸ hlt m hm, fun hn => hfirst n ▸ hge ?_⟩
      · rw [List.foldl_cons, gather, if_neg fun h => hp h.1, heq, hfirst]
      · simpa [List.filter_cons_of_neg hp] using hn

/-- With a context that is never cancelled, the search collects the kept symbols of the packages
that pass its filters, in walk order, up to and including the first package at which it holds
`limit` results; the results are these, sorted by `Less` and cut to `limit`. A symbol of a later
package is not among them, however high its score. -/
theorem handleSymbol_collects (pkgs : List Package) (loc : LocationOf) (q : Query) (limit : Int) :
    ∃ n, (∀ m < n, ((firstScored u q loc pkgs m).length : Int) < limit) ∧
      (n < (pkgs.filter (passesFilters q)).length → limit ≤ (firstScored u q loc pkgs n).length) ∧
      handleSymbol u .background pkgs loc q limit =
        let results := sortResults (firstScored u q loc pkgs n)
        .ok ((if limit < results.length ∧ 0 < limit then results.take limit.toNat else results).map
          (·.sym)) := by
  obtain ⟨n, heq, hlt, hge⟩ := foldl_gather u q loc limit pkgs []
  refine ⟨n, fun m hm => by simpa using hlt m hm, fun hn => by simpa using hge hn, ?_⟩
  have hw := walk_of_ok (fun pkg results => gather u q loc limit results pkg) pkgs 0 []
  simp only [handleSymbol, searchPkg_background, hw, heq, List.nil_append]

end Limit

/-- The package `a` declares `func foobar()`, the package `b` declares `func foo()`. -/
def fooPkgs : List Package :=
  [⟨"a", "a", [], none, ["/w/a/a.go"], [⟨[.funcDecl none ⟨1, ⟨"/w/a/a.go", 5⟩, "foobar"⟩
      (.other []) (some (.other []))]⟩]⟩,
    ⟨"b", "b", [], none, ["/w/b/b.go"], [⟨[.funcDecl none ⟨2, ⟨"/w/b/b.go", 5⟩, "foo"⟩
      (.other []) (some (.other []))]⟩]⟩]

/- With the limit 1, the query `foo` returns `foobar` of the first package, of score 8, and not
`foo` of the second, of score 58 (with the ASCII case tables). -/
example :
    (handleSymbol .ascii .background fooPkgs offsetLocation { tokens := ["foo"] } 1).toOption =
      some [⟨"foobar", skFunction, offsetLocation ⟨"/w/a/a.go", 5⟩ "foobar", ""⟩] ∧
    score .ascii { tokens := ["foo"] }
      ⟨"foobar", skFunction, offsetLocation ⟨"/w/a/a.go", 5⟩ "foobar", ""⟩ = 8 ∧
    score .ascii { tokens := ["foo"] } ⟨"foo", skFunction, offsetLocation ⟨"/w/b/b.go", 5⟩ "foo", ""⟩ = 58 := by
  decide

/-! ### Methods with a pointer receiver -/

/-- The symbol's name is exported and, for a method, so is its receiver's base type: the container
without its `*`. -/
def exportedWithReceiverBase (u : Unicode) (sym : SymbolInformation) : Bool :=
  if sym.containerName = "" then isExported u sym.name
  else isExported u (trimPrefix sym.containerName "*") && isExported u sym.name

/-- The file `type T struct{}`, `func (t *T) M() {}` of package `p`, as `/w/p/t.go`. -/
def pointerMethodPkg : Package where
  id := "p"
  pkgPath := "p"
  imports := []
  typesInfo := none
  filenames := ["/w/p/t.go"]
  files := [⟨[.typeDecl [(⟨1, ⟨"/w/p/t.go", 15⟩, "T"⟩, .structType [])],
    .funcDecl (some [([⟨2, ⟨"/w/p/t.go", 38⟩, "t"⟩], .star (.ident ⟨3, ⟨"/w/p/t.go", 41⟩, "T"⟩))])
      ⟨4, ⟨"/w/p/t.go", 44⟩, "M"⟩ (.other []) (some (.other []))]⟩]

/-- The query `is:exported` returns the type `T` and not its method `M`, whose container is
`*T`, although `M` is a symbol of the package of positive score and `M` and `T` are
exported. -/
theorem handleWorkspaceSymbol_skips_pointer_method (u : Unicode) :
    handleWorkspaceSymbol u .background [pointerMethodPkg] offsetLocation "" "is:exported" 0 =
      .ok [⟨"T", skClass, offsetLocation ⟨"/w/p/t.go", 15⟩ "T", ""⟩] ∧
    (⟨"M", skMethod, offsetLocation ⟨"/w/p/t.go", 44⟩ "M", "*T"⟩ : SymbolInformation) ∈
      astPkgToSymbols offsetLocation pointerMethodPkg ∧
    0 < score u { filter := .exported } ⟨"M", skMethod, offsetLocation ⟨"/w/p/t.go", 44⟩ "M", "*T"⟩ ∧
    exportedWithReceiverBase u ⟨"M", skMethod, offsetLocation ⟨"/w/p/t.go", 44⟩ "M", "*T"⟩ := by
  have hq : parseQuery u "is:exported" = { filter := .exported } := by
    rw [parseQuery, toLower_ascii u (by decide)]
    decide
  refine ⟨?_, List.mem_cons_of_mem _ (List.mem_singleton_self _), show 0 < 2 by decide, rfl⟩
  rw [handleWorkspaceSymbol, hq]
  rfl

end Bingo
