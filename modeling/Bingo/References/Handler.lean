import Bingo.References.Collect
import Bingo.References.Search
import Bingo.Resolve

/-! `doHandleTextDocumentReferences` from the object under the cursor on: reject an object
without a package that is not a builtin, search, append the declaration when asked, and
collect the locations within `XLimit`. Each `Uses` map the search ranges over may be
enumerated in any order. The set of locations returned does not depend on that order when the
limit does not truncate (`XLimit ≤ 0`, or at least as many as the identifiers collected).
A truncating limit keeps the first identifiers in discovery order, and that window depends on
the order. The declaration is appended after the identifiers found, so such a limit also drops
it: asking for the declaration then changes nothing (`doHandleTextDocumentReferences_declaration`).

`handleTextDocumentReferences` retries a failed request one character to the left, whatever
the error, a cancelled search included. Whatever the retry gives, the answer holds distinct
locations, none of empty URI, within the limit (`handleTextDocumentReferences_distinct`). -/

namespace Bingo

inductive ReferencesError
  | noPackage (obj : Obj)
  | context (e : ContextError)
  deriving DecidableEq, Repr

/-- The identifier `doHandleTextDocumentReferences` appends for the declaration. -/
def declIdent (obj : Obj) : Ident := ⟨0, obj.pos, obj.name⟩

/-- `doHandleTextDocumentReferences` once the identifier under the cursor has resolved to
`obj`. -/
def doHandleTextDocumentReferences (u : Unicode) (ctx : Context) (pkgs : List Package)
    (loc : LocationOf) (obj : Obj) (includeDeclaration : Bool) (xLimit : Int) :
    Except ReferencesError (List Location) :=
  if obj.pkg = none ∧ obj.kind ≠ .builtin then .error (.noPackage obj)
  else
    match findReferences u ctx pkgs obj with
    | .error e => .error (.context e)
    | .ok refs =>
      let refs := if includeDeclaration then refs ++ [declIdent obj] else refs
      .ok (refStreamAndCollect loc refs xLimit)

/-! ### The request at a position -/

/-- What a references request fails with. -/
inductive ReferencesRequestError
  /-- An error of `typeCheck` or `GetPathNodes` other than an invalid node. -/
  | resolve (msg : String)
  /-- `NewInvalidNodeError`: a first path node other than an identifier or a function
  declaration. -/
  | invalidNode
  /-- `errors.New("references object not found")`. -/
  | objectNotFound
  | references (e : ReferencesError)
  deriving DecidableEq, Repr

section Request

variable (u : Unicode) (ctx : Context) (pkgs : List Package) (loc : LocationOf)
  (objectOf : Ident → Option Obj) (includeDeclaration : Bool) (xLimit : Int)

/-- `doHandleTextDocumentReferences` at a position the resolver resolves to `r`, with
`FindIdentObject` as `objectOf`. -/
def doHandleTextDocumentReferencesAt : Resolved → Except ReferencesRequestError (List Location)
  | .invalidNode => .ok []
  | .error msg => .error (.resolve msg)
  | .node (.ident id) | .node (.funcDecl id) =>
    match objectOf id with
    | none => .error .objectNotFound
    | some obj =>
      (doHandleTextDocumentReferences u ctx pkgs loc obj includeDeclaration xLimit).mapError
        .references
  | .node _ => .error .invalidNode

/-- `handleTextDocumentReferences`, over the resolver of the request's document. -/
def handleTextDocumentReferences (resolve : Position → Resolved) (p : Position) :
    Except ReferencesRequestError (List Location) :=
  retryLeft (fun p => doHandleTextDocumentReferencesAt u ctx pkgs loc objectOf includeDeclaration
    xLimit (resolve p)) p

end Request

theorem doHandleTextDocumentReferences_ok {u : Unicode} {ctx : Context} {pkgs : List Package}
    {loc : LocationOf} {obj : Obj} {includeDeclaration : Bool} {xLimit : Int} {locs : List Location}
    (h : doHandleTextDocumentReferences u ctx pkgs loc obj includeDeclaration xLimit = .ok locs) :
    ∃ refs, locs = refStreamAndCollect loc refs xLimit := by
  unfold doHandleTextDocumentReferences at h
  split_ifs at h
  all_goals
    cases hf : findReferences u ctx pkgs obj with
    | error e => rw [hf] at h; cases h
    | ok refs => rw [hf] at h; exact ⟨_, (Except.ok.inj h).symm⟩

/-- An answer at one position is no references, or the locations `refStreamAndCollect` keeps of
some identifiers. -/
theorem doHandleTextDocumentReferencesAt_ok {u : Unicode} {ctx : Context} {pkgs : List Package}
    {loc : LocationOf} {objectOf : Ident → Option Obj} {includeDeclaration : Bool} {xLimit : Int}
    {r : Resolved} {locs : List Location}
    (h : doHandleTextDocumentReferencesAt u ctx pkgs loc objectOf includeDeclaration xLimit r = .ok locs) :
    locs = [] ∨ ∃ refs, locs = refStreamAndCollect loc refs xLimit := by
  have hobj : ∀ id, doHandleTextDocumentReferencesAt u ctx pkgs loc objectOf includeDeclaration xLimit
      (.node (.ident id)) = .ok locs → ∃ refs, locs = refStreamAndCollect loc refs xLimit := fun id h => by
    simp only [doHandleTextDocumentReferencesAt] at h
    cases ho : objectOf id with
    | none => rw [ho] at h; cases h
    | some obj =>
      simp only [ho] at h
      cases hd : doHandleTextDocumentReferences u ctx pkgs loc obj includeDeclaration xLimit with
      | error e => rw [hd] at h; cases h
      | ok l => rw [hd] at h; exact doHandleTextDocumentReferences_ok ((Except.ok.inj h) ▸ hd)
  match r, h with
  | .invalidNode, h => exact .inl (Except.ok.inj h).symm
  | .node (.ident id), h | .node (.funcDecl id), h => exact .inr (hobj id h)
  | .error _, h | .node (.typeSpec _), h | .node (.selectorExpr _), h | .node (.callExpr _), h
  | .node .other, h => cases h

/-- Whatever the document, the position, the workspace and the retry, a references request
answers distinct locations, none of empty URI, at most `XLimit` of them when `XLimit` is positive
and none when it is negative. -/
theorem handleTextDocumentReferences_distinct {u : Unicode} {ctx : Context} {pkgs : List Package}
    {loc : LocationOf} {objectOf : Ident → Option Obj} {includeDeclaration : Bool} {xLimit : Int}
    {resolve : Position → Resolved} {p : Position} {locs : List Location}
    (h : handleTextDocumentReferences u ctx pkgs loc objectOf includeDeclaration xLimit resolve p =
      .ok locs) :
    locs.Nodup ∧ (∀ l ∈ locs, l.uri ≠ "") ∧ (0 < xLimit → (locs.length : Int) ≤ xLimit) ∧
      (xLimit < 0 → locs = []) := by
  have hat : ∃ r, doHandleTextDocumentReferencesAt u ctx pkgs loc objectOf includeDeclaration xLimit r =
      .ok locs := (retryLeft_eq_ok h).elim (fun h => ⟨_, h⟩) fun h => ⟨_, h⟩
  obtain ⟨r, hr⟩ := hat
  rcases doHandleTextDocumentReferencesAt_ok hr with rfl | ⟨refs, rfl⟩
  · exact ⟨List.nodup_nil, by simp, fun _ => by simp; omega, fun _ => rfl⟩
  · exact refStreamAndCollect_distinct loc refs xLimit

/-- A request on the use `useA` of field `A.Name`, with the declaration: the two uses of `Name`
and the declaration, each once. -/
theorem handleTextDocumentReferences_distinct_twoFields :
    let locs := [offsetLocation useA.namePos useA.name, offsetLocation useB.namePos useB.name,
      offsetLocation fieldA.pos fieldA.name]
    handleTextDocumentReferences Unicode.ascii .background [twoFields] offsetLocation
        (fun _ => some fieldA) true 0 (fun _ => .node (.ident useA)) ⟨0, 0⟩ = .ok locs ∧
      locs.Nodup ∧ (∀ l ∈ locs, l.uri ≠ "") ∧ (0 < (0 : Int) → (locs.length : Int) ≤ 0) ∧
      ((0 : Int) < 0 → locs = []) :=
  have h : handleTextDocumentReferences Unicode.ascii .background [twoFields] offsetLocation
      (fun _ => some fieldA) true 0 (fun _ => .node (.ident useA)) ⟨0, 0⟩ =
      .ok [offsetLocation useA.namePos useA.name, offsetLocation useB.namePos useB.name,
        offsetLocation fieldA.pos fieldA.name] := rfl
  ⟨h, handleTextDocumentReferences_distinct h⟩

/-- The declaration is appended after the identifiers found. Without a limit, or with one above
their number, its location is reported when asked for; a positive limit of at most their number
cuts it off, and asking for the declaration then changes nothing. -/
theorem doHandleTextDocumentReferences_declaration {u : Unicode} {ctx : Context}
    {pkgs : List Package} {loc : LocationOf} {obj : Obj} {xLimit : Int} {refs : List Ident}
    (hf : findReferences u ctx pkgs obj = .ok refs) :
    (0 < xLimit → xLimit ≤ refs.length →
      doHandleTextDocumentReferences u ctx pkgs loc obj true xLimit =
        doHandleTextDocumentReferences u ctx pkgs loc obj false xLimit) ∧
    (xLimit = 0 ∨ refs.length < xLimit → (loc obj.pos obj.name).uri ≠ "" →
      ∀ locs, doHandleTextDocumentReferences u ctx pkgs loc obj true xLimit = .ok locs →
        loc obj.pos obj.name ∈ locs) := by
  refine ⟨fun hpos hle => ?_, fun hw hu locs h => ?_⟩
  · simp only [doHandleTextDocumentReferences, hf, if_true, Bool.false_eq_true, if_false,
      refStreamAndCollect_append_of_le loc refs _ hpos hle]
  · simp only [doHandleTextDocumentReferences, hf, if_true] at h
    split_ifs at h
    cases h
    exact mem_refStreamAndCollect loc (by simp only [List.length_append, List.length_singleton]; omega)
      (List.mem_append_right refs (List.mem_singleton_self (declIdent obj))) hu

theorem doHandleTextDocumentReferences_declaration_twoFields :
    findReferences Unicode.ascii .background [twoFields] fieldA = .ok [useA, useB] ∧
    (0 < (1 : Int) → (1 : Int) ≤ [useA, useB].length →
      doHandleTextDocumentReferences Unicode.ascii .background [twoFields] offsetLocation fieldA true 1 =
        doHandleTextDocumentReferences Unicode.ascii .background [twoFields] offsetLocation fieldA false 1) ∧
    ((1 : Int) = 0 ∨ [useA, useB].length < (1 : Int) → (offsetLocation fieldA.pos fieldA.name).uri ≠ "" →
      ∀ locs, doHandleTextDocumentReferences Unicode.ascii .background [twoFields] offsetLocation fieldA true 1 =
        .ok locs → offsetLocation fieldA.pos fieldA.name ∈ locs) :=
  have hf : findReferences Unicode.ascii .background [twoFields] fieldA = .ok [useA, useB] := rfl
  ⟨hf, doHandleTextDocumentReferences_declaration hf⟩

/-! ### Enumeration orders -/

/-- Two snapshots of a package that differ only in the order its `Uses` map is enumerated. -/
def UsesReordered (p p' : Package) : Prop :=
  p.id = p'.id ∧ p.pkgPath = p'.pkgPath ∧ p.imports = p'.imports ∧
    match p.typesInfo, p'.typesInfo with
    | none, none => True
    | some i, some i' => i.uses.Perm i'.uses
    | _, _ => False

/-- Two results with the same error, or with the same set of locations. -/
def SameLocations : Except ReferencesError (List Location) →
    Except ReferencesError (List Location) → Prop
  | .ok a, .ok b => ∀ l, l ∈ a ↔ l ∈ b
  | .error e, .error e' => e = e'
  | _, _ => False

theorem usesIn_perm (u : Unicode) (q : Obj) {p p' : Package} (h : UsesReordered p p') :
    (usesIn u q p).Perm (usesIn u q p') := by
  obtain ⟨-, hpath, himp, hinfo⟩ := h
  have hs : searched (defPkgPath q) p ↔ searched (defPkgPath q) p' := by
    simp [searched, hpath, himp]
  unfold usesIn
  rw [if_congr hs rfl rfl]
  split_ifs
  · revert hinfo
    rcases p.typesInfo with _ | i <;> rcases p'.typesInfo with _ | i' <;> intro hinfo
    · exact .refl _
    · exact hinfo.elim
    · exact hinfo.elim
    · exact (hinfo.filter _).map _
  · exact .refl _

theorem flatMap_usesIn_perm (u : Unicode) (q : Obj) {pkgs pkgs' : List Package}
    (h : List.Forall₂ UsesReordered pkgs pkgs') :
    (pkgs.flatMap (usesIn u q)).Perm (pkgs'.flatMap (usesIn u q)) := by
  induction h with
  | nil => exact .refl _
  | cons hp _ ih => exact (usesIn_perm u q hp).append ih

/-- A limit that does not truncate gives the same locations for every order of the references. -/
theorem mem_firstLocations_perm (loc : LocationOf) {refs refs' : List Ident} {limit : Int}
    (hperm : refs.Perm refs') (hlimit : limit ≤ 0 ∨ refs.length ≤ limit) (l : Location) :
    l ∈ firstLocations loc refs limit ↔ l ∈ firstLocations loc refs' limit := by
  have hlen := hperm.length_eq
  have hw : ∀ n : Nat, n = refs.length →
      windowLength n limit = if limit < 0 then 0 else n := fun n hn => by
    unfold windowLength
    split_ifs <;> omega
  simp only [firstLocations, mem_keepFirst, List.mem_filter, List.mem_map, hw _ rfl,
    hw _ hlen.symm]
  split_ifs
  · simp
  · simp only [List.take_length, hperm.mem_iff]

/-- Reference search returns the same set of locations for every enumeration order of the
`Uses` maps, unless `XLimit` is positive and below the number of identifiers collected. -/
theorem doHandleTextDocumentReferences_reordered (u : Unicode) (ctx : Context)
    {pkgs pkgs' : List Package} (loc : LocationOf) (obj : Obj) (includeDeclaration : Bool)
    (xLimit : Int) (h : List.Forall₂ UsesReordered pkgs pkgs')
    (hlimit : xLimit ≤ 0 ∨
      (pkgs.flatMap (usesIn u obj)).length + (if includeDeclaration then 1 else 0) ≤ xLimit) :
    SameLocations (doHandleTextDocumentReferences u ctx pkgs loc obj includeDeclaration xLimit)
      (doHandleTextDocumentReferences u ctx pkgs' loc obj includeDeclaration xLimit) := by
  have hperm := flatMap_usesIn_perm u obj h
  unfold doHandleTextDocumentReferences
  by_cases hp : obj.pkg = none ∧ obj.kind ≠ .builtin
  · simp only [if_pos hp]
    rfl
  simp only [if_neg hp, findReferences_eq, h.length_eq]
  rcases (List.range' 0 pkgs'.length).findSome? ctx.err with _ | e
  · intro l
    simp only [refStreamAndCollect_eq_firstLocations]
    apply mem_firstLocations_perm loc _ _ l
    · cases includeDeclaration
      · simpa using hperm
      · simpa using hperm.append_right _
    · cases includeDeclaration <;> simp_all
  · rfl

/-- Two uses of field `A.Name`, enumerated in either order. -/
def useA2 : Ident := ⟨12, ⟨"p.go", 140⟩, "Name"⟩

def twoUses : Package := ⟨"p", "p", [], some ⟨[(useA, fieldA), (useA2, fieldA)], []⟩, [], []⟩

def twoUsesSwapped : Package := ⟨"p", "p", [], some ⟨[(useA2, fieldA), (useA, fieldA)], []⟩, [], []⟩

theorem twoUses_reordered : List.Forall₂ UsesReordered [twoUses] [twoUsesSwapped] :=
  .cons ⟨rfl, rfl, rfl, .swap _ _ _⟩ .nil

theorem doHandleTextDocumentReferences_reordered_twoUses :
    List.Forall₂ UsesReordered [twoUses] [twoUsesSwapped] ∧
    ((0 : Int) ≤ 0 ∨ ([twoUses].flatMap (usesIn Unicode.ascii fieldA)).length + 1 ≤ (0 : Int)) ∧
    SameLocations
      (doHandleTextDocumentReferences Unicode.ascii .background [twoUses] offsetLocation fieldA
        true 0)
      (doHandleTextDocumentReferences Unicode.ascii .background [twoUsesSwapped] offsetLocation
        fieldA true 0) :=
  ⟨twoUses_reordered, .inl le_rfl,
    doHandleTextDocumentReferences_reordered Unicode.ascii .background offsetLocation fieldA true 0
      twoUses_reordered (.inl le_rfl)⟩

/-- With `XLimit = 1` the two enumeration orders return different locations. -/
theorem doHandleTextDocumentReferences_limit_sees_order :
    ¬ ∀ (u : Unicode) (ctx : Context) (pkgs pkgs' : List Package) (loc : LocationOf) (obj : Obj)
      (includeDeclaration : Bool) (xLimit : Int), List.Forall₂ UsesReordered pkgs pkgs' →
      SameLocations (doHandleTextDocumentReferences u ctx pkgs loc obj includeDeclaration xLimit)
        (doHandleTextDocumentReferences u ctx pkgs' loc obj includeDeclaration xLimit) := by
  intro h
  have hsame := h Unicode.ascii .background [twoUses] [twoUsesSwapped] offsetLocation fieldA false 1
    twoUses_reordered
  rw [show doHandleTextDocumentReferences Unicode.ascii .background [twoUses] offsetLocation fieldA
      false 1 = .ok [offsetLocation useA.namePos useA.name] from rfl,
    show doHandleTextDocumentReferences Unicode.ascii .background [twoUsesSwapped] offsetLocation
      fieldA false 1 = .ok [offsetLocation useA2.namePos useA2.name] from rfl] at hsame
  have := (hsame _).1 (List.mem_singleton_self _)
  simp [offsetLocation, useA, useA2] at this

end Bingo
