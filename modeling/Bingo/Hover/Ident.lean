import Bingo.Hover.Pretty

/-! `hoverIdent`, the hover of an identifier. An object of the universe (one without a position)
is first looked up by name in the cached builtin package; the hover is then its declaration,
the comments, and for a struct or an interface type the laid-out body. The declaration is
`struct ` and the object's string for a field, `type N struct` or `type N interface` for a type
name of such a type, the object's string for a package name, and otherwise the object's string
through `prettyPrintTypesString`.

That last case is the hover of most objects: variables, constants, functions, type names of any
other type. `prettyPrintTypesString` returns nothing for a string that ends in `{}`, so the
declaration shown, the hover's first marked string, is empty exactly when the object is of that
case and its string ends in `{}` (`declaration_eq_empty`, `hoverIdent_first_empty`), as for
`var x interface{}`, `var c chan struct{}` or `type M map[string]struct{}`
(`hoverIdent_empty_declaration`). -/

namespace Bingo

/-- An `lsp.MarkedString`: Go source, or markdown (`lsp.RawMarkedString`). -/
inductive MarkedString
  | go (value : String)
  | raw (value : String)
  deriving DecidableEq, Repr

structure Hover where
  contents : List MarkedString
  range : Range
  deriving DecidableEq, Repr

/-- What `hoverIdent` reads of the identifier. -/
structure HoverIdent where
  name : String
  /-- `source.FindIdentObject`. -/
  object : Option Object
  /-- `source.FindIdentType`. -/
  type : Option GoType
  /-- `ident.Obj != nil`. -/
  hasAstObject : Bool
  /-- `rangeForNode` of the identifier. -/
  range : Range
  /-- Whether the identifier names the package clause of one of the package's files. -/
  isPackageClause : Bool
  /-- `source.PackageDoc` of the package's files. -/
  packageDoc : String

/-- What `hoverIdent` reads of the workspace: the table of `unicode.IsPrint`, the objects of the
builtin package when it is cached (`GetBuiltinPackage`), `source.FindComments` in the package of
an object, and `godocmd.ToMarkdown`. -/
structure HoverEnv where
  isPrint : Char → Bool
  builtin : Option (List Object)
  findComments : Option Object → Except String String
  toMarkdown : String → String

variable (env : HoverEnv)

/-- `maybeAddComments`. -/
def maybeAddComments (comments : String) (contents : List MarkedString) : List MarkedString :=
  if comments = "" then contents else contents ++ [.raw (env.toMarkdown comments)]

/-- `%+v` of an `lsp.Position`. -/
def Position.plusV (p : Position) : String :=
  ⟨"\x7bLine:".toList ++ formatInt p.line ++ " Character:".toList ++ formatInt p.character ++ ['\x7d']⟩

/-- `packageStatement`: the package clause of a file, or an error. -/
def packageStatement (i : HoverIdent) (position : Position) : Except String (Option Hover) :=
  if i.isPackageClause then
    .ok (some ⟨maybeAddComments env i.packageDoc [.go ("package " ++ i.name)], i.range⟩)
  else .error ("type/object not found at " ++ position.plusV)

/-- The declaration `hoverIdent` shows for the object `o`, and the block that follows the
comments; `original` is the object found for the identifier, which `o` replaces when it is a
universe object (`isBuiltIn`). The interface case assigns `extra` twice in the source; the first
value is overwritten. -/
def declaration (isBuiltIn : Bool) (original o : Object) : String × String :=
  let body (underlying : GoType) : String :=
    prettyPrintTypesString
      ⟨if isBuiltIn then objectString env.isPrint .byPath original
        else typeString env.isPrint .empty underlying⟩
  let (s, extra) : String × String :=
    match o.data with
    | .var _ true => ("struct " ++ ⟨objectString env.isPrint .byPath o⟩, "")
    | .typeName _ _ underlying =>
      match underlying with
      | .struct _ => ("type " ++ o.name ++ " struct", body underlying)
      | .iface _ _ => ("type " ++ o.name ++ " interface", body underlying)
      | _ => ("", "")
    | .pkgName _ => (⟨objectString env.isPrint .empty o⟩, "")
    | _ => ("", "")
  (if s = "" then prettyPrintTypesString ⟨objectString env.isPrint .empty o⟩ else s, extra)

/-- The hover made of a declaration: the comments of the object come after it, and a non-empty
extra block after them. -/
def showDeclaration (i : HoverIdent) (o : Option Object) (s extra : String) :
    Except String (Option Hover) := do
  let comments ← env.findComments o
  let contents := maybeAddComments env comments [.go s]
  .ok (some ⟨if extra ≠ "" then contents ++ [.go extra] else contents, i.range⟩)

/-- The object `hoverIdent` describes for the object found: a universe object is looked up by
name in the builtin package (`source.FindObject`), when that is cached. -/
def redirect (o : Object) : Option Object :=
  if !o.pos.isValid then env.builtin.bind fun objs => objs.find? (·.name == o.name) else some o

/-- `hoverIdent`. -/
def hoverIdent (i : HoverIdent) (position : Position) : Except String (Option Hover) :=
  match i.object, i.type with
  | none, none =>
    if i.hasAstObject then .ok (some ⟨maybeAddComments env "" [.go i.name], i.range⟩)
    else packageStatement env i position
  | some o, _ =>
    match redirect env o with
    | none => .ok none
    | some o' =>
      let (s, extra) := declaration env (!o.pos.isValid) o o'
      showDeclaration env i (some o') s extra
  | none, some t => showDeclaration env i none ⟨typeString env.isPrint .empty t⟩ ""

/-! ### The declaration shown -/

/-- The objects whose declaration `hoverIdent` writes itself rather than through the pretty
printer: fields, type names of a struct or an interface type, and package names. -/
def Object.declaredByHover (o : Object) : Bool :=
  match o.data with
  | .var _ true => true
  | .typeName _ _ (.struct _) | .typeName _ _ (.iface _ _) => true
  | .pkgName _ => true
  | _ => false

theorem append_ne_empty {s : String} (t : String) (hs : s.toList ≠ []) : s ++ t ≠ "" := by
  intro h
  have : s.toList ++ t.toList = [] := by rw [← toList_append, h]; rfl
  exact hs (List.append_eq_nil.1 this).1

/-- The declaration shown is empty exactly for an object that is not a field, a type name of a
struct or an interface type, or a package name, and whose string ends in `{}`. -/
theorem declaration_eq_empty (isBuiltIn : Bool) (original o : Object) :
    (declaration env isBuiltIn original o).1 = "" ↔
      o.declaredByHover = false ∧ hasSuffix ⟨objectString env.isPrint .empty o⟩ "\x7b\x7d" := by
  have hpretty : prettyPrintTypesString ⟨objectString env.isPrint .empty o⟩ = "" ↔
      hasSuffix ⟨objectString env.isPrint .empty o⟩ "\x7b\x7d" := by
    rw [prettyPrintTypesString_eq_empty, or_iff_left (objectString_ne_empty env.isPrint .empty o)]
  obtain ⟨name, pkg, pkgLevel, pos, data⟩ := o
  cases data with
  | var type isField =>
    cases isField
    · simpa [declaration, Object.declaredByHover] using hpretty
    · simp [declaration, Object.declaredByHover, append_ne_empty _ (show "struct ".toList ≠ [] by decide)]
  | typeName type isAlias underlying =>
    cases underlying <;> simp [declaration, Object.declaredByHover, hpretty, append_ne_empty,
      String.append_assoc]
  | pkgName imported =>
    simp [declaration, Object.declaredByHover, objectString_ne_empty]
  | const | func | label | builtin | nil => simpa [declaration, Object.declaredByHover] using hpretty

theorem maybeAddComments_head? (comments : String) (m : MarkedString) (extra : List MarkedString) :
    (maybeAddComments env comments [m] ++ extra).head? = some m := by
  unfold maybeAddComments
  split_ifs <;> rfl

/-- With an object found for the identifier, a hover's first marked string is the declaration of
the object the hover describes. -/
theorem hoverIdent_first {i : HoverIdent} {position : Position} {o : Object} {hv : Hover}
    (ho : i.object = some o) (h : hoverIdent env i position = .ok (some hv)) :
    ∃ o', redirect env o = some o' ∧
      hv.contents.head? = some (.go (declaration env (!o.pos.isValid) o o').1) := by
  unfold hoverIdent at h
  rw [ho] at h
  cases hr : redirect env o with
  | none => simp [hr] at h
  | some o' =>
    refine ⟨o', rfl, ?_⟩
    simp only [hr, showDeclaration] at h
    cases hc : env.findComments (some o') with
    | error e => simp [hc] at h; cases h
    | ok comments =>
      simp only [hc] at h
      cases h
      split_ifs
      · exact maybeAddComments_head? env comments _ _
      · simpa using maybeAddComments_head? env comments _ []

/-- With an object found for the identifier, the hover's first marked string is empty exactly when
the object it describes is not a field, a type name of a struct or an interface type, or a package
name, and its string ends in `{}`. -/
theorem hoverIdent_first_empty {i : HoverIdent} {position : Position} {o : Object} {hv : Hover}
    (ho : i.object = some o) (h : hoverIdent env i position = .ok (some hv)) :
    ∃ o', redirect env o = some o' ∧ (hv.contents.head? = some (.go "") ↔
      o'.declaredByHover = false ∧ hasSuffix ⟨objectString env.isPrint .empty o'⟩ "\x7b\x7d") := by
  obtain ⟨o', hr, hd⟩ := hoverIdent_first env ho h
  refine ⟨o', hr, ?_⟩
  rw [hd, ← declaration_eq_empty env (!o.pos.isValid) o o']
  simp

/-! ### Objects whose hover shows no declaration -/

/-- The path of the package `p`. -/
def pathP : PlainText := ⟨"p", by decide, by decide⟩

/-- `var x interface{}` of package `p`. -/
def varX : Object := ⟨"x", some pathP, true, ⟨"/w/p/x.go", 4⟩, .var (.iface [] []) false⟩

/-- `type M map[string]struct{}` of package `p`. -/
def typeM : Object :=
  ⟨"M", some pathP, true, ⟨"/w/p/m.go", 5⟩,
    .typeName (.named (some pathP) ⟨"M", by decide, by decide⟩) false
      (.map (.basic ⟨"string", by decide, by decide⟩) (.struct []))⟩

/-- The identifier of a declared object. -/
def identOf (o : Object) (r : Range) : HoverIdent := ⟨o.name, some o, none, true, r, false, ""⟩

/-- The hover of `x` in `var x interface{}` and of `M` in `type M map[string]struct{}`, in a
workspace without comments for them: a single marked string, empty, where the declarations
`var x interface{}` and `type M map[string]struct{}` belong. -/
theorem hoverIdent_empty_declaration (isPrint : Char → Bool) (r : Range) :
    let env : HoverEnv := ⟨isPrint, none, fun _ => .ok "", id⟩
    hoverIdent env (identOf varX r) ⟨0, 0⟩ = .ok (some ⟨[.go ""], r⟩) ∧
    String.mk (objectString isPrint .empty varX) = "var x interface\x7b\x7d" ∧
    hoverIdent env (identOf typeM r) ⟨0, 0⟩ = .ok (some ⟨[.go ""], r⟩) ∧
    String.mk (objectString isPrint .empty typeM) = "type M map[string]struct\x7b\x7d" :=
  ⟨rfl, rfl, rfl, rfl⟩

theorem hoverIdent_first_empty_varX :
    let env : HoverEnv := ⟨fun _ => true, none, fun _ => .ok "", id⟩
    (identOf varX ⟨⟨0, 4⟩, ⟨0, 5⟩⟩).object = some varX ∧
      hoverIdent env (identOf varX ⟨⟨0, 4⟩, ⟨0, 5⟩⟩) ⟨0, 4⟩ = .ok (some ⟨[.go ""], ⟨⟨0, 4⟩, ⟨0, 5⟩⟩⟩) ∧
      ∃ o', redirect env varX = some o' ∧ ((⟨[.go ""], ⟨⟨0, 4⟩, ⟨0, 5⟩⟩⟩ : Hover).contents.head? = some (.go "") ↔
        o'.declaredByHover = false ∧ hasSuffix ⟨objectString env.isPrint .empty o'⟩ "\x7b\x7d") :=
  have h : hoverIdent ⟨fun _ => true, none, fun _ => .ok "", id⟩ (identOf varX ⟨⟨0, 4⟩, ⟨0, 5⟩⟩) ⟨0, 4⟩ =
      .ok (some ⟨[.go ""], ⟨⟨0, 4⟩, ⟨0, 5⟩⟩⟩) := rfl
  ⟨rfl, h, hoverIdent_first_empty _ rfl h⟩

end Bingo
