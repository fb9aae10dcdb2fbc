import Bingo.Workspace
import Bingo.Symbol.Query

/-! Symbol extraction: `ast.Walk` with the `SymbolCollector`. `Visit` adds a symbol for each type
specification (with one per named field or method of a struct or interface type), each name of
a `const` or `var` declaration, and each function or method declaration.

`Visit` returns the collector for every node, so the walk does not stop at the top level: a
type, constant or variable declared in a function body, or in a function literal anywhere, is a
symbol too. The `var` case skips the name `_` and the `const` case does not. `addContainer`
gives every member the kind `Field`, the methods of an interface type included. Where none of
these three occurs, and no `const` or `var` declaration names an identifier twice, the symbols
are exactly those of the file's top-level declarations (`astFileToSymbols_topLevel`). -/

namespace Bingo

/-- `lsp.SymbolInformation`. -/
structure SymbolInformation where
  name : String
  kind : SymbolKind
  location : Location
  containerName : String
  deriving DecidableEq, Repr

section Collector

variable (loc : LocationOf)

/-- `toSym`, without the symbol descriptor, which only a query by descriptor reads. -/
def toSym (name container _recv : String) (kind : SymbolKind) (pos : Pos) : SymbolInformation :=
  ⟨name, kind, loc pos name, container⟩

/-- `SymbolCollector.addSymbol`. It passes its `recv` in `toSym`'s `container` place and its
`container` in the `recv` place. -/
def addSymbol (name recv container : String) (kind : SymbolKind) (pos : Pos) : SymbolInformation :=
  toSym loc name recv container kind pos

/-- `recvString`. -/
def recvString : Node → String
  | .ident id => id.name
  | .star x => "*" ++ recvString x
  | _ => "BADRECV"

/-- The receiver type name of `addFuncDecl`: a receiver list that is not one field has no type,
and `recvString` of no type is `BADRECV`. -/
def recvTypeName : List (List Ident × Node) → String
  | [(_, type)] => recvString type
  | _ => "BADRECV"

/-- `SymbolCollector.addFuncDecl`. -/
def addFuncDecl (recv : Option (List (List Ident × Node))) (name : Ident) : SymbolInformation :=
  match recv with
  | some list => addSymbol loc name.name (recvTypeName list) (recvTypeName list) skMethod name.namePos
  | none => addSymbol loc name.name "" "" skFunction name.namePos

/-- `SymbolCollector.addContainer`: a `Field` symbol for each named member, then the container. -/
def addContainer (containerName : String) (fields : List (List Ident × Node))
    (containerKind : SymbolKind) (containerPos : Pos) : List SymbolInformation :=
  (fields.flatMap fun field => field.1.map fun fieldName =>
      addSymbol loc fieldName.name containerName "" skField fieldName.namePos) ++
    [addSymbol loc containerName "" "" containerKind containerPos]

/-- `SymbolCollector.Visit` on a `*ast.TypeSpec`. -/
def visitTypeSpec (name : Ident) (type : Node) : List SymbolInformation :=
  if name.name ≠ "_" then
    match type with
    | .structType fields => addContainer loc name.name fields skClass name.namePos
    | .interfaceType methods => addContainer loc name.name methods skInterface name.namePos
    | _ => [addSymbol loc name.name "" "" skClass name.namePos]
  else []

/-- `specNames`. -/
def specNames (specs : List (List Ident × List Node)) : List String :=
  specs.flatMap fun spec => spec.1.map (·.name)

/-- `declNamePos` on a `const` or `var` declaration: the position of the first identifier of the
name, else of the token. -/
def declNamePos (tokPos : Pos) (specs : List (List Ident × List Node)) (name : String) : Pos :=
  match (specs.flatMap (·.1)).find? (·.name = name) with
  | some specName => specName.namePos
  | none => tokPos

/-- `SymbolCollector.Visit` on a `*ast.GenDecl` of constants or variables. -/
def visitValueDecl (tok : ValueToken) (tokPos : Pos) (specs : List (List Ident × List Node)) :
    List SymbolInformation :=
  match tok with
  | .const => (specNames specs).map fun name =>
      addSymbol loc name "" "" skConstant (declNamePos tokPos specs name)
  | .var => ((specNames specs).filter (· ≠ "_")).map fun name =>
      addSymbol loc name "" "" skVariable (declNamePos tokPos specs name)

mutual

/-- `ast.Walk` with the `SymbolCollector`: what `Visit` adds for the node, then the walk of its
children in order. -/
def walkSymbols : Node → List SymbolInformation
  | .ident _ => []
  | .star x => walkSymbols x
  | .structType fields => walkFields fields
  | .interfaceType methods => walkFields methods
  | .typeDecl specs => walkTypeSpecs specs
  | .valueDecl tok tokPos specs => visitValueDecl loc tok tokPos specs ++ walkValueSpecs specs
  | .funcDecl recv name type body =>
    addFuncDecl loc recv name ::
      ((match recv with
        | some fields => walkFields fields
        | none => []) ++
        walkSymbols type ++
        (match body with
        | some b => walkSymbols b
        | none => []))
  | .other children => walkList children

def walkList : List Node → List SymbolInformation
  | [] => []
  | n :: ns => walkSymbols n ++ walkList ns

def walkFields : List (List Ident × Node) → List SymbolInformation
  | [] => []
  | (_, type) :: fs => walkSymbols type ++ walkFields fs

def walkTypeSpecs : List (Ident × Node) → List SymbolInformation
  | [] => []
  | (name, type) :: specs => visitTypeSpec loc name type ++ walkSymbols type ++ walkTypeSpecs specs

def walkValueSpecs : List (List Ident × List Node) → List SymbolInformation
  | [] => []
  | (_, exprs) :: specs => walkList exprs ++ walkValueSpecs specs

end

/-- `astFileToSymbols`. -/
def astFileToSymbols (file : File) : List SymbolInformation := walkList loc file.decls

/-- `astPkgToSymbols`. -/
def astPkgToSymbols (pkg : Package) : List SymbolInformation :=
  pkg.files.flatMap (astFileToSymbols loc)

/-- `handleTextDocumentSymbol`, given what `loadPackageAndAst` (not in the source) gives for the
document: its error, or its file. -/
def handleTextDocumentSymbol (load : Except String File) : Except String (List SymbolInformation) :=
  load.map (astFileToSymbols loc)

/-! ### The top-level declarations -/

/-- The symbols of the named members of a type, of the given kind. -/
def memberSymbols (members : List (List Ident × Node)) (kind : SymbolKind) (container : String) :
    List SymbolInformation :=
  members.flatMap fun m => m.1.map fun id => ⟨id.name, kind, loc id.namePos id.name, container⟩

/-- The symbols of a type specification as one that reads only the top level names them: none
for `_`; else the fields (kind `Field`) or methods (kind `Method`) of a struct or interface type,
then the type, of kind `Interface` or `Class`. -/
def typeSpecSymbols (name : Ident) (type : Node) : List SymbolInformation :=
  if name.name = "_" then [] else
    match type with
    | .structType fields => memberSymbols loc fields skField name.name ++
        [⟨name.name, skClass, loc name.namePos name.name, ""⟩]
    | .interfaceType methods => memberSymbols loc methods skMethod name.name ++
        [⟨name.name, skInterface, loc name.namePos name.name, ""⟩]
    | _ => [⟨name.name, skClass, loc name.namePos name.name, ""⟩]

/-- The symbols of a declaration as one that reads only the top level names them: its type
specifications; each constant or variable other than `_`; each function, and each method with
its receiver's type as container. -/
def topLevelSymbols : Node → List SymbolInformation
  | .typeDecl specs => specs.flatMap fun s => typeSpecSymbols loc s.1 s.2
  | .valueDecl tok _ specs => ((specs.flatMap (·.1)).filter (·.name ≠ "_")).map fun id =>
      ⟨id.name, if tok = .const then skConstant else skVariable, loc id.namePos id.name, ""⟩
  | .funcDecl (some recv) name _ _ =>
      [⟨name.name, skMethod, loc name.namePos name.name, recvTypeName recv⟩]
  | .funcDecl none name _ _ => [⟨name.name, skFunction, loc name.namePos name.name, ""⟩]
  | _ => []

end Collector

/-- A top-level declaration on which the two readings agree: nothing is declared below it; as a
`type` declaration, its interface types have no named method; as a `const` or `var`
declaration, it names no constant `_` and no name other than `_` twice. -/
def Plain : Node → Prop
  | .typeDecl specs => ∀ s ∈ specs, s.2.declFree ∧ ∀ ms, s.2 = .interfaceType ms → ∀ m ∈ ms, m.1 = []
  | .valueDecl tok _ specs => (∀ s ∈ specs, ∀ e ∈ s.2, e.declFree) ∧
      (((specs.flatMap (·.1)).filter (·.name ≠ "_")).map (·.name)).Nodup ∧
      (tok = .const → ∀ id ∈ specs.flatMap (·.1), id.name ≠ "_")
  | .funcDecl recv _ type body =>
      (∀ f ∈ recv.getD [], f.2.declFree) ∧ type.declFree ∧ ∀ b ∈ body, b.declFree
  | n => n.declFree

section Walk

variable (loc : LocationOf)

mutual

theorem walkSymbols_of_declFree : ∀ (n : Node), n.declFree → walkSymbols loc n = []
  | .ident _, _ => rfl
  | .star x, h => walkSymbols_of_declFree x h
  | .structType fields, h => walkFields_of_declFree fields h
  | .interfaceType methods, h => walkFields_of_declFree methods h
  | .other children, h => walkList_of_declFree children h

theorem walkList_of_declFree : ∀ (ns : List Node), Node.listDeclFree ns → walkList loc ns = []
  | [], _ => rfl
  | n :: ns, h => by
    simp only [Node.listDeclFree, Bool.and_eq_true] at h
    rw [walkList, walkSymbols_of_declFree n h.1, walkList_of_declFree ns h.2]; rfl

theorem walkFields_of_declFree : ∀ (fs : List (List Ident × Node)), Node.fieldsDeclFree fs →
    walkFields loc fs = []
  | [], _ => rfl
  | (_, type) :: fs, h => by
    simp only [Node.fieldsDeclFree, Bool.and_eq_true] at h
    rw [walkFields, walkSymbols_of_declFree type h.1, walkFields_of_declFree fs h.2]; rfl

end

theorem walkValueSpecs_of_declFree : ∀ {specs : List (List Ident × List Node)},
    (∀ s ∈ specs, ∀ e ∈ s.2, e.declFree) → walkValueSpecs loc specs = []
  | [], _ => rfl
  | (_, exprs) :: specs, h => by
    rw [walkValueSpecs,
      walkList_of_declFree loc exprs (Node.listDeclFree_iff.2 (h _ (List.mem_cons_self _ _))),
      walkValueSpecs_of_declFree fun s hs => h s (List.mem_cons_of_mem _ hs)]
    rfl

theorem addContainer_eq (c : String) (fields : List (List Ident × Node)) (k : SymbolKind)
    (pos : Pos) :
    addContainer loc c fields k pos = memberSymbols loc fields skField c ++ [⟨c, k, loc pos c, ""⟩] :=
  rfl

theorem memberSymbols_of_unnamed {ms : List (List Ident × Node)} (h : ∀ m ∈ ms, m.1 = [])
    (k : SymbolKind) (c : String) : memberSymbols loc ms k c = [] := by
  rw [memberSymbols, List.flatMap_eq_nil_iff]
  intro m hm
  rw [h m hm]
  rfl

theorem visitTypeSpec_eq {name : Ident} {type : Node}
    (h : ∀ ms, type = .interfaceType ms → ∀ m ∈ ms, m.1 = []) :
    visitTypeSpec loc name type = typeSpecSymbols loc name type := by
  unfold visitTypeSpec typeSpecSymbols
  by_cases hn : name.name = "_"
  · simp [hn]
  rw [if_pos hn, if_neg hn]
  cases type with
  | structType fields => exact addContainer_eq loc _ _ _ _
  | interfaceType methods =>
    dsimp only
    rw [addContainer_eq, memberSymbols_of_unnamed loc (h methods rfl),
      memberSymbols_of_unnamed loc (h methods rfl)]
  | ident | star | typeDecl | valueDecl | funcDecl | other => rfl

/-- In a declaration that names each identifier other than `_` once, such an identifier is
located at itself. -/
theorem declNamePos_of_mem {tokPos : Pos} {specs : List (List Ident × List Node)} {id : Ident}
    (hid : id ∈ specs.flatMap (·.1)) (hblank : id.name ≠ "_")
    (hnd : (((specs.flatMap (·.1)).filter (·.name ≠ "_")).map (·.name)).Nodup) :
    declNamePos tokPos specs id.name = id.namePos := by
  obtain ⟨x, hx⟩ := Option.isSome_iff_exists.1
    (List.find?_isSome.2 ⟨id, hid, decide_eq_true rfl⟩ :
      ((specs.flatMap (·.1)).find? (·.name = id.name)).isSome)
  have hxname : x.name = id.name := by simpa using List.find?_some hx
  have hxid : x = id := List.inj_on_of_nodup_map hnd
    (List.mem_filter.2 ⟨List.mem_of_find?_eq_some hx, decide_eq_true (hxname ▸ hblank)⟩)
    (List.mem_filter.2 ⟨hid, decide_eq_true hblank⟩) hxname
  rw [declNamePos, hx, hxid]

theorem visitValueDecl_eq {tok : ValueToken} {tokPos : Pos} {specs : List (List Ident × List Node)}
    (hnd : (((specs.flatMap (·.1)).filter (·.name ≠ "_")).map (·.name)).Nodup)
    (hconst : tok = .const → ∀ id ∈ specs.flatMap (·.1), id.name ≠ "_") :
    visitValueDecl loc tok tokPos specs = topLevelSymbols loc (.valueDecl tok tokPos specs) := by
  have hnames : specNames specs = (specs.flatMap (·.1)).map (·.name) :=
    (List.map_flatMap _ _ _).symm
  have hpos : ∀ id ∈ (specs.flatMap (·.1)).filter (·.name ≠ "_"),
      declNamePos tokPos specs id.name = id.namePos := fun id hid =>
    declNamePos_of_mem (List.mem_filter.1 hid).1 (of_decide_eq_true (List.mem_filter.1 hid).2) hnd
  cases tok with
  | const =>
    have hall : (specs.flatMap (·.1)).filter (·.name ≠ "_") = specs.flatMap (·.1) :=
      List.filter_eq_self.2 fun id h => decide_eq_true (hconst rfl id h)
    rw [hall] at hpos
    simp only [visitValueDecl, topLevelSymbols, hnames, hall, List.map_map, if_pos]
    exact List.map_congr_left fun id h => by simp [addSymbol, toSym, hpos id h]
  | var =>
    simp only [visitValueDecl, topLevelSymbols, hnames, List.filter_map, List.map_map]
    exact List.map_congr_left fun id h => by simp [addSymbol, toSym, hpos id h]

theorem walkTypeSpecs_eq : ∀ {specs : List (Ident × Node)},
    (∀ s ∈ specs, s.2.declFree ∧ ∀ ms, s.2 = .interfaceType ms → ∀ m ∈ ms, m.1 = []) →
    walkTypeSpecs loc specs = specs.flatMap fun s => typeSpecSymbols loc s.1 s.2
  | [], _ => rfl
  | (name, type) :: specs, h => by
    obtain ⟨hfree, hiface⟩ := h _ (List.mem_cons_self _ _)
    rw [walkTypeSpecs, visitTypeSpec_eq loc hiface, walkSymbols_of_declFree loc type hfree,
      walkTypeSpecs_eq fun s hs => h s (List.mem_cons_of_mem _ hs), List.append_nil,
      List.flatMap_cons]

/-- On a plain top-level declaration the walk gives the symbols the top-level reading names. -/
theorem walkSymbols_plain : ∀ {d : Node}, Plain d → walkSymbols loc d = topLevelSymbols loc d
  | .typeDecl _, h => walkTypeSpecs_eq loc h
  | .valueDecl _ _ _, ⟨hfree, hnd, hconst⟩ => by
    rw [walkSymbols, visitValueDecl_eq loc hnd hconst, walkValueSpecs_of_declFree loc hfree,
      List.append_nil]
  | .funcDecl recv name type body, ⟨hrecv, htype, hbody⟩ => by
    have hfields : ∀ fs, recv = some fs → walkFields loc fs = [] := fun fs h =>
      walkFields_of_declFree loc fs (Node.fieldsDeclFree_iff.2 (by simpa [h] using hrecv))
    have hb : ∀ b, body = some b → walkSymbols loc b = [] := fun b h =>
      walkSymbols_of_declFree loc b (hbody b h)
    cases recv <;> cases body <;>
      simp [walkSymbols, topLevelSymbols, walkSymbols_of_declFree loc type htype, addFuncDecl,
        addSymbol, toSym, hfields, hb]
  | .ident _, h | .star _, h | .structType _, h | .interfaceType _, h | .other _, h =>
    walkSymbols_of_declFree loc _ h

theorem walkList_plain : ∀ {ds : List Node}, (∀ d ∈ ds, Plain d) →
    walkList loc ds = ds.flatMap (topLevelSymbols loc)
  | [], _ => rfl
  | d :: ds, h => by
    rw [walkList, walkSymbols_plain loc (h d (List.mem_cons_self _ _)),
      walkList_plain fun d' hd' => h d' (List.mem_cons_of_mem _ hd'), List.flatMap_cons]

/-- A file whose top-level declarations are plain gives exactly the symbols of its top-level
declarations, in order. -/
theorem astFileToSymbols_topLevel (file : File) (h : ∀ d ∈ file.decls, Plain d) :
    astFileToSymbols loc file = file.decls.flatMap (topLevelSymbols loc) :=
  walkList_plain loc h

/-- The file `type T struct{ A int }`, `func f() {}`, as `a.go`. -/
def structFunc : File where
  decls := [
    .typeDecl [(⟨1, ⟨"a.go", 5⟩, "T"⟩, .structType [([⟨2, ⟨"a.go", 16⟩, "A"⟩], .ident ⟨3, ⟨"a.go", 18⟩, "int"⟩)])],
    .funcDecl none ⟨4, ⟨"a.go", 30⟩, "f"⟩ (.other []) (some (.other []))]

theorem astFileToSymbols_topLevel_structFunc :
    (∀ d ∈ structFunc.decls, Plain d) ∧
      astFileToSymbols offsetLocation structFunc = structFunc.decls.flatMap (topLevelSymbols offsetLocation) :=
  have h : ∀ d ∈ structFunc.decls, Plain d := by simp [structFunc, Plain, Node.declFree]
  ⟨h, astFileToSymbols_topLevel offsetLocation structFunc h⟩

end Walk

/-- The file `const _ = 1`, `type I interface{ M() }`, `func f() { var x int }`, as `a.go`. -/
def blankIfaceNested : File where
  decls := [
    .valueDecl .const ⟨"a.go", 11⟩ [([⟨1, ⟨"a.go", 17⟩, "_"⟩], [.other []])],
    .typeDecl [(⟨2, ⟨"a.go", 29⟩, "I"⟩, .interfaceType [([⟨3, ⟨"a.go", 42⟩, "M"⟩], .other [])])],
    .funcDecl none ⟨4, ⟨"a.go", 54⟩, "f"⟩ (.other [])
      (some (.other [.other [.valueDecl .var ⟨"a.go", 60⟩
        [([⟨5, ⟨"a.go", 64⟩, "x"⟩], [.ident ⟨6, ⟨"a.go", 66⟩, "int"⟩])]]]))]

/-- The collector gives the constant `_`, the method `M` as a field, and the variable `x` of the
body of `f`; the top-level reading gives `M` as a method, `I` and `f`. -/
theorem astFileToSymbols_beyond_top_level (loc : LocationOf) :
    astFileToSymbols loc blankIfaceNested =
      [⟨"_", skConstant, loc ⟨"a.go", 17⟩ "_", ""⟩, ⟨"M", skField, loc ⟨"a.go", 42⟩ "M", "I"⟩,
        ⟨"I", skInterface, loc ⟨"a.go", 29⟩ "I", ""⟩, ⟨"f", skFunction, loc ⟨"a.go", 54⟩ "f", ""⟩,
        ⟨"x", skVariable, loc ⟨"a.go", 64⟩ "x", ""⟩] ∧
    blankIfaceNested.decls.flatMap (topLevelSymbols loc) =
      [⟨"M", skMethod, loc ⟨"a.go", 42⟩ "M", "I"⟩, ⟨"I", skInterface, loc ⟨"a.go", 29⟩ "I", ""⟩,
        ⟨"f", skFunction, loc ⟨"a.go", 54⟩ "f", ""⟩] :=
  ⟨rfl, rfl⟩

end Bingo
