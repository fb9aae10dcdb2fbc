import Bingo.Resolve

/-! Go to definition. `doHandleXDefinition` reduces the first path node to an identifier (the
identifier itself, a type specification's name, a selector's selected name, or the function of a
call when that is an identifier or a selector), and `lookupIdentDefinition` reports the
declaration of its object: for an embedded field of named type the declaration of the type, and
for a universe object, which has no position, the object of that name in the cached builtin
package. `handleXDefinition` retries a failed request one character to the left, and
`handleDefinition` and `handleTypeDefinition` keep the locations and the type locations, the
latter only those that are set. A position on no identifier (`InvalidNodeError` from `typeCheck`)
returns no location at once, without the retry; only a path node of another kind, or an
identifier without an object, is retried. -/

namespace Bingo

/-- What `lookupIdentDefinition` reads of the object that `FindIdentObject` (not in the source)
finds for an identifier: the object; the type name object of its type when it is an embedded field
whose type is named; and `TypeLookup` of the identifier's type, the type name object of a named
type. -/
structure FoundObject where
  obj : Obj
  embeddedTypeName : Option Obj
  typeName : Option Obj
  deriving DecidableEq, Repr

/-- The builtin package `GetBuiltinPackage` returns: the location function of its file set, and
its objects, each with `TypeLookup` of its type. `FindObject` finds the object of a name. -/
structure BuiltinPackage where
  loc : LocationOf
  objects : List (Obj × Option Obj)

/-- `symbolLocationInformation` without its symbol descriptor. -/
structure SymbolLocationInformation where
  location : Location
  typeLocation : Location
  deriving DecidableEq, Repr

/-- The zero `lsp.Location`. -/
def Location.zero : Location := ⟨"", ⟨⟨0, 0⟩, ⟨0, 0⟩⟩⟩

inductive DefinitionError
  /-- An error of `typeCheck` or `GetPathNodes` other than an invalid node. -/
  | resolve (msg : String)
  /-- `NewInvalidNodeError`: a first path node the lookup does not handle. -/
  | invalidNode
  /-- `errors.New("definition not found")`. -/
  | notFound
  deriving DecidableEq, Repr

/-- The entry of a found node: the location of the object's name, and of its type's name when
it has a named type. -/
def definitionInfo (loc : LocationOf) (obj : Obj) (typ : Option Obj) : SymbolLocationInformation :=
  ⟨loc obj.pos obj.name, match typ with
    | some t => loc t.pos t.name
    | none => Location.zero⟩

/-- `lookupIdentDefinition`, from what `FindIdentObject` finds on. -/
def lookupIdentDefinition (loc : LocationOf) (builtin : Option BuiltinPackage)
    (found : Option FoundObject) : Except DefinitionError (List SymbolLocationInformation) :=
  match found with
  | none => .error .notFound
  | some f =>
    let obj := f.embeddedTypeName.getD f.obj
    if obj.pos.isValid then .ok [definitionInfo loc obj f.typeName]
    else
      match builtin with
      | none => .ok []
      | some b =>
        match b.objects.find? fun o => o.1.name = obj.name with
        | none => .ok []
        | some (o, typ) => .ok [definitionInfo b.loc o typ]

section Handlers

variable (loc : LocationOf) (builtin : Option BuiltinPackage) (objectOf : Ident → Option FoundObject)

/-- `lookupCallExprDefinition`: by the function of the call. -/
def lookupCallExprDefinition : PathNode → Except DefinitionError (List SymbolLocationInformation)
  | .ident id | .selectorExpr id => lookupIdentDefinition loc builtin (objectOf id)
  | _ => .error .invalidNode

/-- `doHandleXDefinition` at a position the resolver resolves to `r`. -/
def doHandleXDefinition : Resolved → Except DefinitionError (List SymbolLocationInformation)
  | .invalidNode => .ok []
  | .error msg => .error (.resolve msg)
  | .node (.ident id) | .node (.typeSpec id) | .node (.selectorExpr id) =>
    lookupIdentDefinition loc builtin (objectOf id)
  | .node (.callExpr fn) => lookupCallExprDefinition loc builtin objectOf fn
  | .node _ => .error .invalidNode

/-- `handleXDefinition`, over the resolver of the request's document. -/
def handleXDefinition (resolve : Position → Resolved) (p : Position) :
    Except DefinitionError (List SymbolLocationInformation) :=
  retryLeft (fun p => doHandleXDefinition loc builtin objectOf (resolve p)) p

/-- `handleDefinition`. -/
def handleDefinition (resolve : Position → Resolved) (p : Position) :
    Except DefinitionError (List Location) :=
  (handleXDefinition loc builtin objectOf resolve p).map fun res => res.map (·.location)

/-- `handleTypeDefinition`: the type locations that are set. -/
def handleTypeDefinition (resolve : Position → Resolved) (p : Position) :
    Except DefinitionError (List Location) :=
  (handleXDefinition loc builtin objectOf resolve p).map fun res =>
    (res.filter (·.typeLocation.uri != "")).map (·.typeLocation)

end Handlers

end Bingo
