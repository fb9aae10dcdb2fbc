import Bingo.Hover.Ident

/-! `handleHover`, the `textDocument/hover` request. It type-checks the document, takes the nodes
enclosing the position and switches on the first: an identifier, the name of a type
specification, the selected name of a selector, or the function of a call when that is a name,
is hovered by `hoverIdent`; a string literal that is the path of an import specification shows
the imported package's clause and documentation. An `InvalidNodeError` of `typeCheck` (the
position is on no identifier) and a `NoGoError` (a package without Go files it can analyse) are
answered with no hover, as is every other node; `hoverCallExpr` reports an invalid node for a
call whose function is not a name, such as `f()()` or `m[k]()`. -/

namespace Bingo

/-- The imported package as `hoverBasicLit` reads it: `GetName`, and `source.PackageDoc` of its
files. -/
structure ImportedPackage where
  name : String
  doc : String

/-- The second path node, as `hoverBasicLit` reads it: an import specification, with the package
it imports (`pkg.GetImport` of the path without its quotes) and its range, or another node. -/
inductive HoverParent
  | importSpec (imported : ImportedPackage) (range : Range)
  | other

/-- The function of a call, as `hoverCallExpr` reads it. -/
inductive CallFun
  | ident (i : HoverIdent)
  | selector (sel : HoverIdent)
  | other

/-- The first path node, as `handleHover` switches on it; a basic literal comes with the second
node, when there is one. -/
inductive HoverNode
  | ident (i : HoverIdent)
  | basicLit (parent : Option HoverParent)
  | typeSpec (name : HoverIdent)
  | callExpr (fn : CallFun)
  | selectorExpr (sel : HoverIdent)
  | other

/-- An error of `typeCheck`: `InvalidNodeError`, `build.NoGoError`, or another. -/
inductive TypeCheckError
  | invalidNode
  | noGo
  | other (msg : String)

/-- An error `handleHover` returns: `source.NewInvalidNodeError`, or the text of another. -/
inductive HoverError
  | invalidNode
  | message (msg : String)
  deriving DecidableEq, Repr

variable (env : HoverEnv)

/-- `hoverCallExpr`. -/
def hoverCallExpr (fn : CallFun) (position : Position) : Except HoverError (Option Hover) :=
  match fn with
  | .ident i | .selector i => (hoverIdent env i position).mapError .message
  | .other => .error .invalidNode

/-- `hoverBasicLit`: a hover only for the path of an import specification. -/
def hoverBasicLit : Option HoverParent → Option Hover
  | some (.importSpec imported range) =>
    some ⟨maybeAddComments env imported.doc [.go ("package " ++ imported.name)], range⟩
  | _ => none

/-- `handleHover`, given what `typeCheck` and then `GetPathNodes` give for the position. -/
def handleHover (resolved : Except TypeCheckError (Except String HoverNode)) (position : Position) :
    Except HoverError (Option Hover) :=
  match resolved with
  | .error .invalidNode | .error .noGo => .ok none
  | .error (.other msg) | .ok (.error msg) => .error (.message msg)
  | .ok (.ok node) =>
    match node with
    | .ident i | .typeSpec i | .selectorExpr i => (hoverIdent env i position).mapError .message
    | .basicLit parent => .ok (hoverBasicLit env parent)
    | .callExpr fn => hoverCallExpr env fn position
    | .other => .ok none

end Bingo
