import Bingo.Ast

/-! The part of `go/types` the handlers read: objects, and types with their method sets. Pointer
identity of objects is an `id` field; a named type is identified by its type name object; two
signatures are identical when their identities are. A method set is given as the type checker
resolves it (methods of embedded interfaces and promoted methods included, each method once);
method lookup, identity and assignability to an interface are computed from it as `go/types`
computes them. -/

namespace Bingo

/-- `*types.Package`. -/
structure TypesPackage where
  id : Nat
  path : String
  deriving DecidableEq, Repr

inductive ObjKind
  | typeName | func | var | const | label | builtin | nil
  | pkgName (imported : TypesPackage)
  deriving DecidableEq, Repr

/-- A `types.Object`; `pkg` is `none` for the objects of the universe scope. -/
structure Obj where
  id : Nat
  kind : ObjKind
  name : String
  pkg : Option TypesPackage
  pos : Pos
  deriving DecidableEq, Repr

/-- `Object.Exported`. -/
def Obj.exported (u : Unicode) (o : Obj) : Bool := isExported u o.name

/-- `types.Id`: an exported name is its own identity, an unexported one is qualified by the
path of its package (`_` when it has none). -/
def typesId (u : Unicode) (pkg : Option TypesPackage) (name : String) : String :=
  if isExported u name then name
  else
    let path := match pkg with
      | some p => if p.path = "" then "_" else p.path
      | none => "_"
    path ++ "." ++ name

/-! ### Types and method sets -/

/-- A method: its `*types.Func`, the identity of its signature, and whether it belongs to the
method set of the pointer type only (a pointer receiver). -/
structure Method where
  obj : Obj
  sig : Nat
  ptrRecv : Bool
  deriving DecidableEq, Repr

def Method.id (u : Unicode) (m : Method) : String := typesId u m.obj.pkg m.obj.name

/-- An underlying type, as far as method sets go: an interface with its methods, or a concrete
type with the methods declared on it or promoted to it. -/
inductive Underlying
  | iface (methods : List Method)
  | concrete (methods : List Method)
  deriving DecidableEq, Repr

def Underlying.methods : Underlying → List Method
  | .iface ms | .concrete ms => ms

/-- The method set of a value whose type has this underlying type. -/
def Underlying.methodSet : Underlying → List Method
  | .iface ms => ms
  | .concrete ms => ms.filter (!·.ptrRecv)

/-- A `*types.Named`, identified by its type name object. -/
structure Named where
  obj : Obj
  underlying : Underlying
  deriving DecidableEq, Repr

/-- A `types.Type`: a named type, a pointer, or a type literal (identified by `id`, printed as
`str`). -/
inductive Ty
  | named (n : Named)
  | pointer (elem : Ty)
  | literal (id : Nat) (underlying : Underlying) (str : String)
  deriving DecidableEq, Repr

namespace Ty

def underlying? : Ty → Option Underlying
  | named n => some n.underlying
  | pointer _ => none
  | literal _ u _ => some u

/-- `types.IsInterface`. -/
def isInterface (t : Ty) : Bool :=
  match t.underlying? with
  | some (.iface _) => true
  | _ => false

/-- `types.NewMethodSet`: a pointer to a concrete type has all the methods of the type, a
pointer to anything else none. -/
def methodSet : Ty → List Method
  | named n => n.underlying.methodSet
  | literal _ u _ => u.methodSet
  | pointer t =>
    match t.underlying? with
    | some (.concrete ms) => ms
    | _ => []

/-- `MethodSet.Lookup`: the method of identity `types.Id(pkg, name)`. -/
def lookup (u : Unicode) (t : Ty) (pkg : Option TypesPackage) (name : String) : Option Method :=
  t.methodSet.find? fun m => m.id u == typesId u pkg name

/-- `Type.String`: a named type qualified by its package path. -/
def string : Ty → String
  | named n =>
    match n.obj.pkg with
    | some p => p.path ++ "." ++ n.obj.name
    | none => n.obj.name
  | pointer t => "*" ++ t.string
  | literal _ _ s => s

end Ty

/-- `types.Identical`. -/
def identical : Ty → Ty → Bool
  | .named n, .named n' => n.obj.id == n'.obj.id
  | .pointer t, .pointer t' => identical t t'
  | .literal i _ _, .literal i' _ _ => i == i'
  | _, _ => false

/-- `types.Implements` for an interface `T`: every method of `T` is in the method set of `V`, with
an identical signature. -/
def implementsIface (u : Unicode) (V T : Ty) : Bool :=
  T.methodSet.all fun m => (V.lookup u m.obj.pkg m.obj.name).any (·.sig == m.sig)

/-- `types.AssignableTo`, by the rules that apply when `T` is an interface (every call
`implements` makes); for any other `T` only by identity. -/
def assignableTo (u : Unicode) (V T : Ty) : Bool :=
  identical V T || T.isInterface && implementsIface u V T

/-- `source.Deref`. -/
def deref : Ty → Ty
  | .pointer t => t
  | t => t

/-- The universe's `error`: the interface `{ Error() string }`, declared at no position. The
universe's objects take ids `0` and `1`, and the signature `func() string` identity `0`. -/
def errorType : Named :=
  ⟨⟨0, .typeName, "error", none, ⟨"", 0⟩⟩, .iface [⟨⟨1, .func, "Error", none, ⟨"", 0⟩⟩, 0, false⟩]⟩

/-! ### Lookups find methods of the type -/

theorem Ty.mem_methodSet_of_lookup {u : Unicode} {t : Ty} {pkg : Option TypesPackage}
    {name : String} {m : Method} (h : t.lookup u pkg name = some m) : m ∈ t.methodSet :=
  List.mem_of_find?_eq_some h

theorem Underlying.methodSet_subset (ul : Underlying) : ul.methodSet ⊆ ul.methods := by
  cases ul with
  | iface ms => exact List.Subset.refl _
  | concrete ms => exact (List.filter_sublist ms).subset

/-- A method of a named type, or of a pointer to it, is one of the methods of its underlying
type. -/
theorem mem_methods_of_methodSet {n : Named} {m : Method} :
    ∀ {t : Ty}, deref t = .named n → m ∈ t.methodSet → m ∈ n.underlying.methods
  | .named _, rfl, h => n.underlying.methodSet_subset h
  | .pointer (.named _), rfl, h => by
    cases hu : n.underlying with
    | iface ms => simp [Ty.methodSet, Ty.underlying?, hu] at h
    | concrete ms => simpa [Ty.methodSet, Ty.underlying?, hu, Underlying.methods] using h

end Bingo
