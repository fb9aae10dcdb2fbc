import Bingo.Strings

/-! The Go syntax tree as `ast.Walk` reaches it. The nodes that the language server reads are
spelled out; every other node is `other`, with its children in the order `ast.Walk` visits them.
A `GenDecl` is one constructor per kind of specification it holds, as the parser builds it: a
`type` declaration holds type specifications, a `const` or `var` declaration value
specifications, and an `import` declaration is an `other`. Comments, and the positions of nodes
other than identifiers, are left out. -/

namespace Bingo

/-- A `token.Pos`, as the shared file set resolves it: file name and byte offset. The parses of
one file in a package and in its test variant resolve to equal positions. -/
structure Pos where
  filename : String
  offset : Nat
  deriving DecidableEq, Repr

/-- `*ast.Ident`. -/
structure Ident where
  id : Nat
  namePos : Pos
  name : String
  deriving DecidableEq, Repr

/-- The token of a `GenDecl` of value specifications. -/
inductive ValueToken
  | const | var
  deriving DecidableEq, Repr

inductive Node where
  /-- `*ast.Ident` as an expression. -/
  | ident (id : Ident)
  /-- `*ast.StarExpr`. -/
  | star (x : Node)
  /-- `*ast.StructType`, by the names and type of each field. -/
  | structType (fields : List (List Ident × Node))
  /-- `*ast.InterfaceType`, by the names and type of each method. -/
  | interfaceType (methods : List (List Ident × Node))
  /-- `*ast.GenDecl` with the token `type`, by the name and type of each `*ast.TypeSpec`. -/
  | typeDecl (specs : List (Ident × Node))
  /-- `*ast.GenDecl` with the token `const` or `var`, by the names of each `*ast.ValueSpec`
  and its type and values. -/
  | valueDecl (tok : ValueToken) (tokPos : Pos) (specs : List (List Ident × List Node))
  /-- `*ast.FuncDecl`: the receiver's fields, the name, the signature and the body. -/
  | funcDecl (recv : Option (List (List Ident × Node))) (name : Ident) (type : Node)
      (body : Option Node)
  /-- Any other node, by its children. -/
  | other (children : List Node)
  deriving Repr

/-- `*ast.File`, by its declarations. -/
structure File where
  decls : List Node
  deriving Repr

/-! ### Declarations below a node -/

mutual

/-- Whether no declaration lies in the tree. -/
def Node.declFree : Node → Bool
  | .ident _ => true
  | .star x => x.declFree
  | .structType fields => Node.fieldsDeclFree fields
  | .interfaceType methods => Node.fieldsDeclFree methods
  | .typeDecl _ | .valueDecl .. | .funcDecl .. => false
  | .other children => Node.listDeclFree children

def Node.listDeclFree : List Node → Bool
  | [] => true
  | n :: ns => n.declFree && Node.listDeclFree ns

def Node.fieldsDeclFree : List (List Ident × Node) → Bool
  | [] => true
  | (_, type) :: fs => type.declFree && Node.fieldsDeclFree fs

end

@[simp] theorem Node.listDeclFree_iff : ∀ {ns : List Node}, Node.listDeclFree ns ↔ ∀ n ∈ ns, n.declFree
  | [] => by simp [Node.listDeclFree]
  | n :: ns => by simp [Node.listDeclFree, Node.listDeclFree_iff]

@[simp] theorem Node.fieldsDeclFree_iff : ∀ {fs : List (List Ident × Node)},
    Node.fieldsDeclFree fs ↔ ∀ f ∈ fs, f.2.declFree
  | [] => by simp [Node.fieldsDeclFree]
  | f :: fs => by simp [Node.fieldsDeclFree, Node.fieldsDeclFree_iff]

end Bingo
