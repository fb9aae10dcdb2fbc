import Bingo.Lsp
import Bingo.Resolve

/-! The formatter of `go/types` (`TypeString`, `ObjectString`) and `strconv.Quote`, which writes a
struct field's tag. These are library code, modelled from their output: types are finite trees,
so the cycle marker of `writeType` never appears, and interfaces are complete, so
`/* incomplete */` never does.

The formatter's output is built as a list of pieces: text, which is never empty and never holds
one of the five characters `prettyPrintTypesString` rewrites; a tag, written as a Go string
literal; and the body of a struct or an interface, whose members are written between braces and
separated by `; `. `render` writes the pieces out. -/

namespace Bingo

/-- The characters `prettyPrintTypesString` rewrites. -/
def isLayoutChar (c : Char) : Bool :=
  c == ';' || c == '\"' || c == '\\' || c == '{' || c == '}'

/-- A text the formatter writes outside the tags: an identifier, a keyword, a package path, a
number or punctuation. -/
structure PlainText where
  text : String
  ne : text.toList ≠ []
  plain : ∀ c ∈ text.toList, isLayoutChar c = false

theorem isLayoutChar_of_isDigit {c : Char} (h : c.isDigit) : isLayoutChar c = false := by
  simp only [Char.isDigit, Bool.and_eq_true, decide_eq_true_eq] at h
  have h₁ : ∀ d : Char, c = d → 48 ≤ d.val ∧ d.val ≤ 57 := fun d hd => hd ▸ h
  simp only [isLayoutChar, Bool.or_eq_false_iff, beq_eq_false_iff_ne]
  refine ⟨⟨⟨⟨?_, ?_⟩, ?_⟩, ?_⟩, ?_⟩ <;> intro hc <;> have := h₁ _ hc <;> simp at this

/-- `%d` of a length. -/
def PlainText.ofNat (n : Nat) : PlainText :=
  ⟨⟨Nat.toDigits 10 n⟩, (toDigits_spec n).1,
    fun _ hc => isLayoutChar_of_isDigit ((toDigits_spec n).2.1 _ hc)⟩

/-- A piece of the formatter's output. -/
inductive Piece
  | text (p : PlainText)
  | tag (s : String)
  | body (members : List (List Piece))

/-! ### `strconv.Quote` -/

/-- `n` in `width` lower-case hexadecimal digits. -/
def hexDigits : Nat → Nat → List Char
  | 0, _ => []
  | w + 1, n => hexDigits w (n / 16) ++ [Nat.digitChar (n % 16)]

section Quote

variable (isPrint : Char → Bool)

/-- `strconv.IsPrint`, with the table `isPrint` above Latin-1. -/
def printable (c : Char) : Bool :=
  if c.toNat < 0x7F then 0x20 ≤ c.toNat
  else if c.toNat ≤ 0xFF then 0xA1 ≤ c.toNat && c.toNat != 0xAD
  else isPrint c

/-- `appendEscapedRune` with the quote `"`, as `strconv.Quote` calls it. -/
def escapeRune (c : Char) : List Char :=
  if c = '\"' ∨ c = '\\' then ['\\', c]
  else if printable isPrint c then [c]
  else if c = '\x07' then ['\\', 'a']
  else if c = '\x08' then ['\\', 'b']
  else if c = '\x0c' then ['\\', 'f']
  else if c = '\n' then ['\\', 'n']
  else if c = '\r' then ['\\', 'r']
  else if c = '\t' then ['\\', 't']
  else if c = '\x0b' then ['\\', 'v']
  else if c.toNat < 0x20 ∨ c.toNat = 0x7F then '\\' :: 'x' :: hexDigits 2 c.toNat
  else if c.toNat < 0x10000 then '\\' :: 'u' :: hexDigits 4 c.toNat
  else '\\' :: 'U' :: hexDigits 8 c.toNat

/-- `strconv.Quote`. -/
def quote (s : String) : List Char := '\"' :: s.toList.flatMap (escapeRune isPrint) ++ ['\"']

/-! ### Writing the pieces out -/

mutual
def Piece.render : Piece → List Char
  | .text p => p.text.toList
  | .tag s => quote isPrint s
  | .body ms => '{' :: renderMembers ms ++ ['}']
def renderPieces : List Piece → List Char
  | [] => []
  | p :: ps => p.render ++ renderPieces ps
/-- The members of a body, separated by `; `. -/
def renderMembers : List (List Piece) → List Char
  | [] => []
  | [m] => renderPieces m
  | m :: ms => renderPieces m ++ ';' :: ' ' :: renderMembers ms
end

end Quote

/-! ### Types -/

inductive ChanDir
  | sendRecv | sendOnly | recvOnly
  deriving DecidableEq, Repr

mutual
/-- A `types.Type`, as the formatter reads it. A basic type is given by its name (`unsafe.Pointer`
for the unsafe pointer); a named type by the path of its package, if it has one, and its name. -/
inductive GoType
  | basic (name : PlainText)
  | named (pkg : Option PlainText) (name : PlainText)
  | pointer (elem : GoType)
  | array (len : Nat) (elem : GoType)
  | slice (elem : GoType)
  | map (key elem : GoType)
  | chan (dir : ChanDir) (elem : GoType)
  | struct (fields : List StructField)
  | iface (methods : List IfaceMethod) (embeddeds : List GoType)
  | func (sig : Signature)
/-- A field of a struct; an embedded field's name is its type's. -/
inductive StructField
  | mk (name : PlainText) (embedded : Bool) (type : GoType) (tag : String)
/-- An explicit method of an interface. -/
inductive IfaceMethod
  | mk (name : PlainText) (sig : Signature)
/-- A `*types.Signature`: its parameters, whether the last is variadic, and its results. -/
inductive Signature
  | mk (params : List Param) (variadic : Bool) (results : List Param)
/-- A parameter or a result, named or not. -/
inductive Param
  | mk (name : Option PlainText) (type : GoType)
end

/-- `types.Qualifier`: `byPath` is the `nil` qualifier, which writes a package's path, and `empty`
is `hoverIdent`'s `qf`, which writes nothing. -/
inductive Qualifier
  | byPath | empty
  deriving DecidableEq, Repr

/-- `writePackage`. -/
def writePackage : Qualifier → Option PlainText → List Piece
  | .byPath, some path => [.text path, .text ⟨".", by decide, by decide⟩]
  | _, _ => []

/-- The text of a `chan` type before its element, and whether the element is parenthesised:
`chan (<-chan T)`. -/
def chanPrefix : ChanDir → GoType → PlainText × Bool
  | .sendRecv, .chan .recvOnly _ => (⟨"chan (", by decide, by decide⟩, true)
  | .sendRecv, _ => (⟨"chan ", by decide, by decide⟩, false)
  | .sendOnly, _ => (⟨"chan<- ", by decide, by decide⟩, false)
  | .recvOnly, _ => (⟨"<-chan ", by decide, by decide⟩, false)

/-- `writeTuple`'s parentheses around the variables. -/
def tuple (vars : List Piece) : List Piece :=
  .text ⟨"(", by decide, by decide⟩ :: vars ++ [.text ⟨")", by decide, by decide⟩]

/-- A variable's name and a space, unless it has none. -/
def paramName : Option PlainText → List Piece
  | some name => [.text name, .text ⟨" ", by decide, by decide⟩]
  | none => []

section Write

variable (q : Qualifier)

mutual
/-- `writeType`. -/
def GoType.doc : GoType → List Piece
  | .basic name => [.text name]
  | .named pkg name => writePackage q pkg ++ [.text name]
  | .pointer elem => .text ⟨"*", by decide, by decide⟩ :: elem.doc
  | .array len elem =>
    .text ⟨"[", by decide, by decide⟩ :: .text (PlainText.ofNat len) :: .text ⟨"]", by decide, by decide⟩ ::
      elem.doc
  | .slice elem => .text ⟨"[]", by decide, by decide⟩ :: elem.doc
  | .map key elem =>
    .text ⟨"map[", by decide, by decide⟩ :: key.doc ++ .text ⟨"]", by decide, by decide⟩ :: elem.doc
  | .chan dir elem =>
    let (pre, parens) := chanPrefix dir elem
    .text pre :: elem.doc ++ if parens then [.text ⟨")", by decide, by decide⟩] else []
  | .struct fields => [.text ⟨"struct", by decide, by decide⟩, .body (fieldDocs fields)]
  | .iface methods embeddeds =>
    [.text ⟨"interface", by decide, by decide⟩, .body (methodDocs methods ++ typeDocs embeddeds)]
  | .func sig => .text ⟨"func", by decide, by decide⟩ :: sig.doc
/-- The members of a struct's body: each field's name unless it is embedded, its type, and its
tag unless that is empty. -/
def fieldDocs : List StructField → List (List Piece)
  | [] => []
  | .mk name embedded type tag :: fs =>
    ((if embedded then [] else [.text name, .text ⟨" ", by decide, by decide⟩]) ++ type.doc ++
      if tag = "" then [] else [.text ⟨" ", by decide, by decide⟩, .tag tag]) :: fieldDocs fs
def methodDocs : List IfaceMethod → List (List Piece)
  | [] => []
  | .mk name sig :: ms => (.text name :: sig.doc) :: methodDocs ms
def typeDocs : List GoType → List (List Piece)
  | [] => []
  | t :: ts => t.doc :: typeDocs ts
/-- `writeSignature`: the parameters, then nothing, a single unnamed result, or the results. -/
def Signature.doc : Signature → List Piece
  | .mk params variadic [] => tuple (varsDoc variadic params)
  | .mk params variadic [.mk none type] =>
    tuple (varsDoc variadic params) ++ .text ⟨" ", by decide, by decide⟩ :: type.doc
  | .mk params variadic results =>
    tuple (varsDoc variadic params) ++ .text ⟨" ", by decide, by decide⟩ :: tuple (varsDoc false results)
/-- The variables of a tuple, separated by `, `; the last of a variadic tuple as `...T`. -/
def varsDoc (variadic : Bool) : List Param → List Piece
  | [] => []
  | [v] => v.doc variadic
  | v :: vs => v.doc false ++ .text ⟨", ", by decide, by decide⟩ :: varsDoc variadic vs
/-- A variable of a tuple: its name unless it has none, and its type; the variadic `[]E` as
`...E` (a slice is written as `[]E` otherwise, as `writeType` writes it), and `append`'s variadic
`string` as `string...`. -/
def Param.doc (variadic : Bool) : Param → List Piece
  | .mk name (.slice elem) =>
    paramName name ++
      .text (if variadic then ⟨"...", by decide, by decide⟩ else ⟨"[]", by decide, by decide⟩) :: elem.doc
  | .mk name type =>
    paramName name ++ if variadic then type.doc ++ [.text ⟨"...", by decide, by decide⟩] else type.doc
end

end Write

/-- `types.TypeString`. -/
def typeString (isPrint : Char → Bool) (q : Qualifier) (t : GoType) : List Char :=
  renderPieces isPrint (t.doc q)

/-! ### What the pieces hold -/

mutual
/-- The tags among the pieces. -/
def Piece.tags : Piece → List String
  | .text _ => []
  | .tag s => [s]
  | .body ms => membersTags ms
def piecesTags : List Piece → List String
  | [] => []
  | p :: ps => p.tags ++ piecesTags ps
def membersTags : List (List Piece) → List String
  | [] => []
  | m :: ms => piecesTags m ++ membersTags ms
end

mutual
/-- Every member of every body holds a piece. -/
def Piece.filled : Piece → Bool
  | .text _ | .tag _ => true
  | .body ms => membersFilled ms
def piecesFilled : List Piece → Bool
  | [] => true
  | p :: ps => p.filled && piecesFilled ps
def membersFilled : List (List Piece) → Bool
  | [] => true
  | m :: ms => !m.isEmpty && piecesFilled m && membersFilled ms
end

@[simp] theorem piecesFilled_nil : piecesFilled [] = true := rfl

@[simp] theorem piecesFilled_cons (p : Piece) (ps : List Piece) :
    piecesFilled (p :: ps) = (p.filled && piecesFilled ps) := rfl

@[simp] theorem membersFilled_nil : membersFilled [] = true := rfl

@[simp] theorem membersFilled_cons (m : List Piece) (ms : List (List Piece)) :
    membersFilled (m :: ms) = (!m.isEmpty && piecesFilled m && membersFilled ms) := rfl

@[simp] theorem Piece.filled_text (p : PlainText) : (Piece.text p).filled = true := rfl

@[simp] theorem Piece.filled_tag (s : String) : (Piece.tag s).filled = true := rfl

@[simp] theorem Piece.filled_body (ms : List (List Piece)) :
    (Piece.body ms).filled = membersFilled ms := rfl

@[simp] theorem piecesFilled_append (ps ps' : List Piece) :
    piecesFilled (ps ++ ps') = (piecesFilled ps && piecesFilled ps') := by
  induction ps with
  | nil => rfl
  | cons p ps ih => simp [ih, Bool.and_assoc]

@[simp] theorem membersFilled_append (ms ms' : List (List Piece)) :
    membersFilled (ms ++ ms') = (membersFilled ms && membersFilled ms') := by
  induction ms with
  | nil => rfl
  | cons m ms ih => simp [ih, Bool.and_assoc]

section Write

variable (q : Qualifier)

@[simp] theorem writePackage_filled (pkg : Option PlainText) : piecesFilled (writePackage q pkg) := by
  cases q <;> cases pkg <;> rfl

theorem GoType.doc_ne_nil (t : GoType) : t.doc q ≠ [] := by
  cases t <;> simp [GoType.doc]


theorem paramName_filled (name : Option PlainText) : piecesFilled (paramName name) := by
  cases name <;> rfl

mutual
theorem GoType.doc_filled : ∀ t : GoType, piecesFilled (t.doc q)
  | .basic _ | .named _ _ => by simp [GoType.doc]
  | .pointer elem | .slice elem | .array _ elem => by simp [GoType.doc, elem.doc_filled]
  | .map key elem => by simp [GoType.doc, key.doc_filled, elem.doc_filled]
  | .chan dir elem => by
    have h := elem.doc_filled
    rw [GoType.doc]
    split
    split_ifs <;> simp [h]
  | .struct fields => by simp [GoType.doc, fieldDocs_filled fields]
  | .iface methods embeddeds => by
    simp [GoType.doc, methodDocs_filled methods, typeDocs_filled embeddeds]
  | .func sig => by simp [GoType.doc, sig.doc_filled]
theorem fieldDocs_filled : ∀ fs : List StructField, membersFilled (fieldDocs q fs)
  | [] => by simp [fieldDocs]
  | .mk _ embedded type _ :: fs => by
    have hne : (type.doc q).isEmpty = false := List.isEmpty_eq_false.2 (type.doc_ne_nil q)
    simp only [fieldDocs, membersFilled_cons, piecesFilled_append, type.doc_filled,
      fieldDocs_filled fs]
    split_ifs <;> simp [hne]
theorem methodDocs_filled : ∀ ms : List IfaceMethod, membersFilled (methodDocs q ms)
  | [] => by simp [methodDocs]
  | .mk _ sig :: ms => by simp [methodDocs, sig.doc_filled, methodDocs_filled ms]
theorem typeDocs_filled : ∀ ts : List GoType, membersFilled (typeDocs q ts)
  | [] => by simp [typeDocs]
  | t :: ts => by
    simp [typeDocs, t.doc_filled, typeDocs_filled ts, List.isEmpty_eq_false.2 (t.doc_ne_nil q)]
theorem Signature.doc_filled : ∀ sig : Signature, piecesFilled (sig.doc q)
  | .mk params variadic [] => by
    show piecesFilled (tuple (varsDoc q variadic params))
    simpa [tuple] using varsDoc_filled variadic params
  | .mk params variadic [.mk none type] => by
    show piecesFilled (tuple (varsDoc q variadic params) ++ _ :: type.doc q)
    simpa [tuple] using And.intro (varsDoc_filled variadic params) type.doc_filled
  | .mk params variadic (.mk (some _) _ :: _) | .mk params variadic (.mk none _ :: _ :: _) => by
    show piecesFilled (tuple (varsDoc q variadic params) ++ _ :: tuple (varsDoc q false _))
    simpa [tuple] using And.intro (varsDoc_filled variadic params) (varsDoc_filled false _)
theorem varsDoc_filled (variadic : Bool) : ∀ vars : List Param, piecesFilled (varsDoc q variadic vars)
  | [] => by simp [varsDoc]
  | v :: vs => by
    have hv := v.doc_filled variadic
    have hv' := v.doc_filled false
    have hvs := varsDoc_filled variadic vs
    cases vs <;> simp_all [varsDoc]
theorem Param.doc_filled (variadic : Bool) : ∀ v : Param, piecesFilled (v.doc q variadic)
  | .mk name type => by
    have h := type.doc_filled
    rw [Param.doc.eq_def]
    split <;> split_ifs <;> simp_all [GoType.doc, paramName_filled]
end

end Write

/-! ### Objects -/

/-- What `types.ObjectString` reads of an object, by its kind. A type name has its type and
the type's underlying type. -/
inductive ObjectData
  | pkgName (imported : String)
  | const (type : GoType)
  | typeName (type : GoType) (isAlias : Bool) (underlying : GoType)
  | var (type : GoType) (isField : Bool)
  | func (sig : Signature) (recv : Option GoType)
  | label
  | builtin
  | nil

/-- A `types.Object`: its name, the path of its package (`none` for the universe's), whether it is
declared in its package's scope, its position and its kind. -/
structure Object where
  name : String
  pkg : Option PlainText
  pkgLevel : Bool
  pos : Pos
  data : ObjectData

section ObjectString

variable (isPrint : Char → Bool) (q : Qualifier)

/-- The name of a package-level object, qualified by `writePackage`. -/
def qualifiedName (o : Object) : List Char :=
  (if o.pkgLevel then renderPieces isPrint (writePackage q o.pkg) else []) ++ o.name.toList

/-- `writeFuncName`: a method's receiver in parentheses, or the function's package. -/
def funcName (o : Object) : Option GoType → List Char
  | some (.iface _ _) => "(interface).".toList ++ o.name.toList
  | some recv => '(' :: typeString isPrint q recv ++ ").".toList ++ o.name.toList
  | none => renderPieces isPrint (writePackage q o.pkg) ++ o.name.toList

/-- `types.ObjectString`. -/
def objectString (o : Object) : List Char :=
  match o.data with
  | .pkgName path =>
    "package ".toList ++ o.name.toList ++
      if path ≠ "" ∧ path ≠ o.name then " (".toList ++ quote isPrint path ++ [')'] else []
  | .const type => "const ".toList ++ qualifiedName isPrint q o ++ ' ' :: typeString isPrint q type
  | .typeName type isAlias underlying =>
    "type ".toList ++ qualifiedName isPrint q o ++
      match type with
      | .basic _ => []
      | type =>
        if isAlias then " = ".toList ++ typeString isPrint q type
        else ' ' :: typeString isPrint q underlying
  | .var type isField =>
    (if isField then "field " else "var ").toList ++ qualifiedName isPrint q o ++
      ' ' :: typeString isPrint q type
  | .func sig recv =>
    "func ".toList ++ funcName isPrint q o recv ++ renderPieces isPrint (sig.doc q)
  | .label => "label ".toList ++ qualifiedName isPrint q o
  | .builtin => "builtin ".toList ++ qualifiedName isPrint q o
  | .nil => "nil".toList

theorem objectString_ne_nil (o : Object) : objectString isPrint q o ≠ [] := by
  unfold objectString
  split <;> simp

theorem objectString_ne_empty (o : Object) : String.mk (objectString isPrint q o) ≠ "" :=
  fun h => objectString_ne_nil isPrint q o (congrArg String.toList h)

end ObjectString

end Bingo
