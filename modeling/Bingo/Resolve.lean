import Bingo.Workspace

/-! What the position-based handlers start from. The position resolver (`typeCheck` and
`GetPathNodes`, which are not in the source) type-checks the request's document and returns the
nodes enclosing the position, innermost first; the handlers switch on the first of them. For a
fixed document and workspace the resolver is a function of the position.

`handleTextDocumentReferences` and `handleXDefinition` retry a failed request once, one character
to the left (`retryLeft`). An error is surfaced only when both attempts fail, and it is the
second attempt's (`retryLeft_eq_error`). -/

namespace Bingo

/-- The first of the nodes enclosing a position (`pathNodes[0]`), as the handlers distinguish it;
a call is given by its function expression. -/
inductive PathNode
  | ident (id : Ident)
  | typeSpec (name : Ident)
  | funcDecl (name : Ident)
  | selectorExpr (sel : Ident)
  | callExpr (fn : PathNode)
  | other
  deriving DecidableEq, Repr

/-- What the resolver gives for a position: an `InvalidNodeError` from `typeCheck` (the position
is not on an identifier), another error of `typeCheck` or `GetPathNodes`, or the first path
node. -/
inductive Resolved
  | invalidNode
  | error (msg : String)
  | node (n : PathNode)
  deriving DecidableEq, Repr

/-- `token.Pos.IsValid`: the position lies in a file. The universe's objects have none. -/
def Pos.isValid (p : Pos) : Bool := p.filename != ""

/-! ### The retry one character to the left -/

/-- The position one character to the left: `params.Position.Character--`. -/
def Position.left (p : Position) : Position := ⟨p.line, p.character - 1⟩

/-- The retry of `handleTextDocumentReferences` and `handleXDefinition`: on an error, the request
once more at the position one character to the left. -/
def retryLeft {ε α : Type} (f : Position → Except ε α) (p : Position) : Except ε α :=
  match f p with
  | .ok r => .ok r
  | .error _ => f p.left

section Retry

variable {ε α : Type} {f : Position → Except ε α} {p : Position}

theorem retryLeft_of_ok {r : α} (h : f p = .ok r) : retryLeft f p = .ok r := by
  simp only [retryLeft, h]

theorem retryLeft_of_error {e : ε} (h : f p = .error e) : retryLeft f p = f p.left := by
  simp only [retryLeft, h]

/-- The retry surfaces an error only when both attempts fail, and then the second one's. -/
theorem retryLeft_eq_error {e : ε} :
    retryLeft f p = .error e ↔ (∃ e₀, f p = .error e₀) ∧ f p.left = .error e := by
  cases h : f p with
  | ok r => simp [retryLeft_of_ok h]
  | error e₀ => simp [retryLeft_of_error h]

/-- A result of the retry is a result of one of the two attempts. -/
theorem retryLeft_eq_ok {r : α} (h : retryLeft f p = .ok r) : f p = .ok r ∨ f p.left = .ok r := by
  cases hp : f p with
  | ok r' => exact .inl (by rw [← retryLeft_of_ok hp, h])
  | error e₀ => exact .inr (by rw [← retryLeft_of_error hp, h])

end Retry

end Bingo
