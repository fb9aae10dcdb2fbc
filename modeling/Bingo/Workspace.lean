import Bingo.Types
import Bingo.Lsp

/-! The workspace as the request handlers see it: the type-checked packages with their `Uses`
and `Defs` tables, and the package cache walked in rank order by `Project.Search`. A Go map that
the code ranges over is a list: the order of the list is the order the iteration happens to
take. Pointer identity of identifiers and packages is an `id` field. -/

namespace Bingo

/-- An object of `Defs` as `implements` reads it: a type name, with whether it is an alias
and its type, or any other object. -/
inductive DefObj
  | typeName (isAlias : Bool) (type : Ty)
  | other
  deriving DecidableEq, Repr

/-- The type information of a package: the `Uses` map and the objects of the `Defs` map, each in
the order a range over the map happens to take. -/
structure TypesInfo where
  uses : List (Ident × Obj)
  defs : List DefObj := []
  deriving DecidableEq, Repr

/-- A cached `source.Package`: its ID, import path, the import paths of `Imports`, its type
information (absent when type checking produced none), its file names, and its syntax trees
(`GetSyntax`). -/
structure Package where
  id : String
  pkgPath : String
  imports : List String
  typesInfo : Option TypesInfo
  filenames : List String := []
  files : List File := []
  deriving Repr

/-- The location function of a request's file set: `goRangeToLSPLocation fset pos name`. -/
abbrev LocationOf := Pos → String → Location

/-- A file set that places an identifier on line 0 of its file, from its offset on: a location
function at which theorems are instantiated. -/
def offsetLocation : LocationOf :=
  fun p name => ⟨"file:///" ++ p.filename, ⟨⟨0, p.offset⟩, ⟨0, p.offset + name.length⟩⟩⟩

/-! ### Walking the cache -/

/-- What `ctx.Err()` returns once the request is over. -/
inductive ContextError
  | canceled | deadlineExceeded
  deriving DecidableEq, Repr

/-- A request context, through what `ctx.Err()` returns when the walk polls it at the boundary
of its `k`-th package. -/
structure Context where
  err : Nat → Option ContextError

/-- The `Error()` text of a context error. -/
def ContextError.message : ContextError → String
  | canceled => "context canceled"
  | deadlineExceeded => "context deadline exceeded"

/-- `context.Background()`: never cancelled. -/
def Context.background : Context := ⟨fun _ => none⟩

/-- Modelled from the spec: `PackageCache.Walk` as `Project.Search` calls it, which visits the
cached packages in rank order and stops at the first error the walk function returns. The
list is the rank order. -/
def walk {σ : Type} (f : Nat → Package → σ → Except ContextError σ) :
    List Package → Nat → σ → Except ContextError σ
  | [], _, s => .ok s
  | p :: ps, k, s =>
    match f k p s with
    | .ok s' => walk f ps (k + 1) s'
    | .error e => .error e

/-- What every step of a walk keeps holds of the walk's result. -/
theorem walk_invariant {σ : Type} {f : Nat → Package → σ → Except ContextError σ} {P : σ → Prop} :
    ∀ {ps : List Package} {k : Nat} {s r : σ}, P s →
      (∀ k p s s', p ∈ ps → P s → f k p s = .ok s' → P s') → walk f ps k s = .ok r → P r
  | [], _, _, _, hs, _, h => by cases h; exact hs
  | p :: ps, k, s, r, hs, hf, h => by
    rw [walk] at h
    split at h
    · exact walk_invariant (hf k p s _ (List.mem_cons_self _ _) hs ‹_›)
        (fun k p s s' hp => hf k p s s' (List.mem_cons_of_mem _ hp)) h
    · cases h

/-- A walk whose function never fails returns. -/
theorem walk_ok {σ : Type} {f : Nat → Package → σ → Except ContextError σ}
    (hf : ∀ k p s, ∃ s', f k p s = .ok s') : ∀ (ps : List Package) (k : Nat) (s : σ),
      ∃ r, walk f ps k s = .ok r
  | [], _, s => ⟨s, rfl⟩
  | p :: ps, k, s => by
    obtain ⟨s', hs'⟩ := hf k p s
    rw [walk, hs']
    exact walk_ok hf ps (k + 1) s'

/-- A walk with a context that is never cancelled folds the walk function over the packages. -/
theorem walk_of_ok {σ : Type} (f : Package → σ → σ) :
    ∀ (ps : List Package) (k : Nat) (s : σ),
      walk (fun _ p s => .ok (f p s)) ps k s = .ok (ps.foldl (fun s p => f p s) s)
  | [], _, _ => rfl
  | _ :: ps, k, _ => walk_of_ok f ps (k + 1) _

end Bingo
