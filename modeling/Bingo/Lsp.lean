import Bingo.Strings
import Mathlib.Data.Int.Defs
import Mathlib.Data.Nat.Digits
import Mathlib.Tactic.IntervalCases

/-! LSP positions, ranges and locations, and the textual key that reference search
deduplicates by: `formatLocation` prints `uri:line:char-line:char` with `fmt`'s `%d`. The key
is injective on all locations, negative lines and URIs holding `:` and `-` included: reading
the printed key from its right end recovers the four numbers and then the URI. -/

namespace Bingo

structure Position where
  line : Int
  character : Int
  deriving DecidableEq, Repr

structure Range where
  start : Position
  «end» : Position
  deriving DecidableEq, Repr

structure Location where
  uri : String
  range : Range
  deriving DecidableEq, Repr

/-- `fmt`'s `%d` of an `int`. -/
def formatInt (z : Int) : List Char :=
  if 0 ≤ z then Nat.toDigits 10 z.natAbs else '-' :: Nat.toDigits 10 z.natAbs

/-- go-lsp's `Position.String`: `%d:%d`. -/
def Position.string (p : Position) : List Char :=
  formatInt p.line ++ ':' :: formatInt p.character

/-- go-lsp's `Range.String`: `%s-%s`. -/
def Range.string (r : Range) : List Char :=
  r.start.string ++ '-' :: r.end.string

/-- `formatLocation`: `fmt.Sprintf("%s:%s", loc.URI, loc.Range)`. -/
def formatLocation (loc : Location) : String :=
  ⟨loc.uri.toList ++ ':' :: loc.range.string⟩

/-! ### Decimal digits -/

/-- The number a string of decimal digits denotes. -/
def digitsValue (ds : List Char) : Nat :=
  ds.foldl (fun n c => 10 * n + (c.toNat - 48)) 0

theorem digitChar_spec {k : Nat} (hk : k < 10) :
    (Nat.digitChar k).isDigit ∧ (Nat.digitChar k).toNat - 48 = k := by
  interval_cases k <;> decide

theorem toDigitsCore_spec :
    ∀ (f n : Nat) (acc : List Char), n < f → ∃ ds, Nat.toDigitsCore 10 f n acc = ds ++ acc ∧
      ds ≠ [] ∧ (∀ c ∈ ds, c.isDigit) ∧ digitsValue ds = n
  | 0, _, _, h => absurd h (Nat.not_lt_zero _)
  | f + 1, n, acc, h => by
    have hd := digitChar_spec (Nat.mod_lt n (by decide : 10 > 0))
    rw [Nat.toDigitsCore]
    split
    · refine ⟨[Nat.digitChar (n % 10)], rfl, by simp, by simpa using hd.1, ?_⟩
      simp only [digitsValue, List.foldl, hd.2]
      omega
    · obtain ⟨ds, hds, hne, hdig, hval⟩ := toDigitsCore_spec f (n / 10)
        (Nat.digitChar (n % 10) :: acc) (by omega)
      refine ⟨ds ++ [Nat.digitChar (n % 10)], by simp [hds], by simp, ?_, ?_⟩
      · simpa [or_imp, forall_and] using ⟨hdig, hd.1⟩
      · simp only [digitsValue, List.foldl_append, List.foldl] at hval ⊢
        rw [hval, hd.2]
        omega

theorem toDigits_spec (n : Nat) :
    Nat.toDigits 10 n ≠ [] ∧ (∀ c ∈ Nat.toDigits 10 n, c.isDigit) ∧
      digitsValue (Nat.toDigits 10 n) = n := by
  obtain ⟨ds, h, hne, hdig, hval⟩ := toDigitsCore_spec (n + 1) n [] (Nat.lt_succ_self n)
  rw [Nat.toDigits, h, List.append_nil]
  exact ⟨hne, hdig, hval⟩

/-- Two runs of digits, each followed by a non-digit, are the same run. -/
theorem digits_append_cons {a b s t : List Char} {x y : Char} (ha : ∀ c ∈ a, c.isDigit)
    (hb : ∀ c ∈ b, c.isDigit) (hx : x.isDigit = false) (hy : y.isDigit = false)
    (h : a ++ x :: s = b ++ y :: t) : a = b ∧ x :: s = y :: t := by
  induction a generalizing b with
  | nil =>
    cases b with
    | nil => exact ⟨rfl, h⟩
    | cons d b => simp only [List.nil_append, List.cons_append, List.cons.injEq] at h
                  simp_all
  | cons d a ih =>
    cases b with
    | nil => simp only [List.nil_append, List.cons_append, List.cons.injEq] at h
             simp_all
    | cons e b =>
      simp only [List.cons_append, List.cons.injEq] at h
      obtain ⟨rfl, h⟩ := h
      have := ih (fun c hc => ha c (by simp [hc])) (fun c hc => hb c (by simp [hc])) h
      exact ⟨by rw [this.1], this.2⟩

/-! ### Reading a key from the right -/

theorem formatInt_reverse (z : Int) :
    (formatInt z).reverse = (Nat.toDigits 10 z.natAbs).reverse ++ if 0 ≤ z then [] else ['-'] := by
  unfold formatInt
  split <;> simp

theorem formatInt_reverse_head (z : Int) : ∃ d ds, (formatInt z).reverse = d :: ds ∧ d.isDigit := by
  obtain ⟨hne, hdig, -⟩ := toDigits_spec z.natAbs
  rw [formatInt_reverse]
  obtain ⟨d, ds, h⟩ := List.exists_cons_of_ne_nil (List.reverse_ne_nil_iff.2 hne)
  exact ⟨d, ds ++ _, by rw [h, List.cons_append], hdig d (List.mem_reverse.1 (h ▸ List.mem_cons_self d ds))⟩

/-- A printed `int` followed by a separator is read back from the right. When the separator is
`-` it could be a sign; what precedes it on the left then begins with a digit, not a `-`. -/
theorem formatInt_reverse_inj {z w : Int} {c : Char} {s t : List Char} (hc : c.isDigit = false)
    (hs : c = '-' → s.head? ≠ some '-' ∧ t.head? ≠ some '-')
    (h : (formatInt z).reverse ++ c :: s = (formatInt w).reverse ++ c :: t) : z = w ∧ s = t := by
  have key : ∀ {x y : Char} {s' t' : List Char}, x.isDigit = false → y.isDigit = false →
      (Nat.toDigits 10 z.natAbs).reverse ++ x :: s' = (Nat.toDigits 10 w.natAbs).reverse ++ y :: t' →
      z.natAbs = w.natAbs ∧ x :: s' = y :: t' := fun hx hy h => by
    obtain ⟨h1, h2⟩ := digits_append_cons (by simpa using (toDigits_spec _).2.1)
      (by simpa using (toDigits_spec _).2.1) hx hy h
    refine ⟨?_, h2⟩
    rw [← (toDigits_spec z.natAbs).2.2, ← (toDigits_spec w.natAbs).2.2, List.reverse_inj.1 h1]
  rw [formatInt_reverse, formatInt_reverse, List.append_assoc, List.append_assoc] at h
  by_cases hz : 0 ≤ z <;> by_cases hw : 0 ≤ w <;>
    simp only [hz, hw, if_true, if_false, List.nil_append, List.singleton_append] at h
  · obtain ⟨habs, h⟩ := key hc hc h
    exact ⟨by omega, (List.cons.inj h).2⟩
  · obtain ⟨-, h⟩ := key hc (by decide) h
    obtain ⟨rfl, rfl⟩ := List.cons.inj h
    exact absurd rfl (hs rfl).1
  · obtain ⟨-, h⟩ := key (by decide) hc h
    obtain ⟨rfl, rfl⟩ := List.cons.inj h
    exact absurd rfl (hs rfl).2
  · obtain ⟨habs, h⟩ := key (by decide) (by decide) h
    exact ⟨by omega, (List.cons.inj (List.cons.inj h).2).2⟩

theorem reverse_append_cons (a b : List Char) (c : Char) :
    (a ++ c :: b).reverse = b.reverse ++ c :: a.reverse := by
  simp

theorem formatInt_reverse_head_ne (z : Int) (s : List Char) :
    ((formatInt z).reverse ++ s).head? ≠ some '-' := by
  obtain ⟨d, ds, h, hd⟩ := formatInt_reverse_head z
  rw [h, List.cons_append, List.head?_cons, Ne, Option.some_inj]
  rintro rfl
  exact absurd hd (by decide)

/-- The key reference search deduplicates by identifies the location. -/
theorem formatLocation_injective : Function.Injective formatLocation := by
  rintro ⟨u₁, ⟨a₁, b₁⟩, ⟨c₁, d₁⟩⟩ ⟨u₂, ⟨a₂, b₂⟩, ⟨c₂, d₂⟩⟩ h
  replace h := congrArg (fun s : String => s.data.reverse) h
  simp only [formatLocation, Range.string, Position.string, List.append_assoc, List.cons_append,
    reverse_append_cons] at h
  have colon : (':' = '-') → False := by decide
  obtain ⟨rfl, h₁⟩ := formatInt_reverse_inj (by decide) (colon ·|>.elim) h
  obtain ⟨rfl, h₂⟩ := formatInt_reverse_inj (by decide)
    (fun _ => ⟨formatInt_reverse_head_ne _ _, formatInt_reverse_head_ne _ _⟩) h₁
  obtain ⟨rfl, h₃⟩ := formatInt_reverse_inj (by decide) (colon ·|>.elim) h₂
  obtain ⟨rfl, h₄⟩ := formatInt_reverse_inj (by decide) (colon ·|>.elim) h₃
  rw [List.reverse_inj] at h₄
  simp only [Location.mk.injEq, and_true]
  exact String.ext h₄

end Bingo
