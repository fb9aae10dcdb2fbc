import Mathlib.Data.List.Basic
import Mathlib.Data.List.Infix

/-! The parts of Go's `strings`, `unicode` and `go/ast` libraries that the language server
reads, on strings as lists of runes (invalid UTF-8 is outside the model). `unicode.IsSpace` is
its `White_Space` table. The case tables above the ASCII range are a parameter of the
development; of them only the idempotence of lower-casing is assumed. -/

namespace Bingo

/-! ### Runes -/

/-- `unicode.ToLower`, with the table above the ASCII range given by `wide`. -/
def lowerWith (wide : Char → Char) (c : Char) : Char :=
  if c.toNat < 128 then c.toLower else wide c

/-- The case tables of Go's `unicode` package above the ASCII range. -/
structure Unicode where
  toLowerWide : Char → Char
  isUpperWide : Char → Bool
  lower_idem : ∀ c, lowerWith toLowerWide (lowerWith toLowerWide c) = lowerWith toLowerWide c

namespace Unicode

variable (u : Unicode)

/-- `unicode.ToLower`. -/
def toLower (c : Char) : Char := lowerWith u.toLowerWide c

/-- `unicode.IsUpper`. -/
def isUpper (c : Char) : Bool := if c.toNat < 128 then c.isUpper else u.isUpperWide c

@[simp] theorem toLower_toLower (c : Char) : u.toLower (u.toLower c) = u.toLower c :=
  u.lower_idem c

theorem toLower_of_ascii {c : Char} (h : c.toNat < 128) : u.toLower c = c.toLower := if_pos h

theorem lowerWith_ascii_idem :
    ∀ n : Fin 128, lowerWith id (lowerWith id (Char.ofNat n)) = lowerWith id (Char.ofNat n) := by
  decide

/-- The tables with no cased rune above the ASCII range: a concrete table at which the
theorems are instantiated. -/
def ascii : Unicode where
  toLowerWide := id
  isUpperWide _ := false
  lower_idem c := by
    by_cases h : c.toNat < 128
    · simpa [Char.ofNat_toNat] using lowerWith_ascii_idem ⟨c.toNat, h⟩
    · simp [lowerWith, h]

end Unicode

/-- `unicode.IsSpace`. -/
def isSpace (c : Char) : Bool :=
  let n := c.toNat
  (9 ≤ n && n ≤ 13) || n == 0x20 || n == 0x85 || n == 0xA0 || n == 0x1680 ||
    (0x2000 ≤ n && n ≤ 0x200A) || n == 0x2028 || n == 0x2029 || n == 0x202F || n == 0x205F ||
    n == 0x3000

/-! ### Package `strings` -/

/-- `strings.HasPrefix`. -/
def hasPrefix (s pre : String) : Bool := pre.toList.isPrefixOf s.toList

/-- `strings.HasSuffix`. -/
def hasSuffix (s suf : String) : Bool := suf.toList.isSuffixOf s.toList

/-- `strings.Contains`. -/
def contains (s sub : String) : Bool := decide (sub.toList <:+: s.toList)

/-- `strings.TrimPrefix`. -/
def trimPrefix (s pre : String) : String :=
  if hasPrefix s pre then ⟨s.toList.drop pre.length⟩ else s

/-- `strings.FieldsFunc`: the maximal non-empty runs of runes not satisfying `f`. -/
def fieldsFunc (s : String) (f : Char → Bool) : List String :=
  ((s.toList.splitOnP f).filter (· ≠ [])).map String.mk

/-- `strings.Split` with a one-rune separator. -/
def split (s : String) (sep : Char) : List String := (s.toList.splitOnP (· = sep)).map String.mk

/-- `strings.Fields`. -/
def fields (s : String) : List String := fieldsFunc s isSpace

/-- `strings.TrimSpace`. -/
def trimSpace (s : String) : String :=
  ⟨((s.toList.dropWhile isSpace).reverse.dropWhile isSpace).reverse⟩

/-- `strings.ToLower`. -/
def toLower (u : Unicode) (s : String) : String := ⟨s.toList.map u.toLower⟩

/-- `ast.IsExported`: the first rune is upper case. -/
def isExported (u : Unicode) (name : String) : Bool :=
  match name.toList with
  | [] => false
  | c :: _ => u.isUpper c

@[simp] theorem toLower_toLower (u : Unicode) (s : String) :
    toLower u (toLower u s) = toLower u s := by
  simp [toLower, Function.comp_def]

@[simp] theorem toList_mk (l : List Char) : (String.mk l).toList = l := rfl

theorem toList_append (s t : String) : (s ++ t).toList = s.toList ++ t.toList := rfl

theorem append_space_append (s e : String) : s ++ " " ++ e = ⟨s.toList ++ ' ' :: e.toList⟩ :=
  String.ext (by simp [String.data_append])

theorem toLower_eq_self (u : Unicode) {s : String} (h : ∀ c ∈ s.toList, u.toLower c = c) :
    toLower u s = s := by
  show String.mk (s.toList.map u.toLower) = String.mk s.toList
  rw [List.map_congr_left h, List.map_id']

/-- Lower-casing leaves ASCII text without upper-case letters as it is, whatever the tables. -/
theorem toLower_ascii (u : Unicode) {s : String}
    (h : ∀ c ∈ s.toList, c.toNat < 128 ∧ c.toLower = c) : toLower u s = s :=
  toLower_eq_self u fun c hc => (u.toLower_of_ascii (h c hc).1).trans (h c hc).2

/-- Every rune of a lower-cased string is its own lower case. -/
theorem toLower_of_mem_toLower (u : Unicode) {s : String} {c : Char}
    (hc : c ∈ (toLower u s).toList) : u.toLower c = c := by
  obtain ⟨d, -, rfl⟩ := List.mem_map.1 hc
  exact u.toLower_toLower d

theorem hasPrefix_append (pre s : String) : hasPrefix (pre ++ s) pre :=
  List.isPrefixOf_iff_prefix.2 (List.prefix_append _ _)

theorem trimPrefix_append (pre s : String) : trimPrefix (pre ++ s) pre = s := by
  rw [trimPrefix, if_pos (hasPrefix_append pre s)]
  exact String.ext (List.drop_left _ _)

theorem mem_trimPrefix {s pre : String} {c : Char} (hc : c ∈ (trimPrefix s pre).toList) :
    c ∈ s.toList := by
  unfold trimPrefix at hc
  split at hc
  · exact List.mem_of_mem_drop hc
  · exact hc

theorem trimSpace_space_cons (l : List Char) : trimSpace ⟨' ' :: l⟩ = trimSpace ⟨l⟩ := by
  simp only [trimSpace, toList_mk, List.dropWhile_cons_of_pos (show isSpace ' ' = true by decide)]

theorem hasPrefix_iff {s pre : String} : hasPrefix s pre ↔ pre.toList <+: s.toList :=
  List.isPrefixOf_iff_prefix

/-! ### Splitting -/

section Split

variable {α : Type*} {p : α → Bool}

theorem mem_splitOnP {l w : List α} (hw : w ∈ l.splitOnP p) : ∀ x ∈ w, p x = false ∧ x ∈ l := by
  induction l generalizing w with
  | nil => simp_all
  | cons a l ih =>
    rw [List.splitOnP_cons] at hw
    split at hw
    · rcases List.mem_cons.1 hw with rfl | hw
      · simp
      · exact fun x hx => (ih hw x hx).imp_right (List.mem_cons_of_mem a)
    · obtain ⟨w', hw', rest⟩ : ∃ w', w' ∈ l.splitOnP p ∧ (w = a :: w' ∨ w ∈ l.splitOnP p) := by
        cases h : l.splitOnP p with
        | nil => exact absurd h (List.splitOnP_ne_nil _ _)
        | cons v vs =>
          simp only [h, List.modifyHead_cons, List.mem_cons] at hw
          exact ⟨v, by simp [h], hw.imp id fun hv => by simp [h, hv]⟩
      rcases rest with rfl | hw
      · intro x hx
        rcases List.mem_cons.1 hx with rfl | hx
        · exact ⟨by simpa using ‹¬p x = true›, List.mem_cons_self _ _⟩
        · exact (ih hw' x hx).imp_right (List.mem_cons_of_mem a)
      · exact fun x hx => (ih hw x hx).imp_right (List.mem_cons_of_mem a)

/-- A property that every step keeps holds after a left fold. -/
theorem foldl_invariant {β : Type*} {P : β → Prop} {f : β → α → β} :
    ∀ {l : List α} {b : β}, P b → (∀ b, P b → ∀ a ∈ l, P (f b a)) → P (l.foldl f b)
  | [], _, hb, _ => hb
  | a :: l, b, hb, hf =>
    (foldl_invariant (hf b hb a (List.mem_cons_self a l)) fun b h x hx =>
      hf b h x (List.mem_cons_of_mem a hx) : P (l.foldl f (f b a)))

/-- The fields joined by single separators. -/
def joinBy (sep : α) : List (List α) → List α
  | [] => []
  | [w] => w
  | w :: v :: ws => w ++ sep :: joinBy sep (v :: ws)

theorem splitOnP_joinBy {sep : α} (hsep : p sep) :
    ∀ {ws : List (List α)}, ws ≠ [] → (∀ w ∈ ws, ∀ x ∈ w, p x = false) →
      (joinBy sep ws).splitOnP p = ws
  | [w], _, h => List.splitOnP_eq_single _ _ (by simpa using h w (by simp))
  | w :: v :: ws, _, h => by
    rw [joinBy, List.splitOnP_first _ _ (by simpa using h w (by simp)) _ hsep,
      splitOnP_joinBy hsep (List.cons_ne_nil v ws) (fun w' hw' => h w' (by simp [hw']))]

/-- A separator followed by a last field adds that field to the split. -/
theorem splitOnP_append_sep {sep : α} (hsep : p sep) {ys : List α} (hys : ∀ y ∈ ys, p y = false) :
    ∀ xs : List α, (xs ++ sep :: ys).splitOnP p = xs.splitOnP p ++ [ys]
  | [] => by
    rw [List.nil_append, List.splitOnP_cons, if_pos hsep, List.splitOnP_eq_single _ _ (by simpa using hys)]
    rfl
  | x :: xs => by
    have ih := splitOnP_append_sep hsep hys xs
    rw [List.cons_append, List.splitOnP_cons, List.splitOnP_cons, ih]
    split
    · rfl
    · obtain ⟨v, vs, h⟩ := List.exists_cons_of_ne_nil (List.splitOnP_ne_nil p xs)
      rw [h]
      rfl

theorem joinBy_append_singleton (sep : α) (e : List α) :
    ∀ {ws : List (List α)}, ws ≠ [] → joinBy sep (ws ++ [e]) = joinBy sep ws ++ sep :: e
  | [_], _ => rfl
  | w :: v :: ws, _ => by
    have ih := joinBy_append_singleton sep e (List.cons_ne_nil v ws)
    rw [List.cons_append] at ih
    show w ++ sep :: joinBy sep (v :: (ws ++ [e])) = w ++ sep :: joinBy sep (v :: ws) ++ sep :: e
    rw [ih, List.append_assoc, List.cons_append]

theorem joinBy_append (sep : α) {vs : List (List α)} (hvs : vs ≠ []) :
    ∀ {ws : List (List α)}, ws ≠ [] → joinBy sep (ws ++ vs) = joinBy sep ws ++ sep :: joinBy sep vs
  | [w], _ => by
    obtain ⟨v, vs', rfl⟩ := List.exists_cons_of_ne_nil hvs
    rfl
  | w :: w' :: ws, _ => by
    rw [List.cons_append, List.cons_append, joinBy, ← List.cons_append,
      joinBy_append sep hvs (List.cons_ne_nil w' ws), joinBy, List.append_assoc, List.cons_append]

theorem mem_joinBy {sep x : α} : ∀ {ws : List (List α)}, x ∈ joinBy sep ws → x = sep ∨ ∃ w ∈ ws, x ∈ w
  | [], h => by simp [joinBy] at h
  | [w], h => .inr ⟨w, List.mem_singleton_self w, h⟩
  | w :: v :: ws, h => by
    simp only [joinBy, List.mem_append, List.mem_cons] at h
    rcases h with h | h | h
    · exact .inr ⟨w, List.mem_cons_self _ _, h⟩
    · exact .inl h
    · exact (mem_joinBy h).imp_right fun ⟨w', hw', hx⟩ => ⟨w', List.mem_cons_of_mem _ hw', hx⟩

theorem joinBy_head? {sep : α} {w : List α} (hw : w ≠ []) :
    ∀ ws : List (List α), (joinBy sep (w :: ws)).head? = w.head?
  | [] => rfl
  | _ :: _ => by rw [joinBy, List.head?_append_of_ne_nil _ hw]

end Split

theorem dropWhile_isSpace_of_head {l : List Char} (h : ∀ c ∈ l.head?, isSpace c = false) :
    l.dropWhile isSpace = l := by
  cases l with
  | nil => rfl
  | cons a l => exact List.dropWhile_cons_of_neg (by simpa using h a rfl)

/-- `strings.TrimSpace` leaves a string that neither begins nor ends with white space. -/
theorem trimSpace_eq_self {l : List Char} (hhead : ∀ c ∈ l.head?, isSpace c = false)
    (hlast : ∀ c ∈ l.getLast?, isSpace c = false) : trimSpace ⟨l⟩ = ⟨l⟩ := by
  rw [trimSpace, String.toList, dropWhile_isSpace_of_head hhead,
    dropWhile_isSpace_of_head (by simpa [List.head?_reverse] using hlast), List.reverse_reverse]

theorem fieldsFunc_eq_singleton {s : String} {f : Char → Bool} (hne : s.toList ≠ [])
    (hf : ∀ c ∈ s.toList, f c = false) : fieldsFunc s f = [s] := by
  simp [fieldsFunc, List.splitOnP_eq_single _ _ (by simpa using hf), show s.data ≠ [] from hne]

theorem mem_fieldsFunc {s w : String} {f : Char → Bool} (hw : w ∈ fieldsFunc s f) :
    w.toList ≠ [] ∧ ∀ c ∈ w.toList, f c = false ∧ c ∈ s.toList := by
  simp only [fieldsFunc, List.mem_map, List.mem_filter] at hw
  obtain ⟨l, ⟨hl, hne⟩, rfl⟩ := hw
  exact ⟨by simpa using hne, mem_splitOnP hl⟩

/-- Fields that are non-empty and free of separators come back from their join. -/
theorem fieldsFunc_joinBy {f : Char → Bool} {sep : Char} (hsep : f sep) {ws : List String}
    (hne : ∀ w ∈ ws, w.toList ≠ []) (hf : ∀ w ∈ ws, ∀ c ∈ w.toList, f c = false) :
    fieldsFunc ⟨joinBy sep (ws.map String.toList)⟩ f = ws := by
  by_cases hws : ws = []
  · subst hws; rfl
  rw [fieldsFunc, String.toList, splitOnP_joinBy hsep (by simpa using hws) (by simpa using hf),
    List.filter_eq_self.2 (by simpa using hne), List.map_map]
  exact (List.map_id' _).trans rfl

end Bingo
