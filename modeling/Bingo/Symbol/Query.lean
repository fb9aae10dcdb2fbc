import Bingo.Strings

/-! The query language of workspace symbol search. `ParseQuery` lower-cases the query, splits it
into space-delimited fields, reads `dir:<path>` and `is:exported` as filters, and splits every
other field at `.` and `/` into tokens; a token that is a keyword sets the kind. `Query.String`
prints the filter, the keyword of the kind and the tokens, separated by single spaces.

Printing a parsed query and parsing it again gives back its kind, filter and tokens, and its
directory under a `dir:` filter, provided no token looks like a filter. The printer writes
tokens as they are, so a token `is:exported` or `dir:x`, which a field such as `x.is:exported`
produces, is read back as a filter. -/

namespace Bingo

/-- `lsp.SymbolKind`; `0` is no kind. -/
abbrev SymbolKind := Nat

def skPackage : SymbolKind := 4
def skClass : SymbolKind := 5
def skMethod : SymbolKind := 6
def skField : SymbolKind := 8
def skInterface : SymbolKind := 11
def skFunction : SymbolKind := 12
def skVariable : SymbolKind := 13
def skConstant : SymbolKind := 14

/-- `FilterType`: no filter, `FilterExported` or `FilterDir`. -/
inductive FilterType
  | none | exported | dir
  deriving DecidableEq, Repr

structure Query where
  kind : SymbolKind := 0
  filter : FilterType := .none
  file : String := ""
  dir : String := ""
  tokens : List String := []
  deriving DecidableEq, Repr

/-- `keywords`, in one enumeration order of the map. -/
def keywords : List (String × SymbolKind) :=
  [("package", skPackage), ("type", skClass), ("method", skMethod), ("field", skField),
    ("func", skFunction), ("var", skVariable), ("const", skConstant)]

/-- `queryJoin`. -/
def queryJoin (s e : String) : String := trimSpace (s ++ " " ++ e)

/-- `Query.String`. -/
def Query.string (q : Query) : String :=
  let s := match q.filter with
    | .exported => queryJoin "" "is:exported"
    | .dir => queryJoin "" ("dir:" ++ q.dir)
    | .none => ""
  let s := if q.kind ≠ 0 then
      (keywords.filter (·.2 = q.kind)).foldl (fun s kw => queryJoin s kw.1) s else s
  q.tokens.foldl queryJoin s

/-- `ParseQuery` on one token of a field: a keyword sets the kind, anything else is a search
token. -/
def addToken (qu : Query) (tok : String) : Query :=
  match keywords.lookup tok with
  | some kind => { qu with kind := kind }
  | none => { qu with tokens := qu.tokens ++ [tok] }

/-- The separators of tokens within a field. -/
def dotOrSlash (c : Char) : Bool := c = '.' || c = '/'

/-- `ParseQuery` on one space-delimited field. -/
def parseField (qu : Query) (field : String) : Query :=
  if hasPrefix field "dir:" then { qu with filter := .dir, dir := trimPrefix field "dir:" }
  else if field = "is:exported" then { qu with filter := .exported }
  else (fieldsFunc field dotOrSlash).foldl addToken qu

/-- `ParseQuery`. -/
def parseQuery (u : Unicode) (q : String) : Query :=
  (fields (toLower u q)).foldl parseField {}

/-! ### Printing -/

/-- A component of a printed query: non-empty and without white space. -/
def Word (c : String) : Prop := c.toList ≠ [] ∧ ∀ x ∈ c.toList, isSpace x = false

theorem Word.head {c : String} (hc : Word c) : ∀ x ∈ c.toList.head?, isSpace x = false :=
  fun x hx => hc.2 x (List.mem_of_mem_head? hx)

theorem Word.last {c : String} (hc : Word c) : ∀ x ∈ c.toList.getLast?, isSpace x = false :=
  fun x hx => hc.2 x (List.mem_of_getLast?_eq_some hx)

/-- The component `Query.String` prints for the filter. -/
def FilterType.components (f : FilterType) (dir : String) : List String :=
  match f with
  | .exported => ["is:exported"]
  | .dir => ["dir:" ++ dir]
  | .none => []

/-- The components `Query.String` prints for the kind: the keywords of that kind. -/
def kindComponents (k : SymbolKind) : List String :=
  if k ≠ 0 then (keywords.filter (·.2 = k)).map (·.1) else []

/-- The components `Query.String` joins: the filter, the keyword of the kind, the tokens. -/
def Query.components (q : Query) : List String :=
  q.filter.components q.dir ++ kindComponents q.kind ++ q.tokens

theorem Query.string_eq (q : Query) : q.string = q.components.foldl queryJoin "" := by
  unfold Query.string Query.components FilterType.components kindComponents
  rcases q.filter <;> split_ifs <;> simp [List.foldl_append, List.foldl_map]

theorem queryJoin_empty {e : String} (he : Word e) : queryJoin "" e = e := by
  show trimSpace ⟨' ' :: e.toList⟩ = e
  rw [trimSpace_space_cons, trimSpace_eq_self he.head he.last]
  rfl

theorem queryJoin_joinBy {ws : List String} (hws : ws ≠ []) (hw : ∀ w ∈ ws, Word w) {e : String}
    (he : Word e) :
    queryJoin ⟨joinBy ' ' (ws.map String.toList)⟩ e = ⟨joinBy ' ' ((ws ++ [e]).map String.toList)⟩ := by
  obtain ⟨w, ws', rfl⟩ := List.exists_cons_of_ne_nil hws
  have hw0 := hw w (List.mem_cons_self _ _)
  rw [List.map_append, List.map_singleton, joinBy_append_singleton _ _ (by simp), queryJoin,
    append_space_append, toList_mk]
  apply trimSpace_eq_self
  · rw [List.map_cons, List.head?_append_of_ne_nil _ (by
      rw [Ne, ← List.head?_eq_none_iff, joinBy_head? hw0.1]; simpa using hw0.1),
      joinBy_head? hw0.1]
    exact hw0.head
  · obtain ⟨x, xs, hx⟩ := List.exists_cons_of_ne_nil he.1
    rw [List.getLast?_append_of_ne_nil _ (List.cons_ne_nil _ _), hx, List.getLast?_cons_cons, ← hx]
    exact he.last

theorem foldl_queryJoin : ∀ {ws cs : List String}, ws ≠ [] → (∀ w ∈ ws, Word w) →
    (∀ c ∈ cs, Word c) →
    cs.foldl queryJoin ⟨joinBy ' ' (ws.map String.toList)⟩ =
      ⟨joinBy ' ' ((ws ++ cs).map String.toList)⟩
  | _, [], _, _, _ => by rw [List.append_nil]; rfl
  | ws, c :: cs, hws, hw, hc => by
    have hc0 := hc c (List.mem_cons_self _ _)
    rw [List.foldl_cons, queryJoin_joinBy hws hw hc0,
      foldl_queryJoin (List.append_ne_nil_of_left_ne_nil hws _)
        (by simpa [or_imp, forall_and] using ⟨hw, hc0⟩)
        (fun x hx => hc x (List.mem_cons_of_mem _ hx)),
      List.append_assoc, List.singleton_append]

/-- `Query.String` joins its components by single spaces. -/
theorem foldl_queryJoin_empty : ∀ {ws : List String}, (∀ w ∈ ws, Word w) →
    ws.foldl queryJoin "" = ⟨joinBy ' ' (ws.map String.toList)⟩
  | [], _ => rfl
  | w :: ws, hw => by
    rw [List.foldl_cons, queryJoin_empty (hw w (List.mem_cons_self _ _))]
    exact foldl_queryJoin (List.cons_ne_nil w []) (by simpa using hw w (List.mem_cons_self _ _))
      fun x hx => hw x (List.mem_cons_of_mem _ hx)

/-! ### Parsing -/

section Parsing

variable {u : Unicode}

/-- Text as `ParseQuery` leaves it: lower case under the tables `u`, without white space. -/
def Printable (u : Unicode) (t : String) : Prop :=
  ∀ c ∈ t.toList, isSpace c = false ∧ u.toLower c = c

theorem printable_of_ascii {t : String}
    (h : ∀ c ∈ t.toList, c.toNat < 128 ∧ c.toLower = c ∧ isSpace c = false) : Printable u t :=
  fun c hc => ⟨(h c hc).2.2, (u.toLower_of_ascii (h c hc).1).trans (h c hc).2.1⟩

/-- Parsing a join of lower-case components splits it back into them. -/
theorem parseQuery_joinBy {cs : List String} (hc : ∀ c ∈ cs, c.toList ≠ [] ∧ Printable u c) :
    parseQuery u ⟨joinBy ' ' (cs.map String.toList)⟩ = cs.foldl parseField {} := by
  have hlower : toLower u ⟨joinBy ' ' (cs.map String.toList)⟩ =
      ⟨joinBy ' ' (cs.map String.toList)⟩ := toLower_eq_self u fun x hx => by
    rcases mem_joinBy hx with rfl | ⟨w, hw, hxw⟩
    · exact (u.toLower_of_ascii (by decide)).trans (by decide)
    · obtain ⟨c, hcs, rfl⟩ := List.mem_map.1 hw
      exact ((hc c hcs).2 x hxw).2
  rw [parseQuery, hlower, fields, fieldsFunc_joinBy (show isSpace ' ' by decide)
    (fun c h => (hc c h).1) (fun c h x hx => ((hc c h).2 x hx).1)]

/-- A field without separators that is not a filter is a single token. -/
theorem parseField_of_token {t : String} (hne : t.toList ≠ [])
    (hsep : ∀ c ∈ t.toList, dotOrSlash c = false) (hdir : hasPrefix t "dir:" = false)
    (hexp : t ≠ "is:exported") (qu : Query) : parseField qu t = addToken qu t := by
  rw [parseField, if_neg (by simp [hdir]), if_neg hexp, fieldsFunc_eq_singleton hne hsep]
  rfl

/-- The keywords are non-empty lower-case ASCII words without separators, none of them a
filter, of distinct non-zero kinds. -/
theorem keywords_spec : ∀ kw ∈ keywords,
    kw.1.toList ≠ [] ∧
      (∀ c ∈ kw.1.toList, c.toNat < 128 ∧ c.toLower = c ∧ isSpace c = false ∧
        dotOrSlash c = false) ∧
      hasPrefix kw.1 "dir:" = false ∧ kw.1 ≠ "is:exported" ∧ kw.2 ≠ 0 ∧
      keywords.lookup kw.1 = some kw.2 ∧ keywords.filter (·.2 = kw.2) = [kw] := by
  decide

theorem foldl_parseField_filter (f : FilterType) (dir : String) :
    (f.components dir).foldl parseField {} = { filter := f, dir := if f = .dir then dir else "" } := by
  cases f with
  | none => rfl
  | exported => rfl
  | dir =>
    show parseField {} ("dir:" ++ dir) = _
    rw [parseField, if_pos (hasPrefix_append _ _), trimPrefix_append]
    rfl

theorem foldl_parseField_kind (qu : Query) {k : SymbolKind}
    (hk : k = 0 ∨ ∃ kw ∈ keywords, kw.2 = k) :
    (kindComponents k).foldl parseField qu = { qu with kind := if k = 0 then qu.kind else k } := by
  rcases hk with rfl | ⟨kw, hkw, rfl⟩
  · rfl
  · obtain ⟨hne, hc, hdir, hexp, hk0, hlook, hfilter⟩ := keywords_spec kw hkw
    rw [kindComponents, if_pos hk0, hfilter, if_neg hk0, List.map_singleton, List.foldl_cons,
      List.foldl_nil, parseField_of_token hne (fun c h => (hc c h).2.2.2) hdir hexp, addToken,
      hlook]

/-- A search token as `ParseQuery` produces it. -/
structure IsToken (u : Unicode) (t : String) : Prop where
  ne_nil : t.toList ≠ []
  printable : Printable u t
  no_sep : ∀ c ∈ t.toList, dotOrSlash c = false
  not_keyword : keywords.lookup t = none

theorem foldl_parseField_tokens : ∀ {ts : List String},
    (∀ t ∈ ts, IsToken u t ∧ hasPrefix t "dir:" = false ∧ t ≠ "is:exported") →
    ∀ qu : Query, ts.foldl parseField qu = { qu with tokens := qu.tokens ++ ts }
  | [], _, qu => by simp
  | t :: ts, ht, qu => by
    obtain ⟨htok, hdir, hexp⟩ := ht t (List.mem_cons_self _ _)
    rw [List.foldl_cons, parseField_of_token htok.ne_nil htok.no_sep hdir hexp, addToken,
      htok.not_keyword, foldl_parseField_tokens (fun x hx => ht x (List.mem_cons_of_mem _ hx))]
    simp

/-! ### The queries `ParseQuery` returns -/

theorem exists_of_lookup_eq_some {α β : Type} [BEq α] {a : α} {b : β} :
    ∀ {l : List (α × β)}, l.lookup a = some b → ∃ p ∈ l, p.2 = b
  | [], h => nomatch h
  | (k, v) :: l, h => by
    rw [List.lookup_cons] at h
    split at h
    · exact ⟨(k, v), List.mem_cons_self _ _, Option.some_inj.1 h⟩
    · obtain ⟨p, hp, rfl⟩ := exists_of_lookup_eq_some h
      exact ⟨p, List.mem_cons_of_mem _ hp, rfl⟩

/-- What every query `ParseQuery` returns satisfies. -/
structure Parsed (u : Unicode) (q : Query) : Prop where
  kind : q.kind = 0 ∨ ∃ kw ∈ keywords, kw.2 = q.kind
  file : q.file = ""
  dir : Printable u q.dir
  tokens : ∀ t ∈ q.tokens, IsToken u t

theorem addToken_parsed {qu : Query} (hq : Parsed u qu) {t : String} (hne : t.toList ≠ [])
    (hp : Printable u t) (hsep : ∀ c ∈ t.toList, dotOrSlash c = false) :
    Parsed u (addToken qu t) := by
  unfold addToken
  split
  · rename_i kind h
    exact ⟨.inr (exists_of_lookup_eq_some h), hq.file, hq.dir, hq.tokens⟩
  · rename_i h
    refine ⟨hq.kind, hq.file, hq.dir, ?_⟩
    simpa [or_imp, forall_and] using ⟨hq.tokens, IsToken.mk hne hp hsep h⟩

theorem parseField_parsed {qu : Query} (hq : Parsed u qu) {field : String}
    (hf : Printable u field) : Parsed u (parseField qu field) := by
  unfold parseField
  split_ifs
  · exact ⟨hq.kind, hq.file, fun c hc => hf c (mem_trimPrefix hc), hq.tokens⟩
  · exact ⟨hq.kind, hq.file, hq.dir, hq.tokens⟩
  · refine foldl_invariant hq fun qu hqu t ht => ?_
    have ⟨hne, hc⟩ := mem_fieldsFunc ht
    exact addToken_parsed hqu hne (fun c h => hf c (hc c h).2) fun c h => (hc c h).1

theorem parseQuery_parsed (u : Unicode) (s : String) : Parsed u (parseQuery u s) :=
  foldl_invariant ⟨.inl rfl, rfl, (fun _ h => nomatch h), fun _ h => nomatch h⟩
    fun _ hq _ hf => parseField_parsed hq fun c hc =>
      ⟨((mem_fieldsFunc hf).2 c hc).1, toLower_of_mem_toLower u ((mem_fieldsFunc hf).2 c hc).2⟩

/-! ### Printing and parsing again -/

theorem components_printable {q : Query} (hq : Parsed u q) :
    ∀ c ∈ q.components, c.toList ≠ [] ∧ Printable u c := by
  simp only [Query.components, List.mem_append]
  rintro c ((hc | hc) | hc)
  · cases hf : q.filter <;> simp only [hf, FilterType.components, List.mem_singleton,
      List.not_mem_nil] at hc
    · exact hc ▸ ⟨by decide, printable_of_ascii (by decide)⟩
    · subst hc
      refine ⟨by simp [toList_append], fun x hx => ?_⟩
      rw [toList_append, List.mem_append] at hx
      rcases hx with hx | hx
      · exact printable_of_ascii (t := "dir:") (by decide) x hx
      · exact hq.dir x hx
  · rcases hq.kind with h0 | ⟨kw, hkw, hk⟩
    · simp [kindComponents, h0] at hc
    · obtain ⟨hne, hcs, -, -, hk0, -, hfilter⟩ := keywords_spec kw hkw
      rw [← hk, kindComponents, if_pos hk0, hfilter, List.map_singleton,
        List.mem_singleton] at hc
      exact hc ▸ ⟨hne, printable_of_ascii fun x hx => ⟨(hcs x hx).1, (hcs x hx).2.1, (hcs x hx).2.2.1⟩⟩
  · exact ⟨(hq.tokens c hc).ne_nil, (hq.tokens c hc).printable⟩

/-- Printing a parsed query and parsing it again gives back the query, with its directory
cleared unless the filter is `dir:`, when no token looks like a filter. -/
theorem parseQuery_string_of_parsed {q : Query} (hq : Parsed u q)
    (ht : ∀ t ∈ q.tokens, hasPrefix t "dir:" = false ∧ t ≠ "is:exported") :
    parseQuery u q.string = { q with dir := if q.filter = .dir then q.dir else "" } := by
  have hc := components_printable hq
  rw [Query.string_eq, foldl_queryJoin_empty fun c h => ⟨(hc c h).1, fun x hx => ((hc c h).2 x hx).1⟩,
    parseQuery_joinBy hc, Query.components, List.foldl_append, List.foldl_append,
    foldl_parseField_filter, foldl_parseField_kind _ hq.kind,
    foldl_parseField_tokens fun t h => ⟨hq.tokens t h, ht t h⟩]
  obtain ⟨kind, filter, file, dir, tokens⟩ := q
  obtain rfl : file = "" := hq.file
  by_cases h0 : kind = 0 <;> simp [h0]

end Parsing

theorem parseQuery_string_of_parsed_dir :
    let q := parseQuery Unicode.ascii "func dir:github.com/x Foo.bar"
    Parsed Unicode.ascii q ∧ (∀ t ∈ q.tokens, hasPrefix t "dir:" = false ∧ t ≠ "is:exported") ∧
      parseQuery Unicode.ascii q.string = { q with dir := if q.filter = .dir then q.dir else "" } :=
  ⟨parseQuery_parsed _ _, by decide, parseQuery_string_of_parsed (parseQuery_parsed _ _) (by decide)⟩

/-- The field `x.is:exported` splits into the tokens `x` and `is:exported`. Printed, the second
is a field of its own, which `ParseQuery` reads as the `is:exported` filter. -/
theorem parseQuery_string_token_as_filter (u : Unicode) :
    parseQuery u "x.is:exported" = { tokens := ["x", "is:exported"] } ∧
      parseQuery u (parseQuery u "x.is:exported").string =
        { filter := .exported, tokens := ["x"] } := by
  have hq : parseQuery u "x.is:exported" = { tokens := ["x", "is:exported"] } := by
    rw [parseQuery, toLower_ascii u (by decide)]
    decide
  refine ⟨hq, ?_⟩
  rw [hq, show ({ tokens := ["x", "is:exported"] } : Query).string = "x is:exported" by decide,
    parseQuery, toLower_ascii u (by decide)]
  decide

end Bingo
