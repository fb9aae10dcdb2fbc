import Bingo.Hover.TypeString

/-! `prettyPrintTypesString`, which lays out the formatter's output for hover: a `;` outside a tag
starts a new line, indented four spaces a level, in place of `; `; a `{` that opens a non-empty
body becomes ` {` and a new line, and a `}` a new line and `}`; a `"` becomes a backtick and
`\x` becomes `"`. It gives up and returns its input at a `{` that ends it or a `}` that closes
nothing, and returns nothing for an input that ends in `{}`.

The loop reads the formatter's output piece by piece (`loop_render`): text is copied, a body is
laid out around its members, and a tag comes out between backticks with its content, provided
the content holds neither a brace nor a backslash and only characters `strconv.Quote` copies,
the quote apart. So for those tags the printer does what `Piece.layout` states
(`prettyPrintTypesString_typeString`). The `{` and `}` branches do not look at the tag flag,
and the `\` branch writes `"` whatever follows it: a brace inside a tag changes the depth, and
a backslash or a rune that `strconv.Quote` escapes comes out as `"`
(`prettyPrintTypesString_rewrites_tag`). -/

namespace Bingo

/-- `depth` times four spaces. -/
def indent (depth : Nat) : List Char := List.replicate (4 * depth) ' '

/-- The loop of `prettyPrintTypesString` over the rest of its input, at `depth`, in a tag or not:
what it writes, or `none` where it gives up. A skip (`i++`) past the end ends the loop. -/
def prettyLoop : Nat → Bool → List Char → Option (List Char)
  | _, _, [] => some []
  | depth, inTag, c :: cs =>
    if c = ';' then
      if inTag then (prettyLoop depth inTag cs).map (c :: ·)
      else
        match cs with
        | [] => some ('\n' :: indent depth)
        | _ :: cs => (prettyLoop depth inTag cs).map (('\n' :: indent depth) ++ ·)
    else if c = '\"' then (prettyLoop depth (!inTag) cs).map ('\x60' :: ·)
    else if c = '\\' then
      match cs with
      | [] => some ['\"']
      | _ :: cs => (prettyLoop depth inTag cs).map ('\"' :: ·)
    else if c = '{' then
      match cs with
      | [] => none
      | n :: rest =>
        if n = '}' then (prettyLoop depth inTag rest).map (['{', '}'] ++ ·)
        else (prettyLoop (depth + 1) inTag (n :: rest)).map ((' ' :: '{' :: '\n' :: indent (depth + 1)) ++ ·)
    else if c = '}' then
      match depth with
      | 0 => none
      | depth + 1 => (prettyLoop depth inTag cs).map (['\n', '}'] ++ ·)
    else (prettyLoop depth inTag cs).map (c :: ·)

/-- `prettyPrintTypesString`. -/
def prettyPrintTypesString (s : String) : String :=
  if hasSuffix s "\x7b\x7d" then ""
  else
    match prettyLoop 0 false s.toList with
    | some out => ⟨out⟩
    | none => s

/-! ### What the printer is for -/

mutual
/-- The layout the printer is meant to give the formatter's output, stated on its pieces: text as
it is; a tag's content between backticks; an empty body as `{}`; a non-empty body opened by
` {` and a new line, its members separated by new lines, each indented four spaces a level, and
closed by a new line and `}`. -/
def Piece.layout : Nat → Piece → List Char
  | _, .text p => p.text.toList
  | _, .tag s => '\x60' :: s.toList ++ ['\x60']
  | _, .body [] => ['{', '}']
  | depth, .body (m :: ms) =>
    ' ' :: '{' :: '\n' :: indent (depth + 1) ++ layoutMembers (depth + 1) (m :: ms) ++ ['\n', '}']
def layoutPieces (depth : Nat) : List Piece → List Char
  | [] => []
  | p :: ps => p.layout depth ++ layoutPieces depth ps
def layoutMembers (depth : Nat) : List (List Piece) → List Char
  | [] => []
  | [m] => layoutPieces depth m
  | m :: ms => layoutPieces depth m ++ '\n' :: indent depth ++ layoutMembers depth ms
end

section Tags

variable (isPrint : Char → Bool)

/-- A character of a tag that the printer copies: one `strconv.Quote` writes as it is, or the
quote, which it writes as `\"`; and neither a brace nor a backslash. -/
def tagChar (c : Char) : Bool :=
  c != '{' && c != '}' && c != '\\' && (c == '\"' || printable isPrint c)

end Tags

/-! ### One step of the loop -/

section Steps

variable {depth : Nat} {inTag : Bool} {cs : List Char}

@[simp] theorem prettyLoop_nil : prettyLoop depth inTag [] = some [] := rfl

theorem prettyLoop_other {c : Char} (h : isLayoutChar c = false) :
    prettyLoop depth inTag (c :: cs) = (prettyLoop depth inTag cs).map (c :: ·) := by
  simp only [isLayoutChar, Bool.or_eq_false_iff, beq_eq_false_iff_ne] at h
  obtain ⟨⟨⟨⟨h₁, h₂⟩, h₃⟩, h₄⟩, h₅⟩ := h
  conv_lhs => unfold prettyLoop
  simp only [if_neg h₁, if_neg h₂, if_neg h₃, if_neg h₄, if_neg h₅]

theorem prettyLoop_semi_space :
    prettyLoop depth false (';' :: ' ' :: cs) =
      (prettyLoop depth false cs).map (('\n' :: indent depth) ++ ·) := by
  conv_lhs => unfold prettyLoop
  simp

theorem prettyLoop_semi_inTag :
    prettyLoop depth true (';' :: cs) = (prettyLoop depth true cs).map (';' :: ·) := by
  conv_lhs => unfold prettyLoop
  simp

theorem prettyLoop_quote :
    prettyLoop depth inTag ('\"' :: cs) = (prettyLoop depth (!inTag) cs).map ('\x60' :: ·) := by
  conv_lhs => unfold prettyLoop
  simp

theorem prettyLoop_escaped_quote :
    prettyLoop depth inTag ('\\' :: '\"' :: cs) = (prettyLoop depth inTag cs).map ('\"' :: ·) := by
  conv_lhs => unfold prettyLoop
  simp

theorem prettyLoop_empty_body :
    prettyLoop depth inTag ('{' :: '}' :: cs) = (prettyLoop depth inTag cs).map (['{', '}'] ++ ·) := by
  conv_lhs => unfold prettyLoop
  simp

theorem prettyLoop_open {c : Char} (hc : c ≠ '}') :
    prettyLoop depth inTag ('{' :: c :: cs) =
      (prettyLoop (depth + 1) inTag (c :: cs)).map
        ((' ' :: '{' :: '\n' :: indent (depth + 1)) ++ ·) := by
  conv_lhs => unfold prettyLoop
  simp [hc]

theorem prettyLoop_close :
    prettyLoop (depth + 1) inTag ('}' :: cs) = (prettyLoop depth inTag cs).map (['\n', '}'] ++ ·) := by
  conv_lhs => unfold prettyLoop
  simp

/-- A run of characters the printer does not rewrite is copied. -/
theorem prettyLoop_plain {rest : List Char} :
    ∀ {cs : List Char}, (∀ c ∈ cs, isLayoutChar c = false) →
      prettyLoop depth inTag (cs ++ rest) = (prettyLoop depth inTag rest).map (cs ++ ·)
  | [], _ => by simp
  | c :: cs, h => by
    rw [List.cons_append, prettyLoop_other (h c (List.mem_cons_self _ _)),
      prettyLoop_plain fun c hc => h c (List.mem_cons_of_mem _ hc), Option.map_map]
    rfl

end Steps

/-! ### The loop over the formatter's output -/

section Render

variable {isPrint : Char → Bool}

/-- Inside a tag, a `tagChar` as `strconv.Quote` writes it comes out as itself. -/
theorem prettyLoop_escapeRune {depth : Nat} {c : Char} (hc : tagChar isPrint c) (rest : List Char) :
    prettyLoop depth true (escapeRune isPrint c ++ rest) = (prettyLoop depth true rest).map (c :: ·) := by
  simp only [tagChar, Bool.and_eq_true, bne_iff_ne, ne_eq, Bool.or_eq_true, beq_iff_eq] at hc
  obtain ⟨⟨⟨hl, hr⟩, hb⟩, hq | hp⟩ := hc
  · subst hq
    exact prettyLoop_escaped_quote
  · by_cases hq : c = '\"'
    · subst hq
      exact prettyLoop_escaped_quote
    rw [escapeRune, if_neg (by tauto), if_pos hp, List.singleton_append]
    by_cases hs : c = ';'
    · subst hs
      exact prettyLoop_semi_inTag
    · exact prettyLoop_other (by simp [isLayoutChar, hs, hq, hb, hl, hr])

/-- A tag of `tagChar`s comes out as its content between backticks. -/
theorem prettyLoop_quote_tag {depth : Nat} {s : String} (hs : s.toList.all (tagChar isPrint))
    (rest : List Char) :
    prettyLoop depth false (quote isPrint s ++ rest) =
      (prettyLoop depth false rest).map (('\x60' :: s.toList ++ ['\x60']) ++ ·) := by
  have hcontent : ∀ l : List Char, (∀ c ∈ l, tagChar isPrint c) →
      prettyLoop depth true (l.flatMap (escapeRune isPrint) ++ '\"' :: rest) =
        (prettyLoop depth false rest).map ((l ++ ['\x60']) ++ ·) := by
    intro l hl
    induction l with
    | nil => simp [prettyLoop_quote]
    | cons c l ih =>
      rw [List.flatMap_cons, List.append_assoc, prettyLoop_escapeRune (hl c (List.mem_cons_self _ _)),
        ih fun c hc => hl c (List.mem_cons_of_mem _ hc), Option.map_map]
      rfl
  simp only [quote, List.cons_append, List.append_assoc, List.singleton_append, List.nil_append]
  rw [prettyLoop_quote, Bool.not_false, hcontent _ (by simpa using hs), Option.map_map]
  simp only [Function.comp_def, List.append_assoc, List.singleton_append]

/-- The first character of a piece is never a `}`. -/
theorem Piece.render_head_ne (p : Piece) : ∃ c cs, p.render isPrint = c :: cs ∧ c ≠ '}' := by
  cases p with
  | text p =>
    obtain ⟨c, cs, h⟩ := List.exists_cons_of_ne_nil p.ne
    refine ⟨c, cs, h, fun hc => ?_⟩
    have := p.plain c (h ▸ List.mem_cons_self _ _)
    simp [hc, isLayoutChar] at this
  | tag s => exact ⟨_, _, rfl, by decide⟩
  | body ms => exact ⟨_, _, rfl, by decide⟩

theorem renderPieces_cons_head_ne (p : Piece) (ps : List Piece) (rest : List Char) :
    ∃ c cs, renderPieces isPrint (p :: ps) ++ rest = c :: cs ∧ c ≠ '}' := by
  obtain ⟨c, cs, h, hc⟩ := @Piece.render_head_ne isPrint p
  exact ⟨c, _, by rw [renderPieces, h, List.cons_append, List.cons_append], hc⟩

/-- The members of a non-empty body start with something other than a `}`. -/
theorem renderMembers_head_ne {m : List Piece} (hm : m ≠ []) (ms : List (List Piece))
    (rest : List Char) : ∃ c cs, renderMembers isPrint (m :: ms) ++ rest = c :: cs ∧ c ≠ '}' := by
  obtain ⟨p, ps, rfl⟩ := List.exists_cons_of_ne_nil hm
  cases ms with
  | nil => exact renderPieces_cons_head_ne p ps rest
  | cons m' ms =>
    rw [renderMembers, List.append_assoc]
    · exact renderPieces_cons_head_ne p ps _
    · exact List.cons_ne_nil _ _

section Tags

@[simp] theorem Piece.tags_text (p : PlainText) : (Piece.text p).tags = [] := rfl

@[simp] theorem Piece.tags_tag (s : String) : (Piece.tag s).tags = [s] := rfl

@[simp] theorem Piece.tags_body (ms : List (List Piece)) : (Piece.body ms).tags = membersTags ms := rfl

@[simp] theorem piecesTags_cons (p : Piece) (ps : List Piece) :
    piecesTags (p :: ps) = p.tags ++ piecesTags ps := rfl

@[simp] theorem membersTags_cons (m : List Piece) (ms : List (List Piece)) :
    membersTags (m :: ms) = piecesTags m ++ membersTags ms := rfl

end Tags

mutual
/-- The loop over a piece the formatter writes: text is copied, a tag comes out between
backticks, and a body is laid out around its members. -/
theorem Piece.loop_render : ∀ (p : Piece) (depth : Nat) (rest : List Char),
    (∀ s ∈ p.tags, s.toList.all (tagChar isPrint)) → p.filled →
    prettyLoop depth false (p.render isPrint ++ rest) =
      (prettyLoop depth false rest).map (p.layout depth ++ ·)
  | .text p, _, _, _, _ => prettyLoop_plain p.plain
  | .tag s, _, rest, ht, _ => prettyLoop_quote_tag (ht s (List.mem_singleton_self _)) rest
  | .body [], _, _, _, _ => by
    simp only [Piece.render, renderMembers, List.nil_append, List.singleton_append, List.cons_append]
    exact prettyLoop_empty_body
  | .body (m :: ms), depth, rest, ht, hf => by
    have hm : m ≠ [] := by
      rintro rfl
      simp at hf
    obtain ⟨c, cs, hcs, hc⟩ := @renderMembers_head_ne isPrint _ hm ms ('}' :: rest)
    simp only [Piece.render, List.cons_append, List.append_assoc, List.singleton_append,
      List.nil_append]
    rw [hcs, prettyLoop_open hc, ← hcs, loop_renderMembers (m :: ms) (depth + 1) ('}' :: rest) ht hf,
      prettyLoop_close, Option.map_map, Option.map_map, Piece.layout]
    simp only [Function.comp_def, List.append_assoc, List.cons_append, List.singleton_append]
theorem loop_renderPieces : ∀ (ps : List Piece) (depth : Nat) (rest : List Char),
    (∀ s ∈ piecesTags ps, s.toList.all (tagChar isPrint)) → piecesFilled ps →
    prettyLoop depth false (renderPieces isPrint ps ++ rest) =
      (prettyLoop depth false rest).map (layoutPieces depth ps ++ ·)
  | [], _, _, _, _ => by simp [renderPieces, layoutPieces]
  | p :: ps, depth, rest, ht, hf => by
    simp only [piecesTags_cons, List.mem_append, piecesFilled_cons, Bool.and_eq_true] at ht hf
    rw [renderPieces, List.append_assoc, p.loop_render depth _ (fun s hs => ht s (.inl hs)) hf.1,
      loop_renderPieces ps depth rest (fun s hs => ht s (.inr hs)) hf.2, Option.map_map, layoutPieces]
    simp only [Function.comp_def, List.append_assoc]
theorem loop_renderMembers : ∀ (ms : List (List Piece)) (depth : Nat) (rest : List Char),
    (∀ s ∈ membersTags ms, s.toList.all (tagChar isPrint)) → membersFilled ms →
    prettyLoop depth false (renderMembers isPrint ms ++ rest) =
      (prettyLoop depth false rest).map (layoutMembers depth ms ++ ·)
  | [], _, _, _, _ => by simp [renderMembers, layoutMembers]
  | [m], depth, rest, ht, hf => by
    simp only [membersTags_cons, List.mem_append, membersFilled_cons, Bool.and_eq_true] at ht hf
    simpa [renderMembers, layoutMembers] using
      loop_renderPieces m depth rest (fun s hs => ht s (.inl hs)) hf.1.2
  | m :: m' :: ms, depth, rest, ht, hf => by
    simp only [membersTags_cons, List.mem_append, membersFilled_cons, Bool.and_eq_true] at ht hf
    have ht' : ∀ s ∈ membersTags (m' :: ms), s.toList.all (tagChar isPrint) := fun s hs =>
      ht s (.inr (by simpa using hs))
    have hf' : membersFilled (m' :: ms) := by simpa using hf.2
    simp only [renderMembers, layoutMembers, List.append_assoc, List.cons_append]
    rw [loop_renderPieces m depth _ (fun s hs => ht s (.inl hs)) hf.1.2, prettyLoop_semi_space,
      loop_renderMembers (m' :: ms) depth rest ht' hf', Option.map_map, Option.map_map]
    simp only [Function.comp_def, List.append_assoc, List.cons_append]
end

/-! ### The printer over the formatter's output -/

/-- For every type whose text does not end in `{}` and whose tags hold only `tagChar`s, the
printer lays the formatter's text out as `Piece.layout` states. -/
theorem prettyPrintTypesString_typeString (q : Qualifier) (t : GoType)
    (htags : ∀ s ∈ piecesTags (t.doc q), s.toList.all (tagChar isPrint))
    (hsuf : hasSuffix ⟨typeString isPrint q t⟩ "\x7b\x7d" = false) :
    prettyPrintTypesString ⟨typeString isPrint q t⟩ = ⟨layoutPieces 0 (t.doc q)⟩ := by
  have h := loop_renderPieces (t.doc q) 0 [] htags (t.doc_filled q)
  rw [List.append_nil] at h
  simp only [typeString] at hsuf ⊢
  simp [prettyPrintTypesString, hsuf, h]

theorem prettyPrintTypesString_typeString_json :
    let t : GoType := .struct [.mk ⟨"F", by decide, by decide⟩ false (.basic ⟨"int", by decide, by decide⟩) "json"]
    (∀ s ∈ piecesTags (t.doc .empty), s.toList.all (tagChar fun _ => true)) ∧
      hasSuffix ⟨typeString (fun _ => true) .empty t⟩ "\x7b\x7d" = false ∧
      prettyPrintTypesString ⟨typeString (fun _ => true) .empty t⟩ = ⟨layoutPieces 0 (t.doc .empty)⟩ :=
  ⟨by decide, by decide, prettyPrintTypesString_typeString .empty _ (by decide) (by decide)⟩

end Render

/-! ### When the printer returns nothing -/

/-- Each turn of the loop writes something: every branch gives up, ends with a non-empty text, or
writes a non-empty text before the rest. -/
theorem prettyLoop_cons_ne_nil {depth : Nat} {inTag : Bool} {c : Char} {cs out : List Char}
    (h : prettyLoop depth inTag (c :: cs) = some out) : out ≠ [] := by
  unfold prettyLoop at h
  split_ifs at h <;> (try split at h) <;> (try split_ifs at h) <;>
    first
    | (cases h <;> simp)
    | (obtain ⟨_, _, rfl⟩ := Option.map_eq_some'.1 h; simp)

/-- The printer returns nothing exactly for an input that ends in `{}`, or is empty. -/
theorem prettyPrintTypesString_eq_empty (s : String) :
    prettyPrintTypesString s = "" ↔ hasSuffix s "\x7b\x7d" ∨ s = "" := by
  unfold prettyPrintTypesString
  by_cases hs : hasSuffix s "\x7b\x7d"
  · simp [hs]
  · simp only [hs, Bool.false_eq_true, if_false, false_or]
    split
    · rename_i out h
      obtain ⟨l⟩ := s
      cases l with
      | nil => simp_all [prettyLoop_nil]
      | cons c cs =>
        have := prettyLoop_cons_ne_nil h
        simp_all [String.ext_iff]
    · rfl
/-- `struct{F int "tag"}`. -/
def taggedStruct (tag : String) : GoType :=
  .struct [.mk ⟨"F", by decide, by decide⟩ false (.basic ⟨"int", by decide, by decide⟩) tag]

/-- A brace in a tag opens a body, and a backslash comes out as `"`: the tag `{` is printed as
`` ` {`` and a new line, and the closing brace of the struct lands one level deeper; the tag
`a\b` is printed as `` `a"b` ``. -/
theorem prettyPrintTypesString_rewrites_tag (isPrint : Char → Bool) :
    prettyPrintTypesString ⟨typeString isPrint .empty (taggedStruct "\x7b")⟩ =
      "struct \x7b\n    F int ` \x7b\n        `\n\x7d" ∧
    String.mk (layoutPieces 0 ((taggedStruct "\x7b").doc .empty)) = "struct \x7b\n    F int `\x7b`\n\x7d" ∧
    prettyPrintTypesString ⟨typeString isPrint .empty (taggedStruct "a\\b")⟩ =
      "struct \x7b\n    F int `a\"b`\n\x7d" ∧
    String.mk (layoutPieces 0 ((taggedStruct "a\\b").doc .empty)) = "struct \x7b\n    F int `a\\b`\n\x7d" :=
  ⟨rfl, rfl, rfl, rfl⟩

end Bingo
