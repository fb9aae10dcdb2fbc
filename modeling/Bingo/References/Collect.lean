import Bingo.Workspace

/-! `refStreamAndCollect`: the window of at most `limit` references (`0` meaning all of them),
their locations without the ones of empty URI, deduplicated by the `formatLocation` key in a
`seen` map. Because the key is injective, this keeps exactly the first occurrence of each
location, in order. -/

namespace Bingo

/-- The loop of `refStreamAndCollect` over the remaining references, with the keys `seen` so
far and the locations `locs` kept so far. -/
def collectLocs (loc : LocationOf) : List Ident → List String → List Location → List Location
  | [], _, locs => locs
  | n :: ns, seen, locs =>
    let l := loc n.namePos n.name
    if l.uri = "" then collectLocs loc ns seen locs
    else if formatLocation l ∈ seen then collectLocs loc ns seen locs
    else collectLocs loc ns (formatLocation l :: seen) (locs ++ [l])

/-- `refStreamAndCollect`. -/
def refStreamAndCollect (loc : LocationOf) (refs : List Ident) (limit : Int) : List Location :=
  let limit := if limit = 0 then (refs.length : Int) else limit
  let l := if limit < refs.length then limit else refs.length
  collectLocs loc (refs.take l.toNat) [] []

/-! ### The first occurrences -/

section KeepFirst

variable {α : Type} [DecidableEq α]

/-- The first occurrence of each element, in order. -/
def keepFirst : List α → List α
  | [] => []
  | a :: l => a :: (keepFirst l).filter (· ≠ a)

@[simp] theorem mem_keepFirst {x : α} : ∀ {xs : List α}, x ∈ keepFirst xs ↔ x ∈ xs
  | [] => Iff.rfl
  | a :: xs => by
    by_cases hx : x = a <;> simp [keepFirst, hx, mem_keepFirst]

theorem keepFirst_filter (p : α → Bool) :
    ∀ xs : List α, keepFirst (xs.filter p) = (keepFirst xs).filter p
  | [] => rfl
  | a :: xs => by
    rw [List.filter_cons]
    cases ha : p a
    · rw [if_neg (by simp), keepFirst_filter p xs, keepFirst, List.filter_cons_of_neg (by simp [ha]),
        List.filter_filter]
      exact List.filter_congr fun x _ => by by_cases hx : x = a <;> simp [hx, ha]
    · rw [if_pos rfl, keepFirst, keepFirst, keepFirst_filter p xs, List.filter_cons_of_pos ha,
        List.filter_filter, List.filter_filter]
      exact congrArg _ (List.filter_congr fun x _ => Bool.and_comm _ _)

theorem keepFirst_sublist : ∀ xs : List α, (keepFirst xs).Sublist xs
  | [] => .slnil
  | a :: l => ((List.filter_sublist _).trans (keepFirst_sublist l)).cons₂ a

theorem keepFirst_nodup : ∀ xs : List α, (keepFirst xs).Nodup
  | [] => List.nodup_nil
  | a :: l => List.nodup_cons.2 ⟨by simp, (keepFirst_nodup l).filter _⟩

end KeepFirst

/-- The reading of `refStreamAndCollect` in terms of locations alone: take the first `n`
references (`n` is all of them for limit `0`, none for a negative limit), keep the locations of
non-empty URI, and of these the first occurrence of each. -/
def windowLength (n : Nat) (limit : Int) : Nat :=
  if limit = 0 then n else if 0 < limit then min limit.toNat n else 0

def firstLocations (loc : LocationOf) (refs : List Ident) (limit : Int) : List Location :=
  keepFirst (((refs.take (windowLength refs.length limit)).map fun n => loc n.namePos n.name).filter
    (·.uri ≠ ""))

/-- The loop invariant: the keys seen are the keys of the locations kept. -/
theorem collectLocs_eq (loc : LocationOf) :
    ∀ (ns : List Ident) (seen : List String) (locs : List Location),
      (∀ x, formatLocation x ∈ seen ↔ x ∈ locs) →
      collectLocs loc ns seen locs =
        locs ++ keepFirst (((ns.map fun n => loc n.namePos n.name).filter (·.uri ≠ "")).filter
          (· ∉ locs))
  | [], _, _, _ => by simp [collectLocs, keepFirst]
  | n :: ns, seen, locs, hseen => by
    simp only [collectLocs, List.map_cons]
    split
    · rw [collectLocs_eq loc ns seen locs hseen]
      simp [List.filter_cons, *]
    · split
      · rw [collectLocs_eq loc ns seen locs hseen]
        simp_all [List.filter_cons]
      · rename_i hl hn
        have hnot : loc n.namePos n.name ∉ locs := (hseen _).not.1 hn
        rw [collectLocs_eq loc ns _ _ (fun x => by
          simp [hseen, formatLocation_injective.eq_iff, or_comm])]
        generalize loc n.namePos n.name = l at hl hnot ⊢
        have hsplit : ∀ R : List Location,
            R.filter (· ∉ locs ++ [l]) = (R.filter (· ∉ locs)).filter (· ≠ l) := fun R => by
          rw [List.filter_filter]
          exact List.filter_congr fun x _ => by simp [and_comm]
        rw [hsplit, keepFirst_filter, List.filter_cons_of_pos (by simpa using hl),
          List.filter_cons_of_pos (by simpa using hnot), keepFirst, List.append_assoc,
          List.singleton_append]

/-- `refStreamAndCollect` keeps the first occurrence of each location within the limit window. -/
theorem refStreamAndCollect_eq_firstLocations (loc : LocationOf) (refs : List Ident) (limit : Int) :
    refStreamAndCollect loc refs limit = firstLocations loc refs limit := by
  have hw : (if (if limit = 0 then (refs.length : Int) else limit) < refs.length
      then (if limit = 0 then (refs.length : Int) else limit) else refs.length).toNat =
      windowLength refs.length limit := by
    unfold windowLength
    split_ifs <;> omega
  rw [refStreamAndCollect, hw, collectLocs_eq loc _ [] [] (by simp), firstLocations]
  simp

/-- A positive limit of at most the number of identifiers cuts everything appended after them. -/
theorem refStreamAndCollect_append_of_le (loc : LocationOf) (refs extra : List Ident) {limit : Int}
    (hpos : 0 < limit) (hle : limit ≤ refs.length) :
    refStreamAndCollect loc (refs ++ extra) limit = refStreamAndCollect loc refs limit := by
  have hw : ∀ m : Int, limit ≤ m → (if limit < m then limit else m) = limit := fun m hm => by
    split_ifs <;> omega
  simp only [refStreamAndCollect, if_neg hpos.ne', hw _ hle, List.length_append,
    hw _ (by omega : limit ≤ ((refs.length + extra.length : Nat) : Int))]
  rw [List.take_append_of_le_length (by omega)]

/-- Without a limit, or with one above the number of identifiers, each identifier's location of
non-empty URI is collected. -/
theorem mem_refStreamAndCollect (loc : LocationOf) {refs : List Ident} {limit : Int}
    (hw : limit = 0 ∨ refs.length ≤ limit) {r : Ident} (hr : r ∈ refs)
    (hu : (loc r.namePos r.name).uri ≠ "") : loc r.namePos r.name ∈ refStreamAndCollect loc refs limit := by
  have hn : (if (if limit = 0 then (refs.length : Int) else limit) < refs.length
      then (if limit = 0 then (refs.length : Int) else limit) else refs.length).toNat = refs.length := by
    split_ifs <;> omega
  rw [refStreamAndCollect, hn, List.take_length, collectLocs_eq loc _ [] [] (by simp)]
  simpa using ⟨⟨r, hr, rfl⟩, hu⟩

/-- What `refStreamAndCollect` returns: distinct locations of non-empty URI, at most `limit` of
them when `limit` is positive, and none when it is negative. -/
theorem refStreamAndCollect_distinct (loc : LocationOf) (refs : List Ident) (limit : Int) :
    (refStreamAndCollect loc refs limit).Nodup ∧ (∀ l ∈ refStreamAndCollect loc refs limit, l.uri ≠ "") ∧
      (0 < limit → ((refStreamAndCollect loc refs limit).length : Int) ≤ limit) ∧
      (limit < 0 → refStreamAndCollect loc refs limit = []) := by
  unfold refStreamAndCollect
  rw [collectLocs_eq loc _ [] [] (by simp), List.nil_append]
  generalize hn : (if (if limit = 0 then (refs.length : Int) else limit) < refs.length
      then (if limit = 0 then (refs.length : Int) else limit) else refs.length).toNat = n
  have hw : (0 < limit → n ≤ limit) ∧ (limit < 0 → n = 0) := by
    subst hn
    split_ifs <;> omega
  set ks := (((refs.take n).map fun n => loc n.namePos n.name).filter (·.uri ≠ "")).filter (· ∉ [])
  have hlen : ks.length ≤ n :=
    ((List.length_filter_le _ _).trans (List.length_filter_le _ _)).trans
      ((List.length_map _ _).trans_le (List.length_take_le _ _))
  refine ⟨keepFirst_nodup ks, fun l hl => ?_, fun hpos => ?_, fun hneg => ?_⟩
  · simpa [ks] using (List.mem_filter.1 (List.mem_filter.1 (mem_keepFirst.1 hl)).1).2
  · have := (keepFirst_sublist ks).length_le
    have := hw.1 hpos
    omega
  · have : ks = [] := List.eq_nil_of_length_eq_zero (by have := hw.2 hneg; omega)
    rw [this]
    rfl

end Bingo
