import Bingo.Strings

/-! The parts of Go's `path` and `path/filepath` that the language server reads, for Unix paths:
the separator is `/`, there are no volume names, and the two packages agree. `Clean` is
modelled by its documented rules on the path's elements (drop empty and `.` elements, let `..`
remove the element before it, drop `..` at the start of a rooted path), which its byte loop
implements. -/

namespace Bingo

/-- The elements of a path: the texts between separators, the empty ones left out. -/
def pathElements (path : String) : List String := fieldsFunc path (· = '/')

/-- One element of `filepath.Clean`'s pass, on the elements kept so far, last first. -/
def cleanStep (rooted : Bool) (kept : List String) (e : String) : List String :=
  if e = "." then kept
  else if e = ".." then
    match kept with
    | x :: rest => if x = ".." then e :: kept else rest
    | [] => if rooted then [] else [e]
  else e :: kept

/-- `filepath.Clean`. -/
def clean (path : String) : String :=
  if path = "" then "." else
  let rooted := path.toList.head? = some '/'
  let kept := ((pathElements path).foldl (cleanStep rooted) []).reverse
  let body := joinBy '/' (kept.map String.toList)
  if rooted then ⟨'/' :: body⟩ else if body = [] then "." else ⟨body⟩

/-- `filepath.Dir`: the path up to its last separator, cleaned. -/
def dir (path : String) : String :=
  clean ⟨(path.toList.reverse.dropWhile (· ≠ '/')).reverse⟩

example : dir "/w/./a/../b//x.go" = "/w/b" := by decide

/-- `path.Base`: the last element, trailing separators removed; `.` for the empty path and `/`
for a path of separators only. -/
def base (path : String) : String :=
  if path = "" then "." else
  let stripped := path.toList.reverse.dropWhile (· = '/')
  if stripped = [] then "/" else ⟨(stripped.takeWhile (· ≠ '/')).reverse⟩

/-- `path.Join` of two elements: the elements from the first non-empty one, joined by
separators and cleaned; empty when both are. -/
def join (a b : String) : String :=
  if a ≠ "" then clean (a ++ "/" ++ b) else if b ≠ "" then clean b else ""

example : base "/w/p/vendor/x.go" = "x.go" ∧ join "github.com/u/r" "./x/" = "github.com/u/r/x" := by
  decide

/-! ### Joining names onto a path

`clean` in two parts: the elements its pass keeps (`cleanElements`) and the path it writes for
them (`cleanPath`). What the pass keeps has a stable shape (`KeptRev`): a second pass keeps all of
it, so that joining a name onto a cleaned path appends the name to the kept elements
(`join_cleanPath`), and a path made by joining names onto a root determines the names
(`joinAll_injective`). -/

/-- Whether a path starts at the root. -/
def isRooted (path : String) : Bool := path.toList.head? = some '/'

/-- The elements `filepath.Clean` keeps, in order. -/
def cleanElements (rooted : Bool) (els : List String) : List String :=
  (els.foldl (cleanStep rooted) []).reverse

/-- The path `filepath.Clean` writes for the elements it keeps. -/
def cleanPath (rooted : Bool) (kept : List String) : String :=
  let body := joinBy '/' (kept.map String.toList)
  if rooted then ⟨'/' :: body⟩ else if body = [] then "." else ⟨body⟩

theorem clean_eq_cleanPath {path : String} (h : path ≠ "") :
    clean path = cleanPath (isRooted path) (cleanElements (isRooted path) (pathElements path)) := by
  simp [clean, h, isRooted, cleanPath, cleanElements]

/-- An element of a path: not empty, without a separator. -/
def IsSegment (e : String) : Prop := e.toList ≠ [] ∧ '/' ∉ e.toList

/-- A name `ioutil.ReadDir` lists: an element of a path other than `.` and `..`. -/
def isEntryName (name : String) : Bool :=
  name.toList != [] && !name.toList.contains '/' && name != "." && name != ".."

theorem isEntryName_iff {name : String} :
    isEntryName name ↔ IsSegment name ∧ name ≠ "." ∧ name ≠ ".." := by
  simp [isEntryName, IsSegment, and_assoc]

theorem isSegment_of_mem_pathElements {path e : String} (h : e ∈ pathElements path) : IsSegment e := by
  obtain ⟨hne, hc⟩ := mem_fieldsFunc h
  exact ⟨hne, fun hs => by simpa using (hc '/' hs).1⟩

theorem IsSegment.sep_free {e : String} (h : IsSegment e) : ∀ c ∈ e.toList, decide (c = '/') = false :=
  fun _ hc => decide_eq_false fun hs => h.2 (hs ▸ hc)

theorem IsSegment.isRooted {e : String} (h : IsSegment e) : isRooted e = false := by
  obtain ⟨c, cs, hc⟩ := List.exists_cons_of_ne_nil h.1
  have hc' : c ≠ '/' := fun h' => h.2 (hc ▸ h' ▸ List.mem_cons_self _ _)
  rw [Bingo.isRooted, hc]
  simpa using hc'

theorem IsSegment.pathElements {e : String} (h : IsSegment e) : pathElements e = [e] :=
  fieldsFunc_eq_singleton h.1 h.sep_free

theorem cleanStep_name {e : String} (h1 : e ≠ ".") (h2 : e ≠ "..") (r : Bool) (kept : List String) :
    cleanStep r kept e = e :: kept := by
  simp [cleanStep, h1, h2]

theorem mem_cleanStep {r : Bool} {kept : List String} {e x : String} (h : x ∈ cleanStep r kept e) :
    x = e ∨ x ∈ kept := by
  unfold cleanStep at h
  by_cases h1 : e = "."
  · rw [if_pos h1] at h; exact .inr h
  rw [if_neg h1] at h
  by_cases h2 : e = ".."
  · rw [if_pos h2] at h
    cases kept with
    | nil => cases r <;> simp_all
    | cons y ys => by_cases hy : y = ".." <;> simp_all
  · rw [if_neg h2] at h; exact List.mem_cons.1 h

/-- What `filepath.Clean`'s pass keeps, last element first: names, then the `..` elements that no
name could remove, none in a rooted path; every element a segment. -/
def KeptRev (rooted : Bool) (kept : List String) : Prop :=
  (∃ names n, kept = names ++ List.replicate n ".." ∧ (rooted → n = 0) ∧
    ∀ e ∈ names, e ≠ "." ∧ e ≠ "..") ∧ ∀ e ∈ kept, IsSegment e

theorem keptRev_nil (r : Bool) : KeptRev r [] := ⟨⟨[], 0, rfl, fun _ => rfl, by simp⟩, by simp⟩

theorem KeptRev.cons_name {r : Bool} {kept : List String} (hk : KeptRev r kept) {e : String}
    (he : isEntryName e) : KeptRev r (e :: kept) := by
  obtain ⟨⟨names, n, rfl, hr, hnames⟩, hseg⟩ := hk
  obtain ⟨hs, h1, h2⟩ := isEntryName_iff.1 he
  exact ⟨⟨e :: names, n, rfl, hr, by simp_all⟩, by simp_all⟩

theorem KeptRev.step {r : Bool} {kept : List String} (hk : KeptRev r kept) {e : String}
    (he : IsSegment e) : KeptRev r (cleanStep r kept e) := by
  have hseg : ∀ x ∈ cleanStep r kept e, IsSegment x := fun x hx =>
    (mem_cleanStep hx).elim (· ▸ he) (hk.2 x)
  refine ⟨?_, hseg⟩
  obtain ⟨⟨names, n, rfl, hr, hnames⟩, -⟩ := hk
  by_cases h1 : e = "."
  · exact ⟨names, n, by simp [cleanStep, h1], hr, hnames⟩
  by_cases h2 : e = ".."
  · subst h2
    match names, n with
    | y :: ys, n =>
      have hy := (hnames y (List.mem_cons_self _ _)).2
      exact ⟨ys, n, by simp [cleanStep, hy], hr, fun e he => hnames e (List.mem_cons_of_mem _ he)⟩
    | [], 0 =>
      cases r
      · exact ⟨[], 1, by decide, by simp, by simp⟩
      · exact ⟨[], 0, by decide, by simp, by simp⟩
    | [], m + 1 =>
      obtain rfl : r = false := by cases r <;> simp_all
      exact ⟨[], m + 2, rfl, by simp, by simp⟩
  · exact ⟨e :: names, n, by simp [cleanStep, h1, h2], hr, by simp_all⟩

theorem keptRev_foldl (r : Bool) (els : List String) (h : ∀ e ∈ els, IsSegment e) :
    KeptRev r (els.foldl (cleanStep r) []) :=
  foldl_invariant (keptRev_nil r) fun _ hk e he => hk.step (h e he)

theorem foldl_cleanStep_names {r : Bool} {names : List String}
    (h : ∀ e ∈ names, e ≠ "." ∧ e ≠ "..") (acc : List String) :
    names.foldl (cleanStep r) acc = names.reverse ++ acc := by
  induction names generalizing acc with
  | nil => rfl
  | cons e names ih =>
    rw [List.foldl_cons, cleanStep_name (h e (List.mem_cons_self _ _)).1 (h e (List.mem_cons_self _ _)).2,
      ih (fun e he => h e (List.mem_cons_of_mem _ he))]
    simp

theorem foldl_cleanStep_dotdot (n : Nat) :
    (List.replicate n "..").foldl (cleanStep false) [] = List.replicate n ".." := by
  have step : ∀ i, cleanStep false (List.replicate i "..") ".." = List.replicate (i + 1) ".." := by
    intro i; cases i <;> rfl
  suffices ∀ i, (List.replicate n "..").foldl (cleanStep false) (List.replicate i "..") =
      List.replicate (i + n) ".." from this 0 |>.trans (by rw [Nat.zero_add])
  induction n with
  | zero => intro i; rfl
  | succ n ih => intro i; rw [List.replicate_succ, List.foldl_cons, step, ih]; congr 1; omega

/-- A second pass of `filepath.Clean` keeps all that the first kept. -/
theorem KeptRev.foldl_reverse {r : Bool} {kept : List String} (hk : KeptRev r kept) :
    kept.reverse.foldl (cleanStep r) [] = kept := by
  obtain ⟨⟨names, n, rfl, hr, hnames⟩, -⟩ := hk
  have hdots : (List.replicate n "..").foldl (cleanStep r) [] = List.replicate n ".." := by
    cases r
    · exact foldl_cleanStep_dotdot n
    · rw [hr rfl]; rfl
  rw [List.reverse_append, List.reverse_replicate, List.foldl_append, hdots,
    foldl_cleanStep_names (by simpa using hnames), List.reverse_reverse]

theorem joinBy_ne_nil {kept : List String} (hne : kept ≠ []) (hseg : ∀ e ∈ kept, IsSegment e) :
    joinBy '/' (kept.map String.toList) ≠ [] := by
  obtain ⟨e, es, rfl⟩ := List.exists_cons_of_ne_nil hne
  intro h
  have := congrArg List.head? h
  rw [List.map_cons, joinBy_head? (hseg e (List.mem_cons_self _ _)).1] at this
  exact (hseg e (List.mem_cons_self _ _)).1 (List.head?_eq_none_iff.1 this)

theorem pathElements_sep_cons (l : List Char) : pathElements ⟨'/' :: l⟩ = pathElements ⟨l⟩ := by
  simp [pathElements, fieldsFunc, List.splitOnP_cons]

theorem pathElements_cleanPath (r : Bool) {kept : List String} (hne : kept ≠ [])
    (hseg : ∀ e ∈ kept, IsSegment e) : pathElements (cleanPath r kept) = kept := by
  have hjoin : pathElements ⟨joinBy '/' (kept.map String.toList)⟩ = kept :=
    @fieldsFunc_joinBy (fun c => decide (c = '/')) '/' rfl kept (fun e he => (hseg e he).1)
      fun e he => (hseg e he).sep_free
  simp only [cleanPath]
  split_ifs with hr hb
  · rw [pathElements_sep_cons, hjoin]
  · exact absurd hb (joinBy_ne_nil hne hseg)
  · exact hjoin

theorem isRooted_cleanPath (r : Bool) {kept : List String} (hseg : ∀ e ∈ kept, IsSegment e) :
    isRooted (cleanPath r kept) = r := by
  simp only [cleanPath]
  split_ifs with hr hb
  · simp [isRooted, hr]
  · simp [isRooted, hr]
  · cases kept with
    | nil => exact absurd rfl hb
    | cons e es =>
      have he := hseg e (List.mem_cons_self _ _)
      have hhead : (joinBy '/' ((e :: es).map String.toList)).head? ≠ some '/' := by
        rw [List.map_cons, joinBy_head? he.1]
        exact fun h => he.2 (List.mem_of_mem_head? h)
      rw [Bool.not_eq_true] at hr
      simpa [isRooted, hr] using hhead

theorem cleanPath_ne_empty (r : Bool) (kept : List String) : cleanPath r kept ≠ "" := by
  simp only [cleanPath]
  split_ifs with hr hb
  · exact fun h => nomatch congrArg String.toList h
  · decide
  · exact fun h => hb (congrArg String.toList h)

theorem toList_append_sep (s b : String) : (s ++ "/" ++ b).toList = s.toList ++ '/' :: b.toList := by
  rw [toList_append, toList_append, List.append_assoc]
  rfl

theorem append_sep_ne_empty (s b : String) : s ++ "/" ++ b ≠ "" := fun h => by
  simpa using (toList_append_sep s b).symm.trans (congrArg String.toList h)

theorem pathElements_append_sep (s : String) {b : String} (hb : IsSegment b) :
    pathElements (s ++ "/" ++ b) = pathElements s ++ [b] := by
  simp only [pathElements, fieldsFunc, toList_append_sep,
    @splitOnP_append_sep Char (fun c => decide (c = '/')) '/' rfl b.toList hb.sep_free s.toList]
  rw [List.filter_append, List.map_append, List.filter_singleton, decide_eq_true hb.1]
  rfl

theorem append_ne_empty_of_left {s : String} (hs : s ≠ "") (t : String) : s ++ t ≠ "" := fun h =>
  hs (congrArg String.mk (List.append_eq_nil.1 ((toList_append s t).symm.trans (congrArg String.toList h))).1)

theorem isRooted_append {s : String} (hs : s ≠ "") (t : String) : isRooted (s ++ t) = isRooted s := by
  obtain ⟨c, cs, h⟩ := List.exists_cons_of_ne_nil fun h' => hs (congrArg String.mk h')
  simp [isRooted, toList_append, h]

/-- The kept elements of a cleaned path, passed through `filepath.Clean` again. -/
theorem KeptRev.foldl_cleanPath {r : Bool} {kept : List String} (hk : KeptRev r kept) :
    (pathElements (cleanPath r kept.reverse)).foldl (cleanStep r) [] = kept := by
  by_cases hne : kept = []
  · subst hne; cases r <;> rfl
  rw [pathElements_cleanPath r (by simpa using hne) (by simpa using hk.2), hk.foldl_reverse]

/-- Joining a name onto a cleaned path appends it to the kept elements. -/
theorem join_cleanPath {r : Bool} {kept : List String} (hk : KeptRev r kept) {b : String}
    (hb : isEntryName b) : join (cleanPath r kept.reverse) b = cleanPath r (b :: kept).reverse := by
  obtain ⟨hs, h1, h2⟩ := isEntryName_iff.1 hb
  have hne := cleanPath_ne_empty r kept.reverse
  have hroot : isRooted (cleanPath r kept.reverse ++ "/" ++ b) = r := by
    rw [String.append_assoc, isRooted_append hne, isRooted_cleanPath r (by simpa using hk.2)]
  rw [join, if_pos hne, clean_eq_cleanPath (append_sep_ne_empty _ _), hroot,
    cleanElements, pathElements_append_sep _ hs, List.foldl_append, hk.foldl_cleanPath]
  simp [cleanStep_name h1 h2]

/-- A path below a directory, by its elements, joined onto the directory. -/
def joinAll (rootDir : String) (ds : List String) : String := ds.foldl join rootDir

theorem joinAll_cleanPath {r : Bool} {kept : List String} (hk : KeptRev r kept) {ds : List String}
    (hds : ∀ d ∈ ds, isEntryName d) : joinAll (cleanPath r kept.reverse) ds = cleanPath r (kept.reverse ++ ds) := by
  induction ds generalizing kept with
  | nil => simp [joinAll]
  | cons d ds ih =>
    have hd := hds d (List.mem_cons_self _ _)
    rw [joinAll, List.foldl_cons, join_cleanPath hk hd, ← joinAll,
      ih (hk.cons_name hd) fun d hd' => hds d (List.mem_cons_of_mem _ hd')]
    simp

/-- Joining a name onto a root: the root's kept elements, then the name. The root cleaned is its
kept elements alone. -/
theorem join_root (root : String) : ∃ r kept, KeptRev r kept ∧ clean root = cleanPath r kept.reverse ∧
    ∀ d, isEntryName d → join root d = cleanPath r (d :: kept).reverse := by
  by_cases hroot : root = ""
  · refine ⟨false, [], keptRev_nil false, by rw [hroot]; rfl, fun d hd => ?_⟩
    obtain ⟨hs, h1, h2⟩ := isEntryName_iff.1 hd
    have hd' : d ≠ "" := fun h => hs.1 (by simp [h])
    rw [join, if_neg (not_not.2 hroot), if_pos hd', clean_eq_cleanPath hd', hs.isRooted, hs.pathElements,
      cleanElements, List.foldl_cons, cleanStep_name h1 h2]
    rfl
  · let r := isRooted root
    refine ⟨r, (pathElements root).foldl (cleanStep r) [],
      keptRev_foldl r _ fun e he => isSegment_of_mem_pathElements he, clean_eq_cleanPath hroot,
      fun d hd => ?_⟩
    obtain ⟨hs, h1, h2⟩ := isEntryName_iff.1 hd
    have hr : isRooted (root ++ "/" ++ d) = r := by
      rw [isRooted_append (append_ne_empty_of_left hroot _), isRooted_append hroot]
    rw [join, if_pos hroot, clean_eq_cleanPath (append_sep_ne_empty _ _), hr, cleanElements,
      pathElements_append_sep _ hs, List.foldl_append]
    simp [cleanStep_name h1 h2]

/-- Joining names onto a root: the root's kept elements, then the names. -/
theorem joinAll_eq_cleanPath (root : String) : ∃ r kept, KeptRev r kept ∧ clean root = cleanPath r kept.reverse ∧
    ∀ ds, (∀ d ∈ ds, isEntryName d) → ds ≠ [] → joinAll root ds = cleanPath r (kept.reverse ++ ds) := by
  obtain ⟨r, kept, hk, hclean, hfirst⟩ := join_root root
  refine ⟨r, kept, hk, hclean, fun ds hds hne => ?_⟩
  obtain ⟨d, ds, rfl⟩ := List.exists_cons_of_ne_nil hne
  have hd := hds d (List.mem_cons_self _ _)
  rw [joinAll, List.foldl_cons, hfirst d hd, ← joinAll,
    joinAll_cleanPath (hk.cons_name hd) fun d hd' => hds d (List.mem_cons_of_mem _ hd')]
  simp

/-- Names joined onto one root give different paths for different non-empty lists of names. -/
theorem joinAll_injective {root : String} {ds₁ ds₂ : List String}
    (h₁ : ∀ d ∈ ds₁, isEntryName d) (h₂ : ∀ d ∈ ds₂, isEntryName d) (hne₁ : ds₁ ≠ []) (hne₂ : ds₂ ≠ [])
    (h : joinAll root ds₁ = joinAll root ds₂) : ds₁ = ds₂ := by
  obtain ⟨r, kept, hk, -, heq⟩ := joinAll_eq_cleanPath root
  rw [heq ds₁ h₁ hne₁, heq ds₂ h₂ hne₂] at h
  have hseg : ∀ ds, (∀ d ∈ ds, isEntryName d) → ∀ e ∈ kept.reverse ++ ds, IsSegment e :=
    fun ds hds e he => (List.mem_append.1 he).elim (fun he => hk.2 e (List.mem_reverse.1 he))
      fun he => (isEntryName_iff.1 (hds e he)).1
  have := congrArg pathElements h
  rw [pathElements_cleanPath r (by simp [hne₁]) (hseg ds₁ h₁),
    pathElements_cleanPath r (by simp [hne₂]) (hseg ds₂ h₂)] at this
  exact List.append_cancel_left this

theorem toList_cleanPath {kept : List String} (hne : kept ≠ []) (hseg : ∀ e ∈ kept, IsSegment e)
    (r : Bool) : (cleanPath r kept).toList = (if r then ['/'] else []) ++ joinBy '/' (kept.map String.toList) := by
  simp only [cleanPath]
  split_ifs with hr hb
  · rfl
  · exact absurd hb (joinBy_ne_nil hne hseg)
  · rfl

theorem cleanPath_append (r : Bool) {kept rel : List String} (hk : kept ≠ []) (hrel : rel ≠ [])
    (hseg : ∀ e ∈ kept ++ rel, IsSegment e) :
    cleanPath r (kept ++ rel) = cleanPath r kept ++ "/" ++ ⟨joinBy '/' (rel.map String.toList)⟩ := by
  apply String.ext
  show (cleanPath r (kept ++ rel)).toList = (cleanPath r kept ++ "/" ++ _).toList
  rw [toList_append_sep, toList_cleanPath (by simp [hk]) hseg, toList_cleanPath hk
    fun e he => hseg e (List.mem_append_left _ he), List.map_append,
    joinBy_append '/' (by simpa using hrel) (by simpa using hk), List.append_assoc]
  rfl

/-- Names joined onto a name joined onto a path: that path, a separator, and the names joined by
separators. -/
theorem joinAll_join (base : String) {d : String} (hd : isEntryName d) {rel : List String}
    (hrel : ∀ e ∈ rel, isEntryName e) (hne : rel ≠ []) :
    joinAll (join base d) rel = join base d ++ "/" ++ ⟨joinBy '/' (rel.map String.toList)⟩ := by
  obtain ⟨r, kept, hk, -, hfirst⟩ := join_root base
  have hk' := hk.cons_name hd
  rw [hfirst d hd, joinAll_cleanPath hk' hrel]
  refine cleanPath_append r (by simp) hne fun e he => ?_
  rcases List.mem_append.1 he with he | he
  · exact hk'.2 e (List.mem_reverse.1 he)
  · exact (isEntryName_iff.1 (hrel e he)).1

/-! ### The directory of a joined path -/

theorem KeptRev.append_names {r : Bool} {kept : List String} (hk : KeptRev r kept) :
    ∀ {ds : List String}, (∀ d ∈ ds, isEntryName d) → KeptRev r (ds.reverse ++ kept)
  | [], _ => hk
  | d :: ds, hds => by
    rw [List.reverse_cons, List.append_assoc, List.singleton_append]
    exact (hk.cons_name (hds d (List.mem_cons_self _ _))).append_names
      fun d hd => hds d (List.mem_cons_of_mem _ hd)

theorem pathElements_append_sep_end (s : String) : pathElements (s ++ "/") = pathElements s := by
  simp only [pathElements, fieldsFunc]
  rw [show (s ++ "/").toList = s.toList ++ ['/'] from rfl,
    @splitOnP_append_sep Char (fun c => decide (c = '/')) '/' rfl [] (by simp) s.toList]
  simp

/-- What `filepath.Dir` keeps of a path whose last element has no separator: the path up to and
including the separator before that element. -/
theorem dropWhile_reverse_sep (l : List Char) {b : List Char} (hb : '/' ∉ b) :
    ((l ++ '/' :: b).reverse.dropWhile (· ≠ '/')).reverse = l ++ ['/'] := by
  rw [List.reverse_append, List.reverse_cons, List.append_assoc, List.dropWhile_append_of_pos]
  · simp
  · intro c hc
    simp only [List.mem_reverse] at hc
    exact decide_eq_true fun h => hb (h ▸ hc)

/-- `filepath.Dir` of a name joined onto a cleaned path is that path. -/
theorem dir_cleanPath {r : Bool} {kept : List String} (hk : KeptRev r kept) {b : String}
    (hb : IsSegment b) : dir (cleanPath r (b :: kept).reverse) = cleanPath r kept.reverse := by
  have hseg : ∀ e ∈ kept.reverse ++ [b], IsSegment e := fun e he =>
    (List.mem_append.1 he).elim (fun h => hk.2 e (List.mem_reverse.1 h))
      fun h => List.mem_singleton.1 h ▸ hb
  rw [dir, List.reverse_cons, toList_cleanPath (by simp) hseg, List.map_append, List.map_singleton]
  by_cases hne : kept = []
  · subst hne
    cases r
    · show clean ⟨(b.toList.reverse.dropWhile (· ≠ '/')).reverse⟩ = "."
      rw [show b.toList.reverse.dropWhile (· ≠ '/') = [] from List.dropWhile_eq_nil_iff.2
        fun c hc => decide_eq_true fun (h : c = '/') => hb.2 (h ▸ List.mem_reverse.1 hc)]
      rfl
    · show clean ⟨((([] : List Char) ++ '/' :: b.toList).reverse.dropWhile (· ≠ '/')).reverse⟩ = _
      rw [dropWhile_reverse_sep _ hb.2]
      rfl
  · have hK : kept.reverse ≠ [] := by simpa using hne
    have hK' : ∀ e ∈ kept.reverse, IsSegment e := by simpa using hk.2
    rw [joinBy_append_singleton _ _ (by simpa using hK), ← List.append_assoc,
      dropWhile_reverse_sep _ hb.2, ← toList_cleanPath hK hK']
    show clean (cleanPath r kept.reverse ++ "/") = _
    rw [clean_eq_cleanPath (append_ne_empty_of_left (cleanPath_ne_empty r _) _),
      isRooted_append (cleanPath_ne_empty r _), isRooted_cleanPath r hK', pathElements_append_sep_end,
      cleanElements, hk.foldl_cleanPath]

/-- The directory of a file at the path `ds` below a root is the root, cleaned, joined with `ds`. -/
theorem dir_joinAll (root : String) {ds : List String} (hds : ∀ d ∈ ds, isEntryName d) {n : String}
    (hn : isEntryName n) : dir (joinAll root (ds ++ [n])) = joinAll (clean root) ds := by
  obtain ⟨r, kept, hk, hclean, hjoin⟩ := joinAll_eq_cleanPath root
  rw [hjoin _ (List.forall_mem_append.2 ⟨hds, List.forall_mem_singleton.2 hn⟩) (by simp), hclean,
    joinAll_cleanPath hk hds]
  simpa using dir_cleanPath (hk.append_names hds) (isEntryName_iff.1 hn).1

end Bingo
