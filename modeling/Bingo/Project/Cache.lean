import Mathlib.Data.Fintype.Card
import Mathlib.Data.List.Nodup

/-! How `setCache` fills the package cache from the result of `packages.Load`. `setOnePackage`
skips a nil package, a package without syntax and a package whose ID it has seen; otherwise it
marks the ID seen, puts the package, and recurses on its imports. The `seen` map is shared by
all the calls of one `setCache`.

Each fresh call marks one more ID seen before it recurses, so the recursion is never deeper than
the number of packages, and `setCache`, run with that much fuel, always returns
(`setCacheFuel_isSome`). What one run does is `Installs`: it only adds to the packages put and the
IDs seen, installs each argument with syntax, and leaves every package it put closed (each import
with syntax seen) and reachable when its arguments are. By induction over the fuel and over the
loops, every run does that (`setOnePackage_installs`), so `setCache` puts exactly the packages
with syntax reachable from its arguments through packages with syntax, each once
(`setCache_installs_reachable`). -/

namespace Bingo

/-- A package of a `packages.Load` result as `setOnePackage` reads it: its ID, whether it has
syntax (`len(pkg.Syntax) != 0`), and its imports in the order the loop over the `Imports` map
visits them, each a pointer into the result or nil (`none`). -/
structure LoadedPackage (n : Nat) where
  id : String
  hasSyntax : Bool
  imports : List (Option (Fin n))

/-- The packages of a `packages.Load` result, told apart by their IDs. -/
structure LoadGraph where
  n : Nat
  pkgs : Fin n → LoadedPackage n
  id_injective : Function.Injective fun i => (pkgs i).id

/-- What `setOnePackage` reads and writes: the IDs of the `seen` map, and the packages passed to
`put`, in order. -/
structure CacheState (n : Nat) where
  seen : List String
  puts : List (Fin n)

variable (g : LoadGraph)

/-- `setOnePackage`, with `fuel` bounding the depth of its recursion: `none` when it runs out. -/
def setOnePackage : Nat → Option (Fin g.n) → CacheState g.n → Option (CacheState g.n)
  | 0, _, _ => none
  | _ + 1, none, s => some s
  | fuel + 1, some i, s =>
    let pkg := g.pkgs i
    if !pkg.hasSyntax then some s
    else if pkg.id ∈ s.seen then some s
    else pkg.imports.foldlM (fun s ip => setOnePackage fuel ip s) ⟨pkg.id :: s.seen, s.puts ++ [i]⟩

/-- `setCache` with `fuel` for each `setOnePackage` call, from an empty `seen` map. -/
def setCacheFuel (fuel : Nat) (pkgs : List (Option (Fin g.n))) : Option (CacheState g.n) :=
  pkgs.foldlM (fun s pkg => setOnePackage g fuel pkg s) ⟨[], []⟩

/-- `setCache`: the packages it puts, with fuel for any depth the recursion reaches. -/
def setCache (pkgs : List (Option (Fin g.n))) : Option (List (Fin g.n)) :=
  (setCacheFuel g (g.n + 1) pkgs).map (·.puts)

/-! ### What a run does -/

/-- The packages `setCache` on `roots` must put: those with syntax reachable from `roots` along
imports through packages with syntax. -/
inductive Reach (roots : List (Option (Fin g.n))) : Fin g.n → Prop
  | root {i} : some i ∈ roots → (g.pkgs i).hasSyntax → Reach roots i
  | step {i j} : Reach roots i → some j ∈ (g.pkgs i).imports → (g.pkgs j).hasSyntax → Reach roots j

/-- The state is consistent: `seen` holds the IDs of the packages put, newest first, none twice. -/
def CacheState.Valid (s : CacheState g.n) : Prop :=
  s.seen = (s.puts.map fun i => (g.pkgs i).id).reverse ∧ s.seen.Nodup

/-- Every import with syntax of the package `i` has its ID seen. -/
def Closed (i : Fin g.n) (s : CacheState g.n) : Prop :=
  ∀ j, some j ∈ (g.pkgs i).imports → (g.pkgs j).hasSyntax → (g.pkgs j).id ∈ s.seen

/-- The argument `p` is a package with syntax only if it is reachable. -/
def Allowed (roots : List (Option (Fin g.n))) (p : Option (Fin g.n)) : Prop :=
  ∀ i, p = some i → (g.pkgs i).hasSyntax → Reach g roots i

/-- What running `setOnePackage` on each of `ps` in turn does, from `s` to `s'`. -/
structure Installs (roots ps : List (Option (Fin g.n))) (s s' : CacheState g.n) : Prop where
  puts_prefix : s.puts <+: s'.puts
  seen_subset : s.seen ⊆ s'.seen
  valid : s.Valid g → s'.Valid g
  installed : ∀ p ∈ ps, ∀ i, p = some i → (g.pkgs i).hasSyntax → (g.pkgs i).id ∈ s'.seen
  closed : ∀ i ∈ s'.puts, i ∈ s.puts ∨ Closed g i s'
  reach : (∀ p ∈ ps, Allowed g roots p) → ∀ i ∈ s'.puts, i ∈ s.puts ∨ Reach g roots i

variable {g} {roots : List (Option (Fin g.n))}

theorem Closed.mono {i : Fin g.n} {s s' : CacheState g.n} (h : Closed g i s) (hs : s.seen ⊆ s'.seen) :
    Closed g i s' := fun j hj hsyn => hs (h j hj hsyn)

theorem installs_nil (s : CacheState g.n) : Installs g roots [] s s :=
  ⟨List.prefix_refl _, List.Subset.refl _, id, by simp, fun i hi => .inl hi, fun _ i hi => .inl hi⟩

/-- A call that returns at once: the package is nil, has no syntax, or has been seen. -/
theorem installs_skip {p : Option (Fin g.n)} {s : CacheState g.n}
    (h : ∀ i, p = some i → (g.pkgs i).hasSyntax → (g.pkgs i).id ∈ s.seen) : Installs g roots [p] s s :=
  ⟨List.prefix_refl _, List.Subset.refl _, id, by simpa using h, fun i hi => .inl hi, fun _ i hi => .inl hi⟩

/-- Running on `p` and then on `ps` is running on `p :: ps`. -/
theorem Installs.cons {p : Option (Fin g.n)} {ps : List (Option (Fin g.n))} {s s₁ s' : CacheState g.n}
    (h₁ : Installs g roots [p] s s₁) (h₂ : Installs g roots ps s₁ s') :
    Installs g roots (p :: ps) s s' where
  puts_prefix := h₁.puts_prefix.trans h₂.puts_prefix
  seen_subset := h₁.seen_subset.trans h₂.seen_subset
  valid hv := h₂.valid (h₁.valid hv)
  installed q hq i hi hsyn := by
    rcases List.mem_cons.1 hq with rfl | hq
    · exact h₂.seen_subset (h₁.installed q (List.mem_singleton_self _) i hi hsyn)
    · exact h₂.installed q hq i hi hsyn
  closed i hi := (h₂.closed i hi).elim
    (fun hi => (h₁.closed i hi).imp_right fun hc => hc.mono h₂.seen_subset) .inr
  reach hps i hi := (h₂.reach (fun q hq => hps q (List.mem_cons_of_mem _ hq)) i hi).elim
    (fun hi => h₁.reach (fun q hq => hps q (by simp_all)) i hi) .inr

/-- A fresh package: marking it seen and putting it, then running on its imports, is running
on the package. -/
theorem Installs.fresh {i : Fin g.n} {s s' : CacheState g.n} (hsyn : (g.pkgs i).hasSyntax)
    (hnew : (g.pkgs i).id ∉ s.seen)
    (h : Installs g roots (g.pkgs i).imports ⟨(g.pkgs i).id :: s.seen, s.puts ++ [i]⟩ s') :
    Installs g roots [some i] s s' where
  puts_prefix := (List.prefix_append _ _).trans h.puts_prefix
  seen_subset := (List.subset_cons_self _ _).trans h.seen_subset
  valid := fun ⟨heq, hnd⟩ => h.valid ⟨by simp [heq], List.nodup_cons.2 ⟨hnew, hnd⟩⟩
  installed p hp j hj _ := by
    obtain rfl := List.mem_singleton.1 hp
    obtain rfl := Option.some_inj.1 hj
    exact h.seen_subset (List.mem_cons_self _ _)
  closed j hj := (h.closed j hj).elim
    (fun hj => (List.mem_append.1 hj).imp_right fun hj => by
      obtain rfl := List.mem_singleton.1 hj
      exact fun k hk hsk => h.installed _ hk k rfl hsk) .inr
  reach hps j hj := by
    have hi : Reach g roots i := hps _ (List.mem_singleton_self _) i rfl hsyn
    refine (h.reach (fun p hp k hk hsk => ?_) j hj).elim (fun hj => ?_) .inr
    · subst hk; exact .step hi hp hsk
    · rcases List.mem_append.1 hj with hj | hj
      · exact .inl hj
      · exact .inr (List.mem_singleton.1 hj ▸ hi)

/-- The loop over imports, or over `setCache`'s arguments, does what each call does in turn. -/
theorem foldlM_installs {fuel : Nat}
    (ih : ∀ p s s', setOnePackage g fuel p s = some s' → Installs g roots [p] s s') :
    ∀ (ps : List (Option (Fin g.n))) (s s' : CacheState g.n),
      ps.foldlM (fun s p => setOnePackage g fuel p s) s = some s' → Installs g roots ps s s'
  | [], s, s', h => by
    obtain rfl : s = s' := Option.some_inj.1 h
    exact installs_nil s
  | p :: ps, s, s', h => by
    rw [List.foldlM_cons] at h
    obtain ⟨s₁, h₁, h₂⟩ := Option.bind_eq_some.1 h
    exact (ih p s s₁ h₁).cons (foldlM_installs ih ps s₁ s' h₂)

/-- Every run of `setOnePackage` that returns does what `Installs` says. -/
theorem setOnePackage_installs :
    ∀ (fuel : Nat) (p : Option (Fin g.n)) (s s' : CacheState g.n),
      setOnePackage g fuel p s = some s' → Installs g roots [p] s s'
  | 0, _, _, _, h => nomatch h
  | _ + 1, none, s, s', h => by
    obtain rfl : s = s' := Option.some_inj.1 h
    exact installs_skip (by simp)
  | fuel + 1, some i, s, s', h => by
    simp only [setOnePackage] at h
    split_ifs at h with hsyn hseen
    · obtain rfl : s = s' := Option.some_inj.1 h
      exact installs_skip fun j hj hsj => by simp_all
    · obtain rfl : s = s' := Option.some_inj.1 h
      exact installs_skip fun j hj _ => by simp_all
    · exact .fresh (by simpa using hsyn) hseen
        (foldlM_installs (setOnePackage_installs fuel) _ _ _ h)

/-! ### Termination -/

/-- The packages whose IDs are not yet seen. -/
def unseen (s : CacheState g.n) : Nat :=
  (Finset.univ.filter fun j : Fin g.n => (g.pkgs j).id ∉ s.seen).card

theorem unseen_le (s : CacheState g.n) : unseen s ≤ g.n :=
  (Finset.card_filter_le _ _).trans (Finset.card_fin g.n).le

theorem unseen_anti {s s' : CacheState g.n} (h : s.seen ⊆ s'.seen) : unseen s' ≤ unseen s :=
  Finset.card_le_card fun _ hj => by
    simp only [Finset.mem_filter, Finset.mem_univ, true_and] at hj ⊢
    exact fun hs => hj (h hs)

theorem unseen_mark_lt {s : CacheState g.n} {i : Fin g.n} (hnew : (g.pkgs i).id ∉ s.seen)
    (puts : List (Fin g.n)) : unseen (⟨(g.pkgs i).id :: s.seen, puts⟩ : CacheState g.n) < unseen s :=
  Finset.card_lt_card ⟨fun j hj => by simp_all, fun hsub => by
    have := hsub (Finset.mem_filter.2 ⟨Finset.mem_univ i, hnew⟩)
    simp at this⟩

/-- The loop returns when each call it makes returns from a state that has seen at least `base`. -/
theorem foldlM_isSome {fuel : Nat} {base : List String}
    (hcall : ∀ p (t : CacheState g.n), base ⊆ t.seen → (setOnePackage g fuel p t).isSome) :
    ∀ (ps : List (Option (Fin g.n))) (t : CacheState g.n), base ⊆ t.seen →
      (ps.foldlM (fun s p => setOnePackage g fuel p s) t).isSome
  | [], _, _ => rfl
  | p :: ps, t, ht => by
    obtain ⟨t', ht'⟩ := Option.isSome_iff_exists.1 (hcall p t ht)
    rw [List.foldlM_cons, ht']
    exact foldlM_isSome hcall ps t' (ht.trans (@setOnePackage_installs g [] fuel p t t' ht').seen_subset)

/-- With more fuel than unseen packages, `setOnePackage` returns. -/
theorem setOnePackage_isSome :
    ∀ (fuel : Nat) (p : Option (Fin g.n)) (s : CacheState g.n), unseen s < fuel →
      (setOnePackage g fuel p s).isSome
  | 0, _, _, h => absurd h (Nat.not_lt_zero _)
  | _ + 1, none, _, _ => rfl
  | fuel + 1, some i, s, hfuel => by
    simp only [setOnePackage]
    split_ifs with hsyn hseen
    · rfl
    · rfl
    · let s₁ : CacheState g.n := ⟨(g.pkgs i).id :: s.seen, s.puts ++ [i]⟩
      have hlt : unseen s₁ < fuel := (unseen_mark_lt hseen _).trans_le (Nat.lt_succ_iff.1 hfuel)
      exact foldlM_isSome (fun p t (ht : s₁.seen ⊆ t.seen) =>
        setOnePackage_isSome fuel p t ((unseen_anti ht).trans_lt hlt)) _ s₁ (List.Subset.refl _)

/-- `setCache` returns: its recursion is never deeper than the number of packages. -/
theorem setCacheFuel_isSome (pkgs : List (Option (Fin g.n))) :
    (setCacheFuel g (g.n + 1) pkgs).isSome :=
  foldlM_isSome (fun p t (_ : [] ⊆ t.seen) =>
    setOnePackage_isSome (g.n + 1) p t (Nat.lt_succ_of_le (unseen_le t))) pkgs _ (List.nil_subset _)

/-! ### The packages put -/

theorem CacheState.Valid.mem_puts {s : CacheState g.n} (hv : s.Valid g) {i : Fin g.n}
    (h : (g.pkgs i).id ∈ s.seen) : i ∈ s.puts := by
  rw [hv.1, List.mem_reverse, List.mem_map] at h
  obtain ⟨j, hj, hji⟩ := h
  exact g.id_injective hji ▸ hj

/-- `setCache` terminates, and puts each package with syntax that is reachable from its arguments
through packages with syntax, once, and no other package. -/
theorem setCache_installs_reachable (roots : List (Option (Fin g.n))) :
    ∃ puts, setCache g roots = some puts ∧ (puts.map fun i => (g.pkgs i).id).Nodup ∧
      ∀ i, i ∈ puts ↔ Reach g roots i := by
  obtain ⟨s, hs⟩ := Option.isSome_iff_exists.1 (setCacheFuel_isSome roots)
  have hinst : Installs g roots roots ⟨[], []⟩ s :=
    foldlM_installs (setOnePackage_installs (g.n + 1)) roots _ _ hs
  have hv : s.Valid g := hinst.valid ⟨rfl, List.nodup_nil⟩
  refine ⟨s.puts, by simp [setCache, hs], ?_, fun i => ⟨fun hi => ?_, fun hi => ?_⟩⟩
  · have := hv.2
    rwa [hv.1, List.nodup_reverse] at this
  · exact (hinst.reach (fun p hp j hj hsyn => .root (hj ▸ hp) hsyn) i hi).resolve_left
      (List.not_mem_nil i)
  · apply hv.mem_puts
    induction hi with
    | root hr hsyn => exact hinst.installed _ hr _ rfl hsyn
    | step _ hj hsyn ih =>
      have hc := (hinst.closed _ (hv.mem_puts ih)).resolve_left (List.not_mem_nil _)
      exact hc _ hj hsyn

/-! ### The order of the packages put -/

variable (g) in
/-- Each package in `puts` is an argument, or an import of a package before it. -/
def DiscoveryOrder (roots : List (Option (Fin g.n))) (puts : List (Fin g.n)) : Prop :=
  ∀ pre i, pre ++ [i] <+: puts → some i ∈ roots ∨ ∃ j ∈ pre, some i ∈ (g.pkgs j).imports

variable (g) in
/-- Where a call on `p` comes from, in the state `s`: an argument, or an import of a package
already put. -/
def FromPut (roots : List (Option (Fin g.n))) (p : Option (Fin g.n)) (s : CacheState g.n) : Prop :=
  ∀ i, p = some i → some i ∈ roots ∨ ∃ j ∈ s.puts, some i ∈ (g.pkgs j).imports

theorem FromPut.mono {p : Option (Fin g.n)} {s s' : CacheState g.n} (h : FromPut g roots p s)
    (hs : s.puts <+: s'.puts) : FromPut g roots p s' :=
  fun i hi => (h i hi).imp_right fun ⟨j, hj, hij⟩ => ⟨j, hs.subset hj, hij⟩

theorem discoveryOrder_concat {puts : List (Fin g.n)} (h : DiscoveryOrder g roots puts) {i : Fin g.n}
    (hi : some i ∈ roots ∨ ∃ j ∈ puts, some i ∈ (g.pkgs j).imports) :
    DiscoveryOrder g roots (puts ++ [i]) := fun pre k hk => by
  rcases List.prefix_concat_iff.1 hk with heq | hk
  · obtain ⟨rfl, hki⟩ := List.append_inj' heq rfl
    obtain rfl := List.singleton_inj.1 hki
    exact hi
  · exact h pre k hk

/-- The loop over imports, or over `setCache`'s arguments, keeps the order when each call does. -/
theorem foldlM_discoveryOrder {fuel : Nat}
    (ih : ∀ p s s', setOnePackage g fuel p s = some s' → FromPut g roots p s →
      DiscoveryOrder g roots s.puts → DiscoveryOrder g roots s'.puts) :
    ∀ (ps : List (Option (Fin g.n))) (s s' : CacheState g.n),
      ps.foldlM (fun s p => setOnePackage g fuel p s) s = some s' → (∀ p ∈ ps, FromPut g roots p s) →
        DiscoveryOrder g roots s.puts → DiscoveryOrder g roots s'.puts
  | [], _, _, h, _, hd => Option.some_inj.1 h ▸ hd
  | p :: ps, s, s', h, hps, hd => by
    rw [List.foldlM_cons] at h
    obtain ⟨s₁, h₁, h₂⟩ := Option.bind_eq_some.1 h
    have hpre := Installs.puts_prefix (@setOnePackage_installs g [] fuel p s s₁ h₁)
    exact foldlM_discoveryOrder ih ps s₁ s' h₂
      (fun q hq => (hps q (List.mem_cons_of_mem _ hq)).mono hpre)
      (ih p s s₁ h₁ (hps p (List.mem_cons_self _ _)) hd)

/-- A call puts its package only when it comes from an argument or from an import of a package
already put, and its imports are then calls from that package. -/
theorem setOnePackage_discoveryOrder :
    ∀ (fuel : Nat) (p : Option (Fin g.n)) (s s' : CacheState g.n),
      setOnePackage g fuel p s = some s' → FromPut g roots p s →
        DiscoveryOrder g roots s.puts → DiscoveryOrder g roots s'.puts
  | 0, _, _, _, h, _, _ => nomatch h
  | _ + 1, none, _, _, h, _, hd => Option.some_inj.1 h ▸ hd
  | fuel + 1, some i, s, s', h, hp, hd => by
    simp only [setOnePackage] at h
    split_ifs at h
    iterate 2 exact Option.some_inj.1 h ▸ hd
    exact foldlM_discoveryOrder (setOnePackage_discoveryOrder fuel) _ _ _ h
      (fun q hq j hj => .inr ⟨i, List.mem_append_right _ (List.mem_singleton_self i), hj ▸ hq⟩)
      (discoveryOrder_concat hd (hp i rfl))

/-- `setCache` puts each package after a package that imports it, unless the package is one of
its arguments: the packages enter the cache in the order the search discovers them. -/
theorem setCache_discoveryOrder (roots : List (Option (Fin g.n))) :
    ∃ puts, setCache g roots = some puts ∧
      ∀ pre i, pre ++ [i] <+: puts → some i ∈ roots ∨ ∃ j ∈ pre, some i ∈ (g.pkgs j).imports := by
  obtain ⟨s, hs⟩ := Option.isSome_iff_exists.1 (setCacheFuel_isSome roots)
  refine ⟨s.puts, by simp [setCache, hs], foldlM_discoveryOrder (setOnePackage_discoveryOrder _)
    roots _ _ hs (fun p hp i hi => .inl (hi ▸ hp)) fun pre i h => ?_⟩
  exact absurd (List.eq_nil_of_prefix_nil h) (by simp)

/-- Three packages: `a` and `b` import each other, and `b` imports `c`, which has no syntax. -/
def cycleGraph : LoadGraph where
  n := 3
  pkgs i := match i with
    | 0 => ⟨"a", true, [some 1, none]⟩
    | 1 => ⟨"b", true, [some 0, some 2]⟩
    | 2 => ⟨"c", false, []⟩
  id_injective := by decide

example : (setCache cycleGraph ([some 2, some 1, none, some 0] : List (Option (Fin 3)))).map
    (·.map Fin.val) = some [1, 0] := by
  decide

end Bingo
