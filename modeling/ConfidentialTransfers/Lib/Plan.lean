-- SUMMARY: Plans of steps to be taken in sequence or in any order, and the orders they allow.
import Mathlib.Data.List.Basic

/-!
# Plans

A `Plan` says which of its steps have to follow each other and which may be
taken in any order. `Plan.Linearizes p xs` says that `xs` takes every step of
`p` once, in an order the plan allows.
-/

/-- `Interleaves xs ys zs`: `zs` merges `xs` and `ys`, keeping the order of each. -/
inductive Interleaves {ι : Type} : List ι → List ι → List ι → Prop
  | nil : Interleaves [] [] []
  | left {i : ι} {xs ys zs : List ι} : Interleaves xs ys zs → Interleaves (i :: xs) ys (i :: zs)
  | right {i : ι} {xs ys zs : List ι} : Interleaves xs ys zs → Interleaves xs (i :: ys) (i :: zs)

theorem Interleaves.perm {ι : Type} {xs ys zs : List ι} (h : Interleaves xs ys zs) :
    zs.Perm (xs ++ ys) := by
  induction h with
  | nil => exact .refl _
  | left _ ih => exact .cons _ ih
  | right _ ih => exact (ih.cons _).trans List.perm_middle.symm

theorem Interleaves.filterMap {ι κ : Type} (f : ι → Option κ) {xs ys zs : List ι}
    (h : Interleaves xs ys zs) :
    Interleaves (xs.filterMap f) (ys.filterMap f) (zs.filterMap f) := by
  induction h with
  | nil => exact .nil
  | @left i _ _ _ _ ih =>
    cases hi : f i with
    | none => simpa [List.filterMap_cons, hi] using ih
    | some k => simpa [List.filterMap_cons, hi] using ih.left
  | @right i _ _ _ _ ih =>
    cases hi : f i with
    | none => simpa [List.filterMap_cons, hi] using ih
    | some k => simpa [List.filterMap_cons, hi] using ih.right

theorem Interleaves.nil_left {ι : Type} {ys zs : List ι} (h : Interleaves [] ys zs) : zs = ys := by
  generalize hxs : ([] : List ι) = xs at h
  induction h with
  | nil => rfl
  | left => simp at hxs
  | right _ ih => rw [ih hxs]

theorem Interleaves.nil_right {ι : Type} {xs zs : List ι} (h : Interleaves xs [] zs) : zs = xs := by
  generalize hys : ([] : List ι) = ys at h
  induction h with
  | nil => rfl
  | left _ ih => rw [ih hys]
  | right => simp at hys

/-- Taking all of one list first is one way to merge. -/
theorem Interleaves.append {ι : Type} : ∀ xs ys : List ι, Interleaves xs ys (xs ++ ys)
  | [], [] => .nil
  | [], _ :: ys => .right (Interleaves.append [] ys)
  | _ :: xs, ys => .left (Interleaves.append xs ys)

/-- A tree of steps. -/
inductive Plan (ι : Type) where
  | single (i : ι)
  /-- One after the other. -/
  | sequential (plans : List (Plan ι))
  /-- In any order, also interleaved. -/
  | parallel (plans : List (Plan ι))

namespace Plan

variable {ι κ : Type}

mutual
/-- The steps of a plan, from left to right. -/
def leaves : Plan ι → List ι
  | .single i => [i]
  | .sequential ps => leavesAll ps
  | .parallel ps => leavesAll ps

/-- The steps of several plans, from left to right. -/
def leavesAll : List (Plan ι) → List ι
  | [] => []
  | p :: ps => leaves p ++ leavesAll ps
end

mutual
/-- The same plan with every step changed. -/
def map (f : ι → κ) : Plan ι → Plan κ
  | .single i => .single (f i)
  | .sequential ps => .sequential (mapAll f ps)
  | .parallel ps => .parallel (mapAll f ps)

/-- The same plans with every step changed. -/
def mapAll (f : ι → κ) : List (Plan ι) → List (Plan κ)
  | [] => []
  | p :: ps => map f p :: mapAll f ps
end

/-- The plan that takes the given steps in sequence. -/
def sequence (xs : List ι) : Plan ι := .sequential (xs.map .single)

/-- The plan that takes the given steps in any order. -/
def unordered (xs : List ι) : Plan ι := .parallel (xs.map .single)

mutual
theorem leaves_map (f : ι → κ) : ∀ p : Plan ι, (p.map f).leaves = p.leaves.map f
  | .single _ => rfl
  | .sequential ps => leavesAll_mapAll f ps
  | .parallel ps => leavesAll_mapAll f ps

theorem leavesAll_mapAll (f : ι → κ) : ∀ ps : List (Plan ι),
    leavesAll (mapAll f ps) = (leavesAll ps).map f
  | [] => rfl
  | p :: ps => by
    simp only [mapAll, leavesAll, List.map_append]
    rw [leaves_map f p, leavesAll_mapAll f ps]
end

theorem mapAll_eq (f : ι → κ) (ps : List (Plan ι)) : mapAll f ps = ps.map (map f) := by
  induction ps with
  | nil => rfl
  | cons p ps ih => rw [mapAll, ih, List.map_cons]

theorem leavesAll_eq (ps : List (Plan ι)) : leavesAll ps = ps.flatMap leaves := by
  induction ps with
  | nil => rfl
  | cons p ps ih => rw [leavesAll, ih, List.flatMap_cons]

theorem leavesAll_single (xs : List ι) : leavesAll (xs.map .single) = xs := by
  induction xs with
  | nil => rfl
  | cons x xs ih => simp [leavesAll, leaves, ih]

theorem map_sequence (f : ι → κ) (xs : List ι) : (sequence xs).map f = sequence (xs.map f) := by
  simp [sequence, map, mapAll_eq, Function.comp_def]

@[simp] theorem leaves_sequence (xs : List ι) : (sequence xs).leaves = xs := leavesAll_single xs

@[simp] theorem leaves_unordered (xs : List ι) : (unordered xs).leaves = xs := leavesAll_single xs

/-- `xs` takes every step of the plan once, in an order the plan allows. -/
inductive Linearizes : Plan ι → List ι → Prop
  | single (i : ι) : Linearizes (.single i) [i]
  | sequential_nil : Linearizes (.sequential []) []
  | sequential_cons {p : Plan ι} {ps : List (Plan ι)} {xs ys : List ι} :
      Linearizes p xs → Linearizes (.sequential ps) ys → Linearizes (.sequential (p :: ps)) (xs ++ ys)
  | parallel_nil : Linearizes (.parallel []) []
  | parallel_cons {p : Plan ι} {ps : List (Plan ι)} {xs ys zs : List ι} :
      Linearizes p xs → Linearizes (.parallel ps) ys → Interleaves xs ys zs →
      Linearizes (.parallel (p :: ps)) zs

/-- No step is lost, added or taken twice. -/
theorem Linearizes.perm {p : Plan ι} {xs : List ι} (h : p.Linearizes xs) : xs.Perm p.leaves := by
  induction h with
  | single i => exact .refl _
  | sequential_nil => exact .refl _
  | sequential_cons _ _ ihp ihps => exact ihp.append ihps
  | parallel_nil => exact .refl _
  | parallel_cons _ _ hmerge ihp ihps => exact hmerge.perm.trans (ihp.append ihps)

/-- Left to right is an order every plan allows. -/
theorem linearizes_leaves : ∀ p : Plan ι, p.Linearizes p.leaves := by
  intro p
  induction p using Plan.rec (motive_2 := fun ps =>
      (sequential ps).Linearizes (leavesAll ps) ∧ (parallel ps).Linearizes (leavesAll ps)) with
  | single i => exact .single i
  | sequential ps ih => exact ih.1
  | parallel ps ih => exact ih.2
  | nil => exact ⟨.sequential_nil, .parallel_nil⟩
  | cons p ps ihp ihps =>
    exact ⟨.sequential_cons ihp ihps.1, .parallel_cons ihp ihps.2 (Interleaves.append _ _)⟩

/-- A sequence of three plans is carried out one plan after the other. -/
theorem Linearizes.three {p q r : Plan ι} {xs : List ι} (h : (sequential [p, q, r]).Linearizes xs) :
    ∃ ps qs rs, xs = ps ++ (qs ++ rs) ∧ p.Linearizes ps ∧ q.Linearizes qs ∧ r.Linearizes rs := by
  cases h with
  | sequential_cons hp h =>
    cases h with
    | sequential_cons hq h =>
      cases h with
      | sequential_cons hr h =>
        cases h
        exact ⟨_, _, _, by simp, hp, hq, hr⟩

/-- A sequence of steps is taken in order. -/
theorem Linearizes.sequence {is xs : List ι} (h : (sequence is).Linearizes xs) : xs = is := by
  induction is generalizing xs with
  | nil =>
    cases h
    rfl
  | cons i is ih =>
    cases h with
    | sequential_cons hi his =>
      cases hi
      rw [ih his]
      rfl

/-! ## The steps a projection selects -/

theorem Linearizes.filterMap_eq_nil {p : Plan ι} {xs : List ι} (h : p.Linearizes xs)
    {f : ι → Option κ} (hf : ∀ i ∈ p.leaves, f i = none) : xs.filterMap f = [] :=
  List.filterMap_eq_nil_iff.mpr fun i hi => hf i (h.perm.mem_iff.mp hi)

/-- If one of the parallel plans has all the steps that `f` selects, they are taken in an order this
    plan allows. -/
theorem Linearizes.parallel_filterMap {pre post : List (Plan ι)} {p : Plan ι} {xs : List ι}
    (h : (parallel (pre ++ p :: post)).Linearizes xs) {f : ι → Option κ}
    (hpre : ∀ q ∈ pre, ∀ i ∈ q.leaves, f i = none)
    (hpost : ∀ q ∈ post, ∀ i ∈ q.leaves, f i = none) :
    ∃ ys, p.Linearizes ys ∧ xs.filterMap f = ys.filterMap f := by
  induction pre generalizing xs with
  | nil =>
    cases h with
    | @parallel_cons _ _ xs ys zs hp hps hmerge =>
      have hrest : ∀ i ∈ (parallel post).leaves, f i = none := by
        intro i hi
        rw [leaves, leavesAll_eq] at hi
        obtain ⟨q, hq, hiq⟩ := List.mem_flatMap.mp hi
        exact hpost q hq i hiq
      have hmerge' := hmerge.filterMap f
      rw [hps.filterMap_eq_nil hrest] at hmerge'
      exact ⟨xs, hp, hmerge'.nil_right⟩
  | cons q pre ih =>
    cases h with
    | @parallel_cons _ _ xs ys zs hq hps hmerge =>
      have hmerge' := hmerge.filterMap f
      rw [hq.filterMap_eq_nil (hpre q (by simp))] at hmerge'
      obtain ⟨ys', hp, hys⟩ := ih hps fun q' hq' => hpre q' (by simp [hq'])
      exact ⟨ys', hp, hmerge'.nil_left.trans hys⟩

end Plan
