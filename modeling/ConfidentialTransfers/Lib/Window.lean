-- SUMMARY: Reading a newest-first list for a half-open period of time, when some times are unknown.
import Mathlib.Data.List.TakeWhile
import Mathlib.Order.Lattice

/-!
# Windows of a timeline

A list is read newest first. A reader of the period from `since` to `till` stops
at the first element known to be older, and leaves out those known to be newer.
Where an element's time is unknown it does neither.
-/

namespace Window

variable {α T : Type} [LinearOrder T] (time : α → Option T)

/-- The element is known to be older than the bound. -/
def isBefore (bound : T) (x : α) : Bool := (time x).any fun t => decide (t < bound)

/-- The element is known not to be older than the bound. -/
def isAfter (bound : T) (x : α) : Bool := (time x).any fun t => decide (bound ≤ t)

/-- What comes before the first element known to be older than the bound. -/
def reached (bound : T) (xs : List α) : List α := xs.takeWhile fun x => !isBefore time bound x

/-- What comes from there on. -/
def beyond (bound : T) (xs : List α) : List α := xs.dropWhile fun x => !isBefore time bound x

/-- What a reader of the period gets. -/
def read (since till : T) (xs : List α) : List α :=
  (reached time since xs).filter fun x => !isAfter time till x

/-- The known times do not increase. -/
def InOrder (xs : List α) : Prop := (xs.filterMap time).Pairwise (· ≥ ·)

variable {time} {a b c : T} {x : α} {xs : List α}

theorem isBefore_mono (hab : a ≤ b) (h : isBefore time a x = true) : isBefore time b x = true := by
  cases ht : time x with
  | none => simp [isBefore, ht] at h
  | some t =>
    simp only [isBefore, ht, Option.any_some, decide_eq_true_eq] at h ⊢
    exact lt_of_lt_of_le h hab

theorem isAfter_anti (hab : a ≤ b) (h : isAfter time a x = false) : isAfter time b x = false := by
  cases ht : time x with
  | none => simp [isAfter, ht]
  | some t =>
    simp only [isAfter, ht, Option.any_some, decide_eq_false_iff_not, not_le] at h ⊢
    exact lt_of_lt_of_le h hab

/-- What is not older than the bound is not known to be newer exactly if its time is unknown. -/
theorem not_isAfter_of_not_isBefore (h : isBefore time a x = false) :
    isAfter time a x = false ↔ time x = none := by
  cases ht : time x with
  | none => simp [isAfter, ht]
  | some t =>
    simp only [isBefore, isAfter, ht, Option.any_some, decide_eq_false_iff_not, not_lt, not_le,
      reduceCtorEq, iff_false] at h ⊢
    exact h

variable (time) in
theorem reached_append_beyond (bound : T) (xs : List α) :
    reached time bound xs ++ beyond time bound xs = xs :=
  List.takeWhile_append_dropWhile

theorem reached_subset : reached time b xs ⊆ xs := (List.takeWhile_sublist _).subset

theorem not_isBefore_of_mem_reached (hx : x ∈ reached time b xs) : isBefore time b x = false := by
  have hpos := List.mem_takeWhile_imp (p := fun x => !isBefore time b x) hx
  simpa using hpos

/-- A reader of an earlier bound goes on where a reader of a later one stops. -/
theorem reached_eq_append (hab : a ≤ b) (xs : List α) :
    reached time a xs = reached time b xs ++ reached time a (beyond time b xs) := by
  have hall : ∀ x ∈ reached time b xs, (!isBefore time a x) = true := by
    intro x hx
    have hb := not_isBefore_of_mem_reached hx
    cases ha : isBefore time a x with
    | false => rfl
    | true => simp [isBefore_mono hab ha] at hb
  have hsplit : reached time a (reached time b xs ++ beyond time b xs) =
      reached time b xs ++ reached time a (beyond time b xs) :=
    List.takeWhile_append_of_pos hall
  rw [reached_append_beyond] at hsplit
  exact hsplit

/-- In order, nothing beyond the bound is known to be newer than it. -/
theorem not_isAfter_of_mem_beyond (horder : InOrder time xs) (hx : x ∈ beyond time b xs) :
    isAfter time b x = false := by
  induction xs with
  | nil => cases hx
  | cons head xs ih =>
    have hrest : InOrder time xs := (horder.sublist ((List.sublist_cons_self head xs).filterMap time))
    cases hhead : isBefore time b head with
    | false =>
      refine ih hrest ?_
      simpa [beyond, hhead] using hx
    | true =>
      have hmem : x ∈ head :: xs := by
        simpa [beyond, hhead] using hx
      obtain ⟨t, ht, hlt⟩ : ∃ t, time head = some t ∧ t < b := by
        cases ht : time head with
        | none => simp [isBefore, ht] at hhead
        | some t => exact ⟨t, rfl, by simpa [isBefore, ht] using hhead⟩
      cases hu : time x with
      | none => simp [isAfter, hu]
      | some u =>
        -- the first element beyond the bound is the newest of those with a time
        have hle : u ≤ t := by
          rcases List.mem_cons.mp hmem with rfl | hmem
          · exact le_of_eq (Option.some.inj (hu.symm.trans ht))
          · have hpair := horder
            rw [InOrder, List.filterMap_cons, ht, List.pairwise_cons] at hpair
            exact hpair.1 u (List.mem_filterMap.mpr ⟨x, hmem, hu⟩)
        simpa [isAfter, hu] using lt_of_le_of_lt hle hlt

/-- The earlier of two adjacent periods: what its reader gets of the part the later one's reader has
    reached too is of unknown time. -/
theorem read_earlier (horder : InOrder time xs) (hab : a ≤ b) : read time a b xs =
    ((reached time b xs).filter fun x => (time x).isNone) ++ reached time a (beyond time b xs) := by
  rw [read, reached_eq_append hab, List.filter_append]
  congr 1
  · refine List.filter_congr fun x hx => ?_
    have hiff := not_isAfter_of_not_isBefore (not_isBefore_of_mem_reached hx)
    cases ht : time x with
    | none => simpa [ht] using hiff.mpr ht
    | some t => simpa [ht] using hiff
  · refine List.filter_eq_self.mpr fun x hx => ?_
    have hbeyond : x ∈ beyond time b xs := reached_subset hx
    simp [not_isAfter_of_mem_beyond horder hbeyond]

/-- The two periods as one: what the later one's reader gets, then everything older. -/
theorem read_both (horder : InOrder time xs) (hab : a ≤ b) (hbc : b ≤ c) :
    read time a c xs = read time b c xs ++ reached time a (beyond time b xs) := by
  rw [read, reached_eq_append hab, List.filter_append]
  congr 1
  refine List.filter_eq_self.mpr fun x hx => ?_
  have hbeyond : x ∈ beyond time b xs := reached_subset hx
  simp [isAfter_anti hbc (not_isAfter_of_mem_beyond horder hbeyond)]

/-! ## The first few -/

/-- The first `limit` elements, or all of them where there is no limit. -/
def upTo (limit : Option Nat) (xs : List α) : List α :=
  match limit with
  | none => xs
  | some n => xs.take n

section UpTo

variable {β : Type} {key : α → β} {keep want : α → Bool}

/-- A condition on every element of a list and on what comes before it. -/
theorem forall_split_cons {P : List α → α → Prop} :
    (∀ newer y older, x :: xs = newer ++ y :: older → P newer y) ↔
      P [] x ∧ ∀ newer y older, xs = newer ++ y :: older → P (x :: newer) y := by
  constructor
  · intro h
    refine ⟨h [] x xs rfl, fun newer y older hxs => h (x :: newer) y older ?_⟩
    rw [hxs]
    rfl
  · rintro ⟨hhead, htail⟩ newer y older hxs
    cases newer with
    | nil =>
      obtain ⟨rfl, -⟩ := List.cons.inj hxs
      exact hhead
    | cons z newer =>
      rw [List.cons_append] at hxs
      obtain ⟨hz, hrest⟩ := List.cons.inj hxs
      subst hz
      exact htail newer y older hrest

/-- The same of the elements a reader gets to before one that stops it. -/
theorem forall_split_takeWhile {p : α → Bool} {P : List α → α → Prop} :
    (∀ newer y older, xs.takeWhile p = newer ++ y :: older → P newer y) ↔
      ∀ newer y older, xs = newer ++ y :: older → (∀ z ∈ newer, p z = true) → p y = true →
        P newer y := by
  induction xs generalizing P with
  | nil => simp
  | cons x xs ih =>
    rw [forall_split_cons (P := fun newer y => (∀ z ∈ newer, p z = true) → p y = true → P newer y)]
    cases hx : p x with
    | false => simp [hx]
    | true =>
      rw [List.takeWhile_cons_of_pos hx, forall_split_cons, ih]
      simp [hx]

/-- Two ways of choosing give the same first `n` exactly if, wherever they differ, `n` were chosen
    before. -/
theorem take_filter_eq_iff (hnodup : (xs.map key).Nodup) (n : Nat) :
    ((xs.filter keep).take n).map key = ((xs.filter want).take n).map key ↔
      ∀ newer y older, xs = newer ++ y :: older → keep y ≠ want y → n ≤ (newer.filter want).length := by
  induction xs generalizing n with
  | nil => simp
  | cons x xs ih =>
    have hfresh : ∀ p : α → Bool, ∀ m, key x ∉ ((xs.filter p).take m).map key := by
      intro p m hmem
      obtain ⟨y, hy, hkey⟩ := List.mem_map.mp hmem
      have hxs : y ∈ xs := (List.mem_filter.mp (List.mem_of_mem_take hy)).1
      exact (List.nodup_cons.mp hnodup).1 (hkey ▸ List.mem_map_of_mem hxs)
    specialize ih (List.nodup_cons.mp hnodup).2
    rw [forall_split_cons (P := fun newer y => keep y ≠ want y → n ≤ (newer.filter want).length)]
    cases n with
    | zero => simp
    | succ n =>
      cases hkeep : keep x <;> cases hwant : want x
      · simpa [hkeep, hwant] using ih (n + 1)
      · have hne : ((xs.filter keep).take (n + 1)).map key ≠
            key x :: ((xs.filter want).take n).map key := by
          intro heq
          exact hfresh keep (n + 1) (by simp [heq])
        simp [hkeep, hwant, hne, -List.map_take]
      · have hne : key x :: ((xs.filter keep).take n).map key ≠
            ((xs.filter want).take (n + 1)).map key := by
          intro heq
          exact hfresh want (n + 1) (by simp [← heq])
        simp [hkeep, hwant, hne, -List.map_take]
      · simpa [hkeep, hwant] using ih n

/-- The same with a limit or without one. -/
theorem upTo_filter_eq_iff (hnodup : (xs.map key).Nodup) (limit : Option Nat) :
    (upTo limit (xs.filter keep)).map key = (upTo limit (xs.filter want)).map key ↔
      ∀ newer y older, xs = newer ++ y :: older → keep y ≠ want y →
        ∃ n, limit = some n ∧ n ≤ (newer.filter want).length := by
  cases limit with
  | some n => simpa [upTo] using take_filter_eq_iff hnodup n
  | none =>
    -- No limit is a limit above the length.
    have hall : ∀ p : α → Bool, (xs.filter p).take (xs.length + 1) = xs.filter p := by
      intro p
      exact List.take_of_length_le (le_trans (List.length_filter_le p xs) (Nat.le_succ _))
    have hiff : ((xs.filter keep).take (xs.length + 1)).map key =
        ((xs.filter want).take (xs.length + 1)).map key ↔ _ := take_filter_eq_iff hnodup (xs.length + 1)
    rw [hall, hall] at hiff
    refine hiff.trans ⟨fun h newer y older hxs hne => ?_, fun h newer y older hxs hne => ?_⟩
    · have hle := h newer y older hxs hne
      have hlength := List.length_filter_le want newer
      have hxsLength := congrArg List.length hxs
      simp only [List.length_append, List.length_cons] at hxsLength
      omega
    · obtain ⟨n, hn, -⟩ := h newer y older hxs hne
      cases hn

end UpTo

end Window
