-- SUMMARY: Which of a mint's signatures the period and the limit of a report select, across pages.
import ConfidentialTransfers.Lib.Window
import ConfidentialTransfers.Sdk.AuditorReport

/-!
# Signatures

`signaturesOf` reads a history newest first, page after page. What it returns
does not depend on where the pages end. It compares whole seconds where the
options are instants in milliseconds.
-/

open Solana

namespace Sdk

variable {F : Type} [CommRing F]

/-! ## What the loop selects -/

namespace ListConfidentialActivityInput

variable (input : ListConfidentialActivityInput F)

/-- How many signatures `maxTransactions` allows; with `none` there is no limit. -/
def limit : Option Nat := input.maxTransactions.bind JsNumber.countBelow

/-- Known to be from before the second of `since`. -/
def tooOld (s : SignatureInfo) : Bool :=
  input.since.any fun since => Window.isBefore (·.blockTime) (since / 1000) s

/-- Known to be from the second of `until` or later. -/
def tooNew (s : SignatureInfo) : Bool :=
  input.untilTime.any fun untilTime => Window.isAfter (·.blockTime) (untilTime / 1000) s

def keeps (s : SignatureInfo) : Bool := !input.tooNew s && s.err.isNone

/-- The signatures from the newest down to the first that is too old. -/
def reached (history : List SignatureInfo) : List SignatureInfo :=
  history.takeWhile fun s => !input.tooOld s

/-- What the loop ends with, when it has `out` and the rest of the history is `rest`. -/
def select (out : List Signature) (rest : List SignatureInfo) : List Signature :=
  out ++ (Window.upTo (input.limit.map (· - out.length))
    ((input.reached rest).filter input.keeps)).map (·.signature)

end ListConfidentialActivityInput

section Select

variable {input : ListConfidentialActivityInput F} {out : List Signature} {s : SignatureInfo}
  {rest : List SignatureInfo}

/-- The limit is reached when as many signatures were taken. -/
theorem limitReached_iff {n : Nat} :
    (input.maxTransactions.map (JsNumber.ge (.ofNat n))).getD false = true ↔
      ∃ limit, input.limit = some limit ∧ limit ≤ n := by
  unfold ListConfidentialActivityInput.limit
  cases input.maxTransactions with
  | none => simp
  | some maxTransactions => exact JsNumber.ge_ofNat_iff

theorem select_limitReached (h : ∃ limit, input.limit = some limit ∧ limit ≤ out.length) :
    input.select out rest = out := by
  obtain ⟨limit, hlimit, hle⟩ := h
  have hroom : limit - out.length = 0 := Nat.sub_eq_zero_of_le hle
  simp [ListConfidentialActivityInput.select, hlimit, hroom, Window.upTo]

theorem select_tooOld (h : input.tooOld s = true) : input.select out (s :: rest) = out := by
  cases hlimit : input.limit <;>
    simp [ListConfidentialActivityInput.select, ListConfidentialActivityInput.reached, h, hlimit,
      Window.upTo]

theorem select_skip (h : input.tooOld s = false) (hkeeps : input.keeps s = false) :
    input.select out (s :: rest) = input.select out rest := by
  simp [ListConfidentialActivityInput.select, ListConfidentialActivityInput.reached, h, hkeeps]

theorem select_keep (hroom : ¬∃ limit, input.limit = some limit ∧ limit ≤ out.length)
    (h : input.tooOld s = false) (hkeeps : input.keeps s = true) :
    input.select out (s :: rest) = input.select (out ++ [s.signature]) rest := by
  cases hlimit : input.limit with
  | none =>
    simp [ListConfidentialActivityInput.select, ListConfidentialActivityInput.reached, h, hkeeps, hlimit,
      Window.upTo]
  | some limit =>
    obtain ⟨room, hlt⟩ : ∃ room, limit - out.length = room + 1 := by
      refine Nat.exists_eq_add_one_of_ne_zero fun hzero => hroom ⟨limit, hlimit, ?_⟩
      omega
    have hrest : limit - (out.length + 1) = room := by omega
    simp [ListConfidentialActivityInput.select, ListConfidentialActivityInput.reached, h, hkeeps, hlimit,
      hlt, hrest, Window.upTo]

/-- One turn of the loop over a page. -/
theorem takePage_cons (s : SignatureInfo) (page : List SignatureInfo) (out : List Signature) :
    takePage input (s :: page) out =
      if (input.maxTransactions.map (JsNumber.ge (.ofNat out.length))).getD false then (out, true)
      else if input.tooOld s then (out, true)
      else takePage input page (if input.keeps s then out ++ [s.signature] else out) := by
  have hold : (input.since.bind fun since => s.blockTime.map fun time =>
      decide (time < since / 1000)).getD false = input.tooOld s := by
    unfold ListConfidentialActivityInput.tooOld Window.isBefore
    cases input.since <;> cases htime : s.blockTime <;> simp [htime]
  have hnew : (input.untilTime.bind fun untilTime => s.blockTime.map fun time =>
      decide (time ≥ untilTime / 1000)).getD false = input.tooNew s := by
    unfold ListConfidentialActivityInput.tooNew Window.isAfter
    cases input.untilTime <;> cases htime : s.blockTime <;> simp [htime]
  rw [takePage, hold, hnew]
  cases hnewer : input.tooNew s <;> cases herr : s.err <;>
    simp [ListConfidentialActivityInput.keeps, hnewer, herr]

/-- A page either ends the loop with what is selected, or leaves the rest to the next pages. -/
theorem takePage_select (page older : List SignatureInfo) (out : List Signature) :
    ((takePage input page out).2 = true →
      input.select out (page ++ older) = (takePage input page out).1) ∧
    ((takePage input page out).2 = false →
      input.select out (page ++ older) = input.select (takePage input page out).1 older) := by
  induction page generalizing out with
  | nil => simp [takePage]
  | cons s page ih =>
    rw [takePage_cons, List.cons_append]
    by_cases hlimit : ∃ limit, input.limit = some limit ∧ limit ≤ out.length
    · rw [if_pos (limitReached_iff.mpr hlimit), select_limitReached hlimit]
      simp
    · rw [if_neg (mt limitReached_iff.mp hlimit)]
      cases hold : input.tooOld s with
      | true =>
        rw [if_pos rfl, select_tooOld hold]
        simp
      | false =>
        rw [if_neg Bool.false_ne_true]
        cases hkeeps : input.keeps s with
        | true =>
          rw [if_pos rfl, select_keep hlimit hold hkeeps]
          exact ih _
        | false =>
          rw [if_neg Bool.false_ne_true, select_skip hold hkeeps]
          exact ih _

end Select

/-! ## Across pages -/

/-- The part of a history, newest first, that is older than `before`. -/
def olderSignatures (before : Option Signature) (history : List SignatureInfo) : List SignatureInfo :=
  match before with
  | none => history
  | some signature => (history.dropWhile fun s => s.signature ≠ signature).drop 1

/-- The RPC serves the signatures of the address, newest first, in pages as large as they may be. -/
structure ServesSignatures (address : Address) (rpc : HistoryRpc) (history : List SignatureInfo) : Prop where
  unique : (history.map (·.signature)).Nodup
  pages : ∀ before limit, rpc.getSignaturesForAddress address before limit =
    .ok ((olderSignatures before history).take limit)

/-- Signatures being unique, what is older than one is what follows it. -/
theorem olderSignatures_append {newer older : List SignatureInfo} {s : SignatureInfo}
    (hnodup : ((newer ++ s :: older).map (·.signature)).Nodup) :
    olderSignatures (some s.signature) (newer ++ s :: older) = older := by
  induction newer with
  | nil => simp [olderSignatures]
  | cons head newer ih =>
    simp only [List.cons_append, List.map_cons, List.nodup_cons] at hnodup
    have hne : head.signature ≠ s.signature := by
      intro heq
      exact hnodup.1 (by simp [heq])
    have hrest := ih hnodup.2
    simp only [olderSignatures] at hrest ⊢
    rw [List.cons_append, List.dropWhile_cons_of_pos (by simpa using hne)]
    exact hrest

section Pages

variable {rpc : HistoryRpc} {input : ListConfidentialActivityInput F} {history : List SignatureInfo}

theorem select_nil (out : List Signature) : input.select out [] = out := by
  cases hlimit : input.limit <;>
    simp [ListConfidentialActivityInput.select, ListConfidentialActivityInput.reached, hlimit, Window.upTo]

/-- The pages from `before` on end with what is selected of everything older. -/
theorem signaturesFrom_select (hserves : ServesSignatures input.mint rpc history) (fuel : Nat)
    (before : Option Signature) (newer older : List SignatureInfo) (hhistory : history = newer ++ older)
    (hbefore : olderSignatures before history = older) (hfuel : older.length / pageLimit < fuel)
    (out : List Signature) :
    signaturesFrom rpc input fuel before out = some (.ok (input.select out older)) := by
  induction fuel generalizing before newer older out with
  | zero => exact absurd hfuel (Nat.not_lt_zero _)
  | succ fuel ih =>
    simp only [signaturesFrom, hserves.pages, hbefore]
    rcases List.eq_nil_or_concat (older.take pageLimit) with hpage | ⟨page, last, hpage⟩
    · obtain rfl : older = [] := by
        simpa [pageLimit] using hpage
      simp [select_nil]
    · have holder : older = page ++ last :: older.drop pageLimit := by
        conv_lhs => rw [← List.take_append_drop pageLimit older, hpage]
        simp
      have hlast : (older.take pageLimit).getLast? = some last := by
        simp [hpage]
      have hselect := @takePage_select _ _ input (older.take pageLimit) (older.drop pageLimit) out
      rw [List.take_append_drop] at hselect
      simp only [hlast]
      rcases htaken : takePage input (older.take pageLimit) out with ⟨taken, stop⟩
      rw [htaken] at hselect
      cases stop with
      | true => simp only [hselect.1 rfl]
      | false =>
        simp only
        by_cases hfull : older.length < pageLimit
        · have hdrop : older.drop pageLimit = [] := List.drop_eq_nil_of_le (by omega)
          have hshort : (older.take pageLimit).length < pageLimit := by
            simp only [List.length_take]
            omega
          rw [if_pos hshort, hselect.2 rfl, hdrop, select_nil]
        · have hlength : ¬(older.take pageLimit).length < pageLimit := by
            simp only [List.length_take]
            omega
          have hsplit : history = (newer ++ page) ++ last :: older.drop pageLimit := by
            rw [hhistory, List.append_assoc, ← holder]
          have hnext : olderSignatures (some last.signature) history = older.drop pageLimit := by
            rw [hsplit]
            exact olderSignatures_append (hsplit ▸ hserves.unique)
          have hfuel' : (older.drop pageLimit).length / pageLimit < fuel := by
            rw [List.length_drop]
            simp only [pageLimit] at hfuel hfull ⊢
            omega
          rw [if_neg hlength, hselect.2 rfl]
          exact ih _ (newer ++ page ++ [last]) _ (by simpa using hsplit) hnext hfuel' taken

/-- All pages together end with what is selected of the whole history. -/
theorem signaturesOf_select (hserves : ServesSignatures input.mint rpc history) {fuel : Nat}
    (hfuel : history.length / pageLimit < fuel) :
    signaturesOf rpc input fuel = some (.ok (input.select [] history)) :=
  signaturesFrom_select hserves fuel none [] history rfl rfl hfuel []

end Pages

/-! ## Compared as instants -/

namespace ListConfidentialActivityInput

variable (input : ListConfidentialActivityInput F)

/-- What the options document: at or after `since`, and before `until`. -/
def inPeriod (s : SignatureInfo) : Bool :=
  (input.since.all fun since => s.blockTime.any fun time => decide (since ≤ 1000 * time)) &&
    (input.untilTime.all fun untilTime => s.blockTime.any fun time => decide (1000 * time < untilTime))

def wanted (s : SignatureInfo) : Bool := input.inPeriod s && s.err.isNone

/-- The signatures the options document, newest first. -/
def documented (history : List SignatureInfo) : List Signature :=
  (Window.upTo input.limit (history.filter input.wanted)).map (·.signature)

/-- Where comparing whole seconds, known ones only, goes wrong. -/
inductive Misjudged (s : SignatureInfo) : Prop
  /-- The time is unknown and matters. -/
  | unknownTime (htime : s.blockTime = none) (hbound : input.since ≠ none ∨ input.untilTime ≠ none)
  /-- `since` is within the second, so the second is too early, but it is let in. -/
  | withinSince {since time : Int} (hsince : input.since = some since) (htime : s.blockTime = some time)
      (hsecond : since / 1000 = time) (hearly : 1000 * time < since)
      (huntil : ∀ untilTime, input.untilTime = some untilTime → time < untilTime / 1000)
  /-- `until` is within the second, so the second is early enough, but it is left out. -/
  | withinUntil {untilTime time : Int} (huntil : input.untilTime = some untilTime)
      (htime : s.blockTime = some time) (hsecond : untilTime / 1000 = time)
      (hearly : 1000 * time < untilTime)
      (hsince : ∀ since, input.since = some since → since ≤ 1000 * time)

/-- Wherever the loop gets to a successful signature that it misjudges, the limit is met by then. -/
def JudgesRight (history : List SignatureInfo) : Prop :=
  ∀ newer s older, history = newer ++ s :: older → s.err = none → input.Misjudged s →
    (∀ x ∈ newer, input.tooOld x = false) →
      ∃ limit, input.limit = some limit ∧ limit ≤ (newer.filter input.wanted).length

end ListConfidentialActivityInput

section Instants

variable {input : ListConfidentialActivityInput F} {s : SignatureInfo} {history : List SignatureInfo}

theorem not_tooOld_of_misjudged (h : input.Misjudged s) : input.tooOld s = false := by
  unfold ListConfidentialActivityInput.tooOld Window.isBefore
  cases h with
  | unknownTime htime hbound => cases input.since <;> simp [htime]
  | withinSince hsince htime hsecond hearly huntil => simp [hsince, htime, hsecond]
  | @withinUntil untilTime time huntil htime hsecond hearly hsince =>
    cases hbound : input.since with
    | none => rfl
    | some since =>
      have hle : since ≤ 1000 * time := hsince since hbound
      simp only [Option.any_some, htime, decide_eq_false_iff_not, not_lt]
      omega

theorem misjudged_unknown_iff (htime : s.blockTime = none) :
    input.Misjudged s ↔ input.since ≠ none ∨ input.untilTime ≠ none := by
  constructor
  · intro h
    cases h with
    | unknownTime _ hbound => exact hbound
    | withinSince _ htime' => simp [htime] at htime'
    | withinUntil _ htime' => simp [htime] at htime'
  · exact .unknownTime htime

theorem misjudged_known_iff {time : Int} (htime : s.blockTime = some time) :
    input.Misjudged s ↔
      (∃ since, input.since = some since ∧ since / 1000 = time ∧ 1000 * time < since ∧
        ∀ untilTime, input.untilTime = some untilTime → time < untilTime / 1000) ∨
      (∃ untilTime, input.untilTime = some untilTime ∧ untilTime / 1000 = time ∧
        1000 * time < untilTime ∧ ∀ since, input.since = some since → since ≤ 1000 * time) := by
  constructor
  · intro h
    cases h with
    | unknownTime htime' => simp [htime] at htime'
    | withinSince hsince htime' hsecond hearly huntil =>
      obtain rfl := Option.some.inj (htime.symm.trans htime')
      exact .inl ⟨_, hsince, hsecond, hearly, huntil⟩
    | withinUntil huntil htime' hsecond hearly hsince =>
      obtain rfl := Option.some.inj (htime.symm.trans htime')
      exact .inr ⟨_, huntil, hsecond, hearly, hsince⟩
  · rintro (⟨since, hsince, hsecond, hearly, huntil⟩ | ⟨untilTime, huntil, hsecond, hearly, hsince⟩)
    · exact .withinSince hsince htime hsecond hearly huntil
    · exact .withinUntil huntil htime hsecond hearly hsince

/-- Of a signature that is reached, the loop decides otherwise than the options document exactly where
    it is successful and misjudged. -/
theorem keeps_ne_wanted_iff (hreached : input.tooOld s = false) :
    input.keeps s ≠ input.wanted s ↔ s.err = none ∧ input.Misjudged s := by
  unfold ListConfidentialActivityInput.keeps ListConfidentialActivityInput.wanted
    ListConfidentialActivityInput.inPeriod ListConfidentialActivityInput.tooNew Window.isAfter
  unfold ListConfidentialActivityInput.tooOld Window.isBefore at hreached
  rw [ne_eq, Bool.eq_iff_iff]
  cases herr : s.err with
  | some e => simp
  | none =>
    cases htime : s.blockTime with
    | none =>
      rw [misjudged_unknown_iff htime]
      cases input.since <;> cases input.untilTime <;> simp [htime]
    | some time =>
      rw [misjudged_known_iff htime]
      cases hsince : input.since with
      | none =>
        cases huntil : input.untilTime with
        | none => simp
        | some untilTime =>
          simp [htime]
          omega
      | some since =>
        simp only [hsince, htime, Option.any_some, decide_eq_false_iff_not, not_lt] at hreached
        cases huntil : input.untilTime with
        | none =>
          simp [htime]
          omega
        | some untilTime =>
          simp [htime]
          omega

/-- In order, nothing that belongs to the period comes after a signature that is too old. -/
theorem filter_wanted_reached (horder : Window.InOrder (·.blockTime) history) :
    history.filter input.wanted = (input.reached history).filter input.wanted := by
  unfold ListConfidentialActivityInput.reached
  cases hsince : input.since with
  | none =>
    have hall : history.takeWhile (fun s => !input.tooOld s) = history := by
      refine List.takeWhile_eq_self_iff.mpr fun s _ => ?_
      simp [ListConfidentialActivityInput.tooOld, hsince]
    rw [hall]
  | some since =>
    have hreached : (fun s => !input.tooOld s) =
        fun s => !Window.isBefore (·.blockTime) (since / 1000) s := by
      funext s
      simp [ListConfidentialActivityInput.tooOld, hsince]
    have hnone : (Window.beyond (·.blockTime) (since / 1000) history).filter input.wanted = [] := by
      refine List.filter_eq_nil_iff.mpr fun s hs => ?_
      have holder := Window.not_isAfter_of_mem_beyond horder hs
      cases htime : s.blockTime with
      | none => simp [ListConfidentialActivityInput.wanted, ListConfidentialActivityInput.inPeriod, hsince, htime]
      | some time =>
        have hlt : time < since / 1000 := by
          simpa [Window.isAfter, htime] using holder
        have hearly : ¬since ≤ 1000 * time := by omega
        simp [ListConfidentialActivityInput.wanted, ListConfidentialActivityInput.inPeriod, hsince, htime, hearly]
    rw [hreached]
    change _ = (Window.reached (·.blockTime) (since / 1000) history).filter input.wanted
    conv_lhs => rw [← Window.reached_append_beyond (·.blockTime) (since / 1000) history]
    rw [List.filter_append, hnone, List.append_nil]

/-- The loop selects what the options document exactly if it judges right. -/
theorem select_eq_documented_iff (hunique : (history.map (·.signature)).Nodup)
    (horder : Window.InOrder (·.blockTime) history) :
    input.select [] history = input.documented history ↔ input.JudgesRight history := by
  have hreached : ((input.reached history).map (·.signature)).Nodup :=
    hunique.sublist ((List.takeWhile_sublist _).map _)
  have hselect : input.select [] history = (Window.upTo input.limit
      ((input.reached history).filter input.keeps)).map (·.signature) := by
    cases hlimit : input.limit <;> simp [ListConfidentialActivityInput.select, hlimit, Window.upTo]
  rw [hselect, ListConfidentialActivityInput.documented, filter_wanted_reached horder,
    Window.upTo_filter_eq_iff hreached]
  unfold ListConfidentialActivityInput.reached
  rw [Window.forall_split_takeWhile (P := fun newer s => input.keeps s ≠ input.wanted s →
    ∃ limit, input.limit = some limit ∧ limit ≤ (newer.filter input.wanted).length)]
  unfold ListConfidentialActivityInput.JudgesRight
  constructor
  · intro h newer s older hhistory herr hmisjudged hnewer
    have hs := not_tooOld_of_misjudged hmisjudged
    refine h newer s older hhistory (by simpa using hnewer) (by simpa using hs) ?_
    exact (keeps_ne_wanted_iff hs).mpr ⟨herr, hmisjudged⟩
  · intro h newer s older hhistory hnewer hs hne
    have hs' : input.tooOld s = false := by simpa using hs
    obtain ⟨herr, hmisjudged⟩ := (keeps_ne_wanted_iff hs').mp hne
    exact h newer s older hhistory herr hmisjudged (by simpa using hnewer)

/-- The loop ends, with signatures of the history in its order; they are the documented ones exactly if
    the limit is met before a successful signature is misjudged. -/
theorem signaturesOf_documented_iff {rpc : HistoryRpc}
    (hserves : ServesSignatures input.mint rpc history)
    (horder : Window.InOrder (·.blockTime) history) {fuel : Nat}
    (hfuel : history.length / pageLimit < fuel) :
    ∃ signatures, signaturesOf rpc input fuel = some (.ok signatures) ∧
      signatures.Sublist (history.map (·.signature)) ∧
      (signatures = input.documented history ↔ input.JudgesRight history) := by
  refine ⟨input.select [] history, signaturesOf_select hserves hfuel, ?_,
    select_eq_documented_iff hserves.unique horder⟩
  have hupTo : ∀ xs : List SignatureInfo, (Window.upTo (input.limit.map (· - 0)) xs).Sublist xs := by
    intro xs
    cases input.limit with
    | none => exact .refl xs
    | some limit => exact List.take_sublist _ xs
  have hkept : ((input.reached history).filter input.keeps).Sublist history :=
    List.filter_sublist.trans (List.takeWhile_sublist _)
  exact ((hupTo _).trans hkept).map _

end Instants

/-! ## Dates within a second -/

/-- An RPC that serves just these signatures. -/
def HistoryRpc.ofSignatures (history : List SignatureInfo) : HistoryRpc where
  getSignaturesForAddress _ before limit := .ok ((olderSignatures before history).take limit)
  getTransaction _ := .ok none
  fetchMint _ := .error "not found"

theorem HistoryRpc.ofSignatures_serves {history : List SignatureInfo} (address : Address)
    (hunique : (history.map (·.signature)).Nodup) :
    ServesSignatures address (.ofSignatures history) history :=
  ⟨hunique, fun _ _ => rfl⟩

namespace HalfSeconds

/-- Two transactions, one second apart. -/
def history : List SignatureInfo :=
  [⟨"newer", none, some 1767225602⟩, ⟨"older", none, some 1767225601⟩]

/-- From half a second after the older one. -/
def fromBetween : ListConfidentialActivityInput Int where
  mint := "mint"
  auditorSecret := 1
  since := some 1767225601500

/-- Up to half a second after the newer one. -/
def upToAfter : ListConfidentialActivityInput Int where
  mint := "mint"
  auditorSecret := 1
  untilTime := some 1767225602500

/-- Only the newest, from half a second after the older one. -/
def newestFromBetween : ListConfidentialActivityInput Int :=
  { fromBetween with maxTransactions := some (.ofNat 1) }

theorem history_unique : (history.map (·.signature)).Nodup := by decide

theorem history_inOrder : Window.InOrder (·.blockTime) history := by
  unfold Window.InOrder
  decide

/-- The older one is listed although it is from before `since`; the newer one is not although it is from
    before `until`. -/
theorem wrong_side :
    ServesSignatures "mint" (.ofSignatures history) history ∧
      Window.InOrder (·.blockTime) history ∧
      signaturesOf (.ofSignatures history) fromBetween 1 = some (.ok ["newer", "older"]) ∧
      fromBetween.documented history = ["newer"] ∧
      signaturesOf (.ofSignatures history) upToAfter 1 = some (.ok ["older"]) ∧
      upToAfter.documented history = ["newer", "older"] :=
  ⟨HistoryRpc.ofSignatures_serves "mint" history_unique, history_inOrder, by decide, by decide, by decide,
    by decide⟩

/-- With the limit met before it, the misjudged one does no harm. -/
theorem newest_documented : ∃ signatures,
    signaturesOf (.ofSignatures history) newestFromBetween 1 = some (.ok signatures) ∧
      signatures.Sublist (history.map (·.signature)) ∧
      (signatures = newestFromBetween.documented history ↔ newestFromBetween.JudgesRight history) :=
  signaturesOf_documented_iff (HistoryRpc.ofSignatures_serves "mint" history_unique) history_inOrder
    (by decide)

end HalfSeconds

end Sdk
