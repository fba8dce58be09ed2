-- SUMMARY: Closing proof accounts over a network that works.
import ConfidentialTransfers.Sdk.FlowAccounts

/-!
# Cleanup

`closeProofAccounts` of `internal/send.ts` over a network where everything goes
right that can go right. Accounts are closed eight at a time, and an account
that cannot be closed keeps the other seven open.
-/

open Solana

/-! ## A network that works -/

namespace Solana

variable {τ π : Type}

/-- Solana RPC answers `getMultipleAccounts` for up to 100 addresses. -/
def maxMultipleAccounts : Nat := 100

def Request.isValid : Request π → Bool
  | .getMultipleAccounts addresses => decide (addresses.length ≤ maxMultipleAccounts)
  | _ => true

/-- The network answers the valid requests, and confirms every transaction that can be executed. -/
structure Network.Works (net : Network (Chain τ) π) (programs : Programs τ π) : Prop where
  refused : ∀ n r, net.refused n r = none ↔ r.isValid = true
  simulated : ∀ n c tx, (∃ c', (net.withPrograms programs).Executes c tx.message.instructions c') →
    net.simulation n c tx = none
  delivered : ∀ n tx, net.delivered n tx = true
  awaited : ∀ n tx, net.interrupted n tx = none
  accepted : ∀ n c is, programs.rejected n c is = false

/-- The plainest network works. -/
theorem Network.works_plain (programs : Programs τ π) (h : ∀ n c is, programs.rejected n c is = false) :
    ({ execute := fun _ _ _ => none
       refused := fun _ r => if r.isValid then none else some "invalid request" } :
      Network (Chain τ) π).Works programs where
  refused n r := by cases h : r.isValid <;> simp [h]
  simulated _ _ _ _ := rfl
  delivered _ _ := rfl
  awaited _ _ := rfl
  accepted := h

namespace Chain

/-- The account is there, and `payer` can close it. -/
def canClose (c : Chain τ) (payer a : Address) : Bool :=
  match c.proofAccount a with
  | some account => account.authority == some payer
  | none => false

theorem canClose_iff {c : Chain τ} {payer a : Address} :
    c.canClose payer a = true ↔ ∃ lamports, c.proofAccount a = some ⟨lamports, some payer⟩ := by
  unfold canClose
  cases h : c.proofAccount a with
  | none => simp
  | some account =>
    obtain ⟨lamports, authority⟩ := account
    simp

/-- The chain without these accounts. -/
def closeAll (c : Chain τ) (addresses : List Address) : Chain τ :=
  addresses.foldl (fun c a => c.setProofAccount a none) c

theorem proofAccount_closeAll (c : Chain τ) (addresses : List Address) (a : Address) :
    (c.closeAll addresses).proofAccount a = if a ∈ addresses then none else c.proofAccount a := by
  induction addresses generalizing c with
  | nil => simp [closeAll]
  | cons b addresses ih =>
    have hrest : (c.closeAll (b :: addresses)).proofAccount a =
        if a ∈ addresses then none else (c.setProofAccount b none).proofAccount a := ih _
    rw [hrest]
    by_cases hmem : a ∈ addresses
    · simp [hmem]
    · by_cases hab : a = b
      · simp [hab]
      · simp [hmem, hab, proofAccount_set_ne c hab]

theorem closeAll_append (c : Chain τ) (addresses addresses' : List Address) :
    c.closeAll (addresses ++ addresses') = (c.closeAll addresses).closeAll addresses' :=
  List.foldl_append

/-- Closing other accounts does not matter. -/
theorem canClose_closeAll {c : Chain τ} {addresses : List Address} {payer a : Address}
    (h : a ∉ addresses) : (c.closeAll addresses).canClose payer a = c.canClose payer a := by
  unfold canClose
  rw [proofAccount_closeAll, if_neg h]

end Chain

end Solana

namespace Sdk

variable {τ π : Type}

/-! ## One closing transaction -/

theorem onAccount_closeContextStateProof {payer a : Address} {account account' : Option ProofAccount} :
    (closeContextStateProof payer a : ProofInstruction π).onAccount account = some account' ↔
      account' = none ∧ ∃ lamports, account = some ⟨lamports, some payer⟩ := by
  unfold closeContextStateProof ProofInstruction.onAccount
  cases account with
  | none => simp
  | some account =>
    obtain ⟨lamports, authority⟩ := account
    cases authority with
    | none => simp
    | some stored =>
      by_cases h : stored = payer
      · simp [h, eq_comm]
      · simp [h]

section Theory

variable (programs : Programs τ π)

/-- Closing distinct accounts that can be closed succeeds. -/
theorem foldlM_closing (n : Nat) {c : Chain τ} {payer : Address} {batch : List Address}
    (hnodup : batch.Nodup) (hclose : ∀ a ∈ batch, c.canClose payer a = true) :
    (closingInstructions payer batch).foldlM (programs.executeInstruction n) c =
      some (c.closeAll batch) := by
  induction batch generalizing c with
  | nil => rfl
  | cons a batch ih =>
    obtain ⟨hnotMem, hnodup⟩ := List.nodup_cons.mp hnodup
    have hhead : programs.executeInstruction n c (.proof (closeContextStateProof payer a)) =
        some (c.setProofAccount a none) := by
      obtain ⟨lamports, haccount⟩ := Chain.canClose_iff.mp (hclose a (by simp))
      have hon : (closeContextStateProof payer a : ProofInstruction π).onAccount
          (c.proofAccount a) = some none :=
        onAccount_closeContextStateProof.mpr ⟨rfl, lamports, haccount⟩
      exact congrArg (Option.map (c.setProofAccount a)) hon
    have htail : ∀ b ∈ batch, (c.setProofAccount a none).canClose payer b = true := by
      intro b hb
      have hne : b ∉ [a] := by
        rintro hmem
        exact hnotMem (List.mem_singleton.mp hmem ▸ hb)
      have hsame : (c.closeAll [a]).canClose payer b = c.canClose payer b :=
        Chain.canClose_closeAll hne
      exact hsame.trans (hclose b (by simp [hb]))
    rw [closingInstructions, List.map_cons, List.foldlM_cons, hhead]
    exact ih hnodup htail

/-- So does the transaction that closes them. -/
theorem execute_closing (n : Nat) {c : Chain τ} {payer : Address} {batch : List Address}
    {is : List (Instruction π)} (hpriced : Priced (closingInstructions payer batch) is)
    (hrejected : programs.rejected n c is = false) (hnodup : batch.Nodup)
    (hclose : ∀ a ∈ batch, c.canClose payer a = true) :
    programs.execute n c is = some (c.closeAll batch) := by
  have hfold := foldlM_closing programs n hnodup hclose
  unfold Programs.execute
  rw [hrejected]
  rcases hpriced with rfl | ⟨price, rfl⟩
  · exact hfold
  · simp only [Bool.false_eq_true, if_false, List.foldlM_append]
    rw [hfold]
    rfl

/-- Closing succeeds only if all accounts can be closed. -/
theorem canClose_of_execute {n : Nat} {c c' : Chain τ} {payer : Address} {batch : List Address}
    {is : List (Instruction π)}
    (habout : ∀ a, is.filterMap (·.about a) = (closingInstructions payer batch).filterMap (·.about a))
    (h : programs.execute n c is = some c') : ∀ a ∈ batch, c.canClose payer a = true := by
  intro a ha
  have hlife := programs.execute_life h a
  have hmem : closeContextStateProof payer a ∈ is.filterMap (·.about a) := by
    rw [habout]
    exact mem_filterMap_about.mpr ⟨List.mem_map.mpr ⟨a, ha, rfl⟩, rfl⟩
  have hall : ∀ i ∈ is.filterMap (·.about a), i = closeContextStateProof payer a := by
    intro i hi
    rw [habout] at hi
    obtain ⟨hi', rfl⟩ := mem_filterMap_about.mp hi
    obtain ⟨b, -, heq⟩ := List.mem_map.mp hi'
    obtain rfl := Instruction.proof.inj heq
    rfl
  cases hlist : is.filterMap (·.about a) with
  | nil => simp [hlist] at hmem
  | cons i rest =>
    obtain rfl := hall i (by simp [hlist])
    rw [hlist, life_cons] at hlife
    obtain ⟨account, hon, -⟩ := Option.bind_eq_some_iff.mp hlife
    exact Chain.canClose_iff.mpr (onAccount_closeContextStateProof.mp hon).2

/-! ## Sending it -/

variable {programs} {net : Network (Chain τ) π} {kit : Kit π}

/-- A transaction that can be executed is confirmed. -/
theorem simulateAndSend_works (hworks : net.Works programs) (ctx : SendContext) (tx : Transaction π)
    (step : String) {w : World (Chain τ) π} {c' : Chain τ}
    (hexecute : ∀ n, programs.execute n w.chain tx.message.instructions = some c') :
    (simulateAndSend (net.withPrograms programs) ctx tx step).wp
      (fun r w' => (∃ signature, r = .ok signature) ∧ w'.chain = c') w := by
  have hanswered : (net.withPrograms programs).refused w.clock (.simulateTransaction tx) = none :=
    (hworks.refused _ _).mpr rfl
  have hpassed : (net.withPrograms programs).simulation w.clock w.chain tx = none :=
    hworks.simulated _ _ _ ⟨c', 0, hexecute 0⟩
  have hdelivered : ∀ n, (net.withPrograms programs).delivered n tx = true :=
    fun n => hworks.delivered n tx
  have hawaited : ∀ n, (net.withPrograms programs).interrupted n tx = none :=
    fun n => hworks.awaited n tx
  have hexecute' : ∀ n, (net.withPrograms programs).execute n w.chain tx.message.instructions =
      some c' := hexecute
  have hsimulate : (net.withPrograms programs).simulate tx w =
      (.ok none, w.tick.record (.simulated tx .passed)) := by
    simp [Network.simulate, hanswered, hpassed]
  unfold simulateAndSend
  rw [Effect.wp_bind, Effect.wp_mapError]
  refine (Effect.wp_iff_run hsimulate).mpr ?_
  simp only [Except.mapError]
  rw [Effect.wp_bind, Effect.wp_attempt]
  refine Effect.wp_of_run (.ok ()) (World.record (.submitted tx .landed none)
    { (w.tick.record (.simulated tx .passed)).tick with chain := c' }) ?_ ?_
  · simp [Network.sendAndConfirm, Network.settle, hdelivered, hawaited, hexecute']
  · exact ⟨⟨_, rfl⟩, rfl⟩

/-- Instructions that can be executed are sent with success. -/
theorem sendInstructions_works (hworks : net.Works programs) (hsigns : kit.Signs) (ctx : SendContext)
    {is : List (Instruction π)} {w : World (Chain τ) π} {c' : Chain τ}
    (hexecute : ∀ js, Priced is js → ∀ n, programs.execute n w.chain js = some c') :
    (sendInstructions (net.withPrograms programs) kit ctx is).wp
      (fun r w' => (∃ signature, r = .ok signature) ∧ w'.chain = c') w := by
  have hanswered : (net.withPrograms programs).refused w.clock .getLatestBlockhash = none :=
    (hworks.refused _ _).mpr rfl
  unfold sendInstructions
  rw [Effect.wp_bind]
  refine Effect.wp_of_run (.ok ((net.withPrograms programs).blockhash w.clock)) w.tick ?_ ?_
  · simp [latestLifetime, Effect.mapError, Network.request, hanswered, Except.mapError]
  · simp only
    generalize (net.withPrograms programs).blockhash w.clock = lifetime
    generalize hmessage : withPriorityFee kit ctx.computeUnitPrice
      { instructions := is, lifetime := some lifetime } = message
    obtain ⟨txs, hsigned⟩ := hsigns w.tick.clock [message] lifetime
    rw [Effect.wp_bind]
    refine Effect.wp_of_run (.ok txs) (w.tick.record (.signRequest [message])) ?_ ?_
    · simp [signTogether, Effect.modify, Effect.get, Effect.ofExcept, bind, hsigned, Except.mapError]
    · have hinstructions := kit.sign_instructions hsigned
      cases txs with
      | nil => simp at hinstructions
      | cons tx rest =>
        refine simulateAndSend_works hworks ctx tx _ (hexecute _ ?_)
        have htx : tx.message.instructions = message.instructions := by
          simpa using congrArg List.head? hinstructions
        rw [htx, ← hmessage]
        exact withPriorityFee_priced kit _ _

/-- Instructions that cannot be executed are not. -/
theorem sendInstructions_fails (ctx : SendContext) {is : List (Instruction π)}
    {w : World (Chain τ) π}
    (hexecute : ∀ js, Priced is js → ∀ n, programs.execute n w.chain js = none) :
    (sendInstructions (net.withPrograms programs) kit ctx is).wp
      (fun r w' => (∃ e, r = .error e) ∧ w'.chain = w.chain) w := by
  refine (sendInstructions_lands _ kit ctx is w).mono fun r w' h => ?_
  obtain ⟨js, hpriced, hlands | ⟨herror, hlands⟩⟩ := h
  · obtain ⟨n, hsome⟩ := hlands.executed.of_single
    have hnone : (net.withPrograms programs).execute n w.chain js = none := hexecute js hpriced n
    simp [hnone] at hsome
  · exact ⟨herror, hlands.executed.of_nil⟩

/-! ## Batches -/

/-- The batches all of whose accounts can be closed. -/
def closableBatches (c : Chain τ) (payer : Address) (batches : List (List Address)) :
    List (List Address) :=
  batches.filter fun batch => batch.all (c.canClose payer)

/-- Of distinct accounts, those in batches that can be closed as a whole are closed. -/
theorem closeBatches_works (hworks : net.Works programs) (hsigns : kit.Signs) (ctx : SendContext)
    {batches : List (List Address)} (hnodup : batches.flatten.Nodup) (w : World (Chain τ) π) :
    (closeBatches (net.withPrograms programs) kit ctx batches).wp (fun r w' =>
      r = .ok (closableBatches w.chain ctx.payer batches).flatten ∧
      w'.chain = w.chain.closeAll (closableBatches w.chain ctx.payer batches).flatten) w := by
  induction batches generalizing w with
  | nil => exact ⟨rfl, rfl⟩
  | cons batch batches ih =>
    rw [List.flatten_cons, List.nodup_append'] at hnodup
    obtain ⟨hbatch, hbatches, hdisjoint⟩ := hnodup
    unfold closeBatches
    rw [Effect.wp_bind, Effect.wp_attempt]
    by_cases hall : batch.all (w.chain.canClose ctx.payer) = true
    · have hexecute : ∀ js, Priced (closingInstructions ctx.payer batch) js →
          ∀ n, programs.execute n w.chain js = some (w.chain.closeAll batch) := by
        intro js hjs n
        exact execute_closing programs n hjs (hworks.accepted _ _ _) hbatch (List.all_eq_true.mp hall)
      refine (sendInstructions_works hworks hsigns ctx hexecute).mono fun sent w₁ h => ?_
      obtain ⟨⟨signature, rfl⟩, hchain⟩ := h
      have hsame : closableBatches w₁.chain ctx.payer batches =
          closableBatches w.chain ctx.payer batches := by
        refine List.filter_congr fun b hb => ?_
        have heq : ∀ a ∈ b, w₁.chain.canClose ctx.payer a = w.chain.canClose ctx.payer a := by
          intro a ha
          rw [hchain]
          refine Chain.canClose_closeAll fun hmem => ?_
          exact hdisjoint hmem (List.mem_flatten.mpr ⟨b, hb, ha⟩)
        rw [Bool.eq_iff_iff, List.all_eq_true, List.all_eq_true]
        exact forall₂_congr fun a ha => by rw [heq a ha]
      have hcons : closableBatches w.chain ctx.payer (batch :: batches) =
          batch :: closableBatches w.chain ctx.payer batches := List.filter_cons_of_pos hall
      simp only [Effect.wp_bind]
      refine (ih hbatches w₁).mono fun r w' h => ?_
      obtain ⟨rfl, hchain'⟩ := h
      rw [hsame] at hchain' ⊢
      rw [hcons, List.flatten_cons, Chain.closeAll_append, ← hchain, ← hchain']
      exact ⟨rfl, rfl⟩
    · have hexecute : ∀ js, Priced (closingInstructions ctx.payer batch) js →
          ∀ n, programs.execute n w.chain js = none := by
        intro js hjs n
        by_contra hsome
        obtain ⟨c', hc'⟩ := Option.ne_none_iff_exists'.mp hsome
        exact hall (List.all_eq_true.mpr (canClose_of_execute programs hjs.about hc'))
      refine (sendInstructions_fails ctx hexecute).mono fun sent w₁ h => ?_
      obtain ⟨⟨e, rfl⟩, hchain⟩ := h
      have hskip : closableBatches w.chain ctx.payer (batch :: batches) =
          closableBatches w.chain ctx.payer batches := List.filter_cons_of_neg hall
      simp only [Effect.wp_bind]
      refine (ih hbatches w₁).mono fun r w' h => ?_
      obtain ⟨rfl, hchain'⟩ := h
      rw [hchain] at hchain' ⊢
      rw [hskip]
      exact ⟨rfl, hchain'⟩

/-! ## The whole cleanup -/

/-- The addresses at which there are proof accounts. -/
def existingOf (c : Chain τ) (addresses : List Address) : List Address :=
  addresses.filter fun a => (c.proofAccount a).isSome

/-- The accounts that are closed: those in batches of eight without one that cannot be closed. -/
def closedOf (c : Chain τ) (payer : Address) (addresses : List Address) : List Address :=
  (closableBatches c payer ((existingOf c addresses).batches closesPerTransaction)).flatten

/-- Over a network that works, at most 100 distinct accounts. -/
theorem closeProofAccounts_works (hworks : net.Works programs) (hsigns : kit.Signs)
    (ctx : SendContext) {addresses : List Address} (hnodup : addresses.Nodup)
    (hlength : addresses.length ≤ maxMultipleAccounts) (w : World (Chain τ) π) :
    (closeProofAccounts (net.withPrograms programs) kit ctx addresses).wp (fun r w' =>
      r = .ok { closed := closedOf w.chain ctx.payer addresses
                leftOpen := (existingOf w.chain addresses).filter
                  fun a => !(closedOf w.chain ctx.payer addresses).contains a } ∧
      w'.chain = w.chain.closeAll (closedOf w.chain ctx.payer addresses)) w := by
  have hanswered : (net.withPrograms programs).refused w.clock (.getMultipleAccounts addresses) =
      none := (hworks.refused _ _).mpr (by simpa [Request.isValid] using hlength)
  have hexisting : ((addresses.zip (addresses.map ((net.withPrograms programs).owner w.clock
      w.chain))).filter fun a => a.2 == some zkElgamalProofProgramAddress).map Prod.fst =
      existingOf w.chain addresses := by
    rw [List.map_fst_filter_zip_map addresses _ fun o => o == some zkElgamalProofProgramAddress]
    refine List.filter_congr fun a _ => ?_
    rw [Bool.eq_iff_iff, beq_iff_eq, Network.withPrograms_owner, Option.isSome_iff_ne_none]
  have hclosedOf : existingOf w.chain addresses = [] → closedOf w.chain ctx.payer addresses = [] := by
    intro hnil
    rw [closedOf, hnil]
    rfl
  unfold closeProofAccounts
  split
  case isTrue hnone =>
    obtain rfl := List.length_eq_zero_iff.mp hnone
    exact ⟨rfl, rfl⟩
  case isFalse =>
    rw [Effect.wp_bind, Effect.wp_attempt]
    refine Effect.wp_of_run (.ok (addresses.map ((net.withPrograms programs).owner w.clock
      w.chain))) w.tick ?_ ?_
    · simp [Network.request, hanswered]
    · simp only [hexisting]
      split
      case isTrue hnone =>
        have hnil := List.length_eq_zero_iff.mp hnone
        rw [hclosedOf hnil, hnil]
        exact ⟨rfl, rfl⟩
      case isFalse =>
        have hflat : ((existingOf w.chain addresses).batches closesPerTransaction).flatten.Nodup := by
          rw [List.flatten_batches (by decide)]
          exact hnodup.filter _
        rw [Effect.wp_bind]
        refine (closeBatches_works hworks hsigns { ctx with operation := _ } hflat _).mono
          fun r w' h => ?_
        obtain ⟨rfl, hchain⟩ := h
        exact ⟨rfl, hchain⟩

/-- Over a network that works, more than 100 accounts: nothing is closed. -/
theorem closeProofAccounts_refused (hworks : net.Works programs) (ctx : SendContext)
    {addresses : List Address} (hlength : maxMultipleAccounts < addresses.length)
    (w : World (Chain τ) π) :
    (closeProofAccounts (net.withPrograms programs) kit ctx addresses).wp (fun r w' =>
      r = .ok { closed := [], leftOpen := addresses } ∧ w'.chain = w.chain) w := by
  have hrefused : ∃ message, (net.withPrograms programs).refused w.clock
      (.getMultipleAccounts addresses) = some message := by
    refine Option.ne_none_iff_exists'.mp fun hnone => ?_
    have hvalid := (hworks.refused _ _).mp hnone
    simp only [Request.isValid, decide_eq_true_eq] at hvalid
    omega
  obtain ⟨message, hrefused⟩ := hrefused
  unfold closeProofAccounts
  rw [if_neg (by omega), Effect.wp_bind, Effect.wp_attempt]
  refine Effect.wp_of_run (.error message) w.tick ?_ ⟨rfl, rfl⟩
  simp [Network.request, hrefused]

/-! ## Accounts that cannot be closed -/

/-- The cleanup has closed the accounts that can be closed, those verified by the payer, and lists the
    others that exist as left open. -/
structure ClosesVerified (c : Chain τ) (payer : Address) (addresses : List Address)
    (r : Except Thrown ProofAccounts) (c' : Chain τ) : Prop where
  returns : ∃ p, r = .ok p ∧
    (∀ a, a ∈ p.closed ↔ a ∈ addresses ∧ c.canClose payer a = true) ∧
    (∀ a, a ∈ p.leftOpen ↔ a ∈ addresses ∧ c.proofAccount a ≠ none ∧ c.canClose payer a = false)
  closed : ∀ a ∈ addresses, c.canClose payer a = true → c'.proofAccount a = none

/-- No transaction of the cleanup holds both an account that can be closed and one that cannot. -/
def BatchesUnmixed (c : Chain τ) (payer : Address) (addresses : List Address) : Prop :=
  ∀ batch ∈ (existingOf c addresses).batches closesPerTransaction,
    (∀ a ∈ batch, c.canClose payer a = true) ∨ (∀ a ∈ batch, c.canClose payer a = false)

instance (c : Chain τ) (payer : Address) (addresses : List Address) :
    Decidable (BatchesUnmixed c payer addresses) :=
  inferInstanceAs (Decidable (∀ batch ∈ (existingOf c addresses).batches closesPerTransaction,
    (∀ a ∈ batch, c.canClose payer a = true) ∨ (∀ a ∈ batch, c.canClose payer a = false)))

theorem mem_existingOf {c : Chain τ} {addresses : List Address} {a : Address} :
    a ∈ existingOf c addresses ↔ a ∈ addresses ∧ c.proofAccount a ≠ none := by
  simp [existingOf, Option.isSome_iff_ne_none]

/-- An account that can be closed is there. -/
theorem ne_none_of_canClose {c : Chain τ} {payer a : Address} (h : c.canClose payer a = true) :
    c.proofAccount a ≠ none := by
  obtain ⟨lamports, haccount⟩ := Chain.canClose_iff.mp h
  simp [haccount]

theorem mem_closedOf_iff {c : Chain τ} {payer : Address} {addresses : List Address}
    (hnodup : addresses.Nodup) :
    (∀ a, a ∈ closedOf c payer addresses ↔ a ∈ addresses ∧ c.canClose payer a = true) ↔
      BatchesUnmixed c payer addresses := by
  have hflat := List.flatten_batches (n := closesPerTransaction) (by decide) (existingOf c addresses)
  have hiff := List.mem_flatten_filter_all_iff (c.canClose payer)
    ((existingOf c addresses).batches closesPerTransaction) (by rw [hflat]; exact hnodup.filter _)
  rw [BatchesUnmixed, ← hiff]
  refine forall_congr' fun a => ?_
  rw [hflat, mem_existingOf]
  refine iff_congr Iff.rfl ⟨fun h => ⟨⟨h.1, ne_none_of_canClose h.2⟩, h.2⟩, fun h => ⟨h.1.1, h.2⟩⟩

/-- The cleanup closes the accounts that can be closed and lists the others exactly if no batch is
    mixed. -/
theorem cleanup_closes_verified_iff (hworks : net.Works programs) (hsigns : kit.Signs)
    (ctx : SendContext) {addresses : List Address} (hnodup : addresses.Nodup)
    (hlength : addresses.length ≤ maxMultipleAccounts) (w : World (Chain τ) π) :
    (closeProofAccounts (net.withPrograms programs) kit ctx addresses).wp (fun r w' =>
      ClosesVerified w.chain ctx.payer addresses r w'.chain ↔
        BatchesUnmixed w.chain ctx.payer addresses) w := by
  refine (closeProofAccounts_works hworks hsigns ctx hnodup hlength w).mono fun r w' h => ?_
  obtain ⟨rfl, hchain⟩ := h
  rw [← mem_closedOf_iff hnodup]
  constructor
  · rintro ⟨⟨p, hp, hclosed, -⟩, -⟩
    obtain rfl := Except.ok.inj hp
    exact hclosed
  · intro hclosed
    refine ⟨⟨_, rfl, hclosed, fun a => ?_⟩, fun a ha hclose => ?_⟩
    · simp only [List.mem_filter, Bool.not_eq_true', List.contains_eq_mem, decide_eq_false_iff_not,
        hclosed, mem_existingOf, not_and, Bool.not_eq_true, and_assoc]
      exact and_congr_right fun ha => and_congr_right fun _ => ⟨fun h => h ha, fun h _ => h⟩
    · rw [hchain, Chain.proofAccount_closeAll, if_pos ((hclosed a).mpr ⟨ha, hclose⟩)]

end Theory

/-! ## Half a setup -/

namespace HalfSetUp

/-- The equality proof has been verified, the range proof's account only created. -/
def chain : Chain Unit where
  proofAccounts := (AList.insert "range" { lamports := 1 } ∅).insert "equality" ⟨1, some "payer"⟩
  rest := ()

def programs : Programs Unit Unit where
  operation _ _ _ := some ()

def net : Network (Chain Unit) Unit where
  execute _ _ _ := none
  refused _ r := if r.isValid then none else some "invalid request"

theorem works : net.Works programs := Network.works_plain programs fun _ _ _ => rfl

def verified : List Address := ["a1", "a2", "a3", "a4", "a5", "a6", "a7", "a8"]

/-- Eight verified accounts, and the range proof's that was only created. -/
def eightVerified : Chain Unit where
  proofAccounts := verified.foldr (fun a accounts => accounts.insert a ⟨1, some "payer"⟩)
    (AList.insert "range" { lamports := 1 } ∅)
  rest := ()

end HalfSetUp

open HalfSetUp in
/-- The eight verified accounts fill a transaction and are closed; the ninth is left open. -/
theorem cleanup_closes_eight :
    (closeProofAccounts (HalfSetUp.net.withPrograms HalfSetUp.programs) .oneEach
        { payer := "payer", operation := "transfer" } (verified ++ ["range"])).wp (fun r w' =>
      ClosesVerified eightVerified "payer" (verified ++ ["range"]) r w'.chain)
      { chain := eightVerified } :=
  (cleanup_closes_verified_iff HalfSetUp.works Kit.signs_oneEach
    { payer := "payer", operation := "transfer" } (by decide) (by decide)
    { chain := eightVerified }).mono fun _ _ h => h.mpr (by decide +kernel)

/-- The equality proof's account, next to the range proof's, stays open. -/
theorem cleanup_leaves_equality_open :
    ¬ (closeProofAccounts (HalfSetUp.net.withPrograms HalfSetUp.programs) .oneEach
        { payer := "payer", operation := "transfer" } ["equality", "range"]).wp (fun r w' =>
      ClosesVerified HalfSetUp.chain "payer" ["equality", "range"] r w'.chain)
      { chain := HalfSetUp.chain } := by
  rintro ⟨⟨p, hp, hclosed, -⟩, -⟩
  obtain rfl : { closed := [], leftOpen := ["equality", "range"] } = p := Except.ok.inj hp
  have hmem : "equality" ∈ ([] : List Address) := (hclosed "equality").mpr ⟨by simp, by decide⟩
  simp at hmem

end Sdk
