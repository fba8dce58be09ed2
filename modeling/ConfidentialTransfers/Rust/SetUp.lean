-- SUMMARY: What the Rust crate's proof setup knows of the accounts it created, however its sendings end.
import ConfidentialTransfers.Rust.Proofs

/-!
# Tracking of a setup

A setup knows the accounts whose creation was confirmed to it. An account whose
creation landed without the setup being told is lost: neither verified nor
unverified, so never closed and never reported.
-/

open Solana

namespace Rust

variable {τ π α : Type}

/-! ## What the log says -/

/-- Every transaction that landed and created a proof account was confirmed to its sender. -/
def CreatesConfirmed (es : List (Event π)) : Prop :=
  ∀ l ∈ landings es, createdAccounts [l.instructions] ≠ [] → l.isConfirmed = true

/-- The accounts that confirmed transactions verified proofs into. -/
def confirmedVerified (es : List (Event π)) : List Address :=
  verifiedAccounts (((landings es).filter Landing.isConfirmed).map Landing.instructions)

theorem createdAccounts_eq_nil_of_about {txs : List (List (Instruction π))}
    (h : ∀ a, ∀ i ∈ txs.flatten.filterMap (·.about a), i.isClose = true) : createdAccounts txs = [] := by
  refine List.eq_nil_iff_forall_not_mem.mpr fun a ha => ?_
  obtain ⟨lamports, hmem⟩ := mem_createdAccounts.mp ha
  exact absurd (h a _ hmem) (by simp [ProofInstruction.isClose])

theorem verifiedAccounts_eq_nil_of_about {txs : List (List (Instruction π))}
    (h : ∀ a, ∀ i ∈ txs.flatten.filterMap (·.about a), i.isClose = true) : verifiedAccounts txs = [] := by
  refine List.eq_nil_iff_forall_not_mem.mpr fun a ha => ?_
  obtain ⟨proof, authority, hmem⟩ := mem_verifiedAccounts.mp ha
  exact absurd (h a _ hmem) (by simp [ProofInstruction.isClose])

theorem Priced.createdAccounts {is js : List (Instruction π)} (h : Priced is js) :
    Solana.createdAccounts [js] = Solana.createdAccounts [is] := by
  rcases h with rfl | ⟨price, rfl⟩
  · rfl
  · simp [Solana.createdAccounts]

theorem Priced.verifiedAccounts {is js : List (Instruction π)} (h : Priced is js) :
    Solana.verifiedAccounts [js] = Solana.verifiedAccounts [is] := by
  rcases h with rfl | ⟨price, rfl⟩
  · rfl
  · simp [Solana.verifiedAccounts]

/-! ## A sending about one account -/

/-- The instructions are about the account `a` alone, leave it on the chain, and cannot be executed
    twice. -/
structure OnceAbout (a : Address) (is : List (Instruction π)) : Prop where
  others : ∀ b, b ≠ a → is.filterMap (·.about b) = []
  leaves : ∀ account account', life (is.filterMap (·.about a)) account = some account' → account' ≠ none
  once : ∀ account account', life (is.filterMap (·.about a)) account = some account' →
    life (is.filterMap (·.about a)) account' = none

theorem onceAbout_create (a payer : Address) (lamports : Nat) (proof : π) :
    OnceAbout a [.proof (.createAccount a lamports), .proof (.verifyProof proof a payer)] where
  others b hb := by simp [Instruction.about, ProofInstruction.address, Ne.symm hb]
  leaves account account' h := by
    cases account with
    | none =>
      obtain rfl : some ⟨lamports, some payer⟩ = account' := by
        simpa [Instruction.about, ProofInstruction.address, life, ProofInstruction.onAccount] using h
      simp
    | some x =>
      simp [Instruction.about, ProofInstruction.address, life, ProofInstruction.onAccount] at h
  once account account' h := by
    cases account with
    | none =>
      obtain rfl : some ⟨lamports, some payer⟩ = account' := by
        simpa [Instruction.about, ProofInstruction.address, life, ProofInstruction.onAccount] using h
      simp [Instruction.about, ProofInstruction.address, life, ProofInstruction.onAccount]
    | some x =>
      simp [Instruction.about, ProofInstruction.address, life, ProofInstruction.onAccount] at h

theorem onceAbout_createOnly (a : Address) (lamports : Nat) :
    OnceAbout a [(.proof (.createAccount a lamports) : Instruction π)] where
  others b hb := by simp [Instruction.about, ProofInstruction.address, Ne.symm hb]
  leaves account account' h := by
    cases account with
    | none =>
      obtain rfl : some ⟨lamports, none⟩ = account' := by
        simpa [Instruction.about, ProofInstruction.address, life, ProofInstruction.onAccount] using h
      simp
    | some x =>
      simp [Instruction.about, ProofInstruction.address, life, ProofInstruction.onAccount] at h
  once account account' h := by
    cases account with
    | none =>
      obtain rfl : some ⟨lamports, none⟩ = account' := by
        simpa [Instruction.about, ProofInstruction.address, life, ProofInstruction.onAccount] using h
      simp [Instruction.about, ProofInstruction.address, life, ProofInstruction.onAccount]
    | some x =>
      simp [Instruction.about, ProofInstruction.address, life, ProofInstruction.onAccount] at h

theorem onceAbout_verify (a payer : Address) (proof : π) :
    OnceAbout a [(.proof (.verifyProof proof a payer) : Instruction π)] where
  others b hb := by simp [Instruction.about, ProofInstruction.address, Ne.symm hb]
  leaves account account' h := by
    obtain _ | ⟨lamports, _ | stored⟩ := account
    · simp [Instruction.about, ProofInstruction.address, ProofInstruction.onAccount] at h
    · obtain rfl : some ⟨lamports, some payer⟩ = account' := by
        simpa [Instruction.about, ProofInstruction.address, ProofInstruction.onAccount] using h
      simp
    · simp [Instruction.about, ProofInstruction.address, ProofInstruction.onAccount] at h
  once account account' h := by
    obtain _ | ⟨lamports, _ | stored⟩ := account
    · simp [Instruction.about, ProofInstruction.address, ProofInstruction.onAccount] at h
    · obtain rfl : some ⟨lamports, some payer⟩ = account' := by
        simpa [Instruction.about, ProofInstruction.address, ProofInstruction.onAccount] using h
      simp [Instruction.about, ProofInstruction.address, ProofInstruction.onAccount]
    · simp [Instruction.about, ProofInstruction.address, ProofInstruction.onAccount] at h

section SentOnce

variable {net : Network (Chain τ) π} {programs : Programs τ π} {is : List (Instruction π)}
  {w w' : World (Chain τ) π} {landed : List (Landing π)} {r : Except Error Signature} {a : Address}

/-- Instructions that cannot be executed twice land at most once. -/
theorem Sent.at_most_once (h : Sent (net.withPrograms programs) is w landed r w')
    (honce : OnceAbout a is) : landed = [] ∨ ∃ l, landed = [l] := by
  match landed with
  | [] => exact .inl rfl
  | [l] => exact .inr ⟨l, rfl⟩
  | l :: l' :: rest =>
    exfalso
    have hlife := life_of_executed h.lands.executed a
    rw [List.map_cons, List.map_cons, List.flatten_cons, List.flatten_cons, List.filterMap_append,
      List.filterMap_append, (h.priced l (by simp)).about, (h.priced l' (by simp)).about,
      life_append] at hlife
    obtain ⟨account, hfirst, hrest⟩ := Option.bind_eq_some_iff.mp hlife
    rw [life_append, honce.once _ _ hfirst] at hrest
    simp at hrest

/-- Other accounts stay as they are. -/
theorem Sent.others (h : Sent (net.withPrograms programs) is w landed r w') {b : Address}
    (hothers : is.filterMap (·.about b) = []) :
    w'.chain.proofAccount b = w.chain.proofAccount b := by
  have hlife := life_of_executed h.lands.executed b
  have hnone : (landed.map Landing.instructions).flatten.filterMap (·.about b) = [] := by
    refine List.eq_nil_iff_forall_not_mem.mpr fun i hi => ?_
    have habout := h.about hi
    rw [hothers] at habout
    cases habout
  rw [hnone] at hlife
  exact (Option.some.inj hlife).symm

/-- If they have landed, the account is on the chain. -/
theorem Sent.leaves (h : Sent (net.withPrograms programs) is w landed r w')
    (honce : OnceAbout a is) (hlanded : landed ≠ []) : w'.chain.proofAccount a ≠ none := by
  obtain ⟨l, rfl⟩ := (h.at_most_once honce).resolve_left hlanded
  have hlife := life_of_executed h.lands.executed a
  rw [List.map_singleton, List.flatten_singleton, (h.priced l (by simp)).about] at hlife
  exact honce.leaves _ _ hlife

/-- Success means one confirmed landing. -/
theorem Sent.confirmed {signature : Signature}
    (h : Sent (net.withPrograms programs) is w landed (.ok signature) w') (honce : OnceAbout a is) :
    ∃ tx, landed = [⟨tx, none⟩] := by
  obtain ⟨untold, tx, rfl, -⟩ := h.outcome
  rcases h.at_most_once honce with hnil | ⟨l, hsingle⟩
  · simp at hnil
  · have huntold : untold = [] := by
      have hlength := congrArg List.length hsingle
      simpa using hlength
    exact ⟨tx, by rw [huntold, List.nil_append]⟩

end SentOnce

/-! ## The invariant -/

/-- The setup knows every account created, each creation was confirmed, and all accounts are still on
    the chain. -/
structure SetupTracks (kit : Kit π) (verified unverified : List Address) (w : World (Chain τ) π) :
    Prop where
  known : ∀ a, a ∈ verified ∨ a ∈ unverified → ∃ n < w.keyPairs, kit.newKeypair n = a
  created : ∀ a, a ∈ createdAccounts (landedTransactions w.events) ↔ a ∈ verified ∨ a ∈ unverified
  stands : ∀ a, a ∈ verified ∨ a ∈ unverified → w.chain.proofAccount a ≠ none
  confirmed : CreatesConfirmed w.events
  verified_eq : confirmedVerified w.events = verified

/-- An account was created without the setup being told, and it does not know it. -/
structure Lost (verified unverified : List Address) (w : World (Chain τ) π) : Prop where
  unconfirmed : ¬ CreatesConfirmed w.events
  account : ∃ a ∈ createdAccounts (landedTransactions w.events), w.chain.proofAccount a ≠ none ∧
    a ∉ verified ∧ a ∉ unverified

/-- Nothing has landed yet. -/
theorem SetupTracks.start (kit : Kit π) {w : World (Chain τ) π} (h : landings w.events = []) :
    SetupTracks kit [] [] w where
  known := by simp
  created := by simp [landedTransactions_eq, h, createdAccounts]
  stands := by simp
  confirmed := by simp [CreatesConfirmed, h]
  verified_eq := by simp [confirmedVerified, h, verifiedAccounts]

section Steps

variable {net : Network (Chain τ) π} {programs : Programs τ π} {kit : Kit π}
  {verified unverified : List Address} {w w' : World (Chain τ) π}

/-- Nothing lands. -/
theorem SetupTracks.quiet (h : SetupTracks kit verified unverified w)
    (hlanded : landings w'.events = landings w.events) (hchain : w'.chain = w.chain)
    (hkeys : w.keyPairs ≤ w'.keyPairs) : SetupTracks kit verified unverified w' where
  known a ha := by
    obtain ⟨n, hn, rfl⟩ := h.known a ha
    exact ⟨n, hn.trans_le hkeys, rfl⟩
  created := by
    rw [landedTransactions_eq, hlanded, ← landedTransactions_eq]
    exact h.created
  stands := by
    rw [hchain]
    exact h.stands
  confirmed := by
    rw [CreatesConfirmed, hlanded]
    exact h.confirmed
  verified_eq := by
    rw [confirmedVerified, hlanded]
    exact h.verified_eq

/-- A sending about a new account: the creation is known if it was confirmed, and lost if it landed
    without confirmation. -/
theorem SetupTracks.create (h : SetupTracks kit verified unverified w) {a : Address}
    {is : List (Instruction π)} (honce : OnceAbout a is) (hcreated : createdAccounts [is] = [a])
    (unverified' : List Address) (hnew : ∀ b, b ∈ verified ++ verifiedAccounts [is] ∨ b ∈ unverified' ↔
      (b ∈ verified ∨ b ∈ unverified) ∨ b = a)
    (hfresh : ¬ (a ∈ verified ∨ a ∈ unverified)) (hkey : ∃ n < w.keyPairs, kit.newKeypair n = a)
    {landed : List (Landing π)} {r : Except Error Signature}
    (hsent : Sent (net.withPrograms programs) is w landed r w') :
    match r with
    | .ok _ => SetupTracks kit (verified ++ verifiedAccounts [is]) unverified' w'
    | .error _ => SetupTracks kit verified unverified w' ∨ Lost verified unverified w' := by
  have hkeys := hsent.lands.keyPairs
  have hothers : ∀ b, b ∈ verified ∨ b ∈ unverified →
      w'.chain.proofAccount b = w.chain.proofAccount b := by
    intro b hb
    refine hsent.others (honce.others b ?_)
    rintro rfl
    exact hfresh hb
  have hlog := hsent.lands.logged
  have hadded : ∀ l, landed = [l] → ∀ b, b ∈ createdAccounts (landedTransactions w'.events) ↔
      (b ∈ verified ∨ b ∈ unverified) ∨ b = a := by
    rintro l rfl b
    rw [landedTransactions_eq, hlog, List.map_append, createdAccounts_append, List.mem_append,
      ← landedTransactions_eq, h.created, List.map_singleton,
      (hsent.priced l (by simp)).createdAccounts, hcreated, List.mem_singleton]
  cases r with
  | ok signature =>
    obtain ⟨tx, rfl⟩ := hsent.confirmed honce
    have hpriced := hsent.priced ⟨tx, none⟩ (by simp)
    refine ⟨fun b hb => ?_, fun b => ?_, fun b hb => ?_, fun l hl hcreates => ?_, ?_⟩
    · rw [hkeys]
      rcases (hnew b).mp hb with hb | rfl
      · exact h.known b hb
      · exact hkey
    · rw [hadded _ rfl, hnew]
    · rcases (hnew b).mp hb with hb | rfl
      · rw [hothers b hb]
        exact h.stands b hb
      · exact hsent.leaves honce (by simp)
    · rw [hlog, List.mem_append, List.mem_singleton] at hl
      rcases hl with hl | rfl
      · exact h.confirmed l hl hcreates
      · rfl
    · rw [confirmedVerified, hlog, List.filter_append, List.map_append, verifiedAccounts_append]
      have hold : verifiedAccounts (((landings w.events).filter Landing.isConfirmed).map
          Landing.instructions) = verified := h.verified_eq
      rw [hold]
      exact congrArg _ hpriced.verifiedAccounts
  | error e =>
    rcases hsent.at_most_once honce with rfl | ⟨l, rfl⟩
    · exact .inl (h.quiet (by simpa using hlog) hsent.lands.executed.of_nil hkeys.ge)
    · have huntold := hsent.outcome.1 l (by simp)
      have hpriced := hsent.priced l (by simp)
      refine .inr ⟨fun hall => ?_, a, (hadded l rfl a).mpr (.inr rfl), ?_, ?_⟩
      · have htold := hall l (by rw [hlog]; simp) (by rw [hpriced.createdAccounts, hcreated]; simp)
        simp [htold] at huntold
      · exact hsent.leaves honce (by simp)
      · exact not_or.mp hfresh

/-- Verifying the proof of the account created last. -/
theorem SetupTracks.verify {a payer : Address} {proof : π}
    (h : SetupTracks kit verified (unverified ++ [a]) w) {landed : List (Landing π)}
    {r : Except Error Signature}
    (hsent : Sent (net.withPrograms programs) [.proof (.verifyProof proof a payer)] w landed r w') :
    match r with
    | .ok _ => SetupTracks kit (verified ++ [a]) unverified w'
    | .error _ => SetupTracks kit verified (unverified ++ [a]) w' := by
  have honce := onceAbout_verify a payer proof
  have hkeys := hsent.lands.keyPairs
  have hlog := hsent.lands.logged
  have hnone : ∀ l ∈ landed, createdAccounts [l.instructions] = [] := by
    intro l hl
    rw [(hsent.priced l hl).createdAccounts]
    rfl
  have hcreated : createdAccounts (landedTransactions w'.events) =
      createdAccounts (landedTransactions w.events) := by
    have hempty : createdAccounts (landed.map Landing.instructions) = [] := by
      rcases hsent.at_most_once honce with rfl | ⟨l, rfl⟩
      · rfl
      · exact hnone l (by simp)
    rw [landedTransactions_eq, hlog, List.map_append, createdAccounts_append, hempty,
      List.append_nil, ← landedTransactions_eq]
  have hstands : ∀ b, b ∈ verified ∨ b ∈ unverified ++ [a] → w'.chain.proofAccount b ≠ none := by
    intro b hb
    by_cases hba : b = a
    · subst hba
      rcases eq_or_ne landed [] with rfl | hlanded
      · rw [hsent.lands.executed.of_nil]
        exact h.stands b hb
      · exact hsent.leaves honce hlanded
    · rw [hsent.others (honce.others b hba)]
      exact h.stands b hb
  have hconfirmed : CreatesConfirmed w'.events := by
    intro l hl hcreates
    rw [hlog, List.mem_append] at hl
    rcases hl with hl | hl
    · exact h.confirmed l hl hcreates
    · exact absurd (hnone l hl) hcreates
  have hmove : ∀ b, b ∈ verified ++ [a] ∨ b ∈ unverified ↔ b ∈ verified ∨ b ∈ unverified ++ [a] := by
    intro b
    simp only [List.mem_append, List.mem_singleton]
    rw [or_right_comm, or_assoc]
  have hold : verifiedAccounts (((landings w.events).filter Landing.isConfirmed).map
      Landing.instructions) = verified := h.verified_eq
  cases r with
  | ok signature =>
    obtain ⟨tx, rfl⟩ := hsent.confirmed honce
    refine ⟨fun b hb => hkeys ▸ h.known b ((hmove b).mp hb), fun b => ?_,
      fun b hb => hstands b ((hmove b).mp hb), hconfirmed, ?_⟩
    · rw [hcreated, h.created, hmove]
    · rw [confirmedVerified, hlog, List.filter_append, List.map_append, verifiedAccounts_append, hold]
      exact congrArg _ (hsent.priced ⟨tx, none⟩ (by simp)).verifiedAccounts
  | error e =>
    refine ⟨fun b hb => hkeys ▸ h.known b hb, fun b => by rw [hcreated, h.created], hstands,
      hconfirmed, ?_⟩
    have huntold : landed.filter Landing.isConfirmed = [] :=
      List.filter_eq_nil_iff.mpr fun l hl => by simp [hsent.outcome.1 l hl]
    rw [confirmedVerified, hlog, List.filter_append, huntold, List.append_nil]
    exact h.verified_eq

end Steps

end Rust
