-- SUMMARY: The ZK ElGamal Proof program: its accounts, what instructions do to them, and their lives.
import Mathlib.Data.List.AList
import ConfidentialTransfers.Solana.Landing

/-!
# The ZK ElGamal Proof program

A proof account is created empty, holds its authority's address once a proof
has been verified into it, and is closed by that authority. A `Chain` is the
program's accounts next to whatever else there is. Since every instruction is
about one account, a run of transactions is a life of each account for itself
(`life_of_executed`), and what is said about accounts below follows from that.
-/

namespace Solana

variable {τ π : Type}

structure ProofAccount where
  lamports : Nat
  /-- The authority its bytes start with; `none` while they are zero. -/
  authority : Option Address := none
deriving DecidableEq, Repr

namespace ProofInstruction

/-- The account the instruction is about. -/
def address : ProofInstruction π → Address
  | .createAccount address _ => address
  | .verifyProof _ contextAccount _ => contextAccount
  | .closeContextState contextState _ _ => contextState

/-- What the instruction makes of its account, if it succeeds. An account can be closed only by the
    authority it stores, so not before a proof has been verified into it. -/
def onAccount : ProofInstruction π → Option ProofAccount → Option (Option ProofAccount)
  | .createAccount _ lamports, none => some (some { lamports })
  | .verifyProof _ _ authority, some { lamports, authority := none } =>
    some (some { lamports, authority := some authority })
  | .closeContextState _ authority _, some { authority := some stored, .. } =>
    if stored = authority then some none else none
  | _, _ => none

end ProofInstruction

/-- The accounts of the program, by address. -/
abbrev ProofLedger := AList fun _ : Address => ProofAccount

structure Chain (τ : Type) where
  proofAccounts : ProofLedger
  /-- Everything else. -/
  rest : τ

/-- What the chain adds to the ZK ElGamal Proof program. -/
structure Programs (τ π : Type) where
  /-- An operation's own instruction, executed by the token program as part of request `n`. -/
  operation : Nat → Chain τ → Action → Option τ
  /-- The transaction fails for another reason than its instructions: its fee, its compute budget, a
      proof that does not verify. -/
  rejected : Nat → Chain τ → List (Instruction π) → Bool := fun _ _ _ => false

namespace Chain

/-- The proof account at an address. -/
def proofAccount (c : Chain τ) (a : Address) : Option ProofAccount := c.proofAccounts.lookup a

def setProofAccount (c : Chain τ) (a : Address) : Option ProofAccount → Chain τ
  | some account => { c with proofAccounts := c.proofAccounts.insert a account }
  | none => { c with proofAccounts := c.proofAccounts.erase a }

@[simp] theorem proofAccount_set (c : Chain τ) (a : Address) (account : Option ProofAccount) :
    (c.setProofAccount a account).proofAccount a = account := by
  cases account with
  | some account => exact AList.lookup_insert _
  | none => exact AList.lookup_erase _ _

theorem proofAccount_set_ne (c : Chain τ) {a b : Address} (h : a ≠ b)
    (account : Option ProofAccount) : (c.setProofAccount b account).proofAccount a = c.proofAccount a := by
  cases account with
  | some account => exact AList.lookup_insert_ne h
  | none => exact AList.lookup_erase_ne h

/-- The addresses and lamports of the proof accounts that store `authority`. -/
def proofAccountsOf (c : Chain τ) (authority : Address) : List (Address × Nat) :=
  c.proofAccounts.entries.filterMap fun entry =>
    if entry.2.authority = some authority then some (entry.1, entry.2.lamports) else none

theorem mem_proofAccountsOf {c : Chain τ} {authority a : Address} {lamports : Nat} :
    (a, lamports) ∈ c.proofAccountsOf authority ↔
      c.proofAccount a = some ⟨lamports, some authority⟩ := by
  have hmem : c.proofAccount a = some ⟨lamports, some authority⟩ ↔
      (⟨a, lamports, some authority⟩ : Sigma fun _ : Address => ProofAccount) ∈
        c.proofAccounts.entries := AList.mem_lookup_iff
  rw [hmem, proofAccountsOf, List.mem_filterMap]
  constructor
  · rintro ⟨⟨b, account⟩, hentry, h⟩
    obtain ⟨hauthority, rfl, rfl⟩ : account.authority = some authority ∧ b = a ∧
        account.lamports = lamports := by simpa using h
    rw [← hauthority]
    exact hentry
  · intro h
    exact ⟨_, h, by simp⟩

/-- No account is listed twice. -/
theorem proofAccountsOf_nodup (c : Chain τ) (authority : Address) :
    ((c.proofAccountsOf authority).map Prod.fst).Nodup := by
  have hsub : ((c.proofAccountsOf authority).map Prod.fst).Sublist c.proofAccounts.keys := by
    unfold proofAccountsOf AList.keys List.keys
    induction c.proofAccounts.entries with
    | nil => simp
    | cons entry entries ih =>
      by_cases h : entry.2.authority = some authority
      · simpa [List.filterMap_cons, h] using ih
      · simpa [List.filterMap_cons, h] using ih.cons entry.1
  exact hsub.nodup c.proofAccounts.keys_nodup

end Chain

/-! ## Execution -/

namespace Programs

variable (programs : Programs τ π)

def executeInstruction (n : Nat) (c : Chain τ) : Instruction π → Option (Chain τ)
  | .proof i => (i.onAccount (c.proofAccount i.address)).map (c.setProofAccount i.address)
  | .setComputeUnitPrice _ => some c
  | .operation action => (programs.operation n c action).map fun rest => { c with rest := rest }

/-- A transaction executes all its instructions in order, or has no effect. -/
def execute (n : Nat) (c : Chain τ) (is : List (Instruction π)) : Option (Chain τ) :=
  if programs.rejected n c is then none else is.foldlM (programs.executeInstruction n) c

end Programs

/-- A network in front of this chain; the given network says what else can go wrong. -/
def Network.withPrograms (net : Network (Chain τ) π) (programs : Programs τ π) :
    Network (Chain τ) π :=
  { net with
    execute := programs.execute
    owner := fun n c a =>
      match c.proofAccount a with
      | some _ => some zkElgamalProofProgramAddress
      | none => (net.owner n c a).filter (· != zkElgamalProofProgramAddress)
    programAccounts := fun _ c authority => c.proofAccountsOf authority }

theorem Network.withPrograms_owner (net : Network (Chain τ) π) (programs : Programs τ π) (n : Nat)
    (c : Chain τ) (a : Address) :
    (net.withPrograms programs).owner n c a = some zkElgamalProofProgramAddress ↔
      c.proofAccount a ≠ none := by
  unfold Network.withPrograms
  cases h : c.proofAccount a with
  | some account => simp [h]
  | none => simp [h, Option.filter_eq_some_iff]

/-! ## The life of one account -/

/-- The instruction, if it is about the account `a`. -/
def Instruction.about (a : Address) : Instruction π → Option (ProofInstruction π)
  | .proof i => if i.address = a then some i else none
  | .setComputeUnitPrice _ => none
  | .operation _ => none

/-- What becomes of one account when instructions about it succeed one after the other. -/
def life (is : List (ProofInstruction π)) (account : Option ProofAccount) :
    Option (Option ProofAccount) :=
  is.foldlM (fun account i => i.onAccount account) account

@[simp] theorem life_nil (account : Option ProofAccount) :
    life ([] : List (ProofInstruction π)) account = some account := rfl

theorem life_cons (i : ProofInstruction π) (is : List (ProofInstruction π))
    (account : Option ProofAccount) :
    life (i :: is) account = (i.onAccount account).bind (life is) := rfl

@[simp] theorem life_singleton (i : ProofInstruction π) (account : Option ProofAccount) :
    life [i] account = i.onAccount account := by
  rw [life_cons]
  cases i.onAccount account <;> rfl

theorem life_append (is js : List (ProofInstruction π)) (account : Option ProofAccount) :
    life (is ++ js) account = (life is account).bind (life js) :=
  List.foldlM_append

/-- One instruction changes its own account and no other. -/
theorem Programs.executeInstruction_life (programs : Programs τ π) {n : Nat} {c c' : Chain τ}
    {i : Instruction π} (h : programs.executeInstruction n c i = some c') (a : Address) :
    life (i.about a).toList (c.proofAccount a) = some (c'.proofAccount a) := by
  cases i with
  | setComputeUnitPrice price =>
    obtain rfl : c = c' := Option.some.inj h
    rfl
  | operation action =>
    obtain ⟨rest, -, rfl⟩ := Option.map_eq_some_iff.mp h
    rfl
  | proof i =>
    obtain ⟨account, haccount, rfl⟩ := Option.map_eq_some_iff.mp h
    by_cases ha : i.address = a
    · subst ha
      simp [Instruction.about, haccount]
    · simp [Instruction.about, ha, Chain.proofAccount_set_ne c (Ne.symm ha)]

/-- Instructions executed one after the other are a life of each account. -/
theorem Programs.foldlM_life (programs : Programs τ π) {n : Nat} {c c' : Chain τ}
    {is : List (Instruction π)} (h : is.foldlM (programs.executeInstruction n) c = some c')
    (a : Address) :
    life (is.filterMap (·.about a)) (c.proofAccount a) = some (c'.proofAccount a) := by
  induction is generalizing c with
  | nil =>
    obtain rfl : c = c' := Option.some.inj h
    rfl
  | cons i is ih =>
    obtain ⟨c₁, hhead, htail⟩ := Option.bind_eq_some_iff.mp h
    have hlife := programs.executeInstruction_life hhead a
    cases habout : i.about a with
    | none =>
      have hsame : c.proofAccount a = c₁.proofAccount a := by simpa [habout] using hlife
      rw [List.filterMap_cons_none habout, hsame]
      exact ih htail
    | some j =>
      have hj : j.onAccount (c.proofAccount a) = some (c₁.proofAccount a) := by
        simpa [habout] using hlife
      rw [List.filterMap_cons_some habout, life_cons, hj]
      exact ih htail

theorem Programs.execute_life (programs : Programs τ π) {n : Nat} {c c' : Chain τ}
    {is : List (Instruction π)} (h : programs.execute n c is = some c') (a : Address) :
    life (is.filterMap (·.about a)) (c.proofAccount a) = some (c'.proofAccount a) := by
  unfold Programs.execute at h
  split at h
  · exact absurd h (by simp)
  · exact programs.foldlM_life h a

/-- A run of transactions is a life of each account. -/
theorem life_of_executed {net : Network (Chain τ) π} {programs : Programs τ π} {c c' : Chain τ}
    {txs : List (List (Instruction π))} (h : Steps (net.withPrograms programs).Executes c txs c')
    (a : Address) :
    life (txs.flatten.filterMap (·.about a)) (c.proofAccount a) = some (c'.proofAccount a) := by
  induction h with
  | nil => rfl
  | cons head _ ih =>
    obtain ⟨n, hexecute⟩ := head
    rw [List.flatten_cons, List.filterMap_append, life_append, programs.execute_life hexecute a]
    exact ih

/-! ### Closing -/

def ProofInstruction.isClose : ProofInstruction π → Bool
  | .closeContextState .. => true
  | _ => false

/-- Only an account with an authority can be closed. -/
theorem onAccount_close {i : ProofInstruction π} (hi : i.isClose = true)
    {account account' : Option ProofAccount} (h : i.onAccount account = some account') :
    account' = none ∧ ∃ lamports stored, account = some ⟨lamports, some stored⟩ := by
  cases i with
  | createAccount => simp [ProofInstruction.isClose] at hi
  | verifyProof => simp [ProofInstruction.isClose] at hi
  | closeContextState a authority destination =>
    unfold ProofInstruction.onAccount at h
    split at h
    · contradiction
    · contradiction
    · split at h
      · exact ⟨(Option.some.inj h).symm, _, _, rfl⟩
      · contradiction
    · contradiction

/-- Instructions that close leave nothing, unless there are none. -/
theorem life_closes {is : List (ProofInstruction π)} (his : ∀ i ∈ is, i.isClose = true)
    {account account' : Option ProofAccount} (h : life is account = some account') :
    account' = none ∨ (is = [] ∧ account' = account) := by
  induction is generalizing account with
  | nil => exact .inr ⟨rfl, (Option.some.inj h).symm⟩
  | cons i is ih =>
    rw [life_cons] at h
    obtain ⟨account₁, hon, hlife⟩ := Option.bind_eq_some_iff.mp h
    obtain ⟨rfl, -⟩ := onAccount_close (his i (by simp)) hon
    rcases ih (fun j hj => his j (by simp [hj])) hlife with hnone | ⟨-, hnone⟩
    · exact .inl hnone
    · exact .inl hnone

/-- An account that stores no authority cannot be closed. -/
theorem life_closes_unverified {is : List (ProofInstruction π)} (his : ∀ i ∈ is, i.isClose = true)
    {lamports : Nat} {account' : Option ProofAccount}
    (h : life is (some { lamports }) = some account') : account' = some { lamports } := by
  cases is with
  | nil => exact (Option.some.inj h).symm
  | cons i is =>
    rw [life_cons] at h
    obtain ⟨account₁, hon, -⟩ := Option.bind_eq_some_iff.mp h
    obtain ⟨-, lamports', stored, hstored⟩ := onAccount_close (his i (by simp)) hon
    simp at hstored

/-! ### What transactions create and verify -/

/-- The accounts that the transactions create. -/
def createdAccounts (txs : List (List (Instruction π))) : List Address :=
  txs.flatten.filterMap fun
    | .proof (.createAccount address _) => some address
    | _ => none

/-- The accounts that the transactions verify proofs into. -/
def verifiedAccounts (txs : List (List (Instruction π))) : List Address :=
  txs.flatten.filterMap fun
    | .proof (.verifyProof _ contextAccount _) => some contextAccount
    | _ => none

@[simp] theorem createdAccounts_append (txs txs' : List (List (Instruction π))) :
    createdAccounts (txs ++ txs') = createdAccounts txs ++ createdAccounts txs' := by
  simp [createdAccounts]

@[simp] theorem verifiedAccounts_append (txs txs' : List (List (Instruction π))) :
    verifiedAccounts (txs ++ txs') = verifiedAccounts txs ++ verifiedAccounts txs' := by
  simp [verifiedAccounts]

theorem mem_filterMap_about {a : Address} {is : List (Instruction π)} {i : ProofInstruction π} :
    i ∈ is.filterMap (·.about a) ↔ .proof i ∈ is ∧ i.address = a := by
  rw [List.mem_filterMap]
  constructor
  · rintro ⟨j, hj, habout⟩
    cases j with
    | proof j =>
      obtain ⟨ha, rfl⟩ : j.address = a ∧ j = i := by simpa [Instruction.about] using habout
      exact ⟨hj, ha⟩
    | setComputeUnitPrice price => simp [Instruction.about] at habout
    | operation action => simp [Instruction.about] at habout
  · rintro ⟨hi, ha⟩
    exact ⟨_, hi, by simp [Instruction.about, ha]⟩

/-- Only the instructions about an account matter to whether it is created. -/
theorem mem_createdAccounts {a : Address} {txs : List (List (Instruction π))} :
    a ∈ createdAccounts txs ↔
      ∃ lamports, .createAccount a lamports ∈ txs.flatten.filterMap (·.about a) := by
  simp only [mem_filterMap_about]
  rw [createdAccounts, List.mem_filterMap]
  constructor
  · rintro ⟨i, hi, h⟩
    split at h
    · obtain rfl := Option.some.inj h
      exact ⟨_, hi, rfl⟩
    · contradiction
  · rintro ⟨lamports, hi, -⟩
    exact ⟨_, hi, rfl⟩

/-- Only the instructions about an account matter to whether a proof is verified into it. -/
theorem mem_verifiedAccounts {a : Address} {txs : List (List (Instruction π))} :
    a ∈ verifiedAccounts txs ↔
      ∃ proof authority, .verifyProof proof a authority ∈ txs.flatten.filterMap (·.about a) := by
  simp only [mem_filterMap_about]
  rw [verifiedAccounts, List.mem_filterMap]
  constructor
  · rintro ⟨i, hi, h⟩
    split at h
    · obtain rfl := Option.some.inj h
      exact ⟨_, _, hi, rfl⟩
    · contradiction
  · rintro ⟨proof, authority, hi, -⟩
    exact ⟨_, hi, rfl⟩

end Solana
