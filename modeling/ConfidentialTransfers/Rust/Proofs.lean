-- SUMMARY: The Rust crate's proof accounts: creating them one after the other, and closing them.
import ConfidentialTransfers.Lib.Batches
import ConfidentialTransfers.Rust.Send

/-!
# The crate's proof accounts

`proofs.rs`. `create` works on a `ProofSetup` next to the world, which keeps what
`create` did to it when it fails.
-/

open Solana

namespace Rust

variable {χ τ π α : Type}

/-- How many close instructions go into one transaction. -/
def closesPerTransaction : Nat := 8

/-- The proof accounts a call created so far. -/
structure ProofSetup where
  /-- Created and verified: these can be closed. -/
  verified : List Address := []
  /-- Created, but the proof was not verified into them: they cannot be closed. -/
  unverified : List Address := []
  signatures : List Signature := []
deriving DecidableEq, Repr

variable (s : Sender) (net : Network χ π) (kit : Kit π)

/-- The `close_context_state` instruction with the payer as authority and destination. -/
def closeContextState (payer account : Address) : Instruction π :=
  .proof (.closeContextState account payer payer)

/-- The instructions that close `accounts`. -/
def closeInstructions (payer : Address) (accounts : List Address) : List (Instruction π) :=
  accounts.map (closeContextState payer)

/-! ## Closing -/

/-- One account of a batch that could not be closed as a whole. -/
def closeOne (outcome : ProofAccounts × List Signature) (account : Address) :
    Effect (World χ π) Error (ProofAccounts × List Signature) := do
  match ← Effect.attempt (s.send net kit [closeContextState s.payer account] []
      "close proof accounts") with
  | .ok signature =>
    pure ({ outcome.1 with closed := outcome.1.closed ++ [account] }, outcome.2 ++ [signature])
  | .error _ => pure ({ outcome.1 with leftOpen := outcome.1.leftOpen ++ [account] }, outcome.2)

def closeBatch (outcome : ProofAccounts × List Signature) (batch : List Address) :
    Effect (World χ π) Error (ProofAccounts × List Signature) := do
  match ← Effect.attempt (s.send net kit (closeInstructions s.payer batch) []
      "close proof accounts") with
  | .ok signature =>
    pure ({ outcome.1 with closed := outcome.1.closed ++ batch }, outcome.2 ++ [signature])
  | .error _ =>
    if batch.length > 1 then batch.foldlM (closeOne s net kit) outcome
    else pure ({ outcome.1 with leftOpen := outcome.1.leftOpen ++ batch }, outcome.2)

/-- Close proof accounts whose authority is the sender's payer. Closes several per transaction, and one
    by one when a batch fails. -/
def closeProofAccounts (accounts : List Address) :
    Effect (World χ π) Error (ProofAccounts × List Signature) :=
  (accounts.batches closesPerTransaction).foldlM (closeBatch s net kit) ({}, [])

/-! ## Creating -/

namespace ProofSetup

/-- `Keypair::new`. -/
def newKeypair : Effect (World χ π) Error Address := fun w =>
  (.ok (kit.newKeypair w.keyPairs), { w with keyPairs := w.keyPairs + 1 })

/-- Create a context-state account and verify `proof` into it. `split` sends the account creation and
    the verification as two transactions. -/
def create (proof : π) (split : Bool) : Effect (World χ π × ProofSetup) Error Address := do
  let address ← Effect.onFst (newKeypair kit)
  let rent ← Effect.onFst (Effect.mapError (fun e => (s.rpcError e).withStep "proofs")
    (net.request .getMinimumBalanceForRentExemption fun _ _ => net.rentExemption))
  let create := .proof (.createAccount address rent)
  let verify := .proof (.verifyProof proof address s.payer)
  if split then
    let signature ← Effect.onFst (s.send net kit [create] [address] "proofs")
    Effect.modify fun (w, setup) => (w, { setup with signatures := setup.signatures ++ [signature] })
    match ← Effect.attempt (Effect.onFst (s.send net kit [verify] [] "proofs")) with
    | .ok signature =>
      Effect.modify fun (w, setup) =>
        (w, { setup with signatures := setup.signatures ++ [signature] })
    | .error e => do
      Effect.modify fun (w, setup) => (w, { setup with unverified := setup.unverified ++ [address] })
      Effect.throw e
  else
    let signature ← Effect.onFst (s.send net kit [create, verify] [address] "proofs")
    Effect.modify fun (w, setup) => (w, { setup with signatures := setup.signatures ++ [signature] })
  Effect.modify fun (w, setup) => (w, { setup with verified := setup.verified ++ [address] })
  pure address

/-- Close what was created and attach the outcome to `error`. -/
def fail (setup : ProofSetup) (error : Error) : Effect (World χ π) Error Error := do
  let (accounts, closingSignatures) ← closeProofAccounts s net kit setup.verified
  let accounts := { accounts with leftOpen := accounts.leftOpen ++ setup.unverified }
  pure ((error.withProofAccounts accounts).withSignatures (setup.signatures ++ closingSignatures))

/-- Create proof accounts with a new setup; if that fails, `fail`. -/
def run (created : Effect (World χ π × ProofSetup) Error α) :
    Effect (World χ π) Error (α × List Signature) := do
  let (created, setup) ← Effect.withState {} created
  match created with
  | .ok accounts => pure (accounts, setup.signatures)
  | .error e => do
    let e ← fail s net kit setup e
    Effect.throw e

end ProofSetup

/-! ## What closing does -/

/-- The transactions `landed` close accounts of `all` only; `outcome` accounts for those done, and what
    it lists as closed was closed. -/
structure Cleaned (net : Network χ π) (w : World χ π) (all done : List Address)
    (outcome : ProofAccounts × List Signature) (landed : List (Landing π)) (w' : World χ π) :
    Prop where
  lands : Lands net w landed w'
  closes : ∀ a, ∀ i ∈ (landed.map Landing.instructions).flatten.filterMap (·.about a),
    i.isClose = true ∧ a ∈ all
  closed : ∀ a ∈ outcome.1.closed,
    (landed.map Landing.instructions).flatten.filterMap (·.about a) ≠ []
  accounted : ∀ a ∈ done, a ∈ outcome.1.closed ∨ a ∈ outcome.1.leftOpen
  subset : outcome.1.leftOpen ⊆ all

theorem Cleaned.nil (net : Network χ π) (w : World χ π) (all : List Address) :
    Cleaned net w all [] ({}, []) [] w :=
  ⟨.refl w, by simp, by simp, by simp, by simp⟩

/-- The instructions about an account among those that close some accounts. -/
theorem mem_about_closeInstructions {payer a : Address} {accounts : List Address}
    {i : ProofInstruction π} (hi : i ∈ (closeInstructions payer accounts).filterMap (·.about a)) :
    i = .closeContextState a payer payer ∧ a ∈ accounts := by
  obtain ⟨hmem, rfl⟩ := mem_filterMap_about.mp hi
  obtain ⟨b, hb, heq⟩ := List.mem_map.mp hmem
  obtain rfl := Instruction.proof.inj heq
  exact ⟨rfl, hb⟩

theorem about_closeInstructions_ne_nil {payer a : Address} {accounts : List Address}
    (ha : a ∈ accounts) :
    (closeInstructions payer accounts : List (Instruction π)).filterMap (·.about a) ≠ [] := by
  refine List.ne_nil_of_mem (a := .closeContextState a payer payer) ?_
  exact mem_filterMap_about.mpr ⟨List.mem_map.mpr ⟨a, ha, rfl⟩, rfl⟩

section Closing

variable {net : Network χ π} {w w₁ w' : World χ π} {all done done' batch : List Address}
  {outcome outcome' : ProofAccounts × List Signature} {landed landed' : List (Landing π)}
  {payer : Address} {r : Except Error Signature}

/-- One more sending, which may add its accounts to those closed if it succeeded. -/
theorem Cleaned.sent (h : Cleaned net w all done outcome landed w₁)
    (hsent : Sent net (closeInstructions payer batch) w₁ landed' r w') (hbatch : batch ⊆ all)
    (hclosed : ∀ a ∈ outcome'.1.closed,
      a ∈ outcome.1.closed ∨ (a ∈ batch ∧ ∃ signature, r = .ok signature))
    (haccounted : ∀ a ∈ done', a ∈ outcome'.1.closed ∨ a ∈ outcome'.1.leftOpen)
    (hsubset : outcome'.1.leftOpen ⊆ all) :
    Cleaned net w all done' outcome' (landed ++ landed') w' where
  lands := h.lands.trans hsent.lands
  closes a i hi := by
    rw [List.map_append, List.flatten_append, List.filterMap_append, List.mem_append] at hi
    rcases hi with hi | hi
    · exact h.closes a i hi
    · obtain ⟨rfl, hin⟩ := mem_about_closeInstructions (hsent.about hi)
      exact ⟨rfl, hbatch hin⟩
  closed a ha hnil := by
    rw [List.map_append, List.flatten_append, List.filterMap_append, List.append_eq_nil_iff] at hnil
    rcases hclosed a ha with ha | ⟨ha, signature, rfl⟩
    · exact h.closed a ha hnil.1
    · obtain ⟨untold, tx, rfl, -, -⟩ := hsent.outcome
      have hlast := hnil.2
      rw [List.map_append, List.flatten_append, List.filterMap_append, List.append_eq_nil_iff,
        List.map_singleton, List.flatten_singleton,
        (hsent.priced ⟨tx, none⟩ (by simp)).about] at hlast
      exact about_closeInstructions_ne_nil ha hlast.2
  accounted := haccounted
  subset := hsubset

theorem closeOne_cleaned {a : Address} (ha : a ∈ all)
    (h : ∃ landed, Cleaned net w all done outcome landed w₁) :
    (closeOne s net kit outcome a).wp (fun r w' => ∃ outcome', r = .ok outcome' ∧
      ∃ landed, Cleaned net w all (done ++ [a]) outcome' landed w') w₁ := by
  obtain ⟨landed, h⟩ := h
  have hadd : ∀ b ∈ done ++ [a], (b ∈ outcome.1.closed ∨ b ∈ outcome.1.leftOpen) ∨ b = a := by
    intro b hb
    exact (List.mem_append.mp hb).imp (h.accounted b) List.mem_singleton.mp
  unfold closeOne
  rw [Effect.wp_bind, Effect.wp_attempt]
  refine (s.send_wp net kit (closeInstructions s.payer [a]) [] _ w₁).mono fun r w' hsent => ?_
  obtain ⟨landed', hsent⟩ := hsent
  cases r with
  | ok signature =>
    refine ⟨_, rfl, _, h.sent hsent (by simpa using ha) (fun b hb => ?_) (fun b hb => ?_) h.subset⟩
    · exact (List.mem_append.mp hb).imp id fun hb => ⟨hb, _, rfl⟩
    · rcases hadd b hb with (hclosed | hopen) | rfl
      · exact .inl (List.mem_append_left _ hclosed)
      · exact .inr hopen
      · exact .inl (by simp)
  | error e =>
    refine ⟨_, rfl, _, h.sent hsent (by simpa using ha) (fun b hb => .inl hb) (fun b hb => ?_)
      (List.append_subset.mpr ⟨h.subset, by simpa using ha⟩)⟩
    rcases hadd b hb with (hclosed | hopen) | rfl
    · exact .inl hclosed
    · exact .inr (List.mem_append_left _ hopen)
    · exact .inr (by simp)

theorem closeBatch_cleaned (hbatch : batch ⊆ all)
    (h : ∃ landed, Cleaned net w all done outcome landed w₁) :
    (closeBatch s net kit outcome batch).wp (fun r w' => ∃ outcome', r = .ok outcome' ∧
      ∃ landed, Cleaned net w all (done ++ batch) outcome' landed w') w₁ := by
  obtain ⟨landed, h⟩ := h
  have hadd : ∀ b ∈ done ++ batch, (b ∈ outcome.1.closed ∨ b ∈ outcome.1.leftOpen) ∨ b ∈ batch :=
    fun b hb => (List.mem_append.mp hb).imp_left (h.accounted b)
  unfold closeBatch
  rw [Effect.wp_bind, Effect.wp_attempt]
  refine (s.send_wp net kit (closeInstructions s.payer batch) [] _ w₁).mono fun r w₂ hsent => ?_
  obtain ⟨landed', hsent⟩ := hsent
  cases r with
  | ok signature =>
    refine ⟨_, rfl, _, h.sent hsent hbatch (fun b hb => ?_) (fun b hb => ?_) h.subset⟩
    · exact (List.mem_append.mp hb).imp id fun hb => ⟨hb, _, rfl⟩
    · rcases hadd b hb with (hclosed | hopen) | hb
      · exact .inl (List.mem_append_left _ hclosed)
      · exact .inr hopen
      · exact .inl (List.mem_append_right _ hb)
  | error e =>
    have hfailed : Cleaned net w all done outcome (landed ++ landed') w₂ :=
      h.sent hsent hbatch (fun b hb => .inl hb) h.accounted h.subset
    simp only
    split
    · -- One by one: the accounts done grow by a prefix of the batch.
      refine Effect.wp.foldlM (I := fun part outcome' w' =>
          ∃ landed, Cleaned net w all (done ++ part) outcome' landed w')
        (fun part a rest outcome' w' hpart hcleaned => ?_) (List.nil_append batch).symm ?_
      · rw [← List.append_assoc]
        exact closeOne_cleaned s kit (hbatch (by simp [hpart])) hcleaned
      · exact ⟨_, by simpa using hfailed⟩
    · refine ⟨_, rfl, _, h.sent hsent hbatch (fun b hb => .inl hb) (fun b hb => ?_)
        (List.append_subset.mpr ⟨h.subset, hbatch⟩)⟩
      rcases hadd b hb with (hclosed | hopen) | hb
      · exact .inl hclosed
      · exact .inr (List.mem_append_left _ hopen)
      · exact .inr (List.mem_append_right _ hb)

end Closing

/-- However its sendings end, closing accounts for every account, and closes those it says it has. -/
theorem closeProofAccounts_cleaned (accounts : List Address) (w : World χ π) :
    (closeProofAccounts s net kit accounts).wp (fun r w' => ∃ outcome, r = .ok outcome ∧
      ∃ landed, Cleaned net w accounts accounts outcome landed w') w := by
  have hflat := List.flatten_batches (n := closesPerTransaction) (by decide) accounts
  refine (Effect.wp.foldlM (I := fun batches outcome w' =>
      ∃ landed, Cleaned net w accounts batches.flatten outcome landed w')
    (fun batches batch rest outcome w' hall hcleaned => ?_) (List.nil_append _).symm
      ⟨_, .nil net w accounts⟩).mono fun r w' h => ?_
  · rw [List.flatten_append, List.flatten_singleton]
    refine closeBatch_cleaned s kit (fun a ha => ?_) hcleaned
    rw [← hflat, hall]
    simp [ha]
  · rwa [hflat] at h

end Rust
