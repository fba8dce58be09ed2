-- SUMMARY: The sending layer: simulate and send, clean up after a failed flow, retry an expired operation.
import ConfidentialTransfers.Lib.Retry
import ConfidentialTransfers.Lib.Batches
import ConfidentialTransfers.Lib.JsNumber
import ConfidentialTransfers.Solana.Network
import ConfidentialTransfers.Sdk.Errors

/-!
# Sending

`internal/send.ts`. What the SDK takes from kit (the planner, the size limit,
signing, key generation) is a `Kit`, with what the code relies on as fields.
-/

open Solana

namespace Sdk

variable {χ π : Type}

/-- The parts of kit the sending layer uses. -/
structure Kit (π : Type) where
  /-- The transaction planner, its plan flattened. -/
  plan : Plan (Instruction π) → Except String (List (Message π))
  /-- The planner packs the very instruction objects of the plan, each once, in an order the plan
      allows. -/
  plan_linearizes : ∀ {p : Plan (Instruction π)} {ms : List (Message π)},
    plan p = .ok ms → p.Linearizes (ms.flatMap (·.instructions))
  isTransactionMessageWithinSizeLimit : Message π → Bool
  /-- `signTransactionMessagesTogether`, at the given request count. -/
  signTransactionMessagesTogether :
    Nat → List (Message π) → Lifetime → Except String (List (Transaction π))
  /-- Transaction `i` is message `i`, signed. A wallet may give it another lifetime. -/
  sign_instructions : ∀ {n : Nat} {ms : List (Message π)} {l : Lifetime} {txs : List (Transaction π)},
    signTransactionMessagesTogether n ms l = .ok txs →
      txs.map (·.message.instructions) = ms.map (·.instructions)
  /-- The address of the `n`-th generated key pair. -/
  generateKeyPair : Nat → Address
  generateKeyPair_injective : Function.Injective generateKeyPair

/-- The plainest kit: every instruction in a transaction of its own, signed without fail. -/
def Kit.oneEach : Kit π where
  plan p := .ok (p.leaves.map fun i => { instructions := [i] })
  plan_linearizes := by
    intro p ms h
    obtain rfl : p.leaves.map (fun i => ({ instructions := [i] } : Message π)) = ms := by simpa using h
    rw [List.flatMap_map, List.flatMap_singleton']
    exact Plan.linearizes_leaves p
  isTransactionMessageWithinSizeLimit _ := true
  signTransactionMessagesTogether n ms _ :=
    .ok (ms.zipIdx.map fun m => { message := m.1, signature := toString n ++ "." ++ toString m.2 })
  sign_instructions := by
    intro n ms l txs h
    obtain rfl := Except.ok.inj h
    conv_rhs => rw [← List.zipIdx_map_fst 0 ms, List.map_map]
    rw [List.map_map]
    rfl
  generateKeyPair n := String.ofList (List.replicate n 'k')
  generateKeyPair_injective := fun m n h => by
    simpa using congrArg String.length h

/-- Fill a transaction after the other, as long as the next instruction has room in it. -/
def packed (fits : List (Instruction π) → Bool) (begun : List (Instruction π)) :
    List (Instruction π) → List (List (Instruction π))
  | [] => [begun]
  | i :: rest =>
    if fits (begun ++ [i]) then packed fits (begun ++ [i]) rest else begun :: packed fits [i] rest

theorem packed_flatten (fits : List (Instruction π) → Bool) (rest begun : List (Instruction π)) :
    (packed fits begun rest).flatten = begun ++ rest := by
  induction rest generalizing begun with
  | nil => simp [packed]
  | cons i rest ih =>
    unfold packed
    split
    · rw [ih, List.append_assoc, List.singleton_append]
    · rw [List.flatten_cons, ih, List.singleton_append]

/-- A kit that packs the instructions of a plan from left to right. -/
def Kit.packing (fits : List (Instruction π) → Bool) : Kit π where
  __ := Kit.oneEach
  plan p := .ok ((packed fits [] p.leaves).map fun is => { instructions := is })
  plan_linearizes := by
    intro p ms h
    obtain rfl := Except.ok.inj h
    rw [List.flatMap_map, List.flatMap_id', packed_flatten, List.nil_append]
    exact Plan.linearizes_leaves p

/-- Every message gets signed. -/
def Kit.Signs (kit : Kit π) : Prop :=
  ∀ n ms lifetime, ∃ txs, kit.signTransactionMessagesTogether n ms lifetime = .ok txs

theorem Kit.signs_oneEach : (Kit.oneEach : Kit π).Signs := fun _ _ _ => ⟨_, rfl⟩

theorem Kit.signs_packing (fits : List (Instruction π) → Bool) : (Kit.packing fits).Signs :=
  fun _ _ _ => ⟨_, rfl⟩

structure SendContext where
  /-- The address of the payer, who signs and pays. -/
  payer : Address
  /-- The SDK function, for error messages. -/
  operation : String
  computeUnitPrice : Option Nat := none

variable (net : Network χ π) (kit : Kit π)

/-- Add a priority fee to a message that has room for it. -/
def withPriorityFee (price : Option Nat) (message : Message π) : Message π :=
  match price with
  | none => message
  | some price =>
    if price = 0 then message
    else
      let priced := { message with instructions := message.instructions ++ [.setComputeUnitPrice price] }
      if kit.isTransactionMessageWithinSizeLimit priced then priced else message

def logsOf (signature : Signature) : Effect (World χ π) Thrown (Option (List String)) := do
  match ← Effect.attempt (net.request (.getTransaction signature) fun n _ => net.logMessages n signature) with
  | .ok logs => pure logs
  | .error _ => pure none

/-- Simulate, then send and wait for confirmation. -/
def simulateAndSend (ctx : SendContext) (tx : Transaction π) (step : String) :
    Effect (World χ π) Thrown Signature := do
  let simulation ← Effect.mapError .other (net.simulate tx)
  match simulation with
  | some (err, logs) =>
    Effect.throw (.sdk (.new .transactionFailed
      (ctx.operation ++ " " ++
        (if step = ctx.operation then "transaction" else "step \"" ++ step ++ "\"") ++
        " failed simulation: " ++ err ++ "\n--- program logs ---\n" ++ "\n".intercalate logs)
      { operation := some ctx.operation, step := some step, logs := some logs }))
  | none =>
    let signature := tx.signature
    match ← Effect.attempt (net.sendAndConfirm tx) with
    | .ok () => pure signature
    | .error .blockHeightExceeded =>
      Effect.throw (.sdk (.new .transactionExpired
        (ctx.operation ++ ": a transaction was not confirmed before its blockhash expired (the network may be busy; a priority fee helps). Nothing from it landed; it is safe to run again.")
        { operation := some ctx.operation, step := some step }))
    | .error e =>
      let logs ← logsOf net signature
      let reason := match e with
        | .interrupted message => message
        | _ => "transaction failed"
      Effect.throw (.sdk (.new .transactionFailed
        (ctx.operation ++ ": transaction " ++ signature ++ " failed: " ++ reason)
        { operation := some ctx.operation, step := some step, logs := logs }))

def latestLifetime : Effect (World χ π) Thrown Lifetime :=
  Effect.mapError .other (net.request .getLatestBlockhash fun n _ => net.blockhash n)

/-- Have every signer sign its transactions. -/
def signTogether (messages : List (Message π)) (lifetime : Lifetime) :
    Effect (World χ π) Thrown (List (Transaction π)) := do
  Effect.modify (World.record (.signRequest messages))
  let w ← Effect.get
  Effect.ofExcept ((kit.signTransactionMessagesTogether w.clock messages lifetime).mapError .other)

/-- One transaction: build, sign, simulate, send, confirm. -/
def sendInstructions (ctx : SendContext) (instructions : List (Instruction π)) :
    Effect (World χ π) Thrown Signature := do
  let lifetime ← latestLifetime net
  let message := withPriorityFee kit ctx.computeUnitPrice { instructions, lifetime := some lifetime }
  match ← signTogether kit [message] lifetime with
  | tx :: _ => simulateAndSend net ctx tx ctx.operation
  | [] => Effect.throw (.other "no transaction")

/-! ## Cleanup -/

def closesPerTransaction : Nat := 8

/-- `closeContextStateProof` with the payer as authority and destination. -/
def closeContextStateProof (payer contextState : Address) : ProofInstruction π :=
  .closeContextState contextState payer payer

/-- Close the batches one after the other; a batch that cannot be sent stays open. -/
def closeBatches (ctx : SendContext) : List (List Address) → Effect (World χ π) Thrown (List Address)
  | [] => pure []
  | batch :: batches => do
    let sent ← Effect.attempt (sendInstructions net kit ctx
      (batch.map fun contextState => .proof (closeContextStateProof ctx.payer contextState)))
    let closed ← closeBatches ctx batches
    match sent with
    | .ok _ => pure (batch ++ closed)
    | .error _ => pure closed

/-- Close whichever of `addresses` exist (proof accounts whose authority is the payer). -/
def closeProofAccounts (ctx : SendContext) (addresses : List Address) :
    Effect (World χ π) Thrown ProofAccounts := do
  if addresses.length = 0 then
    pure { closed := [], leftOpen := [] }
  else
    match ← Effect.attempt (net.request (.getMultipleAccounts addresses)
        fun n chain => addresses.map (net.owner n chain)) with
    | .error _ => pure { closed := [], leftOpen := addresses }
    | .ok value =>
      let existing := ((addresses.zip value).filter
        (fun a => a.2 == some zkElgamalProofProgramAddress)).map Prod.fst
      if existing.length = 0 then
        pure { closed := [], leftOpen := [] }
      else
        let cleanupCtx := { ctx with operation := ctx.operation ++ " (closing proof accounts)" }
        let closed ← closeBatches net kit cleanupCtx (existing.batches closesPerTransaction)
        pure { closed, leftOpen := existing.filter (fun a => !closed.contains a) }

/-! ## Proof flows -/

/-- The parts of a transfer or withdraw: verify the proofs into proof accounts, run the action that
    uses them, close them again. -/
structure ProofFlow (π : Type) where
  proofAccounts : List Address
  setup : Plan (ProofInstruction π)
  action : Action
  cleanup : List (ProofInstruction π)

/-- The flow as one plan: setup, then the action, then cleanup. -/
def proofFlowToPlan (flow : ProofFlow π) : Plan (Instruction π) :=
  .sequential [flow.setup.map .proof, .single (.operation flow.action),
    .unordered (flow.cleanup.map .proof)]

structure ProofFlowResult where
  signatures : List Signature
  /-- Proof accounts still open after the operation succeeded. -/
  proofAccountsLeftOpen : List Address
deriving DecidableEq, Repr

def withCleanupNote (message : String) (proofAccounts : ProofAccounts) : String :=
  if proofAccounts.leftOpen.length > 0 then
    message ++ "\n" ++ toString proofAccounts.leftOpen.length ++
      " proof account(s) could not be closed: " ++ ", ".intercalate proofAccounts.leftOpen ++
      ". recoverProofAccounts() closes them and returns their rent."
  else if proofAccounts.closed.length > 0 then
    message ++ "\nThe " ++ toString proofAccounts.closed.length ++
      " proof account(s) created before the failure were closed and their rent returned."
  else message

/-- The error a flow rejects with when the transaction of `step` threw `e`. -/
def flowError (ctx : SendContext) (step : String) (signatures : List Signature)
    (proofAccounts : ProofAccounts) (e : Thrown) : ConfidentialTransfersError :=
  let error := match e with
    | .sdk error => error
    | .other _ => .new .transactionFailed (ctx.operation ++ " failed: " ++ e.toText)
  .new error.code (withCleanupNote error.message proofAccounts)
    { operation := some ctx.operation, step := some step, logs := error.logs,
      signatures := some signatures, proofAccounts := some proofAccounts,
      retryable := some error.retryable }

/-- The name of the step transaction `i` belongs to. -/
def stepName (actionIndex : Option Nat) (actionStep : String) (i : Nat) : String :=
  match actionIndex with
  | none => "proofs"
  | some k => if i < k then "proofs" else actionStep

/-- Transaction `i` comes after the one with the action. -/
def actionLanded (actionIndex : Option Nat) (i : Nat) : Bool :=
  match actionIndex with
  | none => false
  | some k => decide (k < i)

/-- The loop of `executeProofFlow`: send the transactions from number `i` on. -/
def sendInOrder (ctx : SendContext) (flow : ProofFlow π) (actionStep : String)
    (actionIndex : Option Nat) :
    (i : Nat) → List (Transaction π) → List Signature → Effect (World χ π) Thrown ProofFlowResult
  | _, [], signatures => pure { signatures, proofAccountsLeftOpen := [] }
  | i, tx :: rest, signatures => do
    let step := stepName actionIndex actionStep i
    match ← Effect.attempt (simulateAndSend net ctx tx step) with
    | .ok signature =>
      sendInOrder ctx flow actionStep actionIndex (i + 1) rest (signatures ++ [signature])
    | .error e => do
      let proofAccounts ← closeProofAccounts net kit ctx flow.proofAccounts
      if actionLanded actionIndex i then
        -- The transfer or withdraw itself went through; only the cleanup did not.
        pure { signatures, proofAccountsLeftOpen := proofAccounts.leftOpen }
      else
        Effect.throw (.sdk (flowError ctx step signatures proofAccounts e))

/-- A transfer or withdraw: plan every transaction, sign them all together, send them in order. -/
def executeProofFlow (ctx : SendContext) (flow : ProofFlow π) (actionStep : String) :
    Effect (World χ π) Thrown ProofFlowResult := do
  let planned ← Effect.ofExcept ((kit.plan (proofFlowToPlan flow)).mapError .other)
  let actionIndex := planned.findIdx? (·.includes flow.action)
  let lifetime ← latestLifetime net
  let messages := planned.map fun m =>
    withPriorityFee kit ctx.computeUnitPrice { m with lifetime := some lifetime }
  let transactions ← signTogether kit messages lifetime
  sendInOrder net kit ctx flow actionStep actionIndex 0 transactions []

/-! ## Retries -/

/-- The policy of `withRetries`: attempt `n` failed with `e`; go on? `retries` is a JavaScript
    number, so `n >= retries` is false of `NaN`. -/
def retryAgain (retries : Option JsNumber) (n : Nat) (e : Thrown) : Bool :=
  !(JsNumber.ge (.ofNat n) (retries.getD (.ofNat 0)) || !e.retryable)

/-- Run `attempt`, again up to `retries` times while it fails with a retryable error. The loop may
    run for ever, so it carries fuel. -/
def withRetries {σ α : Type} (retries : Option JsNumber) (attempt : Effect σ Thrown α) (fuel : Nat) :
    σ → Retry.Run σ Thrown α :=
  Retry.run (retryAgain retries) attempt fuel 0

end Sdk
