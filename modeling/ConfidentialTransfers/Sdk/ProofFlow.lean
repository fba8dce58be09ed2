-- SUMMARY: Building the proofs and the instructions of a confidential transfer or withdraw.
import ConfidentialTransfers.Sdk.Accounts

/-!
# Proof flows

`internal/confidentialTransferArithmetic.ts` and
`internal/confidentialTransferProof.ts`. The proofs of a flow are computed first
(`transferProofs`, `withdrawProofs`), then a proof account is made for each.
-/

open Solana TwistedElGamal

namespace Sdk

variable {χ F G : Type} [CommRing F] [AddCommGroup G] [Module F G]

/-! ## Ciphertext arithmetic on bytes -/

section Arithmetic

variable (zk : ZkSdk F G)

def pointFromBytes (bytes : Bytes) : Except String G :=
  match zk.pointFromBytes bytes with
  | some p => .ok p
  | none => .error "invalid ristretto255 encoding"

/-- `bytes.slice(start, stop)`. -/
def slice (bytes : Bytes) (start stop : Nat) : Bytes := (bytes.drop start).take (stop - start)

def ciphertextToPoints (ciphertext : Bytes) : Except String (ElGamalCiphertext G) := do
  if ciphertext.length ≠ 64 then
    throw ("Expected 64 ciphertext bytes, got " ++ toString ciphertext.length ++ ".")
  let commitment ← pointFromBytes zk (slice ciphertext 0 32)
  let handle ← pointFromBytes zk (slice ciphertext 32 64)
  pure (commitment, handle)

/-- Extract the ciphertext with one of the handles of a grouped ciphertext. -/
def extractCiphertextFromGroupedBytes (groupedCiphertext : Bytes) (handleIndex : Nat) :
    Except String Bytes :=
  let start := 32 + handleIndex * 32
  let stop := start + 32
  if groupedCiphertext.length < stop then
    .error ("Grouped ciphertext does not contain handle " ++ toString handleIndex ++ ".")
  else
    .ok (slice groupedCiphertext 0 32 ++ slice groupedCiphertext start stop)

def subtractCiphertexts (left right : Bytes) : Except String Bytes := do
  let leftPoints ← ciphertextToPoints zk left
  let rightPoints ← ciphertextToPoints zk right
  pure (zk.ciphertextToBytes (leftPoints.1 - rightPoints.1, leftPoints.2 - rightPoints.2))

def combineLoHiCiphertexts (ciphertextLo ciphertextHi : Bytes) (bitLength : Nat) :
    Except String Bytes := do
  let scale := 1 <<< bitLength
  let loPoints ← ciphertextToPoints zk ciphertextLo
  let hiPoints ← ciphertextToPoints zk ciphertextHi
  pure (zk.ciphertextToBytes (loPoints.1 + scale • hiPoints.1, loPoints.2 + scale • hiPoints.2))

/-- Combine the halves (`hi << bitLength + lo`) and subtract the result from `left`. -/
def subtractWithLoHiCiphertexts (left ciphertextLo ciphertextHi : Bytes) (bitLength : Nat) :
    Except String Bytes := do
  subtractCiphertexts zk left (← combineLoHiCiphertexts zk ciphertextLo ciphertextHi bitLength)

/-- Subtract a plaintext amount: the commitment moves, the decryption handle stays. -/
def subtractAmountFromCiphertext (ciphertext : Bytes) (amount : Int) : Except String Bytes := do
  if amount ≤ 0 then
    throw ("amount must be greater than zero, got " ++ toString amount ++ ".")
  let points ← ciphertextToPoints zk ciphertext
  pure (zk.ciphertextToBytes (points.1 - amount.toNat • zk.g, points.2))

end Arithmetic

/-! ## Checks and small steps -/

def transferAmountLoBitLength : Nat := 16
def transferAmountHiBitLength : Nat := 32
def remainingBalanceBitLength : Nat := 64
def rangeProofPaddingBitLength : Nat := 16

/-- Max confidential-transfer amount: lo (16 bits) + hi (32 bits) = 2^48 - 1. -/
def maxTransferAmount : Int := (1 <<< (transferAmountLoBitLength + transferAmountHiBitLength)) - 1

def getRequiredConfidentialTransferAccountExtension (tokenAccount : Token) :
    Except Thrown ConfidentialTransferAccountState :=
  match tokenAccount.extensions with
  | none => .error (.sdk (.new .accountNotConfigured "Token account is missing extensions."))
  | some _ =>
    match confidentialState tokenAccount with
    | none => .error (.sdk (.new .accountNotConfigured
        "Token account is missing the ConfidentialTransferAccount extension."))
    | some extension => .ok extension

def parseAeCiphertext (bytes : Bytes) : Except Thrown Bytes :=
  match ZkSdk.aeCiphertextFromBytes bytes with
  | some c => .ok c
  | none => .error (.sdk (.new .decryptionFailed
      "Failed to deserialize an authenticated-encryption ciphertext."))

def parseElGamalCiphertext (zk : ZkSdk F G) (bytes : Bytes) : Except Thrown (ElGamalCiphertext G) :=
  match zk.ciphertextFromBytes bytes with
  | some c => .ok c
  | none => .error (.sdk (.new .decryptionFailed "Failed to deserialize an ElGamal ciphertext."))

def elGamalPubkeyFromBytes (zk : ZkSdk F G) (bytes : Bytes) : Except Thrown G :=
  match zk.pubkeyFromBytes bytes with
  | some p => .ok p
  | none => .error (.other "invalid ElGamal public key")

def getElGamalPubkeyFromAddress (zk : ZkSdk F G) (value : Address) : Except Thrown G :=
  elGamalPubkeyFromBytes zk (zk.addressToBytes value)

/-- The key that stands for no auditor: 32 zero bytes. -/
def getDefaultAuditorElGamalPubkey (zk : ZkSdk F G) : Except Thrown G :=
  elGamalPubkeyFromBytes zk (List.replicate 32 0)

def splitAmount (amount bitLength : Nat) : Nat × Nat :=
  let mask := (1 <<< bitLength) - 1
  (amount &&& mask, amount >>> bitLength)

def decryptAvailableBalance (zk : ZkSdk F G) (account : ConfidentialTransferAccountState)
    (aesKey : Bytes) : Except Thrown Nat := do
  let ciphertext ← parseAeCiphertext account.decryptableAvailableBalance
  (zk.aeDecrypt aesKey ciphertext).mapError .other

def assertNonNegativeAmount (amount : Int) : Except Thrown Unit :=
  if amount < 0 then .error (.sdk (.new .invalidInput "Amount must be non-negative.")) else .ok ()

def assertTransferableAmount (amount : Int) : Except Thrown Unit :=
  if amount > maxTransferAmount then
    .error (.sdk (.new .amountTooLarge
      ("amount " ++ toString amount ++ " exceeds the confidential-transfer maximum of " ++
        toString maxTransferAmount ++ " (2^48-1)")))
  else .ok ()

def computeNewAvailableBalance (currentBalance : Nat) (amount : Int) : Except Thrown Nat := do
  assertNonNegativeAmount amount
  let newBalance := (currentBalance : Int) - amount
  if newBalance < 0 then
    throw (.sdk (.new .insufficientFunds
      ("Insufficient funds: the confidential available balance is " ++ toString currentBalance ++
        ", the amount is " ++ toString amount ++ ".")))
  pure newBalance.toNat

/-! ## The proofs -/

/-- What a transfer draws at random: the Pedersen openings and the nonce of the new AES balance. -/
structure TransferRandomness (F : Type) where
  openingLo : F
  openingHi : F
  newAvailableBalanceOpening : F
  paddingOpening : F
  nonce : Nat

structure TransferProofInput (F : Type) [CommRing F] where
  sourceTokenAccount : Token
  destinationTokenAccount : Option Token := none
  destinationElgamalPubkey : Option Address := none
  auditorElgamalPubkey : Option Address := none
  amount : Int
  keys : ConfidentialKeypairs F

def getDestinationElGamalPubkey (zk : ZkSdk F G) (input : TransferProofInput F) : Except Thrown G :=
  match input.destinationElgamalPubkey, input.destinationTokenAccount with
  | some pubkey, _ => getElGamalPubkeyFromAddress zk pubkey
  | none, none =>
    .error (.sdk (.new .invalidInput "Destination confidential transfer state is required."))
  | none, some account => do
    let extension ← getRequiredConfidentialTransferAccountExtension account
    getElGamalPubkeyFromAddress zk extension.elgamalPubkey

/-- The auditor's public key of a transfer: the one given, or the key that stands for none. -/
def auditorPubkeyOf (zk : ZkSdk F G) (auditorElgamalPubkey : Option Address) : Except Thrown G :=
  match auditorElgamalPubkey with
  | some auditor => getElGamalPubkeyFromAddress zk auditor
  | none => getDefaultAuditorElGamalPubkey zk

/-- The three proofs of a transfer, and what goes into its instruction. -/
structure TransferProofs (F G : Type) [CommRing F] where
  equality : EqualityProof F G
  ciphertextValidity : ValidityProof F G
  range : RangeProof F G
  newSourceDecryptableAvailableBalance : Bytes
  transferAmountAuditorCiphertextLo : Bytes
  transferAmountAuditorCiphertextHi : Bytes

/-- The first half of `getConfidentialTransferProofFlow`. -/
def transferProofs (zk : ZkSdk F G) (random : TransferRandomness F) (input : TransferProofInput F) :
    Except Thrown (TransferProofs F G) := do
  let sourceAccount ← getRequiredConfidentialTransferAccountExtension input.sourceTokenAccount
  assertNonNegativeAmount input.amount
  assertTransferableAmount input.amount
  let halves := splitAmount input.amount.toNat transferAmountLoBitLength
  let transferAmountLo := halves.1
  let transferAmountHi := halves.2
  let sourcePubkey := pubkey zk.toPedersenBasis input.keys.elgamalSecret
  let destinationPubkey ← getDestinationElGamalPubkey zk input
  let auditorPubkey ← auditorPubkeyOf zk input.auditorElgamalPubkey
  let groupedCiphertextLo := zk.groupedEncryptWith sourcePubkey destinationPubkey auditorPubkey
    transferAmountLo random.openingLo
  let groupedCiphertextHi := zk.groupedEncryptWith sourcePubkey destinationPubkey auditorPubkey
    transferAmountHi random.openingHi
  let loBytes := zk.groupedToBytes groupedCiphertextLo
  let hiBytes := zk.groupedToBytes groupedCiphertextHi
  let sourceLo ← (extractCiphertextFromGroupedBytes loBytes 0).mapError .other
  let sourceHi ← (extractCiphertextFromGroupedBytes hiBytes 0).mapError .other
  let auditorLo ← (extractCiphertextFromGroupedBytes loBytes 2).mapError .other
  let auditorHi ← (extractCiphertextFromGroupedBytes hiBytes 2).mapError .other
  let currentBalance ← decryptAvailableBalance zk sourceAccount input.keys.aesKey
  let newAvailableBalance ← computeNewAvailableBalance currentBalance input.amount
  let newAvailableBalanceCommitment :=
    commit zk.toPedersenBasis newAvailableBalance random.newAvailableBalanceOpening
  let newAvailableBalanceBytes ← (subtractWithLoHiCiphertexts zk sourceAccount.availableBalance
    sourceLo sourceHi transferAmountLoBitLength).mapError .other
  let newAvailableBalanceCiphertext ← parseElGamalCiphertext zk newAvailableBalanceBytes
  let commitmentLo ← (pointFromBytes zk (slice loBytes 0 32)).mapError .other
  let commitmentHi ← (pointFromBytes zk (slice hiBytes 0 32)).mapError .other
  pure {
    equality :=
      { secret := input.keys.elgamalSecret
        ciphertext := newAvailableBalanceCiphertext
        commitment := newAvailableBalanceCommitment
        opening := random.newAvailableBalanceOpening
        amount := newAvailableBalance }
    ciphertextValidity :=
      { sourcePubkey, destinationPubkey, auditorPubkey, groupedCiphertextLo, groupedCiphertextHi
        amountLo := transferAmountLo
        amountHi := transferAmountHi
        openingLo := random.openingLo
        openingHi := random.openingHi }
    range :=
      { commitments := [newAvailableBalanceCommitment, commitmentLo, commitmentHi,
          commit zk.toPedersenBasis 0 random.paddingOpening]
        amounts := [newAvailableBalance, transferAmountLo, transferAmountHi, 0]
        bitLengths := [remainingBalanceBitLength, transferAmountLoBitLength,
          transferAmountHiBitLength, rangeProofPaddingBitLength]
        openings := [random.newAvailableBalanceOpening, random.openingLo, random.openingHi,
          random.paddingOpening] }
    newSourceDecryptableAvailableBalance :=
      zk.aeEncrypt input.keys.aesKey random.nonce newAvailableBalance
    transferAmountAuditorCiphertextLo := auditorLo
    transferAmountAuditorCiphertextHi := auditorHi }

/-- What a withdraw draws at random. -/
structure WithdrawRandomness (F : Type) where
  remainingBalanceOpening : F
  nonce : Nat

structure WithdrawProofInput (F : Type) [CommRing F] where
  tokenAccount : Token
  amount : Int
  keys : ConfidentialKeypairs F

/-- The two proofs of a withdraw, and what goes into its instruction. -/
structure WithdrawProofs (F G : Type) [CommRing F] where
  equality : EqualityProof F G
  range : RangeProof F G
  newDecryptableAvailableBalance : Bytes

def assertPositiveWithdraw (amount : Int) : Except Thrown Unit :=
  if amount ≤ 0 then
    .error (.sdk (.new .invalidInput
      ("withdraw amount must be greater than zero, got " ++ toString amount)))
  else .ok ()

/-- The first half of `getConfidentialWithdrawProofFlow`. -/
def withdrawProofs (zk : ZkSdk F G) (random : WithdrawRandomness F) (input : WithdrawProofInput F) :
    Except Thrown (WithdrawProofs F G) := do
  let account ← getRequiredConfidentialTransferAccountExtension input.tokenAccount
  assertPositiveWithdraw input.amount
  let currentBalance ← decryptAvailableBalance zk account input.keys.aesKey
  let newAvailableBalance ← computeNewAvailableBalance currentBalance input.amount
  let remainingBalanceCommitment :=
    commit zk.toPedersenBasis newAvailableBalance random.remainingBalanceOpening
  let remainingBalanceBytes ←
    (subtractAmountFromCiphertext zk account.availableBalance input.amount).mapError .other
  let remainingBalanceCiphertext ← parseElGamalCiphertext zk remainingBalanceBytes
  pure {
    equality :=
      { secret := input.keys.elgamalSecret
        ciphertext := remainingBalanceCiphertext
        commitment := remainingBalanceCommitment
        opening := random.remainingBalanceOpening
        amount := newAvailableBalance }
    range :=
      { commitments := [remainingBalanceCommitment]
        amounts := [newAvailableBalance]
        bitLengths := [remainingBalanceBitLength]
        openings := [random.remainingBalanceOpening] }
    newDecryptableAvailableBalance := zk.aeEncrypt input.keys.aesKey random.nonce newAvailableBalance }

/-! ## Proof accounts and flows -/

variable (net : Network χ (ProofData F G)) (kit : Kit (ProofData F G))

/-- kit's `generateKeyPairSigner`. -/
def generateKeyPairSigner : Effect (World χ (ProofData F G)) Thrown Address := fun w =>
  (.ok (kit.generateKeyPair w.keyPairs), { w with keyPairs := w.keyPairs + 1 })

/-- The setup and cleanup of one proof's account. -/
structure ContextStateProofPlan (π : Type) where
  address : Address
  setup : Plan (ProofInstruction π)
  cleanup : ProofInstruction π

/-- Create the proof account and verify the proof into it; the payer is its authority. -/
def contextStateProofPlan (payer contextAccount : Address) (lamports : Nat) (proof : ProofData F G) :
    ContextStateProofPlan (ProofData F G) where
  address := contextAccount
  setup := .sequence [.createAccount contextAccount lamports, .verifyProof proof contextAccount payer]
  cleanup := closeContextStateProof payer contextAccount

def buildContextStateProofPlan (payer : Address) (proof : ProofData F G) :
    Effect (World χ (ProofData F G)) Thrown (ContextStateProofPlan (ProofData F G)) := do
  let contextAccount ← generateKeyPairSigner kit
  let lamports ← Effect.mapError .other
    (net.request .getMinimumBalanceForRentExemption fun _ _ => net.rentExemption)
  pure (contextStateProofPlan payer contextAccount lamports proof)

/-- A flow over these proof accounts. -/
def proofFlowOf (plans : List (ContextStateProofPlan (ProofData F G))) (action : Action) :
    ProofFlow (ProofData F G) where
  proofAccounts := plans.map (·.address)
  setup := .parallel (plans.map (·.setup))
  action := action
  cleanup := plans.map (·.cleanup)

structure TransferFlowInput (F : Type) [CommRing F] extends TransferProofInput F where
  sourceToken : Address
  mint : Address
  destinationToken : Address
  authority : Address
  transferHookAccounts : List ResolvedAccount := []
  programAddress : Option Address := none
  payer : Address

/-- The transfer instruction over three proof accounts. -/
def confidentialTransferAction (input : TransferFlowInput F) (proofs : TransferProofs F G) (ref : Nat)
    (equalityRecord ciphertextValidityRecord rangeRecord : Address) : Action where
  ref := ref
  programAddress := input.programAddress.getD token2022ProgramAddress
  call := .transfer
    { sourceToken := input.sourceToken
      mint := input.mint
      destinationToken := input.destinationToken
      equalityRecord, ciphertextValidityRecord, rangeRecord
      authority := input.authority
      newSourceDecryptableAvailableBalance := proofs.newSourceDecryptableAvailableBalance
      transferAmountAuditorCiphertextLo := proofs.transferAmountAuditorCiphertextLo
      transferAmountAuditorCiphertextHi := proofs.transferAmountAuditorCiphertextHi
      transferHookAccounts := input.transferHookAccounts }

/-- `random n` is what the SDK draws when `n` requests have been made. The `Promise.all` over the proof
    accounts runs one after the other. -/
def getConfidentialTransferProofFlow (zk : ZkSdk F G) (random : Nat → TransferRandomness F)
    (input : TransferFlowInput F) :
    Effect (World χ (ProofData F G)) Thrown (ProofFlow (ProofData F G)) := do
  let w ← Effect.get
  let proofs ← Effect.ofExcept (transferProofs zk (random w.clock) input.toTransferProofInput)
  let equality ← buildContextStateProofPlan net kit input.payer
    (.ciphertextCommitmentEquality proofs.equality)
  let ciphertextValidity ← buildContextStateProofPlan net kit input.payer
    (.batchedGroupedCiphertext3HandlesValidity proofs.ciphertextValidity)
  let range ← buildContextStateProofPlan net kit input.payer (.batchedRangeU128 proofs.range)
  -- A new object: its identity is the number of its first key pair.
  let ref := w.keyPairs
  pure (proofFlowOf [equality, ciphertextValidity, range]
    (confidentialTransferAction input proofs ref equality.address ciphertextValidity.address
      range.address))

structure WithdrawFlowInput (F : Type) [CommRing F] extends WithdrawProofInput F where
  token : Address
  mint : Address
  authority : Address
  decimals : Nat
  programAddress : Option Address := none
  payer : Address

/-- The withdraw instruction over two proof accounts. -/
def confidentialWithdrawAction (input : WithdrawFlowInput F) (proofs : WithdrawProofs F G) (ref : Nat)
    (equalityRecord rangeRecord : Address) : Action where
  ref := ref
  programAddress := input.programAddress.getD token2022ProgramAddress
  call := .withdraw
    { token := input.token
      mint := input.mint
      equalityRecord, rangeRecord
      authority := input.authority
      amount := input.amount.toNat
      decimals := input.decimals
      newDecryptableAvailableBalance := proofs.newDecryptableAvailableBalance }

def getConfidentialWithdrawProofFlow (zk : ZkSdk F G) (random : Nat → WithdrawRandomness F)
    (input : WithdrawFlowInput F) :
    Effect (World χ (ProofData F G)) Thrown (ProofFlow (ProofData F G)) := do
  let w ← Effect.get
  let proofs ← Effect.ofExcept (withdrawProofs zk (random w.clock) input.toWithdrawProofInput)
  let equality ← buildContextStateProofPlan net kit input.payer
    (.ciphertextCommitmentEquality proofs.equality)
  let range ← buildContextStateProofPlan net kit input.payer (.batchedRangeU64 proofs.range)
  let ref := w.keyPairs
  pure (proofFlowOf [equality, range]
    (confidentialWithdrawAction input proofs ref equality.address range.address))

/-! ## Building a flow -/

/-- From `w` to `w'` only key pairs were generated: `n` of them. -/
structure Generated (n : Nat) (w w' : World χ (ProofData F G)) : Prop where
  chain : w'.chain = w.chain
  keyPairs : w'.keyPairs = w.keyPairs + n
  events : w'.events = w.events

omit [AddCommGroup G] [Module F G] in
theorem Generated.trans {m n : Nat} {w w' w'' : World χ (ProofData F G)} (h : Generated m w w')
    (h' : Generated n w' w'') : Generated (m + n) w w'' where
  chain := h'.chain.trans h.chain
  keyPairs := by rw [h'.keyPairs, h.keyPairs, Nat.add_assoc]
  events := h'.events.trans h.events

omit [AddCommGroup G] [Module F G] in
theorem Generated.keyPairs_le {n : Nat} {w w' : World χ (ProofData F G)} (h : Generated n w w') :
    w.keyPairs ≤ w'.keyPairs := by
  rw [h.keyPairs]
  exact Nat.le_add_right _ _

/-- The network refused to say what a proof account costs. -/
def RentRefused (e : Thrown) : Prop :=
  ∃ n message, net.refused n .getMinimumBalanceForRentExemption = some message ∧ e = .other message

omit [AddCommGroup G] [Module F G] in
/-- A proof account is the one of the next key pair; its rent is asked for. -/
theorem buildContextStateProofPlan_wp (payer : Address) (proof : ProofData F G)
    {w : World χ (ProofData F G)}
    {Q : Except Thrown (ContextStateProofPlan (ProofData F G)) → World χ (ProofData F G) → Prop}
    (herr : ∀ e w', RentRefused net e → Generated 1 w w' → Q (.error e) w')
    (hok : ∀ w', Generated 1 w w' →
      Q (.ok (contextStateProofPlan payer (kit.generateKeyPair w.keyPairs) net.rentExemption proof)) w') :
    (buildContextStateProofPlan net kit payer proof).wp Q w := by
  unfold buildContextStateProofPlan
  rw [Effect.wp_bind]
  refine (Effect.wp_iff_run (m := generateKeyPairSigner kit) rfl).mpr ?_
  simp only
  rw [Effect.wp_bind, Effect.wp_mapError]
  exact net.request_wp (fun message hrefused => herr _ _ ⟨_, message, hrefused, rfl⟩ ⟨rfl, rfl, rfl⟩)
    (hok _ ⟨rfl, rfl, rfl⟩)

/-- The flow of a transfer whose proof accounts are key pairs `k`, `k + 1` and `k + 2`. -/
def transferFlow (input : TransferFlowInput F) (proofs : TransferProofs F G) (k : Nat) :
    ProofFlow (ProofData F G) :=
  let address := kit.generateKeyPair
  let plan := fun i proof => contextStateProofPlan input.payer (address i) net.rentExemption proof
  proofFlowOf
    [plan k (.ciphertextCommitmentEquality proofs.equality),
      plan (k + 1) (.batchedGroupedCiphertext3HandlesValidity proofs.ciphertextValidity),
      plan (k + 2) (.batchedRangeU128 proofs.range)]
    (confidentialTransferAction input proofs k (address k) (address (k + 1)) (address (k + 2)))

/-- Building a transfer's flow fails with its proofs or for a refused request, or gives the flow over the next three key pairs. -/
theorem getConfidentialTransferProofFlow_wp (zk : ZkSdk F G) (random : Nat → TransferRandomness F)
    (input : TransferFlowInput F) (w : World χ (ProofData F G)) :
    (getConfidentialTransferProofFlow net kit zk random input).wp (fun r w' =>
      match r with
      | .error e => (∃ n, Generated n w w') ∧
          (transferProofs zk (random w.clock) input.toTransferProofInput = .error e ∨ RentRefused net e)
      | .ok flow => Generated 3 w w' ∧ ∃ proofs,
          transferProofs zk (random w.clock) input.toTransferProofInput = .ok proofs ∧
          flow = transferFlow net kit input proofs w.keyPairs) w := by
  unfold getConfidentialTransferProofFlow
  rw [Effect.wp_bind, Effect.wp_get]
  simp only
  rw [Effect.wp_bind, Effect.wp_ofExcept]
  cases hproofs : transferProofs zk (random w.clock) input.toTransferProofInput with
  | error e => exact ⟨⟨0, rfl, rfl, rfl⟩, .inl rfl⟩
  | ok proofs =>
    simp only
    rw [Effect.wp_bind]
    refine buildContextStateProofPlan_wp net kit _ _ (fun _ _ hrent h => ⟨⟨_, h⟩, .inr hrent⟩) fun w₁ h₁ => ?_
    simp only
    rw [Effect.wp_bind]
    refine buildContextStateProofPlan_wp net kit _ _ (fun _ _ hrent h => ⟨⟨_, h₁.trans h⟩, .inr hrent⟩) fun w₂ h₂ => ?_
    simp only
    rw [Effect.wp_bind]
    refine buildContextStateProofPlan_wp net kit _ _ (fun _ _ hrent h =>
      ⟨⟨_, (h₁.trans h₂).trans h⟩, .inr hrent⟩) fun w₃ h₃ => ?_
    refine ⟨(h₁.trans h₂).trans h₃, proofs, rfl, ?_⟩
    rw [h₂.keyPairs, h₁.keyPairs]
    rfl

/-- The flow of a withdraw whose proof accounts are key pairs `k` and `k + 1`. -/
def withdrawFlow (input : WithdrawFlowInput F) (proofs : WithdrawProofs F G) (k : Nat) :
    ProofFlow (ProofData F G) :=
  let address := kit.generateKeyPair
  let plan := fun i proof => contextStateProofPlan input.payer (address i) net.rentExemption proof
  proofFlowOf
    [plan k (.ciphertextCommitmentEquality proofs.equality), plan (k + 1) (.batchedRangeU64 proofs.range)]
    (confidentialWithdrawAction input proofs k (address k) (address (k + 1)))

/-- Building a withdraw's flow fails with its proofs or for a refused request, or gives the flow over the next two key pairs. -/
theorem getConfidentialWithdrawProofFlow_wp (zk : ZkSdk F G) (random : Nat → WithdrawRandomness F)
    (input : WithdrawFlowInput F) (w : World χ (ProofData F G)) :
    (getConfidentialWithdrawProofFlow net kit zk random input).wp (fun r w' =>
      match r with
      | .error e => (∃ n, Generated n w w') ∧
          (withdrawProofs zk (random w.clock) input.toWithdrawProofInput = .error e ∨ RentRefused net e)
      | .ok flow => Generated 2 w w' ∧ ∃ proofs,
          withdrawProofs zk (random w.clock) input.toWithdrawProofInput = .ok proofs ∧
          flow = withdrawFlow net kit input proofs w.keyPairs) w := by
  unfold getConfidentialWithdrawProofFlow
  rw [Effect.wp_bind, Effect.wp_get]
  simp only
  rw [Effect.wp_bind, Effect.wp_ofExcept]
  cases hproofs : withdrawProofs zk (random w.clock) input.toWithdrawProofInput with
  | error e => exact ⟨⟨0, rfl, rfl, rfl⟩, .inl rfl⟩
  | ok proofs =>
    simp only
    rw [Effect.wp_bind]
    refine buildContextStateProofPlan_wp net kit _ _ (fun _ _ hrent h => ⟨⟨_, h⟩, .inr hrent⟩) fun w₁ h₁ => ?_
    simp only
    rw [Effect.wp_bind]
    refine buildContextStateProofPlan_wp net kit _ _ (fun _ _ hrent h => ⟨⟨_, h₁.trans h⟩, .inr hrent⟩) fun w₂ h₂ => ?_
    refine ⟨h₁.trans h₂, proofs, rfl, ?_⟩
    rw [h₁.keyPairs]
    rfl

end Sdk
