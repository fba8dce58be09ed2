-- SUMMARY: A transfer's or withdraw's flow, its proofs and every reader agree on the amount.
import ConfidentialTransfers.Rust.Auditor
import ConfidentialTransfers.Sdk.Amounts
import ConfidentialTransfers.Sdk.Auditor
import ConfidentialTransfers.Sdk.ReportComplete

/-!
# Agreement on amounts

From an amount and a known balance to the flow that moves it, and from the
auditor's ciphertexts in the flow's instruction back to the amount, by each of
the three functions that read it.
-/

open Solana TwistedElGamal

namespace Sdk

variable {F G : Type} [CommRing F] [AddCommGroup G] [Module F G]

/-! ## The auditor's readings -/

/-- Whoever holds the auditor's key reads `amount` from these two ciphertexts. -/
structure AuditorReads (zk : ZkSdk F G) (secret : Fˣ) (loBytes hiBytes : Bytes) (amount : Nat) :
    Prop where
  /-- `listConfidentialActivity`, for a transfer with these ciphertexts in a served history. -/
  report : ∀ {codec : InstructionCodec} {input : ListConfidentialActivityInput F} {rpc : HistoryRpc}
    {history : List ExecutedTransaction} {fuel : Nat} {tx : ExecutedTransaction}
    {source destination : TokenAccount}, input.auditorSecret = secret →
    Serves codec (input.programAddress.getD token2022ProgramAddress) input.mint rpc history →
    input.ReadsAll → KeyAccepted zk rpc input → history.length / pageLimit < fuel →
    tx ∈ history → tx.succeeded = true →
    .transfer source destination loBytes hiBytes ∈ movementsOf input.mint tx →
    ∃ entries, listConfidentialActivity codec zk rpc input fuel = some (.ok entries) ∧
      ∃ entry ∈ entries, entry.signature = tx.signature ∧ entry.kind = .transfer ∧
        entry.fromToken = some source.address ∧ entry.toToken = some destination.address ∧
        entry.amount = some amount ∧ entry.decrypted = true
  /-- `decryptTransferAmountAsAuditor`, for a message whose confidential transfer carries them. -/
  single : ∀ {codec : InstructionCodec} {signature : Signature} {programAddress : Option Address}
    {message : FetchedTransactionMessage} {instruction : RawInstruction},
    message.instructions.find? (isConfidentialTransfer codec
      (programAddress.getD token2022ProgramAddress)
      ((message.accountKeys <|> message.staticAccountKeys).getD [])) = some instruction →
    codec.decodeConfidentialTransfer (codec.base58Encode instruction.data) = .ok (loBytes, hiBytes) →
    decryptTransferAmountAsAuditor codec zk signature secret programAddress (some message) = .ok amount
  /-- The crate's `decrypt_auditor_amount`, in `u64` arithmetic that does not overflow. -/
  rust : ∃ lo hi amountLo amountHi n, zk.ciphertextFromBytes loBytes = some lo ∧
    zk.ciphertextFromBytes hiBytes = some hi ∧ Rust.decryptU32 zk secret lo = some amountLo ∧
    Rust.decryptU32 zk secret hi = some amountHi ∧ 2 ^ 16 * amountHi.toNat < 2 ^ 64 ∧
    amountLo.toNat + 2 ^ 16 * amountHi.toNat < 2 ^ 64 ∧
    Rust.decryptAuditorAmount zk secret lo hi = .ok n ∧ n.toNat = amount

/-- The report's entry of a transfer in a served history. -/
theorem report_of_decryptHalves {zk : ZkSdk F G} {codec : InstructionCodec}
    {input : ListConfidentialActivityInput F} {rpc : HistoryRpc} {history : List ExecutedTransaction}
    {fuel : Nat} {tx : ExecutedTransaction} {source destination : TokenAccount}
    {loBytes hiBytes : Bytes} {amount : Nat}
    (hhalves : decryptHalves zk input.auditorSecret loBytes hiBytes = .ok amount)
    (hserves : Serves codec (input.programAddress.getD token2022ProgramAddress) input.mint rpc history)
    (hall : input.ReadsAll) (hkey : KeyAccepted zk rpc input)
    (hfuel : history.length / pageLimit < fuel) (htx : tx ∈ history)
    (hsucceeded : tx.succeeded = true)
    (hmovement : .transfer source destination loBytes hiBytes ∈ movementsOf input.mint tx) :
    ∃ entries, listConfidentialActivity codec zk rpc input fuel = some (.ok entries) ∧
      ∃ entry ∈ entries, entry.signature = tx.signature ∧ entry.kind = .transfer ∧
        entry.fromToken = some source.address ∧ entry.toToken = some destination.address ∧
        entry.amount = some amount ∧ entry.decrypted = true := by
  refine ⟨_, listConfidentialActivity_eq hserves hall hkey hfuel, ?_⟩
  refine ⟨_, List.mem_flatMap.mpr ⟨tx, List.mem_filter.mpr ⟨htx, hsucceeded⟩,
    List.mem_map_of_mem hmovement⟩, ?_⟩
  simp [reportedMovement, hhalves, TokenMovement.source, TokenMovement.destination]

/-- Encryptions of the two halves of an amount below 2^48 to the auditor's key. -/
theorem auditorReads_encryptWith (zk : ZkSdk F G) (secret : Fˣ) {amount lo hi : Nat} (rLo rHi : F)
    (hlo : lo < 2 ^ 16) (hsplit : lo + 2 ^ 16 * hi = amount) (hamount : amount < 2 ^ 48) :
    AuditorReads zk secret
      (zk.ciphertextToBytes (encryptWith zk.toPedersenBasis (pubkey zk.toPedersenBasis secret) lo rLo))
      (zk.ciphertextToBytes (encryptWith zk.toPedersenBasis (pubkey zk.toPedersenBasis secret) hi rHi))
      amount := by
  have hmod : amount % 2 ^ 16 = lo := by omega
  have hdiv : amount / 2 ^ 16 = hi := by omega
  have hholdsLo : Holds zk.toPedersenBasis secret
      (encryptWith zk.toPedersenBasis (pubkey zk.toPedersenBasis secret) lo rLo) (amount % 2 ^ 16) := by
    rw [hmod]
    exact Holds.encrypt secret lo rLo
  have hholdsHi : Holds zk.toPedersenBasis secret
      (encryptWith zk.toPedersenBasis (pubkey zk.toPedersenBasis secret) hi rHi) (amount / 2 ^ 16) := by
    rw [hdiv]
    exact Holds.encrypt secret hi rHi
  have hhalves := decryptHalves_of_holds zk (zk.ciphertextFromBytes_toBytes _)
    (zk.ciphertextFromBytes_toBytes _) hholdsLo hholdsHi hamount
  obtain ⟨n, hn, hnat⟩ := Rust.decryptAuditorAmount_of_holds zk hholdsLo hholdsHi hamount
  have hu64Lo : (UInt64.ofNat (amount % 2 ^ 16)).toNat = amount % 2 ^ 16 :=
    UInt64.toNat_ofNat_of_lt' (lt_of_lt_of_le (Nat.mod_lt _ (by decide)) (by decide))
  have hu64Hi : (UInt64.ofNat (amount / 2 ^ 16)).toNat = amount / 2 ^ 16 :=
    UInt64.toNat_ofNat_of_lt' (lt_of_le_of_lt (Nat.div_le_self _ _)
      (lt_of_lt_of_le hamount (by decide)))
  exact
    { report := by
        rintro codec input rpc history fuel tx source destination rfl
        exact report_of_decryptHalves hhalves
      single := fun hfind hdecode =>
        decryptTransferAmountAsAuditor_of_decryptHalves hfind hdecode hhalves
      rust := ⟨_, _, _, _, n, zk.ciphertextFromBytes_toBytes _, zk.ciphertextFromBytes_toBytes _,
        Rust.decryptU32_of_lt zk hholdsLo (by omega), Rust.decryptU32_of_lt zk hholdsHi (by omega),
        by rw [hu64Hi]; omega, by rw [hu64Lo, hu64Hi]; omega, hn, hnat⟩ }

/-! ## Flows -/

variable {χ : Type}

/-- The input asks for a transfer of `a` out of this account. The auditor's key is the given one, or the
    default if there is none. -/
structure TransferOf (zk : ZkSdk F G) (account : Token) (keys : ConfidentialKeypairs F) (a : Nat)
    (auditorPubkey : G) (input : TransferProofInput F) : Prop where
  account : input.sourceTokenAccount = account
  keys : input.keys = keys
  amount : input.amount = a
  destination : ∃ destination, getDestinationElGamalPubkey zk input = .ok destination
  auditor : auditorPubkeyOf zk input.auditorElgamalPubkey = .ok auditorPubkey

/-- The input asks for a withdraw of `a` out of this account. -/
structure WithdrawOf (account : Token) (keys : ConfidentialKeypairs F) (a : Nat)
    (input : WithdrawProofInput F) : Prop where
  account : input.tokenAccount = account
  keys : input.keys = keys
  amount : input.amount = a

/-- The proofs a flow has verified, each with the account it is verified into. -/
def ProofFlow.verified {π : Type} (flow : ProofFlow π) : List (π × Address) :=
  flow.setup.leaves.filterMap fun
    | .verifyProof proof contextAccount _ => some (proof, contextAccount)
    | _ => none

/-- The flow verifies these proofs and then runs this transfer instruction; proofs, instruction and the
    instruction's readers agree on the amount `a` and on the remaining balance `b - a`. -/
structure TransferFlowSays (zk : ZkSdk F G) (input : TransferFlowInput F) (random : TransferRandomness F)
    (auditorPubkey : G) (a b : Nat) (flow : ProofFlow (ProofData F G)) (args : ConfidentialTransferArgs)
    (proofs : TransferProofs F G) : Prop where
  call : flow.action.call = .transfer args
  tokens : args.sourceToken = input.sourceToken ∧ args.mint = input.mint ∧
    args.destinationToken = input.destinationToken
  /-- The instruction uses the accounts that the proofs are verified into. -/
  verified : flow.verified =
    [(.ciphertextCommitmentEquality proofs.equality, args.equalityRecord),
      (.batchedGroupedCiphertext3HandlesValidity proofs.ciphertextValidity, args.ciphertextValidityRecord),
      (.batchedRangeU128 proofs.range, args.rangeRecord)]
  proofs : TransferAgrees zk input.keys random auditorPubkey a b proofs
  /-- The owner's AES copy in the instruction. -/
  aes : zk.aeDecrypt input.keys.aesKey args.newSourceDecryptableAvailableBalance = .ok (b - a)
  /-- The auditor's ciphertexts in the instruction, for whoever has the auditor's secret key. -/
  auditor : ∀ secret, auditorPubkey = pubkey zk.toPedersenBasis secret →
    AuditorReads zk secret args.transferAmountAuditorCiphertextLo
      args.transferAmountAuditorCiphertextHi a

/-- The same of a withdraw; its amount is public. -/
structure WithdrawFlowSays (zk : ZkSdk F G) (input : WithdrawFlowInput F) (random : WithdrawRandomness F)
    (a b : Nat) (flow : ProofFlow (ProofData F G)) (args : ConfidentialWithdrawArgs)
    (proofs : WithdrawProofs F G) : Prop where
  call : flow.action.call = .withdraw args
  tokens : args.token = input.token ∧ args.mint = input.mint
  amount : args.amount = a
  verified : flow.verified =
    [(.ciphertextCommitmentEquality proofs.equality, args.equalityRecord),
      (.batchedRangeU64 proofs.range, args.rangeRecord)]
  proofs : WithdrawAgrees zk input.keys random a b proofs
  aes : zk.aeDecrypt input.keys.aesKey args.newDecryptableAvailableBalance = .ok (b - a)

/-- Building the flow gives one that moves `a`, which everybody agrees on, unless the network refuses
    to answer. -/
structure TransferFlowAgrees (net : Network χ (ProofData F G)) (kit : Kit (ProofData F G))
    (zk : ZkSdk F G) (random : Nat → TransferRandomness F) (input : TransferFlowInput F)
    (auditorPubkey : G) (a b : Nat) (w : World χ (ProofData F G)) : Prop where
  built : (getConfidentialTransferProofFlow net kit zk random input).wp (fun r _ =>
    match r with
    | .error e => RentRefused net e
    | .ok flow => ∃ args proofs,
        TransferFlowSays zk input (random w.clock) auditorPubkey a b flow args proofs) w

/-- Building the flow gives one that takes `a`, unless the network refuses to answer. -/
structure WithdrawFlowAgrees (net : Network χ (ProofData F G)) (kit : Kit (ProofData F G))
    (zk : ZkSdk F G) (random : Nat → WithdrawRandomness F) (input : WithdrawFlowInput F) (a b : Nat)
    (w : World χ (ProofData F G)) : Prop where
  built : (getConfidentialWithdrawProofFlow net kit zk random input).wp (fun r _ =>
    match r with
    | .error e => RentRefused net e
    | .ok flow => ∃ args proofs,
        WithdrawFlowSays zk input (random w.clock) a b flow args proofs) w

section Flows

variable (net : Network χ (ProofData F G)) (kit : Kit (ProofData F G)) {zk : ZkSdk F G}
  {account : Token} {ct : ConfidentialTransferAccountState} {keys : ConfidentialKeypairs F} {a b : Nat}

theorem transferFlow_agrees (hct : confidentialState account = some ct)
    (hb : HoldsAvailable zk keys ct b) (hbound : b < 2 ^ 64) (hpos : 0 < a) (hmax : a < 2 ^ 48)
    (hle : a ≤ b) (random : Nat → TransferRandomness F) {input : TransferFlowInput F}
    {auditorPubkey : G} (hinput : TransferOf zk account keys a auditorPubkey input.toTransferProofInput)
    (w : World χ (ProofData F G)) :
    TransferFlowAgrees net kit zk random input auditorPubkey a b w := by
  obtain ⟨destination, hdestination⟩ := hinput.destination
  have hct' : confidentialState input.sourceTokenAccount = some ct := by rw [hinput.account, hct]
  have hb' : HoldsAvailable zk input.keys ct b := by rw [hinput.keys]; exact hb
  obtain ⟨proofs, hproofs, hagrees⟩ := transferProofs_agree zk (random w.clock) hct' hb'
    hdestination hinput.auditor hinput.amount hpos hmax hle
  refine ⟨(getConfidentialTransferProofFlow_wp net kit zk random input w).mono fun r w' h => ?_⟩
  cases r with
  | error e =>
    rcases h.2 with hfail | hrent
    · rw [hproofs] at hfail
      cases hfail
    · exact hrent
  | ok flow =>
    obtain ⟨-, proofs', hproofs', rfl⟩ := h
    obtain rfl : proofs = proofs' := Except.ok.inj (hproofs.symm.trans hproofs')
    have haes : zk.aeDecrypt input.keys.aesKey proofs.newSourceDecryptableAvailableBalance = .ok (b - a) := by
      rw [hagrees.aes]
      exact zk.aeDecrypt_encrypt _ _ _ (by omega)
    have hreads : ∀ secret, auditorPubkey = pubkey zk.toPedersenBasis secret →
        AuditorReads zk secret proofs.transferAmountAuditorCiphertextLo
          proofs.transferAmountAuditorCiphertextHi a := by
      intro secret hsecret
      rw [hagrees.auditorLo, hagrees.auditorHi, hsecret]
      exact auditorReads_encryptWith zk secret _ _ hagrees.lo_lt hagrees.halves hmax
    exact ⟨_, proofs, rfl, ⟨rfl, rfl, rfl⟩, rfl, hagrees, haes, hreads⟩

theorem withdrawFlow_agrees (hct : confidentialState account = some ct)
    (hb : HoldsAvailable zk keys ct b) (hbound : b < 2 ^ 64) (hpos : 0 < a) (hle : a ≤ b)
    (random : Nat → WithdrawRandomness F) {input : WithdrawFlowInput F}
    (hinput : WithdrawOf account keys a input.toWithdrawProofInput) (w : World χ (ProofData F G)) :
    WithdrawFlowAgrees net kit zk random input a b w := by
  have hct' : confidentialState input.tokenAccount = some ct := by rw [hinput.account, hct]
  have hb' : HoldsAvailable zk input.keys ct b := by rw [hinput.keys]; exact hb
  obtain ⟨proofs, hproofs, hagrees⟩ := withdrawProofs_agree zk (random w.clock) hct' hb'
    hinput.amount hpos hle
  refine ⟨(getConfidentialWithdrawProofFlow_wp net kit zk random input w).mono fun r w' h => ?_⟩
  cases r with
  | error e =>
    rcases h.2 with hfail | hrent
    · rw [hproofs] at hfail
      cases hfail
    · exact hrent
  | ok flow =>
    obtain ⟨-, proofs', hproofs', rfl⟩ := h
    obtain rfl : proofs = proofs' := Except.ok.inj (hproofs.symm.trans hproofs')
    have haes : zk.aeDecrypt input.keys.aesKey proofs.newDecryptableAvailableBalance = .ok (b - a) := by
      rw [hagrees.aes]
      exact zk.aeDecrypt_encrypt _ _ _ (by omega)
    have hamount : input.amount.toNat = a := by
      rw [hinput.amount]
      exact Int.toNat_natCast a
    exact ⟨_, proofs, rfl, ⟨rfl, rfl⟩, hamount, rfl, hagrees, haes⟩

/-- Nobody builds a transfer of more than the available balance. -/
theorem transferFlow_overdraft (hct : confidentialState account = some ct)
    (hb : HoldsAvailable zk keys ct b) (hlt : b < a) (random : Nat → TransferRandomness F)
    {input : TransferFlowInput F} (haccount : input.sourceTokenAccount = account)
    (hkeys : input.keys = keys) (hamount : input.amount = a) (w : World χ (ProofData F G)) :
    (getConfidentialTransferProofFlow net kit zk random input).wp (fun r _ => ∃ e, r = .error e) w := by
  refine (getConfidentialTransferProofFlow_wp net kit zk random input w).mono fun r w' h => ?_
  cases r with
  | error e => exact ⟨e, rfl⟩
  | ok flow =>
    obtain ⟨-, proofs, hproofs, -⟩ := h
    obtain ⟨ct', b', hct', hb', -, hle, -⟩ := transferProofs_inversion zk hproofs
    have heq : ct = ct' := by simpa [haccount, hct] using hct'
    subst heq
    have hbeq : b = b' := by simpa [hkeys, hb.aes] using hb'
    omega

/-- Nobody builds a withdraw of more than the available balance. -/
theorem withdrawFlow_overdraft (hct : confidentialState account = some ct)
    (hb : HoldsAvailable zk keys ct b) (hlt : b < a) (random : Nat → WithdrawRandomness F)
    {input : WithdrawFlowInput F} (hinput : WithdrawOf account keys a input.toWithdrawProofInput)
    (w : World χ (ProofData F G)) :
    (getConfidentialWithdrawProofFlow net kit zk random input).wp (fun r _ => ∃ e, r = .error e) w := by
  refine (getConfidentialWithdrawProofFlow_wp net kit zk random input w).mono fun r w' h => ?_
  cases r with
  | error e => exact ⟨e, rfl⟩
  | ok flow =>
    obtain ⟨-, proofs, hproofs, -⟩ := h
    obtain ⟨ct', b', hct', hb', -, hle, -⟩ := withdrawProofs_inversion zk hproofs
    have heq : ct = ct' := by simpa [hinput.account, hct] using hct'
    subst heq
    have hbeq : b = b' := by simpa [hinput.keys, hb.aes] using hb'
    have hamount := hinput.amount
    omega

/-- For an account with available balance `b`: the flow of a transfer of `a ≤ b` and everybody who
    reads its amount agree on it, so does the flow of a withdraw, and there is no flow for more than
    `b`. -/
theorem everyone_agrees_on_amount (hct : confidentialState account = some ct)
    (hb : HoldsAvailable zk keys ct b) (hbound : b < 2 ^ 64) (hpos : 0 < a)
    (w : World χ (ProofData F G)) :
    (∀ random (input : TransferFlowInput F) auditorPubkey, a < 2 ^ 48 → a ≤ b →
      TransferOf zk account keys a auditorPubkey input.toTransferProofInput →
      TransferFlowAgrees net kit zk random input auditorPubkey a b w) ∧
    (∀ random (input : WithdrawFlowInput F), a ≤ b →
      WithdrawOf account keys a input.toWithdrawProofInput →
      WithdrawFlowAgrees net kit zk random input a b w) ∧
    (b < a →
      (∀ random (input : TransferFlowInput F), input.sourceTokenAccount = account →
        input.keys = keys → input.amount = a →
        (getConfidentialTransferProofFlow net kit zk random input).wp (fun r _ => ∃ e, r = .error e) w) ∧
      (∀ random (input : WithdrawFlowInput F), WithdrawOf account keys a input.toWithdrawProofInput →
        (getConfidentialWithdrawProofFlow net kit zk random input).wp
          (fun r _ => ∃ e, r = .error e) w)) := by
  refine ⟨?_, ?_, fun hlt => ⟨?_, ?_⟩⟩
  · intro random input auditorPubkey hmax hle hinput
    exact transferFlow_agrees net kit hct hb hbound hpos hmax hle random hinput w
  · intro random input hle hinput
    exact withdrawFlow_agrees net kit hct hb hbound hpos hle random hinput w
  · intro random input haccount hkeys hamount
    exact transferFlow_overdraft net kit hct hb hlt random haccount hkeys hamount w
  · intro random input hinput
    exact withdrawFlow_overdraft net kit hct hb hlt random hinput w

end Flows

/-! ## An account with ten tokens -/

namespace TenTokens

def keys : ConfidentialKeypairs (ZMod (2 ^ 128)) := { elgamalSecret := 1, aesKey := [] }

def state : ConfidentialTransferAccountState where
  approved := true
  elgamalPubkey := ZkSdk.modular.elGamalPubkeyAddress keys
  pendingBalanceLow := ZkSdk.modular.ciphertextToBytes 0
  pendingBalanceHigh := ZkSdk.modular.ciphertextToBytes 0
  availableBalance := ZkSdk.modular.ciphertextToBytes
    (encryptWith ZkSdk.modular.toPedersenBasis (pubkey ZkSdk.modular.toPedersenBasis keys.elgamalSecret)
      10 (0 : ZMod (2 ^ 128)))
  decryptableAvailableBalance := ZkSdk.modular.aeEncrypt keys.aesKey 0 10
  allowConfidentialCredits := true
  pendingBalanceCreditCounter := 0
  maximumPendingBalanceCreditCounter := 65536

def account : Token := { amount := 0, extensions := some [.confidentialTransferAccount state] }

theorem confidentialState_account : confidentialState account = some state := by
  simp [confidentialState, account]

theorem holdsAvailable : HoldsAvailable ZkSdk.modular keys state 10 where
  ciphertext := ⟨_, ZkSdk.modular.ciphertextFromBytes_toBytes _, Holds.encrypt _ _ _⟩
  aes := by
    have haes := ZkSdk.modular.aeDecrypt_encrypt keys.aesKey 0 10 (by decide)
    simp only [decryptAvailableBalance, parseAeCiphertext, state, ZkSdk.aeCiphertextFromBytes_encrypt,
      bind, Except.bind, haes]
    rfl

/-- The address of a key stands for it. -/
theorem pubkeyFromAddress (p : ZMod (2 ^ 128)) : getElGamalPubkeyFromAddress ZkSdk.modular
    (ZkSdk.modular.addressFromBytes (ZkSdk.modular.pointToBytes p)) = .ok p := by
  have hbytes := ZkSdk.modular.addressToBytes_fromBytes _ (ZkSdk.modular.length_pointToBytes p)
  simp [getElGamalPubkeyFromAddress, elGamalPubkeyFromBytes, hbytes]

/-- Three of the ten tokens. -/
def input : TransferFlowInput (ZMod (2 ^ 128)) where
  sourceTokenAccount := account
  destinationElgamalPubkey := some (ZkSdk.modular.addressFromBytes (ZkSdk.modular.pointToBytes 1))
  auditorElgamalPubkey := some (getAuditorElgamalPubkey ZkSdk.modular (1 : (ZMod (2 ^ 128))ˣ))
  amount := 3
  keys := keys
  sourceToken := "alice's"
  mint := "mint"
  destinationToken := "bob's"
  authority := "alice"
  payer := "payer"

theorem transferOf_input : TransferOf ZkSdk.modular account keys 3
    (pubkey ZkSdk.modular.toPedersenBasis (1 : (ZMod (2 ^ 128))ˣ)) input.toTransferProofInput where
  account := rfl
  keys := rfl
  amount := rfl
  destination := ⟨_, pubkeyFromAddress 1⟩
  auditor := pubkeyFromAddress _

end TenTokens

/-- Three of ten tokens: the flow is built, and everybody reads three. -/
theorem everyone_agrees_on_three :
    TransferFlowAgrees (χ := Unit) { execute := fun _ _ _ => none } .oneEach ZkSdk.modular
      (fun _ => ⟨0, 0, 0, 0, 0⟩) TenTokens.input (pubkey ZkSdk.modular.toPedersenBasis (1 : (ZMod (2 ^ 128))ˣ)) 3 10
      { chain := () } :=
  (everyone_agrees_on_amount _ _ TenTokens.confidentialState_account TenTokens.holdsAvailable
    (by norm_num) (by norm_num) _).1 _ _ _ (by norm_num) (by norm_num) TenTokens.transferOf_input

end Sdk
