-- SUMMARY: Reading the amount of one confidential transfer as the auditor.
import ConfidentialTransfers.Sdk.AuditorReport

/-!
# The auditor's reading of one transfer

`decryptTransferAmountAsAuditor` of `auditor.ts`.
-/

open Solana

namespace Sdk

/-- What the function reads of a fetched transaction's message. -/
structure FetchedTransactionMessage where
  accountKeys : Option (List Address)
  staticAccountKeys : Option (List Address)
  instructions : List RawInstruction
deriving DecidableEq, Repr

variable {F G : Type} [CommRing F] [AddCommGroup G] [Module F G]

/-- The instruction is a confidential transfer of the program. -/
def isConfidentialTransfer (codec : InstructionCodec) (programAddress : Address)
    (accountKeys : List Address) (instruction : RawInstruction) : Bool :=
  accountKeys[instruction.programIdIndex]? == some programAddress &&
    (codec.base58Encode instruction.data)[0]? == some confidentialTransferDiscriminator &&
    (codec.base58Encode instruction.data)[1]? == some confidentialTransferInnerDiscriminator

/-- `decryptTransferAmountAsAuditor`, given what `getTransaction` resolves to. -/
def decryptTransferAmountAsAuditor (codec : InstructionCodec) (zk : ZkSdk F G)
    (signature : Signature) (auditorSecret : Fˣ) (programAddress : Option Address)
    (result : Option FetchedTransactionMessage) : Except Thrown Nat :=
  let operation := "decryptTransferAmountAsAuditor"
  match result with
  | none => .error (.sdk (.new .invalidInput
      ("decryptTransferAmountAsAuditor: transaction " ++ signature ++ " not found")
      { operation := some operation }))
  | some message =>
    let accountKeys := (message.accountKeys <|> message.staticAccountKeys).getD []
    match message.instructions.find? (isConfidentialTransfer codec
        (programAddress.getD token2022ProgramAddress) accountKeys) with
    | none => .error (.sdk (.new .invalidInput
        "decryptTransferAmountAsAuditor: no confidential-transfer instruction found in this transaction"
        { operation := some operation }))
    | some instruction =>
      match codec.decodeConfidentialTransfer (codec.base58Encode instruction.data) with
      | .error e => .error (.other e)
      | .ok decoded =>
        match zk.ciphertextFromBytes decoded.1, zk.ciphertextFromBytes decoded.2 with
        | some lo, some hi => Except.mapError .other do
          let amountLo ← zk.decrypt auditorSecret lo
          let amountHi ← zk.decrypt auditorSecret hi
          pure (amountLo + (amountHi <<< transferAmountLoBits))
        | _, _ => .error (.sdk (.new .decryptionFailed
            "decryptTransferAmountAsAuditor: failed to parse the auditor ciphertext"
            { operation := some operation }))

/-- The first confidential transfer of the message decides. -/
theorem decryptTransferAmountAsAuditor_of_decryptHalves {codec : InstructionCodec} {zk : ZkSdk F G}
    {signature : Signature} {secret : Fˣ} {programAddress : Option Address}
    {message : FetchedTransactionMessage} {instruction : RawInstruction} {loBytes hiBytes : Bytes}
    {amount : Nat} (hfind : message.instructions.find? (isConfidentialTransfer codec
      (programAddress.getD token2022ProgramAddress)
      ((message.accountKeys <|> message.staticAccountKeys).getD [])) = some instruction)
    (hdecode : codec.decodeConfidentialTransfer (codec.base58Encode instruction.data) =
      .ok (loBytes, hiBytes))
    (hamount : decryptHalves zk secret loBytes hiBytes = .ok amount) :
    decryptTransferAmountAsAuditor codec zk signature secret programAddress (some message) =
      .ok amount := by
  simp only [decryptTransferAmountAsAuditor, hfind, hdecode]
  unfold decryptHalves at hamount
  cases hlo : zk.ciphertextFromBytes loBytes with
  | none => simp [hlo] at hamount
  | some lo =>
    cases hhi : zk.ciphertextFromBytes hiBytes with
    | none => simp [hlo, hhi] at hamount
    | some hi =>
      simp only [hlo, hhi] at hamount
      simp only [hamount]
      rfl

end Sdk
