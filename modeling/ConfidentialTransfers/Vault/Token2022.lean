-- SUMMARY: The Token-2022 instructions the vault program builds from their byte layout, and a reader of that layout.
import ConfidentialTransfers.Lib.Layout
import ConfidentialTransfers.Lib.LittleEndian
import ConfidentialTransfers.Solana.Runtime

/-!
# Token-2022 instructions

The `token_2022` module of the vault program. Proofs are always in proof
accounts here, so every proof offset is 0.
-/

open Solana

namespace ConfidentialVault.Token2022

def confidentialTransferExtension : UInt8 := 27
def configureAccountDiscriminator : UInt8 := 2
def transferDiscriminator : UInt8 := 7
def applyPendingBalanceDiscriminator : UInt8 := 8
def reallocateDiscriminator : UInt8 := 29
def confidentialTransferAccountExtension : Nat := 5
def defaultMaximumPendingBalanceCreditCounter : Nat := 65536

/-- `anchor_lang::system_program::ID`. -/
def systemProgramId : Address := "11111111111111111111111111111111"

def reallocateForConfidentialTransfers (account payer owner : Address) : ProgramInstruction where
  programId := token2022ProgramAddress
  accounts := [.new account false, .new payer true, .newReadonly systemProgramId false,
    .newReadonly owner true]
  data := reallocateDiscriminator :: LittleEndian.encode 2 confidentialTransferAccountExtension

def configureAccount (account mint pubkeyValidityProof owner : Address)
    (decryptableZeroBalance : Vector UInt8 36) : ProgramInstruction where
  programId := token2022ProgramAddress
  accounts := [.new account false, .newReadonly mint false, .newReadonly pubkeyValidityProof false,
    .newReadonly owner true]
  data := [confidentialTransferExtension, configureAccountDiscriminator] ++
    decryptableZeroBalance.toList ++
    LittleEndian.encode 8 defaultMaximumPendingBalanceCreditCounter ++
    -- Proof in a proof account.
    [0]

def applyPendingBalance (account owner : Address) (expectedPendingBalanceCreditCounter : UInt64)
    (newDecryptableAvailableBalance : Vector UInt8 36) : ProgramInstruction where
  programId := token2022ProgramAddress
  accounts := [.new account false, .newReadonly owner true]
  data := [confidentialTransferExtension, applyPendingBalanceDiscriminator] ++
    LittleEndian.encode 8 expectedPendingBalanceCreditCounter.toNat ++
    newDecryptableAvailableBalance.toList

/-- `proofs`: equality, ciphertext validity, range. -/
def transfer (source mint destination : Address) (proofs : Vector Address 3) (owner : Address)
    (newDecryptableAvailableBalance : Vector UInt8 36)
    (auditorCiphertextLo auditorCiphertextHi : Vector UInt8 64) : ProgramInstruction where
  programId := token2022ProgramAddress
  accounts := [.new source false, .newReadonly mint false, .new destination false] ++
    proofs.toList.map (AccountMeta.newReadonly · false) ++ [.newReadonly owner true]
  data := [confidentialTransferExtension, transferDiscriminator] ++
    newDecryptableAvailableBalance.toList ++ auditorCiphertextLo.toList ++ auditorCiphertextHi.toList ++
    -- All three proofs in proof accounts.
    [0, 0, 0]

/-! ## Reading them back -/

/-- What the four instructions say. -/
inductive TokenInstruction
  | reallocate (extension : Nat)
  | configureAccount (decryptableZeroBalance : Bytes) (maximumPendingBalanceCreditCounter : Nat)
      (proofInstructionOffset : UInt8)
  | applyPendingBalance (expectedPendingBalanceCreditCounter : Nat)
      (newDecryptableAvailableBalance : Bytes)
  | transfer (newDecryptableAvailableBalance auditorCiphertextLo auditorCiphertextHi : Bytes)
      (proofInstructionOffsets : Bytes)
deriving DecidableEq, Repr

/-- Read instruction data by its layout. -/
def TokenInstruction.unpack : Bytes → Option TokenInstruction
  | 29 :: rest =>
    match Layout.split [2] rest with
    | some [extension] => some (.reallocate (LittleEndian.decode extension))
    | _ => none
  | 27 :: 2 :: rest =>
    match Layout.split [36, 8, 1] rest with
    | some [zeroBalance, maximum, [offset]] =>
      some (.configureAccount zeroBalance (LittleEndian.decode maximum) offset)
    | _ => none
  | 27 :: 8 :: rest =>
    match Layout.split [8, 36] rest with
    | some [counter, newBalance] => some (.applyPendingBalance (LittleEndian.decode counter) newBalance)
    | _ => none
  | 27 :: 7 :: rest =>
    match Layout.split [36, 64, 64, 3] rest with
    | some [newBalance, lo, hi, offsets] => some (.transfer newBalance lo hi offsets)
    | _ => none
  | _ => none

section Unpack

variable (account mint payer owner proof destination : Address) (proofs : Vector Address 3)
  (balance : Vector UInt8 36) (lo hi : Vector UInt8 64)

@[simp] theorem unpack_reallocate :
    TokenInstruction.unpack (reallocateForConfidentialTransfers account payer owner).data =
      some (.reallocate 5) := by
  have h := Layout.split_flatten [LittleEndian.encode 2 5]
  simp only [List.map_cons, List.map_nil, LittleEndian.length_encode, List.flatten_cons,
    List.flatten_nil, List.append_nil] at h
  simp [reallocateForConfidentialTransfers, TokenInstruction.unpack, reallocateDiscriminator, h,
    LittleEndian.decode_encode, confidentialTransferAccountExtension]

@[simp] theorem unpack_configureAccount :
    TokenInstruction.unpack (configureAccount account mint proof owner balance).data =
      some (.configureAccount balance.toList 65536 0) := by
  have h := Layout.split_flatten [balance.toList, LittleEndian.encode 8 65536, [0]]
  simp only [List.map_cons, List.map_nil, Vector.length_toList, LittleEndian.length_encode,
    List.length_singleton, List.flatten_cons, List.flatten_nil, List.append_nil] at h
  simp [configureAccount, TokenInstruction.unpack, confidentialTransferExtension,
    configureAccountDiscriminator, h, LittleEndian.decode_encode,
    defaultMaximumPendingBalanceCreditCounter]

@[simp] theorem unpack_applyPendingBalance (counter : UInt64) :
    TokenInstruction.unpack (applyPendingBalance account owner counter balance).data =
      some (.applyPendingBalance counter.toNat balance.toList) := by
  have h := Layout.split_flatten [LittleEndian.encode 8 counter.toNat, balance.toList]
  simp only [List.map_cons, List.map_nil, Vector.length_toList, LittleEndian.length_encode,
    List.flatten_cons, List.flatten_nil, List.append_nil] at h
  have hcounter : LittleEndian.decode (LittleEndian.encode 8 counter.toNat) = counter.toNat :=
    LittleEndian.decode_encode counter.toNat_lt
  simp [applyPendingBalance, TokenInstruction.unpack, confidentialTransferExtension,
    applyPendingBalanceDiscriminator, h, hcounter]

@[simp] theorem unpack_transfer :
    TokenInstruction.unpack (transfer account mint destination proofs owner balance lo hi).data =
      some (.transfer balance.toList lo.toList hi.toList [0, 0, 0]) := by
  have h := Layout.split_flatten [balance.toList, lo.toList, hi.toList, [0, 0, 0]]
  simp only [List.map_cons, List.map_nil, Vector.length_toList, List.length_cons, List.length_nil,
    List.flatten_cons, List.flatten_nil, List.append_nil] at h
  simp [transfer, TokenInstruction.unpack, confidentialTransferExtension, transferDiscriminator, h]

end Unpack

end ConfidentialVault.Token2022
