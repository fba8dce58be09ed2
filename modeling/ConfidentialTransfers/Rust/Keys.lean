-- SUMMARY: The Rust crate's key derivation, and the keys of program-owned accounts.
import ConfidentialTransfers.Lib.Layout
import ConfidentialTransfers.Rust.Client

/-!
# The crate's keys

`keys.rs`. The signature of a message comes from solana's `Signer`, its check
from ed25519-dalek and its expansion from the zk-sdk; these are parameters.
-/

open Solana

namespace Rust

variable {F : Type} [CommRing F]

/-- solana's `Signer`. Its answer may depend on how often it was asked, so a call is given its number. -/
structure MessageSigner where
  pubkey : Address
  trySignMessage : Nat → Bytes → Except String Bytes

/-- What the derivation takes from the Solana crates. -/
structure KeyDerivation (F : Type) [CommRing F] where
  /-- `Pubkey::to_bytes`. -/
  toBytes : Address → Bytes
  length_toBytes : ∀ a, (toBytes a).length = 32
  /-- `Signature::verify`. -/
  verify : (signature publicKey message : Bytes) → Bool
  /-- `derive_confidential_keys_from_signature`. -/
  fromSignature : Bytes → Except String (ConfidentialKeypairs F)

/-- `confidential_derivation_message`. -/
def confidentialDerivationMessage (publicSeed : Bytes) : Bytes :=
  "solana-conf-bal/v1".toList.map Char.toUInt8 ++ publicSeed

namespace ConfidentialKeys

variable (d : KeyDerivation F)

/-- Keys from the message `solana-conf-bal/v1 || public_seed`. -/
def deriveWithSeed (signer : MessageSigner) (publicSeed : Bytes) (n : Nat) :
    Except Error (ConfidentialKeypairs F) := do
  let operation := "derive keys"
  let message := confidentialDerivationMessage publicSeed
  let signature ← (signer.trySignMessage n message).mapError fun e =>
    .new .cannotSignMessages operation
      ("signer " ++ signer.pubkey ++ " could not sign the key-derivation message: " ++ e)
  -- A signature that does not verify gives keys nobody can derive again.
  if !d.verify signature (d.toBytes signer.pubkey) message then
    .error (.new .badMessageSignature operation
      ("signer " ++ signer.pubkey ++ " returned a signature that does not verify against its address"))
  else (d.fromSignature signature).mapError fun e =>
    .new .badMessageSignature operation ("cannot derive keys from the signature: " ++ e)

/-- The wallet's standard keys. -/
def derive (owner : MessageSigner) (n : Nat) : Except Error (ConfidentialKeypairs F) :=
  deriveWithSeed d owner [] n

end ConfidentialKeys

/-- `program_id || wallet_pda || mint || token_account`. -/
def pdaWalletPublicSeed (d : KeyDerivation F) (programId walletPda mint tokenAccount : Address) : Bytes :=
  [programId, walletPda, mint, tokenAccount].flatMap d.toBytes

/-- Keys for a token account owned by a program, derived by `operator`. -/
def ConfidentialKeys.deriveForPdaWallet (d : KeyDerivation F) (operator : MessageSigner)
    (programId walletPda mint tokenAccount : Address) (n : Nat) : Except Error (ConfidentialKeypairs F) :=
  deriveWithSeed d operator (pdaWalletPublicSeed d programId walletPda mint tokenAccount) n

variable {d : KeyDerivation F} {signer : MessageSigner} {publicSeed : Bytes} {n : Nat}

/-- Keys come from a signature over exactly the message that verifies for the signer. -/
theorem deriveWithSeed_eq_ok_iff {keys : ConfidentialKeypairs F} :
    ConfidentialKeys.deriveWithSeed d signer publicSeed n = .ok keys ↔
      ∃ signature, signer.trySignMessage n (confidentialDerivationMessage publicSeed) = .ok signature ∧
        d.verify signature (d.toBytes signer.pubkey) (confidentialDerivationMessage publicSeed) = true ∧
        d.fromSignature signature = .ok keys := by
  simp only [ConfidentialKeys.deriveWithSeed, Except.bind_eq_ok_iff, Except.mapError_eq_ok_iff]
  refine exists_congr fun signature => and_congr_right fun _ => ?_
  cases d.verify signature (d.toBytes signer.pubkey) (confidentialDerivationMessage publicSeed) with
  | false => simp
  | true => simp [Except.mapError_eq_ok_iff]

/-- What a derivation fails with. -/
def AboutKeys (e : Error) : Prop :=
  e.proofAccounts = none ∧ (e.code = .cannotSignMessages ∨ e.code = .badMessageSignature)

theorem deriveWithSeed_raises :
    (ConfidentialKeys.deriveWithSeed d signer publicSeed n).Raises AboutKeys := by
  refine (Except.Raises.mapError (fun _ => ⟨rfl, .inl rfl⟩) _).bind fun signature => ?_
  split
  · exact .error ⟨rfl, .inr rfl⟩
  · exact .mapError (fun _ => ⟨rfl, .inr rfl⟩) _

/-- A signer of messages as the owner of token accounts. -/
def MessageSigner.owner (d : KeyDerivation F) (signer : MessageSigner) : Signer F where
  pubkey := signer.pubkey
  derive := ConfidentialKeys.derive d signer
  derive_proofAccounts _ := deriveWithSeed_raises.mono fun _ h => h.1

/-- A seed says which account it is for. -/
theorem pdaWalletPublicSeed_injective {programId walletPda mint tokenAccount programId' walletPda' mint'
    tokenAccount' : Address} (h : pdaWalletPublicSeed d programId walletPda mint tokenAccount =
      pdaWalletPublicSeed d programId' walletPda' mint' tokenAccount') :
    d.toBytes programId = d.toBytes programId' ∧ d.toBytes walletPda = d.toBytes walletPda' ∧
      d.toBytes mint = d.toBytes mint' ∧ d.toBytes tokenAccount = d.toBytes tokenAccount' := by
  have hcut : ∀ addresses : List Address, Layout.split (addresses.map fun _ => 32)
      (addresses.flatMap d.toBytes) = some (addresses.map d.toBytes) := by
    intro addresses
    have hsplit := Layout.split_flatten (addresses.map d.toBytes)
    simpa [Function.comp_def, d.length_toBytes, List.flatMap_def] using hsplit
  have hseeds := hcut [programId, walletPda, mint, tokenAccount]
  have hseeds' := hcut [programId', walletPda', mint', tokenAccount']
  rw [pdaWalletPublicSeed, pdaWalletPublicSeed] at h
  rw [h] at hseeds
  have hbytes := Option.some.inj (hseeds.symm.trans hseeds')
  simpa using hbytes

/-- It is never the empty seed of the wallet's own keys. -/
theorem pdaWalletPublicSeed_ne_nil (programId walletPda mint tokenAccount : Address) :
    pdaWalletPublicSeed d programId walletPda mint tokenAccount ≠ [] := by
  intro h
  have hlength := congrArg List.length h
  simp [pdaWalletPublicSeed, d.length_toBytes] at hlength

end Rust
