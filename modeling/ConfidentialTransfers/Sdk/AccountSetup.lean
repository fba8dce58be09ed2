-- SUMMARY: The instructions that create a token account and configure it, and what is documented of them.
import ConfidentialTransfers.Sdk.TokenProgram

/-!
# Setting an account up

What `configureAccount` sends, in both languages. The programs that execute it
are a parameter: of `ConfigureAccount` it is documented that it refuses an
account that is configured, and what it gives to one that is not. A transaction
that fails changes nothing.
-/

open Solana

namespace Sdk

variable {π F G : Type} [CommRing F] [AddCommGroup G] [Module F G]

/-! ## Instructions -/

/-- Token-2022's `ExtensionType`, as far as an account is set up with it. -/
inductive ExtensionType
  | immutableOwner
  | confidentialTransferAccount
deriving DecidableEq, Repr

/-- The arguments of `getConfigureConfidentialTransferAccountInstruction`. -/
structure ConfigureArgs where
  programAddress : Address
  token : Address
  mint : Address
  authority : Address
  decryptableZeroBalance : Bytes
  maximumPendingBalanceCreditCounter : Nat
  proofInstructionOffset : Int
deriving DecidableEq, Repr

/-- The instructions that set an account up; `π` are the proofs of ElGamal keys. -/
inductive SetupInstruction (π : Type) where
  | createAssociatedTokenIdempotent (payer ata owner mint tokenProgram : Address)
  | reallocate (programAddress token payer owner : Address) (newExtensionTypes : List ExtensionType)
  | configureConfidentialTransferAccount (args : ConfigureArgs)
  | verifyPubkeyValidity (proof : π)
  | setComputeUnitPrice (microLamports : Nat)

/-- A priority fee. -/
def SetupInstruction.isPrice : SetupInstruction π → Bool
  | .setComputeUnitPrice _ => true
  | _ => false

/-! ## The programs -/

/-- The token accounts, as the SDKs decode them. -/
abbrev TokenLedger := Address → Option Token

/-- The key an account is configured with. -/
def keyOf (account : Option Token) : Option Address :=
  (account.bind confidentialState).map (·.elgamalPubkey)

/-- The associated token program, Token-2022 and the ZK ElGamal proof program. -/
structure SetupPrograms (π : Type) where
  /-- A transaction of these instructions; `none` if it fails, for any reason. -/
  execute : List (SetupInstruction π) → TokenLedger → Option TokenLedger
  /-- The ElGamal public key that a proof is about, if the proof verifies. -/
  verify : π → Option Address

/-- The instruction at an offset from the current one: `before` are those that came before it, the last
    one first, and `after` those that follow. -/
def relative (before after : List (SetupInstruction π)) : Int → Option (SetupInstruction π)
  | .ofNat 0 => none
  | .ofNat (k + 1) => after[k]?
  | .negSucc k => before[k]?

/-- An account configured with these arguments: with the public key that the verified proof at the offset
    is about, and with the balance the arguments give. -/
structure Configured (programs : SetupPrograms π) (before after : List (SetupInstruction π))
    (args : ConfigureArgs) (account : Option Token) : Prop where
  proved : ∃ proof, relative before after args.proofInstructionOffset = some (.verifyPubkeyValidity proof) ∧
    (programs.verify proof).isSome ∧ keyOf account = programs.verify proof
  decryptable : ∀ ct, account.bind confidentialState = some ct →
    ct.decryptableAvailableBalance = args.decryptableZeroBalance

/-- What Token-2022 documents of `ConfigureAccount`. -/
structure SetupPrograms.Documented (programs : SetupPrograms π) : Prop where
  /-- It fails if the account is configured already. -/
  refuses : ∀ {instructions args ledger}, .configureConfidentialTransferAccount args ∈ instructions →
    (keyOf (ledger args.token)).isSome → programs.execute instructions ledger = none
  /-- It configures the account it succeeds on. -/
  configures : ∀ {before args after ledger ledger'},
    programs.execute (before ++ .configureConfidentialTransferAccount args :: after) ledger = some ledger' →
    Configured programs before.reverse after args (ledger' args.token)

/-! ## Transactions that set an account up -/

/-- The account of an owner that a transaction sets up. -/
structure SetupTarget where
  payer : Address
  owner : Address
  program : Address
  mint : Address
  token : Address
  decryptableZeroBalance : Bytes
  maximumPendingBalanceCreditCounter : Nat

namespace SetupTarget

variable (target : SetupTarget)

def create : SetupInstruction π :=
  .createAssociatedTokenIdempotent target.payer target.token target.owner target.mint target.program

def reallocate : SetupInstruction π :=
  .reallocate target.program target.token target.payer target.owner [.confidentialTransferAccount]

def configureArgs : ConfigureArgs where
  programAddress := target.program
  token := target.token
  mint := target.mint
  authority := target.owner
  decryptableZeroBalance := target.decryptableZeroBalance
  maximumPendingBalanceCreditCounter := target.maximumPendingBalanceCreditCounter
  proofInstructionOffset := 1

/-- Make room, configure, and the proof that the offset points to. -/
def configure (proof : π) : List (SetupInstruction π) :=
  [target.reallocate, .configureConfidentialTransferAccount target.configureArgs,
    .verifyPubkeyValidity proof]

/-- The instructions, which create the account if it is `missing`. -/
def instructions (missing : Bool) (proof : π) : List (SetupInstruction π) :=
  (if missing then [target.create] else []) ++ target.configure proof

/-- The key that is proved behind the arguments, and the zero that they give, are the account's. -/
theorem configured_of_execute {programs : SetupPrograms π} {target : SetupTarget} {missing : Bool} {proof : π}
    {pricesBefore prices : List (SetupInstruction π)} {ledger ledger' : TokenLedger}
    (hprograms : programs.Documented)
    (hexecute : programs.execute (pricesBefore ++ (target.instructions missing proof ++ prices)) ledger =
      some ledger') :
    keyOf (ledger target.token) = none ∧
      (programs.verify proof).isSome ∧ keyOf (ledger' target.token) = programs.verify proof ∧
        ∀ ct, (ledger' target.token).bind confidentialState = some ct →
          ct.decryptableAvailableBalance = target.decryptableZeroBalance := by
  have hsplit : pricesBefore ++ (target.instructions missing proof ++ prices) =
      (pricesBefore ++ ((if missing then [target.create] else []) ++ [target.reallocate])) ++
        .configureConfidentialTransferAccount target.configureArgs :: .verifyPubkeyValidity proof :: prices := by
    simp [instructions, configure]
  rw [hsplit] at hexecute
  refine ⟨?_, ?_⟩
  · by_contra hkey
    have hmem : SetupInstruction.configureConfidentialTransferAccount target.configureArgs ∈
        (pricesBefore ++ ((if missing then [target.create] else []) ++ [target.reallocate])) ++
          .configureConfidentialTransferAccount target.configureArgs ::
            .verifyPubkeyValidity proof :: prices := by simp
    have hrefused := hprograms.refuses hmem (Option.isSome_iff_ne_none.mpr hkey)
    rw [hexecute] at hrefused
    cases hrefused
  · have hconfigured := hprograms.configures hexecute
    obtain ⟨proof', hnext, hverified, hkey⟩ := hconfigured.proved
    -- the offset of one points to the proof that follows
    obtain rfl : proof = proof' := SetupInstruction.verifyPubkeyValidity.inj (Option.some.inj hnext)
    exact ⟨hverified, hkey, hconfigured.decryptable⟩

end SetupTarget

end Sdk
