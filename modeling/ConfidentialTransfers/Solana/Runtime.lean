-- SUMMARY: What the runtime gives a program, and the calls a program makes signing for its own addresses.
import ConfidentialTransfers.Solana.Instruction

/-!
# The runtime

The side of Solana a program sees: the accounts it is given, with the privileges
the caller passes on, and why `invoke_signed` fails, which calls another program
and adds the signatures of addresses derived from the calling program. The
runtime itself is a parameter, of which only its documented refusals are known.
-/

namespace Solana

/-- `AccountMeta`. -/
structure AccountMeta where
  pubkey : Address
  isSigner : Bool
  isWritable : Bool
deriving DecidableEq, Repr

/-- `AccountMeta::new`. -/
def AccountMeta.new (pubkey : Address) (isSigner : Bool) : AccountMeta :=
  { pubkey, isSigner, isWritable := true }

/-- `AccountMeta::new_readonly`. -/
def AccountMeta.newReadonly (pubkey : Address) (isSigner : Bool) : AccountMeta :=
  { pubkey, isSigner, isWritable := false }

/-- What one program asks of another: `solana_program::instruction::Instruction`. -/
structure ProgramInstruction where
  programId : Address
  accounts : List AccountMeta
  data : Bytes
deriving DecidableEq, Repr

/-- An account as a program is given it. -/
structure AccountInfo where
  key : Address
  /-- The program that owns the account. -/
  owner : Address
  isSigner : Bool
  isWritable : Bool
deriving DecidableEq, Repr

/-- Addresses derived from seeds. -/
structure Derivation where
  /-- The 32 bytes of an address. -/
  addressBytes : Address → Bytes
  /-- `Pubkey::create_program_address`, which fails for seeds that give a point of the curve. -/
  createProgramAddress : (seeds : List Bytes) → (program : Address) → Option Address
  /-- `Pubkey::find_program_address`: the address and its bump. -/
  findProgramAddress : (seeds : List Bytes) → (program : Address) → Option (Address × UInt8)
  /-- The bump is the last seed of the address. -/
  create_of_find : ∀ {seeds program address bump}, findProgramAddress seeds program = some (address, bump) →
    createProgramAddress (seeds ++ [[bump]]) program = some address

/-- Why a call of another program fails. -/
inductive InvokeError
  | invalidSeeds
  | missingAccount
  | privilegeEscalation
  /-- One of the runtime's limits: on accounts, on the depth of calls, on computation. -/
  | limit (message : String)
  /-- The error of the program called. -/
  | callee (message : String)
deriving DecidableEq, Repr

/-- Seeds are refused only if no address is derived from them, an account only if it is not among the
    given ones, a privilege only if the caller does not have it: it may pass on what it was given, and
    sign for the addresses derived from it. An account has the same privileges wherever it is named. -/
structure Refusals {τ : Type} (d : Derivation) (caller : Address)
    (invokeSigned : ProgramInstruction → List AccountInfo → List (List Bytes) → Except InvokeError τ) :
    Prop where
  invalidSeeds : ∀ {instruction infos signersSeeds},
    invokeSigned instruction infos signersSeeds = .error .invalidSeeds →
      ∃ seeds ∈ signersSeeds, d.createProgramAddress seeds caller = none
  missingAccount : ∀ {instruction infos signersSeeds},
    invokeSigned instruction infos signersSeeds = .error .missingAccount →
      (∀ info ∈ infos, info.key ≠ instruction.programId) ∨
        ∃ m ∈ instruction.accounts, ∀ info ∈ infos, info.key ≠ m.pubkey
  privilegeEscalation : ∀ {instruction infos signersSeeds},
    invokeSigned instruction infos signersSeeds = .error .privilegeEscalation →
      ∃ m ∈ instruction.accounts,
        (m.isWritable = true ∧ ∀ info ∈ infos, info.key = m.pubkey → info.isWritable = false) ∨
        (m.isSigner = true ∧ (∀ info ∈ infos, info.key = m.pubkey → info.isSigner = false) ∧
          ∀ seeds ∈ signersSeeds, d.createProgramAddress seeds caller ≠ some m.pubkey)

/-- The caller has the privileges that are asked for this account. -/
structure Covers (derived : Address) (infos : List AccountInfo) (m : AccountMeta) : Prop where
  given : ∃ info ∈ infos, info.key = m.pubkey
  writable : m.isWritable = true → ∃ info ∈ infos, info.key = m.pubkey ∧ info.isWritable = true
  signer : m.isSigner = true →
    (∃ info ∈ infos, info.key = m.pubkey ∧ info.isSigner = true) ∨ m.pubkey = derived

variable {τ : Type} {d : Derivation} {caller derived : Address}
  {invokeSigned : ProgramInstruction → List AccountInfo → List (List Bytes) → Except InvokeError τ}
  {instruction : ProgramInstruction} {infos : List AccountInfo} {seeds : List Bytes}

/-- A call for one derived address that has its program, its accounts and their privileges fails only at
    a limit, or because the program called refuses. -/
theorem Refusals.error_cases (hrefusals : Refusals d caller invokeSigned)
    (hderived : d.createProgramAddress seeds caller = some derived)
    (hprogram : ∃ info ∈ infos, info.key = instruction.programId)
    (hcovers : ∀ m ∈ instruction.accounts, Covers derived infos m) {e : InvokeError}
    (h : invokeSigned instruction infos [seeds] = .error e) :
    ∃ message, e = .limit message ∨ e = .callee message := by
  cases e with
  | invalidSeeds =>
    obtain ⟨seeds', hseeds', hnone⟩ := hrefusals.invalidSeeds h
    obtain rfl := List.mem_singleton.mp hseeds'
    cases hderived.symm.trans hnone
  | missingAccount =>
    rcases hrefusals.missingAccount h with hmissing | ⟨m, hm, hmissing⟩
    · obtain ⟨info, hinfo, hkey⟩ := hprogram
      exact absurd hkey (hmissing info hinfo)
    · obtain ⟨info, hinfo, hkey⟩ := (hcovers m hm).given
      exact absurd hkey (hmissing info hinfo)
  | privilegeEscalation =>
    obtain ⟨m, hm, hmissing⟩ := hrefusals.privilegeEscalation h
    rcases hmissing with ⟨hwritable, hnone⟩ | ⟨hsigner, hnone, hseeds⟩
    · obtain ⟨info, hinfo, hkey, htrue⟩ := (hcovers m hm).writable hwritable
      cases htrue.symm.trans (hnone info hinfo hkey)
    · rcases (hcovers m hm).signer hsigner with ⟨info, hinfo, hkey, htrue⟩ | hown
      · cases htrue.symm.trans (hnone info hinfo hkey)
      · exact absurd (hown ▸ hderived) (hseeds seeds List.mem_cons_self)
  | limit message => exact ⟨message, .inl rfl⟩
  | callee message => exact ⟨message, .inr rfl⟩

end Solana
