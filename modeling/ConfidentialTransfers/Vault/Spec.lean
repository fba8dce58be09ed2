-- SUMMARY: What each instruction of the vault program does when it succeeds, and when that is.
import ConfidentialTransfers.Vault.Program

/-!
# What the instructions do

One statement for each function of the program, and from these one for a call:
it creates a vault, or it makes the calls of an instruction that the vault's
operator signed.
-/

open Solana

namespace ConfidentialVault

variable {τ : Type} {env : Surroundings τ} {s s' : State τ}

/-! ## Accounts -/

@[simp] theorem require_bind_eq_ok_iff {α : Type} {ok : Bool} {e : AnchorError}
    {f : Unit → Except ProgramError α} {b : α} :
    (require ok e >>= f) = .ok b ↔ ok = true ∧ f () = .ok b := by
  cases ok with
  | true => exact (and_iff_right rfl).symm
  | false => exact iff_of_false nofun nofun

@[simp] theorem account_bind_eq_ok_iff {α : Type} {vaults : Address → Option Vault} {info : AccountInfo}
    {f : Vault → Except ProgramError α} {b : α} :
    (account vaults info >>= f) = .ok b ↔ ∃ vault, vaults info.key = some vault ∧ f vault = .ok b := by
  rw [Except.bind_eq_ok_iff]
  unfold account
  split <;> simp_all

/-- The account holds this vault, and its operator signed. -/
structure Operated (s : State τ) (operator account : AccountInfo) (vault : Vault) : Prop where
  stored : s.vaults account.key = some vault
  isOperator : operator.key = vault.operator
  signed : operator.isSigner = true

theorem Configure.tryAccounts_eq_ok_iff {a : Configure} {vault : Vault} :
    a.tryAccounts env s = .ok vault ↔
      Operated s a.operator a.vault vault ∧ a.mint.key = vault.mint ∧
        env.derivation.createProgramAddress (vaultSeeds env vault.mint vault.bump) ID = some a.vault.key ∧
        a.systemProgram.key = Token2022.systemProgramId ∧ a.operator.isWritable = true ∧
        a.vaultToken.isWritable = true ∧ a.tokenProgram.key = token2022ProgramAddress := by
  simp only [tryAccounts, signer, system, isMut, hasOne, isToken2022, require_bind_eq_ok_iff,
    account_bind_eq_ok_iff, beq_iff_eq, pure, Except.pure, Except.ok.injEq]
  constructor
  · rintro ⟨hsigned, vault, hstored, hsystem, hpays, hseeds, hoperator, hmint, htoken, hprogram, rfl⟩
    rw [← hmint] at hseeds
    exact ⟨⟨hstored, hoperator.symm, hsigned⟩, hmint.symm, hseeds, hsystem, hpays, htoken, hprogram⟩
  · rintro ⟨hoperated, hmint, hseeds, hsystem, hpays, htoken, hprogram⟩
    rw [← hmint] at hseeds
    exact ⟨hoperated.signed, vault, hoperated.stored, hsystem, hpays, hseeds, hoperated.isOperator.symm,
      hmint.symm, htoken, hprogram, rfl⟩

theorem ApplyPending.tryAccounts_eq_ok_iff {a : ApplyPending} {vault : Vault} :
    a.tryAccounts s = .ok vault ↔
      Operated s a.operator a.vault vault ∧ a.vaultToken.isWritable = true ∧
        a.tokenProgram.key = token2022ProgramAddress := by
  simp only [tryAccounts, signer, isMut, hasOne, isToken2022, require_bind_eq_ok_iff,
    account_bind_eq_ok_iff, beq_iff_eq, pure, Except.pure, Except.ok.injEq]
  constructor
  · rintro ⟨hsigned, vault, hstored, hoperator, htoken, hprogram, rfl⟩
    exact ⟨⟨hstored, hoperator.symm, hsigned⟩, htoken, hprogram⟩
  · rintro ⟨hoperated, htoken, hprogram⟩
    exact ⟨hoperated.signed, vault, hoperated.stored, hoperated.isOperator.symm, htoken, hprogram, rfl⟩

theorem Pay.tryAccounts_eq_ok_iff {a : Pay} {vault : Vault} :
    a.tryAccounts s = .ok vault ↔
      Operated s a.operator a.vault vault ∧ a.mint.key = vault.mint ∧
        a.vaultToken.isWritable = true ∧ a.destinationToken.isWritable = true ∧
        a.tokenProgram.key = token2022ProgramAddress := by
  simp only [tryAccounts, signer, isMut, hasOne, isToken2022, require_bind_eq_ok_iff,
    account_bind_eq_ok_iff, beq_iff_eq, pure, Except.pure, Except.ok.injEq]
  constructor
  · rintro ⟨hsigned, vault, hstored, hoperator, hmint, htoken, hdestination, hprogram, rfl⟩
    exact ⟨⟨hstored, hoperator.symm, hsigned⟩, hmint.symm, htoken, hdestination, hprogram⟩
  · rintro ⟨hoperated, hmint, htoken, hdestination, hprogram⟩
    exact ⟨hoperated.signed, vault, hoperated.stored, hoperated.isOperator.symm, hmint.symm, htoken,
      hdestination, hprogram, rfl⟩

/-- A vault is created at the address derived for its mint, where no vault was. -/
structure Creates (env : Surroundings τ) (s : State τ) (a : Initialize) (bump : UInt8) : Prop where
  signed : a.operator.isSigner = true
  mint : a.mint.owner = token2022ProgramAddress
  derived : env.derivation.findProgramAddress [vaultSeed, env.derivation.addressBytes a.mint.key] ID =
    some (a.vault.key, bump)
  unused : s.vaults a.vault.key = none

theorem Initialize.creates_of_tryAccounts {a : Initialize} {bump : UInt8}
    (h : a.tryAccounts env s = .ok (bump, s')) :
    Creates env s a bump ∧ ∃ rest, s' = { s with rest } := by
  simp only [tryAccounts, signer, system, require_bind_eq_ok_iff] at h
  obtain ⟨hsigned, -, h⟩ := h
  split at h
  case h_1 => cases h
  case h_2 address bump' hfind =>
    simp only [require_bind_eq_ok_iff, beq_iff_eq, isMut] at h
    obtain ⟨haddress, h⟩ := h
    split at h
    case isTrue => cases h
    case isFalse hunused =>
      obtain ⟨rest, -, h⟩ := Except.bind_eq_ok_iff.1 h
      simp only [require_bind_eq_ok_iff, beq_iff_eq, pure, Except.pure, Except.ok.injEq,
        Prod.mk.injEq] at h
      obtain ⟨-, -, hmint, rfl, rfl⟩ := h
      rw [← haddress] at hfind
      exact ⟨⟨hsigned, hmint, hfind, by simpa using hunused⟩, rest, rfl⟩

/-! ## Calls -/

theorem invokeSigned_eq_ok_iff {accounts infos : List AccountInfo} {instruction : ProgramInstruction}
    {seeds : List (List Bytes)} :
    invokeSigned env accounts instruction infos seeds s = .ok s' ↔
      ∃ rest, env.invokeSigned s.vaults s.rest instruction infos seeds = .ok rest ∧
        s' = { s with rest, invoked := s.invoked ++ [{ accounts, instruction }] } := by
  simp only [invokeSigned, Except.bind_eq_ok_iff, Except.mapError_eq_ok_iff, pure, Except.pure,
    Except.ok.injEq]
  constructor
  · rintro ⟨rest, hinvoked, rfl⟩
    exact ⟨rest, hinvoked, rfl⟩
  · rintro ⟨rest, hinvoked, rfl⟩
    exact ⟨rest, hinvoked, rfl⟩

namespace Call

/-- The accounts of a call. -/
def accounts : Call → List AccountInfo
  | .initializeVault a => a.toList
  | .configure a _ => a.toList
  | .applyPending a _ _ => a.toList
  | .pay a remainingAccounts _ _ _ => a.toList ++ remainingAccounts

/-- The calls it makes if it succeeds. -/
def instructions : Call → List ProgramInstruction
  | .initializeVault _ => []
  | .configure a zeroBalance =>
    [Token2022.reallocateForConfidentialTransfers a.vaultToken.key a.operator.key a.vault.key,
      Token2022.configureAccount a.vaultToken.key a.mint.key a.pubkeyValidityProof.key a.vault.key
        zeroBalance]
  | .applyPending a counter newBalance =>
    [Token2022.applyPendingBalance a.vaultToken.key a.vault.key counter newBalance]
  | .pay a remainingAccounts newBalance lo hi => [payInstruction a remainingAccounts newBalance lo hi]

/-- The events it emits if it succeeds. -/
def events : Call → List Paid
  | .pay a _ _ _ _ => [{ vault := a.vault.key, destination := a.destinationToken.key }]
  | _ => []

end Call

/-- An instruction a vault gives Token-2022. -/
inductive Request (v : Address) (vault : Vault) : ProgramInstruction → Prop
  | reallocate (token : Address) :
    Request v vault (Token2022.reallocateForConfidentialTransfers token vault.operator v)
  | configureAccount (token proof : Address) (zeroBalance : Vector UInt8 36) :
    Request v vault (Token2022.configureAccount token vault.mint proof v zeroBalance)
  | applyPendingBalance (token : Address) (counter : UInt64) (newBalance : Vector UInt8 36) :
    Request v vault (Token2022.applyPendingBalance token v counter newBalance)
  | transfer (a : Pay) (remainingAccounts : List AccountInfo) (newBalance : Vector UInt8 36)
      (lo hi : Vector UInt8 64) (hvault : a.vault.key = v) (hmint : a.mint.key = vault.mint) :
    Request v vault (payInstruction a remainingAccounts newBalance lo hi)

/-- What a call does that the operator of a vault signed. -/
structure Operates (s : State τ) (c : Call) (s' : State τ) (v : Address) (vault : Vault) : Prop where
  stored : s.vaults v = some vault
  signed : ∃ info ∈ c.accounts, info.key = vault.operator ∧ info.isSigner = true
  requests : ∀ i ∈ c.instructions, Request v vault i
  vaults : s'.vaults = s.vaults
  invoked : s'.invoked = s.invoked ++ c.instructions.map fun i => { accounts := c.accounts, instruction := i }
  events : s'.events = s.events ++ c.events

/-- A call that succeeds creates a vault, or was signed by the operator of one. -/
theorem handle_cases {c : Call} (h : handle env c s = .ok s') :
    (∃ a bump rest, c = .initializeVault a ∧ Creates env s a bump ∧
      s' = { s with
        vaults := Function.update s.vaults a.vault.key (some ⟨a.operator.key, a.mint.key, bump⟩)
        rest }) ∨
    ∃ v vault, Operates s c s' v vault := by
  cases c with
  | initializeVault a =>
    left
    obtain ⟨⟨bump, s₁⟩, haccounts, h⟩ := Except.bind_eq_ok_iff.1 h
    obtain ⟨hcreates, rest, rfl⟩ := a.creates_of_tryAccounts haccounts
    cases h
    exact ⟨a, bump, rest, rfl, hcreates, rfl⟩
  | configure a zeroBalance =>
    right
    obtain ⟨vault, haccounts, h⟩ := Except.bind_eq_ok_iff.1 h
    obtain ⟨s₁, hreallocate, hconfigure⟩ := Except.bind_eq_ok_iff.1 h
    obtain ⟨hoperated, hmint, -⟩ := a.tryAccounts_eq_ok_iff.1 haccounts
    obtain ⟨rest₁, -, rfl⟩ := invokeSigned_eq_ok_iff.1 hreallocate
    obtain ⟨rest₂, -, rfl⟩ := invokeSigned_eq_ok_iff.1 hconfigure
    refine ⟨a.vault.key, vault, hoperated.stored, ⟨a.operator, ?_, hoperated.isOperator, hoperated.signed⟩,
      ?_, rfl, ?_, ?_⟩
    · simp [Call.accounts, Configure.toList]
    · intro i hi
      simp only [Call.instructions, List.mem_cons, List.not_mem_nil, or_false] at hi
      rw [hoperated.isOperator, hmint] at hi
      obtain rfl | rfl := hi
      · apply Request.reallocate
      · apply Request.configureAccount
    · simp [Call.instructions, Call.accounts]
    · simp [Call.events]
  | applyPending a counter newBalance =>
    right
    obtain ⟨vault, haccounts, h⟩ := Except.bind_eq_ok_iff.1 h
    obtain ⟨hoperated, -⟩ := a.tryAccounts_eq_ok_iff.1 haccounts
    obtain ⟨rest, -, rfl⟩ := invokeSigned_eq_ok_iff.1 h
    refine ⟨a.vault.key, vault, hoperated.stored, ⟨a.operator, ?_, hoperated.isOperator, hoperated.signed⟩,
      ?_, rfl, rfl, ?_⟩
    · simp [Call.accounts, ApplyPending.toList]
    · intro i hmem
      obtain rfl := List.mem_singleton.1 hmem
      apply Request.applyPendingBalance
    · simp [Call.events]
  | pay a remainingAccounts newBalance lo hi =>
    right
    obtain ⟨vault, haccounts, h⟩ := Except.bind_eq_ok_iff.1 h
    obtain ⟨s₁, hinvoke, h⟩ := Except.bind_eq_ok_iff.1 h
    obtain ⟨hoperated, hmint, -⟩ := a.tryAccounts_eq_ok_iff.1 haccounts
    obtain ⟨rest, -, rfl⟩ := invokeSigned_eq_ok_iff.1 hinvoke
    cases h
    refine ⟨a.vault.key, vault, hoperated.stored, ⟨a.operator, ?_, hoperated.isOperator, hoperated.signed⟩,
      ?_, rfl, rfl, rfl⟩
    · simp [Call.accounts, Pay.toList]
    · intro i hmem
      obtain rfl := List.mem_singleton.1 hmem
      exact Request.transfer a remainingAccounts newBalance lo hi rfl hmint

end ConfidentialVault
