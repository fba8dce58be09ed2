-- SUMMARY: What the vault program asks of the runtime in any run, and that it is granted: when a payout goes through.
import ConfidentialTransfers.Vault.Runs

/-!
# What the runtime is asked for

The program passes on the accounts its caller gave it and signs for its vault.
Its account checks are what makes this enough for the calls it makes.
-/

open Solana

namespace ConfidentialVault

variable {τ : Type} {env : Surroundings τ} {s s' : State τ}

section Runtime

variable {v : Address} {vault : Vault}

/-- The vault's own seeds sign for it, and the accounts the program passes on cover what it asks for. -/
structure Granted (env : Surroundings τ) (instruction : ProgramInstruction) (infos : List AccountInfo)
    (seeds : List Bytes) (v : Address) : Prop where
  derived : env.derivation.createProgramAddress seeds ID = some v
  program : ∃ info ∈ infos, info.key = instruction.programId
  covers : ∀ m ∈ instruction.accounts, Covers v infos m

/-- What is granted fails only at a limit, or because the program called refuses. -/
theorem Granted.error_cases {instruction : ProgramInstruction} {infos : List AccountInfo}
    {seeds : List Bytes} (h : Granted env instruction infos seeds v)
    (hruntime : ∀ vaults rest, Refusals env.derivation ID (env.invokeSigned vaults rest))
    {e : InvokeError} (he : env.invokeSigned s.vaults s.rest instruction infos [seeds] = .error e) :
    ∃ message, e = .limit message ∨ e = .callee message :=
  (hruntime s.vaults s.rest).error_cases h.derived h.program h.covers he

theorem createProgramAddress_vaultSeeds (hsound : Sound env s) (hv : s.vaults v = some vault)
    {mint : Address} (hmint : mint = vault.mint) :
    env.derivation.createProgramAddress (vaultSeeds env mint vault.bump) ID = some v := by
  subst hmint
  exact env.derivation.create_of_find (hsound.derived v vault hv)

theorem covers_readonly {m : AccountMeta} {infos : List AccountInfo} {info : AccountInfo}
    (hinfo : info ∈ infos) (hkey : info.key = m.pubkey) (hsigner : m.isSigner = false)
    (hwritable : m.isWritable = false) : Covers v infos m where
  given := ⟨info, hinfo, hkey⟩
  writable h := by
    cases hwritable.symm.trans h
  signer h := by
    cases hsigner.symm.trans h

theorem covers_passed {m : AccountMeta} {infos : List AccountInfo} {info : AccountInfo}
    (hinfo : info ∈ infos) (hkey : info.key = m.pubkey)
    (hsigner : m.isSigner = true → info.isSigner = true)
    (hwritable : m.isWritable = true → info.isWritable = true) : Covers v infos m where
  given := ⟨info, hinfo, hkey⟩
  writable h := ⟨info, hinfo, hkey, hwritable h⟩
  signer h := .inl ⟨info, hinfo, hkey, hsigner h⟩

theorem covers_writable {m : AccountMeta} {infos : List AccountInfo} {info : AccountInfo}
    (hinfo : info ∈ infos) (hkey : info.key = m.pubkey) (hsigner : m.isSigner = false)
    (hwritable : info.isWritable = true) : Covers v infos m := by
  apply covers_passed hinfo hkey
  · intro h
    cases hsigner.symm.trans h
  · intro _
    exact hwritable

/-- The vault itself: it need not have signed the call. -/
theorem covers_authority {m : AccountMeta} {infos : List AccountInfo} {info : AccountInfo}
    (hinfo : info ∈ infos) (hkey : info.key = m.pubkey) (hwritable : m.isWritable = false)
    (hv : m.pubkey = v) : Covers v infos m where
  given := ⟨info, hinfo, hkey⟩
  writable h := by
    cases hwritable.symm.trans h
  signer _ := .inr hv

/-- The accounts a payout passes on. -/
def payInfos (a : Pay) (remainingAccounts : List AccountInfo) : List AccountInfo :=
  [a.vaultToken, a.mint, a.destinationToken, a.equalityProof, a.ciphertextValidityProof,
    a.rangeProof, a.vault, a.tokenProgram] ++ remainingAccounts

/-- Whatever remaining accounts come with it: they are passed on as they are, without signatures. -/
theorem granted_pay {a : Pay} {remainingAccounts : List AccountInfo}
    {newBalance : Vector UInt8 36} {lo hi : Vector UInt8 64} (hsound : Sound env s)
    (ha : a.tryAccounts s = .ok vault) :
    Granted env (payInstruction a remainingAccounts newBalance lo hi) (payInfos a remainingAccounts)
      (vaultSeeds env a.mint.key vault.bump) a.vault.key := by
  obtain ⟨hoperated, hmint, htoken, hdestination, hprogram⟩ := a.tryAccounts_eq_ok_iff.1 ha
  refine ⟨createProgramAddress_vaultSeeds hsound hoperated.stored hmint,
    ⟨a.tokenProgram, by simp [payInfos], hprogram⟩, fun m hm => ?_⟩
  simp only [payInstruction, Token2022.transfer, Vector.toList_mk, List.map_cons, List.map_nil,
    List.cons_append, List.nil_append, List.mem_cons, List.mem_map] at hm
  obtain rfl | rfl | rfl | rfl | rfl | rfl | rfl | ⟨info, hinfo, rfl⟩ := hm
  · exact covers_writable (show a.vaultToken ∈ _ by simp [payInfos]) rfl rfl htoken
  · exact covers_readonly (show a.mint ∈ _ by simp [payInfos]) rfl rfl rfl
  · exact covers_writable (show a.destinationToken ∈ _ by simp [payInfos]) rfl rfl hdestination
  · exact covers_readonly (show a.equalityProof ∈ _ by simp [payInfos]) rfl rfl rfl
  · exact covers_readonly (show a.ciphertextValidityProof ∈ _ by simp [payInfos]) rfl rfl rfl
  · exact covers_readonly (show a.rangeProof ∈ _ by simp [payInfos]) rfl rfl rfl
  · exact covers_authority (show a.vault ∈ _ by simp [payInfos]) rfl rfl rfl
  · exact covers_passed (show info ∈ _ by simp [payInfos, hinfo]) rfl Bool.false_ne_true.elim id

section

variable (hruntime : ∀ vaults rest, Refusals env.derivation ID (env.invokeSigned vaults rest))

include hruntime

end

theorem Example.refusals (accepts : Bool) (vaults : Address → Option Vault) (rest : Unit) :
    Refusals Example.derivation ID ((Example.surroundings accepts).invokeSigned vaults rest) where
  invalidSeeds := by
    intro instruction infos signersSeeds h
    simp only [Example.surroundings] at h
    split_ifs at h with hseeds <;> cases h
    simpa using hseeds
  missingAccount := by
    intro instruction infos signersSeeds h
    simp only [Example.surroundings] at h
    split_ifs at h with hseeds hprogram hmissing <;> cases h
    · left
      simpa using hprogram
    · right
      simpa using hmissing
  privilegeEscalation := by
    intro instruction infos signersSeeds h
    simp only [Example.surroundings] at h
    split_ifs at h with hseeds hprogram hmissing hwritable hsigner <;> cases h
    · obtain ⟨m, hm, hnone⟩ := List.any_eq_true.mp hwritable
      refine ⟨m, hm, .inl ?_⟩
      simpa using hnone
    · obtain ⟨m, hm, hnone⟩ := List.any_eq_true.mp hsigner
      refine ⟨m, hm, .inr ?_⟩
      simpa [and_assoc] using hnone

/-- A limit of the runtime, or Token-2022, refuses a transfer out of the vault. -/
def PayoutRefused (env : Surroundings τ) (s : State τ) (transfer : ProgramInstruction)
    (infos : List AccountInfo) (vault : Vault) : Prop :=
  ∃ message,
    env.invokeSigned s.vaults s.rest transfer infos [vaultSeeds env vault.mint vault.bump] =
      .error (.limit message) ∨
    env.invokeSigned s.vaults s.rest transfer infos [vaultSeeds env vault.mint vault.bump] =
      .error (.callee message)

/-- A payout goes through exactly if the vault's operator signs for its vault and mint, the token accounts
    are writable, and neither a limit of the runtime nor Token-2022 refuses the transfer. -/
theorem pay_succeeds_iff
    (hruntime : ∀ vaults rest, Refusals env.derivation ID (env.invokeSigned vaults rest))
    (rest : τ) (inputs : List (Input τ)) (a : Pay)
    (remainingAccounts : List AccountInfo) (newBalance : Vector UInt8 36) (lo hi : Vector UInt8 64) :
    (∃ s', handle env (.pay a remainingAccounts newBalance lo hi)
        (Machine.run (next env) (deployed rest) inputs) = .ok s') ↔
      ∃ vault, Operated (Machine.run (next env) (deployed rest) inputs) a.operator a.vault vault ∧
        a.mint.key = vault.mint ∧
        a.vaultToken.isWritable = true ∧ a.destinationToken.isWritable = true ∧
        a.tokenProgram.key = token2022ProgramAddress ∧
        ¬PayoutRefused env (Machine.run (next env) (deployed rest) inputs)
          (payInstruction a remainingAccounts newBalance lo hi) (payInfos a remainingAccounts) vault := by
  have hsound := sound_run env rest inputs
  generalize Machine.run (next env) (deployed rest) inputs = s at hsound ⊢
  constructor
  · rintro ⟨s', h⟩
    obtain ⟨vault, ha, h⟩ := Except.bind_eq_ok_iff.1 h
    obtain ⟨s₁, hinvoke, -⟩ := Except.bind_eq_ok_iff.1 h
    obtain ⟨hoperated, hmint, htoken, hdestination, hprogram⟩ := a.tryAccounts_eq_ok_iff.1 ha
    obtain ⟨rest', hinvoked, -⟩ := invokeSigned_eq_ok_iff.1 hinvoke
    refine ⟨vault, hoperated, hmint, htoken, hdestination, hprogram, ?_⟩
    rw [hmint] at hinvoked
    rintro ⟨message, hlimit | hcallee⟩
    · cases hlimit.symm.trans hinvoked
    · cases hcallee.symm.trans hinvoked
  · rintro ⟨vault, hoperated, hmint, htoken, hdestination, hprogram, haccepted⟩
    have ha : a.tryAccounts s = .ok vault :=
      a.tryAccounts_eq_ok_iff.2 ⟨hoperated, hmint, htoken, hdestination, hprogram⟩
    have hgranted : Granted env (payInstruction a remainingAccounts newBalance lo hi)
        (payInfos a remainingAccounts) (vaultSeeds env a.mint.key vault.bump) a.vault.key :=
      granted_pay hsound ha
    cases hinvoked : env.invokeSigned s.vaults s.rest (payInstruction a remainingAccounts newBalance lo hi)
      (payInfos a remainingAccounts) [vaultSeeds env a.mint.key vault.bump] with
    | error e =>
      apply absurd _ haccepted
      obtain ⟨message, rfl | rfl⟩ := hgranted.error_cases hruntime hinvoked
      · exact ⟨message, .inl (hmint ▸ hinvoked)⟩
      · exact ⟨message, .inr (hmint ▸ hinvoked)⟩
    | ok rest' =>
      unfold payInfos at hinvoked
      simp only [handle, pay, ha, Except.ok_bind]
      rw [invokeSigned_eq_ok_iff.2 ⟨rest', hinvoked, rfl⟩]
      exact ⟨_, rfl⟩

open Example in
theorem pay_succeeds_example :
    ∃ s', handle (surroundings true) paying
      (Machine.run (next (surroundings true)) (deployed ()) inputs) = .ok s' := by
  have hstored : (Machine.run (next (surroundings true)) (deployed ()) inputs).vaults vaultAddress =
      some { operator := "operator", mint := mint, bump := 252 } := by
    rfl
  apply (pay_succeeds_iff (refusals true) () inputs _ _ _ _ _).2
  refine ⟨_, ⟨hstored, rfl, rfl⟩, rfl, rfl, rfl, rfl, ?_⟩
  rintro ⟨message, hlimit | hcallee⟩
  · cases hlimit
  · cases hcallee

end Runtime

end ConfidentialVault
