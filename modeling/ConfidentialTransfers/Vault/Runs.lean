-- SUMMARY: What holds of the vault program after any run: records that never change, calls only an operator causes, events that tell every payout.
import ConfidentialTransfers.Vault.Spec

/-!
# Runs of the vault program

Anyone can send the program any instruction with any accounts, in any order, and
the rest of the chain moves on in between. What follows holds after every such
run.
-/

open Solana

namespace ConfidentialVault

/-! ## Requests to Token-2022 -/

/-- A payout as anyone can read it off an instruction's data and accounts. -/
structure Payout where
  source : Address
  mint : Address
  destination : Address
  vault : Address
  auditorCiphertextLo : Bytes
  auditorCiphertextHi : Bytes
deriving DecidableEq, Repr

def readPayout (i : ProgramInstruction) : Option Payout :=
  match Token2022.TokenInstruction.unpack i.data, i.accounts.map (·.pubkey) with
  | some (.transfer _ lo hi _), source :: mint :: destination :: _ :: _ :: _ :: owner :: _ =>
    some { source, mint, destination, vault := owner, auditorCiphertextLo := lo, auditorCiphertextHi := hi }
  | _, _ => none

/-- What its event says. -/
def Payout.toPaid (p : Payout) : Paid := { vault := p.vault, destination := p.destination }

@[simp] theorem unpack_payInstruction (a : Pay) (remainingAccounts : List AccountInfo)
    (newBalance : Vector UInt8 36) (lo hi : Vector UInt8 64) :
    Token2022.TokenInstruction.unpack (payInstruction a remainingAccounts newBalance lo hi).data =
      some (.transfer newBalance.toList lo.toList hi.toList [0, 0, 0]) :=
  Token2022.unpack_transfer a.vaultToken.key a.mint.key a.vault.key a.destinationToken.key
    #v[a.equalityProof.key, a.ciphertextValidityProof.key, a.rangeProof.key] newBalance lo hi

theorem readPayout_payInstruction (a : Pay) (remainingAccounts : List AccountInfo)
    (newBalance : Vector UInt8 36) (lo hi : Vector UInt8 64) :
    readPayout (payInstruction a remainingAccounts newBalance lo hi) =
      some { source := a.vaultToken.key, mint := a.mint.key, destination := a.destinationToken.key,
             vault := a.vault.key, auditorCiphertextLo := lo.toList, auditorCiphertextHi := hi.toList } := by
  simp only [readPayout, unpack_payInstruction]
  rfl

theorem readPayout_eq_none {i : ProgramInstruction} {t : Token2022.TokenInstruction}
    (h : Token2022.TokenInstruction.unpack i.data = some t)
    (ht : ∀ newBalance lo hi offsets, t ≠ .transfer newBalance lo hi offsets) : readPayout i = none := by
  unfold readPayout
  split
  case h_1 hunpack _ =>
    rw [hunpack, Option.some.injEq] at h
    exact absurd h.symm (ht _ _ _ _)
  case h_2 => rfl

@[simp] theorem readPayout_reallocate (token payer owner : Address) :
    readPayout (Token2022.reallocateForConfidentialTransfers token payer owner) = none :=
  readPayout_eq_none (Token2022.unpack_reallocate _ _ _) nofun

@[simp] theorem readPayout_configureAccount (token mint proof owner : Address)
    (zeroBalance : Vector UInt8 36) :
    readPayout (Token2022.configureAccount token mint proof owner zeroBalance) = none :=
  readPayout_eq_none (Token2022.unpack_configureAccount _ _ _ _ _) nofun

@[simp] theorem readPayout_applyPendingBalance (token owner : Address) (counter : UInt64)
    (newBalance : Vector UInt8 36) :
    readPayout (Token2022.applyPendingBalance token owner counter newBalance) = none :=
  readPayout_eq_none (Token2022.unpack_applyPendingBalance _ _ _ _) nofun

/-- The events of a call are the payouts among the calls it makes. -/
theorem Call.events_eq (c : Call) : c.events = (c.instructions.filterMap readPayout).map Payout.toPaid := by
  cases c with
  | initializeVault a => rfl
  | configure a zeroBalance => simp [Call.events, Call.instructions]
  | applyPending a counter newBalance => simp [Call.events, Call.instructions]
  | pay a remainingAccounts newBalance lo hi =>
    simp [Call.events, Call.instructions, readPayout_payInstruction, Payout.toPaid]

/-- The data of an instruction that makes room for the extension. -/
def IsReallocate (i : ProgramInstruction) : Prop :=
  ∃ extension, Token2022.TokenInstruction.unpack i.data = some (.reallocate extension)

/-- A request goes to Token-2022 and is signed by its vault, and by nobody else unless the operator pays
    for space. -/
structure SignedByVault (v : Address) (vault : Vault) (i : ProgramInstruction) : Prop where
  program : i.programId = token2022ProgramAddress
  signs : ∃ m ∈ i.accounts, m.pubkey = v ∧ m.isSigner = true
  only : ∀ m ∈ i.accounts, m.isSigner = true →
    m.pubkey = v ∨ m.pubkey = vault.operator ∧ IsReallocate i

theorem Request.signedByVault {v : Address} {vault : Vault} {i : ProgramInstruction}
    (h : Request v vault i) : SignedByVault v vault i := by
  cases h with
  | reallocate token =>
    refine ⟨rfl, ⟨.newReadonly v true, ?_, rfl, rfl⟩, ?_⟩
    · simp [Token2022.reallocateForConfidentialTransfers]
    · intro m hm hsigner
      have hreallocate : IsReallocate (Token2022.reallocateForConfidentialTransfers token vault.operator v) :=
        ⟨5, Token2022.unpack_reallocate _ _ _⟩
      simp only [Token2022.reallocateForConfidentialTransfers, List.mem_cons, List.not_mem_nil,
        or_false] at hm
      obtain rfl | rfl | rfl | rfl := hm
      · cases hsigner
      · exact .inr ⟨rfl, hreallocate⟩
      · cases hsigner
      · exact .inl rfl
  | configureAccount token proof zeroBalance =>
    refine ⟨rfl, ⟨.newReadonly v true, ?_, rfl, rfl⟩, ?_⟩
    · simp [Token2022.configureAccount]
    · intro m hm hsigner
      simp only [Token2022.configureAccount, List.mem_cons, List.not_mem_nil, or_false] at hm
      obtain rfl | rfl | rfl | rfl := hm
      · cases hsigner
      · cases hsigner
      · cases hsigner
      · exact .inl rfl
  | applyPendingBalance token counter newBalance =>
    refine ⟨rfl, ⟨.newReadonly v true, ?_, rfl, rfl⟩, ?_⟩
    · simp [Token2022.applyPendingBalance]
    · intro m hm hsigner
      simp only [Token2022.applyPendingBalance, List.mem_cons, List.not_mem_nil, or_false] at hm
      obtain rfl | rfl := hm
      · cases hsigner
      · exact .inl rfl
  | transfer a remainingAccounts newBalance lo hi hvault hmint =>
    refine ⟨rfl, ⟨.newReadonly v true, ?_, rfl, rfl⟩, ?_⟩
    · simp [payInstruction, Token2022.transfer, hvault]
    · intro m hm hsigner
      simp only [payInstruction, Token2022.transfer, Vector.toList_mk, List.map_cons, List.map_nil,
        List.cons_append, List.nil_append, List.mem_cons, List.mem_map, hvault] at hm
      obtain rfl | rfl | rfl | rfl | rfl | rfl | rfl | ⟨account, -, rfl⟩ := hm
      case inr.inr.inr.inr.inr.inr.inl => exact .inl rfl
      all_goals cases hsigner

/-! ## The invariant -/

variable {τ : Type} {env : Surroundings τ} {s s' : State τ}

/-- The operator of a vault asked for this call, and signed. -/
def Authorized (vaults : Address → Option Vault) (call : Invoked) : Prop :=
  ∃ v vault, vaults v = some vault ∧
    (∃ info ∈ call.accounts, info.key = vault.operator ∧ info.isSigner = true) ∧
    Request v vault call.instruction

structure Sound (env : Surroundings τ) (s : State τ) : Prop where
  derived : ∀ v vault, s.vaults v = some vault →
    env.derivation.findProgramAddress [vaultSeed, env.derivation.addressBytes vault.mint] ID =
      some (v, vault.bump)
  authorized : ∀ call ∈ s.invoked, Authorized s.vaults call
  events : s.events = (s.invoked.filterMap (readPayout ·.instruction)).map Payout.toPaid

/-- No vault changes. -/
def Keeps (s s' : State τ) : Prop := ∀ v vault, s.vaults v = some vault → s'.vaults v = some vault

instance : IsPreorder (State τ) Keeps where
  refl := fun _ _ _ h => h
  trans := fun _ _ _ h h' v vault hv => h' v vault (h v vault hv)

theorem Authorized.mono {call : Invoked} (h : Authorized s.vaults call) (hkeeps : Keeps s s') :
    Authorized s'.vaults call := by
  obtain ⟨v, vault, hv, hrest⟩ := h
  exact ⟨v, vault, hkeeps v vault hv, hrest⟩

theorem sound_deployed (rest : τ) : Sound env (deployed rest) where
  derived := nofun
  authorized := nofun
  events := rfl

theorem next_call_of_ok {c : Call} (h : handle env c s = .ok s') : next env s (.call c) = s' := by
  simp only [next, h]

theorem next_call_of_error {c : Call} {e : ProgramError} (h : handle env c s = .error e) :
    next env s (.call c) = s := by
  simp only [next, h]

/-- A vault is only ever put where none was. -/
theorem keeps_of_handle {c : Call} (h : handle env c s = .ok s') : Keeps s s' := by
  intro v vault hv
  obtain ⟨a, bump, rest, rfl, hcreates, rfl⟩ | ⟨v', vault', hoperates⟩ := handle_cases h
  · have hne : v ≠ a.vault.key := by
      rintro rfl
      rw [hcreates.unused] at hv
      cases hv
    simpa [Function.update_of_ne hne] using hv
  · rw [hoperates.vaults]
    exact hv

variable (env) in
theorem keeps_next (s : State τ) (input : Input τ) : Keeps s (next env s input) := by
  cases input with
  | elsewhere rest => exact fun _ _ hv => hv
  | call c =>
    cases h : handle env c s with
    | ok s' =>
      rw [next_call_of_ok h]
      exact keeps_of_handle h
    | error e =>
      rw [next_call_of_error h]
      exact refl s

theorem sound_of_handle {c : Call} (hsound : Sound env s) (h : handle env c s = .ok s') :
    Sound env s' := by
  have hkeeps := keeps_of_handle h
  obtain ⟨a, bump, rest, rfl, hcreates, rfl⟩ | ⟨v', vault', hoperates⟩ := handle_cases h
  · refine ⟨?_, fun call hcall => (hsound.authorized call hcall).mono hkeeps, hsound.events⟩
    intro v vault hv
    simp only [Function.update_apply] at hv
    split at hv
    case isTrue hv' =>
      cases hv
      rw [hv']
      exact hcreates.derived
    case isFalse => exact hsound.derived v vault hv
  · refine ⟨by rw [hoperates.vaults]; exact hsound.derived, ?_, ?_⟩
    · intro call hcall
      rw [hoperates.invoked, List.mem_append, List.mem_map] at hcall
      obtain hold | ⟨i, hi, rfl⟩ := hcall
      · exact (hsound.authorized call hold).mono hkeeps
      · have hstored : s'.vaults v' = some vault' := by
          rw [hoperates.vaults]
          exact hoperates.stored
        exact ⟨v', vault', hstored, hoperates.signed, hoperates.requests i hi⟩
    · rw [hoperates.events, hoperates.invoked, hsound.events, Call.events_eq]
      simp

theorem sound_next (s : State τ) (input : Input τ) (hsound : Sound env s) :
    Sound env (next env s input) := by
  cases input with
  | elsewhere rest => exact ⟨hsound.derived, fun call h => hsound.authorized call h, hsound.events⟩
  | call c =>
    cases h : handle env c s with
    | ok s' =>
      rw [next_call_of_ok h]
      exact sound_of_handle hsound h
    | error e =>
      rw [next_call_of_error h]
      exact hsound

variable (env) in
theorem sound_run (rest : τ) (inputs : List (Input τ)) :
    Sound env (Machine.run (next env) (deployed rest) inputs) :=
  Machine.run_invariant sound_next (sound_deployed rest) inputs

/-! ## A vault -/

namespace Example

def mint : Address := "cGfHiC6Kgg3FpFZvgwGcswsCRtp4aBP2fzuXRQPizuN"
def vaultAddress : Address := "4ZgXSpQgxc7wFKXocqKmSVknHzSKjsMLJbiScSmVkXnC"

/-- The address derived for the vault of this mint. -/
def derivation : Derivation where
  addressBytes a := if a = mint then List.replicate 32 9 else []
  createProgramAddress seeds program :=
    if seeds = [vaultSeed, List.replicate 32 9, [252]] ∧ program = ID then some vaultAddress else none
  findProgramAddress seeds program :=
    if seeds = [vaultSeed, List.replicate 32 9] ∧ program = ID then some (vaultAddress, 252) else none
  create_of_find := by
    intro seeds program address bump h
    split at h
    case isFalse => cases h
    case isTrue hseeds =>
      obtain ⟨rfl, rfl⟩ := hseeds
      cases h
      exact if_pos ⟨rfl, rfl⟩

/-- A runtime without limits, and a Token-2022 that accepts everything, or nothing. -/
def surroundings (accepts : Bool) : Surroundings Unit where
  derivation := derivation
  createAccount _ _ _ _ := .ok ()
  invokeSigned _ _ instruction infos signersSeeds :=
    if signersSeeds.any fun seeds => (derivation.createProgramAddress seeds ID).isNone then
      .error .invalidSeeds
    else if !(infos.any (·.key == instruction.programId)) then .error .missingAccount
    else if instruction.accounts.any fun m => !(infos.any (·.key == m.pubkey)) then
      .error .missingAccount
    else if instruction.accounts.any fun m => m.isWritable &&
        !(infos.any fun info => info.key == m.pubkey && info.isWritable) then
      .error .privilegeEscalation
    else if instruction.accounts.any fun m => m.isSigner &&
        !(infos.any fun info => info.key == m.pubkey && info.isSigner) &&
        !(signersSeeds.any fun seeds => derivation.createProgramAddress seeds ID == some m.pubkey) then
      .error .privilegeEscalation
    else if accepts then .ok () else .error (.callee "custom program error: 0x4")

def info (key owner : Address) (isSigner isWritable : Bool) : AccountInfo :=
  { key, owner, isSigner, isWritable }

def operator : AccountInfo := info "operator" "system" true true
def mintInfo : AccountInfo := info mint token2022ProgramAddress false false
def vaultInfo : AccountInfo := info vaultAddress ID false true
def vaultToken : AccountInfo := info "vault token" token2022ProgramAddress false true
def proof : AccountInfo := info "proof" zkElgamalProofProgramAddress false false
def tokenProgram : AccountInfo := info token2022ProgramAddress "loader" false false

def initializing : Call :=
  .initializeVault
    { operator, mint := mintInfo, vault := vaultInfo
      systemProgram := info Token2022.systemProgramId "loader" false false }

/-- A payout of 5 with one account for the transfer hook, which is a signer of the transaction. -/
def paying : Call :=
  .pay
    { operator, vault := vaultInfo, mint := mintInfo, vaultToken
      destinationToken := info "destination" token2022ProgramAddress false true
      equalityProof := proof, ciphertextValidityProof := proof, rangeProof := proof, tokenProgram }
    [info "hook account" "hook" true true] (.replicate 36 0) ((Vector.replicate 64 0).set 0 5)
    (.replicate 64 0)

def inputs : List (Input Unit) := [.call initializing, .call paying]

end Example

/-! ## Records -/

/-- A vault appears with one input, and only `initialize` makes a vault appear. -/
theorem created_by_initialize {rest : τ} {inputs : List (Input τ)} {v : Address} {vault : Vault}
    (h : (Machine.run (next env) (deployed rest) inputs).vaults v = some vault) :
    ∃ before a after, inputs = before ++ .call (.initializeVault a) :: after ∧
      (Machine.run (next env) (deployed rest) before).vaults v = none ∧
      (Machine.run (next env) (deployed rest) (before ++ [.call (.initializeVault a)])).vaults v =
        some vault ∧
      a.vault.key = v ∧ a.operator.key = vault.operator ∧ a.operator.isSigner = true ∧
      a.mint.key = vault.mint ∧ a.mint.owner = token2022ProgramAddress := by
  obtain ⟨before, input, after, rfl, hbefore, hafter⟩ :=
    Machine.exists_first (p := fun s : State τ => s.vaults v = some vault) (by simp [deployed]) h
  cases input with
  | elsewhere rest' => exact absurd hafter hbefore
  | call c =>
    cases hhandle : handle env c (Machine.run (next env) (deployed rest) before) with
    | error e =>
      rw [next_call_of_error hhandle] at hafter
      exact absurd hafter hbefore
    | ok s' =>
      have hpresent := hafter
      rw [next_call_of_ok hhandle] at hafter
      obtain ⟨a, bump, rest', rfl, hcreates, rfl⟩ | ⟨v', vault', hoperates⟩ := handle_cases hhandle
      · simp only [Function.update_apply] at hafter
        split at hafter
        case isTrue hv =>
          cases hafter
          refine ⟨before, a, after, rfl, ?_, ?_, hv.symm, rfl, hcreates.signed, rfl, hcreates.mint⟩
          · rw [hv]
            exact hcreates.unused
          · rw [Machine.run_append]
            exact hpresent
        case isFalse => exact absurd hafter hbefore
      · rw [hoperates.vaults] at hafter
        exact absurd hafter hbefore

/-- A vault that exists was created by one call, signed by the operator it names, for a mint of
    Token-2022, at the address derived for this mint. From then on it never changes, and the mint gets
    no other. -/
theorem vault_is_permanent {rest : τ} {inputs : List (Input τ)} {v : Address} {vault : Vault}
    (h : (Machine.run (next env) (deployed rest) inputs).vaults v = some vault) :
    (∀ later, (Machine.run (next env) (deployed rest) (inputs ++ later)).vaults v = some vault ∧
      ∀ v' vault', (Machine.run (next env) (deployed rest) (inputs ++ later)).vaults v' = some vault' →
        vault'.mint = vault.mint → v' = v) ∧
    env.derivation.createProgramAddress (vaultSeeds env vault.mint vault.bump) ID = some v ∧
    ∃ before a after, inputs = before ++ .call (.initializeVault a) :: after ∧
      (Machine.run (next env) (deployed rest) before).vaults v = none ∧
      (Machine.run (next env) (deployed rest) (before ++ [.call (.initializeVault a)])).vaults v =
        some vault ∧
      a.vault.key = v ∧ a.operator.key = vault.operator ∧ a.operator.isSigner = true ∧
      a.mint.key = vault.mint ∧ a.mint.owner = token2022ProgramAddress := by
  have hsound := sound_run env rest inputs
  have hderived := hsound.derived v vault h
  refine ⟨?_, env.derivation.create_of_find hderived, created_by_initialize h⟩
  intro later
  have hkeeps : Keeps (Machine.run (next env) (deployed rest) inputs)
      (Machine.run (next env) (deployed rest) (inputs ++ later)) := by
    rw [Machine.run_append]
    exact Machine.run_within sound_next (fun s input _ => keeps_next env s input) hsound later
  refine ⟨hkeeps v vault h, ?_⟩
  intro v' vault' hv' hmint
  have hderived' := (sound_run env rest (inputs ++ later)).derived v' vault' hv'
  rw [hmint, hderived] at hderived'
  exact (Prod.mk.inj (Option.some.inj hderived')).1.symm

theorem vault_is_permanent_example :
    (Machine.run (next (Example.surroundings true)) (deployed ())
        (Example.inputs ++ [.elsewhere ()])).vaults Example.vaultAddress =
      some { operator := "operator", mint := Example.mint, bump := 252 } := by
  have h : (Machine.run (next (Example.surroundings true)) (deployed ()) Example.inputs).vaults
      Example.vaultAddress = some { operator := "operator", mint := Example.mint, bump := 252 } := by
    decide +kernel
  exact ((vault_is_permanent h).1 [.elsewhere ()]).1

/-! ## Signatures and events -/

/-- Whatever the program ever had Token-2022 do was asked for by the operator of a vault, who signed,
    and is signed by that vault's address alone, which the seeds of the call derive; only to make room
    in the token account does the operator sign too, as the payer. -/
theorem calls_are_operated {rest : τ} {inputs : List (Input τ)} {call : Invoked}
    (h : call ∈ (Machine.run (next env) (deployed rest) inputs).invoked) :
    ∃ v vault, (Machine.run (next env) (deployed rest) inputs).vaults v = some vault ∧
      env.derivation.createProgramAddress (vaultSeeds env vault.mint vault.bump) ID = some v ∧
      (∃ info ∈ call.accounts, info.key = vault.operator ∧ info.isSigner = true) ∧
      SignedByVault v vault call.instruction := by
  have hsound := sound_run env rest inputs
  obtain ⟨v, vault, hv, hsigned, hrequest⟩ := hsound.authorized call h
  exact ⟨v, vault, hv, env.derivation.create_of_find (hsound.derived v vault hv), hsigned,
    hrequest.signedByVault⟩

theorem calls_are_operated_example :
    ∃ call ∈ (Machine.run (next (Example.surroundings true)) (deployed ()) Example.inputs).invoked,
      ∃ v vault, SignedByVault v vault call.instruction := by
  have h : ({ accounts := Example.paying.accounts,
              instruction := payInstruction _ _ _ _ _ } : Invoked) ∈
      (Machine.run (next (Example.surroundings true)) (deployed ()) Example.inputs).invoked :=
    List.mem_singleton.2 rfl
  obtain ⟨v, vault, -, -, -, hsigned⟩ := calls_are_operated h
  exact ⟨_, h, v, vault, hsigned⟩

/-- The events are the payouts, in order: what a reader of the program's log finds is what a reader of
    the raw Token-2022 instructions finds. -/
theorem events_are_payouts (rest : τ) (inputs : List (Input τ)) :
    (Machine.run (next env) (deployed rest) inputs).events =
      ((Machine.run (next env) (deployed rest) inputs).invoked.filterMap (readPayout ·.instruction)).map
        Payout.toPaid :=
  (sound_run env rest inputs).events

end ConfidentialVault
