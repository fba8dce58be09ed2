-- SUMMARY: What the SDK does with a hook list that is not in the interface's encoding.
import ConfidentialTransfers.Sdk.HookAccounts
import ConfidentialTransfers.Sdk.Operations

/-!
# Malformed hook lists

`transferHook.ts` has no `ConfidentialTransfersError`: what it rejects, it rejects
with a plain error, and a list that ends early it takes for a shorter one.
-/

open Solana

namespace Sdk

/-! ## Only reads, only plain errors -/

section Reads

variable {χ π α β : Type}

/-- A computation that only reads and throws plain errors. -/
structure PlainReads (m : Effect (World χ π) Thrown α) : Prop where
  silent : m.Within World.Silent
  raises : m.Raises Thrown.Plain

theorem PlainReads.pure (a : α) : PlainReads (pure a : Effect (World χ π) Thrown α) :=
  ⟨.pure a, .pure a⟩

theorem PlainReads.throw {e : Thrown} (h : e.Plain) :
    PlainReads (Effect.throw e : Effect (World χ π) Thrown α) :=
  ⟨.throw e, .throw h⟩

theorem PlainReads.ofExcept {r : Except Thrown α} (h : r.Raises Thrown.Plain) :
    PlainReads (Effect.ofExcept r : Effect (World χ π) Thrown α) :=
  ⟨.ofExcept r, .ofExcept h⟩

theorem PlainReads.bind {m : Effect (World χ π) Thrown β} {f : β → Effect (World χ π) Thrown α}
    (hm : PlainReads m) (hf : ∀ b, PlainReads (f b)) : PlainReads (m >>= f) :=
  ⟨hm.silent.bind fun b => (hf b).silent, hm.raises.bind fun b => (hf b).raises⟩

variable (net : Network χ π) (hk : HookSurroundings χ)

theorem plainReads_request (r : Request π) (reply : Nat → χ → α) :
    PlainReads (Effect.mapError .other (net.request r reply)) :=
  ⟨(within_request net World.Silent.tick r reply).mapError _, .mapError (fun _ => trivial) _⟩

theorem plainReads_getTransferHookProgram (mint : Address) :
    PlainReads (getTransferHookProgram net mint) := by
  refine (plainReads_request net _ _).bind fun reply => ?_
  cases reply with
  | error message => exact .throw trivial
  | ok data =>
    simp only
    split <;> exact .pure _

/-- Whatever the bytes of the config are. -/
theorem plainReads_unpackSeedsFrom (config : Bytes) (previous : List ResolvedAccount)
    (instructionData : Bytes) (fuel i : Nat) :
    PlainReads (unpackSeedsFrom net hk config previous instructionData fuel i) := by
  induction fuel generalizing i with
  | zero => exact .pure _
  | succ fuel ih =>
    have hrest : ∀ (seed : Bytes) (j : Nat),
        PlainReads (unpackSeedsFrom net hk config previous instructionData fuel j >>= fun seeds =>
          pure (seed :: seeds)) :=
      fun seed j => (ih j).bind fun seeds => .pure _
    unfold unpackSeedsFrom
    split
    · exact .pure _
    · exact .pure _
    · simp only
      split
      · exact .pure _
      · exact hrest _ _
    · exact hrest _ _
    · simp only
      split
      · exact .throw trivial
      · exact hrest _ _
    · simp only
      split
      · exact .throw trivial
      · refine (plainReads_request net _ _).bind fun data => ?_
        cases data with
        | none => exact .throw trivial
        | some data => exact hrest _ _
    · exact .throw trivial

theorem raises_programAddressOf (m : Meta) (previous : List ResolvedAccount) (hookProgram : Address) :
    (programAddressOf m previous hookProgram).Raises Thrown.Plain := by
  unfold programAddressOf
  split
  · dsimp only
    cases if (m.discriminator.toNat : Int) - (1 <<< 7) < 0 then none
        else previous[((m.discriminator.toNat : Int) - (1 <<< 7)).toNat]? with
    | none => exact .error trivial
    | some account => exact .ok _
  · exact .ok _

theorem plainReads_resolveMeta (m : Meta) (previous : List ResolvedAccount) (instructionData : Bytes)
    (hookProgram : Address) :
    PlainReads (resolveMeta net hk m previous instructionData hookProgram) := by
  unfold resolveMeta
  simp only
  split
  · exact .pure _
  · refine (PlainReads.ofExcept (raises_programAddressOf m previous hookProgram)).bind fun program => ?_
    refine (plainReads_unpackSeedsFrom net hk _ _ _ _ _).bind fun seeds => ?_
    exact (PlainReads.ofExcept (.mapError (fun _ => trivial) _)).bind fun address => .pure _

theorem plainReads_resolveMetas (instructionData : Bytes) (hookProgram : Address) (metas : List Meta)
    (resolved : List ResolvedAccount) :
    PlainReads (resolveMetas net hk instructionData hookProgram metas resolved) := by
  induction metas generalizing resolved with
  | nil => exact .pure _
  | cons m metas ih => exact (plainReads_resolveMeta net hk _ _ _ _).bind fun account => ih _

/-- Whatever is stored, the call only reads and throws plain errors. -/
theorem plainReads_resolveTransferHookAccounts (input : ResolveTransferHookAccountsInput) :
    PlainReads (resolveTransferHookAccounts net hk input) := by
  refine (plainReads_getTransferHookProgram net _).bind fun program => ?_
  cases program with
  | none => exact .pure _
  | some hookProgram =>
    refine (PlainReads.ofExcept (.mapError (fun _ => trivial) _)).bind fun metaListAddress => ?_
    refine (plainReads_request net _ _).bind fun data => ?_
    cases data with
    | none => exact .pure _
    | some data => exact (plainReads_resolveMetas net hk _ _ _ _).bind fun resolved => .pure _

end Reads

/-- The client whose transfers resolve the accounts of the mint's hook. -/
def Client.withHooks {χ F G : Type} [CommRing F] [AddCommGroup G] [Module F G] (c : Client χ F G)
    (hk : HookSurroundings χ) : Client χ F G where
  net := c.net
  kit := c.kit
  zk := c.zk
  findAssociatedTokenPda := c.findAssociatedTokenPda
  resolveTransferHookAccounts mint sourceToken destinationToken owner _ :=
    Sdk.resolveTransferHookAccounts c.net hk { mint, sourceToken, destinationToken, owner }
  resolve_silent _ _ _ _ _ := (plainReads_resolveTransferHookAccounts c.net hk _).silent
  resolve_plain _ _ _ _ _ := (plainReads_resolveTransferHookAccounts c.net hk _).raises
  transferRandomness := c.transferRandomness
  withdrawRandomness := c.withdrawRandomness
  nonce := c.nonce
  firstRejects := c.firstRejects

/-! ## What malformed means -/

variable {χ π : Type} (net : Network χ π) (hk : HookSurroundings χ)

/-- The mint's hook has a list stored that is malformed. -/
def StoresMalformedList (input : ResolveTransferHookAccountsInput) (w : World χ π) : Prop :=
  ∃ hookProgram metaListAddress data, HasHook net input.mint w hookProgram ∧
    findExtraAccountMetaListPda hk input.mint hookProgram = .ok metaListAddress ∧
    hk.accountData w.chain metaListAddress = some data ∧
    MalformedList (hk.access w.chain)
      (executeInstructionData (input.amount.getD confidentialTransferHookAmount)) hookProgram
      ((executeAccounts input metaListAddress).map (·.address)) data

/-- Rejected with a `ConfidentialTransfersError`. -/
def RefusedWithCode {α : Type} (outcome : Except Thrown α) : Prop := ∃ e, outcome = .error (.sdk e)

/-- A list that can be resolved is not malformed. -/
theorem not_malformedList_of_resolves {access : AccountAccess} {instructionData : Bytes}
    {hookProgram : Address} {accounts : List Address} {metas : List ExtraAccountMeta}
    {entries : List ResolvedAccount} (hfits : MetaListFits metas) (rest : Bytes)
    (h : resolveMetaList access instructionData hookProgram accounts metas = .ok entries) :
    ¬ MalformedList access instructionData hookProgram accounts (packMetaList metas ++ rest) := by
  intro hmalformed
  have hfailed := hmalformed metas (decodeMetaList_pack hfits rest)
  rw [h] at hfailed
  cases hfailed

/-- A count larger than the data holds is malformed. -/
theorem malformedList_of_short {access : AccountAccess} {instructionData : Bytes} {hookProgram : Address}
    {accounts : List Address} {count : Nat} (hcount : count < 2 ^ 32) {bytes : Bytes}
    (h : bytes.length < 35 * count) :
    MalformedList access instructionData hookProgram accounts (listHeader count ++ bytes) := by
  intro metas hmetas
  rw [decodeMetaList_listHeader hcount, decodeEntries_short h] at hmetas
  cases hmetas

variable {net hk}

/-- A list that ends early is resolved as the entries that are there. -/
theorem resolveTransferHookAccounts_short (hserves : ServesAccounts net)
    {input : ResolveTransferHookAccountsInput} {w : World χ π} {hookProgram metaListAddress : Address}
    {metas : List ExtraAccountMeta} {count : Nat} {rest : Bytes} {entries : List ResolvedAccount}
    (hhook : HasHook net input.mint w hookProgram)
    (haddress : findExtraAccountMetaListPda hk input.mint hookProgram = .ok metaListAddress)
    (hfits : ∀ m ∈ metas, m.address.Fits) (hcount : count < 2 ^ 32) (hle : metas.length ≤ count)
    (hrest : rest.length < metaEntry)
    (hdata : hk.accountData w.chain metaListAddress =
      some (listHeader count ++ (metas.flatMap ExtraAccountMeta.pack ++ rest)))
    (hentries : resolveMetaList (hk.access w.chain)
      (executeInstructionData (input.amount.getD confidentialTransferHookAmount)) hookProgram
      ((executeAccounts input metaListAddress).map (·.address)) metas = .ok entries) :
    Returns (resolveTransferHookAccounts net hk input)
      (hookAccounts entries hookProgram metaListAddress) w := by
  refine resolveTransferHookAccounts_returns hserves hhook haddress hdata fun w' hw' => ?_
  rw [parseMetaList_listHeader hfits hcount hle (.inr hrest)]
  refine resolveMetas_returns hserves hfits ?_
  rw [hw']
  exact hentries

variable (net hk)

/-- A stored list is refused with a code if it is malformed, exactly when it is not malformed. -/
theorem refuses_malformedList_iff (input : ResolveTransferHookAccountsInput) (w : World χ π) :
    (StoresMalformedList net hk input w →
        RefusedWithCode (resolveTransferHookAccounts net hk input w).1) ↔
      ¬ StoresMalformedList net hk input w := by
  have hnever : ¬ RefusedWithCode (resolveTransferHookAccounts net hk input w).1 := by
    rintro ⟨e, he⟩
    exact (plainReads_resolveTransferHookAccounts net hk input).raises w (.sdk e) he
  exact ⟨fun h hmalformed => hnever (h hmalformed), fun h hmalformed => absurd hmalformed h⟩

/-- A list that announces three entries and holds none: malformed, and resolved to the hook program and
    the list's account. -/
theorem empty_list_of_three :
    StoresMalformedList HookedMint.network (HookedMint.surroundings (listHeader 3)) HookedMint.input
        { chain := () } ∧
      (resolveTransferHookAccounts HookedMint.network (HookedMint.surroundings (listHeader 3))
          HookedMint.input { chain := () }).1 =
        .ok [{ address := HookedMint.hookProgram, role := .readonly },
          { address := HookedMint.metaList, role := .readonly }] := by
  have haddress : findExtraAccountMetaListPda (HookedMint.surroundings (listHeader 3))
      HookedMint.mint HookedMint.hookProgram = .ok HookedMint.metaList := by decide +kernel
  have hdata : (HookedMint.surroundings (listHeader 3)).accountData () HookedMint.metaList =
      some (listHeader 3 ++ []) := by decide +kernel
  refine ⟨⟨_, _, _, HookedMint.hasHook, haddress, hdata, ?_⟩, ?_⟩
  · exact malformedList_of_short (by decide) (by decide)
  · exact (resolveTransferHookAccounts_short (fun _ _ => rfl) HookedMint.hasHook haddress
      (fun m hm => absurd hm List.not_mem_nil) (by decide) (Nat.zero_le 3) (by decide) hdata rfl).result

end Sdk
