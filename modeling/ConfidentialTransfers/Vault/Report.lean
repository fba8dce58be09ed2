-- SUMMARY: The auditor's report of a mint lists the payouts of the mint's vault, in order and with their amounts.
import ConfidentialTransfers.Sdk.Books
import ConfidentialTransfers.Vault.Runs

/-!
# Payouts in the auditor's report

The vault program builds its instructions in Rust from their byte layout, and
the auditor's report reads them in TypeScript. Whatever the program had
Token-2022 do in a run is somewhere among the instructions of the chain, and
the report of a mint finds in it the payouts of the mint's vault.
-/

open Solana Sdk

namespace ConfidentialVault

variable {F G : Type} [CommRing F] [AddCommGroup G] [Module F G]

/-- The token client's decoder finds the auditor's ciphertexts where the layout has them. -/
def DecodesTransfers (codec : InstructionCodec) : Prop :=
  ∀ data newBalance lo hi offsets,
    Token2022.TokenInstruction.unpack data = some (.transfer newBalance lo hi offsets) →
      codec.decodeConfidentialTransfer data = .ok (lo, hi)

/-! ## A call on chain -/

/-- An RPC that describes `ix` gives the program, the accounts and the data of `i`. -/
def IsCall (codec : InstructionCodec) (i : ProgramInstruction) (ix : ChainInstruction) : Prop :=
  ∃ keys raw, RendersInstruction codec token2022ProgramAddress keys raw ix ∧
    RefersTo keys raw i.programId (i.accounts.map (·.pubkey)) ∧ codec.base58Encode raw.data = i.data

/-- The instructions executed, in order. Among them are the calls, in order; the others are not of this
    kind. -/
inductive Contains (codec : InstructionCodec) (other : ChainInstruction → Prop) :
    List ChainInstruction → List ProgramInstruction → Prop
  | nil : Contains codec other [] []
  | call {ix : ChainInstruction} {i : ProgramInstruction} {ixs : List ChainInstruction}
    {is : List ProgramInstruction} (hcall : IsCall codec i ix) (hrest : Contains codec other ixs is) :
    Contains codec other (ix :: ixs) (i :: is)
  | other {ix : ChainInstruction} {ixs : List ChainInstruction} {is : List ProgramInstruction}
    (hother : other ix) (hrest : Contains codec other ixs is) : Contains codec other (ix :: ixs) is

/-- What was executed, transactions that failed left out. -/
def executed (chain : List ExecutedTransaction) : List ChainInstruction :=
  (chain.filter ExecutedTransaction.succeeded).flatMap ExecutedTransaction.instructions

/-- The instruction moves nothing of this mint out of these token accounts. -/
def MovesElsewhere (mint : Address) (tokens : List Address) (ix : ChainInstruction) : Prop :=
  ∀ m, movementOf mint ix = some m → m.source.address ∉ tokens

/-- The payout of a mint that an instruction is. -/
def readPayoutOf (mint : Address) (i : ProgramInstruction) : Option Payout :=
  (readPayout i).filter (·.mint == mint)

/-- A movement is this payout. -/
structure IsPayout (p : Payout) (m : TokenMovement) : Prop where
  source : m.source.address = p.source
  transfer : ∃ source destination,
    m = .transfer source destination p.auditorCiphertextLo p.auditorCiphertextHi ∧
      destination.address = p.destination

theorem RefersTo.accounts_eq {keys : List Address} {raw : RawInstruction} {program program' : Address}
    {accounts accounts' : List Address} (h : RefersTo keys raw program accounts)
    (h' : RefersTo keys raw program' accounts') : program = program' ∧ accounts = accounts' := by
  refine ⟨Option.some.inj (h.program.symm.trans h'.program), ?_⟩
  have hmap := h.accounts.symm.trans h'.accounts
  exact (List.map_inj_right fun _ _ => Option.some.inj).mp hmap

variable {codec : InstructionCodec} {v : Address} {vault : Vault}

/-- Data of a movement has one of the movements' discriminators. -/
theorem EncodedAs.mem_movementDiscriminators {data : Bytes} {m : TokenMovement}
    (h : EncodedAs codec data m) : ∃ inner ∈ movementDiscriminators, data[1]? = some inner := by
  cases m with
  | deposit token amount => exact ⟨_, by simp [movementDiscriminators], h.1⟩
  | withdraw token amount => exact ⟨_, by simp [movementDiscriminators], h.1⟩
  | transfer source destination lo hi => exact ⟨_, by simp [movementDiscriminators], h.1⟩
  | transferWithFee source destination => exact ⟨_, by simp [movementDiscriminators], h⟩

/-- An instruction without the discriminators of a movement is none on chain. -/
theorem IsCall.movementOf_eq_none {i : ProgramInstruction} {ix : ChainInstruction}
    (h : IsCall codec i ix) (mint : Address) {ext inner : UInt8} {rest : Bytes}
    (hdata : i.data = ext :: inner :: rest)
    (hnot : ¬(ext = confidentialTransferDiscriminator ∧ inner ∈ movementDiscriminators)) :
    movementOf mint ix = none := by
  obtain ⟨keys, raw, hrenders, -, hbytes⟩ := h
  cases ix with
  | movement m mint' others =>
    obtain ⟨-, hfirst, hencoded⟩ := hrenders
    rw [hbytes, hdata] at hfirst hencoded
    obtain ⟨inner', hinner, hsecond⟩ := EncodedAs.mem_movementDiscriminators hencoded
    obtain rfl : inner = inner' := Option.some.inj hsecond
    exact absurd ⟨Option.some.inj hfirst, hinner⟩ hnot
  | applyPendingBalance token others => rfl
  | other program accounts data => rfl

/-- A payout is a transfer on chain, between the accounts and with the ciphertexts it has. -/
theorem IsCall.movement_of_transfer (hcodec : DecodesTransfers codec) {a : Pay}
    {remainingAccounts : List AccountInfo} {newBalance : Vector UInt8 36} {lo hi : Vector UInt8 64}
    {ix : ChainInstruction}
    (h : IsCall codec (payInstruction a remainingAccounts newBalance lo hi) ix) :
    ∃ source destination others, source.address = a.vaultToken.key ∧
      destination.address = a.destinationToken.key ∧
      ix = .movement (.transfer source destination lo.toList hi.toList) a.mint.key others := by
  obtain ⟨keys, raw, hrenders, hrefers, hbytes⟩ := h
  have hdiscriminators : HasDiscriminators (codec.base58Encode raw.data)
      confidentialTransferInnerDiscriminator := by
    rw [hbytes]
    exact ⟨rfl, rfl⟩
  cases ix with
  | movement m mint others =>
    obtain ⟨hrefers', -, hencoded⟩ := hrenders
    obtain ⟨-, haccounts⟩ := RefersTo.accounts_eq hrefers' hrefers
    cases m with
    | deposit token amount =>
      exact absurd (hencoded.1.symm.trans hdiscriminators.2) (by decide)
    | withdraw token amount =>
      exact absurd (hencoded.1.symm.trans hdiscriminators.2) (by decide)
    | transferWithFee source destination =>
      exact absurd (hencoded.symm.trans hdiscriminators.2) (by decide)
    | transfer source destination auditorLo auditorHi =>
      have hdecoded := hencoded.2
      rw [hbytes, hcodec _ _ _ _ _ (unpack_payInstruction a remainingAccounts newBalance lo hi)]
        at hdecoded
      obtain ⟨rfl, rfl⟩ := Prod.mk.inj (Except.ok.inj hdecoded)
      obtain ⟨hsource, hrest⟩ := List.cons.inj haccounts
      obtain ⟨hmint, hrest⟩ := List.cons.inj hrest
      obtain ⟨hdestination, -⟩ := List.cons.inj hrest
      subst hmint
      exact ⟨source, destination, others, hsource, hdestination, rfl⟩
  | applyPendingBalance token others =>
    exact absurd (hrenders.2.2.symm.trans hdiscriminators.2) (by decide)
  | other program accounts data =>
    obtain ⟨hrefers', rfl, hnot⟩ := hrenders
    obtain ⟨rfl, -⟩ := RefersTo.accounts_eq hrefers' hrefers
    exact absurd ⟨rfl, hdiscriminators⟩ (hnot _ (by simp [movementDiscriminators]))

/-- The movement of a mint that a request of a vault is on chain, is the payout it is. -/
theorem Request.movementOf (hcodec : DecodesTransfers codec) {i : ProgramInstruction}
    (hrequest : Request v vault i) {ix : ChainInstruction} (hcall : IsCall codec i ix) (mint : Address) :
    Option.Rel IsPayout (readPayoutOf mint i) (Sdk.movementOf mint ix) := by
  cases hrequest with
  | reallocate token =>
    rw [hcall.movementOf_eq_none mint rfl (by decide)]
    simp only [readPayoutOf, readPayout_reallocate, Option.filter_none]
    exact .none
  | configureAccount token proof zeroBalance =>
    rw [hcall.movementOf_eq_none mint rfl (by decide)]
    simp only [readPayoutOf, readPayout_configureAccount, Option.filter_none]
    exact .none
  | applyPendingBalance token counter newBalance =>
    rw [hcall.movementOf_eq_none mint rfl (by decide)]
    simp only [readPayoutOf, readPayout_applyPendingBalance, Option.filter_none]
    exact .none
  | transfer a remainingAccounts newBalance lo hi hvault hmint =>
    obtain ⟨source, destination, others, hsource, hdestination, rfl⟩ := hcall.movement_of_transfer hcodec
    simp only [readPayoutOf, readPayout_payInstruction, Option.filter_some, beq_iff_eq, Sdk.movementOf]
    split
    · exact .some ⟨hsource, source, destination, rfl, hdestination⟩
    · exact .none

/-- What can be told of the calls, each by itself, is told by the instructions among which they are. -/
theorem Contains.filterMap_eq {β : Type} {other : ChainInstruction → Prop} {ixs : List ChainInstruction}
    {is : List ProgramInstruction} (h : Contains codec other ixs is) {f : ChainInstruction → Option β}
    {g : ProgramInstruction → Option β} (hcalls : ∀ i ∈ is, ∀ ix, IsCall codec i ix → f ix = g i)
    (hothers : ∀ ix, other ix → f ix = none) : ixs.filterMap f = is.filterMap g := by
  induction h with
  | nil => rfl
  | @call ix i ixs is hcall hrest ih =>
    rw [List.filterMap_cons, List.filterMap_cons, hcalls i List.mem_cons_self ix hcall,
      ih fun j hj => hcalls j (List.mem_cons_of_mem _ hj)]
  | other hother hrest ih =>
    rw [List.filterMap_cons, hothers _ hother]
    exact ih hcalls

/-! ## Payouts of a vault -/

variable {τ : Type} {env : Surroundings τ} {s : State τ}

/-- The payouts of a vault name it and its mint. -/
theorem Request.readPayout_eq_some {i : ProgramInstruction} (hrequest : Request v vault i) {p : Payout}
    (hread : readPayout i = some p) : p.vault = v ∧ p.mint = vault.mint := by
  cases hrequest with
  | reallocate token => simp at hread
  | configureAccount token proof zeroBalance => simp at hread
  | applyPendingBalance token counter newBalance => simp at hread
  | transfer a remainingAccounts newBalance lo hi hvault hmint =>
    rw [readPayout_payInstruction, Option.some.injEq] at hread
    subst hread
    exact ⟨hvault, hmint⟩

/-- A mint has one vault. -/
theorem Sound.mint_eq_iff (hsound : Sound env s) {v' : Address} {vault' : Vault}
    (hv : s.vaults v = some vault) (hv' : s.vaults v' = some vault') :
    vault'.mint = vault.mint ↔ v' = v := by
  constructor
  · intro hmint
    have hderived := hsound.derived v vault hv
    have hderived' := hsound.derived v' vault' hv'
    rw [hmint, hderived] at hderived'
    exact (Prod.mk.inj (Option.some.inj hderived')).1.symm
  · rintro rfl
    rw [hv] at hv'
    rw [Option.some.inj hv']

/-- The payouts of a mint are those of its vault. -/
theorem Sound.readPayoutOf_eq (hsound : Sound env s) (hv : s.vaults v = some vault) {call : Invoked}
    (hcall : call ∈ s.invoked) :
    readPayoutOf vault.mint call.instruction =
      (readPayout call.instruction).filter (·.vault == v) := by
  obtain ⟨v', vault', hv', -, hrequest⟩ := hsound.authorized call hcall
  unfold readPayoutOf
  cases hread : readPayout call.instruction with
  | none => rfl
  | some p =>
    obtain ⟨hvault, hmint⟩ := hrequest.readPayout_eq_some hread
    simp only [Option.filter_some, beq_iff_eq, hvault, hmint, hsound.mint_eq_iff hv hv']

/-- The payouts of a vault, in order. -/
def State.payoutsOf (s : State τ) (v : Address) : List Payout :=
  (s.invoked.filterMap (readPayout ·.instruction)).filter (·.vault == v)

/-- The events of a vault are its payouts. -/
theorem Sound.events_filter (hsound : Sound env s) (v : Address) :
    s.events.filter (·.vault == v) = (s.payoutsOf v).map Payout.toPaid := by
  rw [hsound.events, List.filter_map]
  rfl

/-- They are the payouts of its mint. -/
theorem Sound.payoutsOf_eq (hsound : Sound env s) (hv : s.vaults v = some vault) :
    s.payoutsOf v = (s.invoked.map (·.instruction)).filterMap (readPayoutOf vault.mint) := by
  rw [State.payoutsOf, List.filter_filterMap, List.filterMap_map]
  apply List.filterMap_congr
  intro call hcall
  exact (hsound.readPayoutOf_eq hv hcall).symm

/-! ## The report -/

/-- The entry is about a movement out of one of these token accounts. -/
def isOutOf (tokens : List Address) (entry : Movement) : Bool := (tokens.map some).contains entry.fromToken

@[simp] theorem isOutOf_iff {tokens : List Address} {entry : Movement} :
    isOutOf tokens entry = true ↔ ∃ token ∈ tokens, entry.fromToken = some token := by
  simp [isOutOf, eq_comm]

/-- What the report says of a payout, without regard to owners. -/
structure Summary where
  kind : ConfidentialActivityKind
  toToken : Option Address
  amount : Option Nat

def summaryOf (entry : Movement) : Summary :=
  { kind := entry.kind, toToken := entry.toToken, amount := entry.amount }

/-- What it should say. -/
def Payout.summary (zk : ZkSdk F G) (secret : Fˣ) (p : Payout) : Summary where
  kind := .transfer
  toToken := some p.destination
  amount := (decryptHalves zk secret p.auditorCiphertextLo p.auditorCiphertextHi).toOption

theorem reportedMovement_fromToken (zk : ZkSdk F G) (secret : Fˣ) (owner : TokenAccount → Option Address)
    (m : TokenMovement) : (reportedMovement zk secret owner m).fromToken = some m.source.address := by
  cases m with
  | deposit token amount => rfl
  | withdraw token amount => rfl
  | transfer source destination lo hi =>
    simp only [reportedMovement]
    split <;> rfl
  | transferWithFee source destination => rfl

theorem IsPayout.summaryOf_eq {p : Payout} {m : TokenMovement} (h : IsPayout p m) (zk : ZkSdk F G)
    (secret : Fˣ) (owner : TokenAccount → Option Address) :
    summaryOf (reportedMovement zk secret owner m) = p.summary zk secret := by
  obtain ⟨source, destination, rfl, hdestination⟩ := h.transfer
  simp only [reportedMovement, Payout.summary]
  split
  case h_1 hdecrypt => simp [summaryOf, hdecrypt, Except.toOption, TokenMovement.destination, hdestination]
  case h_2 hdecrypt => simp [summaryOf, hdecrypt, Except.toOption, TokenMovement.destination, hdestination]

theorem summaryOf_reportedMovement (zk : ZkSdk F G) (secret : Fˣ)
    (owner owner' : TokenAccount → Option Address) (m : TokenMovement) :
    summaryOf (reportedMovement zk secret owner m) = summaryOf (reportedMovement zk secret owner' m) := by
  cases m with
  | deposit token amount => rfl
  | withdraw token amount => rfl
  | transfer source destination lo hi =>
    simp only [reportedMovement]
    split <;> rfl
  | transferWithFee source destination => rfl

/-- What is said of a movement out of one of these accounts. -/
def summaryOutOf (zk : ZkSdk F G) (secret : Fˣ) (tokens : List Address) (m : TokenMovement) :
    Option Summary :=
  if m.source.address ∈ tokens then some (summaryOf (reportedMovement zk secret (fun _ => none) m)) else none

/-- The entries of a report are those of the movements executed, one for each. -/
theorem filterMap_historyReport {β : Type} (zk : ZkSdk F G) (secret : Fˣ) (mint : Address)
    (owner : ExecutedTransaction → TokenAccount → Option Address) (chain : List ExecutedTransaction)
    {f : Movement → Option β} {g : TokenMovement → Option β}
    (hfg : ∀ owner m, f (reportedMovement zk secret owner m) = g m) :
    (historyReport zk secret mint owner chain).filterMap (fun entry => f entry.toMovement) =
      (executed chain).filterMap fun ix => (Sdk.movementOf mint ix).bind g := by
  unfold historyReport executed
  rw [List.filterMap_flatMap, List.filterMap_flatMap]
  apply List.flatMap_congr
  intro tx _
  unfold transactionReport movementsOf
  rw [List.filterMap_map, List.filterMap_filterMap]
  simp only [Function.comp_def, hfg]

/-- What a call moves out of a vault's accounts is the vault's payout that the call is. -/
theorem IsCall.summaryOutOf_eq (zk : ZkSdk F G) (secret : Fˣ) {tokens : List Address}
    (hsound : Sound env s) (hv : s.vaults v = some vault) (hcodec : DecodesTransfers codec)
    (htokens : ∀ p ∈ s.payoutsOf v, p.source ∈ tokens) {i : ProgramInstruction}
    (hi : i ∈ s.invoked.map (·.instruction)) {ix : ChainInstruction} (hix : IsCall codec i ix) :
    (Sdk.movementOf vault.mint ix).bind (summaryOutOf zk secret tokens) =
      (readPayoutOf vault.mint i).map (Payout.summary zk secret) := by
  obtain ⟨call, hcall, rfl⟩ := List.mem_map.mp hi
  obtain ⟨v', vault', -, -, hrequest⟩ := hsound.authorized call hcall
  have hsource : ∀ p, readPayoutOf vault.mint call.instruction = some p → p.source ∈ tokens := by
    intro p hp
    apply htokens
    rw [hsound.payoutsOf_eq hv]
    exact List.mem_filterMap.mpr ⟨_, hi, hp⟩
  have hpayout := hrequest.movementOf hcodec hix vault.mint
  generalize readPayoutOf vault.mint call.instruction = payout at hpayout hsource ⊢
  generalize Sdk.movementOf vault.mint ix = movement at hpayout ⊢
  cases hpayout with
  | none => rfl
  | some hpayout =>
    rw [Option.bind_some, Option.map_some, summaryOutOf, if_pos, hpayout.summaryOf_eq]
    rw [hpayout.source]
    exact hsource _ rfl

/-- The summaries of the entries out of a vault's accounts are those of its payouts. -/
theorem summaries_eq (zk : ZkSdk F G) (secret : Fˣ) {chain : List ExecutedTransaction}
    {tokens : List Address} (hsound : Sound env s) (hv : s.vaults v = some vault)
    (hcodec : DecodesTransfers codec)
    (hcontains : Contains codec (MovesElsewhere vault.mint tokens) (executed chain)
      (s.invoked.map (·.instruction)))
    (htokens : ∀ p ∈ s.payoutsOf v, p.source ∈ tokens) :
    ((historyReport zk secret vault.mint ownerBefore chain).filter (isOutOf tokens ·.toMovement)).map
        (summaryOf ·.toMovement) =
      (s.payoutsOf v).map (Payout.summary zk secret) := by
  have hentry : ∀ owner m, (if isOutOf tokens (reportedMovement zk secret owner m) then
      some (summaryOf (reportedMovement zk secret owner m)) else none) =
        summaryOutOf zk secret tokens m := by
    intro owner m
    unfold summaryOutOf
    rw [summaryOf_reportedMovement zk secret owner fun _ => none]
    simp [reportedMovement_fromToken]
  have hother : ∀ ix, MovesElsewhere vault.mint tokens ix →
      (Sdk.movementOf vault.mint ix).bind (summaryOutOf zk secret tokens) = none := by
    intro ix hix
    cases hmovement : Sdk.movementOf vault.mint ix with
    | none => rfl
    | some m => exact if_neg (hix m hmovement)
  calc
    ((historyReport zk secret vault.mint ownerBefore chain).filter (isOutOf tokens ·.toMovement)).map
        (summaryOf ·.toMovement)
    _ = (historyReport zk secret vault.mint ownerBefore chain).filterMap fun entry =>
        if isOutOf tokens entry.toMovement then some (summaryOf entry.toMovement) else none := by
      rw [← List.filterMap_eq_map, List.filterMap_filter]
      rfl
    _ = (executed chain).filterMap fun ix =>
        (Sdk.movementOf vault.mint ix).bind (summaryOutOf zk secret tokens) :=
      filterMap_historyReport (f := fun entry =>
        if isOutOf tokens entry then some (summaryOf entry) else none) zk secret vault.mint ownerBefore
        chain hentry
    _ = (s.invoked.map (·.instruction)).filterMap fun i =>
        (readPayoutOf vault.mint i).map (Payout.summary zk secret) :=
      hcontains.filterMap_eq
        (fun i hi ix hix => hix.summaryOutOf_eq zk secret hsound hv hcodec htokens hi) hother
    _ = (s.payoutsOf v).map (Payout.summary zk secret) := by
      rw [hsound.payoutsOf_eq hv, List.map_filterMap]

/-- The report of a vault's mint lists the vault's payouts: out of the vault's token accounts there are
    as many entries as the vault has events, in the same order and to the same accounts, and each with
    the amount its ciphertexts hold for the auditor. Everything the program had Token-2022 do is among
    the instructions executed, and nobody else moved anything out of these accounts. -/
theorem report_lists_payouts {rest : τ} {inputs : List (Input τ)} {zk : ZkSdk F G}
    {input : ListConfidentialActivityInput F} {rpc : HistoryRpc} {chain : List ExecutedTransaction}
    {tokens : List Address}
    (hv : (Machine.run (next env) (deployed rest) inputs).vaults v = some vault)
    (hcodec : DecodesTransfers codec)
    (hcontains : Contains codec (MovesElsewhere vault.mint tokens) (executed chain)
      ((Machine.run (next env) (deployed rest) inputs).invoked.map (·.instruction)))
    (htokens : ∀ p ∈ (Machine.run (next env) (deployed rest) inputs).payoutsOf v, p.source ∈ tokens)
    (hprogram : input.programAddress = none) (hmint : input.mint = vault.mint)
    (hserves : Serves codec token2022ProgramAddress input.mint rpc
      (chain.filter (·.mentions input.mint)))
    (hall : input.ReadsAll) (hkey : KeyAccepted zk rpc input) {fuel : Nat}
    (hfuel : (chain.filter (·.mentions input.mint)).length / pageLimit < fuel) :
    ∃ entries, listConfidentialActivity codec zk rpc input fuel = some (.ok entries) ∧
      (entries.filter (isOutOf tokens ·.toMovement)).map (fun entry => (entry.kind, entry.toToken)) =
        ((Machine.run (next env) (deployed rest) inputs).events.filter (·.vault == v)).map
          (fun paid => (.transfer, some paid.destination)) ∧
      ∀ amounts : List Nat,
        List.Forall₂ (fun p amount => amount < 2 ^ 48 ∧ AuditorHalves zk input.auditorSecret
            p.auditorCiphertextLo p.auditorCiphertextHi amount)
          ((Machine.run (next env) (deployed rest) inputs).payoutsOf v) amounts →
        (entries.filter (isOutOf tokens ·.toMovement)).map (·.amount) = amounts.map some := by
  have hsound := sound_run env rest inputs
  generalize Machine.run (next env) (deployed rest) inputs = s at hv hcontains htokens hsound ⊢
  have hsummaries := summaries_eq zk input.auditorSecret hsound hv hcodec hcontains htokens
  have hserves' : Serves codec (input.programAddress.getD token2022ProgramAddress) input.mint rpc
      (chain.filter (·.mentions input.mint)) := by
    rw [hprogram]
    exact hserves
  refine ⟨_, listConfidentialActivity_eq hserves' hall hkey hfuel, ?_, ?_⟩
  · rw [historyReport_mentions, hmint, hsound.events_filter]
    have hkinds := congrArg (List.map fun x : Summary => (x.kind, x.toToken)) hsummaries
    simp only [List.map_map] at hkinds ⊢
    exact hkinds
  · intro amounts hamounts
    rw [historyReport_mentions, hmint]
    have hread := congrArg (List.map Summary.amount) hsummaries
    simp only [List.map_map] at hread
    refine Eq.trans hread ?_
    generalize s.payoutsOf v = payouts at hamounts
    induction hamounts with
    | nil => rfl
    | cons hp _ ih =>
      obtain ⟨hamount, lo, hi, hloBytes, hhiBytes, hlo, hhi⟩ := hp
      simp only [List.map_cons, ih, Function.comp_apply, Payout.summary,
        decryptHalves_of_holds zk hloBytes hhiBytes hlo hhi hamount]
      rfl

/-! ### Two payouts, and a transfer of somebody else in between -/

namespace Example

def payoutData : Bytes :=
  [27, 7] ++ List.replicate 36 0 ++ ZkSdk.modular.ciphertextToBytes (5, 0) ++
    ZkSdk.modular.ciphertextToBytes (0, 0) ++ [0, 0, 0]

/-- In base58. -/
def payoutText : String :=
  "3gH4gev4KvzAPokXYzUnr2cn5B62o5Xk7PX7iNVBf3KCgmWrfAey6H7nT3x1HzVkjUqF81pw3ThAbYwz" ++
    "WqTysyvy3s7rc8Z932XHs6M45vgWsnDpL32aUmDRQLMG6EXqMSpMxtwHgeLYqYud2x25ycUQeFUuyamf" ++
    "vpXQjJCr6Ar95jNwzzjxgetUZWZRso5YrQXG6M19H61hHg7fpMARdhCWiPMPyETDc9oaPPd"

/-- Base58 on its data, and the decoder by its layout. -/
def payoutCodec : InstructionCodec where
  base58Encode text := if text = payoutText then payoutData else [1]
  decodeConfidentialDeposit _ := .error "not a deposit"
  decodeConfidentialWithdraw _ := .error "not a withdrawal"
  decodeConfidentialTransfer data :=
    match Token2022.TokenInstruction.unpack data with
    | some (.transfer _ lo hi _) => .ok (lo, hi)
    | _ => .error "not a transfer"

theorem payoutCodec_decodesTransfers : DecodesTransfers payoutCodec := by
  intro data newBalance lo hi offsets h
  simp only [payoutCodec, h]

theorem encode_payoutText : payoutCodec.base58Encode payoutText = payoutData := by
  simp only [payoutCodec, if_true]

/-- The payout, as the program asks for it. -/
def payout : ProgramInstruction where
  programId := token2022ProgramAddress
  accounts := [.new "vault token" false, .newReadonly mint false, .new "destination" false,
    .newReadonly "proof" false, .newReadonly "proof" false, .newReadonly "proof" false,
    .newReadonly vaultAddress true, .new "hook account" false]
  data := payoutData

def keys : List Address :=
  ["operator", vaultAddress, "vault token", "destination", "hook account", mint, "proof",
    token2022ProgramAddress, ID, "alice token", "alice"]

/-- The vault's instruction, and the transfer it invokes. -/
def vaultInstruction : ChainInstruction := .other ID ["operator", vaultAddress] [1]

def rawVaultInstruction : RawInstruction := { programIdIndex := 8, accounts := [0, 1], data := "2" }

def transfer : ChainInstruction :=
  .movement (.transfer ⟨"vault token", vaultAddress⟩ ⟨"destination", "bob"⟩
      (ZkSdk.modular.ciphertextToBytes (5, 0)) (ZkSdk.modular.ciphertextToBytes (0, 0))) mint
    ["proof", "proof", "proof", vaultAddress, "hook account"]

def rawTransfer : RawInstruction :=
  { programIdIndex := 7, accounts := [2, 5, 3, 6, 6, 6, 1, 4], data := payoutText }

/-- Alice pays into the vault. -/
def received : ChainInstruction :=
  .movement (.transfer ⟨"alice token", "alice"⟩ ⟨"vault token", vaultAddress⟩
      (ZkSdk.modular.ciphertextToBytes (5, 0)) (ZkSdk.modular.ciphertextToBytes (0, 0))) mint
    ["proof", "proof", "proof", "alice"]

def rawReceived : RawInstruction :=
  { programIdIndex := 7, accounts := [9, 5, 2, 6, 6, 6, 10], data := payoutText }

def Shows (raw : RawInstruction) (ix : ChainInstruction) : Prop :=
  RendersInstruction payoutCodec token2022ProgramAddress keys raw ix

theorem shows_vaultInstruction : Shows rawVaultInstruction vaultInstruction := by
  refine ⟨⟨rfl, rfl⟩, by decide +kernel, ?_⟩
  rintro inner _ ⟨hprogram, _⟩
  exact absurd hprogram (by decide)

theorem decode_payoutText :
    payoutCodec.decodeConfidentialTransfer (payoutCodec.base58Encode payoutText) =
      .ok (ZkSdk.modular.ciphertextToBytes (5, 0), ZkSdk.modular.ciphertextToBytes (0, 0)) := by
  rw [encode_payoutText]
  exact payoutCodec_decodesTransfers payoutData (List.replicate 36 0) _ _ [0, 0, 0] (by decide +kernel)

theorem encodedAs_payoutText (source destination : TokenAccount) :
    (payoutCodec.base58Encode payoutText)[0]? = some confidentialTransferDiscriminator ∧
      EncodedAs payoutCodec (payoutCodec.base58Encode payoutText)
        (.transfer source destination (ZkSdk.modular.ciphertextToBytes (5, 0))
          (ZkSdk.modular.ciphertextToBytes (0, 0))) := by
  refine ⟨?_, ?_, decode_payoutText⟩
  · rw [encode_payoutText]
    rfl
  · rw [encode_payoutText]
    rfl

theorem shows_transfer : Shows rawTransfer transfer :=
  ⟨⟨rfl, rfl⟩, encodedAs_payoutText ⟨"vault token", vaultAddress⟩ ⟨"destination", "bob"⟩⟩

theorem shows_received : Shows rawReceived received :=
  ⟨⟨rfl, rfl⟩, encodedAs_payoutText ⟨"alice token", "alice"⟩ ⟨"vault token", vaultAddress⟩⟩

theorem isCall_transfer : IsCall payoutCodec payout transfer :=
  ⟨keys, rawTransfer, shows_transfer, ⟨rfl, rfl⟩, encode_payoutText⟩

/-- Two payouts after the vault was created. -/
def payingTwice : List (Input Unit) := inputs ++ [.elsewhere (), .call paying]

theorem invoked_payingTwice :
    (Machine.run (next (surroundings true)) (deployed ()) payingTwice).invoked.map (·.instruction) =
      [payout, payout] := by
  decide +kernel

def executedAs (signature : Signature) (invocations : List Invocation)
    (h : ∀ ix ∈ invocations.flatMap Invocation.flatten, ix.accounts ⊆ keys := by decide) :
    ExecutedTransaction where
  signature := signature
  slot := 1
  blockTime := some 1768000000
  err := none
  keys := keys
  ownersBefore := fun _ => none
  invocations := invocations
  accounts_subset := h

def describedAs (instructions : List RawInstruction) (inner : List InnerInstructions) : RawTransaction where
  slot := 1
  blockTime := some 1768000000
  accountKeys := keys
  instructions := instructions
  «meta» := some { err := none, innerInstructions := some inner, loadedAddresses := none,
                   preTokenBalances := none }

def history : List (ExecutedTransaction × RawTransaction) :=
  [(executedAs "first" [.call vaultInstruction [.call transfer []]],
      describedAs [rawVaultInstruction] [⟨0, [rawTransfer]⟩]),
    (executedAs "second" [.call received []], describedAs [rawReceived] []),
    (executedAs "third" [.call vaultInstruction [.call transfer []]],
      describedAs [rawVaultInstruction] [⟨0, [rawTransfer]⟩])]

theorem renders {signature : Signature} {invocation : Invocation}
    {h : ∀ ix ∈ [invocation].flatMap Invocation.flatten, ix.accounts ⊆ keys} {raw : RawInstruction}
    {inner : List InnerInstructions} (hroot : Shows raw invocation.root)
    (hinner : List.Forall₂ Shows (innerAt inner 0) invocation.descendants) :
    Renders payoutCodec token2022ProgramAddress (describedAs [raw] inner)
      (executedAs signature [invocation] h) where
  slot := rfl
  blockTime := rfl
  txMeta := by
    refine ⟨_, rfl, rfl, fun _ => ⟨List.append_nil _, fun _ _ _ => rfl, .cons hroot .nil, ?_⟩⟩
    intro i invocation' hi
    cases i with
    | zero =>
      obtain rfl := Option.some.inj hi
      exact hinner
    | succ i => cases hi

theorem serves :
    Serves payoutCodec token2022ProgramAddress mint (servedRpc history) (history.map (·.1)) := by
  apply serves_servedRpc (by decide)
  intro x hx
  simp only [history, List.mem_cons, List.not_mem_nil, or_false] at hx
  rcases hx with rfl | rfl | rfl
  · exact renders shows_vaultInstruction (.cons shows_transfer .nil)
  · exact renders shows_received .nil
  · exact renders shows_vaultInstruction (.cons shows_transfer .nil)

theorem contains : Contains payoutCodec (MovesElsewhere mint ["vault token"])
    (executed (history.map (·.1))) [payout, payout] := by
  refine .other ?_ (.call isCall_transfer (.other ?_ (.other ?_ (.call isCall_transfer .nil))))
  · rintro m ⟨⟩
  · intro m hm
    simp only [received, movementOf, if_true, Option.some.injEq] at hm
    subst hm
    decide
  · rintro m ⟨⟩

def input : ListConfidentialActivityInput (ZMod (2 ^ 128)) :=
  { mint, auditorSecret := 1, skipAuditorKeyCheck := true }

theorem readsAll : input.ReadsAll :=
  ⟨rfl, rfl, rfl, fun _ h => by cases h⟩

def paid : Payout where
  source := "vault token"
  mint := mint
  destination := "destination"
  vault := vaultAddress
  auditorCiphertextLo := ZkSdk.modular.ciphertextToBytes (5, 0)
  auditorCiphertextHi := ZkSdk.modular.ciphertextToBytes (0, 0)

theorem auditorHalves_paid : 5 < 2 ^ 48 ∧
    AuditorHalves ZkSdk.modular 1 paid.auditorCiphertextLo paid.auditorCiphertextHi 5 := by
  refine ⟨by decide, _, _, ZkSdk.modular.ciphertextFromBytes_toBytes _,
    ZkSdk.modular.ciphertextFromBytes_toBytes _, ?_, ?_⟩
  · simp [TwistedElGamal.Holds, TwistedElGamal.decryptPoint, ZkSdk.modular]
  · simp [TwistedElGamal.Holds, TwistedElGamal.decryptPoint, ZkSdk.modular]

end Example

open Example in
theorem report_lists_payouts_example :
    ∃ entries, listConfidentialActivity payoutCodec ZkSdk.modular (servedRpc history) input 1 =
        some (.ok entries) ∧
      (entries.filter (isOutOf ["vault token"] ·.toMovement)).map (fun entry => (entry.kind, entry.toToken)) =
        [(.transfer, some "destination"), (.transfer, some "destination")] ∧
      (entries.filter (isOutOf ["vault token"] ·.toMovement)).map (·.amount) = [some 5, some 5] := by
  have hv : (Machine.run (next (surroundings true)) (deployed ()) payingTwice).vaults vaultAddress =
      some { operator := "operator", mint := mint, bump := 252 } := by
    decide +kernel
  have hcontains : Contains payoutCodec (MovesElsewhere mint ["vault token"])
      (executed (history.map (·.1)))
      ((Machine.run (next (surroundings true)) (deployed ()) payingTwice).invoked.map (·.instruction)) := by
    rw [invoked_payingTwice]
    exact contains
  have hpayouts : (Machine.run (next (surroundings true)) (deployed ()) payingTwice).payoutsOf vaultAddress =
      [paid, paid] := by
    decide +kernel
  have htokens : ∀ p ∈ (Machine.run (next (surroundings true)) (deployed ()) payingTwice).payoutsOf
      vaultAddress, p.source ∈ ["vault token"] := by
    rw [hpayouts]
    decide
  have hmentions : (history.map (·.1)).filter (·.mentions input.mint) = history.map (·.1) :=
    List.filter_eq_self.mpr (by decide)
  have hserves : Serves payoutCodec token2022ProgramAddress input.mint (servedRpc history)
      ((history.map (·.1)).filter (·.mentions input.mint)) := by
    rw [hmentions]
    exact serves
  have hfuel : ((history.map (·.1)).filter (·.mentions input.mint)).length / pageLimit < 1 := by
    rw [hmentions]
    decide
  have hkey : KeyAccepted ZkSdk.modular (servedRpc history) input := .inl rfl
  obtain ⟨entries, hentries, hkinds, hamounts⟩ := report_lists_payouts hv payoutCodec_decodesTransfers
    hcontains htokens rfl rfl hserves readsAll hkey hfuel
  refine ⟨entries, hentries, hkinds, hamounts [5, 5] ?_⟩
  rw [hpayouts]
  exact .cons auditorHalves_paid (.cons auditorHalves_paid .nil)

end ConfidentialVault
