-- SUMMARY: Reading token accounts and finding the owner's keys before anything is built or sent.
import ConfidentialTransfers.Sdk.SendOutcomes
import ConfidentialTransfers.Sdk.Keys

/-!
# Accounts and keys

`internal/accounts.ts` and `internal/ownerKeys.ts`. None of it changes the chain
or submits anything; `World.ReadOnly` says so.
-/

open Solana

namespace Solana

variable {χ π : Type}

/-- From `w` to `w'` nothing was submitted and no key pair was generated. -/
structure World.ReadOnly (w w' : World χ π) : Prop where
  chain : w'.chain = w.chain
  keyPairs : w'.keyPairs = w.keyPairs
  landed : landedTransactions w'.events = landedTransactions w.events
  quiet : w.Quiet w'

instance : IsPreorder (World χ π) World.ReadOnly where
  refl w := ⟨rfl, rfl, rfl, refl w⟩
  trans _ _ _ h h' := ⟨h'.chain.trans h.chain, h'.keyPairs.trans h.keyPairs, h'.landed.trans h.landed,
    IsTrans.trans _ _ _ h.quiet h'.quiet⟩

/-- From `w` to `w'` nothing happened but requests that read. -/
structure World.Silent (w w' : World χ π) : Prop where
  chain : w'.chain = w.chain
  keyPairs : w'.keyPairs = w.keyPairs
  events : w'.events = w.events

instance : IsPreorder (World χ π) World.Silent where
  refl _ := ⟨rfl, rfl, rfl⟩
  trans _ _ _ h h' := ⟨h'.chain.trans h.chain, h'.keyPairs.trans h.keyPairs, h'.events.trans h.events⟩

theorem World.Silent.tick (w : World χ π) : w.Silent w.tick := ⟨rfl, rfl, rfl⟩

theorem World.Silent.readOnly {w w' : World χ π} (h : w.Silent w') : w.ReadOnly w' where
  chain := h.chain
  keyPairs := h.keyPairs
  landed := congrArg landedTransactions h.events
  quiet := ⟨[], by rw [World.Logged, h.events, List.append_nil], .nil⟩

end Solana

namespace Sdk

variable {χ π F G : Type} [CommRing F] [AddCommGroup G] [Module F G]

/-! ## Token accounts -/

/-- Most a single deposit or transfer can carry: 2^48 - 1 base units (16 + 32 bits). -/
def maxDepositOrTransferAmount : Nat := 2 ^ 48 - 1

/-- The first confidential-transfer extension of an account. -/
def confidentialState (account : Token) : Option ConfidentialTransferAccountState :=
  match account.extensions with
  | none => none
  | some extensions => extensions.findSome? fun
    | .confidentialTransferAccount state => some state
    | .other _ => none

variable (net : Network χ π)

/-- kit's `fetchMaybeToken`: `none` when the account does not exist; throws when it is no token
    account. -/
def fetchMaybeToken (token : Address) : Effect (World χ π) Thrown (Option Token) := do
  match ← Effect.mapError .other
      (net.request (.getAccountInfo token) fun n chain => net.token n chain token) with
  | .ok account => pure account
  | .error message => Effect.throw (.other message)

/-- Fetch a token account that must exist and be configured for confidential transfers. -/
def readConfiguredAccount (token : Address) (operation : String) (whose : String := "the") :
    Effect (World χ π) Thrown (Token × ConfidentialTransferAccountState) := do
  match ← fetchMaybeToken net token with
  | none =>
    Effect.throw (.sdk (.new .accountNotFound
      (operation ++ ": " ++ whose ++ " token account " ++ token ++
        " does not exist. It is created by configureAccount.")
      { operation := some operation }))
  | some account =>
    match confidentialState account with
    | none =>
      Effect.throw (.sdk (.new .accountNotConfigured
        (operation ++ ": " ++ whose ++ " token account " ++ token ++
          " is missing the ConfidentialTransferAccount extension; " ++
          "it has to be set up with configureAccount first.")
        { operation := some operation }))
    | some ct => pure (account, ct)

/-- Throws unless the account can take one more incoming deposit or transfer. -/
def assertCanReceive (ct : ConfidentialTransferAccountState) (token : Address)
    (operation whose : String) : Except Thrown Unit := do
  if !ct.approved then
    throw (.sdk (.new .accountNotApproved
      (operation ++ ": " ++ whose ++ " token account " ++ token ++
        " has not been approved for confidential transfers by the mint's confidential-transfer authority.")
      { operation := some operation }))
  if !ct.allowConfidentialCredits then
    throw (.sdk (.new .recipientRejectsConfidential
      (operation ++ ": " ++ whose ++ " token account " ++ token ++
        " does not accept confidential credits.")
      { operation := some operation }))
  if ct.pendingBalanceCreditCounter ≥ ct.maximumPendingBalanceCreditCounter then
    throw (.sdk (.new .pendingBalanceLimit
      (operation ++ ": " ++ whose ++ " token account " ++ token ++ " has received " ++
        toString ct.pendingBalanceCreditCounter ++ " deposits or " ++
        "transfers since its pending balance was last applied, the most it takes. " ++
        (if whose = "your" then "Run applyPendingBalance first."
          else "The recipient has to run applyPendingBalance first."))
      { operation := some operation }))

/-! ## The owner's keys -/

/-- The owner of a token account, as a signer. -/
structure Owner (F : Type) [CommRing F] where
  address : Address
  isMessageSigner : Bool := true
  /-- `deriveConfidentialKeys` with this signer, at the given request count. -/
  deriveConfidentialKeys : Nat → Except Thrown (ConfidentialKeypairs F)
  derive_raises : ∀ n, (deriveConfidentialKeys n).Raises AboutKeys := by
    intro n e h; cases h

/-- A signer of messages as the owner of a token account. -/
def MessageSigner.owner (d : KeyDerivation F) (signer : MessageSigner) : Owner F where
  address := signer.address
  isMessageSigner := Sdk.isMessageSigner signer
  deriveConfidentialKeys := Sdk.deriveConfidentialKeys d signer
  derive_raises := deriveConfidentialKeys_raises d signer

/-- The keys the caller passed, or else the ones the owner's message signature gives. -/
def ownerKeys (owner : Owner F) (keys : Option (ConfidentialKeypairs F)) (operation : String) :
    Effect (World χ π) Thrown (ConfidentialKeypairs F) :=
  match keys with
  | some keys => pure keys
  | none =>
    if !owner.isMessageSigner then
      Effect.throw (.sdk (.new .cannotSignMessages
        (operation ++ ": the owner " ++ owner.address ++
          " cannot sign messages, and no \x60keys\x60 were passed. " ++
          "The confidential keys come from the owner's signature over a fixed message, so either use " ++
          "a signer that can sign messages (a wallet with signMessage, or a keypair signer), or " ++
          "derive the keys once with deriveConfidentialKeys(\x7b signer \x7d) and pass them as \x60keys\x60.")
        { operation := some operation }))
    else do
      Effect.modify (World.record .keyRequest)
      let w ← Effect.get
      Effect.ofExcept (owner.deriveConfidentialKeys w.clock)

/-- Throws unless `keys` are the keys the token account is configured with. -/
def assertKeysMatchAccount (zk : ZkSdk F G) (keys : ConfidentialKeypairs F) (account : Token)
    (token : Address) (operation : String) : Except Thrown Unit :=
  match confidentialState account with
  | none => pure ()
  | some ct =>
    let ours := zk.elGamalPubkeyAddress keys
    if ours ≠ ct.elgamalPubkey then
      throw (.sdk (.new .keysMismatch
        (operation ++ ": these confidential keys (ElGamal public key " ++ ours ++
          ") are not the keys token " ++ "account " ++ token ++ " is configured with (" ++
          ct.elgamalPubkey ++ "). Derive them from the account " ++ "owner's wallet.")
        { operation := some operation }))
    else pure ()

/-! ## Nothing but reading -/

theorem silent_fetchMaybeToken (token : Address) :
    (fetchMaybeToken net token).Within World.Silent := by
  refine ((within_request net World.Silent.tick _ _).mapError _).bind fun reply => ?_
  cases reply with
  | ok account => exact .pure account
  | error message => exact .throw _

theorem silent_readConfiguredAccount (token : Address) (operation whose : String) :
    (readConfiguredAccount net token operation whose).Within World.Silent := by
  refine (silent_fetchMaybeToken net token).bind fun account => ?_
  cases account with
  | none => exact .throw _
  | some account =>
    simp only
    cases confidentialState account with
    | none => exact .throw _
    | some ct => exact .pure _

theorem readOnly_readConfiguredAccount (token : Address) (operation whose : String) :
    (readConfiguredAccount net token operation whose).Within World.ReadOnly :=
  (silent_readConfiguredAccount net token operation whose).mono fun _ _ h => h.readOnly

theorem readOnly_ownerKeys (owner : Owner F) (keys : Option (ConfidentialKeypairs F))
    (operation : String) :
    (ownerKeys owner keys operation : Effect (World χ π) Thrown _).Within World.ReadOnly := by
  unfold ownerKeys
  cases keys with
  | some keys => exact .pure keys
  | none =>
    simp only
    split
    · exact .throw _
    · have hrecord : (Effect.modify (World.record .keyRequest) :
          Effect (World χ π) Thrown Unit).Within World.ReadOnly := fun w =>
        ⟨rfl, rfl, landedTransactions_record rfl w, _, rfl, by simp [NoOperation, Event.isOperation]⟩
      exact hrecord.bind fun _ => Effect.Within.get.bind fun _ => .ofExcept _

end Sdk
