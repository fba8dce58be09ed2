-- SUMMARY: The auditor's report: paging through a mint's history and decoding its movements.
import ConfidentialTransfers.Lib.JsNumber
import ConfidentialTransfers.Sdk.Errors
import ConfidentialTransfers.Sdk.Zk
import ConfidentialTransfers.Solana.Token

/-!
# The auditor's report

`auditorReport.ts` and `auditor.ts`. The report only reads, so the RPC is a
record of its answers. What the clients' instruction decoders and kit's base58
codec give is a `InstructionCodec`.
-/

open Solana

namespace Sdk

/-! ## What the RPC returns -/

structure RawInstruction where
  programIdIndex : Nat
  accounts : List Nat
  data : String
deriving DecidableEq, Repr

structure InnerInstructions where
  index : Nat
  instructions : List RawInstruction
deriving DecidableEq, Repr

structure LoadedAddresses where
  writable : List Address
  readonly : List Address
deriving DecidableEq, Repr

structure TokenBalance where
  accountIndex : Nat
  owner : Option Address
deriving DecidableEq, Repr

structure RawMeta where
  err : Option String
  innerInstructions : Option (List InnerInstructions)
  loadedAddresses : Option LoadedAddresses
  preTokenBalances : Option (List TokenBalance)
deriving DecidableEq, Repr

/-- A transaction as `getTransaction` returns it. `blockTime` is in seconds. -/
structure RawTransaction where
  slot : Nat
  blockTime : Option Int
  accountKeys : List Address
  instructions : List RawInstruction
  «meta» : Option RawMeta
deriving DecidableEq, Repr

/-- An entry of `getSignaturesForAddress`. -/
structure SignatureInfo where
  signature : Signature
  err : Option String
  blockTime : Option Int
deriving DecidableEq, Repr

/-- The answers of an RPC that keeps a mint's history. -/
structure HistoryRpc where
  /-- A page of at most `limit` signatures, newest first, older than `before`. -/
  getSignaturesForAddress : (address : Address) → (before : Option Signature) → (limit : Nat) →
    Except String (List SignatureInfo)
  getTransaction : Signature → Except String (Option RawTransaction)
  fetchMint : Address → Except String Mint

/-- kit's base58 codec and the decoders of the token client. -/
structure InstructionCodec where
  /-- `getBase58Encoder().encode`: the bytes a base58 string stands for. -/
  base58Encode : String → Bytes
  /-- The amount. -/
  decodeConfidentialDeposit : Bytes → Except String Nat
  /-- The amount. -/
  decodeConfidentialWithdraw : Bytes → Except String Nat
  /-- The auditor's ciphertexts of the two halves. -/
  decodeConfidentialTransfer : Bytes → Except String (Bytes × Bytes)

/-- The discriminators of the token client. -/
def confidentialTransferDiscriminator : UInt8 := 27
def confidentialDepositDiscriminator : UInt8 := 5
def confidentialWithdrawDiscriminator : UInt8 := 6
def confidentialTransferInnerDiscriminator : UInt8 := 7
def confidentialTransferWithFeeDiscriminator : UInt8 := 13

/-! ## Entries -/

inductive ConfidentialActivityKind
  | deposit
  | transfer
  | withdraw
  | transferWithFee
deriving DecidableEq, Repr

/-- What `toActivity` says about an instruction. An index past the keys gives an undefined token. -/
structure Movement where
  kind : ConfidentialActivityKind
  fromToken : Option Address
  fromOwner : Option Address
  toToken : Option Address
  toOwner : Option Address
  amount : Option Nat
  decrypted : Bool
  note : Option String := none
deriving DecidableEq, Repr

/-- One movement in or out of a confidential balance. `blockTime` is in milliseconds. -/
structure ConfidentialActivity extends Movement where
  signature : Signature
  slot : Nat
  blockTime : Option Int
deriving DecidableEq, Repr

variable {F G : Type} [CommRing F] [AddCommGroup G] [Module F G]

def transferAmountLoBits : Nat := 16

/-- Parse the two halves and decrypt their sum. -/
def decryptHalves (zk : ZkSdk F G) (secret : Fˣ) (loBytes hiBytes : Bytes) : Except String Nat :=
  match zk.ciphertextFromBytes loBytes, zk.ciphertextFromBytes hiBytes with
  | some lo, some hi => do
    let amountLo ← zk.decrypt secret lo
    let amountHi ← zk.decrypt secret hi
    pure (amountLo + (amountHi <<< transferAmountLoBits))
  | _, _ => .error "malformed ciphertext"

/-- The halves of an amount below 2^48 decrypt to it. -/
theorem decryptHalves_of_holds (zk : ZkSdk F G) {secret : Fˣ} {loBytes hiBytes : Bytes}
    {lo hi : ElGamalCiphertext G} {amount : Nat} (hloBytes : zk.ciphertextFromBytes loBytes = some lo)
    (hhiBytes : zk.ciphertextFromBytes hiBytes = some hi)
    (hlo : TwistedElGamal.Holds zk.toPedersenBasis secret lo (amount % 2 ^ 16))
    (hhi : TwistedElGamal.Holds zk.toPedersenBasis secret hi (amount / 2 ^ 16))
    (hamount : amount < 2 ^ 48) : decryptHalves zk secret loBytes hiBytes = .ok amount := by
  have hdecryptLo := zk.decrypt_of_lt hlo (by omega)
  have hdecryptHi := zk.decrypt_of_lt hhi (by omega)
  have hsum : amount % 2 ^ 16 + ((amount / 2 ^ 16) <<< transferAmountLoBits) = amount := by
    rw [transferAmountLoBits, Nat.shiftLeft_eq]
    omega
  simp only [decryptHalves, hloBytes, hhiBytes, hdecryptLo, hdecryptHi, bind, Except.bind, pure,
    Except.pure, hsum]

/-- `owners.get(i)` for the map built from the token balances: a later entry overrides. -/
def ownerAt (balances : List TokenBalance) (i : Nat) : Option Address :=
  (balances.filterMap fun b =>
    if b.accountIndex = i then b.owner.filter (fun owner => owner ≠ "") else none).getLast?

/-- `inner.get(i)` for the map built from the groups: a later group overrides. -/
def innerAt (groups : List InnerInstructions) (i : Nat) : List RawInstruction :=
  ((groups.filter fun group => group.index = i).getLast?.map (·.instructions)).getD []

def toActivity (codec : InstructionCodec) (zk : ZkSdk F G) (data : Bytes) (ix : RawInstruction)
    (keys : List Address) (owners : Nat → Option Address) (secret : Fˣ) :
    Except String (Option Movement) :=
  let token := fun (i : Nat) => ix.accounts[i]?.bind (fun k => keys[k]?)
  let owner := fun (i : Nat) => ix.accounts[i]?.bind owners
  if data[1]? = some confidentialDepositDiscriminator then do
    let amount ← codec.decodeConfidentialDeposit data
    pure (some { kind := .deposit, fromToken := token 0, fromOwner := owner 0, toToken := token 0,
                 toOwner := owner 0, amount := some amount, decrypted := false })
  else if data[1]? = some confidentialWithdrawDiscriminator then do
    let amount ← codec.decodeConfidentialWithdraw data
    pure (some { kind := .withdraw, fromToken := token 0, fromOwner := owner 0, toToken := token 0,
                 toOwner := owner 0, amount := some amount, decrypted := false })
  else if data[1]? = some confidentialTransferInnerDiscriminator then do
    let decoded ← codec.decodeConfidentialTransfer data
    match decryptHalves zk secret decoded.1 decoded.2 with
    | .ok amount =>
      pure (some { kind := .transfer, fromToken := token 0, fromOwner := owner 0, toToken := token 2,
                   toOwner := owner 2, amount := some amount, decrypted := true })
    | .error _ =>
      pure (some { kind := .transfer, fromToken := token 0, fromOwner := owner 0, toToken := token 2,
                   toOwner := owner 2, amount := none, decrypted := false,
                   note := some "not encrypted to this auditor key" })
  else if data[1]? = some confidentialTransferWithFeeDiscriminator then
    pure (some { kind := .transferWithFee, fromToken := token 0, fromOwner := owner 0,
                 toToken := token 2, toOwner := owner 2, amount := none, decrypted := false,
                 note := some "transfer with fee: amount not decrypted by this version" })
  else
    pure none

/-! ## Signatures -/

structure ListConfidentialActivityInput (F : Type) [CommRing F] where
  mint : Address
  auditorSecret : Fˣ
  /-- `since.getTime()`, in milliseconds. -/
  since : Option Int := none
  /-- `until.getTime()`, in milliseconds. -/
  untilTime : Option Int := none
  maxTransactions : Option JsNumber := none
  concurrency : Option JsNumber := none
  skipAuditorKeyCheck : Bool := false
  programAddress : Option Address := none

/-- The loop over one page: the signatures kept so far, and whether the function returns here. -/
def takePage (input : ListConfidentialActivityInput F) :
    List SignatureInfo → List Signature → List Signature × Bool
  | [], out => (out, false)
  | s :: page, out =>
    if (input.maxTransactions.map (fun limit => JsNumber.ge (.ofNat out.length) limit)).getD false then
      (out, true)
    else if (input.since.bind fun since => s.blockTime.map fun time => decide (time < since / 1000)).getD
        false then
      (out, true)
    else if (input.untilTime.bind fun untilTime =>
        s.blockTime.map fun time => decide (time ≥ untilTime / 1000)).getD false then
      takePage input page out
    else if s.err.isSome then takePage input page out
    else takePage input page (out ++ [s.signature])

def pageLimit : Nat := 1000

/-- `signaturesOf`, at most `fuel` pages of it; `none` when it still runs. -/
def signaturesFrom (rpc : HistoryRpc) (input : ListConfidentialActivityInput F) :
    (fuel : Nat) → (before : Option Signature) → List Signature →
    Option (Except Thrown (List Signature))
  | 0, _, _ => none
  | fuel + 1, before, out =>
    match rpc.getSignaturesForAddress input.mint before pageLimit with
    | .error message => some (.error (.other message))
    | .ok page =>
      match page.getLast? with
      | none => some (.ok out)
      | some last =>
        match takePage input page out with
        | (out, true) => some (.ok out)
        | (out, false) =>
          if page.length < pageLimit then some (.ok out)
          else signaturesFrom rpc input fuel (some last.signature) out

def signaturesOf (rpc : HistoryRpc) (input : ListConfidentialActivityInput F) (fuel : Nat) :
    Option (Except Thrown (List Signature)) :=
  signaturesFrom rpc input fuel none []

/-! ## The report -/

/-- Every key an instruction's indexes refer to: static first, then the looked-up ones. -/
def accountKeysOf (tx : RawTransaction) (txMeta : RawMeta) : List Address :=
  tx.accountKeys ++ (txMeta.loadedAddresses.map (·.writable)).getD [] ++
    (txMeta.loadedAddresses.map (·.readonly)).getD []

/-- Each top-level instruction, followed by the instructions it invoked. -/
def allInstructions (tx : RawTransaction) (txMeta : RawMeta) : List RawInstruction :=
  tx.instructions.zipIdx.flatMap fun ix => ix.1 :: innerAt (txMeta.innerInstructions.getD []) ix.2

/-- What one instruction adds to the report: the body of the loop over a transaction's instructions. -/
def instructionMovement (codec : InstructionCodec) (zk : ZkSdk F G)
    (input : ListConfidentialActivityInput F) (keys : List Address) (owners : Nat → Option Address)
    (ix : RawInstruction) : Except Thrown (Option Movement) :=
  let programAddress := input.programAddress.getD token2022ProgramAddress
  if keys[ix.programIdIndex]? ≠ some programAddress then pure none
  else
    let data := codec.base58Encode ix.data
    if data[0]? ≠ some confidentialTransferDiscriminator ∨ ix.accounts.length < 2 then pure none
    else if ix.accounts[1]?.bind (fun k => keys[k]?) ≠ some input.mint then pure none
    else (toActivity codec zk data ix keys owners input.auditorSecret).mapError .other

/-- The entries of one transaction. -/
def transactionEntries (codec : InstructionCodec) (zk : ZkSdk F G)
    (input : ListConfidentialActivityInput F) (signature : Signature) (tx : Option RawTransaction) :
    Except Thrown (List ConfidentialActivity) :=
  match tx with
  | none => pure []
  | some tx =>
    match tx.meta with
    | none => pure []
    | some txMeta =>
      if txMeta.err.isSome then pure []
      else do
        let keys := accountKeysOf tx txMeta
        let owners := ownerAt (txMeta.preTokenBalances.getD [])
        let movements ← (allInstructions tx txMeta).mapM
          (instructionMovement codec zk input keys owners)
        pure (movements.filterMap id |>.map fun movement =>
          { movement with
            signature
            slot := tx.slot
            blockTime := tx.blockTime.map (· * 1000) })

/-- A JavaScript array has fewer elements. -/
def arrayLimit : Nat := 2 ^ 32

/-- `i + concurrency`. In lists longer than any array, which the code never holds, positions are exact. -/
def nextPosition (length : Nat) (i concurrency : JsNumber) : JsNumber :=
  if length < arrayLimit then .add i concurrency else .addWith .finite i concurrency

/-- The slices `signatures.slice(i, i + concurrency)` from `i` on. Since `concurrency` is at least 1,
    or the loop ends after one step, the number of signatures is enough fuel. -/
def slices {α : Type} (xs : List α) (concurrency : JsNumber) : (fuel : Nat) → JsNumber → List (List α)
  | 0, _ => []
  | fuel + 1, i =>
    if JsNumber.lt i (.ofNat xs.length) then
      JsNumber.slice xs i (nextPosition xs.length i concurrency) ::
        slices xs concurrency fuel (nextPosition xs.length i concurrency)
    else []

/-- Fetch a batch of transactions together and read them in order. -/
def batchEntries (codec : InstructionCodec) (zk : ZkSdk F G) (rpc : HistoryRpc)
    (input : ListConfidentialActivityInput F) (batch : List Signature) :
    Except Thrown (List (List ConfidentialActivity)) := do
  let transactions ← batch.mapM fun s => (rpc.getTransaction s).mapError Thrown.other
  (batch.zip transactions).mapM fun tx => transactionEntries codec zk input tx.1 tx.2

/-- The mint account, or a clear error when the address is not a Token-2022 mint. -/
def readMint (rpc : HistoryRpc) (mint : Address) (operation : String) : Except Thrown Mint :=
  match rpc.fetchMint mint with
  | .ok data => .ok data
  | .error _ => .error (.sdk (.new .invalidInput
      (operation ++ ": " ++ mint ++ " is not a Token-2022 mint (or does not exist).")
      { operation := some operation }))

theorem readMint_eq_ok_iff {rpc : HistoryRpc} {mint : Address} {operation : String} {data : Mint} :
    readMint rpc mint operation = .ok data ↔ rpc.fetchMint mint = .ok data := by
  unfold readMint
  cases rpc.fetchMint mint with
  | ok data' => simp
  | error e => simp

def confidentialTransferMintAuditor (mint : Mint) : Option Address :=
  ((mint.extensions.getD []).findSome? fun
    | .confidentialTransferMint auditor => some auditor
    | _ => none).join

/-- `getAuditorElgamalPubkey`. -/
def getAuditorElgamalPubkey (zk : ZkSdk F G) (secret : Fˣ) : Address :=
  zk.addressFromBytes (zk.pointToBytes (TwistedElGamal.pubkey zk.toPedersenBasis secret))

/-- The auditor's key must be the mint's, unless the caller skips the check. -/
def checkAuditorKey (zk : ZkSdk F G) (rpc : HistoryRpc) (input : ListConfidentialActivityInput F) :
    Except Thrown Unit := do
  let operation := "listConfidentialActivity"
  if input.skipAuditorKeyCheck then pure ()
  else do
    let mint ← readMint rpc input.mint operation
    let auditor := confidentialTransferMintAuditor mint
    let ours := getAuditorElgamalPubkey zk input.auditorSecret
    if auditor = some ours then pure ()
    else
      throw (.sdk (.new .keysMismatch
        (operation ++ ": mint " ++ input.mint ++ " " ++
          (match auditor with
            | some auditor => "has auditor key " ++ auditor ++ ", not " ++ ours ++ "."
            | none => "has no auditor key, so nobody can read its transfer amounts.") ++
          " Pass skipAuditorKeyCheck if the auditor key was changed and you want the transfers this key can read.")
        { operation := some operation }))

/-- `listConfidentialActivity`, reading at most `fuel` pages; `none` when it still runs. -/
def listConfidentialActivity (codec : InstructionCodec) (zk : ZkSdk F G) (rpc : HistoryRpc)
    (input : ListConfidentialActivityInput F) (fuel : Nat) :
    Option (Except Thrown (List ConfidentialActivity)) :=
  match checkAuditorKey zk rpc input with
  | .error e => some (.error e)
  | .ok () => (signaturesOf rpc input fuel).map fun signatures => do
    let signatures ← signatures
    let concurrency := JsNumber.max (.ofNat 1) (input.concurrency.getD (.ofNat 4))
    let perTransaction ← (slices signatures concurrency signatures.length (.ofNat 0)).mapM
      (batchEntries codec zk rpc input)
    -- Oldest first; within a transaction, in instruction order.
    pure perTransaction.flatten.reverse.flatten

end Sdk
