-- SUMMARY: Finding the accounts a mint's transfer hook needs.
import ConfidentialTransfers.Lib.LittleEndian
import ConfidentialTransfers.Sdk.Accounts

/-!
# Transfer-hook accounts

`internal/transferHook.ts`. Bytes are read as JavaScript reads them: past the
end there is `undefined`, and `subarray` takes what there is.
-/

open Solana

namespace Sdk

/-! ## Reading bytes -/

/-- `data.subarray(start, start + length)`. When one of the numbers is `undefined` the end is `NaN`, and
    nothing is taken. -/
def subarray (data : Bytes) (start length : Option Nat) : Bytes :=
  match start, length with
  | some start, some length => (data.take (start + length)).drop start
  | _, _ => []

/-- `data[i]`, as a number. -/
def byteAt (data : Bytes) (i : Nat) : Option Nat := (data[i]?).map UInt8.toNat

/-- `previous[index]`. -/
def previousAt (previous : List ResolvedAccount) (index : Option Nat) : Option ResolvedAccount :=
  index.bind (previous[·]?)

/-- A number in an error message. -/
def showIndex : Option Nat → String
  | some index => toString index
  | none => "undefined"

/-! ## The list -/

/-- Seed used for every mint's ExtraAccountMetaList account. -/
def extraAccountMetasSeed : Bytes := "extra-account-metas".toList.map Char.toUInt8

def confidentialTransferHookAmount : Nat := 0xffffffffffffffff

def systemProgram : Address := "11111111111111111111111111111111"

/-- 8-byte type discriminator + u32 byte length + u32 entry count. -/
def metaHeader : Nat := 16

/-- u8 discriminator + 32-byte address config + is_signer + is_writable. -/
def metaEntry : Nat := 35

structure Meta where
  discriminator : UInt8
  addressConfig : Bytes
  isWritable : Bool
  isSigner : Bool
deriving DecidableEq, Repr

/-- The loop of `parseMetaList`, with `remaining` entries to go from entry `i` on. -/
def parseMetas (data : Bytes) : (remaining : Nat) → (i : Nat) → List Meta
  | 0, _ => []
  | remaining + 1, i =>
    let start := metaHeader + i * metaEntry
    if start + metaEntry > data.length then []
    else
      { discriminator := (data[start]?).getD 0
        addressConfig := subarray data (some (start + 1)) (some 32)
        isSigner := data[start + 33]? == some 1
        isWritable := data[start + 34]? == some 1 } :: parseMetas data remaining (i + 1)

def parseMetaList (data : Bytes) : List Meta :=
  if data.length < metaHeader then []
  else parseMetas data (LittleEndian.decode (subarray data (some 12) (some 4))) 0

/-! ## Resolving it -/

variable {χ π : Type}

/-- What the module takes from kit and from the chain. -/
structure HookSurroundings (χ : Type) where
  /-- `getAddressEncoder().encode`. -/
  encodeAddress : Address → Bytes
  /-- `getAddressDecoder().decode`. -/
  decodeAddress : Bytes → Address
  getProgramDerivedAddress : (programAddress : Address) → (seeds : List Bytes) → Except String Address
  /-- The data of an account, `none` if it does not exist. -/
  accountData : χ → Address → Option Bytes

variable (net : Network χ π) (hk : HookSurroundings χ)

def fetchData (address : Address) : Effect (World χ π) Thrown (Option Bytes) :=
  Effect.mapError .other
    (net.request (.getAccountInfo address) fun _ chain => hk.accountData chain address)

/-- The `programId` of a `TransferHook` extension. -/
def hookProgramId : MintExtension → Option (Option Address)
  | .transferHook programId => some programId
  | _ => none

/-- The mint's transfer-hook program, or `none` when the mint has no hook. -/
def getTransferHookProgram (mint : Address) : Effect (World χ π) Thrown (Option Address) := do
  match ← Effect.mapError .other
      (net.request (.getAccountInfo mint) fun n chain => net.mint n chain mint) with
  | .error message => Effect.throw (.other message)
  | .ok data =>
    match (data.extensions.getD []).findSome? hookProgramId with
    | some (some programId) => pure (if programId = systemProgram then none else some programId)
    | _ => pure none

/-- The PDA holding a mint's ExtraAccountMetaList for a hook program. -/
def findExtraAccountMetaListPda (mint hookProgram : Address) : Except Thrown Address :=
  (hk.getProgramDerivedAddress hookProgram [extraAccountMetasSeed, hk.encodeAddress mint]).mapError .other

def seedError (message : String) : Thrown := .other ("transfer hook seed " ++ message)

/-- The loop of `unpackSeeds` from `config[i]` on. A step takes a byte at least, so the length of the
    config is enough fuel. -/
def unpackSeedsFrom (config : Bytes) (previous : List ResolvedAccount) (instructionData : Bytes) :
    (fuel : Nat) → (i : Nat) → Effect (World χ π) Thrown (List Bytes)
  | 0, _ => pure []
  | fuel + 1, i =>
    match byteAt config i with
    | none => pure []
    | some 0 => pure []
    | some 1 =>
      let length := byteAt config (i + 1)
      let seed := subarray config (some (i + 2)) length
      match length with
      -- `i` becomes NaN, which ends the loop.
      | none => pure [seed]
      | some length => do
        let seeds ← unpackSeedsFrom config previous instructionData fuel (i + (2 + length))
        pure (seed :: seeds)
    | some 2 => do
      let seed := subarray instructionData (byteAt config (i + 1)) (byteAt config (i + 2))
      let seeds ← unpackSeedsFrom config previous instructionData fuel (i + 3)
      pure (seed :: seeds)
    | some 3 =>
      let index := byteAt config (i + 1)
      match previousAt previous index with
      | none => Effect.throw (seedError
          ("refers to account " ++ showIndex index ++ ", which is not in the list"))
      | some account => do
        let seed := hk.encodeAddress account.address
        let seeds ← unpackSeedsFrom config previous instructionData fuel (i + 2)
        pure (seed :: seeds)
    | some 4 =>
      let accountIndex := byteAt config (i + 1)
      match previousAt previous accountIndex with
      | none => Effect.throw (seedError
          ("refers to account " ++ showIndex accountIndex ++ ", which is not in the list"))
      | some account => do
        match ← fetchData net hk account.address with
        | none => Effect.throw (seedError
            ("reads account " ++ account.address ++ ", which does not exist"))
        | some data => do
          let seed := subarray data (byteAt config (i + 2)) (byteAt config (i + 3))
          let seeds ← unpackSeedsFrom config previous instructionData fuel (i + 4)
          pure (seed :: seeds)
    | some kind => Effect.throw (.other ("unsupported transfer hook seed type " ++ toString kind))

/-- Build the seeds packed into an address config, in the SPL transfer-hook encoding. -/
def unpackSeeds (config : Bytes) (previous : List ResolvedAccount) (instructionData : Bytes) :
    Effect (World χ π) Thrown (List Bytes) :=
  unpackSeedsFrom net hk config previous instructionData config.length 0

/-- The program an entry's address is derived from. -/
def programAddressOf (m : Meta) (previous : List ResolvedAccount) (hookProgram : Address) :
    Except Thrown Address :=
  if m.discriminator ≠ 1 then
    let index := (m.discriminator.toNat : Int) - (1 <<< 7)
    -- A negative index is in no list.
    match if index < 0 then none else previous[index.toNat]? with
    | none => .error (.other ("transfer hook PDA refers to program at index " ++ toString index ++
        ", which is not in the list"))
    | some account => .ok account.address
  else .ok hookProgram

def resolveMeta (m : Meta) (previous : List ResolvedAccount) (instructionData : Bytes)
    (hookProgram : Address) : Effect (World χ π) Thrown ResolvedAccount := do
  let role := if m.isWritable then AccountRole.writable else .readonly
  if m.discriminator = 0 then pure { address := hk.decodeAddress m.addressConfig, role }
  else do
    let programAddress ← Effect.ofExcept (programAddressOf m previous hookProgram)
    let seeds ← unpackSeeds net hk m.addressConfig previous instructionData
    let address ← Effect.ofExcept
      ((hk.getProgramDerivedAddress programAddress seeds).mapError .other)
    pure { address, role }

structure ResolveTransferHookAccountsInput where
  mint : Address
  sourceToken : Address
  destinationToken : Address
  owner : Address
  amount : Option Nat := none

/-- `resolved.push` for every entry, each over the ones before it. -/
def resolveMetas (instructionData : Bytes) (hookProgram : Address) :
    List Meta → List ResolvedAccount → Effect (World χ π) Thrown (List ResolvedAccount)
  | [], resolved => pure resolved
  | m :: metas, resolved => do
    let account ← resolveMeta net hk m resolved instructionData hookProgram
    resolveMetas instructionData hookProgram metas (resolved ++ [account])

/-- The account order the hook's Execute instruction sees. -/
def executeAccounts (input : ResolveTransferHookAccountsInput) (metaListAddress : Address) :
    List ResolvedAccount :=
  [{ address := input.sourceToken, role := .writable },
    { address := input.mint, role := .readonly },
    { address := input.destinationToken, role := .writable },
    { address := input.owner, role := .readonly },
    { address := metaListAddress, role := .readonly }]

/-- The data of the Execute instruction. -/
def executeInstructionData (amount : Nat) : Bytes :=
  [105, 37, 101, 197, 75, 251, 102, 26] ++ LittleEndian.encode 8 amount

def resolveTransferHookAccounts (input : ResolveTransferHookAccountsInput) :
    Effect (World χ π) Thrown (List ResolvedAccount) := do
  match ← getTransferHookProgram net input.mint with
  | none => pure []
  | some hookProgram => do
    let metaListAddress ← Effect.ofExcept (findExtraAccountMetaListPda hk input.mint hookProgram)
    match ← fetchData net hk metaListAddress with
    | none => pure []
    | some metaListData => do
      let instructionData := executeInstructionData
        (input.amount.getD confidentialTransferHookAmount)
      let resolved ← resolveMetas net hk instructionData hookProgram (parseMetaList metaListData)
        (executeAccounts input metaListAddress)
      pure (resolved.drop 5 ++
        [{ address := hookProgram, role := .readonly },
          { address := metaListAddress, role := .readonly }])

end Sdk
