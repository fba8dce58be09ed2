-- SUMMARY: The SPL transfer-hook interface: lists of extra accounts, their encoding and how they are resolved.
import ConfidentialTransfers.Lib.LittleEndian
import ConfidentialTransfers.Solana.Instruction

/-!
# Extra account metas

A transfer hook stores which accounts it needs next to the mint. An entry of the
list is an address, or the seeds of a program-derived address packed in 32
bytes. This is the interface's own meaning of such a list, to compare the SDK's
parser with.
-/

namespace Solana

/-- A seed of a program-derived address. -/
inductive Seed
  | literal (bytes : Bytes)
  /-- A slice of the instruction's data. -/
  | instructionData (index length : UInt8)
  /-- The address of an account in the list. -/
  | accountKey (index : UInt8)
  /-- A slice of the data of an account in the list. -/
  | accountData (accountIndex dataIndex length : UInt8)
deriving DecidableEq, Repr

/-- The account an entry names. -/
inductive MetaAddress
  | literal (address : Bytes)
  /-- Derived from the hook program, or from the program at an index of the list. -/
  | derived (program : Option (Fin 128)) (seeds : List Seed)
deriving DecidableEq, Repr

/-- An entry of the list. -/
structure ExtraAccountMeta where
  address : MetaAddress
  isSigner : Bool
  isWritable : Bool
deriving DecidableEq, Repr

/-! ## Encoding -/

def Seed.pack : Seed → Bytes
  | .literal bytes => 1 :: UInt8.ofNat bytes.length :: bytes
  | .instructionData index length => [2, index, length]
  | .accountKey index => [3, index]
  | .accountData accountIndex dataIndex length => [4, accountIndex, dataIndex, length]

/-- Zeros up to 32 bytes. -/
def padded (bytes : Bytes) : Bytes := bytes ++ List.replicate (32 - bytes.length) 0

def packSeeds (seeds : List Seed) : Bytes := padded (seeds.flatMap Seed.pack)

/-- The seeds fit in the 32 bytes of an entry. -/
def SeedsFit (seeds : List Seed) : Prop := (seeds.flatMap Seed.pack).length ≤ 32

namespace MetaAddress

def discriminator : MetaAddress → UInt8
  | .literal _ => 0
  | .derived none _ => 1
  | .derived (some index) _ => UInt8.ofNat (128 + index)

def config : MetaAddress → Bytes
  | .literal address => address
  | .derived _ seeds => packSeeds seeds

/-- The entry has an encoding. -/
def Fits : MetaAddress → Prop
  | .literal address => address.length = 32
  | .derived _ seeds => SeedsFit seeds

theorem length_config {a : MetaAddress} (h : a.Fits) : a.config.length = 32 := by
  cases a with
  | literal address => exact h
  | derived program seeds =>
    have hfit : (seeds.flatMap Seed.pack).length ≤ 32 := h
    simp only [config, packSeeds, padded, List.length_append, List.length_replicate]
    omega

end MetaAddress

def ExtraAccountMeta.pack (m : ExtraAccountMeta) : Bytes :=
  m.address.discriminator :: m.address.config ++ [m.isSigner.toUInt8, m.isWritable.toUInt8]

theorem ExtraAccountMeta.length_pack {m : ExtraAccountMeta} (h : m.address.Fits) :
    m.pack.length = 35 := by
  simp [pack, MetaAddress.length_config h]

/-- `ExecuteInstruction::SPL_DISCRIMINATOR`. -/
def executeDiscriminator : Bytes := [105, 37, 101, 197, 75, 251, 102, 26]

/-- What a stored list starts with: its type, its length in bytes, the number of entries. -/
def listHeader (count : Nat) : Bytes :=
  executeDiscriminator ++ LittleEndian.encode 4 (4 + 35 * count) ++ LittleEndian.encode 4 count

/-- The list as it is stored. -/
def packMetaList (metas : List ExtraAccountMeta) : Bytes :=
  listHeader metas.length ++ metas.flatMap ExtraAccountMeta.pack

theorem length_listHeader (count : Nat) : (listHeader count).length = 16 := by
  simp [listHeader, executeDiscriminator]

/-- Where the number of entries stands. -/
theorem count_listHeader {count : Nat} (h : count < 2 ^ 32) (rest : Bytes) :
    LittleEndian.decode (((listHeader count ++ rest).drop 12).take 4) = count := by
  have hbefore : (executeDiscriminator ++ LittleEndian.encode 4 (4 + 35 * count)).length = 12 := by
    simp [executeDiscriminator]
  rw [listHeader, List.append_assoc, List.drop_left' hbefore,
    List.take_left' (LittleEndian.length_encode 4 _)]
  exact LittleEndian.decode_encode (by omega)

/-- The list has an encoding. -/
structure MetaListFits (metas : List ExtraAccountMeta) : Prop where
  count : metas.length < 2 ^ 32
  entries : ∀ m ∈ metas, m.address.Fits

/-! ## Decoding -/

/-- The seeds in a config, up to a zero or its end. -/
def decodeSeeds (config : Bytes) : Option (List Seed) :=
  match config with
  | [] => some []
  | kind :: rest =>
    if kind = 0 then some []
    else if kind = 1 then
      match rest with
      | length :: rest =>
        if length.toNat ≤ rest.length then
          (decodeSeeds (rest.drop length.toNat)).map (.literal (rest.take length.toNat) :: ·)
        else none
      | [] => none
    else if kind = 2 then
      match rest with
      | index :: length :: rest => (decodeSeeds rest).map (.instructionData index length :: ·)
      | _ => none
    else if kind = 3 then
      match rest with
      | index :: rest => (decodeSeeds rest).map (.accountKey index :: ·)
      | [] => none
    else if kind = 4 then
      match rest with
      | accountIndex :: dataIndex :: length :: rest =>
        (decodeSeeds rest).map (.accountData accountIndex dataIndex length :: ·)
      | _ => none
    else none
  termination_by config.length
  decreasing_by all_goals simp only [List.length_cons, List.length_drop]; omega

def decodeMetaAddress (discriminator : UInt8) (config : Bytes) : Option MetaAddress :=
  if discriminator = 0 then some (.literal config)
  else if discriminator = 1 then (decodeSeeds config).map (.derived none)
  else if h : 128 ≤ discriminator.toNat then
    (decodeSeeds config).map (.derived (some ⟨discriminator.toNat - 128, by
      have := discriminator.toNat_lt
      omega⟩))
  else none

/-- The entry in these 35 bytes. -/
def decodeMeta (entry : Bytes) : Option ExtraAccountMeta :=
  match entry with
  | discriminator :: rest =>
    (decodeMetaAddress discriminator (rest.take 32)).map fun address =>
      { address, isSigner := (rest[32]?).getD 0 != 0, isWritable := (rest[33]?).getD 0 != 0 }
  | [] => none

/-- `count` entries, if the bytes hold as many. -/
def decodeEntries : (count : Nat) → Bytes → Option (List ExtraAccountMeta)
  | 0, _ => some []
  | count + 1, bytes =>
    if bytes.length < 35 then none
    else do
      let first ← decodeMeta (bytes.take 35)
      let rest ← decodeEntries count (bytes.drop 35)
      pure (first :: rest)

/-- The stored list. -/
def decodeMetaList (data : Bytes) : Option (List ExtraAccountMeta) :=
  if data.length < 16 then none
  else decodeEntries (LittleEndian.decode ((data.drop 12).take 4)) (data.drop 16)

/-- What follows the packed seeds does not matter if it starts with a zero or is empty. -/
theorem decodeSeeds_flatMap_pack {seeds : List Seed} (n : Nat)
    (hliterals : ∀ bytes, .literal bytes ∈ seeds → bytes.length < 256) :
    decodeSeeds (seeds.flatMap Seed.pack ++ List.replicate n 0) = some seeds := by
  induction seeds with
  | nil =>
    cases n with
    | zero => simp [decodeSeeds]
    | succ n =>
      rw [List.flatMap_nil, List.nil_append, List.replicate_succ]
      unfold decodeSeeds
      simp
  | cons seed seeds ih =>
    have hrest := ih fun bytes h => hliterals bytes (List.mem_cons_of_mem _ h)
    rw [List.flatMap_cons, List.append_assoc]
    generalize seeds.flatMap Seed.pack ++ List.replicate n 0 = rest at hrest
    cases seed with
    | literal bytes =>
      have hlength : (UInt8.ofNat bytes.length).toNat = bytes.length :=
        UInt8.toNat_ofNat_of_lt' (hliterals bytes List.mem_cons_self)
      simp [Seed.pack, decodeSeeds, hlength, hrest]
    | instructionData index length => simp [Seed.pack, decodeSeeds, hrest]
    | accountKey index => simp [Seed.pack, decodeSeeds, hrest]
    | accountData accountIndex dataIndex length => simp [Seed.pack, decodeSeeds, hrest]

/-- A literal of a list that fits is short. -/
theorem SeedsFit.literal_lt {seeds : List Seed} (h : SeedsFit seeds) {bytes : Bytes}
    (hmem : .literal bytes ∈ seeds) : bytes.length < 256 := by
  have hsub : (Seed.literal bytes).pack.length ≤ (seeds.flatMap Seed.pack).length :=
    (List.sublist_flatten_of_mem (List.mem_map_of_mem hmem)).length_le
  simp only [Seed.pack, List.length_cons] at hsub
  have hfit : (seeds.flatMap Seed.pack).length ≤ 32 := h
  omega

/-- Packed seeds decode to themselves. -/
theorem decodeSeeds_packSeeds {seeds : List Seed} (h : SeedsFit seeds) :
    decodeSeeds (packSeeds seeds) = some seeds :=
  decodeSeeds_flatMap_pack _ fun _ hmem => h.literal_lt hmem

/-- A discriminator from 128 on stands for the program at an index. -/
theorem decodeMetaAddress_index {d : UInt8} {index : Fin 128} (hd : d.toNat = 128 + index)
    (config : Bytes) :
    decodeMetaAddress d config = (decodeSeeds config).map (.derived (some index)) := by
  have hzero : d ≠ 0 := by
    rintro rfl
    simp only [UInt8.toNat_zero] at hd
    omega
  have hone : d ≠ 1 := by
    rintro rfl
    simp only [UInt8.toNat_one] at hd
    omega
  unfold decodeMetaAddress
  rw [if_neg hzero, if_neg hone, dif_pos (by omega)]
  simp only [hd, Nat.add_sub_cancel_left]

theorem decodeMetaAddress_pack {a : MetaAddress} (h : a.Fits) :
    decodeMetaAddress a.discriminator a.config = some a := by
  cases a with
  | literal address => simp [decodeMetaAddress, MetaAddress.discriminator, MetaAddress.config]
  | derived program seeds =>
    have hseeds : decodeSeeds (packSeeds seeds) = some seeds := decodeSeeds_packSeeds h
    cases program with
    | none => simp [decodeMetaAddress, MetaAddress.discriminator, MetaAddress.config, hseeds]
    | some index =>
      have hsize : UInt8.size = 256 := rfl
      have hindex := index.isLt
      have hnat : (UInt8.ofNat (128 + index)).toNat = 128 + index :=
        UInt8.toNat_ofNat_of_lt' (by omega)
      have hdecode := decodeMetaAddress_index hnat (packSeeds seeds)
      rw [hseeds] at hdecode
      exact hdecode

/-- An encoded entry decodes to itself. -/
theorem decodeMeta_pack {m : ExtraAccountMeta} (h : m.address.Fits) : decodeMeta m.pack = some m := by
  have hlength := MetaAddress.length_config h
  have hbool : ∀ b : Bool, (b.toUInt8 != 0) = b := by decide
  simp only [decodeMeta, ExtraAccountMeta.pack]
  simp [List.take_left' hlength, decodeMetaAddress_pack h, hlength, hbool]

theorem decodeEntries_pack {metas : List ExtraAccountMeta} (h : ∀ m ∈ metas, m.address.Fits)
    (rest : Bytes) :
    decodeEntries metas.length (metas.flatMap ExtraAccountMeta.pack ++ rest) = some metas := by
  induction metas with
  | nil => rfl
  | cons m metas ih =>
    have hm : m.address.Fits := h m List.mem_cons_self
    have hlength := ExtraAccountMeta.length_pack hm
    have hrest := ih fun m' hm' => h m' (List.mem_cons_of_mem _ hm')
    rw [List.flatMap_cons, List.append_assoc, List.length_cons, decodeEntries, if_neg]
    · rw [List.take_left' hlength, List.drop_left' hlength, decodeMeta_pack hm, hrest]
      rfl
    · simp only [List.length_append, hlength]
      omega

/-- After the header come the entries it counts. -/
theorem decodeMetaList_listHeader {count : Nat} (h : count < 2 ^ 32) (rest : Bytes) :
    decodeMetaList (listHeader count ++ rest) = decodeEntries count rest := by
  have hlength : ¬ (listHeader count ++ rest).length < 16 := by
    rw [List.length_append, length_listHeader]
    omega
  rw [decodeMetaList, if_neg hlength, count_listHeader h, List.drop_left' (length_listHeader count)]

/-- A stored list decodes to itself, whatever follows it. -/
theorem decodeMetaList_pack {metas : List ExtraAccountMeta} (h : MetaListFits metas) (rest : Bytes) :
    decodeMetaList (packMetaList metas ++ rest) = some metas := by
  rw [packMetaList, List.append_assoc, decodeMetaList_listHeader h.count]
  exact decodeEntries_pack h.entries rest

/-- A count larger than the bytes hold is refused. -/
theorem decodeEntries_short {count : Nat} {bytes : Bytes} (h : bytes.length < 35 * count) :
    decodeEntries count bytes = none := by
  induction count generalizing bytes with
  | zero => omega
  | succ count ih =>
    unfold decodeEntries
    split
    · rfl
    · have hrest : decodeEntries count (bytes.drop 35) = none := ih (by
        rw [List.length_drop]
        omega)
      rw [hrest]
      cases decodeMeta (bytes.take 35) <;> rfl

/-! ## Resolving -/

/-- What resolving a list needs: the codec of addresses, the derivation of addresses from seeds, and the
    data of accounts. -/
structure AccountAccess where
  encodeAddress : Address → Bytes
  decodeAddress : Bytes → Address
  findProgramAddress : (program : Address) → (seeds : List Bytes) → Except String Address
  data : Address → Option Bytes

/-- Why a list cannot be resolved. -/
inductive ResolveFailure
  /-- An index or a slice is out of range. -/
  | malformed
  | missingAccount
  | noAddress
deriving DecidableEq, Repr

/-- `length` bytes from `index` on, all of which are there. -/
def sliceOf (data : Bytes) (index length : Nat) : Except ResolveFailure Bytes :=
  if index + length ≤ data.length then .ok ((data.drop index).take length) else .error .malformed

variable (access : AccountAccess) (instructionData : Bytes)

def accountAt (accounts : List Address) (index : Nat) : Except ResolveFailure Address :=
  match accounts[index]? with
  | some account => .ok account
  | none => .error .malformed

/-- The bytes of a seed, over the accounts known so far. -/
def Seed.bytes (accounts : List Address) : Seed → Except ResolveFailure Bytes
  | .literal bytes => .ok bytes
  | .instructionData index length => sliceOf instructionData index.toNat length.toNat
  | .accountKey index => do
    let account ← accountAt accounts index.toNat
    pure (access.encodeAddress account)
  | .accountData accountIndex dataIndex length => do
    let account ← accountAt accounts accountIndex.toNat
    match access.data account with
    | none => .error .missingAccount
    | some data => sliceOf data dataIndex.toNat length.toNat

/-- The program an address is derived from. -/
def programOf (hookProgram : Address) (accounts : List Address) (index : Option (Fin 128)) :
    Except ResolveFailure Address :=
  match index with
  | none => .ok hookProgram
  | some index => accountAt accounts index

/-- The account an entry stands for, over the accounts known so far. -/
def ExtraAccountMeta.resolve (hookProgram : Address) (accounts : List Address) (m : ExtraAccountMeta) :
    Except ResolveFailure ResolvedAccount := do
  let role := if m.isWritable then AccountRole.writable else .readonly
  match m.address with
  | .literal address => pure { address := access.decodeAddress address, role }
  | .derived program seeds =>
    let program ← programOf hookProgram accounts program
    let seeds ← seeds.mapM (Seed.bytes access instructionData accounts)
    match access.findProgramAddress program seeds with
    | .ok address => pure { address, role }
    | .error _ => .error .noAddress

/-- The accounts of a list: each entry is resolved over the accounts before it. -/
def resolveMetaList (hookProgram : Address) :
    (accounts : List Address) → List ExtraAccountMeta → Except ResolveFailure (List ResolvedAccount)
  | _, [] => pure []
  | accounts, m :: metas => do
    let first ← m.resolve access instructionData hookProgram accounts
    let rest ← resolveMetaList hookProgram (accounts ++ [first.address]) metas
    pure (first :: rest)

/-- The data is no list in the interface's encoding, or one that refers to what is not there. -/
def MalformedList (hookProgram : Address) (accounts : List Address) (data : Bytes) : Prop :=
  ∀ metas, decodeMetaList data = some metas →
    resolveMetaList access instructionData hookProgram accounts metas = .error .malformed

end Solana
