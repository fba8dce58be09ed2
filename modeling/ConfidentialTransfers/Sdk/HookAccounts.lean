-- SUMMARY: Transfer-hook accounts are resolved as the SPL interface says.
import ConfidentialTransfers.Sdk.TransferHook
import ConfidentialTransfers.Solana.ExtraAccountMetas

/-!
# Hook accounts

On a list in the interface's encoding, `resolveTransferHookAccounts` computes
what the interface's own resolver does: the parser reads back every entry, and
every packed seed gives its bytes.
-/

open Solana

namespace Sdk

variable {χ π : Type}

/-! ## Reading a packed list -/

theorem subarray_eq (data : Bytes) (start length : Nat) :
    subarray data (some start) (some length) = (data.drop start).take length := by
  rw [subarray, List.drop_take, Nat.add_sub_cancel_left]

/-- The bytes from an offset on. -/
theorem byteAt_add {data suffix : Bytes} {i : Nat} (h : data.drop i = suffix) (k : Nat) :
    byteAt data (i + k) = (suffix[k]?).map UInt8.toNat := by
  rw [byteAt, ← h, List.getElem?_drop]

theorem byteAt_eq {data suffix : Bytes} {i : Nat} (h : data.drop i = suffix) :
    byteAt data i = (suffix[0]?).map UInt8.toNat :=
  byteAt_add h 0

/-- What the parser makes of an entry. -/
def metaOf (m : ExtraAccountMeta) : Meta where
  discriminator := m.address.discriminator
  addressConfig := m.address.config
  isWritable := m.isWritable
  isSigner := m.isSigner

/-- The loop reads the entries that are there and stops where the next one would be cut short. -/
theorem parseMetas_pack {data : Bytes} {metas : List ExtraAccountMeta}
    (hfits : ∀ m ∈ metas, m.address.Fits) {remaining i : Nat} {rest : Bytes}
    (hdata : data.drop (metaHeader + i * metaEntry) = metas.flatMap ExtraAccountMeta.pack ++ rest)
    (hremaining : metas.length ≤ remaining)
    (hrest : metas.length = remaining ∨ rest.length < metaEntry) :
    parseMetas data remaining i = metas.map metaOf := by
  induction metas generalizing remaining i with
  | nil =>
    cases remaining with
    | zero => rfl
    | succ remaining =>
      have hcut : rest.length < metaEntry := by simpa using hrest
      have hend : metaHeader + i * metaEntry + metaEntry > data.length := by
        have hlength := congrArg List.length hdata
        simp only [List.length_drop, List.flatMap_nil, List.nil_append] at hlength
        omega
      rw [parseMetas, if_pos hend, List.map_nil]
  | cons m metas ih =>
    obtain ⟨remaining, rfl⟩ : ∃ remaining', remaining = remaining' + 1 :=
      ⟨remaining - 1, by simp only [List.length_cons] at hremaining; omega⟩
    have hm : m.address.Fits := hfits m List.mem_cons_self
    have hconfig := MetaAddress.length_config hm
    have hpack := ExtraAccountMeta.length_pack hm
    rw [List.flatMap_cons, List.append_assoc] at hdata
    have hlength : ¬ metaHeader + i * metaEntry + metaEntry > data.length := by
      have := congrArg List.length hdata
      simp only [List.length_drop, List.length_append, hpack] at this
      simp only [metaEntry] at this ⊢
      omega
    have hnext : data.drop (metaHeader + (i + 1) * metaEntry) =
        metas.flatMap ExtraAccountMeta.pack ++ rest := by
      have hstep : metaHeader + (i + 1) * metaEntry = metaHeader + i * metaEntry + m.pack.length := by
        rw [hpack, Nat.succ_mul, ← Nat.add_assoc]
        rfl
      rw [hstep, ← List.drop_drop, hdata, List.drop_left]
    have hbyte : ∀ k, data[metaHeader + i * metaEntry + k]? =
        (m.pack ++ (metas.flatMap ExtraAccountMeta.pack ++ rest))[k]? := by
      intro k
      rw [← hdata, List.getElem?_drop]
    have htail : parseMetas data remaining (i + 1) = metas.map metaOf :=
      ih (fun m' hm' => hfits m' (List.mem_cons_of_mem _ hm')) hnext (by simpa using hremaining)
        (by simpa using hrest)
    rw [parseMetas, if_neg hlength, htail, List.map_cons]
    have hflag : ∀ b : Bool, (b.toUInt8 == 1) = b := by decide
    have hfirst : data[metaHeader + i * metaEntry]? = some m.address.discriminator := by
      simpa [ExtraAccountMeta.pack] using hbyte 0
    have hsigner : data[metaHeader + i * metaEntry + 33]? = some m.isSigner.toUInt8 := by
      rw [hbyte]
      simp [ExtraAccountMeta.pack, hconfig]
    have hwritable : data[metaHeader + i * metaEntry + 34]? = some m.isWritable.toUInt8 := by
      rw [hbyte]
      simp [ExtraAccountMeta.pack, List.getElem?_append_right, hconfig]
    have hbytes : subarray data (some (metaHeader + i * metaEntry + 1)) (some 32) = m.address.config := by
      rw [subarray_eq, ← List.drop_drop, hdata]
      simp [ExtraAccountMeta.pack, List.take_left' hconfig]
    simp [metaOf, hfirst, hsigner, hwritable, hbytes, hflag]

/-- A list that announces `count` entries is read as the entries it holds. -/
theorem parseMetaList_listHeader {metas : List ExtraAccountMeta} (hfits : ∀ m ∈ metas, m.address.Fits)
    {count : Nat} (hcount : count < 2 ^ 32) {rest : Bytes} (hle : metas.length ≤ count)
    (hrest : metas.length = count ∨ rest.length < metaEntry) :
    parseMetaList (listHeader count ++ (metas.flatMap ExtraAccountMeta.pack ++ rest)) =
      metas.map metaOf := by
  have hread : LittleEndian.decode (subarray
      (listHeader count ++ (metas.flatMap ExtraAccountMeta.pack ++ rest)) (some 12) (some 4)) = count := by
    rw [subarray_eq, count_listHeader hcount]
  have hheader : ¬ (listHeader count ++ (metas.flatMap ExtraAccountMeta.pack ++ rest)).length <
      metaHeader := by
    rw [List.length_append, length_listHeader, metaHeader]
    omega
  rw [parseMetaList, if_neg hheader, hread]
  refine parseMetas_pack hfits ?_ hle hrest
  rw [Nat.zero_mul, Nat.add_zero]
  exact List.drop_left' (length_listHeader count)

variable (net : Network χ π) (hk : HookSurroundings χ)

/-- What the resolver of the interface is given. -/
def HookSurroundings.access (chain : χ) : AccountAccess where
  encodeAddress := hk.encodeAddress
  decodeAddress := hk.decodeAddress
  findProgramAddress := hk.getProgramDerivedAddress
  data := hk.accountData chain

/-- Account reads are served. -/
def ServesAccounts (net : Network χ π) : Prop :=
  ∀ n a, net.refused n (.getAccountInfo a) = none

variable {net hk}

/-- A run that returns `a` and leaves the chain as it is. -/
def Returns {α : Type} (m : Effect (World χ π) Thrown α) (a : α) (w : World χ π) : Prop :=
  m.wp (fun r w' => r = .ok a ∧ w'.chain = w.chain) w

theorem returns_pure {α : Type} (a : α) (w : World χ π) :
    Returns (pure a : Effect (World χ π) Thrown α) a w :=
  ⟨rfl, rfl⟩

theorem Returns.bind {α β : Type} {m : Effect (World χ π) Thrown α}
    {f : α → Effect (World χ π) Thrown β} {a : α} {b : β} {w : World χ π} (h : Returns m a w)
    (hf : ∀ w', w'.chain = w.chain → Returns (f a) b w') : Returns (m >>= f) b w := by
  refine Effect.wp.bind h (fun a' w' ha => ?_) (fun e w' he => ?_)
  · obtain ⟨ha, hchain⟩ := ha
    obtain rfl := Except.ok.inj ha
    exact (hf w' hchain).mono fun r w'' hr => ⟨hr.1, hr.2.trans hchain⟩
  · cases he.1

theorem returns_ofExcept {α : Type} {r : Except Thrown α} {a : α} (h : r = .ok a) (w : World χ π) :
    Returns (Effect.ofExcept r) a w :=
  ⟨h, rfl⟩

theorem fetchData_returns (hserves : ServesAccounts net) (a : Address) (w : World χ π) :
    Returns (fetchData net hk a) (hk.accountData w.chain a) w := by
  refine Effect.wp_of_run (.ok (hk.accountData w.chain a)) w.tick ?_ ⟨rfl, rfl⟩
  simp [fetchData, Effect.mapError, Network.request, hserves w.clock a, Except.mapError]

/-- The account at an index, and its address. -/
theorem previousAt_of_accountAt {previous : List ResolvedAccount} {index : Nat} {a : Address}
    (h : accountAt (previous.map (·.address)) index = .ok a) :
    ∃ account, previous[index]? = some account ∧ account.address = a := by
  unfold accountAt at h
  rw [List.getElem?_map] at h
  cases hi : previous[index]? with
  | none => simp [hi] at h
  | some account => exact ⟨account, rfl, by simpa [hi] using h⟩

theorem sliceOf_eq_ok {data bytes : Bytes} {index length : Nat} (h : sliceOf data index length = .ok bytes) :
    subarray data (some index) (some length) = bytes := by
  rw [subarray_eq]
  unfold sliceOf at h
  split at h
  · exact Except.ok.inj h
  · cases h

/-- One round of the loop reads one seed. -/
theorem unpackSeedsFrom_seed (hserves : ServesAccounts net) {config instructionData suffix : Bytes}
    {previous : List ResolvedAccount} {seed : Seed} {fuel i : Nat} {value : Bytes} {values : List Bytes}
    {w : World χ π} (hconfig : config.drop i = seed.pack ++ suffix)
    (hliteral : ∀ bytes, seed = .literal bytes → bytes.length < 256)
    (hvalue : seed.bytes (hk.access w.chain) instructionData (previous.map (·.address)) = .ok value)
    (hrest : ∀ w', w'.chain = w.chain → Returns (unpackSeedsFrom net hk config previous instructionData
      fuel (i + seed.pack.length)) values w') :
    Returns (unpackSeedsFrom net hk config previous instructionData (fuel + 1) i) (value :: values) w := by
  have hthen : ∀ w', w'.chain = w.chain → Returns (unpackSeedsFrom net hk config previous
      instructionData fuel (i + seed.pack.length) >>= fun seeds => pure (value :: seeds))
      (value :: values) w' :=
    fun w' hw' => (hrest w' hw').bind fun w'' _ => returns_pure _ w''
  have hzero := byteAt_eq hconfig
  have hone := byteAt_add hconfig 1
  have htwo := byteAt_add hconfig 2
  have hthree := byteAt_add hconfig 3
  unfold unpackSeedsFrom
  cases seed with
  | literal bytes =>
    have hlength : (UInt8.ofNat bytes.length).toNat = bytes.length :=
      UInt8.toNat_ofNat_of_lt' (hliteral bytes rfl)
    obtain rfl : bytes = value := Except.ok.inj hvalue
    have htaken : subarray config (some (i + 2)) (some bytes.length) = bytes := by
      rw [subarray_eq, ← List.drop_drop, hconfig]
      simp [Seed.pack]
    simp only [Seed.pack, List.cons_append, List.getElem?_cons_zero, List.getElem?_cons_succ,
      Option.map_some, hlength] at hzero hone
    simp only [hzero, hone, htaken]
    have hnext : i + (2 + bytes.length) = i + (Seed.literal bytes).pack.length := by
      simp only [Seed.pack, List.length_cons]
      omega
    rw [hnext]
    exact hthen w rfl
  | instructionData index length =>
    have hslice : subarray instructionData (some index.toNat) (some length.toNat) = value :=
      sliceOf_eq_ok hvalue
    simp only [Seed.pack, List.cons_append, List.getElem?_cons_zero, List.getElem?_cons_succ,
      Option.map_some] at hzero hone htwo
    simp only [hzero, hone, htwo, hslice]
    exact hthen w rfl
  | accountKey index =>
    obtain ⟨a, ha, hbytes⟩ := Except.bind_eq_ok_iff.mp hvalue
    obtain ⟨account, haccount, rfl⟩ := previousAt_of_accountAt ha
    obtain rfl : hk.encodeAddress account.address = value := Except.ok.inj hbytes
    simp only [Seed.pack, List.cons_append, List.getElem?_cons_zero, List.getElem?_cons_succ,
      Option.map_some] at hzero hone
    simp only [hzero, hone, previousAt, Option.bind_some, haccount]
    exact hthen w rfl
  | accountData accountIndex dataIndex length =>
    obtain ⟨a, ha, hbytes⟩ := Except.bind_eq_ok_iff.mp hvalue
    obtain ⟨account, haccount, rfl⟩ := previousAt_of_accountAt ha
    simp only [Seed.pack, List.cons_append, List.getElem?_cons_zero, List.getElem?_cons_succ,
      Option.map_some] at hzero hone htwo hthree
    simp only [hzero, hone, htwo, hthree, previousAt, Option.bind_some, haccount]
    refine (fetchData_returns hserves account.address w).bind fun w' hw' => ?_
    cases hdata : hk.accountData w.chain account.address with
    | none => simp [HookSurroundings.access, hdata] at hbytes
    | some data =>
      have hslice : subarray data (some dataIndex.toNat) (some length.toNat) = value :=
        sliceOf_eq_ok (by simpa [HookSurroundings.access, hdata] using hbytes)
      simp only [hslice]
      exact hthen w' hw'

/-- What unpacking starts from: the seeds, and then a zero or the end of the config. -/
theorem unpackSeedsFrom_returns (hserves : ServesAccounts net) {config instructionData : Bytes}
    {previous : List ResolvedAccount} {seeds : List Seed} {n fuel i : Nat} {values : List Bytes}
    {w : World χ π} (hconfig : config.drop i = seeds.flatMap Seed.pack ++ List.replicate n 0)
    (hliterals : ∀ bytes, .literal bytes ∈ seeds → bytes.length < 256)
    (hfuel : (seeds.flatMap Seed.pack).length ≤ fuel)
    (hvalues : seeds.mapM (Seed.bytes (hk.access w.chain) instructionData
      (previous.map (·.address))) = .ok values) :
    Returns (unpackSeedsFrom net hk config previous instructionData fuel i) values w := by
  induction seeds generalizing i fuel values w with
  | nil =>
    obtain rfl : [] = values := by simpa [pure, Except.pure] using hvalues
    cases fuel with
    | zero => exact returns_pure _ _
    | succ fuel =>
      have hbyte : byteAt config i = none ∨ byteAt config i = some 0 := by
        rw [byteAt_eq hconfig]
        cases n with
        | zero => simp
        | succ n => simp [List.replicate_succ]
      unfold unpackSeedsFrom
      rcases hbyte with hbyte | hbyte <;> rw [hbyte] <;> exact returns_pure _ _
  | cons seed seeds ih =>
    rw [List.mapM_cons, Except.bind_eq_ok_iff] at hvalues
    obtain ⟨value, hvalue, hvalues⟩ := hvalues
    obtain ⟨rest, hrest, hvalues⟩ := Except.bind_eq_ok_iff.mp hvalues
    obtain rfl : value :: rest = values := Except.ok.inj hvalues
    rw [List.flatMap_cons, List.append_assoc] at hconfig
    rw [List.flatMap_cons, List.length_append] at hfuel
    have hpack : 0 < seed.pack.length := by cases seed <;> simp [Seed.pack]
    obtain ⟨fuel, rfl⟩ : ∃ fuel', fuel = fuel' + 1 := ⟨fuel - 1, by omega⟩
    refine unpackSeedsFrom_seed hserves hconfig (fun bytes hb => hliterals bytes (by simp [hb])) hvalue
      fun w' hw' => ?_
    have hnext : config.drop (i + seed.pack.length) =
        seeds.flatMap Seed.pack ++ List.replicate n 0 := by
      rw [← List.drop_drop, hconfig, List.drop_left]
    exact ih hnext (fun bytes hb => hliterals bytes (List.mem_cons_of_mem _ hb)) (by omega)
      (by rw [hw']; exact hrest)

/-- Unpacking packed seeds gives back their bytes. -/
theorem unpackSeeds_packSeeds (hserves : ServesAccounts net) {seeds : List Seed} (hfit : SeedsFit seeds)
    {instructionData : Bytes} {previous : List ResolvedAccount} {values : List Bytes} {w : World χ π}
    (hvalues : seeds.mapM (Seed.bytes (hk.access w.chain) instructionData
      (previous.map (·.address))) = .ok values) :
    Returns (unpackSeeds net hk (packSeeds seeds) previous instructionData) values w := by
  have hlength : (seeds.flatMap Seed.pack).length ≤ (packSeeds seeds).length := by
    simp [packSeeds, padded]
  exact unpackSeedsFrom_returns hserves (n := 32 - (seeds.flatMap Seed.pack).length) rfl
    (fun _ hmem => hfit.literal_lt hmem) hlength hvalues

/-! ## Resolving entries -/

theorem programAddressOf_eq_ok {m : ExtraAccountMeta} {previous : List ResolvedAccount}
    {hookProgram program : Address} {index : Option (Fin 128)} {seeds : List Seed}
    (haddress : m.address = .derived index seeds)
    (h : programOf hookProgram (previous.map (·.address)) index = .ok program) :
    programAddressOf (metaOf m) previous hookProgram = .ok program := by
  cases index with
  | none =>
    obtain rfl : hookProgram = program := Except.ok.inj h
    simp [programAddressOf, metaOf, haddress, MetaAddress.discriminator]
  | some index =>
    obtain ⟨account, haccount, rfl⟩ := previousAt_of_accountAt h
    have hsize : UInt8.size = 256 := rfl
    have hindex := index.isLt
    have hnat : (metaOf m).discriminator.toNat = 128 + index := by
      rw [metaOf, haddress]
      exact UInt8.toNat_ofNat_of_lt' (by omega)
    have hone : (metaOf m).discriminator ≠ 1 := by
      intro heq
      rw [heq, UInt8.toNat_one] at hnat
      omega
    have hint : (((128 + index : Nat) : Int) - (1 <<< 7)) = (index : Nat) := by
      have : ((1 : Int) <<< 7) = 128 := rfl
      omega
    have hnot : ¬ ((index : Nat) : Int) < 0 := by omega
    simp only [programAddressOf, hone, ne_eq, not_false_eq_true, if_true, hnat, hint, if_neg hnot,
      Int.toNat_natCast, haccount]

theorem discriminator_derived_ne_zero (index : Option (Fin 128)) (seeds : List Seed) :
    (MetaAddress.derived index seeds).discriminator ≠ 0 := by
  cases index with
  | none => simp [MetaAddress.discriminator]
  | some index =>
    have hsize : UInt8.size = 256 := rfl
    have hindex := index.isLt
    intro heq
    have hnat := congrArg UInt8.toNat heq
    rw [MetaAddress.discriminator, UInt8.toNat_ofNat_of_lt' (by omega), UInt8.toNat_zero] at hnat
    omega

/-- An entry is resolved as the interface says. -/
theorem resolveMeta_returns (hserves : ServesAccounts net) {m : ExtraAccountMeta} (hfits : m.address.Fits)
    {previous : List ResolvedAccount} {instructionData : Bytes} {hookProgram : Address}
    {account : ResolvedAccount} {w : World χ π} (h : m.resolve (hk.access w.chain) instructionData
      hookProgram (previous.map (·.address)) = .ok account) :
    Returns (resolveMeta net hk (metaOf m) previous instructionData hookProgram) account w := by
  unfold resolveMeta
  unfold ExtraAccountMeta.resolve at h
  cases haddress : m.address with
  | literal address =>
    simp only [haddress] at h
    obtain rfl := Except.ok.inj h
    have hzero : (metaOf m).discriminator = 0 := by
      rw [metaOf, haddress]
      rfl
    have hconfig : (metaOf m).addressConfig = address := by
      rw [metaOf, haddress]
      rfl
    rw [if_pos hzero, hconfig]
    exact returns_pure _ w
  | derived index seeds =>
    simp only [haddress] at h
    obtain ⟨program, hprogram, h⟩ := Except.bind_eq_ok_iff.mp h
    obtain ⟨values, hvalues, h⟩ := Except.bind_eq_ok_iff.mp h
    have hfit : SeedsFit seeds := by
      rw [haddress] at hfits
      exact hfits
    have hzero : (metaOf m).discriminator ≠ 0 := by
      rw [metaOf, haddress]
      exact discriminator_derived_ne_zero index seeds
    have hconfig : (metaOf m).addressConfig = packSeeds seeds := by
      rw [metaOf, haddress]
      rfl
    rw [if_neg hzero, hconfig]
    refine (returns_ofExcept (programAddressOf_eq_ok haddress hprogram) w).bind fun w₁ hw₁ => ?_
    rw [← hw₁] at hvalues
    refine (unpackSeeds_packSeeds hserves hfit hvalues).bind fun w₂ _ => ?_
    have hpda : (hk.access w.chain).findProgramAddress program values =
        hk.getProgramDerivedAddress program values := rfl
    rw [hpda] at h
    cases hderived : hk.getProgramDerivedAddress program values with
    | error message => simp [hderived] at h
    | ok address =>
      simp only [hderived] at h
      obtain rfl := Except.ok.inj h
      exact (returns_ofExcept rfl w₂).bind fun w₃ _ => returns_pure _ w₃

theorem resolveMetas_returns (hserves : ServesAccounts net) {metas : List ExtraAccountMeta}
    (hfits : ∀ m ∈ metas, m.address.Fits) {resolved accounts : List ResolvedAccount}
    {instructionData : Bytes} {hookProgram : Address} {w : World χ π}
    (h : resolveMetaList (hk.access w.chain) instructionData hookProgram (resolved.map (·.address))
      metas = .ok accounts) :
    Returns (resolveMetas net hk instructionData hookProgram (metas.map metaOf) resolved)
      (resolved ++ accounts) w := by
  induction metas generalizing resolved accounts w with
  | nil =>
    obtain rfl : [] = accounts := Except.ok.inj h
    rw [List.append_nil]
    exact returns_pure resolved w
  | cons m metas ih =>
    obtain ⟨first, hfirst, h⟩ := Except.bind_eq_ok_iff.mp h
    obtain ⟨rest, hrest, h⟩ := Except.bind_eq_ok_iff.mp h
    obtain rfl : first :: rest = accounts := Except.ok.inj h
    refine (resolveMeta_returns hserves (hfits m List.mem_cons_self) hfirst).bind fun w' hw' => ?_
    have hnext : Returns (resolveMetas net hk instructionData hookProgram (metas.map metaOf)
        (resolved ++ [first])) ((resolved ++ [first]) ++ rest) w' :=
      ih (fun m' hm' => hfits m' (List.mem_cons_of_mem _ hm')) (by simpa [hw'] using hrest)
    simpa using hnext

/-! ## Resolving a list -/

/-- A run that returns `a` ends so. -/
theorem Returns.result {α : Type} {m : Effect (World χ π) Thrown α} {a : α} {w : World χ π}
    (h : Returns m a w) : (m w).1 = .ok a :=
  h.1

/-- The mint names this program as its hook. -/
def HasHook (net : Network χ π) (mint : Address) (w : World χ π) (hookProgram : Address) : Prop :=
  ∃ data, net.mint w.clock w.chain mint = .ok data ∧
    (data.extensions.getD []).findSome? hookProgramId = some (some hookProgram) ∧
      hookProgram ≠ systemProgram

theorem getTransferHookProgram_returns (hserves : ServesAccounts net) {mint hookProgram : Address}
    {w : World χ π} (h : HasHook net mint w hookProgram) :
    Returns (getTransferHookProgram net mint) (some hookProgram) w := by
  obtain ⟨data, hdata, hprogram, hsystem⟩ := h
  have hread : Returns (Effect.mapError Thrown.other
      (net.request (.getAccountInfo mint) fun n chain => net.mint n chain mint)) (.ok data) w := by
    refine Effect.wp_of_run (.ok (.ok data)) w.tick ?_ ⟨rfl, rfl⟩
    simp [Effect.mapError, Network.request, hserves w.clock mint, hdata, Except.mapError]
  refine hread.bind fun w' _ => ?_
  simp only [hprogram, if_neg hsystem]
  exact returns_pure _ w'

/-- The accounts returned for a hook whose entries are resolved to `entries`. -/
def hookAccounts (entries : List ResolvedAccount) (hookProgram metaListAddress : Address) :
    List ResolvedAccount :=
  entries ++ [{ address := hookProgram, role := .readonly },
    { address := metaListAddress, role := .readonly }]

/-- What the call does once it has the stored list. -/
theorem resolveTransferHookAccounts_returns (hserves : ServesAccounts net)
    {input : ResolveTransferHookAccountsInput} {w : World χ π} {hookProgram metaListAddress : Address}
    {data : Bytes} {entries : List ResolvedAccount} (hhook : HasHook net input.mint w hookProgram)
    (haddress : findExtraAccountMetaListPda hk input.mint hookProgram = .ok metaListAddress)
    (hdata : hk.accountData w.chain metaListAddress = some data)
    (hresolved : ∀ w', w'.chain = w.chain →
      Returns (resolveMetas net hk (executeInstructionData
        (input.amount.getD confidentialTransferHookAmount)) hookProgram (parseMetaList data)
        (executeAccounts input metaListAddress)) (executeAccounts input metaListAddress ++ entries) w') :
    Returns (resolveTransferHookAccounts net hk input)
      (hookAccounts entries hookProgram metaListAddress) w := by
  refine (getTransferHookProgram_returns hserves hhook).bind fun w₁ hw₁ => ?_
  refine (returns_ofExcept haddress w₁).bind fun w₂ hw₂ => ?_
  have hfetch : Returns (fetchData net hk metaListAddress) (some data) w₂ := by
    rw [← hdata, ← hw₁, ← hw₂]
    exact fetchData_returns hserves metaListAddress w₂
  refine hfetch.bind fun w₃ hw₃ => ?_
  refine (hresolved w₃ (by rw [hw₃, hw₂, hw₁])).bind fun w₄ _ => ?_
  exact returns_pure (hookAccounts entries hookProgram metaListAddress) w₄

namespace HookedMint

def mint : Address := "So11111111111111111111111111111111111111112"

def hookProgram : Address := "HwRVBufQ4haG5XSgpspwKtNd3PC9GM9m1196uJW36vds"

def memoProgram : Address := "MemoSq4gqABAXKb96qnH8TysNcWxMyWCqXgDLGmfcHr"

def metaList : Address := "9VTZV6g8nUKRSMb633cUjj6Z79haUrKUJWF5qZCpmzB"

def stateAccount : Address := "BpD6kuKzooA1T7AjSZzVvrPdbfZuHAAg2dfxqWzmK8CX"

def memoAccount : Address := "EBVJjW5vF13CqMiadFfZARrG5m3Ad9qBwHAK8pYqQhWC"

def mintBytes : Bytes :=
  [6, 155, 136, 87, 254, 171, 129, 132, 251, 104, 127, 99, 70, 24, 192, 53, 218, 196, 57, 220, 26, 235, 59,
    85, 152, 160, 240, 0, 0, 0, 0, 1]

def memoBytes : Bytes :=
  [5, 74, 83, 90, 153, 41, 33, 6, 77, 36, 232, 113, 96, 218, 56, 124, 124, 53, 181, 221, 188, 146, 187, 129,
    228, 31, 168, 64, 65, 5, 68, 141]

/-- The seed `state`. -/
def stateSeed : Bytes := [115, 116, 97, 116, 101]

/-- A program, an account of the hook, and an account of that program. -/
def metas : List ExtraAccountMeta :=
  [{ address := .literal memoBytes, isSigner := false, isWritable := false },
    { address := .derived none [.literal stateSeed, .accountKey 1], isSigner := false, isWritable := true },
    { address := .derived (some 5) [.instructionData 8 8, .accountData 0 0 4]
      isSigner := false
      isWritable := false }]

/-- The codec and the derivation on what is used here, with these bytes stored in the list's account; the
    source account starts with its mint. -/
def surroundings (stored : Bytes) : HookSurroundings Unit where
  encodeAddress a := if a = mint then mintBytes else if a = memoProgram then memoBytes else []
  decodeAddress bytes := if bytes = mintBytes then mint else if bytes = memoBytes then memoProgram else ""
  getProgramDerivedAddress program seeds :=
    if program = hookProgram ∧ seeds = [extraAccountMetasSeed, mintBytes] then .ok metaList
    else if program = hookProgram ∧ seeds = [stateSeed, mintBytes] then .ok stateAccount
    else if program = memoProgram ∧ seeds = [List.replicate 8 255, mintBytes.take 4] then .ok memoAccount
    else .error "Unable to find a viable program address bump seed"
  accountData _ a :=
    if a = metaList then some stored
    else if a = "source" then some (mintBytes ++ List.replicate 133 0)
    else none

/-- Nothing is refused. -/
def network : Network Unit Unit where
  execute _ chain _ := some chain
  mint _ _ _ := .ok { extensions := some [.transferHook (some hookProgram)] }

def input : ResolveTransferHookAccountsInput where
  mint := mint
  sourceToken := "source"
  destinationToken := "destination"
  owner := "owner"

theorem hasHook : HasHook network mint { chain := () } hookProgram :=
  ⟨_, rfl, rfl, by decide⟩

end HookedMint

end Sdk
