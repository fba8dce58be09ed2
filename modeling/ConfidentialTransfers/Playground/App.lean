-- SUMMARY: The playground page: eight steps on devnet, saved so that a reload or a retry resumes them.
import ConfidentialTransfers.Lib.Batches
import ConfidentialTransfers.Lib.Effect
import ConfidentialTransfers.Lib.JsNumberText
import ConfidentialTransfers.Lib.Machine
import ConfidentialTransfers.Solana.Instruction
import Mathlib.Algebra.Group.Nat.Defs
import Mathlib.Data.List.Infix

/-!
# The playground

`playground/src/app.js`. The page keeps its state in memory and a copy in the
browser's storage. A step makes requests to devnet, which may fail; while it
waits for one, the visitor may also reload or close the page, and then the step
never learns how the request ended. What the page shows is left out.
-/

open Solana

namespace Playground

/-! ## State -/

/-- A key, as the number it was generated as: no two are generated alike. -/
abbrev Key := Nat

inductive Role
  | you
  | bob
  | auditor
  | mallory
deriving DecidableEq, Repr

/-- The seeds of the four wallets. -/
structure Seeds where
  you : Key
  bob : Key
  auditor : Key
  mallory : Key
deriving DecidableEq, Repr

/-- A wallet and whose it is. -/
structure Wallet where
  role : Role
  seed : Key
deriving DecidableEq, Repr

def Seeds.wallet (seeds : Seeds) : Role → Wallet
  | .you => ⟨.you, seeds.you⟩
  | .bob => ⟨.bob, seeds.bob⟩
  | .auditor => ⟨.auditor, seeds.auditor⟩
  | .mallory => ⟨.mallory, seeds.mallory⟩

/-- What `refusal` finds in an error. -/
structure Refusal where
  message : String
  log : String
deriving DecidableEq, Repr

/-- `c`, the token with rules: `null` and `{ stage: 0 }` are both `{}`. -/
structure Rules where
  stage : Nat := 0
  mint : Option Key := none
  createdTx : Option Signature := none
  rulesTx : Option Signature := none
  refused : Option Refusal := none
  cleaned : Bool := false
  /-- How many proof accounts were closed; `-1` if they could not be. -/
  closed : Int := 0
  sent : Option Nat := none
  signatures : List Signature := []
  applied : Bool := false
deriving DecidableEq, Repr

structure State where
  seeds : Seeds
  done : Nat := 0
  mint : Option Key := none
  bobMint : Option Key := none
  sent : Option Nat := none
  signatures : List Signature := []
  c : Rules := {}
deriving DecidableEq, Repr

/-! ## Devnet -/

/-- What the page asks devnet to do. A transfer or withdraw is one call of the SDK. -/
inductive Act
  | createMint (mint : Key) (auditor : Wallet) (sentinel : Bool)
  /-- Sentinel's account list and policy, and the block entry of this wallet. -/
  | addRules (mint : Key) (blocked : Wallet)
  | configureAccount (mint : Key) (owner : Wallet)
  | mintTo (mint : Key) (owner : Wallet) (amount : Nat)
  | deposit (mint : Key) (owner : Wallet) (amount : Nat)
  | applyPendingBalance (mint : Key) (owner : Wallet)
  | transfer (mint : Key) (owner destination : Wallet) (amount : Nat)
  | withdraw (mint : Key) (owner : Wallet) (amount : Nat)
  | closeProofs (accounts : List Address)
deriving DecidableEq, Repr

/-- The token an act is about. -/
def Act.mint : Act → Option Key
  | .createMint mint _ _ | .addRules mint _ | .configureAccount mint _ | .mintTo mint _ _
  | .deposit mint _ _ | .applyPendingBalance mint _ | .transfer mint _ _ _ | .withdraw mint _ _ => some mint
  | .closeProofs _ => none

/-- An error with its causes, outermost first. -/
structure JsError where
  /-- The message and the program logs of the error and of each cause. -/
  links : List (Option String × List String)
  /-- Meant for the visitor as written. -/
  hint : Bool := false
deriving DecidableEq, Repr

def hint (text : String) : JsError := { links := [(some text, [])], hint := true }

def JsError.new (message : String) : JsError := { links := [(some message, [])] }

/-- The world the page runs in. Its answers may depend on how many requests were made before. -/
structure Devnet where
  /-- The browser lets the page store its state. -/
  storage : Bool := true
  /-- The page is reloaded while it waits for this request. -/
  reloaded : Nat → Bool := fun _ => false
  perform : Nat → Act → Except JsError (List Signature)
  requestAirdrop : Nat → Except JsError Unit
  solBalance : Nat → Except JsError Nat
  minimumBalanceForRentExemption : Nat → Except JsError Nat
  tokenAccountBalance : Nat → Wallet → Key → Except JsError Nat
  decryptBalance : Nat → Wallet → Key → Except JsError Nat
  decryptTransferAmountAsAuditor : Nat → Wallet → Signature → Except JsError Nat
  /-- The proof accounts whose authority is this wallet. -/
  proofAccounts : Nat → Wallet → Except JsError (List Address)

/-- The page, the browser's storage, and what devnet has told the page about its acts. -/
structure Page where
  state : State
  stored : Option State := none
  /-- `watchFunding` waits for a balance. -/
  watching : Bool := false
  /-- How many keys were generated. -/
  generated : Nat := 0
  /-- How many requests were made. -/
  clock : Nat := 0
  confirmed : List Act := []
  failed : List (Act × JsError) := []

/-- How a step ends before its end. -/
inductive Stop
  | thrown (e : JsError)
  /-- The page was reloaded. -/
  | reloaded

abbrev App (α : Type) := Effect Page Stop α

variable (d : Devnet)

def throw {α : Type} (e : JsError) : App α := Effect.throw (.thrown e)

/-- `if (failed) throw e`. -/
def check (failed : Bool) (e : JsError) : App Unit := if failed then throw e else pure ()

/-- `try … catch`: a reload is not an error that a page could catch. -/
def tryCatch {α : Type} (m : App α) (handler : JsError → App α) : App α := do
  match ← Effect.attempt m with
  | .ok a => pure a
  | .error (.thrown e) => handler e
  | .error .reloaded => Effect.throw .reloaded

/-- Wait for the answer to a request; `done` is what the answer leaves in the page's world. -/
def await {α : Type} (ask : Nat → Except JsError α) (done : Except JsError α → Page → Page) : App α := do
  let page ← Effect.get
  Effect.modify fun p => { p with clock := p.clock + 1 }
  if d.reloaded page.clock then Effect.throw .reloaded
  else
    Effect.modify (done (ask page.clock))
    Effect.ofExcept ((ask page.clock).mapError .thrown)

/-- A request that only reads. -/
def read {α : Type} (ask : Nat → Except JsError α) : App α := await d ask fun _ p => p

/-- Whether an act is confirmed or failed is remembered. -/
def record (act : Act) (answer : Except JsError (List Signature)) (p : Page) : Page :=
  match answer with
  | .ok _ => { p with confirmed := p.confirmed ++ [act] }
  | .error e => { p with failed := p.failed ++ [(act, e)] }

def perform (act : Act) : App (List Signature) := await d (fun n => d.perform n act) (record act)

/-! ## Saving and loading -/

def state : App State := do
  let p ← Effect.get
  pure p.state

def modifyState (f : State → State) : App Unit := Effect.modify fun p => { p with state := f p.state }

def save : App Unit :=
  Effect.modify fun p => { p with stored := if d.storage then some p.state else p.stored }

/-- Change the state and save it. -/
def update (f : State → State) : App Unit := do
  modifyState f
  save d

def updateRules (f : Rules → Rules) : App Unit := update d fun s => { s with c := f s.c }

/-- A state with four new wallets. -/
def fresh (p : Page) : State × Page :=
  ({ seeds := { you := p.generated, bob := p.generated + 1, auditor := p.generated + 2,
                mallory := p.generated + 3 } },
    { p with generated := p.generated + 4 })

/-- `load() ?? fresh()`, and then `watchFunding`, which `main` starts. -/
def load (p : Page) : Page :=
  match p.stored with
  | some s => { p with state := s, watching := decide (s.done < 1) }
  | none => { (fresh p).2 with state := (fresh p).1, watching := true }

def generateKeyPairSigner : App Key := do
  let p ← Effect.get
  Effect.modify fun p => { p with generated := p.generated + 1 }
  pure p.generated

/-! ## Helpers -/

def DECIMALS : Nat := 6

def UNIT : Nat := 10 ^ DECIMALS

def MIN_SOL : Nat := 50000000

def RULES_SOL : Nat := 30000000

def LAST : Nat := 8

def SENTINEL_PROGRAM_ADDRESS : String := "5fH1jj6XeZC96jPCxKiSb2onAXcs7f4rMeqMmSsP6puD"

def wallet (role : Role) : App Wallet := do
  let s ← state
  pure (s.seeds.wallet role)

/-- `address(state.mint)`. -/
def plainMint : App Key := do
  let s ← state
  match s.mint with
  | some mint => pure mint
  | none => throw (.new "expected a base58 address")

/-- `address(c.mint)`. -/
def rulesMint : App Key := do
  let s ← state
  match s.c.mint with
  | some mint => pure mint
  | none => throw (.new "expected a base58 address")

def solBalance : App Nat := read d d.solBalance

/-- No balance counts as zero. -/
def publicBalance (owner : Wallet) : App Nat := do
  tryCatch (do
    let mint ← plainMint
    read d fun n => d.tokenAccountBalance n owner mint) fun _ => pure 0

def decryptBalance (owner : Wallet) (mint : Key) : App Nat := read d fun n => d.decryptBalance n owner mint

def confidentialBalance (owner : Wallet) : App Nat := do
  let mint ← plainMint
  decryptBalance d owner mint

/-- Close the leftover proof accounts, eight in a transaction. -/
def closeBatches : List (List Address) → App Unit
  | [] => pure ()
  | batch :: batches => do
    let _ ← perform d (.closeProofs batch)
    closeBatches batches

def closeLeftoverProofs : App Nat := do
  let you ← wallet .you
  let accounts ← read d fun n => d.proofAccounts n you
  closeBatches d (accounts.batches 8)
  pure accounts.length

/-- `text.includes(word)`. -/
def includes (text word : String) : Bool := decide (word.toList <:+: text.toList)

/-- `line.replace(/^\s*Program log:\s*/, "").trim()`. -/
def withoutPrefix (line : String) : String :=
  let word := "Program log:".toList
  let rest := line.toList.dropWhile JsNumber.isWhiteSpace
  let kept := if word.isPrefixOf rest then rest.drop word.length else line.toList
  String.ofList (JsNumber.trim kept)

/-- Sentinel's refusal of a blocked recipient, in the words of the program. -/
def refusal (err : JsError) : Option Refusal :=
  let parts := (err.links.take 6).flatMap fun link => (link.1.toList.filter (· ≠ "")) ++ link.2
  let all := "\n".intercalate parts
  let blocked := includes all "RecipientBlocked" ||
    (includes all "\"Custom\":6003" && includes all SENTINEL_PROGRAM_ADDRESS)
  if !blocked then none
  else
    let lines := (all.toList.splitOn '\n').map String.ofList
    let line := (lines.find? (includes · "Error Code: RecipientBlocked")).getD ""
    some { message := "Recipient is blocklisted for this mint", log := withoutPrefix line }

/-- The first amount the auditor can decrypt. -/
def auditedAmount (auditor : Wallet) : List Signature → App (Option Nat)
  | [] => pure none
  | signature :: signatures =>
    tryCatch (some <$> read d fun n => d.decryptTransferAmountAsAuditor n auditor signature) fun _ =>
      auditedAmount auditor signatures

/-- The amount the visitor entered, in cents; none if it is not a number above zero. -/
def enteredAmount (cents : Option Nat) : App Nat :=
  match cents with
  | none => throw (hint "Enter an amount above zero.")
  | some cents => pure (cents * (UNIT / 100))

/-- Decimals with two digits, for the visitor. -/
def fmt (units : Nat) : String :=
  let cents := toString (units % UNIT / 10 ^ (DECIMALS - 2))
  toString (units / UNIT) ++ "." ++ (if cents.length < 2 then "0" ++ cents else cents)

/-! ## Steps 1 to 6 -/

/-- Wait until the airdrop lands. -/
def waitForAirdrop : (attempts : Nat) → App Unit
  | 0 => throw (.new "faucet")
  | attempts + 1 => do
    let balance ← solBalance d
    if balance ≥ MIN_SOL then pure () else waitForAirdrop attempts

def fund : App Unit := do
  tryCatch (read d d.requestAirdrop) fun _ => throw (.new "faucet")
  waitForAirdrop d 30

def createPlainMint (mint : Key) : App Unit := do
  let auditor ← wallet .auditor
  let _ ← read d d.minimumBalanceForRentExemption
  let _ ← perform d (.createMint mint auditor false)
  update d fun s => { s with mint := some mint }

def createToken : App Unit := do
  let mint ← generateKeyPairSigner
  createPlainMint d mint
  let you ← wallet .you
  let _ ← perform d (.configureAccount mint you)
  let _ ← perform d (.mintTo mint you (1000 * UNIT))
  pure ()

def depositAndApply : App Unit := do
  let mint ← plainMint
  let you ← wallet .you
  let _ ← perform d (.deposit mint you (100 * UNIT))
  let _ ← perform d (.applyPendingBalance mint you)
  let _ ← publicBalance d you
  let _ ← confidentialBalance d you
  pure ()

def checkFunds (amount : Nat) : App Unit := do
  if (← state).sent.isNone then
    let you ← wallet .you
    let available ← confidentialBalance d you
    check (amount > available) (hint ("You have " ++ fmt available ++ " in your confidential balance."))

/-- A retry after a failure part-way through must not configure Bob twice or send twice. -/
def configureBob (mint : Key) : App Unit := do
  if (← state).bobMint ≠ some mint then
    let bob ← wallet .bob
    let _ ← perform d (.configureAccount mint bob)
    update d fun s => { s with bobMint := s.mint }

def sendToBob (mint : Key) (amount : Nat) : App Unit := do
  if (← state).sent.isNone then
    let you ← wallet .you
    let bob ← wallet .bob
    let signatures ← perform d (.transfer mint you bob amount)
    update d fun s => { s with signatures := signatures, sent := some amount }

def payBob (cents : Option Nat) : App Unit := do
  let amount ← enteredAmount cents
  checkFunds d amount
  let mint ← plainMint
  configureBob d mint
  sendToBob d mint amount
  let bob ← wallet .bob
  let _ ← perform d (.applyPendingBalance mint bob)
  pure ()

def decryptForEach : App Unit := do
  let _ ← confidentialBalance d (← wallet .you)
  let _ ← confidentialBalance d (← wallet .bob)
  let _ ← auditedAmount d (← wallet .auditor) (← state).signatures
  pure ()

def withdrawBob : App Unit := do
  let bob ← wallet .bob
  let amount ← confidentialBalance d bob
  check (amount = 0) (hint "Bob's confidential balance is empty.")
  let mint ← plainMint
  let _ ← perform d (.withdraw mint bob amount)
  let _ ← publicBalance d bob
  let _ ← confidentialBalance d bob
  pure ()

/-! ## Steps 7 and 8 -/

/-- `if (c.stage < number) { …; c.stage = number; save() }`, for a stage that only makes one act. -/
def stage (number : Nat) (act : Act) (finish : List Signature → Rules → Rules) : App Unit := do
  if (← state).c.stage < number then
    let signatures ← perform d act
    updateRules d fun c => { finish signatures c with stage := number }

/-- The first stage makes the token, and with it the address the other stages work on. -/
def createRulesToken : App Unit := do
  if (← state).c.stage < 1 then
    let mint ← generateKeyPairSigner
    let auditor ← wallet .auditor
    let _ ← read d d.minimumBalanceForRentExemption
    let signatures ← perform d (.createMint mint auditor true)
    updateRules d fun c => { c with createdTx := signatures.head?, mint := some mint, stage := 1 }

def checkSol : App Unit := do
  if (← state).c.stage = 0 then
    let balance ← solBalance d
    check (balance < RULES_SOL) (hint "This step pays rent for a new token, its rules and three token accounts, about 0.02 SOL. Top up the address above and press the button again.")

def setUpRules : App Unit := do
  checkSol d
  createRulesToken d
  let mint ← rulesMint
  let you ← wallet .you
  let bob ← wallet .bob
  let mallory ← wallet .mallory
  stage d 2 (.addRules mint mallory) fun signatures c => { c with rulesTx := signatures.head? }
  stage d 3 (.configureAccount mint you) fun _ c => c
  stage d 4 (.configureAccount mint bob) fun _ c => c
  stage d 5 (.configureAccount mint mallory) fun _ c => c
  stage d 6 (.mintTo mint you (100 * UNIT)) fun _ c => c
  stage d 7 (.deposit mint you (100 * UNIT)) fun _ c => c
  stage d 8 (.applyPendingBalance mint you) fun _ c => c
  let _ ← decryptBalance d you mint
  pure ()

def checkRulesFunds (mint : Key) (amount : Nat) : App Unit := do
  if (← state).c.sent.isNone then
    let you ← wallet .you
    let available ← decryptBalance d you mint
    check (amount > available)
      (hint ("You have " ++ fmt available ++ " in your confidential balance of this token."))

/-- Pay Mallory, and have Sentinel refuse it. -/
def payMallory (mint : Key) (amount : Nat) : App Unit := do
  if (← state).c.refused.isNone then
    let you ← wallet .you
    let mallory ← wallet .mallory
    tryCatch (do let _ ← perform d (.transfer mint you mallory amount)) fun err =>
      match refusal err with
      | none => throw err
      | some why => updateRules d fun c => { c with refused := some why }
    check (← state).c.refused.isNone (hint "Sentinel let the payment to Mallory through, which should not happen. Start over with new keys, and please open an issue on GitHub.")

def cleanUp : App Unit := do
  if (← state).c.cleaned = false then
    let closed ← tryCatch (do let closed ← closeLeftoverProofs d; pure (closed : Int)) fun _ => pure (-1)
    updateRules d fun c => { c with closed := closed, cleaned := true }

/-- Pay Bob the same amount, under the same rules. -/
def sendUnderRules (mint : Key) (amount : Nat) : App Unit := do
  if (← state).c.sent.isNone then
    let you ← wallet .you
    let bob ← wallet .bob
    let signatures ← perform d (.transfer mint you bob amount)
    updateRules d fun c => { c with signatures := signatures, sent := some amount }

def applyUnderRules (mint : Key) : App Unit := do
  if (← state).c.applied = false then
    let bob ← wallet .bob
    let _ ← perform d (.applyPendingBalance mint bob)
    updateRules d fun c => { c with applied := true }

def payUnderRules (cents : Option Nat) : App Unit := do
  let mint ← rulesMint
  let amount ← enteredAmount cents
  checkRulesFunds d mint amount
  payMallory d mint amount
  cleanUp d
  sendUnderRules d mint amount
  applyUnderRules d mint
  let bob ← wallet .bob
  let _ ← decryptBalance d bob mint
  let _ ← auditedAmount d (← wallet .auditor) (← state).c.signatures
  pure ()

/-- `STEPS`, by number. -/
def STEPS (cents : Option Nat) : Nat → App Unit
  | 1 => fund d
  | 2 => createToken d
  | 3 => depositAndApply d
  | 4 => payBob d cents
  | 5 => decryptForEach d
  | 6 => withdrawBob d
  | 7 => setUpRules d
  | 8 => payUnderRules d cents
  | _ => throw (.new "STEPS[n] is not a function")

/-! ## The page -/

/-- `run`, and what becomes of the page if it is reloaded meanwhile. -/
def run (n : Nat) (cents : Option Nat) (p : Page) : Page :=
  let body : App Unit := do
    STEPS d cents n
    update d fun s => { s with done := max s.done n }
  match body p with
  | (.ok (), p') => p'
  | (.error (.thrown _), p') => p'
  | (.error .reloaded, p') => load p'

/-- `watchFunding` gets the answer it waits for. It was asked for when step 1 was not done, but may
    come at any time. -/
def fundingAnswer (balance : Except JsError Nat) (p : Page) : Page :=
  if !p.watching then p
  else
    match balance with
    | .ok balance =>
      if balance ≥ MIN_SOL then { ((update d fun s => { s with done := 1 }) p).2 with watching := false }
      else { p with watching := decide (p.state.done < 1) }
    | .error _ => { p with watching := decide (p.state.done < 1) }

/-- A new token, a new Bob and a new auditor for the same funded wallet. -/
def resetSimulation (p : Page) : Page :=
  let (s, p) := fresh p
  let you := p.state.seeds.you
  load (save d { p with state := { s with seeds := { s.seeds with you := you } } }).2

def restart (p : Page) : Page :=
  let (s, p) := fresh p
  load (save d { p with state := s }).2

/-- What can happen while no step runs. -/
inductive Input
  /-- A click on the button of a step; only the button of the next step is enabled. -/
  | press (n : Nat) (cents : Option Nat)
  | fundingAnswer (balance : Except JsError Nat)
  | resetSimulation
  | restart
  | reload

def next (p : Page) : Input → Page
  | .press n cents => if n = p.state.done + 1 ∧ n ≤ LAST then run d n cents p else p
  | .fundingAnswer balance => fundingAnswer d balance p
  | .resetSimulation => resetSimulation d p
  | .restart => restart d p
  | .reload => load p

/-- The first visit. -/
def visit : Page := load { state := { seeds := ⟨0, 0, 0, 0⟩ } }

/-- The page after the first visit and these inputs. -/
def after (inputs : List Input) : Page := Machine.run (next d) visit inputs

end Playground
