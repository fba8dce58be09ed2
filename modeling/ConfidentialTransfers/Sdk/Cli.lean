-- SUMMARY: The audit-report command, and which texts given for its concurrency leave the report as it is.
import ConfidentialTransfers.Lib.JsNumberText
import ConfidentialTransfers.Sdk.Concurrency
import ConfidentialTransfers.Sdk.Csv
import ConfidentialTransfers.Sdk.Keys
import ConfidentialTransfers.Sdk.ReportComplete

/-!
# The command line for auditors

`cli.ts`. What the command takes from Node and from kit is an `AuditorCli`; what
it prints and writes goes to a `Console`. The arguments are given as `parseArgs`
leaves them.
-/

open Solana

namespace Sdk

variable {F G : Type} [CommRing F] [AddCommGroup G] [Module F G]

/-! ## The command -/

def usage : String :=
  "Usage:
  confidential-transfers audit-report --mint <address> --keypair <auditor wallet keypair.json> --rpc <url>
      [--out <file.csv>] [--since <date>] [--until <date>] [--max <transactions>] [--concurrency <n>]
      [--skip-auditor-key-check]

  Lists every deposit, confidential transfer and withdraw of the mint, with the amounts of the
  confidential transfers decrypted with the auditor key, as CSV (to --out, or to standard output).

  --keypair   the auditor's Solana wallet keypair file (the JSON array the Solana CLI writes); the
              auditor's ElGamal key is derived from it, as deriveAuditorElgamalKeypair does
  --rpc       RPC endpoint (or set RPC_URL); it must serve getSignaturesForAddress and getTransaction
  --since, --until   ISO dates or times, e.g. 2026-10-01 or 2026-10-01T12:00:00Z (UTC)
"

/-- What a run printed and wrote. -/
structure Console where
  stdout : String := ""
  stderr : String := ""
  files : List (String × String) := []
deriving DecidableEq, Repr

/-- What the command uses of its surroundings. -/
structure AuditorCli (F G : Type) [CommRing F] [AddCommGroup G] [Module F G] where
  codec : InstructionCodec
  zk : ZkSdk F G
  derivation : KeyDerivation F
  /-- `process.env.RPC_URL`. -/
  rpcUrl : Option String
  createSolanaRpc : String → HistoryRpc
  /-- kit's `address`; it throws for a text that is none. -/
  address : String → Except String Address
  /-- `createKeyPairSignerFromBytes` of the numbers in the file. -/
  readKeypair : String → Except String MessageSigner
  /-- `new URL(url).origin`. -/
  origin : String → Except String String
  /-- `new Date(value).getTime()`; `none` is `NaN`. -/
  getTime : String → Option Int
  /-- `writeFileSync` to this path; it may throw. -/
  writeFile : String → Except String Unit

/-- `values` of `parseArgs`. -/
structure AuditReportValues where
  mint : Option String := none
  keypair : Option String := none
  rpc : Option String := none
  out : Option String := none
  since : Option String := none
  untilTime : Option String := none
  max : Option String := none
  concurrency : Option String := none
  skipAuditorKeyCheck : Bool := false
  help : Bool := false

/-- What is left to do once the arguments are read. -/
structure AuditJob (F : Type) [CommRing F] where
  rpc : HistoryRpc
  input : ListConfidentialActivityInput F
  decimals : Nat
  out : Option String

/-- `process.stderr.write`. -/
def printError (text : String) : Effect Console Thrown Unit :=
  Effect.modify fun console => { console with stderr := console.stderr ++ text }

/-- A string as a condition: the empty one counts as missing. -/
def truthy (value : Option String) : Option String := value.filter fun text => text ≠ ""

variable (cli : AuditorCli F G)

def date (value : Option String) (name : String) : Except Thrown (Option Int) :=
  match value with
  | none => .ok none
  | some value =>
    match cli.getTime value with
    | none => .error (.other ("--" ++ name ++ ": not a date: " ++ value))
    | some time => .ok (some time)

/-- `main` up to the call of `listConfidentialActivity`: an exit code, or the job. The concurrency is
    added by the call. -/
def prepare (values : AuditReportValues) : Effect Console Thrown (Nat ⊕ AuditJob F) :=
  if values.help then do
    printError usage
    pure (.inl 0)
  else
    match truthy values.mint, truthy values.keypair, truthy (values.rpc <|> cli.rpcUrl) with
    | some mint, some keypair, some rpcUrl => do
      let rpc := cli.createSolanaRpc rpcUrl
      let mint ← Effect.ofExcept ((cli.address mint).mapError .other)
      let wallet ← Effect.ofExcept ((cli.readKeypair keypair).mapError .other)
      let auditorKeypair ← Effect.ofExcept (deriveConfidentialKeys cli.derivation wallet 0)
      -- The origin only: an API key in the query string is never printed.
      let origin ← Effect.ofExcept ((cli.origin rpcUrl).mapError .other)
      printError ("RPC:         " ++ origin ++ "\nmint:        " ++ mint ++ "\nauditor key: " ++
        getAuditorElgamalPubkey cli.zk auditorKeypair.elgamalSecret ++ "\n")
      let account ← Effect.ofExcept (readMint rpc mint "audit-report")
      let since ← Effect.ofExcept (date cli values.since "since")
      let untilTime ← Effect.ofExcept (date cli values.untilTime "until")
      pure (.inr
        { rpc
          input :=
            { mint, auditorSecret := auditorKeypair.elgamalSecret, since, untilTime
              maxTransactions := values.max.map JsNumber.ofText
              skipAuditorKeyCheck := values.skipAuditorKeyCheck }
          decimals := account.decimals
          out := truthy values.out })
    | _, _, _ => do
      printError ("--mint, --keypair and --rpc (or RPC_URL) are required.\n\n" ++ usage)
      pure (.inl 1)

/-- The line about what was found. -/
def summary (activity : List ConfidentialActivity) : String :=
  let count (kind : ConfidentialActivityKind) := (activity.filter fun a => a.kind == kind).length
  let unreadable := (activity.filter fun a => a.amount.isNone).length
  "found:       " ++ toString (count .deposit) ++ " deposits, " ++
    toString (count .transfer + count .transferWithFee) ++ " confidential transfers, " ++
    toString (count .withdraw) ++ " withdraws" ++
    (if unreadable ≠ 0 then
      " (" ++ toString unreadable ++ " amounts could not be decrypted; see the note column)"
    else "") ++ "\n"

/-- `main` after the call. -/
def writeReport (job : AuditJob F) (activity : List ConfidentialActivity) : Effect Console Thrown Nat := do
  let csv ← Effect.ofExcept ((confidentialActivityToCsv activity (some job.decimals)).mapError .other)
  printError (summary activity)
  match job.out with
  | some path => do
    Effect.ofExcept ((cli.writeFile path).mapError .other)
    Effect.modify fun console => { console with files := console.files ++ [(path, csv)] }
    printError ("written:     " ++ path ++ "\n")
    pure 0
  | none => do
    Effect.modify fun console => { console with stdout := console.stdout ++ csv }
    pure 0

/-- The rest of `main` once there is a job. -/
def runJob (job : AuditJob F) (concurrency : Option String) (fuel : Nat) (console : Console) :
    Option (Except Thrown Nat × Console) :=
  (listConfidentialActivity cli.codec cli.zk job.rpc
    (job.input.fetching (concurrency.map JsNumber.ofText)) fuel).map fun activity =>
      (do
        let activity ← Effect.ofExcept activity
        writeReport cli job activity) console

/-- `main` for `audit-report`, reading at most `fuel` pages; `none` when it still runs. -/
def auditReport (values : AuditReportValues) (fuel : Nat) : Option (Except Thrown Nat × Console) :=
  match prepare cli values {} with
  | (.error e, console) => some (.error e, console)
  | (.ok (.inl code), console) => some (.ok code, console)
  | (.ok (.inr job), console) => runJob cli job values.concurrency fuel console

/-- The exit code: an error is printed and gives 1. -/
def exit : Except Thrown Nat × Console → Nat × Console
  | (.ok code, console) => (code, console)
  | (.error e, console) => (1, { console with stderr := console.stderr ++ "error: " ++ e.message ++ "\n" })

/-- The process, given its command and what `parseArgs` makes of the rest. -/
def main (command : Option String) (values : Except String AuditReportValues) (fuel : Nat) :
    Option (Nat × Console) :=
  if command ≠ some "audit-report" then
    some (if command ∈ [none, some "--help", some "-h"] then 0 else 1, { stderr := usage })
  else
    match values with
    | .error message => some (exit (.error (.other message), {}))
    | .ok values => (auditReport cli values fuel).map exit

/-! ## What a run writes -/

variable {cli} {values : AuditReportValues} {job : AuditJob F} {fuel : Nat} {console : Console}

/-- The console once the report is written. -/
def Console.written (console : Console) (job : AuditJob F) (activity : List ConfidentialActivity)
    (csv : String) : Console :=
  match job.out with
  | some path =>
    { console with
      stderr := console.stderr ++ summary activity ++ ("written:     " ++ path ++ "\n")
      files := console.files ++ [(path, csv)] }
  | none => { console with stdout := console.stdout ++ csv, stderr := console.stderr ++ summary activity }

/-- A file to be written can be. -/
def AuditJob.Writable (cli : AuditorCli F G) (job : AuditJob F) : Prop :=
  ∀ path, job.out = some path → cli.writeFile path = .ok ()

theorem writeReport_ok_iff {activity : List ConfidentialActivity} {code : Nat} {console' : Console} :
    writeReport cli job activity console = (.ok code, console') ↔
      job.Writable cli ∧ code = 0 ∧ ∃ csv, confidentialActivityToCsv activity (some job.decimals) = .ok csv ∧
        console' = console.written job activity csv := by
  unfold writeReport AuditJob.Writable Console.written
  cases hcsv : confidentialActivityToCsv activity (some job.decimals) with
  | error e => simp [Effect.ofExcept, Except.mapError, bind]
  | ok csv =>
    cases hout : job.out with
    | none =>
      simp only [Effect.ofExcept, Except.mapError, bind, printError, Effect.modify, pure, Prod.mk.injEq,
        Except.ok.injEq, reduceCtorEq, IsEmpty.forall_iff, implies_true, true_and, exists_eq_left']
      exact and_congr eq_comm eq_comm
    | some path =>
      cases hwrite : cli.writeFile path with
      | error e => simp [Effect.ofExcept, Except.mapError, bind, printError, Effect.modify, hwrite]
      | ok _ =>
        simp only [Effect.ofExcept, Except.mapError, bind, printError, Effect.modify, pure, hwrite,
          Prod.mk.injEq, Except.ok.injEq, Option.some.injEq, forall_eq', true_and, exists_eq_left']
        exact and_congr eq_comm eq_comm

/-- Two reports that leave the same console are the same text. -/
theorem Console.written_csv {activity activity' : List ConfidentialActivity} {csv csv' : String}
    (h : console.written job activity csv = console.written job activity' csv') : csv = csv' := by
  unfold Console.written at h
  cases hout : job.out with
  | none =>
    simp only [hout, Console.mk.injEq] at h
    have htext := congrArg String.toList h.1
    rw [String.toList_append, String.toList_append] at htext
    exact String.toList_inj.mp (List.append_cancel_left htext)
  | some path =>
    simp only [hout, Console.mk.injEq, List.append_cancel_left_eq, List.cons.injEq, Prod.mk.injEq] at h
    exact h.2.2.1.2

/-- Only an empty activity is written as a header alone. -/
theorem eq_nil_of_csv_eq {activity : List ConfidentialActivity} {decimals : Option Nat} {csv : String}
    (hnil : confidentialActivityToCsv [] decimals = .ok csv)
    (h : confidentialActivityToCsv activity decimals = .ok csv) : activity = [] := by
  obtain ⟨rows, hrows, hparse⟩ := parse_confidentialActivityToCsv h
  obtain ⟨none, hnone, hparse'⟩ := parse_confidentialActivityToCsv hnil
  cases hnone
  rw [hparse] at hparse'
  obtain rfl : rows = [] := by simpa using hparse'
  cases hrows
  rfl

/-! ## The concurrency option -/

/-- The same arguments with this text for `--concurrency`, or without the option. -/
def AuditReportValues.withConcurrency (values : AuditReportValues) (concurrency : Option String) :
    AuditReportValues :=
  { values with concurrency }

/-- A job ends with exit code 0 exactly when its report is read and written. -/
theorem runJob_ok_iff {concurrency : Option String} {code : Nat} {console' : Console} :
    runJob cli job concurrency fuel console = some (.ok code, console') ↔
      ∃ activity, listConfidentialActivity cli.codec cli.zk job.rpc
          (job.input.fetching (concurrency.map JsNumber.ofText)) fuel = some (.ok activity) ∧
        writeReport cli job activity console = (.ok code, console') := by
  unfold runJob
  rw [Option.map_eq_some_iff]
  constructor
  · rintro ⟨activity, hlist, hrun⟩
    cases activity with
    | error e => simp [Effect.ofExcept, bind] at hrun
    | ok activity => exact ⟨activity, hlist, hrun⟩
  · rintro ⟨activity, hlist, hrun⟩
    exact ⟨.ok activity, hlist, hrun⟩

/-- Without the option, or with any text for a number, a job writes the report of everything. -/
theorem runJob_number_iff {concurrency : Option String}
    (hnumber : concurrency.map JsNumber.ofText ≠ some .nan) {code : Nat} {console' : Console} :
    runJob cli job concurrency fuel console = some (.ok code, console') ↔
      ∃ activity, ReportsAll cli.codec cli.zk job.rpc job.input fuel activity ∧
        writeReport cli job activity console = (.ok code, console') := by
  have hgetD : (concurrency.map JsNumber.ofText).getD (.ofNat 4) ≠ .nan := by
    cases concurrency with
    | none => simp [JsNumber.ofNat]
    | some text => simpa using hnumber
  simp only [runJob_ok_iff, reportsAll_iff hgetD]

/-- With this text the command fails, or leaves the console as it does without the option. -/
def SameReport (cli : AuditorCli F G) (values : AuditReportValues) (text : String) (fuel : Nat) : Prop :=
  ∀ code console,
    main cli (some "audit-report") (.ok (values.withConcurrency (some text))) fuel = some (code, console) →
      code ≠ 0 ∨
        main cli (some "audit-report") (.ok (values.withConcurrency none)) fuel = some (code, console)

/-- The arguments are for a report: nothing is missing from them, everything in them can be read, and this
    is the job they describe. -/
structure AuditReportValues.Asks (cli : AuditorCli F G) (values : AuditReportValues) (job : AuditJob F) :
    Prop where
  noHelp : values.help = false
  rpc : ∃ url origin, truthy (values.rpc <|> cli.rpcUrl) = some url ∧ cli.origin url = .ok origin ∧
    job.rpc = cli.createSolanaRpc url
  mint : ∃ text, truthy values.mint = some text ∧ cli.address text = .ok job.input.mint
  keypair : ∃ path wallet keys, truthy values.keypair = some path ∧ cli.readKeypair path = .ok wallet ∧
    deriveConfidentialKeys cli.derivation wallet 0 = .ok keys ∧ job.input.auditorSecret = keys.elgamalSecret
  decimals : ∃ account, job.rpc.fetchMint job.input.mint = .ok account ∧ job.decimals = account.decimals
  since : date cli values.since "since" = .ok job.input.since
  untilTime : date cli values.untilTime "until" = .ok job.input.untilTime
  maxTransactions : job.input.maxTransactions = values.max.map JsNumber.ofText
  concurrency : job.input.concurrency = none
  skipAuditorKeyCheck : job.input.skipAuditorKeyCheck = values.skipAuditorKeyCheck
  programAddress : job.input.programAddress = none
  out : job.out = truthy values.out

theorem printError_ok_iff {text : String} {console' : Console} {u : Unit} :
    printError text console = (.ok u, console') ↔
      { console with stderr := console.stderr ++ text } = console' := by
  unfold printError Effect.modify
  rw [Prod.mk.injEq, and_iff_right rfl]

/-- Where the command prints and exits there is no job. -/
theorem printError_exit_ne {text : String} {code : Nat} {console' : Console} :
    (do printError text; pure (.inl code) : Effect Console Thrown (Nat ⊕ AuditJob F)) console ≠
      (.ok (.inr job), console') := by
  intro h
  cases h

/-- A job that the command gets to is the one the arguments ask for. -/
theorem asks_of_prepare {console' : Console}
    (h : prepare cli values console = (.ok (.inr job), console')) : values.Asks cli job := by
  unfold prepare at h
  cases hhelp : values.help with
  | true => exact absurd (if_pos hhelp ▸ h) printError_exit_ne
  | false =>
    rw [if_neg (by simp [hhelp])] at h
    cases hmint : truthy values.mint with
    | none =>
      rw [hmint] at h
      exact absurd h printError_exit_ne
    | some mintText =>
    cases hkeypair : truthy values.keypair with
    | none =>
      rw [hmint, hkeypair] at h
      exact absurd h printError_exit_ne
    | some keypair =>
    cases hurl : truthy (values.rpc <|> cli.rpcUrl) with
    | none =>
      rw [hmint, hkeypair, hurl] at h
      exact absurd h printError_exit_ne
    | some url =>
      rw [hmint, hkeypair, hurl] at h
      simp only [Effect.run_bind_ok_iff, Effect.run_ofExcept_ok_iff, Effect.run_pure_ok_iff,
        Except.mapError_eq_ok_iff, readMint_eq_ok_iff] at h
      obtain ⟨mint, _, ⟨haddress, _⟩, wallet, _, ⟨hwallet, _⟩, keys, _, ⟨hkeys, _⟩, origin, _, ⟨horigin, _⟩,
        _, _, _, account, _, ⟨haccount, _⟩, since, _, ⟨hsince, _⟩, untilTime, _, ⟨huntil, _⟩, hjob, _⟩ := h
      obtain rfl := Sum.inr.inj hjob
      exact
        { noHelp := hhelp
          rpc := ⟨url, origin, hurl, horigin, rfl⟩
          mint := ⟨mintText, hmint, haddress⟩
          keypair := ⟨keypair, wallet, keys, hkeypair, hwallet, hkeys, rfl⟩
          decimals := ⟨account, haccount, rfl⟩
          since := hsince
          untilTime := huntil
          maxTransactions := rfl
          concurrency := rfl
          skipAuditorKeyCheck := rfl
          programAddress := rfl
          out := rfl }

/-- The command gets to the job that the arguments ask for. -/
theorem prepare_of_asks (h : values.Asks cli job) :
    ∃ console', prepare cli values console = (.ok (.inr job), console') := by
  obtain ⟨url, origin, hurl, horigin, hrpc⟩ := h.rpc
  obtain ⟨text, htext, hmint⟩ := h.mint
  obtain ⟨path, wallet, keys, hpath, hwallet, hkeys, hsecret⟩ := h.keypair
  obtain ⟨account, haccount, hdecimals⟩ := h.decimals
  unfold prepare
  rw [if_neg (by simp [h.noHelp]), htext, hpath, hurl]
  simp only [Effect.run_bind_ok_iff, Effect.run_ofExcept_ok_iff, Effect.run_pure_ok_iff,
    Except.mapError_eq_ok_iff, readMint_eq_ok_iff, printError_ok_iff]
  refine ⟨_, _, _, ⟨hmint, rfl⟩, wallet, _, ⟨hwallet, rfl⟩, keys, _, ⟨hkeys, rfl⟩, origin, _, ⟨horigin, rfl⟩,
    (), _, rfl, account, _, ⟨hrpc ▸ haccount, rfl⟩, _, _, ⟨h.since, rfl⟩, _, _, ⟨h.untilTime, rfl⟩, ?_, rfl⟩
  rcases job with ⟨rpc, ⟨mint, secret, since, untilTime, max, concurrency, skip, program⟩, decimals, out⟩
  obtain rfl := hrpc
  obtain rfl := hsecret
  obtain rfl := hdecimals
  obtain rfl := h.maxTransactions
  obtain rfl := h.concurrency
  obtain rfl := h.skipAuditorKeyCheck
  obtain rfl := h.programAddress
  obtain rfl := h.out
  rfl

/-- The command gets to its job exactly where the arguments ask for one. -/
theorem prepare_eq_job_iff :
    (∃ console', prepare cli values console = (.ok (.inr job), console')) ↔ values.Asks cli job := by
  constructor
  · intro h
    obtain ⟨console', h⟩ := h
    exact asks_of_prepare h
  · exact prepare_of_asks

/-- If the arguments are for a report that can be written, there is nothing to report. -/
def NothingToWrite (cli : AuditorCli F G) (values : AuditReportValues) (history : List SignatureInfo) : Prop :=
  ∀ job, values.Asks cli job → job.Writable cli →
    NothingToReport cli.codec cli.zk job.rpc job.input history

theorem main_eq (concurrency : Option String) :
    main cli (some "audit-report") (.ok (values.withConcurrency concurrency)) fuel =
      match prepare cli values {} with
      | (.error e, console) => some (exit (.error e, console))
      | (.ok (.inl code), console) => some (code, console)
      | (.ok (.inr job), console) => (runJob cli job concurrency fuel console).map exit := by
  have hmain : main cli (some "audit-report") (.ok (values.withConcurrency concurrency)) fuel =
      (auditReport cli (values.withConcurrency concurrency) fuel).map exit := by
    simp [main]
  have hreport : auditReport cli (values.withConcurrency concurrency) fuel =
      match prepare cli values {} with
      | (.error e, console) => some (.error e, console)
      | (.ok (.inl code), console) => some (.ok code, console)
      | (.ok (.inr job), console) => runJob cli job concurrency fuel console := rfl
  rw [hmain, hreport]
  rcases prepare cli values {} with ⟨_ | _ | job, console⟩ <;> rfl

/-- Where there is no job the option makes no difference. -/
theorem sameReport_of_job {text : String}
    (h : ∀ job console, prepare cli values {} = (.ok (.inr job), console) →
      ∀ code console', runJob cli job (some text) fuel console = some (.ok code, console') →
        runJob cli job none fuel console = some (.ok code, console')) :
    SameReport cli values text fuel := by
  intro code console hrun
  rw [main_eq] at hrun ⊢
  rcases hprepare : prepare cli values {} with ⟨_ | _ | job, console'⟩
  · simp only [hprepare] at hrun ⊢
    exact .inr hrun
  · simp only [hprepare] at hrun ⊢
    exact .inr hrun
  · simp only [hprepare, Option.map_eq_some_iff] at hrun ⊢
    obtain ⟨⟨result, console''⟩, hjob, hexit⟩ := hrun
    cases result with
    | error e =>
      obtain ⟨rfl, -⟩ := Prod.mk.inj hexit
      exact .inl Nat.one_ne_zero
    | ok code' => exact .inr ⟨_, h job console' hprepare code' console'' hjob, hexit⟩

theorem sameReport_of_number {text : String} (hnumber : JsNumber.ofText text ≠ .nan) :
    SameReport cli values text fuel := by
  apply sameReport_of_job
  intro job console _ code console' hrun
  have htext : (some text).map JsNumber.ofText ≠ some .nan := by simpa using hnumber
  have hread := (runJob_number_iff htext).mp hrun
  exact (runJob_number_iff (by simp)).mpr hread

section History

variable {history : List SignatureInfo}

theorem sameReport_of_nothingToWrite {text : String}
    (hserves : ∀ job, values.Asks cli job → ServesSignatures job.input.mint job.rpc history)
    (hfuel : history.length / pageLimit < fuel) (hnothing : NothingToWrite cli values history) :
    SameReport cli values text fuel := by
  by_cases hnan : JsNumber.ofText text = .nan
  · apply sameReport_of_job
    intro job console hprepare code console' hrun
    have hasks : values.Asks cli job := prepare_eq_job_iff.mp ⟨console, hprepare⟩
    obtain ⟨activity, hlist, hwritten⟩ := runJob_ok_iff.mp hrun
    rw [Option.map_some, hnan] at hlist
    obtain ⟨rfl, hkey⟩ := (reportsNothing_of_history (hserves job hasks) hfuel).mp hlist
    have hwritable := (writeReport_ok_iff.mp hwritten).1
    have hall := (reportsAll_nil_iff (hserves job hasks) hfuel hkey).mpr (hnothing job hasks hwritable)
    exact (runJob_number_iff (by simp)).mpr ⟨[], hall, hwritten⟩
  · exact sameReport_of_number hnan

/-- A text that is no number hides whatever there is to report. -/
theorem nothingToWrite_of_sameReport {text : String} (hnan : JsNumber.ofText text = .nan)
    (hserves : ∀ job, values.Asks cli job → ServesSignatures job.input.mint job.rpc history)
    (hfuel : history.length / pageLimit < fuel) (h : SameReport cli values text fuel) :
    NothingToWrite cli values history := by
  intro job hasks hwritable hkey
  obtain ⟨console, hprepare⟩ : ∃ console, prepare cli values {} = (.ok (.inr job), console) :=
    prepare_eq_job_iff.mpr hasks
  obtain ⟨csv, hcsv⟩ : ∃ csv, confidentialActivityToCsv [] (some job.decimals) = .ok csv := ⟨_, rfl⟩
  have hempty : runJob cli job (some text) fuel console =
      some (.ok 0, console.written job [] csv) := by
    refine runJob_ok_iff.mpr ⟨[], ?_, writeReport_ok_iff.mpr ⟨hwritable, rfl, csv, hcsv, rfl⟩⟩
    rw [Option.map_some, hnan]
    exact (reportsNothing_of_history (hserves job hasks) hfuel).mpr ⟨rfl, hkey⟩
  have hmain : main cli (some "audit-report") (.ok (values.withConcurrency (some text))) fuel =
      some (0, console.written job [] csv) := by
    rw [main_eq]
    simp only [hprepare, hempty, Option.map_some, exit]
  have hwithout := (h 0 _ hmain).resolve_left (fun hne => hne rfl)
  rw [main_eq] at hwithout
  simp only [hprepare, Option.map_eq_some_iff] at hwithout
  obtain ⟨⟨result, console'⟩, hjob, hexit⟩ := hwithout
  cases result with
  | error e => simp [exit] at hexit
  | ok code =>
    obtain ⟨rfl, rfl⟩ := Prod.mk.inj hexit
    obtain ⟨activity, hall, hwritten⟩ := (runJob_number_iff (by simp)).mp hjob
    obtain ⟨-, -, csv', hcsv', hconsole⟩ := writeReport_ok_iff.mp hwritten
    -- the same text was written, so the activity is the empty one
    obtain rfl := Console.written_csv hconsole
    obtain rfl := eq_nil_of_csv_eq hcsv hcsv'
    exact (reportsAll_nil_iff (hserves job hasks) hfuel hkey).mp hall hkey

end History

/-! ## A concurrency that is no number -/

namespace NotANumber

/-- The mint of a deposit of 5, a transfer of 3, a withdraw that fails and a withdraw of 1. -/
def rpc : HistoryRpc :=
  { servedRpc Statement.history with fetchMint := fun _ => .ok { extensions := none, decimals := 1 } }

def auditor : AuditorCli (ZMod (2 ^ 128)) (ZMod (2 ^ 128)) where
  codec := Statement.codec
  zk := .modular
  derivation := RandomizedNonces.derivation
  rpcUrl := some "https://rpc.example"
  createSolanaRpc _ := rpc
  address text := .ok text
  readKeypair _ := .ok RandomizedNonces.wallet
  origin url := .ok url
  getTime _ := none
  writeFile _ := .ok ()

def arguments : AuditReportValues where
  mint := some "mint"
  keypair := some "auditor.json"
  skipAuditorKeyCheck := true

/-- What is printed, with the exit code. -/
def printed (concurrency : Option String) : Option (Nat × String) :=
  (main auditor (some "audit-report") (.ok (arguments.withConcurrency concurrency)) 1).map fun run =>
    (run.1, run.2.stdout)

theorem printed_without : printed none = some (0,
    "time_utc,slot,signature,kind,from_owner,from_account,to_owner,to_account,amount_base_units,amount," ++
    "decrypted,note\r\n" ++
    "2026-01-09T23:06:40.000Z,1,s1,deposit,alice,alice token,alice,alice token,5,0.5,no,\r\n" ++
    "2026-01-19T22:00:00.000Z,2,s2,transfer,alice,alice token,bob,bob token,3,0.3,yes,\r\n" ++
    "2026-02-10T05:06:40.000Z,4,s4,withdraw,alice,alice token,alice,alice token,1,0.1,no,\r\n") := by
  decide +kernel

theorem printed_four : printed (some "four") = some (0,
    "time_utc,slot,signature,kind,from_owner,from_account,to_owner,to_account,amount_base_units,amount," ++
    "decrypted,note\r\n") := by
  decide +kernel

/-- The three movements are missing from the report, and nothing says so. -/
theorem report_emptied : ¬SameReport auditor arguments "four" 1 := by
  intro h
  have hfour := printed_four
  have hwithout := printed_without
  obtain ⟨⟨code, console⟩, hrun, hprinted⟩ := Option.map_eq_some_iff.mp hfour
  obtain ⟨rfl, hstdout⟩ := Prod.mk.inj hprinted
  have hsame := (h 0 console hrun).resolve_left (fun hne => hne rfl)
  rw [printed, hsame, Option.map_some, Option.some.injEq, Prod.mk.injEq] at hwithout
  exact absurd (hstdout.symm.trans hwithout.2) (by decide +kernel)

/-- The mint's signatures, newest first. -/
def signatures : List SignatureInfo := Statement.transactions.reverse.map signatureInfo

theorem servesSignatures (address : Address) : ServesSignatures address rpc signatures where
  unique := (Statement.serves.servesSignatures).unique
  pages := (Statement.serves.servesSignatures).pages

theorem servesSignatures_of_asks (job : AuditJob (ZMod (2 ^ 128))) (h : arguments.Asks auditor job) :
    ServesSignatures job.input.mint job.rpc signatures := by
  obtain ⟨_, _, _, _, hrpc⟩ := h.rpc
  have hserved : job.rpc = rpc := hrpc
  exact hserved ▸ servesSignatures _

end NotANumber

/-! ## Every number is harmless -/

/-- Every number given for the concurrency, whatever it is, leaves the report as it is, from the command
    line and in a call; what is no number empties it, so it does only where there is nothing to report. -/
theorem concurrency_harmless_iff (cli : AuditorCli F G) (values : AuditReportValues) (text : String)
    (codec : InstructionCodec) (zk : ZkSdk F G) (rpc : HistoryRpc)
    (input : ListConfidentialActivityInput F) (concurrency : JsNumber) (history : List SignatureInfo)
    (hjobs : ∀ job, values.Asks cli job → ServesSignatures job.input.mint job.rpc history)
    (hserves : ServesSignatures input.mint rpc history) (fuel : Nat)
    (hfuel : history.length / pageLimit < fuel) :
    (SameReport cli values text fuel ↔
      JsNumber.ofText text ≠ .nan ∨ NothingToWrite cli values history) ∧
    (SameAsOne codec zk rpc input fuel concurrency ↔
      concurrency ≠ .nan ∨ NothingToReport codec zk rpc input history) := by
  refine ⟨⟨fun h => ?_, fun h => ?_⟩, sameAsOne_iff_number hserves hfuel⟩
  · by_cases hnan : JsNumber.ofText text = .nan
    · exact .inr (nothingToWrite_of_sameReport hnan hjobs hfuel h)
    · exact .inl hnan
  · exact h.elim sameReport_of_number (sameReport_of_nothingToWrite hjobs hfuel)

/-- Two and a half at a time from the command line, and minus three in a call. -/
theorem concurrency_harmless_example :
    SameReport NotANumber.auditor NotANumber.arguments "2.5" 1 ∧
      SameAsOne Statement.codec ZkSdk.modular NotANumber.rpc NewAccount.input 1 (.finite (-3)) := by
  have h := concurrency_harmless_iff NotANumber.auditor NotANumber.arguments "2.5" Statement.codec
    ZkSdk.modular NotANumber.rpc NewAccount.input (.finite (-3)) NotANumber.signatures
    NotANumber.servesSignatures_of_asks (NotANumber.servesSignatures _) 1 (by decide)
  have hnumber : JsNumber.ofText "2.5" ≠ .nan := by decide +kernel
  exact ⟨h.1.mpr (.inl hnumber), h.2.mpr (.inl JsNumber.noConfusion)⟩

end Sdk
