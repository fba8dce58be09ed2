import ConfidentialTransfers.Sdk.AtMostOnce
import ConfidentialTransfers.Lib.Retry
import ConfidentialTransfers.Lib.Plan
import ConfidentialTransfers.Sdk.Books
import ConfidentialTransfers.Sdk.Rejection
import ConfidentialTransfers.Sdk.Agreement
import ConfidentialTransfers.Sdk.Interleaving
import ConfidentialTransfers.Sdk.Recovery
import ConfidentialTransfers.Rust.Cleanup
import ConfidentialTransfers.Rust.Accounted
import ConfidentialTransfers.Sdk.FlowReport
import ConfidentialTransfers.Sdk.Expiry
import ConfidentialTransfers.Sdk.DoomedCalls
import ConfidentialTransfers.Sdk.HookRefusals
import ConfidentialTransfers.Compared.SameCodes
import ConfidentialTransfers.Sdk.AuditorReaders
import ConfidentialTransfers.Sdk.Periods
import ConfidentialTransfers.Sdk.Cli
import ConfidentialTransfers.Lib.Machine
import ConfidentialTransfers.Vault.Granted
import ConfidentialTransfers.Vault.Report
import ConfidentialTransfers.Sdk.ZkLoading
import ConfidentialTransfers.Playground.Runs
import ConfidentialTransfers.Rust.AtMostOnce
import ConfidentialTransfers.Rust.Recovery
import ConfidentialTransfers.Compared.Balance
import ConfidentialTransfers.Compared.Configure
import ConfidentialTransfers.Compared.ConfiguredOnce
import ConfidentialTransfers.Compared.Keys
