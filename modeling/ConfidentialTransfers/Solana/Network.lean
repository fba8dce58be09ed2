-- SUMMARY: The chain as the SDK sees it through RPC: requests, deliveries, and the log of what happened.
import ConfidentialTransfers.Lib.Effect
import ConfidentialTransfers.Solana.Token

/-!
# The network

A `Network` fixes how the chain executes a transaction and everything that can
go wrong on the way: which requests are refused, which submitted transactions
reach the chain, and when waiting for a confirmation is cut short. Its functions
take the number of the request, so any pattern of faults is some network.

A `World` is the chain, the number of requests made so far, and a log of what
went over the network. The log is for stating properties only; no operation
reads it.
-/

namespace Solana

variable {χ π : Type}

inductive Request (π : Type) where
  | getLatestBlockhash
  | simulateTransaction (tx : Transaction π)
  | getTransaction (signature : Signature)
  | getMultipleAccounts (addresses : List Address)
  | getProgramAccounts (authority : Address)
  | getAccountInfo (address : Address)
  | getMinimumBalanceForRentExemption

structure Network (χ π : Type) where
  /-- The chain after executing a transaction with these instructions, submitted as the `n`-th
      request; `none` if it fails. -/
  execute : Nat → χ → List (Instruction π) → Option χ
  /-- The message of the `n`-th request's rejection, when it is rejected. -/
  refused : Nat → Request π → Option String := fun _ _ => none
  blockhash : Nat → Lifetime := fun _ => ⟨"", 0⟩
  /-- `simulation.value.err` and its logs, when there is an error. -/
  simulation : Nat → χ → Transaction π → Option (String × List String) := fun _ _ _ => none
  logMessages : Nat → Signature → Option (List String) := fun _ _ => none
  /-- Whether a submitted transaction reaches the chain before its blockhash expires. -/
  delivered : Nat → Transaction π → Bool := fun _ _ => true
  /-- The error that ends the wait for confirmation when it is not the transaction's outcome that
      ends it: a failed request, a dropped websocket. -/
  interrupted : Nat → Transaction π → Option String := fun _ _ => none
  /-- The owner of an account, `none` if it does not exist. -/
  owner : Nat → χ → Address → Option Address := fun _ _ _ => none
  /-- The proof accounts that store this authority, with their lamports. -/
  programAccounts : Nat → χ → Address → List (Address × Nat) := fun _ _ _ => []
  token : Nat → χ → Address → Except String (Option Token) := fun _ _ _ => .ok none
  mint : Nat → χ → Address → Except String Mint := fun _ _ _ => .error "not found"
  rentExemption : Nat := 0

/-- What became of a submitted transaction. -/
inductive Fate
  | landed
  /-- Executed and rejected by the chain. -/
  | failed
  | dropped
deriving DecidableEq, Repr

/-- The answer to a simulation request. -/
inductive SimulationReply
  | unanswered (message : String)
  | refused (err : String) (logs : List String)
  | passed
deriving DecidableEq, Repr

inductive Event (π : Type) where
  | simulated (tx : Transaction π) (reply : SimulationReply)
  /-- A submission, its fate, and the error that interrupted the wait, if any did. -/
  | submitted (tx : Transaction π) (fate : Fate) (interrupted : Option String)
  /-- A signer was asked to sign transactions. -/
  | signRequest (messages : List (Message π))
  /-- A signer was asked to sign the key-derivation message. -/
  | keyRequest

structure World (χ π : Type) where
  chain : χ
  /-- The number of requests made so far. -/
  clock : Nat := 0
  /-- The number of key pairs generated so far. -/
  keyPairs : Nat := 0
  events : List (Event π) := []

/-- Why `sendAndConfirmTransaction` rejects. -/
inductive SendError
  | blockHeightExceeded
  | transactionFailed
  | interrupted (message : String)
deriving DecidableEq, Repr

namespace World

/-- Add to the log. -/
def record (e : Event π) (w : World χ π) : World χ π := { w with events := w.events ++ [e] }

/-- One more request was made. -/
def tick (w : World χ π) : World χ π := { w with clock := w.clock + 1 }

@[simp] theorem record_chain (e : Event π) (w : World χ π) : (w.record e).chain = w.chain := rfl
@[simp] theorem record_clock (e : Event π) (w : World χ π) : (w.record e).clock = w.clock := rfl
@[simp] theorem record_keyPairs (e : Event π) (w : World χ π) :
    (w.record e).keyPairs = w.keyPairs := rfl
@[simp] theorem record_events (e : Event π) (w : World χ π) :
    (w.record e).events = w.events ++ [e] := rfl
@[simp] theorem tick_chain (w : World χ π) : w.tick.chain = w.chain := rfl
@[simp] theorem tick_keyPairs (w : World χ π) : w.tick.keyPairs = w.keyPairs := rfl
@[simp] theorem tick_events (w : World χ π) : w.tick.events = w.events := rfl

end World

namespace Network

variable (net : Network χ π)

/-- Make a request: it is refused with a message, or `reply` answers it from the number of the
    request and the chain. -/
def request {α : Type} (r : Request π) (reply : Nat → χ → α) : Effect (World χ π) String α :=
  fun w =>
    match net.refused w.clock r with
    | some message => (.error message, w.tick)
    | none => (.ok (reply w.clock w.chain), w.tick)

/-- The fate of a transaction submitted as request `n`, and the chain after it. -/
def settle (n : Nat) (chain : χ) (tx : Transaction π) : Fate × χ :=
  if net.delivered n tx then
    match net.execute n chain tx.message.instructions with
    | some chain' => (.landed, chain')
    | none => (.failed, chain)
  else
    (.dropped, chain)

/-- kit's `sendAndConfirmTransaction` at commitment `confirmed`, without preflight. -/
def sendAndConfirm (tx : Transaction π) : Effect (World χ π) SendError Unit := fun w =>
  let (fate, chain) := net.settle w.clock w.chain tx
  let interrupted := net.interrupted w.clock tx
  let w' := World.record (.submitted tx fate interrupted) { w.tick with chain := chain }
  match interrupted, fate with
  | some message, _ => (.error (.interrupted message), w')
  | none, .landed => (.ok (), w')
  | none, .failed => (.error .transactionFailed, w')
  | none, .dropped => (.error .blockHeightExceeded, w')

/-- `simulateTransaction`; the reply is logged. -/
def simulate (tx : Transaction π) : Effect (World χ π) String (Option (String × List String)) :=
  fun w =>
    match net.refused w.clock (.simulateTransaction tx) with
    | some message => (.error message, w.tick.record (.simulated tx (.unanswered message)))
    | none =>
      match net.simulation w.clock w.chain tx with
      | some (err, logs) => (.ok (some (err, logs)), w.tick.record (.simulated tx (.refused err logs)))
      | none => (.ok none, w.tick.record (.simulated tx .passed))

/-- A refused or answered request changes nothing but the clock. -/
theorem request_wp {α : Type} {r : Request π} {reply : Nat → χ → α}
    {Q : Except String α → World χ π → Prop} {w : World χ π}
    (herr : ∀ message, net.refused w.clock r = some message → Q (.error message) w.tick)
    (hok : Q (.ok (reply w.clock w.chain)) w.tick) :
    (net.request r reply).wp Q w := by
  unfold Effect.wp request
  cases hrefused : net.refused w.clock r with
  | some message => exact herr message hrefused
  | none => exact hok

end Network

end Solana
