-- SUMMARY: The transactions that landed between two worlds, and the chain they lead to.
import ConfidentialTransfers.Lib.Steps
import ConfidentialTransfers.Solana.Network

/-!
# Landings

The chain changes only by executing transactions, so its history between two
worlds is the list of transactions the log says landed.
-/

namespace Solana

variable {χ π : Type}

/-- On the network, `c` becomes `c'` by executing a transaction with these instructions. -/
def Network.Executes (net : Network χ π) (c : χ) (is : List (Instruction π)) (c' : χ) : Prop :=
  ∃ n, net.execute n c is = some c'

/-- The instructions of the transaction that landed, if the event is a landing. -/
def Event.landed : Event π → Option (List (Instruction π))
  | .submitted tx .landed _ => some tx.message.instructions
  | _ => none

/-- The instructions of the transactions that landed, one list for each. -/
def landedTransactions (es : List (Event π)) : List (List (Instruction π)) := es.filterMap Event.landed

theorem landedTransactions_record {e : Event π} (he : e.landed = none) (w : World χ π) :
    landedTransactions (w.record e).events = landedTransactions w.events := by
  simp [landedTransactions, he]

/-- From `w` to `w'` transactions with these instructions landed, and no key pair was generated. -/
structure World.Lands (net : Network χ π) (w : World χ π) (txs : List (List (Instruction π)))
    (w' : World χ π) : Prop where
  landed : landedTransactions w'.events = landedTransactions w.events ++ txs
  executed : Steps net.Executes w.chain txs w'.chain
  keyPairs : w'.keyPairs = w.keyPairs

namespace World.Lands

variable {net : Network χ π} {w w' w'' : World χ π} {txs txs' : List (List (Instruction π))}

theorem refl (w : World χ π) : w.Lands net [] w := ⟨by simp, .nil _, rfl⟩

theorem trans (h : w.Lands net txs w') (h' : w'.Lands net txs' w'') : w.Lands net (txs ++ txs') w'' where
  landed := by rw [h'.landed, h.landed, List.append_assoc]
  executed := h.executed.append h'.executed
  keyPairs := h'.keyPairs.trans h.keyPairs

theorem tick (w : World χ π) : w.Lands net [] w.tick := ⟨by simp, .nil _, rfl⟩

theorem record {e : Event π} (he : e.landed = none) (w : World χ π) : w.Lands net [] (w.record e) :=
  ⟨by rw [landedTransactions_record he, List.append_nil], .nil _, rfl⟩

end World.Lands

end Solana
