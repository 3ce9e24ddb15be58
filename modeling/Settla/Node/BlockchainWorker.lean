import Settla.Node.ProviderTx

/-!
# The blockchain worker

`handleSend` and `checkPendingTx`. A delivery that finds the row taken looks at it: a pending
transaction is polled on the chain and its result reported. The send itself is not retried.
-/

namespace Settla.Node

open Settla.Core

def finishPending (existing : ProviderTx) (status : String) (result : IntentResult) : Handler :=
  .act (.record { existing with status := status })
    (fun a s =>
      let s' := if a.reply.applied then updateProviderTransaction { existing with status := status } s else s
      { s' with tracked := none })
    fun _ _ => report result

def trackThenAck (txHash : String) : Handler :=
  .act (.track txHash) (fun a s => trackPending a.mapFull txHash s) fun _ _ => .ret .ack

def checkPendingTx (chains : List CryptoChain) (p : BlockchainSendPayload) (existing : ProviderTx) : Handler :=
  if p.chain ∈ chains then
    .act (.poll existing.txHash) (fun _ s => s) fun a _ =>
      match a.polled with
      -- the status could not be read; the transaction may still be pending
      | none => .ret .ack
      | some (hash, status) =>
        if toLower status = "confirmed" then finishPending existing "confirmed" ⟨true, hash, ""⟩
        else if toLower status = "failed" then
          finishPending existing "failed" ⟨false, hash, "blockchain transaction failed"⟩
        else trackThenAck existing.txHash
  else .ret .nak

def sendTransaction (p : BlockchainSendPayload) : Handler :=
  callThen p.chain (.send p.token p.amount p.memo) fun a =>
    match a.called with
    | .error e =>
      if e.fault = .circuitOpen then .ret .nak else reportFailure e.text
    | .ok tx =>
      -- a chain transaction has a hash and no external ID
      recordThen ⟨"", tx.status, tx.txHash⟩ <|
        if toLower tx.status = "pending" then trackThenAck tx.txHash
        else if toLower tx.status = "confirmed" then report ⟨true, tx.txHash, ""⟩
        else report ⟨false, tx.txHash, "blockchain tx status: " ++ tx.status⟩

def handleSend (chains : List CryptoChain) (p : BlockchainSendPayload) : Handler :=
  claimThen p.chain (.ret .nak)
    (if p.chain ∈ chains then sendTransaction p
      else reportFailure ("unknown blockchain chain: " ++ p.chain))
    (.act .inspect (fun _ s => s) fun a s =>
      match a.reply with
      | .ok =>
        match s.row with
        | some r => if toLower r.tx.status = "pending" then checkPendingTx chains p r.tx else .ret .ack
        | none => .ret .ack
      | _ => .ret .nak)

end Settla.Node
