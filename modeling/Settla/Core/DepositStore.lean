import Settla.Node.ChainMonitor

/-!
# Creating a crypto deposit session

`CreateSession` from the dispensing on, and `CreateSessionWithOutbox`. The engine draws an ID for the session,
and the database another one for its row.
-/

namespace Settla.DepositStore

structure PoolRow extends ChainMonitor.PoolAddress where
  sessionID : Option UUID

/-- A row of `crypto_deposit_address_index`. -/
structure IndexRow where
  chain : CryptoChain
  address : String
  (tenantID sessionID : UUID)

structure MonitorAddressPayload where
  (sessionID tenantID : UUID)
  chain : CryptoChain
  (address token : String)

inductive CreatedBody
  | monitorAddress (p : MonitorAddressPayload)
  | sessionCreated (p : DepositSessionEventPayload)
  | webhookDeliver (data : DepositSessionEventPayload)
  /-- "Deposit session created — awaiting %s %s" -/
  | emailNotify (amount : Decimal) (token : String) (data : DepositSessionEventPayload)

def CreatedBody.sessionID : CreatedBody → UUID
  | monitorAddress p => p.sessionID
  | sessionCreated p | webhookDeliver p | emailNotify _ _ p => p.sessionID

structure CreatedEntry where
  (aggregateID tenantID : UUID)
  body : CreatedBody

structure Tables where
  sessions : List DepositSession
  pool : List PoolRow
  index : List IndexRow
  outbox : List CreatedEntry

/-- `DispensePoolAddress`: the free row with the least index that no other transaction holds. -/
def Tables.dispenseAddress (t : Tables) (locked : PoolRow → Bool) (tenantID : UUID) (chain : CryptoChain)
    (sessionID : UUID) : Option (PoolRow × Tables) := do
  let a ← (t.pool.filter fun a => a.tenantID = tenantID && a.chain = chain && !a.dispensed && !locked a).argmin
    (·.derivationIndex)
  let a' := { a with dispensed := true, sessionID := if sessionID = UUID.nil then none else some sessionID }
  return (a', { t with pool := t.pool.map fun r => if r.chain = a.chain ∧ r.address = a.address then a' else r })

def Tables.createSessionWithOutbox (t : Tables) (rowID : UUID) (s : DepositSession) (depositAddress : String)
    (entries : List CreatedEntry) : Option (DepositSession × Tables) :=
  let s := { s with id := rowID }
  if t.index.any fun i => i.chain = s.chain && i.address = depositAddress then none
  else some (s,
    { t with
      sessions := t.sessions ++ [s]
      index := t.index ++ [⟨s.chain, depositAddress, s.tenantID, s.id⟩]
      outbox := t.outbox ++ entries.map fun e => if e.aggregateID = UUID.nil then { e with aggregateID := s.id } else e })

def createdEntries (s : DepositSession) (address : String) : List CreatedEntry :=
  let event := { sessionID := s.id, tenantID := s.tenantID, status := .pendingPayment, chain := s.chain,
                 token := s.token, amount := s.expectedAmount }
  [.monitorAddress ⟨s.id, s.tenantID, s.chain, address, s.token⟩, .sessionCreated event, .webhookDeliver event,
    .emailNotify s.expectedAmount s.token event].map (⟨s.id, s.tenantID, ·⟩)

/-- `none` where the pool is empty or the store fails; the tables then need not be as before. -/
def Tables.createSession (t : Tables) (locked : PoolRow → Bool) (newID rowID tenantID : UUID) (chain : CryptoChain)
    (token : String) (expectedAmount : Decimal) (pref : SettlementPreference) : Option (DepositSession × Tables) := do
  let (a, t) ← t.dispenseAddress locked tenantID chain UUID.nil
  let s := ⟨newID, tenantID, .pendingPayment, 1, chain, token, expectedAmount, 0, 0, 0, pref, none, "", ""⟩
  t.createSessionWithOutbox rowID s a.address (createdEntries s a.address)

end Settla.DepositStore
