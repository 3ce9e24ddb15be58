import Settla.Domain.Deposit
import Settla.Treasury.Machine

/-!
# The chain monitor

The set of watched addresses is built from the address pool, and each poller asks its chain for the transfers
to them.
-/

namespace Settla.ChainMonitor

open Treasury (wrap64)

/-! ## The address set -/

/-- A row of `crypto_address_pool`. -/
structure PoolAddress where
  tenantID : UUID
  chain : CryptoChain
  address : String
  derivationIndex : ℕ
  dispensed : Bool

/-- `crypto_address_pool`, with its unique index. -/
structure AddressPool where
  rows : List PoolAddress
  unique : (rows.map fun r => (r.tenantID, r.chain, r.derivationIndex)).Nodup

structure AddressInfo where
  chain : CryptoChain
  address : String
  tenantID : UUID
  deriving DecidableEq

def addressKey (chain : CryptoChain) (address : String) : String := chain ++ ":" ++ address

def AddressInfo.key (info : AddressInfo) : String := addressKey info.chain info.address

/-- `AddressSet`: two maps, whose keys are those of the addresses in them. -/
structure AddressSet where
  (mutable snapshot : List AddressInfo)
  deriving DecidableEq

def put (infos : List AddressInfo) (info : AddressInfo) : List AddressInfo :=
  infos.filter (fun i => i.key ≠ info.key) ++ [info]

def AddressSet.add (s : AddressSet) (info : AddressInfo) : AddressSet := { s with mutable := put s.mutable info }

def AddressSet.publish (s : AddressSet) : AddressSet := { s with snapshot := s.mutable }

def AddressSet.replace (s : AddressSet) (addresses : List AddressInfo) : AddressSet :=
  AddressSet.publish { s with mutable := addresses.foldl put [] }

def AddressSet.contains (s : AddressSet) (chain : CryptoChain) (address : String) : Bool :=
  s.snapshot.any (·.key = addressKey chain address)

def listPoolAddressesByTenant (pool : AddressPool) (tenantID : UUID) (chain : CryptoChain) (limit offset : ℕ) :
    List PoolAddress :=
  (((pool.rows.filter fun r => r.tenantID = tenantID ∧ r.chain = chain).mergeSort
    fun r r' => r.derivationIndex ≤ r'.derivationIndex).drop offset).take limit

/-- `ListActiveAddresses`, which asks for the addresses of the tenant `uuid.Nil`. -/
def listActiveAddresses (pool : AddressPool) (chain : CryptoChain) : List AddressInfo :=
  ((listPoolAddressesByTenant pool UUID.nil chain 10000 0).filter (·.dispensed)).map
    fun r => ⟨r.chain, r.address, r.tenantID⟩

/-- A store in which the query fails for some chains. -/
def listing (pool : AddressPool) (fails : CryptoChain → Bool) (chain : CryptoChain) : Option (List AddressInfo) :=
  if fails chain then none else some (listActiveAddresses pool chain)

section Sync

variable (list : CryptoChain → Option (List AddressInfo))

/-- `syncAddresses`: after an error the addresses of the chains before it are in the set, but not published. -/
def syncAddresses : List CryptoChain → AddressSet → AddressSet × Bool
  | [], s => (s.publish, true)
  | chain :: pollers, s =>
    match list chain with
    | none => (s, false)
    | some addresses => syncAddresses pollers (addresses.foldl AddressSet.add s)

def reconcileAddresses (pollers : List CryptoChain) (s : AddressSet) : AddressSet × Bool :=
  match pollers.mapM list with
  | none => (s, false)
  | some addresses => (s.replace addresses.flatten, true)

end Sync

/-! ## The window of the Tron poller -/

structure TRC20Transfer where
  (transactionID source target value tokenAddress : String)
  /-- in milliseconds -/
  blockTimestamp : ℤ

/-- `minTimestamp` of `TronPoller.scanTransfers`, in milliseconds. A duration is a machine integer. -/
def minTimestamp (now : Time) (lastBlock safeBlock : ℤ) : ℤ :=
  if 0 < lastBlock then (now + wrap64 (-(safeBlock - lastBlock) * 3 * second)) / 1000000 else 0

/-- The confirmed transfers that a query is about. -/
def queried (confirmed : List TRC20Transfer) (address contractAddress : String) (minTimestamp : ℤ) : List TRC20Transfer :=
  confirmed.filter fun t => (t.source = address ∨ t.target = address) ∧ t.tokenAddress = contractAddress ∧
    (0 < minTimestamp → minTimestamp ≤ t.blockTimestamp)

/-- What the service may answer to `GetTRC20Transfers`: some of them, and all if they are no more than the limit. -/
structure TRC20Answer (confirmed : List TRC20Transfer) (address contractAddress : String) (minTimestamp : ℤ) (limit : ℕ)
    (answer : List TRC20Transfer) : Prop where
  queried : ∀ t ∈ answer, t ∈ queried confirmed address contractAddress minTimestamp
  all : (ChainMonitor.queried confirmed address contractAddress minTimestamp).length ≤ limit →
    ∀ t ∈ ChainMonitor.queried confirmed address contractAddress minTimestamp, t ∈ answer

end Settla.ChainMonitor
