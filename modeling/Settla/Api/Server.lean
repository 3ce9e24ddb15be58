import Settla.Api.Store

/-!
# The server

The shape of all handlers: checks on the fields of the request, then a program on the database,
with the scope it claims.
-/

namespace Settla.Api

/-! ## Services behind the handlers -/

structure QuoteRequest where
  sourceCurrency : Currency
  sourceAmount : Decimal
  destCurrency : Currency
  destCountry : String

/-- Listings and reports on the rows of one tenant. Without a cursor the first page is asked for. -/
inductive Read
  | transfersFiltered (statusFilter searchQuery : String) (limit : ℤ)
  | transferEvents (transferID : UUID)
  | positions
  | position (currency location : String)
  | liquidityReport
  | positionTransaction (id : UUID)
  | positionTransactions (limit offset : ℤ) (cursor : Option Time)
  | positionEvents (currency location : String) (start finish : Time) (limit offset : ℤ)
  | accounts
  | dashboardMetrics (todayStart sevenDaysAgo thirtyDaysAgo : Time)
  | transferStats (daily : Bool) (start finish : Time)
  | feeReport (start finish : Time)
  | webhookDeliveries (eventType status : String) (limit offset : ℤ)
  | webhookDelivery (id : UUID)
  | webhookDeliveryStats (since : Time)
  | webhookEventSubscriptions
  | transferStatusDistribution (start finish : Time)
  | corridorMetrics (start finish : Time)
  | transferLatencyPercentiles (start finish : Time)
  | volumeComparison (previousStart currentStart currentEnd : Time)
  | recentActivity (limit : ℤ)
  | transferAnalytics (start finish : Time)
  | feeBreakdown (start finish : Time)
  | providerPerformance (start finish : Time)
  | depositAnalytics (start finish : Time)
  | exportJob (id : UUID)
  | bankSession (id : UUID)
  | bankSessions (limit : ℤ) (cursor : Option Time)
  | virtualAccounts (currency accountType : String) (limit offset : ℤ) (cursor : Option Time)

/-- Methods of the other engines, which write records of one tenant. -/
inductive Write
  | requestTopUp (currency location : String) (amount : Decimal) (method : String)
  | requestWithdrawal (currency location : String) (amount : Decimal) (method destination : String)
  | createBankSession (currency partnerID accountType : String) (expected minimum maximum : Decimal)
      (mismatchPolicy settlementPref idempotencyKey : String) (ttlSeconds : ℤ)
  | cancelBankSession (id : UUID)
  | createExportJob (exportType period format : String) (start finish : Option Time)

/-- The services behind the handlers. Each is given the rows of its tenant. -/
structure Engines where
  /-- the router, with its providers and rates -/
  route : TenantRow → QuoteRequest → Option Quote
  (hasOnRamp hasOffRamp : String → Bool)
  dailyVolume : List Row → Option Decimal
  read : Read → List Row → Except Status String
  write : Write → List Row → Except Status (List (Table × UUID × String) × String)
  /-- the POST of `TestWebhook` to a URL, signed with a secret -/
  post : String → String → String
  /-- `GetReconciliationSummary`, over a table without a tenant -/
  reconciliationSummary : Time → Time → String
  /-- `GetBankingPartner`, from a table without a tenant -/
  bankingPartner : UUID → Option String

/-- The server: its parsers, engines and optional services, and the clock and random values of the
call. -/
structure Server where
  parsers : Parsers
  engines : Engines
  /-- the hexadecimal HMAC or SHA-256 of an API key -/
  hashAPIKey : String → String
  (authStore portalStore portalAuthStore webhookStore analyticsStore extAnalyticsStore : Bool)
  (exportStore accountStore bankingPartnerStore positionEngine positionEventStore : Bool)
  (depositEngine bankDepositEngine paymentLinkService auditLogger : Bool)
  /-- whether row level security is on (`appPool`) -/
  appPool : Bool
  paymentLinkBaseURL : String
  now : Time
  (newID rowID auditID : UUID)
  subscriptionID : String → UUID
  /-- 32 random bytes in hexadecimal -/
  random : String
  /-- a short code no link has -/
  shortCode : String

/-! ## Handlers -/

/-- What a program on the database is about. -/
inductive Scope
  /-- the rows of a tenant -/
  | tenant (tenantID : UUID)
  /-- the row with a key, and rows of the tenant that owns it -/
  | named (key : Key)
  /-- the row with a key, and rows of the tenant named beside it -/
  | namedFor (key : Key) (tenantID : UUID)
  /-- tables that belong to no tenant -/
  | shared
  deriving DecidableEq

abbrev Handler := Except Status (Scope × Q)

def onTenant (tenantID : UUID) (q : Q) : Handler := .ok (.tenant tenantID, q)

def readTenant (srv : Server) (tenantID : UUID) (r : Read) : Handler :=
  onTenant tenantID <| .select tenantID fun rs =>
    match srv.engines.read r rs with
    | .error s => refuse (.status s)
    | .ok t => reply (.text t)

def writeTenant (srv : Server) (tenantID : UUID) (w : Write) : Handler :=
  onTenant tenantID <| .select tenantID fun rs =>
    match srv.engines.write w rs with
    | .error s => refuse (.status s)
    | .ok (ws, t) => putRecords tenantID ws (reply (.text t))

def auditLog (srv : Server) (tenantID : UUID) (action : String) (next : Q) : Q :=
  if srv.auditLogger then .insert (.record .auditLog tenantID srv.auditID action) next else next

/-! ## Periods -/

def day : Time := 24 * 60 * minute

/-- The start of the period of a report: a day unless 7 or 30 days are asked for. -/
def periodStart (now : Time) (period : String) : Time :=
  if period = "7d" then now - 7 * day else if period = "30d" then now - 30 * day else now - day

def resolveTimeRange (now : Time) (period : String) (start finish : Option Time) : Time × Time :=
  match start, finish with
  | some s, some f => (s, f)
  | _, _ => (periodStart now period, now)

end Settla.Api
