import Settla.Api.Server

/-!
# Portal and analytics services

With `SubmitKYB`, the one method of `portal_auth_service.go` that takes an API key.
-/

namespace Settla.Api

/-! ## TenantPortalService -/

inductive PortalRequest
  | getMyTenant (tenantId : String)
  | updateWebhookConfig (tenantId webhookUrl : String)
  | listAPIKeys (tenantId : String)
  | createAPIKey (tenantId environment name : String)
  | revokeAPIKey (tenantId keyId : String)
  | rotateAPIKey (tenantId oldKeyId name : String)
  | getDashboardMetrics (tenantId : String)
  | getTransferStats (tenantId period granularity : String)
  | getFeeReport (tenantId : String) (start finish : Option Time)
  | listWebhookDeliveries (tenantId eventType status : String) (asked offset : ℤ)
  | getWebhookDelivery (tenantId deliveryId : String)
  | getWebhookDeliveryStats (tenantId period : String)
  | listWebhookEventSubscriptions (tenantId : String)
  | updateWebhookEventSubscriptions (tenantId : String) (eventTypes : List String)
  | testWebhook (tenantId : String)
  | getTransferStatusDistribution (tenantId period : String)
  | getCorridorMetrics (tenantId period : String)
  | getTransferLatencyPercentiles (tenantId period : String)
  | getVolumeComparison (tenantId period : String)
  | getRecentActivity (tenantId : String) (limit : ℤ)

variable (srv : Server)

def portalTenant (tenantId : String) : Except Status UUID := do
  let tenantID ← parseUUID tenantId "tenant_id"
  configured srv.portalStore "tenant portal not configured"
  return tenantID

def getMyTenant (tenantId : String) : Handler := do
  let tenantID ← portalTenant srv tenantId
  onTenant tenantID <| getTenant tenantID fun
    | none => internal
    | some t => reply (.tenant t)

def updateWebhookConfig (tenantId webhookUrl : String) : Handler := do
  let tenantID ← portalTenant srv tenantId
  validateNonEmpty "webhook_url" webhookUrl
  -- `generateWebhookSecret`
  let secret := "whsec_" ++ srv.random
  onTenant tenantID <| .change tenantID (setWebhook webhookUrl secret) (reply (.webhookConfig webhookUrl secret))

def listAPIKeys (tenantId : String) : Handler := do
  let tenantID ← portalTenant srv tenantId
  onTenant tenantID <| .select tenantID fun rs => reply (.apiKeys (rs.filterMap Row.apiKey?))

def generateAPIKey (environment : String) : String :=
  (if environment = "TEST" then "sk_test_" else "sk_live_") ++ srv.random

def newAPIKey (tenantID : UUID) (environment name : String) : APIKey :=
  let rawKey := generateAPIKey srv environment
  { id := srv.newID, tenantID := tenantID, keyHash := srv.hashAPIKey rawKey,
    keyPrefix := String.ofList (rawKey.toList.take 12), environment := environment, name := name, isActive := true,
    expiresAt := none }

/-- Generate a key, store it and write the audit entry. -/
def storeAPIKey (tenantID : UUID) (environment name action : String) : Q :=
  let key := newAPIKey srv tenantID environment name
  .insert (.apiKey key) (auditLog srv tenantID action (reply (.newKey key (generateAPIKey srv environment))))

def createAPIKey (tenantId environment name : String) : Handler := do
  let tenantID ← portalTenant srv tenantId
  check (environment = "LIVE" || environment = "TEST") ⟨.invalidArgument, "environment must be LIVE or TEST"⟩
  onTenant tenantID <| storeAPIKey srv tenantID environment name "api_key.created"

/-- The tenant and key of a request about a key. The key is parsed before the store is
looked for. -/
def portalKey (tenantId keyId field : String) : Except Status (UUID × UUID) := do
  let tenantID ← parseUUID tenantId "tenant_id"
  let keyID ← parseUUID keyId field
  configured srv.portalStore "tenant portal not configured"
  return (tenantID, keyID)

def revokeAPIKey (tenantId keyId : String) : Handler := do
  let (tenantID, keyID) ← portalKey srv tenantId keyId "key_id"
  onTenant tenantID <| getAPIKey tenantID keyID fun
    | none => internal
    | some key =>
      .change tenantID (deactivateAPIKey keyID) <|
        auditLog srv tenantID "api_key.revoked" (reply (.revoked key.keyHash))

def rotateAPIKey (tenantId oldKeyId name : String) : Handler := do
  let (tenantID, oldKeyID) ← portalKey srv tenantId oldKeyId "old_key_id"
  onTenant tenantID <| getAPIKey tenantID oldKeyID fun
    | none => internal
    | some oldKey =>
      .change tenantID (deactivateAPIKey oldKeyID) <|
        storeAPIKey srv tenantID oldKey.environment (if name = "" then oldKey.name else name) "api_key.rotated"

def getDashboardMetrics (tenantId : String) : Handler := do
  let tenantID ← portalTenant srv tenantId
  let todayStart := srv.now - srv.now % day
  readTenant srv tenantID (.dashboardMetrics todayStart (todayStart - 7 * day) (todayStart - 30 * day))

def getTransferStats (tenantId period granularity : String) : Handler := do
  let tenantID ← portalTenant srv tenantId
  readTenant srv tenantID (.transferStats (granularity = "day") (periodStart srv.now period) srv.now)

def getFeeReport (tenantId : String) (start finish : Option Time) : Handler := do
  let tenantID ← portalTenant srv tenantId
  readTenant srv tenantID (.feeReport (start.getD (srv.now - 30 * day)) (finish.getD srv.now))

/-! ### Webhooks -/

def webhookTenant (tenantId : String) : Except Status UUID := do
  let tenantID ← parseUUID tenantId "tenant_id"
  configured srv.webhookStore "webhook management not configured"
  return tenantID

def listWebhookDeliveries (tenantId eventType status : String) (asked offset : ℤ) : Handler := do
  let tenantID ← webhookTenant srv tenantId
  readTenant srv tenantID (.webhookDeliveries eventType status (pageSize asked 100 50) offset)

def getWebhookDelivery (tenantId deliveryId : String) : Handler := do
  let tenantID ← parseUUID tenantId "tenant_id"
  let deliveryID ← parseUUID deliveryId "delivery_id"
  configured srv.webhookStore "webhook management not configured"
  readTenant srv tenantID (.webhookDelivery deliveryID)

variable (tenantId period : String)

def getWebhookDeliveryStats : Handler := do
  let tenantID ← webhookTenant srv tenantId
  readTenant srv tenantID (.webhookDeliveryStats (periodStart srv.now period))

def listWebhookEventSubscriptions (tenantId : String) : Handler := do
  let tenantID ← webhookTenant srv tenantId
  readTenant srv tenantID .webhookEventSubscriptions

def webhookEventTypes : List String :=
  ["transfer.created", "transfer.funded", "transfer.on_ramping", "transfer.settling", "transfer.off_ramping",
    "transfer.completing", "transfer.completed", "transfer.failed", "transfer.refunding", "transfer.refunded"]

/-- The insert of an event type that is already there is an error; what was written before stays. -/
def upsertSubscriptions (srv : Server) (tenantID : UUID) (seen : List String) : List String → Q → Q
  | [], next => next
  | eventType :: rest, next =>
    if eventType ∈ seen then internal
    else
      .insert (.record .webhookEventSubscriptions tenantID (srv.subscriptionID eventType) eventType)
        (upsertSubscriptions srv tenantID (eventType :: seen) rest next)

def updateWebhookEventSubscriptions (tenantId : String) (eventTypes : List String) : Handler := do
  let tenantID ← webhookTenant srv tenantId
  match eventTypes.find? (· ∉ webhookEventTypes) with
  | some t => .error ⟨.invalidArgument, "unknown event type: " ++ t⟩
  | none =>
    onTenant tenantID <|
      .remove tenantID (fun r => match r with
        | .record table _ _ _ => table = .webhookEventSubscriptions
        | _ => false) <|
      upsertSubscriptions srv tenantID [] eventTypes <|
      .change tenantID (setWebhookEvents eventTypes) (reply (.text (", ".intercalate eventTypes)))

def testWebhook (tenantId : String) : Handler := do
  let tenantID ← portalTenant srv tenantId
  onTenant tenantID <| getTenant tenantID fun
    | none => internal
    | some t =>
      if t.webhookURL = "" then refuseWith .failedPrecondition "no webhook URL configured"
      else reply (.text (srv.engines.post t.webhookURL t.webhookSecret))

/-! ### Analytics -/

def analyticsTenant (store : Bool) (tenantId : String) : Except Status UUID := do
  let tenantID ← parseUUID tenantId "tenant_id"
  configured store "analytics not configured"
  return tenantID

def periodReport (report : Time → Time → Read) : Handler := do
  let tenantID ← analyticsTenant srv.analyticsStore tenantId
  readTenant srv tenantID (report (periodStart srv.now period) srv.now)

def getTransferStatusDistribution : Handler :=
  periodReport srv tenantId period .transferStatusDistribution

def getCorridorMetrics : Handler :=
  periodReport srv tenantId period .corridorMetrics

def getTransferLatencyPercentiles : Handler :=
  periodReport srv tenantId period .transferLatencyPercentiles

def getVolumeComparison : Handler := do
  let tenantID ← analyticsTenant srv.analyticsStore tenantId
  let days : ℤ := if period = "30d" then 30 else 7
  readTenant srv tenantID (.volumeComparison (srv.now - 2 * days * day) (srv.now - days * day) srv.now)

def getRecentActivity (tenantId : String) (limit : ℤ) : Handler := do
  let tenantID ← analyticsTenant srv.analyticsStore tenantId
  readTenant srv tenantID (.recentActivity (pageSize limit 50 20))

def PortalRequest.handler : PortalRequest → Handler
  | .getMyTenant tenantId => Api.getMyTenant srv tenantId
  | .updateWebhookConfig tenantId webhookUrl => Api.updateWebhookConfig srv tenantId webhookUrl
  | .listAPIKeys tenantId => Api.listAPIKeys srv tenantId
  | .createAPIKey tenantId environment name => Api.createAPIKey srv tenantId environment name
  | .revokeAPIKey tenantId keyId => Api.revokeAPIKey srv tenantId keyId
  | .rotateAPIKey tenantId oldKeyId name => Api.rotateAPIKey srv tenantId oldKeyId name
  | .getDashboardMetrics tenantId => Api.getDashboardMetrics srv tenantId
  | .getTransferStats tenantId period granularity => Api.getTransferStats srv tenantId period granularity
  | .getFeeReport tenantId start finish => Api.getFeeReport srv tenantId start finish
  | .listWebhookDeliveries tenantId eventType status asked offset =>
    Api.listWebhookDeliveries srv tenantId eventType status asked offset
  | .getWebhookDelivery tenantId deliveryId => Api.getWebhookDelivery srv tenantId deliveryId
  | .getWebhookDeliveryStats tenantId period => Api.getWebhookDeliveryStats srv tenantId period
  | .listWebhookEventSubscriptions tenantId => Api.listWebhookEventSubscriptions srv tenantId
  | .updateWebhookEventSubscriptions tenantId eventTypes =>
    Api.updateWebhookEventSubscriptions srv tenantId eventTypes
  | .testWebhook tenantId => Api.testWebhook srv tenantId
  | .getTransferStatusDistribution tenantId period => Api.getTransferStatusDistribution srv tenantId period
  | .getCorridorMetrics tenantId period => Api.getCorridorMetrics srv tenantId period
  | .getTransferLatencyPercentiles tenantId period => Api.getTransferLatencyPercentiles srv tenantId period
  | .getVolumeComparison tenantId period => Api.getVolumeComparison srv tenantId period
  | .getRecentActivity tenantId limit => Api.getRecentActivity srv tenantId limit

/-! ## PortalAuthService -/

structure KYBMessage where
  (tenantId companyRegistrationNumber country businessType contactName contactEmail : String)
  contactPhone : String

def KYBMessage.metadata (m : KYBMessage) : List (String × String) :=
  [("kyb_registration_number", m.companyRegistrationNumber), ("kyb_country", m.country),
    ("kyb_business_type", m.businessType), ("kyb_contact_name", m.contactName),
    ("kyb_contact_email", m.contactEmail), ("kyb_contact_phone", m.contactPhone)]

def submitKYB (m : KYBMessage) : Handler := do
  configured srv.portalAuthStore "portal auth not configured"
  let tenantID ← parseUUID m.tenantId "tenant_id"
  validateNonEmpty "company_registration_number" m.companyRegistrationNumber
  validateNonEmpty "country" m.country
  validateCountryCode m.country
  validateNonEmpty "business_type" m.businessType
  validateNonEmpty "contact_name" m.contactName
  validateNonEmpty "contact_email" m.contactEmail
  onTenant tenantID <| getTenant tenantID fun
    | none => refuseWith .internal "failed to get tenant"
    | some t =>
      if t.status ≠ .onboarding then
        refuseWith .failedPrecondition ("tenant must be in ONBOARDING status, current: " ++ t.status.string)
      else
        .change tenantID (setMetadata m.metadata) <|
          .change tenantID (setKYB "IN_REVIEW") (reply (.kyb "KYB submitted for review" "IN_REVIEW"))

/-! ## AnalyticsService -/

inductive AnalyticsRequest
  | getTransferAnalytics (tenantId period : String) (start finish : Option Time)
  | getFeeAnalytics (tenantId period : String) (start finish : Option Time)
  | getProviderAnalytics (tenantId period : String) (start finish : Option Time)
  | getReconciliationAnalytics (tenantId : String)
  | getDepositAnalytics (tenantId period : String) (start finish : Option Time)
  | createExportJob (tenantId exportType period format : String) (start finish : Option Time)
  | getExportJob (tenantId jobId : String)

def rangeReport (store : Bool) (tenantId period : String) (start finish : Option Time)
    (report : Time → Time → Read) : Handler := do
  let tenantID ← analyticsTenant store tenantId
  let (s, f) := resolveTimeRange srv.now period start finish
  readTenant srv tenantID (report s f)

variable (start finish : Option Time)

def getTransferAnalytics : Handler :=
  rangeReport srv srv.analyticsStore tenantId period start finish .transferAnalytics

def getFeeAnalytics : Handler :=
  rangeReport srv srv.extAnalyticsStore tenantId period start finish .feeBreakdown

def getProviderAnalytics : Handler :=
  rangeReport srv srv.extAnalyticsStore tenantId period start finish .providerPerformance

/-- The tenant is parsed and dropped: the summary is over the reports of all runs. -/
def getReconciliationAnalytics (tenantId : String) : Handler := do
  let _ ← analyticsTenant srv.extAnalyticsStore tenantId
  .ok (.shared, reply (.text (srv.engines.reconciliationSummary (srv.now - 30 * day) srv.now)))

def getDepositAnalytics : Handler :=
  rangeReport srv srv.extAnalyticsStore tenantId period start finish .depositAnalytics

def createExportJob (srv : Server) (tenantId exportType period format : String) (start finish : Option Time) :
    Handler := do
  let tenantID ← parseUUID tenantId "tenant_id"
  validateNonEmpty "export_type" exportType
  configured srv.exportStore "export not configured"
  writeTenant srv tenantID (.createExportJob exportType period format start finish)

def getExportJob (tenantId jobId : String) : Handler := do
  let tenantID ← parseUUID tenantId "tenant_id"
  let jobID ← parseUUID jobId "job_id"
  configured srv.exportStore "export not configured"
  readTenant srv tenantID (.exportJob jobID)

def AnalyticsRequest.handler : AnalyticsRequest → Handler
  | .getTransferAnalytics tenantId period start finish => Api.getTransferAnalytics srv tenantId period start finish
  | .getFeeAnalytics tenantId period start finish => Api.getFeeAnalytics srv tenantId period start finish
  | .getProviderAnalytics tenantId period start finish => Api.getProviderAnalytics srv tenantId period start finish
  | .getReconciliationAnalytics tenantId => Api.getReconciliationAnalytics srv tenantId
  | .getDepositAnalytics tenantId period start finish => Api.getDepositAnalytics srv tenantId period start finish
  | .createExportJob tenantId exportType period format start finish =>
    Api.createExportJob srv tenantId exportType period format start finish
  | .getExportJob tenantId jobId => Api.getExportJob srv tenantId jobId

end Settla.Api
