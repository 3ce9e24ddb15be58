import Settla.Api.Settlement
import Settla.Api.Portal
import Settla.Api.Deposits

/-!
# The API key interceptor

`APIKeyAuthInterceptor` writes the tenant of the key to the metadata of the call. The handlers take
their tenant from the request and read no metadata.
-/

namespace Settla.Api

/-- The methods that are called without a key. -/
inductive PublicMethod
  | register | login | verifyEmail | refreshToken | approveKYB | healthCheck | healthWatch
  | reflectionAlpha | reflection

/-- A request of any service. -/
inductive Request
  | settlement (r : SettlementRequest)
  | treasury (r : TreasuryRequest)
  | ledger (r : LedgerRequest)
  | validateAPIKey (keyHash : String)
  | portal (r : PortalRequest)
  | submitKYB (m : KYBMessage)
  | deposit (r : DepositRequest)
  | bankDeposit (r : BankDepositRequest)
  | paymentLink (r : PaymentLinkRequest)
  | analytics (r : AnalyticsRequest)
  | withoutKey (m : PublicMethod)

/-! ## Method names -/

def SettlementRequest.method : SettlementRequest → String
  | .createQuote .. => "CreateQuote"
  | .getQuote .. => "GetQuote"
  | .createTransfer .. => "CreateTransfer"
  | .getTransfer .. => "GetTransfer"
  | .getTransferByExternalRef .. => "GetTransferByExternalRef"
  | .listTransfers .. => "ListTransfers"
  | .cancelTransfer .. => "CancelTransfer"
  | .listTransferEvents .. => "ListTransferEvents"
  | .getRoutingOptions .. => "GetRoutingOptions"

def TreasuryRequest.method : TreasuryRequest → String
  | .getPositions .. => "GetPositions"
  | .getPosition .. => "GetPosition"
  | .getLiquidityReport .. => "GetLiquidityReport"
  | .requestTopUp .. => "RequestTopUp"
  | .requestWithdrawal .. => "RequestWithdrawal"
  | .getPositionTransaction .. => "GetPositionTransaction"
  | .listPositionTransactions .. => "ListPositionTransactions"
  | .getPositionEventHistory .. => "GetPositionEventHistory"

def LedgerRequest.method : LedgerRequest → String
  | .getAccounts .. => "GetAccounts"
  | .getAccountBalance .. => "GetAccountBalance"
  | .getTransactions .. => "GetTransactions"

def PortalRequest.method : PortalRequest → String
  | .getMyTenant .. => "GetMyTenant"
  | .updateWebhookConfig .. => "UpdateWebhookConfig"
  | .listAPIKeys .. => "ListAPIKeys"
  | .createAPIKey .. => "CreateAPIKey"
  | .revokeAPIKey .. => "RevokeAPIKey"
  | .rotateAPIKey .. => "RotateAPIKey"
  | .getDashboardMetrics .. => "GetDashboardMetrics"
  | .getTransferStats .. => "GetTransferStats"
  | .getFeeReport .. => "GetFeeReport"
  | .listWebhookDeliveries .. => "ListWebhookDeliveries"
  | .getWebhookDelivery .. => "GetWebhookDelivery"
  | .getWebhookDeliveryStats .. => "GetWebhookDeliveryStats"
  | .listWebhookEventSubscriptions .. => "ListWebhookEventSubscriptions"
  | .updateWebhookEventSubscriptions .. => "UpdateWebhookEventSubscriptions"
  | .testWebhook .. => "TestWebhook"
  | .getTransferStatusDistribution .. => "GetTransferStatusDistribution"
  | .getCorridorMetrics .. => "GetCorridorMetrics"
  | .getTransferLatencyPercentiles .. => "GetTransferLatencyPercentiles"
  | .getVolumeComparison .. => "GetVolumeComparison"
  | .getRecentActivity .. => "GetRecentActivity"

def DepositRequest.method : DepositRequest → String
  | .createDepositSession .. => "CreateDepositSession"
  | .getDepositSession .. => "GetDepositSession"
  | .listDepositSessions .. => "ListDepositSessions"
  | .cancelDepositSession .. => "CancelDepositSession"
  | .getDepositSessionByTxHash .. => "GetDepositSessionByTxHash"
  | .getDepositSessionPublicStatus .. => "GetDepositSessionPublicStatus"

def BankDepositRequest.method : BankDepositRequest → String
  | .createBankDepositSession .. => "CreateBankDepositSession"
  | .getBankDepositSession .. => "GetBankDepositSession"
  | .listBankDepositSessions .. => "ListBankDepositSessions"
  | .cancelBankDepositSession .. => "CancelBankDepositSession"
  | .listVirtualAccounts .. => "ListVirtualAccounts"
  | .getBankingPartner .. => "GetBankingPartner"

def PaymentLinkRequest.method : PaymentLinkRequest → String
  | .createPaymentLink .. => "CreatePaymentLink"
  | .getPaymentLink .. => "GetPaymentLink"
  | .listPaymentLinks .. => "ListPaymentLinks"
  | .resolvePaymentLink .. => "ResolvePaymentLink"
  | .redeemPaymentLink .. => "RedeemPaymentLink"
  | .disablePaymentLink .. => "DisablePaymentLink"

def AnalyticsRequest.method : AnalyticsRequest → String
  | .getTransferAnalytics .. => "GetTransferAnalytics"
  | .getFeeAnalytics .. => "GetFeeAnalytics"
  | .getProviderAnalytics .. => "GetProviderAnalytics"
  | .getReconciliationAnalytics .. => "GetReconciliationAnalytics"
  | .getDepositAnalytics .. => "GetDepositAnalytics"
  | .createExportJob .. => "CreateExportJob"
  | .getExportJob .. => "GetExportJob"

def PublicMethod.fullMethod : PublicMethod → String
  | .register => "/settla.v1.PortalAuthService/Register"
  | .login => "/settla.v1.PortalAuthService/Login"
  | .verifyEmail => "/settla.v1.PortalAuthService/VerifyEmail"
  | .refreshToken => "/settla.v1.PortalAuthService/RefreshToken"
  | .approveKYB => "/settla.v1.PortalAuthService/ApproveKYB"
  | .healthCheck => "/grpc.health.v1.Health/Check"
  | .healthWatch => "/grpc.health.v1.Health/Watch"
  | .reflectionAlpha => "/grpc.reflection.v1alpha.ServerReflection/ServerReflectionInfo"
  | .reflection => "/grpc.reflection.v1.ServerReflection/ServerReflectionInfo"

/-- The name under which gRPC routes the request. -/
def Request.fullMethod : Request → String
  | .settlement r => "/settla.v1.SettlementService/" ++ r.method
  | .treasury r => "/settla.v1.TreasuryService/" ++ r.method
  | .ledger r => "/settla.v1.LedgerService/" ++ r.method
  | .validateAPIKey _ => "/settla.v1.AuthService/ValidateAPIKey"
  | .portal r => "/settla.v1.TenantPortalService/" ++ r.method
  | .submitKYB _ => "/settla.v1.PortalAuthService/SubmitKYB"
  | .deposit r => "/settla.v1.DepositService/" ++ r.method
  | .bankDeposit r => "/settla.v1.BankDepositService/" ++ r.method
  | .paymentLink r => "/settla.v1.PaymentLinkService/" ++ r.method
  | .analytics r => "/settla.v1.AnalyticsService/" ++ r.method
  | .withoutKey m => m.fullMethod

/-- The methods the interceptor lets through. -/
def unauthenticatedMethods : List String :=
  ["/settla.v1.PortalAuthService/Register", "/settla.v1.PortalAuthService/Login",
    "/settla.v1.PortalAuthService/VerifyEmail", "/settla.v1.PortalAuthService/RefreshToken",
    "/grpc.health.v1.Health/Check", "/grpc.health.v1.Health/Watch",
    "/grpc.reflection.v1alpha.ServerReflection/ServerReflectionInfo",
    "/grpc.reflection.v1.ServerReflection/ServerReflectionInfo"]

/-- Let through as well: their handlers check an operations key. -/
def opsProtectedMethods : List String := ["/settla.v1.PortalAuthService/ApproveKYB"]

def allowlisted (fullMethod : String) : Bool :=
  fullMethod ∈ unauthenticatedMethods || fullMethod ∈ opsProtectedMethods

/-! ## Calls -/

/-- A unary call: its request and, if it has metadata, the values under `authorization`. -/
structure Call where
  request : Request
  metadata : Option (List String)

/-- The handler of a request. The public methods check their callers themselves; `outside` is
what they do. -/
def Request.handler (srv : Server) (outside : PublicMethod → Q) : Request → Handler
  | .settlement r => r.handler srv
  | .treasury r => r.handler srv
  | .ledger r => r.handler srv
  | .validateAPIKey keyHash => Api.validateAPIKey srv keyHash
  | .portal r => r.handler srv
  | .submitKYB m => Api.submitKYB srv m
  | .deposit r => r.handler srv
  | .bankDeposit r => r.handler srv
  | .paymentLink r => r.handler srv
  | .analytics r => r.handler srv
  | .withoutKey m => .ok (.shared, outside m)

/-- What a handler does, where a request it rejects is refused. -/
def Handler.program : Handler → Q
  | .error s => refuse (.status s)
  | .ok (_, q) => q

def trimPrefix (s pre : String) : String := if hasPrefix s pre then String.ofList (s.toList.drop pre.length) else s

/-- The key in the first `authorization` value. -/
def Call.token (c : Call) : Except Status String :=
  match c.metadata with
  | none => .error ⟨.unauthenticated, "missing metadata"⟩
  | some [] => .error ⟨.unauthenticated, "missing authorization header"⟩
  | some (value :: _) =>
    let token := trimPrefix (trimPrefix value "Bearer ") "bearer "
    if token = "" || token = value then
      .error ⟨.unauthenticated, "invalid authorization format, expected 'Bearer <key>'"⟩
    else .ok token

/-- `APIKeyAuthInterceptor` and the handler behind it. -/
def serve (srv : Server) (outside : PublicMethod → Q) (c : Call) : Q :=
  if allowlisted c.request.fullMethod then Handler.program (c.request.handler srv outside)
  else
    match c.token with
    | .error s => refuse (.status s)
    | .ok token =>
      findAPIKey srv.now (srv.hashAPIKey token) fun
        | none => refuseWith .unauthenticated "invalid API key"
        | some t =>
          if t.status ≠ .active then refuseWith .permissionDenied ("tenant is " ++ t.status.string)
          else Handler.program (c.request.handler srv outside)

end Settla.Api
