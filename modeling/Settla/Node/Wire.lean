import Settla.Lib.Json
import Settla.Node.BankDepositWorker

/-!
# Messages on the wire

The outbox relay writes an envelope with `event_type` and `payload`, other publishers one with `type`
and `data`. A message with neither decodes to an event without a type and without data, and data that is
nil to a payload with all fields empty. The parsers of UUIDs, times and decimals are parameters.
-/

namespace Settla.Node.Wire

open Lib

structure Parsers where
  uuid : String → Option UUID
  /-- in nanoseconds, with 0 for the zero time -/
  time : String → Option ℕ
  /-- `decimal.NewFromString` -/
  newFromString : String → Option Decimal

structure Event where
  (id tenantID : UUID)
  type : String
  timestamp : ℕ
  data : Json

variable (p : Parsers)

def unmarshalEvent (data : Json) : Except String Event :=
  let (id, idOK) := Json.decode p.uuid UUID.nil (data.named "id")
  let (tenantID, tenantOK) := Json.decode p.uuid UUID.nil (data.named "tenant_id")
  let (wireType, typeOK) := Json.decode some "" (data.named "event_type")
  let (createdAt, createdOK) := Json.decode p.time 0 (data.named "created_at")
  if ¬ (data.isStruct ∧ idOK ∧ tenantOK ∧ typeOK ∧ createdOK) then .error "settla-messaging: unmarshal wire event"
  else
    -- errors of the fallback are ignored
    let ts := (Json.decode p.time 0 (data.named "timestamp")).1
    .ok {
      id, tenantID
      type := if wireType = "" then (Json.decode some "" (data.named "type")).1 else wireType
      timestamp := if wireType = "" ∧ ts ≠ 0 then ts else createdAt
      data := ((data.named "payload").getLast?.or (data.named "data").getLast?).getD .null }

def unmarshalInbound (event : Event) : Except String InboundPayload :=
  let field (name : String) := Json.decode some "" (event.data.named name)
  if ¬ (event.data.isStruct ∧ ∀ name ∈ ["partnerId", "accountNumber", "amount", "currency", "payerName",
      "payerAccountNumber", "payerReference", "bankReference", "receivedAt"], (field name).2) then
    .error "unmarshalling re-marshalled payload"
  else
    .ok {
      partnerID := (field "partnerId").1
      accountNumber := (field "accountNumber").1
      amount := p.newFromString (field "amount").1
      currency := (field "currency").1
      payerName := (field "payerName").1
      payerAccountNumber := (field "payerAccountNumber").1
      payerReference := (field "payerReference").1
      bankReference := (field "bankReference").1 }

/-- `handleInboundBankCredit` on an event. What cannot be decoded is acknowledged. -/
def handleInboundEvent (index : String → Option VirtualAccountIndex) (event : Event) : BankDeposit.Program :=
  match unmarshalInbound p event with
  | .error _ => .ret (.ok ())
  | .ok payload => handleInboundBankCredit (index payload.accountNumber) payload

end Settla.Node.Wire
