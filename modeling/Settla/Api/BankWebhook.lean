import Settla.Lib.Json
import Settla.Lib.Threads

/-!
# Webhooks of banking partners

`POST /webhooks/bank/:partner_id` (`bank-webhook.ts`): a webhook is checked, marked in Redis under
its bank reference, normalised and published to NATS. The hash and the texts of JavaScript values
are parameters.
-/

namespace Settla.Api.BankWebhook

open Lib Lib.Threads

structure Platform where
  /-- `createHmac("sha256", secret).update(raw).digest()` -/
  hmac : String → List UInt8 → List UInt8
  /-- `Buffer.from(text, "hex")` -/
  fromHex : String → List UInt8
  /-- a value in a template literal -/
  text : Json → String

/-- A request: the path parameter, the signature header, and the body as bytes and as parsed. -/
structure Request where
  partnerID : String
  signature : Option String
  raw : List UInt8
  parsed : Json

/-- What the handler meets: the partner's secret, the answers of Redis, NATS, and the time. -/
structure Env where
  secret : Option String
  redis : Option (Reply × Reply)
  (connect publish : Bool)
  now : String

/-- The markers in Redis, whether NATS is connected, and what was published. -/
structure Gateway where
  markers : List String := []
  connected : Bool := false
  published : List Json := []

structure Response where
  status : ℕ
  text : String
  deriving DecidableEq

def bankReference (body : Json) : Option Json :=
  match Json.or (Json.or (body.get "bank_reference") (body.get "reference")) (body.get "id") with
  | some v => if v.truthy then some v else none
  | none => none

/-- `body.a || body.b || ""`. -/
def textField (body : Json) (a b : String) : Json := (Json.or (Json.or (body.get a) (body.get b)) (some (.str ""))).getD .null

/-- `normalized`, as `JSON.stringify` writes it: properties that are undefined are left out. -/
def normalized (partnerID now : String) (body bankReference : Json) : Json :=
  .obj <| [
    ("partnerId", some (.str partnerID)),
    ("accountNumber", Json.or (body.get "account_number") (body.get "destination_account")),
    ("amount", body.get "amount"),
    ("currency", body.get "currency"),
    ("payerName", some (textField body "payer_name" "sender_name")),
    ("payerAccountNumber", some (textField body "payer_account_number" "sender_account")),
    ("payerReference", some (textField body "payer_reference" "reference")),
    ("bankReference", some bankReference),
    ("receivedAt", Json.or (Json.or (body.get "received_at") (body.get "timestamp")) (some (.str now)))].filterMap
      fun f => f.2.map fun v => (f.1, v)

variable (p : Platform)

def dedupKey (partnerID : String) (bankReference : Json) : String :=
  "bank-webhook:dedup:" ++ partnerID ++ ":" ++ p.text bankReference

/-- The end of the handler, when the marker has been set: publish, or take the marker away. -/
def Gateway.publish (s : Gateway) (env : Env) (del : Reply) (key : String) (message : Json) : Response × Gateway :=
  let connected := s.connected || env.connect
  if connected ∧ env.publish then
    (⟨200, "accepted"⟩, { s with connected, published := s.published ++ [message] })
  else
    (⟨503, "event_bus_unavailable"⟩,
      { s with connected, markers := if del.applied then s.markers.erase key else s.markers })

def Gateway.handle (s : Gateway) (r : Request) (env : Env) : Response × Gateway :=
  match env.secret with
  | none => (⟨403, "partner not configured"⟩, s)
  | some secret =>
    match r.signature.filter (· ≠ "") with
    | none => (⟨401, "missing signature"⟩, s)
    | some signature =>
      if p.fromHex signature ≠ p.hmac secret r.raw then (⟨401, "invalid signature"⟩, s)
      -- reading a property of null throws
      else if r.parsed.isNull then (⟨500, "Internal Server Error"⟩, s)
      else
        match bankReference r.parsed with
        | none => (⟨400, "missing bank_reference"⟩, s)
        | some ref =>
          let key := dedupKey p r.partnerID ref
          match env.redis with
          | none => (⟨503, "dedup_unavailable"⟩, s)
          | some (set, del) =>
            -- SET key 1 EX ttl NX
            let isSet := !s.markers.contains key
            let s := if set.applied ∧ isSet then { s with markers := key :: s.markers } else s
            if set ≠ .ok then (⟨503, "dedup_unavailable"⟩, s)
            else if ¬ isSet then (⟨200, "duplicate"⟩, s)
            else s.publish env del key (normalized r.partnerID env.now r.parsed ref)

inductive Step
  | send (r : Request) (env : Env)
  | expire (key : String)

def Gateway.step (s : Gateway) : Step → Gateway
  | .send r env => (s.handle p r env).2
  | .expire key => { s with markers := s.markers.erase key }

end Settla.Api.BankWebhook
