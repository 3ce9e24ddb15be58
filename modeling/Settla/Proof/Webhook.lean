import Settla.Api.BankWebhook
import Settla.Node.Wire

/-!
# From a bank's webhook to the engine

The gateway publishes the webhook without an envelope. The subscriber looks for the data under `payload`
and `data`, finds neither, and the worker gets an event without data.
-/

namespace Settla.Api.BankWebhook

open Lib Lib.Threads Settla.Node Settla.Node.Wire List

variable (p : Platform) {s s' : Gateway} {r : Request} {env : Env}

/-! ## The gateway -/

/-- A request passes the checks: its signature is right, it has a reference, and Redis answers. -/
structure Checked (r : Request) (env : Env) (ref : Json) (del : Reply) : Prop where
  signed : ∃ secret signature, env.secret = some secret ∧ r.signature.filter (· ≠ "") = some signature ∧
    p.fromHex signature = p.hmac secret r.raw
  reference : bankReference r.parsed = some ref
  redis : env.redis = some (.ok, del)

theorem isNull_of_bankReference {body ref : Json} (h : bankReference body = some ref) : body.isNull = false := by
  cases body with
  | null => exact absurd h (by simp [bankReference, Json.get, Json.or])
  | _ => rfl

theorem handle_checked {ref : Json} {del : Reply} (h : Checked p r env ref del) :
    s.handle p r env =
      if dedupKey p r.partnerID ref ∈ s.markers then (⟨200, "duplicate"⟩, s)
      else Gateway.publish { s with markers := dedupKey p r.partnerID ref :: s.markers } env del
        (dedupKey p r.partnerID ref) (normalized r.partnerID env.now r.parsed ref) := by
  obtain ⟨secret, signature, hsecret, hsignature, hmac⟩ := h.signed
  unfold Gateway.handle
  rw [hsecret]
  rw [hsignature]
  dsimp only
  rw [if_neg (not_not_intro hmac), isNull_of_bankReference h.reference, if_neg Bool.false_ne_true, h.reference]
  rw [h.redis]
  by_cases hkey : dedupKey p r.partnerID ref ∈ s.markers
  · simp [hkey]
  · simp [hkey, Reply.applied]

theorem refused {status : ℕ} (h : status ≠ 200) (text : String) (s : Gateway) :
    (Response.mk status text, s).1.status ≠ 200 ∧ (Response.mk status text, s).2.published = s.published :=
  ⟨h, rfl⟩

theorem handle_unchecked (h : ∀ ref del, ¬ Checked p r env ref del) :
    (s.handle p r env).1.status ≠ 200 ∧ (s.handle p r env).2.published = s.published := by
  unfold Gateway.handle
  cases hsecret : env.secret with
  | none => exact refused (by decide : 403 ≠ 200) _ s
  | some secret =>
    cases hsignature : r.signature.filter (· ≠ "") with
    | none => exact refused (by decide : 401 ≠ 200) _ s
    | some signature =>
      dsimp only
      split_ifs with hmac hnull
      · exact refused (by decide : 401 ≠ 200) _ s
      · exact refused (by decide : 500 ≠ 200) _ s
      · cases href : bankReference r.parsed with
        | none => exact refused (by decide : 400 ≠ 200) _ s
        | some ref =>
          cases hredis : env.redis with
          | none => exact refused (by decide : 503 ≠ 200) _ s
          | some replies =>
            obtain ⟨set, del⟩ := replies
            have hset : set ≠ .ok := by
              rintro rfl
              exact h ref del ⟨⟨secret, signature, hsecret, hsignature, not_not.1 hmac⟩, href, hredis⟩
            dsimp only
            rw [if_pos hset]
            refine ⟨(by decide : 503 ≠ 200), ?_⟩
            split <;> rfl

/-- The gateway accepts a request: it passes the checks, and it is marked already or NATS takes the
message. -/
def Gateway.Accepts (s : Gateway) (r : Request) (env : Env) : Prop :=
  ∃ ref del, Checked p r env ref del ∧
    (dedupKey p r.partnerID ref ∈ s.markers ∨ (s.connected || env.connect) = true ∧ env.publish = true)

/-- **The answer is 200** exactly if the request is accepted. -/
theorem handle_ok_iff : (s.handle p r env).1.status = 200 ↔ s.Accepts p r env := by
  constructor
  · intro hok
    by_contra hno
    by_cases hchecked : ∃ ref del, Checked p r env ref del
    · obtain ⟨ref, del, hchecked⟩ := hchecked
      obtain ⟨hkey, hpublish⟩ := not_or.1 fun h => hno ⟨ref, del, hchecked, h⟩
      rw [handle_checked p hchecked, if_neg hkey, Gateway.publish, if_neg hpublish] at hok
      exact absurd hok (by decide : 503 ≠ 200)
    · simp only [not_exists] at hchecked
      exact (handle_unchecked p hchecked).1 hok
  · rintro ⟨ref, del, hchecked, hkey⟩
    rw [handle_checked p hchecked]
    split
    · rfl
    · next hnew =>
      rw [Gateway.publish, if_pos (hkey.resolve_left hnew)]

/-- **What is published**: nothing, or the normalised webhook. -/
theorem handle_published (s : Gateway) (r : Request) (env : Env) : (s.handle p r env).2.published = s.published ∨
    ∃ ref, (s.handle p r env).2.published = s.published ++ [normalized r.partnerID env.now r.parsed ref] := by
  by_cases hchecked : ∃ ref del, Checked p r env ref del
  · obtain ⟨ref, del, hchecked⟩ := hchecked
    rw [handle_checked p hchecked]
    split
    · exact .inl rfl
    · unfold Gateway.publish
      dsimp only
      split
      · exact .inr ⟨ref, rfl⟩
      · exact .inl rfl
  · simp only [not_exists] at hchecked
    exact .inl (handle_unchecked p hchecked).2

/-! ## The subscriber and the worker -/

variable (parsers : Wire.Parsers)

def envelopeNames : List String :=
  ["id", "tenant_id", "event_type", "created_at", "type", "timestamp", "payload", "data"]

def normalizedNames : List String :=
  ["partnerId", "accountNumber", "amount", "currency", "payerName", "payerAccountNumber", "payerReference",
    "bankReference", "receivedAt"]

theorem names_differ : ∀ key ∈ normalizedNames, ∀ name ∈ envelopeNames, key.toLower ≠ name.toLower := by
  decide +kernel

theorem named_normalized (partnerID now : String) (body ref : Json) {name : String} (h : name ∈ envelopeNames) :
    (normalized partnerID now body ref).named name = [] := by
  refine Json.named_obj_eq_nil fun f hf => names_differ f.1 ?_ name h
  obtain ⟨g, hg, hgf⟩ := mem_filterMap.1 hf
  obtain ⟨v, -, rfl⟩ := Option.map_eq_some_iff.1 hgf
  exact mem_map_of_mem (f := Prod.fst) hg

/-- **A published message** decodes to an event without a type and without data. -/
theorem unmarshalEvent_normalized (partnerID now : String) (body ref : Json) :
    unmarshalEvent parsers (normalized partnerID now body ref) = .ok ⟨UUID.nil, UUID.nil, "", 0, .null⟩ := by
  have hnamed : ∀ name ∈ envelopeNames, (normalized partnerID now body ref).named name = [] :=
    fun name h => named_normalized partnerID now body ref h
  unfold unmarshalEvent
  rw [hnamed "id" (by decide), hnamed "tenant_id" (by decide), hnamed "event_type" (by decide),
    hnamed "created_at" (by decide), hnamed "type" (by decide), hnamed "timestamp" (by decide),
    hnamed "payload" (by decide), hnamed "data" (by decide)]
  rfl

variable (index : String → Option VirtualAccountIndex)

/-- **An event without data is acknowledged**: its payload has no account number. -/
theorem handleInboundEvent_null {event : Wire.Event} (h : event.data = .null) :
    handleInboundEvent parsers index event = .ret (.ok ()) := by
  have hpayload : unmarshalInbound parsers event = .ok ⟨"", "", parsers.newFromString "", "", "", "", "", ""⟩ := by
    unfold unmarshalInbound
    rw [h]
    rfl
  unfold handleInboundEvent
  rw [hpayload]
  rfl

/-! ## Webhooks -/

structure Announced where
  accountNumber : String
  amount : Decimal
  currency : Currency
  reference : String

/-- The body of a webhook that announces a credit on a known account. The amount is a number or the
text of a decimal. -/
structure Announces (index : String → Option VirtualAccountIndex) (body : Json) (c : Announced) : Prop where
  account : Json.or (body.get "account_number") (body.get "destination_account") = some (.str c.accountNumber)
  known : (index c.accountNumber).isSome
  amount : body.get "amount" = some (.num c.amount) ∨
    ∃ text, body.get "amount" = some (.str text) ∧ parsers.newFromString text = some c.amount
  positive : 0 < c.amount
  currency : body.get "currency" = some (.str c.currency)
  reference : bankReference body = some (.str c.reference)

/-- A program calls `HandleBankCreditReceived` on a credit, for a session it can find. -/
def Calls (program : BankDeposit.Program) (credit : IncomingBankCredit) : Prop :=
  ∃ label f k a db, program = .act label f k ∧ k a db = BankDeposit.handleBankCreditReceived db.row.tenantID credit

/-- One of the messages that were published brings a credit to the engine. -/
def Reaches (s : Gateway) (c : Announced) : Prop :=
  ∃ message ∈ s.published, ∃ event payload credit,
    unmarshalEvent parsers message = .ok event ∧ unmarshalInbound parsers event = .ok payload ∧
    payload.accountNumber = c.accountNumber ∧ credit.amount = c.amount ∧ credit.currency = c.currency ∧
    credit.bankReference = c.reference ∧ Calls (handleInboundEvent parsers index event) credit

/-- Only normalised webhooks have been published. -/
def Gateway.Flat (s : Gateway) : Prop :=
  ∀ message ∈ s.published, ∃ partnerID now body ref, message = normalized partnerID now body ref

variable {p parsers}

theorem flat_handle (h : s.Flat) : (s.handle p r env).2.Flat := by
  rcases handle_published p s r env with hsame | ⟨ref, hnew⟩
  · unfold Gateway.Flat
    rw [hsame]
    exact h
  · unfold Gateway.Flat
    rw [hnew]
    exact forall_mem_snoc h ⟨r.partnerID, env.now, r.parsed, ref, rfl⟩

theorem flat_step (s : Gateway) (i : Step) (h : s.Flat) : (s.step p i).Flat := by
  cases i with
  | send r env => exact flat_handle h
  | expire key => exact h

/-- **Nothing that the gateway publishes reaches the engine.** -/
theorem not_reaches {index : String → Option VirtualAccountIndex} (h : s.Flat) (c : Announced) :
    ¬ Reaches parsers index s c := by
  rintro ⟨message, hmem, event, payload, credit, hevent, -, -, -, -, -, label, f, k, a, db, hprogram, -⟩
  obtain ⟨partnerID, now, body, ref, rfl⟩ := h message hmem
  have hdata : event.data = .null := by
    rw [unmarshalEvent_normalized] at hevent
    rw [← Except.ok.inj hevent]
  rw [handleInboundEvent_null parsers index hdata] at hprogram
  cases hprogram

variable (p parsers)

/-- **An accepted webhook reaches the engine** only in the runs in which none is accepted: the
secret is not found, or Redis does not answer, or the webhook is not marked and NATS does not take
the message. -/
theorem accepted_reaches_iff (index : String → Option VirtualAccountIndex) (markers : List String) (connected : Bool)
    (steps : List Step) :
    Along (Gateway.step p) (fun s i => ∀ r env c, i = .send r env → Announces parsers index r.parsed c →
        (s.handle p r env).1.status = 200 → Reaches parsers index (s.handle p r env).2 c)
      ⟨markers, connected, []⟩ steps ↔
    Along (Gateway.step p) (fun s i => ∀ r env c, i = .send r env → Announces parsers index r.parsed c →
        ¬ s.Accepts p r env)
      ⟨markers, connected, []⟩ steps := by
  have hflat : Gateway.Flat ⟨markers, connected, []⟩ := fun _ hmem => absurd hmem not_mem_nil
  refine along_congr (P := Gateway.Flat) (fun s i hs => ?_) (fun s i hs _ => flat_step s i hs) hflat steps
  refine forall_congr' fun r => forall_congr' fun env => forall_congr' fun c => imp_congr_right fun hi =>
    imp_congr_right fun hc => ?_
  rw [handle_ok_iff]
  constructor
  · intro hreach haccepts
    exact not_reaches (flat_handle hs) c (hreach haccepts)
  · intro hno haccepts
    exact absurd haccepts hno

def sampleBody : Json :=
  .obj [("account_number", .str "8001"), ("amount", .str "100"), ("currency", .str "GBP"), ("bank_reference", .str "FT-1")]

def sampleRequest : Request := ⟨"acme", some "00", [], sampleBody⟩

def sampleEnv : Env := ⟨some "secret", some (.ok, .ok), true, true, "2026-03-01T00:00:00Z"⟩

def samplePlatform : Platform where
  hmac := fun _ _ => [0]
  fromHex := fun _ => [0]
  text := fun v => match v with
    | .str s => s
    | _ => ""

def sampleParsers : Wire.Parsers := ⟨fun _ => none, fun _ => none, fun text => if text = "100" then some 100 else none⟩

/-- **A webhook is accepted**, with Redis and NATS at hand, and does not reach the engine. -/
theorem accepted_and_dropped :
    let index : String → Option VirtualAccountIndex := fun n => if n = "8001" then some ⟨1, .permanent⟩ else none
    let answer := Gateway.handle samplePlatform {} sampleRequest sampleEnv
    let credit : Announced := ⟨"8001", 100, "GBP", "FT-1"⟩
    Announces sampleParsers index sampleBody credit ∧ answer.1 = ⟨200, "accepted"⟩ ∧
      ¬ Reaches sampleParsers index answer.2 credit := by
  intro index answer credit
  refine ⟨⟨rfl, rfl, .inr ⟨"100", rfl, rfl⟩, by decide +kernel, rfl, rfl⟩, by decide +kernel, ?_⟩
  exact not_reaches (flat_handle fun _ hmem => absurd hmem not_mem_nil) credit

end Settla.Api.BankWebhook
