import Settla.Api.Interceptor
import Settla.Proof.CreateTransfer

/-!
# Calls and the tenant of their key

Each handler keeps to the scope its request names (`Request.fits`): the tenant in `tenant_id`, or the
owner of a row found by a key. So a call stays with the tenant of its key exactly when the request names
nothing else (`tenant_bound`), and nothing checks that.
-/

namespace Settla.Api

open Settla.Core Lib.Owned List

/-! ## Programs within the rows of a tenant -/

variable {next : Q} {code : String} {transferID : UUID}

section Programs

variable {key : Option Key} {k : UUID} {srv : Server}

theorem within_getTenant {next : Option TenantRow → Q} (h : ∀ t, (next t).Within key k) :
    (getTenant k next).Within key k := ⟨rfl, fun _ _ => h _⟩

variable {id : UUID} {rs : List Row} {reason : String}

theorem within_getSession {next : Option SessionRow → Q} (h : ∀ s, (next s).Within key k) :
    (getSession k id next).Within key k := ⟨rfl, fun _ _ => h _⟩

theorem within_getPaymentLink {next : Option PaymentLink → Q} (h : ∀ l, (next l).Within key k) :
    (getPaymentLink k id next).Within key k := ⟨rfl, fun _ _ => h _⟩

theorem within_getAPIKey {next : Option APIKey → Q} (h : ∀ l, (next l).Within key k) :
    (getAPIKey k id next).Within key k := ⟨rfl, fun _ _ => h _⟩

theorem within_insertAll (hrs : ∀ r ∈ rs, r.tenantID = k ∧ ∀ c ∈ key, Row.named c r = false)
    (h : next.Within key k) : (insertAll rs next).Within key k := by
  induction rs with
  | nil => exact h
  | cons r rs ih =>
    obtain ⟨hown, hnamed⟩ := hrs r (mem_cons_self ..)
    exact ⟨hown, hnamed, ih fun s hs => hrs s (mem_cons_of_mem _ hs)⟩

theorem within_putRecords (h : next.Within none k) (ws : List (Table × UUID × String)) :
    (putRecords k ws next).Within none k := by
  induction ws with
  | nil => exact h
  | cons w ws ih => exact ⟨rfl, rfl, rfl, nofun, ih⟩

theorem within_auditLog {action : String} (h : next.Within none k) :
    (auditLog srv k action next).Within none k := by
  unfold auditLog
  split
  · exact ⟨rfl, nofun, h⟩
  · exact h

theorem within_upsertSubscriptions (h : next.Within none k) (seen ts : List String) :
    (upsertSubscriptions srv k seen ts next).Within none k := by
  induction ts generalizing seen with
  | nil => exact h
  | cons t ts ih =>
    unfold upsertSubscriptions
    split
    · trivial
    · exact ⟨rfl, nofun, ih _⟩

theorem within_quoteFor {req : QuoteRequest} {next : Quote → Q}
    (h : ∀ q : Quote, q.tenantID = k → (next q).Within none k) : (quoteFor srv k req next).Within none k := by
  refine within_getTenant fun t => ?_
  cases t with
  | none => trivial
  | some tenant =>
    dsimp only
    split
    · trivial
    · split
      · trivial
      · exact h _ rfl

/-! ### Transfers -/

theorem storedQuote_tenant {req : CreateTransferRequest} {q : Quote}
    (h : storedQuote (createEnv srv rs) k req = some q) : q.tenantID = k := by
  unfold storedQuote at h
  split at h
  · dsimp only at h
    split at h
    · simp only [createEnv, Option.bind_eq_some_iff, Option.map_eq_some_iff] at h
      obtain ⟨_, -, _, -, rfl⟩ := h
      rfl
    · cases h
  · cases h

theorem within_engineCreateTransfer (req : CreateTransferRequest) :
    (engineCreateTransfer srv k req).Within none k := by
  refine ⟨rfl, fun rs _ => within_insertAll ?_ ?_⟩
  · intro r hr
    obtain ⟨q, hq, rfl⟩ := mem_map.1 hr
    exact ⟨storedQuote_tenant (Option.mem_toList.1 hq), nofun⟩
  · split
    · trivial
    · trivial
    · rename_i t entries hcreate
      obtain ⟨hrow, -, rfl⟩ := createTransfer_row hcreate
      refine within_insertAll ?_ trivial
      intro r hr
      rcases mem_cons.1 hr with rfl | hr
      · exact ⟨hrow.tenant, nofun⟩
      · obtain ⟨e, he, rfl⟩ := mem_map.1 hr
        obtain rfl := mem_singleton.1 he
        exact ⟨rfl, nofun⟩

theorem failTransfer_tenant {t : Transfer} {st : TransferStatus} {entries : List OutboxEntry}
    (h : failTransfer reason code t = .transition st entries) : ∀ e ∈ entries, e.tenantID = t.tenantID := by
  unfold failTransfer at h
  split at h
  · cases h
  · cases h
    intro e he
    obtain ⟨e', he', rfl⟩ := mem_map.1 he
    rcases mem_append.1 he' with he' | he'
    all_goals
      obtain ⟨_, -, rfl⟩ := mem_map.1 he'
      rfl

theorem within_engineFailTransfer {tenantID : UUID}
    (hload : ∀ f : Option Transfer → Q, (∀ t, (∀ u, t = some u → u.tenantID = k) → (f t).Within key k) →
      (getTransfer tenantID transferID f).Within key k)
    (h : next.Within key k) : (engineFailTransfer tenantID transferID reason code next).Within key k := by
  refine hload _ fun t ht => ?_
  cases t with
  | none => trivial
  | some t =>
    have htenant : t.tenantID = k := ht t rfl
    dsimp only
    split
    · trivial
    · exact h
    · rename_i st entries hfail
      refine ⟨htenant, within_insertAll ?_ h⟩
      intro r hr
      obtain ⟨e, he, rfl⟩ := mem_map.1 hr
      exact ⟨(failTransfer_tenant hfail e he).trans htenant, fun c _ => by cases c <;> rfl⟩

theorem within_getTransfer (hk : k ≠ UUID.nil) {next : Option Transfer → Q}
    (h : ∀ t, (∀ u, t = some u → u.tenantID = k) → (next t).Within none k) :
    (getTransfer k transferID next).Within none k := by
  unfold getTransfer
  rw [if_neg hk]
  refine ⟨rfl, fun rs hrs => h _ fun u hu => ?_⟩
  obtain ⟨r, hr, hru⟩ := mem_filterMap.1 (List.mem_of_find?_eq_some hu)
  cases r with
  | transfer t =>
    cases hru
    exact hrs _ hr
  | _ => cases hru

theorem within_getTransfer_nil {next : Option Transfer → Q}
    (h : ∀ t, (∀ u, t = some u → u.tenantID = k) → (next t).Within (some (.transferID transferID)) k) :
    (getTransfer UUID.nil transferID next).Within (some (.transferID transferID)) k := by
  unfold getTransfer
  refine ⟨rfl, fun r hown hnamed => h _ fun u hu => ?_⟩
  cases r with
  | transfer t =>
    cases hu
    exact hown
  | _ => cases hu

/-! ### Deposit sessions -/

theorem within_createSession {req : CreateSessionRequest} {fail : SessionFault → Fault} {next : SessionRow → Q}
    (hkey : ∀ c ∈ key, ∀ s, Row.named c (.session s) = false) (h : ∀ s, (next s).Within key k) :
    (createSession srv k req fail next).Within key k := by
  refine ⟨rfl, fun rs _ => ?_⟩
  dsimp only
  -- every refusal ends the program
  repeat' split
  all_goals first | trivial | exact h _ | skip
  refine ⟨rfl, within_insertAll ?_ (h _)⟩
  intro r hr
  rcases mem_cons.1 hr with rfl | hr
  · exact ⟨rfl, fun c hc => hkey c hc _⟩
  · obtain ⟨_, -, rfl⟩ := mem_map.1 hr
    exact ⟨rfl, fun c _ => by cases c <;> rfl⟩

theorem within_engineCancelSession {sessionID : UUID} (h : next.Within none k) :
    (engineCancelSession k sessionID srv next).Within none k := by
  refine within_getSession fun s => ?_
  cases s with
  | none => trivial
  | some s =>
    dsimp only
    split
    · trivial
    · refine ⟨rfl, within_insertAll ?_ h⟩
      intro r hr
      obtain ⟨_, -, rfl⟩ := mem_map.1 hr
      exact ⟨rfl, nofun⟩

theorem within_replySession (sessionID : UUID) : (replySession k sessionID).Within key k := by
  refine within_getSession fun s => ?_
  cases s <;> trivial

end Programs

/-! ## Handlers keep to their scope -/

/-- A program keeps to a scope: it starts with an access to what the scope names, and stays
within the rows of that tenant. -/
def Scope.Fits : Scope → Q → Prop
  | .tenant k, q => q.Within none k ∧ q.Starts k
  | .named key, q => (∃ next, q = .lookup key next) ∧ ∀ k, q.Within (some key) k
  | .namedFor key k, q => (∃ next, q = .lookup key next ∧ ∀ r, Row.named key r → (next (some r)).Starts k) ∧
      q.Within (some key) k
  | .shared, q => ∃ a, q = .ret a

def Handler.Fits (h : Handler) : Prop := ∀ s q, h = .ok (s, q) → s.Fits q

section Handlers

variable {srv : Server}

theorem fits_error (e : Status) : Handler.Fits (.error e) := nofun

theorem fits_ok {s : Scope} {q : Q} (h : s.Fits q) : Handler.Fits (.ok (s, q)) := by
  intro s' q' heq
  cases heq
  exact h

theorem fits_bind {α : Type} {x : Except Status α} {f : α → Handler} (h : ∀ a, (f a).Fits) : Handler.Fits (x >>= f) := by
  cases x with
  | error e => exact fits_error e
  | ok a => exact h a

theorem fits_onTenant {k : UUID} {q : Q} (h : q.Within none k) (hs : q.Starts k) : (onTenant k q).Fits := fits_ok ⟨h, hs⟩

theorem fits_readTenant (k : UUID) (r : Read) : (readTenant srv k r).Fits := by
  refine fits_onTenant ⟨rfl, fun rs _ => ?_⟩ rfl
  dsimp only
  split <;> trivial

theorem fits_writeTenant (k : UUID) (w : Write) : (writeTenant srv k w).Fits := by
  refine fits_onTenant ⟨rfl, fun rs _ => ?_⟩ rfl
  dsimp only
  split
  · trivial
  · exact within_putRecords (by trivial) _

theorem fits_transfer {tenantID : UUID} {f : Option Transfer → Q}
    (hown : tenantID ≠ UUID.nil → (getTransfer tenantID transferID f).Within none tenantID)
    (hnil : tenantID = UUID.nil → ∀ k, (getTransfer tenantID transferID f).Within (some (.transferID transferID)) k) :
    Handler.Fits (.ok (transferScope tenantID transferID, getTransfer tenantID transferID f)) := by
  apply fits_ok
  unfold transferScope
  split
  · rename_i h
    exact ⟨⟨_, if_pos h⟩, hnil h⟩
  · rename_i h
    refine ⟨hown h, ?_⟩
    unfold getTransfer
    rw [if_neg h]
    rfl

theorem SettlementRequest.fits (r : SettlementRequest) : (r.handler srv).Fits := by
  cases r with
  | createQuote tenantId sourceCurrency sourceAmount destCurrency destCountry =>
    repeat refine fits_bind fun _ => ?_
    exact fits_onTenant (within_quoteFor fun q hq => ⟨hq, nofun, trivial⟩) rfl
  | getQuote tenantId quoteId =>
    refine fits_bind fun k => fits_bind fun id => fits_onTenant ⟨rfl, fun rs _ => ?_⟩ rfl
    dsimp only
    repeat' split
    all_goals trivial
  | createTransfer m =>
    repeat refine fits_bind fun _ => ?_
    exact fits_onTenant (within_engineCreateTransfer _) rfl
  | getTransfer tenantId transferId =>
    refine fits_bind fun k => fits_bind fun id => fits_transfer ?_ ?_
    · intro hk
      refine within_getTransfer hk fun t _ => ?_
      cases t <;> trivial
    · rintro rfl k
      refine within_getTransfer_nil fun t _ => ?_
      cases t <;> trivial
  | getTransferByExternalRef tenantId externalRef =>
    refine fits_bind fun k => fits_bind fun _ => fits_onTenant ⟨rfl, fun rs _ => ?_⟩ rfl
    dsimp only
    split <;> trivial
  | listTransfers tenantId asked pageToken statusFilter searchQuery =>
    refine fits_bind fun k => fits_bind fun offset => ?_
    split
    · exact fits_readTenant k _
    · refine fits_onTenant ⟨rfl, fun rs _ => ?_⟩ rfl
      split <;> trivial
  | cancelTransfer tenantId transferId reason =>
    refine fits_bind fun k => fits_bind fun id => fits_transfer ?_ ?_
    · intro hk
      refine within_engineFailTransfer (fun f => within_getTransfer hk) (within_getTransfer hk fun t _ => ?_)
      cases t <;> trivial
    · rintro rfl k
      refine within_engineFailTransfer (fun f => within_getTransfer_nil) (within_getTransfer_nil fun t _ => ?_)
      cases t <;> trivial
  | listTransferEvents tenantId transferId => exact fits_bind fun k => fits_bind fun _ => fits_readTenant k _
  | getRoutingOptions tenantId fromCurrency amount toCurrency =>
    repeat refine fits_bind fun _ => ?_
    exact fits_onTenant (within_quoteFor fun _ _ => trivial) rfl

theorem TreasuryRequest.fits (r : TreasuryRequest) : (r.handler srv).Fits := by
  cases r with
  | requestTopUp | requestWithdrawal =>
    repeat refine fits_bind fun _ => ?_
    exact fits_writeTenant _ _
  | _ =>
    repeat refine fits_bind fun _ => ?_
    exact fits_readTenant _ _

theorem within_verifyAccountOwnership {k : UUID} (h : next.Within none k) :
    (verifyAccountOwnership k code next).Within none k := by
  refine within_getTenant fun t => ?_
  cases t with
  | none => trivial
  | some tenant =>
    dsimp only
    split
    · exact h
    · trivial

theorem LedgerRequest.fits (r : LedgerRequest) : (r.handler srv).Fits := by
  cases r with
  | getAccounts tenantId =>
    refine fits_bind fun k => ?_
    split
    · exact fits_readTenant k _
    · exact fits_ok ⟨_, rfl⟩
  | getAccountBalance tenantId accountCode =>
    refine fits_bind fun k => fits_bind fun _ => fits_bind fun _ =>
      fits_onTenant (within_verifyAccountOwnership ⟨rfl, fun rs _ => ?_⟩) rfl
    dsimp only
    split <;> trivial
  | getTransactions tenantId accountCode start finish asked pageToken =>
    refine fits_bind fun k => fits_bind fun _ => fits_bind fun _ =>
      fits_onTenant (within_verifyAccountOwnership ?_) rfl
    split
    · trivial
    · refine ⟨rfl, fun rs _ => ?_⟩
      split <;> trivial

theorem within_findAPIKey {k : UUID} {now : Time} {hash : String} {next : Option TenantRow → Q}
    (h : ∀ t, (next t).Within (some (.keyHash hash)) k) :
    (findAPIKey now hash next).Within (some (.keyHash hash)) k := by
  refine ⟨rfl, fun r hown hnamed => ?_⟩
  cases r with
  | apiKey key =>
    obtain rfl : key.tenantID = k := hown
    dsimp only [Option.bind_some, Row.apiKey?]
    split
    · exact within_getTenant h
    · exact h none
  | _ => exact h none

theorem validateAPIKey_fits (keyHash : String) : (validateAPIKey srv keyHash).Fits := by
  refine fits_bind fun _ => ?_
  split
  · exact fits_ok ⟨⟨_, rfl⟩, fun k => within_findAPIKey fun _ => trivial⟩
  · exact fits_ok ⟨_, rfl⟩

theorem PortalRequest.fits (r : PortalRequest) : (r.handler srv).Fits := by
  cases r with
  | getMyTenant tenantId =>
    refine fits_bind fun k => fits_onTenant (within_getTenant fun t => ?_) rfl
    cases t <;> trivial
  | updateWebhookConfig tenantId webhookUrl =>
    exact fits_bind fun k => fits_bind fun _ => fits_onTenant ⟨rfl, trivial⟩ rfl
  | listAPIKeys tenantId => exact fits_bind fun k => fits_onTenant ⟨rfl, fun _ _ => trivial⟩ rfl
  | createAPIKey tenantId environment name =>
    exact fits_bind fun k => fits_bind fun _ => fits_onTenant ⟨rfl, nofun, within_auditLog trivial⟩ rfl
  | revokeAPIKey tenantId keyId =>
    refine fits_bind fun x => fits_onTenant (within_getAPIKey fun key => ?_) rfl
    cases key with
    | none => trivial
    | some key => exact ⟨rfl, within_auditLog trivial⟩
  | rotateAPIKey tenantId oldKeyId name =>
    refine fits_bind fun x => fits_onTenant (within_getAPIKey fun key => ?_) rfl
    cases key with
    | none => trivial
    | some key => exact ⟨rfl, rfl, nofun, within_auditLog trivial⟩
  | updateWebhookEventSubscriptions tenantId eventTypes =>
    refine fits_bind fun k => ?_
    split
    · exact fits_error _
    · refine fits_onTenant ⟨rfl, rfl, within_upsertSubscriptions ?_ _ _⟩ rfl
      exact ⟨rfl, trivial⟩
  | testWebhook tenantId =>
    refine fits_bind fun k => fits_onTenant (within_getTenant fun t => ?_) rfl
    cases t with
    | none => trivial
    | some t =>
      dsimp only
      split <;> trivial
  | _ =>
    repeat refine fits_bind fun _ => ?_
    exact fits_readTenant _ _

theorem submitKYB_fits (m : KYBMessage) : (submitKYB srv m).Fits := by
  repeat refine fits_bind fun _ => ?_
  refine fits_onTenant (within_getTenant fun t => ?_) rfl
  cases t with
  | none => trivial
  | some t =>
    dsimp only
    split
    · trivial
    · exact ⟨rfl, rfl, trivial⟩

theorem DepositRequest.fits (r : DepositRequest) : (r.handler srv).Fits := by
  cases r with
  | createDepositSession tenantId expectedAmount chain token idempotencyKey settlementPref ttlSeconds =>
    repeat refine fits_bind fun _ => ?_
    exact fits_onTenant (within_createSession nofun fun _ => trivial) rfl
  | getDepositSession tenantId sessionId =>
    exact fits_bind fun k => fits_bind fun id => fits_onTenant (within_replySession id) rfl
  | listDepositSessions tenantId asked pageToken =>
    exact fits_bind fun k => fits_bind fun _ => fits_onTenant ⟨rfl, fun _ _ => trivial⟩ rfl
  | cancelDepositSession tenantId sessionId =>
    exact fits_bind fun k => fits_bind fun id =>
      fits_onTenant (within_engineCancelSession (within_replySession id)) rfl
  | getDepositSessionByTxHash tenantId chain txHash =>
    refine fits_bind fun k => fits_bind fun _ => fits_bind fun _ => fits_ok ⟨⟨_, rfl, fun r hr => ?_⟩, rfl, ?_⟩
    · cases r with
      | depositTx tx => rfl
      | _ => cases hr
    · intro r hown hnamed
      cases r with
      | depositTx tx =>
        refine within_getSession fun s => ?_
        cases s <;> trivial
      | _ => cases hnamed
  | getDepositSessionPublicStatus sessionId =>
    refine fits_bind fun _ => fits_bind fun id => fits_ok ⟨⟨_, rfl⟩, fun k => ⟨rfl, fun r _ _ => ?_⟩⟩
    dsimp only
    split <;> trivial

theorem BankDepositRequest.fits (r : BankDepositRequest) : (r.handler srv).Fits := by
  cases r with
  | createBankDepositSession | cancelBankDepositSession =>
    repeat refine fits_bind fun _ => ?_
    exact fits_writeTenant _ _
  | getBankDepositSession | listBankDepositSessions | listVirtualAccounts =>
    repeat refine fits_bind fun _ => ?_
    exact fits_readTenant _ _
  | getBankingPartner partnerId =>
    refine fits_bind fun id => fits_bind fun _ => fits_ok ?_
    split
    · exact ⟨_, rfl⟩
    · exact ⟨_, rfl⟩

theorem within_resolve {k : UUID} {next : PaymentLink → Q}
    (h : ∀ l, l.tenantID = k → (next l).Within (some (.shortCode code)) k) :
    (resolve srv code next).Within (some (.shortCode code)) k := by
  refine ⟨rfl, fun r hown _ => ?_⟩
  cases r with
  | paymentLink l =>
    dsimp only [Option.bind_some, Row.paymentLink?]
    split
    · trivial
    · exact h l hown
  | _ => trivial

theorem PaymentLinkRequest.fits (r : PaymentLinkRequest) : (r.handler srv).Fits := by
  cases r with
  | createPaymentLink m =>
    repeat refine fits_bind fun _ => ?_
    refine fits_onTenant (within_getTenant fun t => ?_) rfl
    cases t with
    | none => trivial
    | some t =>
      dsimp only
      split
      · trivial
      · split
        · trivial
        · exact ⟨rfl, nofun, trivial⟩
  | getPaymentLink tenantId linkId =>
    refine fits_bind fun k => fits_bind fun id => fits_onTenant (within_getPaymentLink fun l => ?_) rfl
    cases l <;> trivial
  | listPaymentLinks tenantId asked limit offset pageToken =>
    exact fits_bind fun k => fits_bind fun _ => fits_onTenant ⟨rfl, fun _ _ => trivial⟩ rfl
  | resolvePaymentLink shortCode =>
    exact fits_bind fun _ => fits_ok ⟨⟨_, rfl⟩, fun k => within_resolve fun _ _ => trivial⟩
  | redeemPaymentLink shortCode =>
    refine fits_bind fun _ => fits_ok ⟨⟨_, rfl⟩, fun k => within_resolve fun l hl => ?_⟩
    subst hl
    refine within_createSession ?_ fun s => ⟨rfl, trivial⟩
    rintro c hc s
    cases hc
    rfl
  | disablePaymentLink tenantId linkId =>
    refine fits_bind fun k => fits_bind fun id => fits_onTenant (within_getPaymentLink fun l => ?_) rfl
    cases l with
    | none => trivial
    | some l => exact ⟨rfl, trivial⟩

theorem AnalyticsRequest.fits (r : AnalyticsRequest) : (r.handler srv).Fits := by
  cases r with
  | getReconciliationAnalytics tenantId => exact fits_bind fun _ => fits_ok ⟨_, rfl⟩
  | createExportJob =>
    repeat refine fits_bind fun _ => ?_
    exact fits_writeTenant _ _
  | _ =>
    repeat refine fits_bind fun _ => ?_
    exact fits_readTenant _ _

theorem Request.fits {r : Request} {outside : PublicMethod → Q} (h : allowlisted r.fullMethod = false) :
    (r.handler srv outside).Fits := by
  cases r with
  | settlement r | treasury r | ledger r | portal r | deposit r | bankDeposit r | paymentLink r | analytics r =>
    exact r.fits
  | validateAPIKey keyHash => exact validateAPIKey_fits keyHash
  | submitKYB m => exact submitKYB_fits m
  | withoutKey m => cases m <;> exact absurd h (by decide)

end Handlers

/-! ## Scopes and tenants -/

/-- What the request names is the tenant's own. -/
def Scope.Own (A : UUID) (db : DB) : Scope → Prop
  | .tenant k => k = A
  | .named key => ∃ r, layout.find key db = some r ∧ r.tenantID = A
  | .namedFor key k => k = A ∧ ∃ r, layout.find key db = some r ∧ r.tenantID = A
  | .shared => True

/-- The unique columns are unique: no key names rows of two tenants. -/
def Keyed (db : DB) : Prop := ∀ key, layout.Keyed key db

section Scopes

variable {A : UUID} {db db' : DB} {s : Scope} {q : Q}

theorem holds_of_find {key : Key} (hdb : Keyed db) (h : ∃ r, layout.find key db = some r ∧ r.tenantID = A) :
    layout.Holds A (some key) db := by
  obtain ⟨r, hfind, rfl⟩ := h
  rintro c hc
  cases hc
  exact ⟨⟨_, Layout.mem_rowsOf.2 ⟨List.mem_of_find?_eq_some hfind, rfl⟩, List.find?_some hfind⟩, hdb key⟩

theorem Holds.congr {key : Option Key} (h : layout.Holds A key db) (hdb' : Keyed db')
    (heq : layout.rowsOf A db' = layout.rowsOf A db) : layout.Holds A key db' := by
  intro c hc
  obtain ⟨r, hr, hn⟩ := (h c hc).1
  exact ⟨⟨r, heq ▸ hr, hn⟩, hdb' c⟩

/-- **A program touches only rows of `A` exactly when what it names is `A`'s own.** -/
theorem Scope.Fits.only_iff (hfit : s.Fits q) (hdb : Keyed db) : q.Only A db ↔ s.Own A db := by
  cases s with
  | tenant k =>
    obtain ⟨hwithin, hstarts⟩ := hfit
    constructor
    · intro honly
      exact Option.some.inj (honly _ (hstarts.mem_touched db))
    · rintro rfl
      exact hwithin.only (layout.holds_none k db)
  | named key =>
    obtain ⟨⟨next, rfl⟩, hwithin⟩ := hfit
    constructor
    · intro honly
      obtain ⟨r, hfind, hr⟩ := Option.map_eq_some_iff.1 (honly _ (mem_cons_self ..))
      exact ⟨r, hfind, hr⟩
    · intro hown
      exact (hwithin A).only (holds_of_find hdb hown)
  | namedFor key k =>
    obtain ⟨⟨next, rfl, hstarts⟩, hwithin⟩ := hfit
    constructor
    · intro honly
      obtain ⟨r, hfind, hr⟩ := Option.map_eq_some_iff.1 (honly _ (mem_cons_self ..))
      have hmem := (hstarts r (List.find?_some hfind)).mem_touched db
      rw [← hfind] at hmem
      exact ⟨Option.some.inj (honly _ (mem_cons_of_mem _ hmem)), r, hfind, hr⟩
    · rintro ⟨rfl, hown⟩
      exact hwithin.only (holds_of_find hdb hown)
  | shared =>
    obtain ⟨a, rfl⟩ := hfit
    exact ⟨fun _ => trivial, fun _ _ hx => by cases hx⟩

theorem Scope.Fits.congr (hfit : s.Fits q) (hown : s.Own A db) (hdb : Keyed db) (hdb' : Keyed db')
    (heq : layout.rowsOf A db' = layout.rowsOf A db) : (q.run db').2 = (q.run db).2 := by
  cases s with
  | tenant k =>
    obtain rfl : k = A := hown
    exact hfit.1.congr (layout.holds_none k db') (layout.holds_none k db) heq
  | named key =>
    have hholds := holds_of_find hdb hown
    exact (hfit.2 A).congr (Holds.congr hholds hdb' heq) hholds heq
  | namedFor key k =>
    obtain ⟨rfl, hown⟩ := hown
    have hholds := holds_of_find hdb hown
    exact hfit.2.congr (Holds.congr hholds hdb' heq) hholds heq
  | shared =>
    obtain ⟨a, rfl⟩ := hfit
    rfl

theorem Scope.Own.of_congr (hown : s.Own A db) (hdb : Keyed db) (hdb' : Keyed db')
    (heq : layout.rowsOf A db' = layout.rowsOf A db) : s.Own A db' := by
  have hfind {key : Key} (h : ∃ r, layout.find key db = some r ∧ r.tenantID = A) :
      ∃ r, layout.find key db' = some r ∧ r.tenantID = A := by
    obtain ⟨howns, hkeyed⟩ := (Holds.congr (holds_of_find hdb h) hdb' heq) key rfl
    obtain ⟨r, hr, hr', -⟩ := howns.find hkeyed
    exact ⟨r, hr, hr'⟩
  cases s with
  | tenant k => exact hown
  | named key => exact hfind hown
  | namedFor key k => exact ⟨hown.1, hfind hown.2⟩
  | shared => trivial

end Scopes

/-! ## Calls with a valid key -/

/-- The call carries an active API key of `A`, and `A` is an active tenant. -/
def ValidKey (srv : Server) (c : Call) (A : UUID) (db : DB) : Prop :=
  ∃ token k t, c.token = .ok token ∧ layout.find (.keyHash (srv.hashAPIKey token)) db = some (.apiKey k) ∧
    k.tenantID = A ∧ (k.isActive && k.expiresAt.all (srv.now < ·)) = true ∧
    ((layout.rowsOf A db).filterMap Row.tenant?).head? = some t ∧ t.status = .active

/-- The call reads and changes only rows of `A`; on any database with the same rows of `A` the
response is the same, and the rows of other tenants stay as they are. -/
def Bound (srv : Server) (outside : PublicMethod → Q) (c : Call) (A : UUID) (db : DB) : Prop :=
  (serve srv outside c).Only A db ∧
  ∀ db', Keyed db' → layout.rowsOf A db' = layout.rowsOf A db →
    ((serve srv outside c).run db').2 = ((serve srv outside c).run db).2 ∧
    ∀ B, B ≠ A → layout.rowsOf B ((serve srv outside c).run db').1 = layout.rowsOf B db'

section Calls

variable {srv : Server} {outside : PublicMethod → Q} {c : Call} {A : UUID} {db db' : DB}

theorem ValidKey.congr (h : ValidKey srv c A db) (hdb : Keyed db) (hdb' : Keyed db')
    (heq : layout.rowsOf A db' = layout.rowsOf A db) : ValidKey srv c A db' := by
  obtain ⟨token, k, t, htoken, hfind, hk, hactive, ht, hstatus⟩ := h
  have hholds := holds_of_find hdb ⟨_, hfind, hk⟩
  obtain ⟨howns, hkeyed⟩ := hholds _ rfl
  obtain ⟨howns', hkeyed'⟩ := (Holds.congr hholds hdb' heq) _ rfl
  have hfind' : layout.find (.keyHash (srv.hashAPIKey token)) db' = some (.apiKey k) := by
    rw [layout.find_of_owns howns' hkeyed', heq, ← layout.find_of_owns howns hkeyed, hfind]
  exact ⟨token, k, t, htoken, hfind', hk, hactive, heq ▸ ht, hstatus⟩

theorem serve_valid (hcall : allowlisted c.request.fullMethod = false) (hkey : ValidKey srv c A db) :
    (serve srv outside c).run db = (Handler.program (c.request.handler srv outside)).run db ∧
    (serve srv outside c).touched db =
      some A :: some A :: (Handler.program (c.request.handler srv outside)).touched db := by
  obtain ⟨token, k, t, htoken, hfind, rfl, hactive, ht, hstatus⟩ := hkey
  unfold serve
  rw [if_neg (by rw [hcall]; exact Bool.false_ne_true), htoken]
  simp only [findAPIKey, Query.run, Query.touched, hfind, Option.bind_some, Row.apiKey?, hactive, if_true, getTenant, ht,
    hstatus, ne_eq, not_true_eq_false, if_false, Option.map_some]
  exact ⟨trivial, rfl⟩

theorem program_only {h : Handler} (hfits : h.Fits) (hdb : Keyed db) (hown : ∀ s q, h = .ok (s, q) → s.Own A db) :
    h.program.Only A db := by
  cases h with
  | error e => exact fun _ hx => by cases hx
  | ok x => exact ((hfits x.1 x.2 rfl).only_iff hdb).2 (hown x.1 x.2 rfl)

/-- **Calls and the tenant of their key.** A call with a valid key of `A` is bound to `A` exactly
when its field checks refuse it, or what it names is `A`'s own: its `tenant_id`, the owner of the
row its key names, or both. -/
theorem tenant_bound (hcall : allowlisted c.request.fullMethod = false) (hkey : ValidKey srv c A db) (hdb : Keyed db) :
    Bound srv outside c A db ↔ ∀ s q, c.request.handler srv outside = .ok (s, q) → s.Own A db := by
  have hfits : (c.request.handler srv outside).Fits := Request.fits hcall
  constructor
  · rintro ⟨honly, -⟩ s q hq
    refine (hfits s q hq).only_iff hdb |>.1 fun x hx => ?_
    apply honly
    rw [(serve_valid hcall hkey).2, hq]
    exact mem_cons_of_mem _ (mem_cons_of_mem _ hx)
  · intro hown
    refine ⟨?_, fun db' hdb' heq => ?_⟩
    · intro x hx
      rw [(serve_valid hcall hkey).2, mem_cons, mem_cons] at hx
      rcases hx with hx | hx | hx
      · exact hx
      · exact hx
      · exact program_only hfits hdb hown x hx
    · have hkey' := hkey.congr hdb hdb' heq
      have hown' : ∀ s q, c.request.handler srv outside = .ok (s, q) → s.Own A db' :=
        fun s q hq => (hown s q hq).of_congr hdb hdb' heq
      rw [(serve_valid hcall hkey').1, (serve_valid hcall hkey).1]
      refine ⟨?_, fun B hB => (program_only hfits hdb' hown').frame hB⟩
      cases hq : c.request.handler srv outside with
      | error e => rfl
      | ok x => exact (hfits x.1 x.2 hq).congr (hown x.1 x.2 hq) hdb hdb' heq

end Calls

/-! ### Two tenants -/

/-- A server with every service. -/
def sampleServer : Server :=
  ⟨⟨fun _ => none, fun _ => none, fun _ => none⟩,
    ⟨fun _ _ => none, fun _ => false, fun _ => false, fun _ => none, fun _ _ => .ok "", fun _ _ => .ok ([], ""),
      fun _ _ => "", fun _ _ => "", fun _ => none⟩,
    id, true, true, true, true, true, true, true, true, true, true, true, true, true, true, true, true, "", 0, 20, 21, 22,
    fun _ => 23, "", ""⟩

def sampleTenant (id : UUID) (slug : String) (status : TenantStatus) : TenantRow :=
  ⟨id, slug, status, "PENDING", [], {}, "", "", [], 0, 0, 0, false, [], .hold, 0⟩

def otherTransfer : Transfer := { sampleRow 7 with tenantID := 2 }

def sampleDB : DB :=
  [.tenant (sampleTenant 1 "acme" .active),
    .apiKey ⟨10, 1, "sk_live_1", "sk_live_1", "LIVE", "", true, none⟩,
    .tenant (sampleTenant 2 "bolt" .onboarding),
    .transfer otherTransfer]

def callOf (r : Request) : Call := ⟨r, some ["Bearer sk_live_1"]⟩

def noOutside : PublicMethod → Q := fun _ => reply .empty

theorem sampleDB_keyed : Keyed sampleDB := by
  intro key r hr r' hr' h h'
  simp only [sampleDB, mem_cons, not_mem_nil, or_false] at hr hr'
  -- only one row has a hash and only one a transfer ID
  rcases hr with rfl | rfl | rfl | rfl <;> rcases hr' with rfl | rfl | rfl | rfl <;>
    first | rfl | (cases key <;> first | exact absurd h Bool.false_ne_true | exact absurd h' Bool.false_ne_true)

theorem callOf_valid (r : Request) : ValidKey sampleServer (callOf r) 1 sampleDB := by
  -- the token does not depend on the request
  have htoken : (callOf (.withoutKey .login)).token = .ok "sk_live_1" := by decide +kernel
  exact ⟨"sk_live_1", _, _, htoken, rfl, rfl, rfl, rfl, rfl⟩

def ownRequest : Request :=
  .settlement (.getTransfer "00000000-0000-0000-0000-000000000001" "00000000-0000-0000-0000-000000000007")

def foreignRequest : Request :=
  .settlement (.getTransfer "00000000-0000-0000-0000-000000000002" "00000000-0000-0000-0000-000000000007")

def nilRequest : Request :=
  .settlement (.getTransfer "00000000-0000-0000-0000-000000000000" "00000000-0000-0000-0000-000000000007")

def kybRequest : Request :=
  .submitKYB ⟨"00000000-0000-0000-0000-000000000002", "1", "GB", "ltd", "Eve", "eve@example.com", ""⟩

theorem ownRequest_bound : Bound sampleServer noOutside (callOf ownRequest) 1 sampleDB := by
  refine (tenant_bound (by decide +kernel) (callOf_valid _) sampleDB_keyed).2 ?_
  have hscope : (ownRequest.handler sampleServer noOutside).map Prod.fst = .ok (.tenant 1) := by decide +kernel
  intro s q hq
  simp only [callOf] at hq
  rw [hq] at hscope
  cases hscope
  rfl

theorem tenant_unbound :
    ValidKey sampleServer (callOf foreignRequest) 1 sampleDB ∧ Keyed sampleDB ∧
    ¬ Bound sampleServer noOutside (callOf foreignRequest) 1 sampleDB ∧
    ((serve sampleServer noOutside (callOf foreignRequest)).run sampleDB).2 = .ok (.transfer otherTransfer) ∧
    ((serve sampleServer noOutside (callOf nilRequest)).run sampleDB).2 = .ok (.transfer otherTransfer) ∧
    (((layout.rowsOf 2 ((serve sampleServer noOutside (callOf kybRequest)).run sampleDB).1).filterMap
      Row.tenant?).map TenantRow.kybStatus) = ["IN_REVIEW"] := by
  exact ⟨callOf_valid _, sampleDB_keyed, fun h => absurd h.1 (by decide +kernel), rfl, rfl, by decide +kernel⟩

end Settla.Api
