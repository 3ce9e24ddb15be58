import Settla.Core.TransferStore
import Settla.Proof.CreateTransfer

/-!
# Personal data at rest

What the tables hold for two transfers that differ in personal data only should differ in ciphertexts
only. Two writes break this: the event of a new transfer has the transfer in clear as its payload, and
the off-ramp intent has the recipient.
-/

namespace Settla.Core

open Crypto Lib List Function

/-! ## Personal data -/

def publicSender (s : Sender) : Sender := { s with name := "", email := "" }

def publicRecipient (r : Recipient) : Recipient :=
  { r with name := "", accountNumber := "", sortCode := "", bankName := "", iban := "" }

def publicPart (t : Transfer) : Transfer :=
  { t with sender := publicSender t.sender, recipient := publicRecipient t.recipient }

section Map

variable {C D : Type} (f : C → D)

def mapSender (s : EncryptedSender C) : EncryptedSender D := ⟨s.id, f s.encryptedName, f s.encryptedEmail, s.country⟩

def mapRecipient (r : EncryptedRecipient C) : EncryptedRecipient D :=
  ⟨f r.encryptedName, f r.encryptedAccountNumber, f r.encryptedSortCode, f r.encryptedBankName, r.country,
    f r.encryptedIBAN⟩

def PIIColumns.map : PIIColumns C → PIIColumns D
  | .plain s r => .plain s r
  | .encrypted version s r => .encrypted version (mapSender f s) (mapRecipient f r)

def TransferRow.map (row : TransferRow C) : TransferRow D := ⟨row.columns, row.pii.map f⟩

def TransferDB.map (db : TransferDB C) : TransferDB D := ⟨fun id => (db.transfers id).map (TransferRow.map f), db.outbox⟩

end Map

variable {C : Type} {c : Cipher C}

/-- The tables agree in everything but ciphertexts. -/
def DifferOnlyInCiphertexts (db db' : TransferDB C) : Prop := db.map (fun _ => ()) = db'.map fun _ => ()

/-- What a ciphertext shows to those who have the keys that exist. -/
def seen (c : Cipher C) (k : Keys) (ciphertext : C) : UUID → List (Option String) :=
  fun tenantID => (k.deks tenantID).map fun dek => c.gcmOpen dek ciphertext

/-- A call writes the recipient of the transfer in clear: a settlement has succeeded, and the
key of the row is there. -/
def Reveals (transferID : UUID) (version : ℕ) (dek : DEK) (db : TransferDB C) (x : StoredCall) : Prop :=
  x.transferID = transferID ∧ (∃ r, x.inv.call = .handleSettlementResult r ∧ r.success = true) ∧
    ∃ row ∈ db.transfers transferID, (x.inv.tenantID = UUID.nil ∨ row.columns.tenantID = x.inv.tenantID) ∧
      row.columns.status = .settling ∧ x.km.getDEKVersion row.columns.tenantID version = .ok dek

/-! ## Encrypted rows -/

/-- The columns of a sender and a recipient encrypted with one key. -/
def sealedColumns (c : Cipher C) (version : ℕ) (dek : DEK) (nonce : ℕ → Nonce) (s : Sender) (r : Recipient) : PIIColumns C :=
  .encrypted version ⟨s.id, c.gcmSeal dek (nonce 0) s.name, c.gcmSeal dek (nonce 1) s.email, s.country⟩
    ⟨c.gcmSeal dek (nonce 2) r.name, c.gcmSeal dek (nonce 3) r.accountNumber, c.gcmSeal dek (nonce 4) r.sortCode,
      c.gcmSeal dek (nonce 5) r.bankName, r.country, c.gcmSeal dek (nonce 6) r.iban⟩

/-- Whether a row can be read: with its key, redacted, or not at all. -/
def access (km : KeyManager) (tenantID : UUID) (version : ℕ) (dek : DEK) : Except PIIErr Bool :=
  match km.getDEKVersion tenantID version with
  | .error .tenantShredded => .ok false
  | .error e => .error e
  | .ok k => if k.length ≠ 32 then .error .invalidDEKSize else if k = dek then .ok true else .error .decrypting

def readSender (readable : Bool) (s : Sender) : Sender :=
  if readable then s else ⟨s.id, redactedPII, redactedPII, s.country⟩

def readRecipient (readable : Bool) (r : Recipient) : Recipient :=
  if readable then r else ⟨redactedPII, redactedPII, redactedPII, redactedPII, r.country, redactedPII⟩

variable {km : KeyManager} {tenantID : UUID} {version : ℕ} {dek : DEK} {nonce : ℕ → Nonce} {s s' : Sender} {r r' : Recipient}
  {columns : TransferColumns} {db db' : TransferDB C}

variable {transferID : UUID}

theorem decrypt_sealed (n : Nonce) (plaintext : String) :
    decryptWithVersion c km tenantID (c.gcmSeal dek n plaintext) version =
      (access km tenantID version dek).map fun readable => if readable then plaintext else redactedPII := by
  unfold decryptWithVersion access
  cases km.getDEKVersion tenantID version with
  | error e => cases e <;> rfl
  | ok k =>
    dsimp only
    unfold decryptPII
    split
    · rfl
    · by_cases hkey : k = dek
      · rw [hkey, c.open_seal, if_pos rfl]
        rfl
      · rw [c.open_other _ _ _ _ hkey, if_neg hkey]
        rfl

/-- **What is read back of an encrypted row.** -/
theorem load_sealed : transferFromRowWithDecrypt c km ⟨columns, sealedColumns c version dek nonce s r⟩ =
    (access km columns.tenantID version dek).map fun readable =>
      transferFromRow columns (readSender readable s) (readRecipient readable r) := by
  unfold transferFromRowWithDecrypt sealedColumns
  unfold decryptSenderWithVersion decryptRecipientWithVersion
  simp only [decrypt_sealed]
  cases access km columns.tenantID version dek with
  | error e => rfl
  | ok readable => cases readable <;> rfl

theorem readRecipient_redacted (h : publicRecipient r = publicRecipient r') :
    readRecipient false r = readRecipient false r' := by
  unfold publicRecipient at h
  simp only [Recipient.mk.injEq, true_and, and_true] at h
  unfold readRecipient
  rw [if_neg Bool.false_ne_true, if_neg Bool.false_ne_true, h]

/-! ## What the methods look at -/

def OffRamps (call : EngineCall) (status : TransferStatus) : Prop :=
  (∃ result, call = .handleSettlementResult result ∧ result.success = true) ∧ status = .settling

/-- **No other call looks at personal data.** -/
theorem plan_same (l : Lookups) {call : EngineCall} (h : ¬ OffRamps call columns.status) :
    call.plan l (transferFromRow columns s r) = call.plan l (transferFromRow columns s' r') := by
  cases call with
  | handleSettlementResult result =>
    obtain ⟨success, txHash, error⟩ := result
    cases success with
    | false => rfl
    | true =>
      have hlate : columns.status ≠ .settling := fun hstatus => h ⟨⟨_, rfl, rfl⟩, hstatus⟩
      have hrow (s : Sender) (r : Recipient) : (transferFromRow columns s r).status ≠ .settling := hlate
      show handleSettlementResult l _ _ = handleSettlementResult l _ _
      unfold handleSettlementResult
      rw [if_pos (hrow s r), if_pos (hrow s' r')]
      rfl
  | fundTransfer | initiateOnRamp | handleOnRampResult | handleOffRampResult | completeTransfer | failTransfer
  | initiateRefund | handleRefundResult =>
    rfl

def offRampPayload (l : Lookups) (txHash : String) (t : Transfer) : ProviderOffRampPayload :=
  { transferID := t.id
    tenantID := t.tenantID
    providerID := t.offRampProviderID
    amount := t.stableAmount
    fromCurrency := t.stableCoin
    toCurrency := t.destCurrency
    recipient := t.recipient
    reference := t.id.string
    alternatives := offRampFallbacks t (quoteAlternatives l t)
    quotedRate := t.fxRate
    sourceTxHash := txHash }

/-- **The call that does** writes the recipient into the off-ramp intent. -/
theorem offRamp_plan (l : Lookups) {call : EngineCall} (h : OffRamps call columns.status) : ∃ txHash, ∀ s r,
    call.plan l (transferFromRow columns s r) = .transition .offRamping
      (outboxEntries (transferFromRow columns s r) [.providerOffRamp (offRampPayload l txHash (transferFromRow columns s r))]
        (some .settlementCompleted)) := by
  obtain ⟨⟨result, rfl, hsuccess⟩, hstatus⟩ := h
  refine ⟨result.txHash, fun s r => ?_⟩
  have hrow : (transferFromRow columns s r).status = .settling := hstatus
  show handleSettlementResult l result _ = _
  unfold handleSettlementResult
  rw [if_neg (not_not.2 hrow), if_pos hsuccess]
  rfl

/-! ## Calls -/

variable {x : StoredCall}

def planRows : Plan → List OutboxRow
  | .transition _ entries => entries.map outboxRow
  | _ => []

def written (c : Cipher C) (db : TransferDB C) (x : StoredCall) : List OutboxRow :=
  match db.getTransfer c x.km x.inv.tenantID x.transferID with
  | .error _ => []
  | .ok t => planRows (x.inv.call.plan x.inv.lookups t)

def planColumns (columns : TransferColumns) : Plan → TransferColumns
  | .transition newStatus _ => { columns with status := newStatus, version := columns.version + 1 }
  | _ => columns

variable {row : TransferRow C}

theorem load_version {t : Transfer} (h : transferFromRowWithDecrypt c km row = .ok t) :
    t.version = row.columns.version := by
  unfold transferFromRowWithDecrypt at h
  split at h
  · cases h
    rfl
  · obtain ⟨sender, -, h⟩ := (bind_eq_ok _ _ _).1 h
    obtain ⟨recipient, -, h⟩ := (bind_eq_ok _ _ _).1 h
    cases h
    rfl

theorem getTransfer_of_row (h : db.transfers transferID = some row) : db.getTransfer c km tenantID transferID =
      if tenantID ≠ UUID.nil ∧ row.columns.tenantID ≠ tenantID then .error .notFound
      else piiResult (transferFromRowWithDecrypt c km row) := by
  unfold TransferDB.getTransfer
  rw [h]

theorem getTransfer_ok {t : Transfer} (h : db.getTransfer c km tenantID transferID = .ok t) :
    ∃ row, db.transfers transferID = some row ∧ t.version = row.columns.version := by
  cases hrow : db.transfers transferID with
  | none =>
    unfold TransferDB.getTransfer at h
    rw [hrow] at h
    cases h
  | some row =>
    rw [getTransfer_of_row hrow] at h
    split at h
    · cases h
    · cases hload : transferFromRowWithDecrypt c km row with
      | error e =>
        rw [hload] at h
        cases h
      | ok t' =>
        rw [hload] at h
        cases h
        exact ⟨row, rfl, load_version hload⟩

theorem call_unread {e : StoreErr} (h : db.getTransfer c x.km x.inv.tenantID x.transferID = .error e) : db.call c x = db := by
  unfold TransferDB.call
  rw [h]

/-- **What a call does** that has read the transfer: what its plan says. -/
theorem call_read {t : Transfer} (h : db.getTransfer c x.km x.inv.tenantID x.transferID = .ok t)
    (hrow : db.transfers x.transferID = some row) : db.call c x =
      { transfers := update db.transfers x.transferID
          (some ⟨planColumns row.columns (x.inv.call.plan x.inv.lookups t), row.pii⟩)
        outbox := db.outbox ++ planRows (x.inv.call.plan x.inv.lookups t) } := by
  obtain ⟨row', hrow', hversion⟩ := getTransfer_ok h
  rw [hrow] at hrow'
  cases hrow'
  have hself : update db.transfers x.transferID (some row) = db.transfers := by
    rw [← hrow, update_eq_self]
  unfold TransferDB.call
  rw [h]
  dsimp only
  cases hplan : x.inv.call.plan x.inv.lookups t with
  | refuse e | skip =>
    show db = ⟨update db.transfers x.transferID (some row), db.outbox ++ []⟩
    rw [hself, append_nil]
  | transition newStatus entries =>
    unfold TransferDB.transitionWithOutbox
    rw [hrow]
    dsimp only
    rw [if_neg (not_not.2 hversion.symm)]
    rfl

theorem call_outbox (c : Cipher C) (db : TransferDB C) (x : StoredCall) :
    (db.call c x).outbox = db.outbox ++ written c db x := by
  unfold written
  cases hget : db.getTransfer c x.km x.inv.tenantID x.transferID with
  | error e => rw [call_unread hget, append_nil]
  | ok t =>
    obtain ⟨row, hrow, -⟩ := getTransfer_ok hget
    rw [call_read hget hrow]

/-! ### Plans for two transfers -/

section Plans

variable (l : Lookups) (call : EngineCall)

theorem plan_alike : planColumns columns (call.plan l (transferFromRow columns s r)) =
      planColumns columns (call.plan l (transferFromRow columns s' r')) ∧
    (planRows (call.plan l (transferFromRow columns s r))).length =
      (planRows (call.plan l (transferFromRow columns s' r'))).length := by
  by_cases hoff : OffRamps call columns.status
  · obtain ⟨txHash, hplan⟩ := offRamp_plan l hoff
    rw [hplan, hplan]
    exact ⟨rfl, rfl⟩
  · rw [plan_same l hoff]
    exact ⟨rfl, rfl⟩

/-- **The same rows are written**, unless it is the off-ramp for different recipients. -/
theorem planRows_iff : planRows (call.plan l (transferFromRow columns s r)) =
    planRows (call.plan l (transferFromRow columns s' r')) ↔ (OffRamps call columns.status → r = r') := by
  by_cases hoff : OffRamps call columns.status
  · obtain ⟨txHash, hplan⟩ := offRamp_plan l hoff
    rw [hplan, hplan]
    constructor
    · intro heq _
      have hhead := (List.cons.inj heq).1
      have hpayload := congrArg OutboxRow.payload hhead
      injection hpayload with hbody
      injection hbody with hintent
      injection hintent with hoffRamp
      exact congrArg ProviderOffRampPayload.recipient hoffRamp
    · intro hr
      rw [hr hoff]
      rfl
  · exact ⟨fun _ h => absurd h hoff, fun _ => by rw [plan_same l hoff]⟩

end Plans

/-! ### Calls on two tables -/

/-- The tables hold the same, apart from one row with the one or the other sender and
recipient. -/
structure Twins (c : Cipher C) (transferID : UUID) (version : ℕ) (dek : DEK) (s s' : Sender) (r r' : Recipient)
    (db db' : TransferDB C) : Prop where
  others : ∀ id, id ≠ transferID → db.transfers id = db'.transfers id
  row : ∃ columns nonce nonce', db.transfers transferID = some ⟨columns, sealedColumns c version dek nonce s r⟩ ∧
    db'.transfers transferID = some ⟨columns, sealedColumns c version dek nonce' s' r'⟩

/-- **A call reads the transfer in both tables or in none**, with the same columns, and
redacted in both or in none. -/
theorem twins_read (h : Twins c transferID version dek s s' r r' db db') (x : StoredCall) :
    (∃ e, db.getTransfer c x.km x.inv.tenantID transferID = .error e ∧
      db'.getTransfer c x.km x.inv.tenantID transferID = .error e ∧ ∀ row ∈ db.transfers transferID,
        ¬ ((x.inv.tenantID = UUID.nil ∨ row.columns.tenantID = x.inv.tenantID) ∧
          access x.km row.columns.tenantID version dek = .ok true)) ∨
    ∃ columns readable nonce nonce',
      db.transfers transferID = some ⟨columns, sealedColumns c version dek nonce s r⟩ ∧
      db'.transfers transferID = some ⟨columns, sealedColumns c version dek nonce' s' r'⟩ ∧
      (x.inv.tenantID = UUID.nil ∨ columns.tenantID = x.inv.tenantID) ∧
      access x.km columns.tenantID version dek = .ok readable ∧
      db.getTransfer c x.km x.inv.tenantID transferID =
        .ok (transferFromRow columns (readSender readable s) (readRecipient readable r)) ∧
      db'.getTransfer c x.km x.inv.tenantID transferID =
        .ok (transferFromRow columns (readSender readable s') (readRecipient readable r')) := by
  obtain ⟨columns, nonce, nonce', hrow, hrow'⟩ := h.row
  rw [getTransfer_of_row hrow, getTransfer_of_row hrow', load_sealed, load_sealed]
  by_cases htenant : x.inv.tenantID ≠ UUID.nil ∧ columns.tenantID ≠ x.inv.tenantID
  · rw [if_pos htenant, if_pos htenant]
    refine .inl ⟨_, rfl, rfl, fun row hmem hok => ?_⟩
    rw [hrow] at hmem
    cases hmem
    exact hok.1.elim htenant.1 htenant.2
  · rw [if_neg htenant, if_neg htenant]
    cases haccess : access x.km columns.tenantID version dek with
    | error e =>
      refine .inl ⟨_, rfl, rfl, fun row hmem hok => ?_⟩
      rw [hrow] at hmem
      cases hmem
      rw [haccess] at hok
      cases hok.2
    | ok readable =>
      refine .inr ⟨columns, readable, nonce, nonce', hrow, hrow', ?_, haccess, rfl, rfl⟩
      rw [not_and_or, not_not, not_not] at htenant
      exact htenant

theorem access_true (hlen : dek.length = 32) : access km tenantID version dek = .ok true ↔
    km.getDEKVersion tenantID version = .ok dek := by
  unfold access
  constructor
  · intro h
    split at h
    · cases h
    · cases h
    · rename_i k hk
      split at h
      · cases h
      · split at h
        · rename_i hkey
          rw [hk, hkey]
        · cases h
  · intro h
    rw [h]
    dsimp only
    rw [if_neg (not_not.2 hlen), if_pos rfl]

theorem getTransfer_other (h : db.transfers transferID = db'.transfers transferID) :
    db.getTransfer c km tenantID transferID = db'.getTransfer c km tenantID transferID := by
  unfold TransferDB.getTransfer
  rw [h]

/-- **Calls keep the tables alike.** -/
theorem twins_call (h : Twins c transferID version dek s s' r r' db db') (x : StoredCall) :
    Twins c transferID version dek s s' r r' (db.call c x) (db'.call c x) := by
  by_cases hx : x.transferID = transferID
  · subst hx
    rcases twins_read h x with ⟨e, hget, hget', -⟩ | ⟨columns, readable, nonce, nonce', hrow, hrow', -, -, hget, hget'⟩
    · rw [call_unread hget, call_unread hget']
      exact h
    · rw [call_read hget hrow, call_read hget' hrow']
      refine ⟨fun id hid => ?_, ?_⟩
      · dsimp only
        rw [update_of_ne hid, update_of_ne hid]
        exact h.others id hid
      · refine ⟨_, nonce, nonce', update_self _ _ _, ?_⟩
        dsimp only
        rw [update_self, (plan_alike _ _).1]
  · have hsame := h.others x.transferID hx
    obtain ⟨columns, nonce, nonce', hrow, hrow'⟩ := h.row
    cases hget : db.getTransfer c x.km x.inv.tenantID x.transferID with
    | error e =>
      rw [call_unread hget, call_unread ((getTransfer_other hsame).symm.trans hget)]
      exact h
    | ok t =>
      obtain ⟨row, hother, -⟩ := getTransfer_ok hget
      rw [call_read hget hother, call_read ((getTransfer_other hsame).symm.trans hget) (hsame.symm.trans hother)]
      refine ⟨fun id hid => ?_, columns, nonce, nonce', ?_, ?_⟩
      · dsimp only
        by_cases hid' : id = x.transferID
        · rw [hid', update_self, update_self]
        · rw [update_of_ne hid', update_of_ne hid']
          exact h.others id hid
      · exact (update_of_ne (Ne.symm hx) _ _).trans hrow
      · exact (update_of_ne (Ne.symm hx) _ _).trans hrow'

theorem written_length (h : Twins c transferID version dek s s' r r' db db') (x : StoredCall) :
    (written c db x).length = (written c db' x).length := by
  unfold written
  by_cases hx : x.transferID = transferID
  · subst hx
    rcases twins_read h x with ⟨e, hget, hget', -⟩ | ⟨columns, readable, nonce, nonce', -, -, -, -, hget, hget'⟩
    · rw [hget, hget']
    · rw [hget, hget']
      exact (plan_alike _ _).2
  · rw [getTransfer_other (h.others x.transferID hx)]

/-- **A call writes the same to both**, unless it reveals different recipients. -/
theorem written_iff (h : Twins c transferID version dek s s' r r' db db') (hlen : dek.length = 32)
    (hr : publicRecipient r = publicRecipient r') (x : StoredCall) :
    written c db x = written c db' x ↔ (Reveals transferID version dek db x → r = r') := by
  unfold written
  by_cases hx : x.transferID = transferID
  · subst hx
    rcases twins_read h x with
      ⟨e, hget, hget', hno⟩ | ⟨columns, readable, nonce, nonce', hrow, -, htenant, haccess, hget, hget'⟩
    · rw [hget, hget']
      refine ⟨fun _ hrev => ?_, fun _ => rfl⟩
      obtain ⟨-, -, row, hrow, htenant, -, hkey⟩ := hrev
      exact absurd ⟨htenant, (access_true hlen).2 hkey⟩ (hno row hrow)
    · rw [hget, hget']
      rw [planRows_iff]
      cases readable with
      | true =>
        refine imp_congr_left ⟨fun hoff => ?_, fun hrev => ?_⟩
        · exact ⟨rfl, hoff.1, _, hrow, htenant, hoff.2, (access_true hlen).1 haccess⟩
        · obtain ⟨-, hcall, row, hrow', -, hstatus, -⟩ := hrev
          rw [hrow] at hrow'
          cases hrow'
          exact ⟨hcall, hstatus⟩
      | false =>
        refine ⟨fun _ hrev => ?_, fun _ _ => readRecipient_redacted hr⟩
        obtain ⟨-, -, row, hrow', -, -, hkey⟩ := hrev
        rw [hrow] at hrow'
        cases hrow'
        have htrue := (access_true hlen).2 hkey
        rw [haccess] at htrue
        cases htrue
  · rw [getTransfer_other (h.others x.transferID hx)]
    exact ⟨fun _ hrev => absurd hrev.1 hx, fun _ => rfl⟩

/-! ## Creating the transfer -/

variable {e : CreateEnv} {random random' : ℕ → Option Nonce} {t t' : Transfer} {entries : List OutboxEntry}
  {db₁ db₁' : TransferDB C}

def drawn (random : ℕ → Option Nonce) (i : ℕ) : Nonce := (random i).getD []

theorem encrypt_ok {i : ℕ} {plaintext : String} {ciphertext : C} (hdek : km.getDEK tenantID = .ok dek)
    (h : encrypt c km (random i) tenantID plaintext = .ok ciphertext) :
    dek.length = 32 ∧ ciphertext = c.gcmSeal dek (drawn random i) plaintext := by
  unfold encrypt at h
  rw [hdek] at h
  have h : encryptPII c (random i) plaintext dek = .ok ciphertext := h
  unfold encryptPII at h
  split at h
  · cases h
  · rename_i hlen
    split at h
    · cases h
    · rename_i n hn
      cases h
      refine ⟨not_not.1 hlen, ?_⟩
      rw [drawn, hn]
      rfl

theorem encryptSender_ok {es : EncryptedSender C} (hdek : km.getDEK tenantID = .ok dek)
    (h : encryptSender c km random tenantID s = .ok es) : dek.length = 32 ∧ es =
      ⟨s.id, c.gcmSeal dek (drawn random 0) s.name, c.gcmSeal dek (drawn random 1) s.email, s.country⟩ := by
  obtain ⟨name, hname, h⟩ := (bind_eq_ok _ _ _).1 h
  obtain ⟨email, hemail, h⟩ := (bind_eq_ok _ _ _).1 h
  cases h
  obtain ⟨hlen, rfl⟩ := encrypt_ok hdek hname
  obtain ⟨-, rfl⟩ := encrypt_ok hdek hemail
  exact ⟨hlen, rfl⟩

theorem encryptRecipient_ok {er : EncryptedRecipient C} (hdek : km.getDEK tenantID = .ok dek)
    (h : encryptRecipient c km random tenantID r = .ok er) : er =
      ⟨c.gcmSeal dek (drawn random 2) r.name, c.gcmSeal dek (drawn random 3) r.accountNumber,
        c.gcmSeal dek (drawn random 4) r.sortCode, c.gcmSeal dek (drawn random 5) r.bankName, r.country,
        c.gcmSeal dek (drawn random 6) r.iban⟩ := by
  obtain ⟨name, hname, h⟩ := (bind_eq_ok _ _ _).1 h
  obtain ⟨account, haccount, h⟩ := (bind_eq_ok _ _ _).1 h
  obtain ⟨sortCode, hsortCode, h⟩ := (bind_eq_ok _ _ _).1 h
  obtain ⟨bankName, hbankName, h⟩ := (bind_eq_ok _ _ _).1 h
  obtain ⟨iban, hiban, h⟩ := (bind_eq_ok _ _ _).1 h
  cases h
  obtain ⟨-, rfl⟩ := encrypt_ok hdek hname
  obtain ⟨-, rfl⟩ := encrypt_ok hdek haccount
  obtain ⟨-, rfl⟩ := encrypt_ok hdek hsortCode
  obtain ⟨-, rfl⟩ := encrypt_ok hdek hbankName
  obtain ⟨-, rfl⟩ := encrypt_ok hdek hiban
  rfl

theorem piiResult_ok {α : Type} {x : Except PIIErr α} {a : α} (h : piiResult x = .ok a) : x = .ok a := by
  cases x with
  | error e => cases h
  | ok b => cases h; rfl

theorem create_ok (h : db.createTransferWithOutbox c km e random t entries = .ok db₁)
    (hversion : km.currentKeyVersion t.tenantID = .ok version) (hdek : km.getDEK t.tenantID = .ok dek) :
    dek.length = 32 ∧ ∃ row, storeRow e t = some row ∧ db₁ =
      { transfers := update db.transfers row.id
          (some ⟨transferColumns row, sealedColumns c version dek (drawn random) t.sender t.recipient⟩)
        outbox := db.outbox ++ entries.map (createdOutboxRow { t with id := row.id, version := row.version }) } := by
  obtain ⟨keyVer, hkeyVer, h⟩ := (bind_eq_ok _ _ _).1 h
  obtain ⟨es, hes, h⟩ := (bind_eq_ok _ _ _).1 h
  obtain ⟨er, her, h⟩ := (bind_eq_ok _ _ _).1 h
  have hkeyVer := piiResult_ok hkeyVer
  rw [hversion] at hkeyVer
  cases hkeyVer
  obtain ⟨hlen, rfl⟩ := encryptSender_ok hdek (piiResult_ok hes)
  obtain rfl := encryptRecipient_ok hdek (piiResult_ok her)
  split at h
  · cases h
  · rename_i row hrow
    refine ⟨hlen, row, hrow, ?_⟩
    split at h
    · cases h
    · cases h
      rfl

theorem publicPart_eq (h : publicPart t = publicPart t') : ∃ s r, t' = { t with sender := s, recipient := r } := by
  refine ⟨t'.sender, t'.recipient, ?_⟩
  cases t
  cases t'
  simp only [publicPart, Transfer.mk.injEq] at h ⊢
  simp only [h, and_self]

theorem storeRow_public (e : CreateEnv) (t : Transfer) (s : Sender) (r : Recipient) :
    storeRow e { t with sender := s, recipient := r } =
      (storeRow e t).map fun row => { row with sender := s, recipient := r } := by
  unfold storeRow
  split <;> rfl

theorem createdRows_iff (hid : t.id = t'.id) : entries.map (createdOutboxRow t) = entries.map (createdOutboxRow t') ↔
    ((∃ x ∈ entries, OutboxEntry.isTransferEvent x = true) → t = t') := by
  constructor
  · rintro heq ⟨x, hx, hevent⟩
    have hrow := (map_inj_left.1 heq) x hx
    have hpayload := congrArg OutboxRow.payload hrow
    simp only [createdOutboxRow, if_pos hevent] at hpayload
    injection hpayload
  · intro h
    refine map_congr_left fun x hx => ?_
    by_cases hevent : OutboxEntry.isTransferEvent x = true
    · rw [h ⟨x, hx, hevent⟩]
    · simp only [createdOutboxRow, if_neg hevent, hid]

/-! ## Both tables after any calls -/

theorem twins_view {D : Type} {f : C → D} (h : Twins c transferID version dek s s' r r' db db')
    (hs : publicSender s = publicSender s') (hr : publicRecipient r = publicRecipient r') {d : D}
    (hf : ∀ n p, f (c.gcmSeal dek n p) = d) : db.map f = db'.map f ↔ db.outbox = db'.outbox := by
  refine ⟨congrArg TransferDB.outbox, fun hout => ?_⟩
  have hrows : (fun id => (db.transfers id).map (TransferRow.map f)) =
      fun id => (db'.transfers id).map (TransferRow.map f) := by
    funext id
    by_cases hid : id = transferID
    · obtain ⟨columns, nonce, nonce', hrow, hrow'⟩ := h.row
      have hsender : (publicSender s).id = (publicSender s').id := congrArg Sender.id hs
      have hcountry : (publicSender s).country = (publicSender s').country := congrArg Sender.country hs
      have hcountry' : (publicRecipient r).country = (publicRecipient r').country := congrArg Recipient.country hr
      dsimp only [publicSender, publicRecipient] at hsender hcountry hcountry'
      rw [hid, hrow, hrow']
      simp only [Option.map_some, TransferRow.map, sealedColumns, PIIColumns.map, mapSender, mapRecipient, hsender,
        hcountry, hcountry', hf]
    · rw [h.others id hid]
  unfold TransferDB.map
  rw [hrows, hout]

theorem shred_deks {k : Keys} {env : ShredEnv} (hrecorded : k.shredded tenantID = true → k.deks tenantID = [])
    (hok : (k.shredTenant env tenantID).2 = .ok ()) :
    (k.shredTenant env tenantID).1.deks = update k.deks tenantID [] := by
  unfold Keys.shredTenant at hok ⊢
  split at hok
  · cases hok
  rename_i hcheck
  rw [if_neg hcheck]
  split at hok
  · rename_i hshredded
    rw [if_pos hshredded, ← hrecorded hshredded, update_eq_self]
  rename_i hshredded
  rw [if_neg hshredded]
  dsimp only at hok ⊢
  split at hok
  · cases hok
  rename_i hdelete
  have happlied : env.deleteDEK.applied = true := by rw [not_not.1 hdelete]; rfl
  split at hok
  · cases hok
  rename_i hmark
  rw [if_neg hdelete, if_neg hmark, happlied, not_not.1 hmark]
  rfl

/-- **Without its key a ciphertext shows nothing.** -/
theorem seen_sealed {k : Keys} (hdek : ∀ u, dek ∉ k.deks u) (n : Nonce) (p : String) :
    seen c k (c.gcmSeal dek n p) = fun u => (k.deks u).map fun _ => none := by
  funext u
  refine map_congr_left fun dek' hmem => c.open_other _ _ _ _ ?_
  rintro rfl
  exact hdek u hmem

theorem created_twins (hpublic : publicPart t = publicPart t')
    (hversion : km.currentKeyVersion t.tenantID = .ok version) (hdek : km.getDEK t.tenantID = .ok dek)
    (h : db.createTransferWithOutbox c km e random t entries = .ok db₁)
    (h' : db.createTransferWithOutbox c km e random' t' entries = .ok db₁') :
    dek.length = 32 ∧ Twins c e.rowID version dek t.sender t'.sender t.recipient t'.recipient db₁ db₁' ∧
      db₁.outbox.length = db₁'.outbox.length ∧
      (db₁.outbox = db₁'.outbox ↔ ((∃ x ∈ entries, OutboxEntry.isTransferEvent x = true) → t = t')) := by
  obtain ⟨s', r', rfl⟩ := publicPart_eq hpublic
  obtain ⟨hlen, row, hrow, rfl⟩ := create_ok h hversion hdek
  obtain ⟨-, row', hrow', rfl⟩ := create_ok h' hversion hdek
  rw [storeRow_public, hrow] at hrow'
  obtain rfl : { row with sender := s', recipient := r' } = row' := Option.some.inj hrow'
  have hid : row.id = e.rowID := by rw [storeRow_eq hrow]
  refine ⟨hlen, ⟨fun id hne => ?_, transferColumns row, drawn random, drawn random', ?_, ?_⟩, ?_, ?_⟩
  · dsimp only
    rw [hid, update_of_ne hne, update_of_ne hne]
  · rw [← hid]
    exact update_self _ _ _
  · rw [← hid]
    exact update_self _ _ _
  · simp only [length_append, length_map]
  · dsimp only
    rw [append_cancel_left_eq]
    refine (createdRows_iff ?_).trans (imp_congr_right fun _ => ?_)
    · rfl
    -- both sides say that senders and recipients are the same
    · cases t
      simp only [Transfer.mk.injEq, true_and, and_true]

/-- **What is stored of two transfers that differ in personal data only** differs in ciphertexts
only exactly if no event of the new transfer was written and no call has revealed the recipient; or
the data that was written is the same. -/
theorem stored_iff (c : Cipher C) (hpublic : publicPart t = publicPart t')
    (hversion : km.currentKeyVersion t.tenantID = .ok version) (hdek : km.getDEK t.tenantID = .ok dek)
    (h : db.createTransferWithOutbox c km e random t entries = .ok db₁)
    (h' : db.createTransferWithOutbox c km e random' t' entries = .ok db₁') (xs : List StoredCall) :
    (DifferOnlyInCiphertexts (run (TransferDB.call c) db₁ xs) (run (TransferDB.call c) db₁' xs) ↔
      ((∃ x ∈ entries, OutboxEntry.isTransferEvent x = true) → t = t') ∧
        Along (TransferDB.call c) (fun db x => Reveals e.rowID version dek db x → t.recipient = t'.recipient) db₁ xs) ∧
    ∀ (k : Keys) (env : ShredEnv), (k.shredded t.tenantID = true → k.deks t.tenantID = []) →
      (∀ u, dek ∈ k.deks u → u = t.tenantID) → (k.shredTenant env t.tenantID).2 = .ok () →
      ((run (TransferDB.call c) db₁ xs).map (seen c (k.shredTenant env t.tenantID).1) =
          (run (TransferDB.call c) db₁' xs).map (seen c (k.shredTenant env t.tenantID).1) ↔
        ((∃ x ∈ entries, OutboxEntry.isTransferEvent x = true) → t = t') ∧
          Along (TransferDB.call c) (fun db x => Reveals e.rowID version dek db x → t.recipient = t'.recipient) db₁ xs) := by
  have hs : publicSender t.sender = publicSender t'.sender := congrArg Transfer.sender hpublic
  have hr : publicRecipient t.recipient = publicRecipient t'.recipient := congrArg Transfer.recipient hpublic
  obtain ⟨hlen, htwins, hlength, hcreated⟩ := created_twins hpublic hversion hdek h h'
  have hstep : ∀ db db' x, Twins c e.rowID version dek t.sender t'.sender t.recipient t'.recipient db db' →
      Twins c e.rowID version dek t.sender t'.sender t.recipient t'.recipient (db.call c x) (db'.call c x) :=
    fun _ _ x htwins => twins_call htwins x
  have hrun := run_related hstep htwins xs
  have hout := logs_agree_iff hstep (call_outbox c)
    (fun _ _ x htwins => written_length htwins x) (fun _ _ x htwins => written_iff htwins hlen hr x) htwins hlength xs
  rw [hcreated] at hout
  refine ⟨(twins_view hrun hs hr fun _ _ => rfl).trans hout, fun k env hrecorded hown hok => ?_⟩
  have hgone : ∀ u, dek ∉ (k.shredTenant env t.tenantID).1.deks u := by
    intro u hmem
    rw [shred_deks hrecorded hok] at hmem
    by_cases hu : u = t.tenantID
    · rw [hu, update_self] at hmem
      cases hmem
    · rw [update_of_ne hu] at hmem
      exact hu (hown u hmem)
  exact (twins_view hrun hs hr (seen_sealed hgone)).trans hout

def boxes : Cipher (DEK × Nonce × String) where
  gcmSeal := fun dek nonce plaintext => (dek, nonce, plaintext)
  gcmOpen := fun dek box => if box.1 = dek then some box.2.2 else none
  open_seal := fun _ _ _ => if_pos rfl
  open_other := fun _ _ _ _ hne => if_neg (Ne.symm hne)

def sampleDEK : DEK := List.replicate 32 0

def sampleKeyManager : KeyManager := ⟨fun _ => .ok sampleDEK, fun _ _ => .ok sampleDEK, fun _ => .ok 1⟩

def otherRow (rowID : UUID) : Transfer := { sampleRow rowID with recipient := ⟨"Chidi", "", "", "", "NG", ""⟩ }

def sampleCreated (t : Transfer) (entries : List OutboxEntry) : Except StoreErr (TransferDB (DEK × Nonce × String)) :=
  TransferDB.createTransferWithOutbox boxes sampleKeyManager ⟨fun _ => none, []⟩ (sampleEnv 7) (fun _ => some []) t entries

theorem sampleCreated_eq (h : storeRow (sampleEnv 7) t = some t) (entries : List OutboxEntry) :
    sampleCreated t entries = .ok
      { transfers := update (fun _ => none) t.id
          (some ⟨transferColumns t, sealedColumns boxes 1 sampleDEK (fun _ => []) t.sender t.recipient⟩)
        outbox := entries.map (createdOutboxRow t) } := by
  have hsender : encryptSender boxes sampleKeyManager (fun _ => some []) t.tenantID t.sender =
      .ok ⟨t.sender.id, boxes.gcmSeal sampleDEK [] t.sender.name,
        boxes.gcmSeal sampleDEK [] t.sender.email, t.sender.country⟩ := rfl
  have hrecipient : encryptRecipient boxes sampleKeyManager (fun _ => some []) t.tenantID t.recipient =
      .ok ⟨boxes.gcmSeal sampleDEK [] t.recipient.name, boxes.gcmSeal sampleDEK [] t.recipient.accountNumber,
        boxes.gcmSeal sampleDEK [] t.recipient.sortCode, boxes.gcmSeal sampleDEK [] t.recipient.bankName,
        t.recipient.country, boxes.gcmSeal sampleDEK [] t.recipient.iban⟩ := rfl
  unfold sampleCreated TransferDB.createTransferWithOutbox
  rw [hsender, hrecipient, h]
  rfl

theorem sampleRow_stored : storeRow (sampleEnv 7) (sampleRow 7) = some (sampleRow 7) := by decide +kernel

theorem otherRow_stored : storeRow (sampleEnv 7) (otherRow 7) = some (otherRow 7) := by decide +kernel

theorem funded_alike : ∃ db₁ db₁', sampleCreated (sampleRow 7) [] = .ok db₁ ∧ sampleCreated (otherRow 7) [] = .ok db₁' ∧
    DifferOnlyInCiphertexts (db₁.call boxes ⟨sampleKeyManager, 7, ofTenant .fundTransfer⟩)
      (db₁'.call boxes ⟨sampleKeyManager, 7, ofTenant .fundTransfer⟩) := by
  have h := sampleCreated_eq sampleRow_stored []
  have h' := sampleCreated_eq otherRow_stored []
  have hpublic : publicPart (sampleRow 7) = publicPart (otherRow 7) := rfl
  refine ⟨_, _, h, h',
    (stored_iff boxes hpublic rfl rfl h h' [⟨sampleKeyManager, 7, ofTenant .fundTransfer⟩]).1.2 ⟨?_, ?_, trivial⟩⟩
  · rintro ⟨x, hx, -⟩
    cases hx
  · rintro ⟨-, ⟨result, hcall, -⟩, -⟩
    cases hcall

/-- **Personal data is stored in clear**: the event of a new transfer has the recipient, and
still has it after the tenant was shredded. -/
theorem recipient_in_clear : ∃ db₁ db₁', publicPart (sampleRow 7) = publicPart (otherRow 7) ∧
    sampleCreated (sampleRow 7) (sampleEntries 7) = .ok db₁ ∧ sampleCreated (otherRow 7) (sampleEntries 7) = .ok db₁' ∧
    ¬ DifferOnlyInCiphertexts db₁ db₁' ∧
    ∀ k : Keys, db₁.map (seen boxes (k.shredTenant ⟨.ok, .ok, .ok⟩ 1).1) ≠
      db₁'.map (seen boxes (k.shredTenant ⟨.ok, .ok, .ok⟩ 1).1) := by
  have h := sampleCreated_eq sampleRow_stored (sampleEntries 7)
  have h' := sampleCreated_eq otherRow_stored (sampleEntries 7)
  have hout : (sampleEntries 7).map (createdOutboxRow (sampleRow 7)) ≠
      (sampleEntries 7).map (createdOutboxRow (otherRow 7)) := by
    decide +kernel
  refine ⟨_, _, rfl, h, h', fun heq => hout ?_, fun k heq => hout ?_⟩
  · exact congrArg TransferDB.outbox heq
  · exact congrArg TransferDB.outbox heq

end Settla.Core
