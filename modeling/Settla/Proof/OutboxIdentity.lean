import Settla.Proof.AtRest

/-!
# The IDs of an outbox row

`CreateTransfer` draws an ID for the transfer, and the database another one for the row. The aggregate ID of
the entry is replaced only where it is nil, which it never is. The correlation ID has no column.
-/

namespace Settla.Core

open Crypto Lib

variable {C : Type}

structure PIICrypto (C : Type) where
  cipher : Cipher C
  keys : KeyManager
  random : ℕ → Option Nonce

/-- `CreateTransferWithOutbox` of an adapter with or without an encryptor. -/
def TransferDB.create (piiCrypto : Option (PIICrypto C)) (db : TransferDB C) (e : CreateEnv) (t : Transfer)
    (entries : List OutboxEntry) : Except StoreErr (TransferDB C) :=
  match piiCrypto with
  | some p => TransferDB.createTransferWithOutbox p.cipher p.keys db e p.random t entries
  | none => db.createTransferPlain e t entries

/-- What every creation does: the row is inserted under the ID of the database, and the outbox gets
the entries. -/
theorem create_outbox {piiCrypto : Option (PIICrypto C)} {db db' : TransferDB C} {e : CreateEnv} {t : Transfer}
    {entries : List OutboxEntry} (h : db.create piiCrypto e t entries = .ok db') :
    ∃ row pii, storeRow e t = some row ∧ db.transfers row.id = none ∧
      db'.transfers = Function.update db.transfers row.id (some ⟨transferColumns row, pii⟩) ∧
      db'.outbox = db.outbox ++ entries.map (createdOutboxRow { t with id := row.id, version := row.version }) := by
  cases piiCrypto
  case' none =>
    unfold TransferDB.create TransferDB.createTransferPlain at h
    dsimp only at h
  case' some p =>
    unfold TransferDB.create TransferDB.createTransferWithOutbox at h
    iterate 3 obtain ⟨_, -, h⟩ := (bind_eq_ok ..).1 h
  -- in clear or encrypted, the row is inserted in one way
  all_goals
    split at h
    · cases h
    rename_i row hrow
    split at h
    · cases h
    rename_i hfree
    cases h
    exact ⟨row, _, hrow, Option.not_isSome_iff_eq_none.1 hfree, rfl, rfl⟩

/-- The aggregate and the payload name the transfer as it is stored, and there is a column with the
correlation ID. -/
structure Identified (transferID correlationID : UUID) (r : OutboxRow) : Prop where
  aggregate : r.aggregateID = transferID
  payload : r.payload.transferID = transferID
  correlation : ∃ column : OutboxColumn, column.name = "correlation_id" ∧ r.uuid column = some correlationID

theorem no_correlation_column (column : OutboxColumn) : column.name ≠ "correlation_id" := by
  cases column <;> decide

/-- **No row of a new transfer has its IDs.** The aggregate ID is right only if the database draws
the ID that the engine has drawn, or if this is nil. -/
theorem outbox_identity_never (piiCrypto : Option (PIICrypto C)) (db db' : TransferDB C) (e : CreateEnv) (tenantID : UUID)
    (req : CreateTransferRequest) (q : Quote)
    (h : db.create piiCrypto e (newTransfer e tenantID req q) (createdEntries (newTransfer e tenantID req q)) = .ok db') :
    ∃ r, db'.outbox = db.outbox ++ [r] ∧ (db'.transfers e.rowID).isSome ∧ r.payload.transferID = e.rowID ∧
      (r.aggregateID = e.rowID ↔ e.newID = e.rowID ∨ e.newID = UUID.nil) ∧
      ¬ Identified e.rowID e.newID r := by
  obtain ⟨row, pii, hrow, -, htransfers, houtbox⟩ := create_outbox h
  have hid : row.id = e.rowID := by
    rw [storeRow_eq hrow]
  refine ⟨_, houtbox, ?_, hid, ?_, ?_⟩
  · rw [htransfers, hid, Function.update_self]
    rfl
  · show (if e.newID = UUID.nil then row.id else e.newID) = e.rowID ↔ _
    rw [hid]
    split_ifs with hnil
    · exact iff_of_true rfl (.inr hnil)
    · exact ⟨.inl, fun hor => hor.resolve_right hnil⟩
  · rintro ⟨-, -, column, hname, -⟩
    exact no_correlation_column column hname

def builtTransfer : Transfer := newTransfer (sampleEnv 7) 1 sampleRequest sampleQuote

def builtTables : TransferDB Unit where
  transfers := Function.update (fun _ => none) 7
    (some ⟨transferColumns (sampleRow 7), .plain builtTransfer.sender builtTransfer.recipient⟩)
  outbox := (createdEntries builtTransfer).map (createdOutboxRow { builtTransfer with id := 7, version := 0 })

theorem built_created :
    TransferDB.create (C := Unit) none ⟨fun _ => none, []⟩ (sampleEnv 7) builtTransfer (createdEntries builtTransfer) =
      .ok builtTables := by
  have hrow : storeRow (sampleEnv 7) builtTransfer = some (sampleRow 7) := by decide +kernel
  unfold TransferDB.create TransferDB.createTransferPlain
  rw [hrow]
  rfl

theorem built_not_identified : ∃ r, builtTables.outbox = [] ++ [r] ∧ (builtTables.transfers 7).isSome ∧
    r.payload.transferID = 7 ∧ (r.aggregateID = 7 ↔ (9 : UUID) = 7 ∨ (9 : UUID) = UUID.nil) ∧ ¬ Identified 7 9 r :=
  outbox_identity_never none ⟨fun _ => none, []⟩ builtTables (sampleEnv 7) 1 sampleRequest sampleQuote built_created

/-- **A stale aggregate ID**: the engine has drawn 9 and the database 7. -/
theorem stale_aggregate : ∃ db' : TransferDB Unit,
    TransferDB.create none ⟨fun _ => none, []⟩ (sampleEnv 7) builtTransfer (createdEntries builtTransfer) = .ok db' ∧
      (db'.transfers 7).isSome ∧ (createdEntries builtTransfer).map (·.correlationID) = [9] ∧
      db'.outbox.map (fun r => (r.aggregateID, r.payload.transferID)) = [(9, 7)] ∧
      ∀ r ∈ db'.outbox, ¬ Identified 7 9 r := by
  refine ⟨builtTables, built_created, rfl, rfl, rfl, ?_⟩
  rintro r - ⟨-, -, column, hname, -⟩
  exact no_correlation_column column hname

end Settla.Core
