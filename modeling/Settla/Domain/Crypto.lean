import Settla.Domain.Transfer
import Settla.Lib.Threads

/-!
# Encrypted personal data

The personal data of a transfer is encrypted field by field with a key of its tenant. The cipher is a
parameter; the key manager is given by its answers, which stay the same for the fields of one row.
-/

namespace Settla.Crypto

open Lib.Threads

/-- A data encryption key. -/
abbrev DEK := List UInt8

abbrev Nonce := List UInt8

/-- An authenticated cipher: a ciphertext is opened with the key it was sealed with, and with
no other. -/
structure Cipher (C : Type) where
  gcmSeal : DEK → Nonce → String → C
  gcmOpen : DEK → C → Option String
  open_seal : ∀ dek nonce plaintext, gcmOpen dek (gcmSeal dek nonce plaintext) = some plaintext
  open_other : ∀ dek dek' nonce plaintext, dek' ≠ dek → gcmOpen dek' (gcmSeal dek nonce plaintext) = none

inductive PIIErr
  /-- `ErrInvalidDEKSize` -/
  | invalidDEKSize
  /-- `ErrTenantShredded` -/
  | tenantShredded
  /-- "settla-domain: generating nonce" -/
  | nonce
  /-- "settla-domain: decrypting PII" -/
  | decrypting
  /-- any other error of the key manager -/
  | keyManager

/-- `KeyManager`, as it answers. Versions start at one. -/
structure KeyManager where
  getDEK : UUID → Except PIIErr DEK
  getDEKVersion : UUID → ℕ → Except PIIErr DEK
  currentKeyVersion : UUID → Except PIIErr ℕ

/-- What is shown in place of shredded data. -/
def redactedPII : String := "[REDACTED]"

section

variable {C : Type} (c : Cipher C) (km : KeyManager)

/-- `EncryptPII`. There is no nonce where the random source fails. -/
def encryptPII (nonce : Option Nonce) (plaintext : String) (tenantDEK : DEK) : Except PIIErr C :=
  if tenantDEK.length ≠ 32 then .error .invalidDEKSize
  else
    match nonce with
    | none => .error .nonce
    | some n => .ok (c.gcmSeal tenantDEK n plaintext)

def decryptPII (ciphertext : C) (tenantDEK : DEK) : Except PIIErr String :=
  if tenantDEK.length ≠ 32 then .error .invalidDEKSize
  else
    match c.gcmOpen tenantDEK ciphertext with
    | none => .error .decrypting
    | some plaintext => .ok plaintext

/-- `PIIEncryptor.Encrypt`, with the current key of the tenant. -/
def encrypt (nonce : Option Nonce) (tenantID : UUID) (plaintext : String) : Except PIIErr C := do
  let dek ← km.getDEK tenantID
  encryptPII c nonce plaintext dek

/-- `PIIEncryptor.DecryptWithVersion`, for a version that is not zero. A ciphertext is never
empty. -/
def decryptWithVersion (tenantID : UUID) (ciphertext : C) (version : ℕ) : Except PIIErr String :=
  match km.getDEKVersion tenantID version with
  | .error .tenantShredded => .ok redactedPII
  | .error e => .error e
  | .ok dek => decryptPII c ciphertext dek

end

/-- A sender as it is stored: id and country in the clear. -/
structure EncryptedSender (C : Type) where
  id : UUID
  (encryptedName encryptedEmail : C)
  country : String

structure EncryptedRecipient (C : Type) where
  (encryptedName encryptedAccountNumber encryptedSortCode encryptedBankName : C)
  country : String
  encryptedIBAN : C

section

variable {C : Type} (c : Cipher C) (km : KeyManager)

/-- `EncryptSender`. The random bytes are drawn in order. -/
def encryptSender (random : ℕ → Option Nonce) (tenantID : UUID) (s : Sender) : Except PIIErr (EncryptedSender C) := do
  let name ← encrypt c km (random 0) tenantID s.name
  let email ← encrypt c km (random 1) tenantID s.email
  pure ⟨s.id, name, email, s.country⟩

def encryptRecipient (random : ℕ → Option Nonce) (tenantID : UUID) (r : Recipient) :
    Except PIIErr (EncryptedRecipient C) := do
  let name ← encrypt c km (random 2) tenantID r.name
  let account ← encrypt c km (random 3) tenantID r.accountNumber
  let sortCode ← encrypt c km (random 4) tenantID r.sortCode
  let bankName ← encrypt c km (random 5) tenantID r.bankName
  let iban ← encrypt c km (random 6) tenantID r.iban
  pure ⟨name, account, sortCode, bankName, r.country, iban⟩

def decryptSenderWithVersion (tenantID : UUID) (es : EncryptedSender C) (version : ℕ) : Except PIIErr Sender := do
  let name ← decryptWithVersion c km tenantID es.encryptedName version
  let email ← decryptWithVersion c km tenantID es.encryptedEmail version
  pure ⟨es.id, name, email, es.country⟩

def decryptRecipientWithVersion (tenantID : UUID) (er : EncryptedRecipient C) (version : ℕ) :
    Except PIIErr Recipient := do
  let name ← decryptWithVersion c km tenantID er.encryptedName version
  let account ← decryptWithVersion c km tenantID er.encryptedAccountNumber version
  let sortCode ← decryptWithVersion c km tenantID er.encryptedSortCode version
  let bankName ← decryptWithVersion c km tenantID er.encryptedBankName version
  let iban ← decryptWithVersion c km tenantID er.encryptedIBAN version
  pure ⟨name, account, sortCode, bankName, er.country, iban⟩

end

/-! ## Crypto-shredding -/

/-- The keys of each tenant, and who is shredded. -/
structure Keys where
  deks : UUID → List DEK
  shredded : UUID → Bool

/-- The replies of the three calls. -/
structure ShredEnv where
  (isTenantShredded deleteDEK markTenantShredded : Reply)

inductive ShredErr
  | checking | deleting | recording

/-- `ShredTenant`: the keys are deleted first, then the tenant is marked. -/
def Keys.shredTenant (k : Keys) (e : ShredEnv) (tenantID : UUID) : Keys × Except ShredErr Unit :=
  if e.isTenantShredded ≠ .ok then (k, .error .checking)
  else if k.shredded tenantID then (k, .ok ())
  else
    let k₁ := if e.deleteDEK.applied then { k with deks := Function.update k.deks tenantID [] } else k
    if e.deleteDEK ≠ .ok then (k₁, .error .deleting)
    else
      let k₂ := if e.markTenantShredded.applied then { k₁ with shredded := Function.update k₁.shredded tenantID true } else k₁
      -- the keys are gone also where this fails
      if e.markTenantShredded ≠ .ok then (k₂, .error .recording) else (k₂, .ok ())

end Settla.Crypto
