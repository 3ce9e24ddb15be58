import Settla.Domain.Types

/-!
# Status errors and field checks

`validation.go` and the parsers of `server.go`. Numbers and times are parsed by Go's own libraries,
which are a parameter; `uuid.Parse` is written out.
-/

namespace Settla.Api

inductive Code
  | invalidArgument | notFound | permissionDenied | unauthenticated | resourceExhausted
  | failedPrecondition | unimplemented | internal
  deriving DecidableEq

structure Status where
  code : Code
  message : String
  deriving DecidableEq

/-- Library parsers: `decimal.NewFromString`, `strconv.Atoi`, and `time.Parse` with
`RFC3339Nano`. -/
structure Parsers where
  decimal : String → Option Decimal
  atoi : String → Option ℤ
  time : String → Option Time

/-! ## UUIDs -/

def hexValue (c : Char) : Option ℕ :=
  if '0' ≤ c ∧ c ≤ '9' then some (c.toNat - '0'.toNat)
  else if 'a' ≤ c ∧ c ≤ 'f' then some (c.toNat - 'a'.toNat + 10)
  else if 'A' ≤ c ∧ c ≤ 'F' then some (c.toNat - 'A'.toNat + 10)
  else none

/-- The number that hexadecimal digits write. -/
def hexNumber (cs : List Char) : Option ℕ :=
  cs.foldl (fun acc c => acc.bind fun n => (hexValue c).map (16 * n + ·)) (some 0)

def parseCanonical (cs : List Char) : Option UUID :=
  if cs[8]? = some '-' ∧ cs[13]? = some '-' ∧ cs[18]? = some '-' ∧ cs[23]? = some '-' then
    (hexNumber (cs.take 8 ++ (cs.drop 9).take 4 ++ (cs.drop 14).take 4 ++ (cs.drop 19).take 4 ++
      (cs.drop 24).take 12)).map (BitVec.ofNat 128)
  else none

/-- `uuid.Parse`. The braces of the third form are not looked at. -/
def uuidParse (s : String) : Option UUID :=
  let cs := s.toList
  if cs.length = 36 then parseCanonical cs
  else if cs.length = 45 then
    if (cs.take 9).map Char.toLower = "urn:uuid:".toList then parseCanonical (cs.drop 9) else none
  else if cs.length = 38 then parseCanonical (cs.drop 1)
  else if cs.length = 32 then (hexNumber cs).map (BitVec.ofNat 128)
  else none

def parseUUID (s field : String) : Except Status UUID :=
  if s = "" then .error ⟨.invalidArgument, field ++ " is required"⟩
  else
    match uuidParse s with
    | none => .error ⟨.invalidArgument, field ++ " must be a valid UUID"⟩
    | some id => .ok id

/-! ## Field checks -/

def check (c : Bool) (s : Status) : Except Status Unit := if c then .ok () else .error s

def unlessEmpty (value : String) (c : Except Status Unit) : Except Status Unit := if value = "" then .ok () else c

/-- `parseUUID` on a field that may be left out. -/
def optionalUUID (s field : String) : Except Status (Option UUID) :=
  if s = "" then .ok none else (parseUUID s field).map some

def parseDecimal (p : Parsers) (s field : String) : Except Status Decimal :=
  if s = "" then .error ⟨.invalidArgument, field ++ " is required"⟩
  else
    match p.decimal s with
    | none => .error ⟨.invalidArgument, field ++ " must be a valid decimal"⟩
    | some d => .ok d

def validateDecimalAmount (p : Parsers) (value : String) : Except Status Unit :=
  check ((p.decimal value).any (0 < ·)) ⟨.invalidArgument, "[AMOUNT_INVALID] must be a positive decimal"⟩

def upperLetters (n : ℕ) (s : String) : Bool := s.toList.length = n && s.toList.all fun c => 'A' ≤ c && c ≤ 'Z'

def validateCountryCode (value : String) : Except Status Unit :=
  check (upperLetters 2 value) ⟨.invalidArgument, "[INVALID_COUNTRY] must be ISO 3166-1 alpha-2"⟩

def validateCurrencyCode (value : String) : Except Status Unit :=
  check (upperLetters 3 value) ⟨.invalidArgument, "[INVALID_CURRENCY] must be ISO 4217 alpha-3"⟩

def isSpace (c : Char) : Bool :=
  c.toNat ∈ [0x09, 0x0a, 0x0b, 0x0c, 0x0d, 0x20, 0x85, 0xa0, 0x1680, 0x2028, 0x2029, 0x202f, 0x205f, 0x3000]
    || (0x2000 ≤ c.toNat && c.toNat ≤ 0x200a)

def validateNonEmpty (field value : String) : Except Status Unit :=
  check (! value.toList.all isSpace) ⟨.invalidArgument, "[REQUIRED_" ++ toUpper field ++ "] must not be empty"⟩

def configured (service : Bool) (message : String) : Except Status Unit := check service ⟨.unimplemented, message⟩

/-! ## Pages -/

def pageSize (asked maximum default : ℤ) : ℤ := if asked ≤ 0 || maximum < asked then default else asked

/-- The page size of `ListTransfers` and `GetTransactions`: one that is too large is cut. -/
def cappedPageSize (asked : ℤ) : ℤ := if asked ≤ 0 then 50 else min asked 1000

def pageOffset (p : Parsers) (token : String) : Except Status ℤ :=
  if token = "" then .ok 0
  else
    match p.atoi token with
    | none => .error ⟨.invalidArgument, "invalid page_token"⟩
    | some n => .ok n

/-- The cursor that a `page_token` writes; the first page has none. -/
def pageCursor (p : Parsers) (token : String) : Except Status (Option Time) :=
  if token = "" then .ok none
  else
    match p.time token with
    | none => .error ⟨.invalidArgument, "invalid page_token: "⟩
    | some t => .ok (some t)

end Settla.Api
