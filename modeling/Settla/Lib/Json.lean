import Mathlib.Data.Rat.Defs

/-!
# JSON values

Values as a parser returns them, the way JavaScript reads a property of one, and the way a Go
decoder fills the fields of a struct from one.
-/

namespace Lib

/-- A JSON value. Numbers are exact. -/
inductive Json
  | null
  | bool (b : Bool)
  | num (q : ℚ)
  | str (s : String)
  | arr (vs : List Json)
  | obj (fields : List (String × Json))

namespace Json

/-! ### Reading a property -/

/-- A property; the last one counts. `none` is undefined. -/
def get (key : String) : Json → Option Json
  | obj fields => ((fields.filter fun f => f.1 = key).getLast?).map (·.2)
  | _ => none

def isNull : Json → Bool
  | null => true
  | _ => false

def truthy : Json → Bool
  | null => false
  | bool b => b
  | num q => q ≠ 0
  | str s => s ≠ ""
  | arr _ => true
  | obj _ => true

def or (a b : Option Json) : Option Json :=
  match a with
  | some v => if v.truthy then some v else b
  | none => b

/-! ### Decoding into a struct -/

/-- Whether a value can be decoded into a struct at all; null leaves it as it is. -/
def isStruct : Json → Bool
  | obj _ => true
  | null => true
  | _ => false

/-- The values for a field, in the order of the text. -/
def named (name : String) : Json → List Json
  | obj fields => (fields.filter fun f => f.1.toLower = name.toLower).map (·.2)
  | _ => []

/-- Decode a scalar field written as a string, over the value it has. Null leaves it as it is;
another type, or a text that `parse` refuses, is an error. -/
def decode {α : Type*} (parse : String → Option α) (zero : α) (vs : List Json) : α × Bool :=
  vs.foldl (fun (cur, ok) v =>
    match v with
    | str s =>
      match parse s with
      | some a => (a, ok)
      | none => (cur, false)
    | null => (cur, ok)
    | _ => (cur, false)) (zero, true)

theorem named_obj_eq_nil {name : String} {fields : List (String × Json)}
    (h : ∀ f ∈ fields, f.1.toLower ≠ name.toLower) : named name (obj fields) = [] := by
  unfold named
  rw [List.map_eq_nil_iff, List.filter_eq_nil_iff]
  intro f hf
  rw [decide_eq_true_eq]
  exact h f hf

end Json

end Lib
