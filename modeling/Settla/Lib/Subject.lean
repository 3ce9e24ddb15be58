import Mathlib.Data.List.Basic
import Mathlib.Data.Nat.Basic

/-!
# Subjects and patterns

Subjects of a message broker are words separated by dots. In a pattern the word `*` stands
for any word and a last `>` for one or more words.
-/

namespace Lib

open List

def tokens : List Char → List (List Char)
  | [] => [[]]
  | c :: cs =>
    if c = '.' then [] :: tokens cs
    else
      match tokens cs with
      | [] => [[c]]
      | t :: ts => (c :: t) :: ts

/-- Match the words of a subject with those of a pattern. -/
def matchTokens : List (List Char) → List (List Char) → Bool
  | [], [] => true
  | p :: ps, t :: ts => (p = ['>'] && ps.isEmpty) || ((p = ['*'] || p = t) && matchTokens ps ts)
  | _, _ => false

def subjectMatches (pattern subject : String) : Bool := matchTokens (tokens pattern.toList) (tokens subject.toList)

theorem tokens_ne_nil (cs : List Char) : tokens cs ≠ [] := by
  rcases cs with _ | ⟨c, cs⟩
  · nofun
  · rw [tokens]
    split
    · nofun
    · split <;> nofun

theorem tokens_dot (xs ys : List Char) : tokens (xs ++ '.' :: ys) = tokens xs ++ tokens ys := by
  induction xs with
  | nil => rfl
  | cons x xs ih =>
    rw [cons_append, tokens, tokens, ih]
    split
    · rfl
    · obtain ⟨t, ts, h⟩ := exists_cons_of_ne_nil (tokens_ne_nil xs)
      rw [h]
      rfl

theorem tokens_word {xs : List Char} (h : '.' ∉ xs) : tokens xs = [xs] := by
  induction xs with
  | nil => rfl
  | cons x xs ih =>
    have hx : x ≠ '.' := fun heq => h (heq ▸ mem_cons_self)
    rw [tokens, if_neg hx, ih fun hmem => h (mem_cons_of_mem x hmem)]

def Plain (w : List Char) : Prop := w ≠ ['*'] ∧ w ≠ ['>']

instance : DecidablePred Plain := fun _ => inferInstanceAs (Decidable (_ ∧ _))

variable {us vs ps ts : List (List Char)}

theorem matchTokens_plain {w t : List Char} (h : Plain w) : matchTokens (w :: ps) (t :: ts) = (w = t && matchTokens ps ts) := by
  simp [matchTokens, h.1, h.2]

theorem matchTokens_append (h : ∀ w ∈ us, Plain w) : matchTokens (us ++ ps) (us ++ ts) = matchTokens ps ts := by
  induction us with
  | nil => rfl
  | cons u us ih =>
    rw [cons_append, cons_append, matchTokens_plain (h u mem_cons_self),
      ih fun w hw => h w (mem_cons_of_mem u hw)]
    simp

def Apart (us vs : List (List Char)) : Prop := ∃ x ∈ us.zip vs, x.1 ≠ x.2

instance (us vs : List (List Char)) : Decidable (Apart us vs) := inferInstanceAs (Decidable (∃ x ∈ _, _))

theorem matchTokens_apart (h : ∀ w ∈ us, Plain w) (hapart : Apart us vs) : matchTokens (us ++ ps) (vs ++ ts) = false := by
  induction us generalizing vs with
  | nil =>
    obtain ⟨x, hx, -⟩ := hapart
    cases hx
  | cons u us ih =>
    cases vs with
    | nil =>
      obtain ⟨x, hx, -⟩ := hapart
      cases hx
    | cons v vs =>
      rw [cons_append, cons_append, matchTokens_plain (h u mem_cons_self)]
      by_cases huv : u = v
      · have hrest : Apart us vs := by
          obtain ⟨x, hx, hne⟩ := hapart
          rcases mem_cons.1 hx with rfl | hx
          · exact absurd huv hne
          · exact ⟨x, hx, hne⟩
        rw [ih (fun w hw => h w (mem_cons_of_mem u hw)) hrest, Bool.and_false]
      · simp [huv]

/-! ## Numbers -/

def digits (n : ℕ) : List Char := (toString n).toList

theorem digits_eq (n : ℕ) : digits n = Nat.toDigits 10 n := by
  rw [digits, Nat.toString_eq_repr, Nat.repr, String.toList_ofList]

theorem isDigit_of_mem_digits {n : ℕ} {c : Char} (h : c ∈ digits n) : c.isDigit = true := by
  rw [digits_eq] at h
  exact Nat.isDigit_of_mem_toDigits (by decide) (by decide) h

theorem digits_injective {m n : ℕ} (h : digits m = digits n) : m = n := by
  rw [digits_eq, digits_eq] at h
  have hm : Nat.ofDigitChars 10 (Nat.toDigits 10 m) 0 = m := Nat.ofDigitChars_toDigits (by decide) (by decide)
  rw [h] at hm
  exact hm.symm.trans (Nat.ofDigitChars_toDigits (by decide) (by decide))

theorem digits_plain (n : ℕ) : Plain (digits n) := by
  refine ⟨fun h => ?_, fun h => ?_⟩
  · have hmem : '*' ∈ digits n := h ▸ mem_singleton.2 rfl
    exact absurd (isDigit_of_mem_digits hmem) (by decide)
  · have hmem : '>' ∈ digits n := h ▸ mem_singleton.2 rfl
    exact absurd (isDigit_of_mem_digits hmem) (by decide)

end Lib
