import Mathlib.Algebra.Ring.Int.Defs
import Mathlib.Data.List.Basic

/-!
# Accounts with reservations

An `Account` carries the proof that its locked and reserved parts are not negative and fit in the
balance. `Account.post` moves an amount, `Account.set` replaces the balance, and a `Book` keeps one
account for each key.
-/

namespace Lib

open Function

structure Account where
  (balance locked reserved : ℤ)
  locked_nonneg : 0 ≤ locked
  reserved_nonneg : 0 ≤ reserved
  covered : locked + reserved ≤ balance

inductive Move
  /-- set a part of what is free aside -/
  | reserve
  /-- give a reserved part back -/
  | release
  /-- turn a reserved part into a locked one -/
  | commit
  /-- pay a reserved part out -/
  | consume | credit | debit
  deriving DecidableEq

namespace Account

variable (x : Account)

def free : ℤ := x.balance - x.locked - x.reserved

def Allows (a : ℤ) : Move → Prop
  | .reserve => a ≤ x.free
  | .release => a ≤ x.reserved
  | .commit => a ≤ x.reserved
  | .consume => a ≤ x.reserved
  | .credit => True
  | .debit => a ≤ x.free

def post : (mv : Move) → (a : ℤ) → 0 ≤ a → x.Allows a mv → Account
  | .reserve, a, ha, h =>
    { x with
      reserved := x.reserved + a
      reserved_nonneg := by have := x.reserved_nonneg; omega
      covered := by simp only [Allows, free] at h; omega }
  | .release, a, ha, h =>
    { x with
      reserved := x.reserved - a
      reserved_nonneg := by simp only [Allows] at h; omega
      covered := by have := x.covered; omega }
  | .commit, a, ha, h =>
    { x with
      locked := x.locked + a
      reserved := x.reserved - a
      locked_nonneg := by have := x.locked_nonneg; omega
      reserved_nonneg := by simp only [Allows] at h; omega
      covered := by have := x.covered; omega }
  | .consume, a, ha, h =>
    { x with
      balance := x.balance - a
      reserved := x.reserved - a
      reserved_nonneg := by simp only [Allows] at h; omega
      covered := by have := x.covered; omega }
  | .credit, a, ha, _ =>
    { x with
      balance := x.balance + a
      covered := by have := x.covered; omega }
  | .debit, a, ha, h =>
    { x with
      balance := x.balance - a
      covered := by simp only [Allows, free] at h; omega }

def set (v : ℤ) (h : x.locked + x.reserved ≤ v) : Account :=
  { x with balance := v, covered := h }

end Account

/-! ## Books -/

abbrev Book (κ : Type*) := κ → Option Account

inductive Entry (κ : Type*)
  | move (mv : Move) (k : κ) (a : ℤ)
  | set (k : κ) (v : ℤ)

variable {κ : Type*} [DecidableEq κ]

namespace Book

inductive Step : Book κ → Entry κ → Book κ → Prop
  | move {b : Book κ} {k : κ} {x : Account} {mv : Move} {a : ℤ} (hb : b k = some x) (ha : 0 ≤ a)
      (h : x.Allows a mv) : Step b (.move mv k a) (update b k (some (x.post mv a ha h)))
  | set {b : Book κ} {k : κ} {x : Account} {v : ℤ} (hb : b k = some x) (h : x.locked + x.reserved ≤ v) :
      Step b (.set k v) (update b k (some (x.set v h)))

inductive Run : Book κ → List (Entry κ) → Book κ → Prop
  | nil (b : Book κ) : Run b [] b
  | cons {b b₁ b₂ : Book κ} {e : Entry κ} {es : List (Entry κ)} (h : Step b e b₁) (hs : Run b₁ es b₂) :
      Run b (e :: es) b₂

end Book

/-! ## Sums of entries -/

def Entry.amount (mv : Move) (k : κ) : Entry κ → ℤ
  | .move mv' k' a => if mv' = mv ∧ k' = k then a else 0
  | .set _ _ => 0

def total (mv : Move) (k : κ) (es : List (Entry κ)) : ℤ := (es.map (Entry.amount mv k)).sum

@[simp] theorem total_nil (mv : Move) (k : κ) : total mv k ([] : List (Entry κ)) = 0 := rfl

@[simp] theorem total_cons (mv : Move) (k : κ) (e : Entry κ) (es : List (Entry κ)) :
    total mv k (e :: es) = e.amount mv k + total mv k es := by
  simp [total]

/-- The last value a list of entries sets on `k`, with the entries after it. -/
def lastSet (k : κ) : List (Entry κ) → Option (ℤ × List (Entry κ))
  | [] => none
  | e :: es =>
    match lastSet k es, e with
    | some r, _ => some r
    | none, .set k' v => if k' = k then some (v, es) else none
    | none, .move _ _ _ => none

/-- Credits minus debits minus what was paid out. -/
def netPaid (k : κ) (es : List (Entry κ)) : ℤ :=
  total .credit k es - total .debit k es - total .consume k es

/-- The balance that `es` leaves on `k`: the last value set, or `b` if there is none,
with what was paid in and out since. -/
def balanceAfter (k : κ) (b : ℤ) (es : List (Entry κ)) : ℤ :=
  match lastSet k es with
  | some (v, since) => v + netPaid k since
  | none => b + netPaid k es

namespace Book

variable {b b' b₁ : Book κ} {e : Entry κ} {es : List (Entry κ)} {k : κ} {x : Account}

theorem Step.account (h : Step b e b₁) (hx : b k = some x) : ∃ x₁, b₁ k = some x₁ ∧
    x₁.reserved = x.reserved + e.amount .reserve k - e.amount .release k - e.amount .commit k
      - e.amount .consume k ∧
    x₁.locked = x.locked + e.amount .commit k ∧
    x₁.balance = balanceAfter k x.balance [e] := by
  cases h with
  | @move k' y mv a hb ha hal =>
    by_cases hk : k' = k
    · subst hk
      obtain rfl : y = x := by simpa [hb] using hx
      refine ⟨_, update_self .., ?_⟩
      cases mv <;> simp [Account.post, Entry.amount, balanceAfter, lastSet, netPaid] <;> omega
    · refine ⟨x, by rw [update_of_ne (Ne.symm hk), hx], ?_⟩
      simp [Entry.amount, hk, balanceAfter, lastSet, netPaid]
  | @set k' y v hb hc =>
    by_cases hk : k' = k
    · subst hk
      obtain rfl : y = x := by simpa [hb] using hx
      refine ⟨_, update_self .., ?_⟩
      simp [Account.set, Entry.amount, balanceAfter, lastSet, netPaid]
    · refine ⟨x, by rw [update_of_ne (Ne.symm hk), hx], ?_⟩
      simp [Entry.amount, hk, balanceAfter, lastSet, netPaid]

theorem balanceAfter_cons (k : κ) (v : ℤ) (e : Entry κ) (es : List (Entry κ)) :
    balanceAfter k v (e :: es) = balanceAfter k (balanceAfter k v [e]) es := by
  unfold balanceAfter
  rcases hl : lastSet k es with _ | ⟨u, since⟩
  · cases e with
    | move mv k' a =>
      simp only [lastSet, hl, netPaid, total_cons, total_nil]
      omega
    | set k' u =>
      by_cases hk : k' = k
      · simp [lastSet, hl, hk, netPaid]
      · simp [lastSet, hl, hk, netPaid, Entry.amount]
  · simp [lastSet, hl]

/-- **The counters are the sums of the entries.** -/
theorem Run.account (h : Run b es b') (hx : b k = some x) : ∃ x', b' k = some x' ∧
    x'.reserved = x.reserved + total .reserve k es - total .release k es - total .commit k es
      - total .consume k es ∧
    x'.locked = x.locked + total .commit k es ∧
    x'.balance = balanceAfter k x.balance es := by
  induction h generalizing x with
  | nil b => exact ⟨x, hx, by simp, by simp, by simp [balanceAfter, lastSet, netPaid]⟩
  | @cons _ _ _ e es hstep _ ih =>
    obtain ⟨x₁, hx₁, hr₁, hl₁, hb₁⟩ := hstep.account hx
    obtain ⟨x', hx', hr, hl, hb⟩ := ih hx₁
    refine ⟨x', hx', ?_, ?_, ?_⟩
    · rw [hr, hr₁]; simp only [total_cons]; omega
    · rw [hl, hl₁]; simp only [total_cons]; omega
    · rw [hb, hb₁, ← balanceAfter_cons]

end Book

end Lib
