import Settla.Node.Subscriber

/-!
# What becomes of a message

A message that no handler took gets to the dead letter queue on its last delivery, or if it cannot be decoded; there is
no further delivery after one that fails there, or is not processed.
-/

namespace Settla.Node.Subscriber

open Lib List

variable {event : Except String Wire.Event} {m : Message} {o : Outcomes}

/-- The delivery after `n` others is processed and comes to a handler call that returns nil or, on the last one and for
a message that cannot be decoded, to a place in the dead letter queue. -/
def Outcomes.keeps (event : Except String Wire.Event) (n : ℕ) (o : Outcomes) : Bool :=
  !o.draining && match event with
    | .error _ => o.dlq.applied
    | .ok _ => if maxRetries ≤ n + 1 then o.dlq.applied else o.handler

/-- One of the deliveries keeps the message; one that cannot be decoded is not delivered after an ACK. -/
def Kept (event : Except String Wire.Event) (n : ℕ) (os : List Outcomes) : Prop :=
  ∃ i o, os[i]? = some o ∧ n + i < maxRetries ∧ o.keeps event (n + i) = true ∧
    (event.toBool = false → ∀ o' ∈ os.take i, o'.draining = true ∨ o'.ack = false)

/-- A handler call returned nil, or the message is in the dead letter queue. -/
def Message.kept (m : Message) : Bool := m.handled || m.deadLettered

/-- **One delivery** keeps the message or leaves it as it was. -/
theorem deliver_kept (event : Except String Wire.Event) (o : Outcomes) (h : m.exhausted = false) :
    (deliver event m o).kept = (m.kept || o.keeps event m.numDelivered) ∧
    (deliver event m o).numDelivered = m.numDelivered + 1 := by
  unfold deliver
  rw [if_neg (by simp [h])]
  cases hdraining : o.draining with
  | true => simp [Outcomes.keeps, hdraining, Message.kept, Message.deadLettered]
  | false =>
    cases event with
    | error e =>
      simp [processMessage, Message.publishDLQ, Message.ack, Message.kept, Message.deadLettered, Outcomes.keeps,
        hdraining, Bool.or_assoc]
    | ok e =>
      simp only [processMessage, Outcomes.keeps, hdraining]
      split_ifs <;> simp_all [Message.publishDLQ, Message.ack, Message.kept, Message.deadLettered, Bool.or_assoc]

/-- When JetStream gets an ACK. -/
theorem deliver_acked (event : Except String Wire.Event) (o : Outcomes) (h : m.exhausted = false) :
    (deliver event m o).acked = (!o.draining && o.ack && match event with
      | .error _ => true
      | .ok _ => if maxRetries ≤ m.numDelivered + 1 then o.dlq = .ok else o.handler) := by
  have hopen : m.acked = false := (Bool.or_eq_false_iff.1 h).1
  unfold deliver
  rw [if_neg (by simp [h])]
  cases hdraining : o.draining with
  | true => simp [hopen]
  | false =>
    cases event with
    | error e => simp [processMessage, Message.publishDLQ, Message.ack]
    | ok e =>
      simp only [processMessage]
      split_ifs <;> simp_all [Message.publishDLQ, Message.ack]

theorem kept_cons (n : ℕ) (o : Outcomes) (os : List Outcomes) :
    Kept event n (o :: os) ↔ n < maxRetries ∧ o.keeps event n = true ∨
      (event.toBool = false → o.draining = true ∨ o.ack = false) ∧ Kept event (n + 1) os := by
  constructor
  · rintro ⟨i, o', hi, hlt, hkeeps, hacks⟩
    cases i with
    | zero =>
      cases hi
      exact .inl ⟨hlt, hkeeps⟩
    | succ i =>
      refine .inr ⟨fun hevent => hacks hevent o (by simp), i, o', hi, by omega, ?_, fun hevent o'' ho => hacks hevent o'' ?_⟩
      · rwa [Nat.add_assoc, Nat.add_comm 1]
      · rw [take_succ_cons]
        exact mem_cons_of_mem _ ho
  · rintro (⟨hlt, hkeeps⟩ | ⟨hack, i, o', hi, hlt, hkeeps, hacks⟩)
    · exact ⟨0, o, rfl, hlt, hkeeps, fun _ => by simp⟩
    · refine ⟨i + 1, o', hi, by omega, ?_, fun hevent => ?_⟩
      · rwa [Nat.add_assoc, Nat.add_comm 1] at hkeeps
      · rw [take_succ_cons]
        exact forall_mem_cons.2 ⟨hack hevent, hacks hevent⟩

theorem run_kept (os : List Outcomes) (hacked : event.toBool = true → m.acked = true → m.kept = true) :
    (run (deliver event) m os).kept = true ↔ m.kept = true ∨ m.acked = false ∧ Kept event m.numDelivered os := by
  induction os generalizing m with
  | nil => simp [Kept]
  | cons o os ih =>
    rw [run_cons]
    cases h : m.exhausted with
    | true =>
      -- nothing is delivered any more
      have hsame : deliver event m o = m := if_pos h
      rw [hsame, ih hacked, kept_cons]
      rcases Bool.or_eq_true_iff.1 h with hack | hlast
      · simp [hack]
      · have hlast : maxRetries ≤ m.numDelivered := of_decide_eq_true hlast
        have hnone : ∀ n os, maxRetries ≤ n → ¬ Kept event n os := by
          rintro n os hn ⟨i, -, -, hlt, -⟩
          omega
        simp [hnone _ _ hlast, hnone _ _ (hlast.trans (Nat.le_succ _)), not_lt.2 hlast]
    | false =>
      obtain ⟨hopen, hlast⟩ := Bool.or_eq_false_iff.1 h
      have hlast : m.numDelivered < maxRetries := by simpa using hlast
      obtain ⟨hkept, hnum⟩ := deliver_kept event o h
      have hack := deliver_acked event o h
      cases event with
      | error e =>
        rw [ih nofun, hkept, hnum, kept_cons, hack, hopen]
        cases o.draining <;> simp [hlast, Except.toBool, or_assoc]
      | ok e =>
        have hkeeps : (deliver (.ok e) m o).acked = true → o.keeps (.ok e) m.numDelivered = true := by
          rw [hack, Outcomes.keeps]
          simp only [Bool.and_eq_true]
          rintro ⟨⟨hd, -⟩, hok⟩
          refine ⟨hd, ?_⟩
          split_ifs at hok ⊢
          · rw [of_decide_eq_true hok]
            rfl
          · exact hok
        rw [ih fun _ h => by rw [hkept, hkeeps h, Bool.or_true], hkept, hnum, kept_cons, hopen]
        cases hacked' : (deliver (.ok e) m o).acked with
        | true => simp [hkeeps hacked', hlast]
        | false => simp [hlast, Except.toBool, or_assoc]

/-- **A message is handled or dead-lettered** exactly if one of its deliveries keeps it. -/
theorem message_kept_iff (event : Except String Wire.Event) (os : List Outcomes) :
    let m := run (deliver event) Message.new os
    m.handled = true ∨ m.deadLettered = true ↔ Kept event 0 os := by
  intro m
  have h : m.kept = true ↔ _ := run_kept (m := Message.new) os nofun
  rw [Message.kept, Bool.or_eq_true] at h
  exact h.trans ⟨fun h => (h.resolve_left nofun).2, fun h => .inr ⟨rfl, h⟩⟩

def failing : Outcomes := { handler := false, dlq := .error, ack := true }

/-- On the sixth delivery the dead letter queue fails, and JetStream does not deliver the message again; a message that
cannot be decoded is acknowledged although the dead letter queue fails. -/
theorem lost_on_last_delivery :
    let m := run (deliver (.ok ⟨1, 1, "treasury.reserve", 1, .null⟩)) Message.new (replicate 6 failing)
    let m' := run (deliver (.error "unexpected end of JSON input")) Message.new [failing]
    m.exhausted = true ∧ m.handled = false ∧ m.deadLettered = false ∧
      m'.exhausted = true ∧ m'.handled = false ∧ m'.deadLettered = false := by
  decide

end Settla.Node.Subscriber
