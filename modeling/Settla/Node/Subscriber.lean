import Settla.Node.Messaging
import Settla.Node.Wire

/-!
# A message at its consumer

`processMessage`, delivery by delivery. The consumer has `MaxDeliver = MaxRetries`: JetStream delivers a
message until it gets an ACK, and no more than that often.
-/

namespace Settla.Node.Subscriber

open Lib.Threads

/-- How one delivery comes out. -/
structure Outcomes where
  /-- the subscriber is draining or its context is done: the delivery is not processed -/
  draining : Bool := false
  /-- the handler returns nil -/
  handler : Bool
  /-- `PublishDLQ` -/
  dlq : Reply
  /-- JetStream gets the ACK -/
  ack : Bool

/-- A message and what became of it so far. -/
structure Message where
  numDelivered : ℕ
  acked : Bool
  /-- a handler call returned nil -/
  handled : Bool
  /-- the calls of `PublishDLQ` -/
  dlq : List Reply

def Message.new : Message := ⟨0, false, false, []⟩

def Message.ack (o : Outcomes) (m : Message) : Message := { m with acked := o.ack }

def Message.publishDLQ (o : Outcomes) (m : Message) : Message := { m with dlq := m.dlq ++ [o.dlq] }

def processMessage (event : Except String Wire.Event) (o : Outcomes) (m : Message) : Message :=
  match event with
  -- what cannot be decoded is acknowledged, also when the dead letter queue does not take it
  | .error _ => (m.publishDLQ o).ack o
  | .ok _ =>
    if maxRetries ≤ m.numDelivered then
      if o.dlq = .ok then (m.publishDLQ o).ack o else m.publishDLQ o
    else if o.handler then { m with handled := true }.ack o
    else m

/-- JetStream does not deliver the message again. -/
def Message.exhausted (m : Message) : Bool := m.acked || maxRetries ≤ m.numDelivered

/-- One delivery: `handleMessage` or `dispatchPooled`. -/
def deliver (event : Except String Wire.Event) (m : Message) (o : Outcomes) : Message :=
  if m.exhausted then m
  else if o.draining then { m with numDelivered := m.numDelivered + 1 }
  else processMessage event o { m with numDelivered := m.numDelivered + 1 }

def Message.deadLettered (m : Message) : Bool := m.dlq.any Reply.applied

end Settla.Node.Subscriber
