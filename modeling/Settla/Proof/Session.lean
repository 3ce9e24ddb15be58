import Settla.Core.SessionStore
import Settla.Lib.Tally

/-!
# Sessions and their payments

A method loads a copy of the session, records a payment, and writes the copy back with the next version.
`Sessional` says that a program does nothing else, with the relations `Pays` and `Edge` of the engine.
While payments are recorded only when no other call carries a current copy, the amount received is the
sum of the recorded payments (`sessions_balanced`).
-/

namespace Settla.Core

open Lib Lib.Threads List

variable {S T E ι : Type} {tb : SessionTables S T}

/-- What has happened to a copy of the session since it was loaded. -/
inductive Held (T : Type)
  | loaded
  /-- a payment was recorded, which the copy does not have yet -/
  | recorded (t : T)
  /-- the copy itself was written -/
  | written

/-- What the methods of an engine do: the payments they record, and what they write. -/
structure SessionRules (S T E : Type) where
  Pays : S → T → Prop
  Edge : S → Held T → S → List E → Prop

/-- A method that is about to use a copy of the session uses this one. -/
def Carries (R : SessionRules S T E) (s : S) (h : Held T) : Pos (SessionStep S T E) SessionResult → Prop
  | .returned _ => True
  | .before .getSession => True
  | .before (.findTx s' t) | .before (.recordTx s' t) => s' = s ∧ h = .loaded ∧ R.Pays s t
  | .before (.getTenant s') => s' = s ∧ h = .loaded
  | .before (.transition s' es) => R.Edge s h s' es

/-- What a store call does, and the copy the method goes on with. -/
inductive SessionDoes (tb : SessionTables S T) (R : SessionRules S T E) :
    SessionStep S T E → SessionAnswer → SessionDB S T E → SessionDB S T E →
    Pos (SessionStep S T E) SessionResult → Prop
  | refused {g a db r} : SessionDoes tb R g a db db (.returned r)
  | loaded {a db q} : Carries R db.row .loaded q → SessionDoes tb R .getSession a db db q
  | looked {s t a db q} : Carries R s .loaded q → SessionDoes tb R (.findTx s t) a db db q
  | tenant {s a db q} : Carries R s .loaded q → SessionDoes tb R (.getTenant s) a db db q
  | recorded {s t a db q} : Carries R s (.recorded t) q →
      SessionDoes tb R (.recordTx s t) a db
        { db with row := tb.accumulate t db.row, txs := db.txs ++ [tb.insert t] } q
  | written {s es a db q} : tb.version db.row + 1 = tb.version s → Carries R s .written q →
      SessionDoes tb R (.transition s es) a db
        { db with row := tb.update db.row s, outbox := db.outbox ++ es } q

/-- A program that starts with this copy of the session and does what methods do. -/
def Sessional (tb : SessionTables S T) (R : SessionRules S T E) (s : S) (h : Held T) (p : SessionProg S T E) : Prop :=
  p.Follows (SessionDoes tb R) ∧ Carries R s h p.pos

def SessionRules.Le (R R' : SessionRules S T E) : Prop :=
  (∀ s t, R.Pays s t → R'.Pays s t) ∧ ∀ s h s' es, R.Edge s h s' es → R'.Edge s h s' es

section

variable {R R' : SessionRules S T E} {s : S} {h : Held T} {g : SessionStep S T E} {a : SessionAnswer}
  {db db' : SessionDB S T E} {q : Pos (SessionStep S T E) SessionResult} {p : SessionProg S T E}

theorem Carries.mono (hle : R.Le R') (hq : Carries R s h q) : Carries R' s h q := by
  cases q with
  | returned x => trivial
  | before g =>
    cases g with
    | getSession => trivial
    | findTx | recordTx => exact ⟨hq.1, hq.2.1, hle.1 _ _ hq.2.2⟩
    | getTenant s' => exact hq
    | transition s' es => exact hle.2 _ _ _ _ hq

theorem SessionDoes.mono (hle : R.Le R') (h : SessionDoes tb R g a db db' q) : SessionDoes tb R' g a db db' q := by
  cases h with
  | refused => exact .refused
  | loaded hq => exact .loaded (hq.mono hle)
  | looked hq => exact .looked (hq.mono hle)
  | tenant hq => exact .tenant (hq.mono hle)
  | recorded hq => exact .recorded (hq.mono hle)
  | written hv hq => exact .written hv (hq.mono hle)

theorem Sessional.mono (hle : R.Le R') (hp : Sessional tb R s h p) : Sessional tb R' s h p :=
  ⟨hp.1.mono fun _ _ _ _ _ hG => hG.mono hle, hp.2.mono hle⟩

/-- Rules that say more about what is written. -/
def SessionRules.and (R : SessionRules S T E) (W : S → S → List E → Prop) : SessionRules S T E where
  Pays := R.Pays
  Edge s h s' es := R.Edge s h s' es ∧ W s s' es

theorem SessionRules.and_le (R : SessionRules S T E) (W : S → S → List E → Prop) : (R.and W).Le R :=
  ⟨fun _ _ h => h, fun _ _ _ _ h => h.1⟩

def SessionRules.inf (R R' : SessionRules S T E) : SessionRules S T E where
  Pays s t := R.Pays s t ∧ R'.Pays s t
  Edge s h s' es := R.Edge s h s' es ∧ R'.Edge s h s' es

theorem Carries.inf (hq : Carries R s h q) (hq' : Carries R' s h q) : Carries (R.inf R') s h q := by
  cases q with
  | returned x => trivial
  | before g =>
    cases g with
    | getSession => trivial
    | findTx | recordTx => exact ⟨hq.1, hq.2.1, hq.2.2, hq'.2.2⟩
    | getTenant s' => exact hq
    | transition s' es => exact ⟨hq, hq'⟩

theorem SessionDoes.inf (h : SessionDoes tb R g a db db' q) (h' : SessionDoes tb R' g a db db' q) :
    SessionDoes tb (R.inf R') g a db db' q := by
  cases h with
  | refused => exact .refused
  | loaded hq =>
    cases h' with
    | refused => exact .refused
    | loaded hq' => exact .loaded (hq.inf hq')
  | looked hq =>
    cases h' with
    | refused => exact .refused
    | looked hq' => exact .looked (hq.inf hq')
  | tenant hq =>
    cases h' with
    | refused => exact .refused
    | tenant hq' => exact .tenant (hq.inf hq')
  | @recorded s t _ _ _ hq =>
    generalize hdb : ({ db with row := tb.accumulate t db.row, txs := db.txs ++ [tb.insert t] } : SessionDB S T E) = db' at h'
    cases h' with
    | refused => exact .refused
    | recorded hq' => exact .recorded (hq.inf hq')
  | @written s es _ _ _ hv hq =>
    generalize hdb : ({ db with row := tb.update db.row s, outbox := db.outbox ++ es } : SessionDB S T E) = db' at h'
    cases h' with
    | refused => exact .refused
    | written _ hq' => exact .written hv (hq.inf hq')

theorem Sessional.inf (hp : Sessional tb R s h p) (hp' : Sessional tb R' s h p) : Sessional tb (R.inf R') s h p :=
  ⟨(hp.1.and hp'.1).mono fun _ _ _ _ _ hG => hG.1.inf hG.2, hp.2.inf hp'.2⟩

end

section Rules

variable {R : SessionRules S T E} {s s₀ : S} {h : Held T} {t : T} {step : String}

theorem sessional_ret (x : SessionResult) : Sessional tb R s h (.ret x : SessionProg S T E) := ⟨trivial, trivial⟩

theorem sessional_getSession {tenantID : UUID} {k : S → SessionProg S T E}
    (hk : ∀ s, Sessional tb R s .loaded (k s)) : Sessional tb R s₀ h (getSession tb step tenantID k) := by
  refine ⟨fun a db => ?_, trivial⟩
  dsimp only
  split
  · exact ⟨.loaded (hk db.row).2, (hk db.row).1⟩
  · exact ⟨.refused, trivial⟩

theorem sessional_findTx {k : Bool → SessionProg S T E} (hpay : R.Pays s t)
    (hk : ∀ b, Sessional tb R s .loaded (k b)) : Sessional tb R s .loaded (findTx tb s t k) :=
  ⟨fun _ _ => ⟨.looked (hk _).2, (hk _).1⟩, rfl, rfl, hpay⟩

variable {k : SessionProg S T E}

theorem sessional_recordTx (hpay : R.Pays s t) (hk : Sessional tb R s (.recorded t) k) :
    Sessional tb R s .loaded (recordTx tb step s t k) := by
  refine ⟨fun a db => ?_, rfl, rfl, hpay⟩
  dsimp only
  cases a.reply with
  | ok => exact ⟨.recorded hk.2, hk.1⟩
  | error => exact ⟨.refused, trivial⟩
  -- recorded, but the method sees an error
  | lost => exact ⟨.recorded trivial, trivial⟩

theorem sessional_getTenant {k : FeeSchedule → SessionProg S T E} (hk : ∀ f, Sessional tb R s .loaded (k f)) :
    Sessional tb R s .loaded (getTenant step s k) := by
  refine ⟨fun a db => ?_, rfl, rfl⟩
  dsimp only
  split
  · exact ⟨.tenant (hk _).2, (hk _).1⟩
  · exact ⟨.refused, trivial⟩

theorem sessional_transition {s' : S} {es : List E} (hedge : R.Edge s h s' es)
    (hk : Sessional tb R s' .written k) : Sessional tb R s h (transitionWithOutbox tb step s' es k) := by
  refine ⟨fun a db => ?_, hedge⟩
  dsimp only
  by_cases hv : tb.version db.row + 1 = tb.version s'
  case neg =>
    rw [if_neg (by simp [hv]), if_pos hv]
    exact ⟨.refused, trivial⟩
  rw [if_neg (not_not.2 hv)]
  cases a.reply with
  | ok => rw [if_pos (by simp [hv, Reply.applied])]; exact ⟨.written hv hk.2, hk.1⟩
  | error => exact ⟨.refused, trivial⟩
  | lost => rw [if_pos (by simp [hv, Reply.applied])]; exact ⟨.written hv trivial, trivial⟩

end Rules

/-- A payment is recorded only right after a lookup that did not find it. -/
def Looks (tb : SessionTables S T) (g : SessionStep S T E) (a : SessionAnswer) (db _ : SessionDB S T E)
    (q : Pos (SessionStep S T E) SessionResult) : Prop :=
  ∀ s t, q = .before (.recordTx s t) → g = .findTx s t ∧ (a.reply = .ok → db.txs.any (tb.sameKey t) = false)

variable {g : SessionStep S T E} {a : SessionAnswer} {p : SessionProg S T E} {r : SessionResult} {db db' : SessionDB S T E}

theorem Looks.idle {q : Pos (SessionStep S T E) SessionResult} (h : ∀ s t, q ≠ .before (.recordTx s t)) :
    Looks tb g a db db' q :=
  fun s t hq => absurd hq (h s t)

theorem Looks.returned : Looks tb g a db db' (.returned r) :=
  .idle nofun

theorem looks_findTx {s : S} {t : T} {step : String} {k : SessionProg S T E}
    (hk : k.Follows (Looks tb)) (hpos : ∀ s' t', k.pos ≠ .before (.recordTx s' t')) :
    (findTx tb s t fun found => if found then .ret r else recordTx tb step s t k).Follows (Looks tb) := by
  intro a db
  dsimp only
  split
  · exact ⟨.returned, trivial⟩
  · rename_i hfound
    refine ⟨?_, fun a db => ?_⟩
    · rintro s' t' ⟨⟩
      exact ⟨rfl, fun hok => by simpa [hok] using hfound⟩
    · dsimp only
      cases a.reply with
      | ok => exact ⟨.idle hpos, hk⟩
      | error | lost => exact ⟨.returned, trivial⟩

theorem Sessional.looks {R : SessionRules S T E} (hR : ∀ s t, ¬ R.Pays s t) {s : S} {h : Held T}
    (hp : Sessional tb R s h p) : p.Follows (Looks tb) := by
  have hidle : ∀ s h q, Carries R s h q → ∀ s' t, q ≠ .before (.recordTx s' t) := by
    rintro s h q hq s' t rfl
    exact hR _ _ hq.2.2
  refine hp.1.mono fun g a db db' q hG => Looks.idle ?_
  cases hG with
  | refused => nofun
  | loaded hq | looked hq | tenant hq | recorded hq | written _ hq => exact hidle _ _ _ hq

/-! ## The status -/

/-- The status of a kind of session. It is written with the next version only. -/
structure SessionStatuses (tb : SessionTables S T) (R : SessionRules S T E) (Q : Type) where
  status : S → Q
  status_accumulate : ∀ t s, status (tb.accumulate t s) = status s
  version_accumulate : ∀ t s, tb.version (tb.accumulate t s) = tb.version s
  status_update : ∀ row s, status (tb.update row s) = status s
  version_update : ∀ row s, tb.version (tb.update row s) = tb.version s
  edge : ∀ s h s' es, R.Edge s h s' es → tb.version s' = tb.version s + 1

section Status

variable {Q : Type} {R : SessionRules S T E} (st : SessionStatuses tb R Q) {db db' : SessionDB S T E}
  {q : Pos (SessionStep S T E) SessionResult}

/-- A method carries a copy that has the status of the row, or an older version. -/
def SessionStatuses.Current (db : SessionDB S T E) (q : Pos (SessionStep S T E) SessionResult) : Prop :=
  ∃ s h, Carries R s h q ∧ tb.version s ≤ tb.version db.row ∧
    (tb.version s = tb.version db.row → st.status s = st.status db.row)

/-- What a step does to the status and the outbox: nothing, or it writes an edge from the
status of the row. -/
inductive SessionStatuses.Moved (st : SessionStatuses tb R Q) (db db' : SessionDB S T E) : Prop
  | stays : st.status db'.row = st.status db.row → tb.version db'.row = tb.version db.row →
      db'.outbox = db.outbox → SessionStatuses.Moved st db db'
  | edge {s h s' es} : R.Edge s h s' es → st.status db.row = st.status s → st.status db'.row = st.status s' →
      tb.version db'.row = tb.version db.row + 1 → db'.outbox = db.outbox ++ es → SessionStatuses.Moved st db db'

variable {st}

theorem SessionStatuses.Current.next (hq : st.Current db q) (hmoved : st.Moved db db') : st.Current db' q := by
  obtain ⟨s, h, hc, hle, hst⟩ := hq
  cases hmoved with
  | stays hs hv _ => exact ⟨s, h, hc, hv ▸ hle, fun heq => (hst (heq.trans hv)).trans hs.symm⟩
  | edge _ _ _ hv _ => exact ⟨s, h, hc, by omega, fun heq => by omega⟩

theorem SessionStatuses.Moved.valid {valid : Q → List Q}
    (hedge : ∀ s h s' es, R.Edge s h s' es → st.status s' ∈ valid (st.status s)) (h : st.Moved db db') :
    st.status db'.row = st.status db.row ∧ tb.version db'.row = tb.version db.row ∨
      st.status db'.row ∈ valid (st.status db.row) ∧ tb.version db'.row = tb.version db.row + 1 := by
  cases h with
  | stays hs hv _ => exact .inl ⟨hs, hv⟩
  | edge he hs hs' hv _ =>
    rw [hs, hs']
    exact .inr ⟨hedge _ _ _ _ he, hv⟩

/-- **What a store call does to the status.** A write gets past the version check only with a
current copy. -/
theorem status_step (hG : SessionDoes tb R g a db db' q)
    (hcur : st.Current db (.before g)) : st.Moved db db' ∧ st.Current db' q := by
  obtain ⟨s₀, h₀, hc, hle, hst⟩ := hcur
  have hstays : st.Moved db db := .stays rfl rfl rfl
  cases hG with
  | refused => exact ⟨hstays, db.row, .loaded, trivial, Nat.le_refl _, fun _ => rfl⟩
  | loaded hq => exact ⟨hstays, db.row, .loaded, hq, Nat.le_refl _, fun _ => rfl⟩
  | looked hq | tenant hq =>
    obtain ⟨rfl, -⟩ := hc
    exact ⟨hstays, _, .loaded, hq, hle, hst⟩
  | @recorded s t _ _ _ hq =>
    obtain ⟨rfl, -⟩ := hc
    have hs := st.status_accumulate t db.row
    have hv := st.version_accumulate t db.row
    exact ⟨.stays hs hv rfl, _, .recorded t, hq, hv ▸ hle, fun heq => (hst (heq.trans hv)).trans hs.symm⟩
  | @written s es _ _ _ hv hq =>
    have hedge : R.Edge s₀ h₀ s es := hc
    have hnext := st.edge _ _ _ _ hedge
    have hs := st.status_update db.row s
    have hversion := st.version_update db.row s
    refine ⟨.edge hedge (hst (by omega)).symm hs (hversion.trans hv.symm) rfl, s, .written, hq, ?_, fun _ => hs.symm⟩
    exact hversion.symm.le

/-- **The status walks along edges.** Each step leaves status and outbox alone or writes an edge,
and what every edge keeps of the two holds in every state. -/
theorem sessions_walk {code : ι → SessionProg S T E} (hcode : ∀ c, (code c).Follows (SessionDoes tb R))
    (hstart : ∀ c, (code c).pos = .before .getSession) {P : Q → List E → Prop}
    (hP : ∀ s h s' es log, R.Edge s h s' es → P (st.status s) log → P (st.status s') (log ++ es))
    (h : P (st.status db.row) db.outbox) (as : List (Action ι SessionAnswer)) :
    let s := run (System.act code) (System.init db) as
    P (st.status s.state.row) s.state.outbox ∧ ∀ a, st.Moved s.state (s.act code a).state := by
  -- every copy is current, and every effect is a move
  have heffect : ∀ (db : SessionDB S T E) ps a db' ps', (∀ q ∈ ps, st.Current db q) →
      Effect (SessionDoes tb R) code db ps a db' ps' → st.Moved db db' ∧ ∀ q ∈ ps', st.Current db' q := by
    intro db ps a db' ps' hcur heff
    cases heff with
    | start c =>
      refine ⟨.stays rfl rfl rfl, forall_mem_snoc hcur ?_⟩
      rw [hstart c]
      exact ⟨db.row, .loaded, trivial, Nat.le_refl _, fun _ => rfl⟩
    | drop i => exact ⟨.stays rfl rfl rfl, fun q hq => hcur q (mem_of_mem_eraseIdx hq)⟩
    | idle i a => exact ⟨.stays rfl rfl rfl, hcur⟩
    | step i a g db' q hi hG =>
      obtain ⟨hmoved, hq⟩ := status_step hG (hcur _ (List.mem_of_getElem? hi))
      exact ⟨hmoved, forall_mem_set (fun q' hq' => (hcur q' hq').next hmoved) hq⟩
  have hkeeps : Keeps (SessionDoes tb R) code (fun _ _ _ => True)
      fun db ps => P (st.status db.row) db.outbox ∧ ∀ q ∈ ps, st.Current db q := by
    rintro db ps a db' ps' ⟨hp, hcur⟩ - heff
    obtain ⟨hmoved, hcur'⟩ := heffect db ps a db' ps' hcur heff
    refine ⟨?_, hcur'⟩
    cases hmoved with
    | stays hs _ ho => rw [hs, ho]; exact hp
    | edge hedge hs hs' _ ho => rw [hs', ho]; exact hP _ _ _ _ _ hedge (hs ▸ hp)
  have hmeets : Meets code (fun _ _ _ => True) (System.init db) as :=
    along_of_forall (p := fun _ => True) (fun _ _ => trivial) _
  obtain ⟨hfollows, hp, hcur⟩ := run_keeps hcode hkeeps (init_following db) ⟨h, nofun⟩ hmeets
  exact ⟨hp, fun a => (heffect _ _ _ _ _ hcur (act_cases hcode hfollows a).2).1⟩

end Status

/-! ## The running total -/

def Held.amount (amount : T → Decimal) : Held T → Decimal
  | .recorded t => amount t
  | _ => 0

@[simp] theorem Held.amount_loaded (amount : T → Decimal) : Held.amount amount .loaded = 0 := rfl

@[simp] theorem Held.amount_written (amount : T → Decimal) : Held.amount amount .written = 0 := rfl

/-- The amounts of a kind of session, what its columns do to them, and that the methods
count them as they should. -/
structure SessionAmounts (tb : SessionTables S T) (R : SessionRules S T E) where
  id : S → UUID
  received : S → Decimal
  session : T → UUID
  amount : T → Decimal
  /-- what a column keeps of an amount -/
  stored : Decimal → Decimal
  /-- the amounts a row can have received -/
  Received : Decimal → Prop
  Payment : T → Prop
  id_accumulate : ∀ t s, id (tb.accumulate t s) = id s
  version_accumulate : ∀ t s, tb.version (tb.accumulate t s) = tb.version s
  received_accumulate : ∀ t s, received (tb.accumulate t s) = stored (received s + amount t)
  id_update : ∀ row s, id (tb.update row s) = id row
  version_update : ∀ row s, tb.version (tb.update row s) = tb.version s
  received_update : ∀ row s, received (tb.update row s) = stored (received s)
  session_insert : ∀ t, session (tb.insert t) = session t
  amount_insert : ∀ t, amount (tb.insert t) = stored (amount t)
  stored_received : ∀ r, Received r → stored r = r
  stored_add : ∀ r t, Received r → Payment t →
    stored (r + amount t) = r + stored (amount t) ∧ Received (r + stored (amount t))
  pays : ∀ s t, R.Pays s t → session t = id s ∧ Payment t
  edge : ∀ s h s' es, R.Edge s h s' es →
    id s' = id s ∧ tb.version s' = tb.version s + 1 ∧ received s' = received s + h.amount amount

variable {R : SessionRules S T E} (am : SessionAmounts tb R)

def SessionAmounts.sum (db : SessionDB S T E) : Decimal :=
  ((db.txs.filter fun t => am.session t = am.id db.row).map am.amount).sum

def SessionAmounts.Balanced (db : SessionDB S T E) : Prop := am.received db.row = am.sum db

/-- The row of a session and its payments, with the copies the methods carry. -/
def sessionTally (id : UUID) : Tally (SessionDB S T E) (SessionStep S T E) SessionResult Decimal where
  version db := tb.version db.row
  total db := am.received db.row
  sum := am.sum
  copy
    | .getSession => none
    | .findTx s _ | .recordTx s _ | .getTenant s => some ⟨tb.version s, am.received s⟩
    | .transition s _ => some ⟨tb.version s - 1, am.stored (am.received s)⟩
  adds
    | .recordTx _ _ => true
    | _ => false
  Always db := am.id db.row = id ∧ am.Received (am.received db.row)
  Known
    | .before (.findTx s t) | .before (.recordTx s t) => am.id s = id ∧ am.session t = id ∧ am.Payment t
    | .before (.getTenant s) => am.id s = id
    | .before (.transition s _) => am.id s = id ∧ 1 ≤ tb.version s
    | _ => True

variable {am} {id : UUID} {s : S} {h : Held T} {t : T} {db : SessionDB S T E}
  {q : Pos (SessionStep S T E) SessionResult}

theorem Carries.known (hq : Carries R s h q) (hid : am.id s = id) : (sessionTally am id).Known q := by
  cases q with
  | returned x => trivial
  | before g =>
    cases g with
    | getSession => trivial
    | findTx s' t | recordTx s' t =>
      obtain ⟨rfl, -, hpay⟩ := hq
      obtain ⟨hsess, hpay⟩ := am.pays _ _ hpay
      exact ⟨hid, hsess.trans hid, hpay⟩
    | getTenant s' =>
      obtain ⟨rfl, -⟩ := hq
      exact hid
    | transition s' es =>
      obtain ⟨hids, hv, -⟩ := am.edge _ _ _ _ hq
      exact ⟨hids.trans hid, by omega⟩

theorem Carries.holds (hq : Carries R s h q) (hle : tb.version s ≤ tb.version db.row)
    (hr : tb.version s = tb.version db.row →
      am.stored (am.received s + h.amount am.amount) = am.received db.row ∧
        (h = .loaded → am.received s = am.received db.row)) : (sessionTally am id).Holds db q := by
  cases q with
  | returned x => trivial
  | before g =>
    cases g with
    | getSession => exact fun c hc => nomatch hc
    | findTx s' t | recordTx s' t =>
      obtain ⟨rfl, hh, -⟩ := hq
      intro c hc
      cases hc
      exact ⟨hle, fun hv => (hr hv).2 hh⟩
    | getTenant s' =>
      obtain ⟨rfl, hh⟩ := hq
      intro c hc
      cases hc
      exact ⟨hle, fun hv => (hr hv).2 hh⟩
    | transition s' es =>
      obtain ⟨-, hv, hrec⟩ := am.edge _ _ _ _ hq
      intro c hc
      cases hc
      have hpred : tb.version s' - 1 = tb.version s := by omega
      rw [hpred, hrec]
      exact ⟨hle, fun hv => (hr hv).1⟩

theorem Carries.holds_loaded (hq : Carries R s .loaded q) (hdb : am.Received (am.received db.row))
    (hs : (sessionTally am id).Fresh db ⟨tb.version s, am.received s⟩) : (sessionTally am id).Holds db q := by
  refine hq.holds hs.1 fun hv => ?_
  have hrec : am.received s = am.received db.row := hs.2 hv
  refine ⟨?_, fun _ => hrec⟩
  show am.stored (am.received s + 0) = _
  rw [add_zero, hrec]
  exact am.stored_received _ hdb

theorem SessionAmounts.sum_record (ht : am.session t = am.id db.row) :
    am.sum { db with row := tb.accumulate t db.row, txs := db.txs ++ [tb.insert t] } =
      am.sum db + am.stored (am.amount t) := by
  simp [SessionAmounts.sum, am.id_accumulate, filter_append, am.session_insert, ht, am.amount_insert]

theorem SessionAmounts.sum_write {es : List E} :
    am.sum { db with row := tb.update db.row s, outbox := db.outbox ++ es } = am.sum db := by
  simp only [SessionAmounts.sum, am.id_update]

/-- **What a store call does to the amounts**: the sum stays the amount received, and the
copy of the method stays fresh. -/
theorem session_step {db' : SessionDB S T E} (hG : SessionDoes tb R g a db db' q)
    (halways : (sessionTally am id).Always db) (hknown : (sessionTally am id).Known (.before g))
    (hholds : (sessionTally am id).Holds db (.before g)) (hsum : am.Balanced db) :
    (sessionTally am id).Always db' ∧ (sessionTally am id).Known q ∧ (sessionTally am id).Holds db' q ∧
      am.Balanced db' ∧
      (tb.version db'.row = tb.version db.row ∧
        ((sessionTally am id).adds g = true ∨ am.received db'.row = am.received db.row) ∨
        tb.version db.row < tb.version db'.row) := by
  obtain ⟨hid, hrec⟩ := halways
  have hquiet : tb.version db.row = tb.version db.row ∧
      ((sessionTally am id).adds g = true ∨ am.received db.row = am.received db.row) ∨
      tb.version db.row < tb.version db.row := .inl ⟨rfl, .inr rfl⟩
  cases hG with
  | refused => exact ⟨⟨hid, hrec⟩, trivial, trivial, hsum, hquiet⟩
  | loaded hq =>
    exact ⟨⟨hid, hrec⟩, hq.known hid, hq.holds_loaded hrec ⟨Nat.le_refl _, fun _ => rfl⟩, hsum, hquiet⟩
  | looked hq => exact ⟨⟨hid, hrec⟩, hq.known hknown.1, hq.holds_loaded hrec (hholds _ rfl), hsum, hquiet⟩
  | tenant hq => exact ⟨⟨hid, hrec⟩, hq.known hknown, hq.holds_loaded hrec (hholds _ rfl), hsum, hquiet⟩
  | @recorded s t _ _ _ hq =>
    obtain ⟨hids, hsess, hpay⟩ := hknown
    obtain ⟨hle, hr⟩ := hholds _ rfl
    obtain ⟨hadd, hrec'⟩ := am.stored_add _ t hrec hpay
    have hreceived : am.received (tb.accumulate t db.row) = am.received db.row + am.stored (am.amount t) := by
      rw [am.received_accumulate, hadd]
    refine ⟨⟨(am.id_accumulate t db.row).trans hid, ?_⟩, hq.known hids, ?_, ?_, .inl ⟨am.version_accumulate t db.row, .inl rfl⟩⟩
    · show am.Received (am.received (tb.accumulate t db.row))
      rw [hreceived]
      exact hrec'
    -- what the copy will be written with has the payment too
    · refine hq.holds ?_ ?_
      · show tb.version s ≤ tb.version (tb.accumulate t db.row)
        rw [am.version_accumulate]
        exact hle
      · show tb.version s = tb.version (tb.accumulate t db.row) →
          am.stored (am.received s + am.amount t) = am.received (tb.accumulate t db.row) ∧ _
        rw [am.version_accumulate, am.received_accumulate]
        intro hv
        have hsame : am.received s = am.received db.row := hr hv
        exact ⟨by rw [hsame], by nofun⟩
    · show am.received (tb.accumulate t db.row) = _
      rw [am.sum_record (hsess.trans hid.symm), hreceived, ← hsum]
  | @written s es _ _ _ hv hq =>
    obtain ⟨hids, -⟩ := hknown
    obtain ⟨hle, hr⟩ := hholds _ rfl
    have hpred : tb.version s - 1 = tb.version db.row := by omega
    have hreceived : am.received (tb.update db.row s) = am.received db.row := by
      rw [am.received_update]
      exact hr hpred
    refine ⟨⟨(am.id_update db.row s).trans hid, ?_⟩, hq.known hids, ?_, ?_, .inr ?_⟩
    · show am.Received (am.received (tb.update db.row s))
      rw [hreceived]
      exact hrec
    · refine hq.holds ?_ fun _ => ⟨?_, by nofun⟩
      · show tb.version s ≤ tb.version (tb.update db.row s)
        rw [am.version_update]
      · show am.stored (am.received s + 0) = am.received (tb.update db.row s)
        rw [add_zero, am.received_update]
    · show am.received (tb.update db.row s) = _
      rw [am.sum_write, hreceived]
      exact hsum
    · show tb.version db.row < tb.version (tb.update db.row s)
      rw [am.version_update]
      omega

theorem session_sound {code : ι → SessionProg S T E} (hstart : ∀ c, (code c).pos = .before .getSession) :
    (sessionTally am id).Sound (SessionDoes tb R) code := by
  refine ⟨fun c s => ?_, fun g a s s' q hG halways hknown hholds hs => ?_⟩
  · rw [hstart c]
    exact ⟨(fun c hc => nomatch hc), trivial⟩
  · exact session_step hG halways hknown hholds hs

/-- **The amount received is the sum of the recorded payments**, if these are recorded only while no
other call carries a current copy. -/
theorem sessions_balanced {code : ι → SessionProg S T E} (hcode : ∀ c, (code c).Follows (SessionDoes tb R))
    (hstart : ∀ c, (code c).pos = .before .getSession) (hid : am.id db.row = id)
    (hrec : am.Received (am.received db.row)) (hsum : am.Balanced db) {as : List (Action ι SessionAnswer)}
    (has : Meets code (sessionTally am id).alone (System.init db) as) :
    am.Balanced (run (System.act code) (System.init db) as).state := by
  have hinv : (sessionTally am id).Inv db [] := ⟨hsum, ⟨hid, hrec⟩, by simp⟩
  exact (run_keeps hcode (tally_keeps (session_sound hstart)) (init_following db) hinv has).2.total

end Settla.Core
