import Settla.Lib.Optimistic
import Settla.Lib.Threads

/-!
# Clients that are fed what the row emits

A receiver takes any item a versioned row has emitted, whenever it likes, and runs a client for it. If
items are `Stale` for the row that emits them and for every later one, a client that was fed an item
changes the row only where the item is stale, although nothing but the version guards its write.
-/

namespace Lib.Feedback

open List

open Lib.Threads (Pos Effect Keeps)
open Lib.Optimistic (Safe Fresh)

variable {σ ω τ κ ρ : Type*}

/-- What a client is run for: an item that came back, or a call. -/
inductive Origin (ω τ : Type*)
  | fed (w : ω)
  | called (c : τ)

structure Shared (σ ω : Type*) where
  row : σ
  out : List ω

/-- The next step of a thread. A write carries the row its client loaded. -/
inductive Label (σ ω τ : Type*)
  | receive
  | load (who : Origin ω τ)
  | write (who : Origin ω τ) (known : Option σ)

inductive Start (κ τ : Type*)
  | receive (x : κ)
  | call (c : τ)

section Code

variable (ver : σ → ℕ) (react : κ → ω → Option (Optimistic.Prog σ ω ρ)) (calls : τ → Optimistic.Prog σ ω ρ)

/-- A client as a thread. A write takes effect if the row has the expected version. -/
def client (who : Origin ω τ) :
    Option σ → Optimistic.Prog σ ω ρ → Threads.Prog (Shared σ ω) ℕ (Label σ ω τ) (Option ρ)
  | _, .ret r => .ret (some r)
  | _, .load k => .act (.load who) (fun _ s => s) fun _ s => client who (some s.row) (k s.row)
  | known, .write v f out k =>
    .act (.write who known) (fun _ s => if ver s.row = v then ⟨f s.row, s.out ++ out⟩ else s)
      fun _ s => client who none (k (ver s.row = v))

/-- The threads. A receiver is answered the place of its item among those emitted. -/
def code : Start κ τ → Threads.Prog (Shared σ ω) ℕ (Label σ ω τ) (Option ρ)
  | .receive x => .act .receive (fun _ s => s) fun n s =>
    match s.out[n]? with
    | none => .ret none
    | some w =>
      match react x w with
      | none => .ret none
      | some p => client ver (.fed w) none p
  | .call c => client ver (.called c) none (calls c)

end Code

variable {ver : σ → ℕ} {react : κ → ω → Option (Optimistic.Prog σ ω ρ)} {calls : τ → Optimistic.Prog σ ω ρ}
  {R : Origin ω τ → σ → σ → List ω → Prop} {Stale : ω → σ → Prop}

/-! ## Steps -/

variable (who : Origin ω τ) (known : Option σ)

/-- A client has returned, or is about to make a store call; it writes what it computed from the row
it knows. -/
def Next : Pos (Label σ ω τ) (Option ρ) → Prop
  | .returned _ => True
  | .before .receive => False
  | .before (.load who') => who' = who
  | .before (.write who' known') => who' = who ∧ known' = known

inductive Does (ver : σ → ℕ) (R : Origin ω τ → σ → σ → List ω → Prop) :
    Label σ ω τ → ℕ → Shared σ ω → Shared σ ω → Pos (Label σ ω τ) (Option ρ) → Prop
  /-- there is no such item, or nothing to do for it -/
  | ignore {n : ℕ} {s : Shared σ ω} : Does ver R .receive n s s (.returned none)
  | receive {n : ℕ} {s : Shared σ ω} {w : ω} {q : Pos (Label σ ω τ) (Option ρ)} : w ∈ s.out →
      Next (.fed w) none q → Does ver R .receive n s s q
  | load {n : ℕ} {s : Shared σ ω} {who : Origin ω τ} {q : Pos (Label σ ω τ) (Option ρ)} :
      Next who (some s.row) q → Does ver R (.load who) n s s q
  | conflict {n : ℕ} {s : Shared σ ω} {who : Origin ω τ} {known : Option σ}
      {q : Pos (Label σ ω τ) (Option ρ)} : Next who none q → Does ver R (.write who known) n s s q
  | commit {n : ℕ} {s : Shared σ ω} {who : Origin ω τ} {known : Option σ} {b : σ} {out : List ω}
      {q : Pos (Label σ ω τ) (Option ρ)} : (Fresh ver known s.row → R who s.row b out) → Next who none q →
      Does ver R (.write who known) n s ⟨b, s.out ++ out⟩ q

theorem client_next (p : Optimistic.Prog σ ω ρ) : Next who known (client ver who known p).pos := by
  cases p with
  | ret r => trivial
  | load k => rfl
  | write v f out k => exact ⟨rfl, rfl⟩

theorem client_follows (p : Optimistic.Prog σ ω ρ)
    (hp : Safe ver (R who) known p) : (client ver who known p).Follows (Does ver R) := by
  induction p generalizing known with
  | ret r => trivial
  | load k ih =>
    intro n s
    exact ⟨.load (client_next who _ _), ih s.row _ (hp s.row)⟩
  | write v f out k ih =>
    intro n s
    refine ⟨?_, ih _ _ (hp.2 _)⟩
    have hnext : Next who none (client ver who none (k (ver s.row = v))).pos := client_next who none _
    dsimp only
    split
    · rename_i hv
      exact .commit (fun hfresh => Optimistic.write_current hp hfresh hv) hnext
    · exact .conflict hnext

/-- Clients are safe, a change moves the version, an item is stale once it is emitted and stays so. -/
structure Rules (ver : σ → ℕ) (react : κ → ω → Option (Optimistic.Prog σ ω ρ))
    (calls : τ → Optimistic.Prog σ ω ρ) (R : Origin ω τ → σ → σ → List ω → Prop) (Stale : ω → σ → Prop) :
    Prop where
  react : ∀ x w p, react x w = some p → Safe ver (R (.fed w)) none p
  calls : ∀ c, Safe ver (R (.called c)) none (calls c)
  version : ∀ who a b out, R who a b out → ver b = ver a + 1
  emits : ∀ who a b out, R who a b out → ∀ w ∈ out, Stale w b
  stays : ∀ who a b out, R who a b out → ∀ w, Stale w a → Stale w b

theorem code_follows (h : Rules ver react calls R Stale) (c : Start κ τ) :
    (code ver react calls c).Follows (Does ver R) := by
  cases c with
  | call c => exact client_follows _ _ _ (h.calls c)
  | receive x =>
    intro n s
    dsimp only
    split
    · exact ⟨.ignore, trivial⟩
    · rename_i w hw
      split
      · exact ⟨.ignore, trivial⟩
      · rename_i p hp
        exact ⟨.receive (List.mem_of_getElem? hw) (client_next _ _ _), client_follows _ _ _ (h.react _ _ _ hp)⟩

/-! ## Runs -/

/-- The item of a client, if it was fed one, is stale for the row. -/
def Overtaken (Stale : ω → σ → Prop) (who : Origin ω τ) (row : σ) : Prop := ∀ w, who = .fed w → Stale w row

/-- What holds of a client at its position. -/
def Good (ver : σ → ℕ) (Stale : ω → σ → Prop) (row : σ) : Pos (Label σ ω τ) (Option ρ) → Prop
  | .returned _ => True
  | .before .receive => True
  | .before (.load who) => Overtaken Stale who row
  | .before (.write who known) => Overtaken Stale who row ∧ Fresh ver known row

/-- Every item that was emitted is stale, and every client is good. -/
def Inv (ver : σ → ℕ) (Stale : ω → σ → Prop) (s : Shared σ ω) (ps : List (Pos (Label σ ω τ) (Option ρ))) : Prop :=
  (∀ w ∈ s.out, Stale w s.row) ∧ ∀ p ∈ ps, Good ver Stale s.row p

variable {q : Pos (Label σ ω τ) (Option ρ)}

theorem Next.good {who : Origin ω τ} {known : Option σ} {row : σ}
    (h : Next who known q) (hwho : Overtaken Stale who row) (hknown : Fresh ver known row) :
    Good ver Stale row q := by
  cases q with
  | returned r => trivial
  | before g =>
    cases g with
    | receive => trivial
    | load who' => obtain rfl : who' = who := h; exact hwho
    | write who' known' => obtain ⟨rfl, rfl⟩ := h; exact ⟨hwho, hknown⟩

theorem Good.change (h : Rules ver react calls R Stale) {who : Origin ω τ} {a b : σ} {out : List ω}
    (hR : R who a b out) (hq : Good ver Stale a q) : Good ver Stale b q := by
  have hover : ∀ who' : Origin ω τ, Overtaken Stale who' a → Overtaken Stale who' b :=
    fun who' hw w hwho => h.stays _ _ _ _ hR w (hw w hwho)
  cases q with
  | returned r => trivial
  | before g =>
    cases g with
    | receive => trivial
    | load who' => exact hover who' hq
    | write who' known => exact ⟨hover who' hq.1, hq.2.advance (h.version _ _ _ _ hR)⟩

/-- **What an action can do to the row**: nothing, or a write allowed to its client, whose item is
stale. -/
theorem change_cases {s s' : Shared σ ω} {ps ps' : List (Pos (Label σ ω τ) (Option ρ))}
    {act : Threads.Action (Start κ τ) ℕ} (hinv : Inv ver Stale s ps)
    (heff : Effect (Does ver R) (code ver react calls) s ps act s' ps') :
    s' = s ∨ ∃ i n who known b out, act = .step i n ∧ ps[i]? = some (.before (.write who known)) ∧
      R who s.row b out ∧ Overtaken Stale who s.row ∧ s' = ⟨b, s.out ++ out⟩ := by
  cases heff with
  | start c | drop i | idle i n => exact .inl rfl
  | step i n g _ q hi hG =>
    have hgood := hinv.2 _ (List.mem_of_getElem? hi)
    cases hG with
    | ignore | receive hw hq | load hq | conflict hq => exact .inl rfl
    | @commit _ _ who known b out _ hR hq =>
      exact .inr ⟨i, n, who, known, b, out, rfl, hi, hR hgood.2, hgood.1, rfl⟩

theorem inv_keeps (h : Rules ver react calls R Stale) :
    Keeps (Does ver R) (code ver react calls) (fun _ _ _ => True) (Inv (τ := τ) (ρ := ρ) ver Stale) := by
  intro s ps act s' ps' hinv _ heff
  obtain ⟨hout, hps⟩ := hinv
  cases heff with
  | start c =>
    refine ⟨hout, forall_mem_snoc hps ?_⟩
    cases c with
    | receive x => trivial
    | call c => exact (client_next _ _ _).good (fun w hw => nomatch hw) (Optimistic.fresh_none _)
  | drop i => exact ⟨hout, fun p hp => hps p (mem_of_mem_eraseIdx hp)⟩
  | idle i n => exact ⟨hout, hps⟩
  | step i n g _ q hi hG =>
    have hgood := hps _ (List.mem_of_getElem? hi)
    -- a step that leaves the row alone only has to reach a good position
    have hsame : Good ver Stale s.row q → Inv ver Stale s (ps.set i q) := fun hq => ⟨hout, forall_mem_set hps hq⟩
    cases hG with
    | ignore => exact hsame trivial
    | @receive _ _ w _ hw hq =>
      refine hsame (hq.good (fun w' hw' => ?_) (Optimistic.fresh_none _))
      cases hw'
      exact hout w hw
    | load hq => exact hsame (hq.good hgood (Optimistic.fresh_self _))
    | conflict hq => exact hsame (hq.good hgood.1 (Optimistic.fresh_none _))
    | @commit _ _ who known b out _ hR hq =>
      have hR := hR hgood.2
      refine ⟨fun w hw => ?_, forall_mem_set (fun p hp => (hps p hp).change h hR) ?_⟩
      · rcases mem_append.1 hw with hw | hw
        · exact h.stays _ _ _ _ hR w (hout w hw)
        · exact h.emits _ _ _ _ hR w hw
      · exact hq.good (fun w hw => h.stays _ _ _ _ hR w (hgood.1 w hw)) (Optimistic.fresh_none _)

/-- **Every run keeps the invariant**, from a row for which all it has emitted is stale. -/
theorem run_inv (h : Rules ver react calls R Stale) {s : Shared σ ω} (hs : ∀ w ∈ s.out, Stale w s.row)
    (as : List (Threads.Action (Start κ τ) ℕ)) :
    let sys := run (Threads.System.act (code ver react calls)) (Threads.System.init s) as
    sys.Following (Does ver R) ∧ Inv ver Stale sys.state sys.positions := by
  refine Threads.run_keeps (code_follows h) (inv_keeps h) (Threads.init_following s) ⟨hs, ?_⟩
    (along_of_forall (fun _ _ => trivial) _)
  intro p hp
  cases hp

end Lib.Feedback
