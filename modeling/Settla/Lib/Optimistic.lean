import Mathlib.Data.List.Range
import Settla.Lib.Run

/-!
# Optimistic locking

Clients share one versioned row: each loads it, computes, and writes under the condition that it still
has the expected version. Clients interleave in any order and may be dropped before any store call.

A client is `Safe R` when each write expects the version it loaded last and makes a change that `R`
allows from that row. Then every committed change is one that `R` allows from the row it replaces.
-/

namespace Lib.Optimistic

open List

variable {σ ω ρ : Type*}

/-- A client: it emits `ω` with its writes and returns `ρ`. -/
inductive Prog (σ ω ρ : Type*)
  | ret (r : ρ)
  | load (k : σ → Prog σ ω ρ)
  | write (expected : ℕ) (f : σ → σ) (out : List ω) (k : Bool → Prog σ ω ρ)

structure Commit (σ ω : Type*) where
  (before after : σ)
  out : List ω

/-- The row, the committed writes (oldest first) and the running clients. -/
structure System (σ ω ρ : Type*) where
  row : σ
  log : List (Commit σ ω)
  clients : List (Prog σ ω ρ)

inductive Action (σ ω ρ : Type*)
  /-- a client starts -/
  | start (p : Prog σ ω ρ)
  /-- client `i` makes its next store call -/
  | step (i : ℕ)
  /-- client `i` is gone: it crashed, or its store call failed without effect -/
  | drop (i : ℕ)

variable (ver : σ → ℕ)

/-- Perform an action. A write takes effect if the row has the expected version. -/
def System.act (s : System σ ω ρ) : Action σ ω ρ → System σ ω ρ
  | .start p => { s with clients := s.clients ++ [p] }
  | .drop i => { s with clients := s.clients.eraseIdx i }
  | .step i =>
    match s.clients[i]? with
    | some (.load k) => { s with clients := s.clients.set i (k s.row) }
    | some (.write v f out k) =>
      if ver s.row = v then
        { row := f s.row, log := s.log ++ [⟨s.row, f s.row, out⟩], clients := s.clients.set i (k true) }
      else { s with clients := s.clients.set i (k false) }
    | _ => s

/-- Every write expects the version of the row that was loaded last, and changes it as `R` allows. -/
def Safe (R : σ → σ → List ω → Prop) : Option σ → Prog σ ω ρ → Prop
  | _, .ret _ => True
  | _, .load k => ∀ row, Safe R (some row) (k row)
  | known, .write v f out k =>
    (∃ row, known = some row ∧ ver row = v ∧ R row (f row) out) ∧ ∀ ok, Safe R none (k ok)

/-- The changes lead from one row to another, each allowed from where it starts. -/
def Chained (R : σ → σ → List ω → Prop) : σ → List (Commit σ ω) → σ → Prop
  | a, [], b => a = b
  | a, c :: cs, b => c.before = a ∧ R a c.after c.out ∧ Chained R c.after cs b

variable {ver} {R : σ → σ → List ω → Prop}

/-! ## Chains -/

variable {cs : List (Commit σ ω)} {out : List ω} {known : Option σ} {row₀ : σ} {s : System σ ω ρ}

theorem Chained.snoc {a b : σ} (h : Chained R a cs b) {c : σ}
    (hR : R b c out) : Chained R a (cs ++ [⟨b, c, out⟩]) c := by
  induction cs generalizing a with
  | nil =>
    obtain rfl : a = b := h
    exact ⟨rfl, hR, rfl⟩
  | cons d cs ih => exact ⟨h.1, h.2.1, ih h.2.2⟩

theorem Chained.mem {a b : σ} (h : Chained R a cs b) : ∀ c ∈ cs, R c.before c.after c.out := by
  induction cs generalizing a with
  | nil => simp
  | cons d cs ih =>
    intro c hc
    rcases mem_cons.1 hc with rfl | hc
    · rw [h.1]; exact h.2.1
    · exact ih h.2.2 c hc

theorem Chained.versions (hver : ∀ a b out, R a b out → ver b = ver a + 1) {a b : σ}
    (h : Chained R a cs b) : cs.map (fun c => ver c.before) = List.range' (ver a) cs.length := by
  induction cs generalizing a with
  | nil => rfl
  | cons d cs ih =>
    rw [map_cons, length_cons, List.range'_succ, ih h.2.2, h.1, hver _ _ _ h.2.1]

theorem Chained.last_version (hver : ∀ a b out, R a b out → ver b = ver a + 1) {a b : σ}
    (h : Chained R a cs b) : ver b = ver a + cs.length := by
  induction cs generalizing a with
  | nil =>
    obtain rfl : a = b := h
    rfl
  | cons d cs ih =>
    rw [ih h.2.2, hver _ _ _ h.2.1, length_cons]
    omega

/-- Changes that raise a measure are no more than it rises. -/
theorem Chained.length_le {f : σ → ℕ} (hf : ∀ a b out, R a b out → f a < f b) {a b : σ} (h : Chained R a cs b) :
    f a + cs.length ≤ f b := by
  induction cs generalizing a with
  | nil =>
    obtain rfl : a = b := h
    exact le_rfl
  | cons d cs ih =>
    have hrest := ih h.2.2
    have hfirst := hf _ _ _ h.2.1
    rw [length_cons]
    omega

def emitted (cs : List (Commit σ ω)) : List ω := cs.flatMap (·.out)

/-- A potential that grows with each change by at least the weight of what the change
emits bounds the weight of everything emitted. -/
theorem Chained.weight (w : List ω → ℕ) (pot : σ → ℕ) (hw : w [] = 0)
    (happ : ∀ xs ys, w (xs ++ ys) = w xs + w ys) (hpot : ∀ a b out, R a b out → pot a + w out ≤ pot b)
    {a b : σ} (h : Chained R a cs b) : pot a + w (emitted cs) ≤ pot b := by
  induction cs generalizing a with
  | nil =>
    obtain rfl : a = b := h
    simp [emitted, hw]
  | cons d cs ih =>
    have hd := hpot _ _ _ h.2.1
    have hcs := ih h.2.2
    simp only [emitted, flatMap_cons, happ] at hcs ⊢
    omega

/-! ## Runs -/

/-- What a client knows is still current if its version is. -/
def Fresh (ver : σ → ℕ) (known : Option σ) (row : σ) : Prop :=
  ∀ r, known = some r → ver r ≤ ver row ∧ (ver r = ver row → r = row)

theorem Safe.mono {R' : σ → σ → List ω → Prop} (hR : ∀ a b out, R a b out → R' a b out)
    {p : Prog σ ω ρ} (h : Safe ver R known p) : Safe ver R' known p := by
  induction p generalizing known with
  | ret r => trivial
  | load k ih => exact fun row => ih row (h row)
  | write v f out k ih =>
    obtain ⟨⟨row, hrow, hv, hwrite⟩, hk⟩ := h
    exact ⟨⟨row, hrow, hv, hR _ _ _ hwrite⟩, fun ok => ih ok (hk ok)⟩

/-- The log leads from the initial row to the current one, and every client is safe
with fresh knowledge. -/
structure Inv (ver : σ → ℕ) (R : σ → σ → List ω → Prop) (row₀ : σ) (s : System σ ω ρ) : Prop where
  chain : Chained R row₀ s.log s.row
  clients : ∀ p ∈ s.clients, ∃ known, Safe ver R known p ∧ Fresh ver known s.row

def Starts (P : Prog σ ω ρ → Prop) : Action σ ω ρ → Prop
  | .start p => P p
  | _ => True

theorem Fresh.advance {a b : σ} (h : Fresh ver known a) (hb : ver b = ver a + 1) : Fresh ver known b := by
  intro r hr
  have := (h r hr).1
  exact ⟨by omega, fun heq => by omega⟩

theorem fresh_none (row : σ) : Fresh ver none row := by
  intro r hr; cases hr

theorem fresh_self (row : σ) : Fresh ver (some row) row := by
  intro r hr; cases hr; exact ⟨le_rfl, fun _ => rfl⟩

theorem write_current {row : σ} {v : ℕ} {f : σ → σ}
    {k : Bool → Prog σ ω ρ} (hs : Safe ver R known (.write v f out k)) (hf : Fresh ver known row)
    (hv : ver row = v) : R row (f row) out := by
  obtain ⟨⟨r, hr, hrv, hR⟩, -⟩ := hs
  obtain rfl : r = row := (hf r hr).2 (by rw [hrv, hv])
  exact hR

/-- **Every action keeps the invariant**, and changes the row only as `R` allows. -/
theorem Inv.act (hver : ∀ a b out, R a b out → ver b = ver a + 1)
    {a : Action σ ω ρ} (h : Inv ver R row₀ s) (ha : Starts (Safe ver R none) a) : Inv ver R row₀ (s.act ver a) ∧
      ((s.act ver a).row = s.row ∨ ∃ out, R s.row (s.act ver a).row out) := by
  cases a with
  | start p =>
    exact ⟨⟨h.chain, forall_mem_snoc h.clients ⟨none, ha, fresh_none _⟩⟩, .inl rfl⟩
  | drop i =>
    exact ⟨⟨h.chain, fun q hq => h.clients q (mem_of_mem_eraseIdx hq)⟩, .inl rfl⟩
  | step i =>
    simp only [System.act]
    split
    · rename_i k hi
      obtain ⟨known, hs, -⟩ := h.clients _ (List.mem_of_getElem? hi)
      -- what it has just loaded is current
      exact ⟨⟨h.chain, forall_mem_set h.clients ⟨some s.row, hs s.row, fresh_self _⟩⟩, .inl rfl⟩
    · rename_i v f out k hi
      obtain ⟨known, hs, hf⟩ := h.clients _ (List.mem_of_getElem? hi)
      split
      · rename_i hv
        -- the version matches, so the client still knows the row
        have hR := write_current hs hf hv
        refine ⟨⟨h.chain.snoc hR, forall_mem_set (fun q hq => ?_) ⟨none, hs.2 true, fresh_none _⟩⟩, .inr ⟨out, hR⟩⟩
        obtain ⟨known', hs', hf'⟩ := h.clients q hq
        exact ⟨known', hs', hf'.advance (hver _ _ _ hR)⟩
      -- a refused write: nothing changes, and the client knows nothing any more
      · exact ⟨⟨h.chain, forall_mem_set h.clients ⟨none, hs.2 false, fresh_none _⟩⟩, .inl rfl⟩
    · exact ⟨h, .inl rfl⟩

/-- **Every run keeps the invariant.** -/
theorem run_inv (hver : ∀ a b out, R a b out → ver b = ver a + 1)
    (h : Inv ver R row₀ s) (as : List (Action σ ω ρ)) (has : ∀ a ∈ as, Starts (Safe ver R none) a) :
    Inv ver R row₀ (run (System.act ver) s as) :=
  run_preserves (fun _ _ hs ha => (hs.act hver ha).1) h (along_of_forall has s)

def System.init (row : σ) : System σ ω ρ := ⟨row, [], []⟩

/-- **A row from which nothing is allowed is final.** -/
theorem frozen (hver : ∀ a b out, R a b out → ver b = ver a + 1)
    (h : Inv ver R row₀ s) (hfinal : ∀ b out, ¬ R s.row b out) (as : List (Action σ ω ρ))
    (has : ∀ a ∈ as, Starts (Safe ver R none) a) : (run (System.act ver) s as).row = s.row := by
  refine (run_preserves (P := fun s' => Inv ver R row₀ s' ∧ s'.row = s.row) ?_ ⟨h, rfl⟩
    (along_of_forall has s)).2
  rintro s' a ⟨hinv, hsame⟩ ha
  obtain ⟨hinv', hrow⟩ := hinv.act hver ha
  rw [hsame] at hrow
  exact ⟨hinv', hrow.resolve_right fun ⟨out, hR⟩ => hfinal _ out hR⟩

end Lib.Optimistic
