import Mathlib.Algebra.BigOperators.Group.List.Basic
import Mathlib.Algebra.Order.Group.Int
import Settla.Lib.Run

/-!
# Lock-free programs on shared counters

Threads share counters, a mutex and a set of claimed keys. A thread makes one `move` of an abstract
object, which takes effect with its first write; from there on it only adds what it still owes
(`Prog.rest`), and `System.view` is the counters with everything owed already added. A program is
verified once, by itself (`Early`).

Sums are written as the counters hold them, which `rd` says. `Clean` excludes a sum that does not fit, a plain
store that overwrites another thread's write, a first write whose check has become false, and a no to a thread
that has written.
-/

namespace Lib.Atomic

open List Function

variable {κ ν ρ μ : Type*}

/-! ## Programs -/

/-- A program on the counters `κ` and the keys `ν` that returns a `ρ`. -/
inductive Prog (κ ν ρ : Type*)
  | ret (r : ρ)
  | load (c : κ) (k : ℤ → Prog κ ν ρ)
  /-- a plain store of the sum of `seen`, which was loaded before, and `d` -/
  | store (c : κ) (seen d : ℤ) (k : Prog κ ν ρ)
  /-- a plain store of a value that depends on nothing -/
  | assign (c : κ) (v : ℤ) (k : Prog κ ν ρ)
  | add (c : κ) (d : ℤ) (k : Prog κ ν ρ)
  /-- a swap of `old` for its sum with `d` -/
  | cas (c : κ) (old d : ℤ) (ok fail : Prog κ ν ρ)
  | lock (k : Prog κ ν ρ)
  | unlock (k : Prog κ ν ρ)
  | claim (key : ν) (held free : Prog κ ν ρ)
  | forget (key : ν) (k : Prog κ ν ρ)
  /-- a question to the environment -/
  | ask (k : Bool → Prog κ ν ρ)
  /-- the body of a loop, which `again` starts over -/
  | loop (body : Prog κ ν ρ)
  | again

structure Memory (κ ν : Type*) where
  counter : κ → ℤ
  owner : Option ℕ
  keys : List ν

/-- A thread: its move, the loop it is in, what it does next, and whether it has written. -/
structure Thread (κ ν ρ μ : Type*) where
  move : μ
  (entry cur : Prog κ ν ρ)
  begun : Bool

structure System (κ ν ρ μ : Type*) where
  mem : Memory κ ν
  threads : List (Thread κ ν ρ μ)

variable [DecidableEq κ]

/-! ## What a thread owes -/

/-- What a program still adds to a counter if it runs straight on and is told yes. -/
def Prog.rest : Prog κ ν ρ → κ → ℤ
  | .store c _ d k | .add c d k => fun y => (if y = c then d else 0) + k.rest y
  | .unlock k => k.rest
  | .ask k => (k true).rest
  | _ => fun _ => 0

def Thread.owes (t : Thread κ ν ρ μ) (y : κ) : ℤ := if t.begun then t.cur.rest y else 0

def System.view (s : System κ ν ρ μ) (y : κ) : ℤ := s.mem.counter y + (s.threads.map (·.owes y)).sum

/-! ## What the programs are for -/

structure Spec (κ ρ μ : Type*) where
  /-- what a move does to the counters -/
  apply : (κ → ℤ) → μ → κ → ℤ
  /-- whether a move is allowed -/
  ok : (κ → ℤ) → μ → Prop
  /-- the counters that only first writes change -/
  direct : κ → Prop
  /-- the moves whose check reads more than the counter they write first -/
  checked : μ → Prop
  /-- the answers of a call that took effect -/
  done : ρ → Prop

variable (sp : Spec κ ρ μ)

/-- After the first write: straight on to an answer that says so. -/
def Late : Prog κ ν ρ → Prop
  | .ret r => sp.done r
  | .store c _ _ k => ¬ sp.direct c ∧ Late k
  | .add c _ k => ¬ sp.direct c ∧ Late k
  | .unlock k => Late k
  | .ask k => Late (k true)
  | _ => False

/-- The move is an addition of `d` to `c` and of what `k` adds. -/
def Spec.Shifts (m : μ) (c : κ) (d : ℤ) (k : Prog κ ν ρ) : Prop :=
  ∀ x y, sp.apply x m y = x y + (if y = c then d else 0) + k.rest y

/-- Finding `old` in `c` is all the check of the move needs, unless it is a checked one. -/
def Spec.Suffices (m : μ) (c : κ) (old : ℤ) : Prop :=
  sp.checked m ∨ sp.direct c ∧ ∀ x, x c = old → sp.ok x m

def Early (m : μ) : Prog κ ν ρ → Prop
  | .ret r => ¬ sp.done r
  | .load _ k => ∀ v, Early m (k v)
  | .store c seen d k => sp.Shifts m c d k ∧ Late sp k ∧ sp.Suffices m c seen
  | .assign c v k => (∀ x, sp.apply x m = update x c v) ∧ (∀ y, k.rest y = 0) ∧ Late sp k
  | .add c d k => sp.Shifts m c d k ∧ Late sp k ∧ ∀ x, sp.ok x m
  | .cas c old d k fail => (sp.Shifts m c d k ∧ Late sp k ∧ sp.Suffices m c old) ∧ Early m fail
  | .lock k => Early m k
  | .unlock k => Early m k
  | .claim _ held free => Early m held ∧ Early m free
  | .forget _ k => Early m k
  | .ask k => ∀ yes, Early m (k yes)
  | .loop body => Early m body
  | .again => True

def Thread.Fits (t : Thread κ ν ρ μ) : Prop :=
  if t.begun then Late sp t.cur else Early sp t.move t.cur ∧ Early sp t.move t.entry

variable {sp}

theorem rest_direct {k : Prog κ ν ρ} (h : Late sp k) {y : κ} (hy : sp.direct y) : k.rest y = 0 := by
  induction k with
  | store c seen d k ih | add c d k ih =>
    have hne : y ≠ c := fun heq => h.1 (heq ▸ hy)
    simp only [Prog.rest, if_neg hne, zero_add]
    exact ih h.2
  | unlock k ih => exact ih h
  | ask k ih => exact ih true h
  | _ => rfl

theorem owes_direct {t : Thread κ ν ρ μ} (h : t.Fits sp) {y : κ} (hy : sp.direct y) : t.owes y = 0 := by
  unfold Thread.Fits at h
  unfold Thread.owes
  split at h
  · rw [if_pos (by assumption)]
    exact rest_direct h hy
  · rw [if_neg (by assumption)]

theorem shift_view {m : μ} {c : κ} {old d : ℤ} {k : Prog κ ν ρ} {counter view others : κ → ℤ}
    (hs : sp.Shifts m c d k) (hold : counter c = old) (hview : ∀ y, view y = counter y + others y)
    (y : κ) : update counter c (old + d) y + k.rest y + others y = sp.apply view m y := by
  rw [hs view y, hview y]
  by_cases hy : y = c
  · subst hy
    rw [update_self, if_pos rfl, hold]
    omega
  · rw [update_of_ne hy, if_neg hy]
    omega

omit [DecidableEq κ] in
theorem ok_of_suffices {m : μ} {c : κ} {old : ℤ} {counter view others : κ → ℤ} (hs : sp.Suffices m c old)
    (hold : counter c = old) (hview : ∀ y, view y = counter y + others y)
    (hdirect : ∀ y, sp.direct y → others y = 0) (hclean : sp.checked m → sp.ok view m) : sp.ok view m := by
  rcases hs with hc | ⟨hd, hok⟩
  · exact hclean hc
  · refine hok view ?_
    rw [hview c, hdirect c hd, hold, add_zero]

theorem owes_sum_direct {s : System κ ν ρ μ} (h : ∀ t ∈ s.threads, t.Fits sp) {y : κ} (hy : sp.direct y) :
    (s.threads.map (·.owes y)).sum = 0 := by
  apply sum_eq_zero
  intro v hv
  obtain ⟨t, ht, rfl⟩ := mem_map.1 hv
  exact owes_direct (h t ht) hy

def System.Quiet (s : System κ ν ρ μ) : Prop := ∀ t ∈ s.threads, ∃ r, t.cur = .ret r

def Prog.returned : Prog κ ν ρ → Option ρ
  | .ret r => some r
  | _ => none

omit [DecidableEq κ] in
theorem returned_iff {p : Prog κ ν ρ} {r : ρ} : p.returned = some r ↔ p = .ret r := by
  cases p <;> simp [Prog.returned]

instance (s : System κ ν ρ μ) : Decidable s.Quiet :=
  decidable_of_iff (∀ t ∈ s.threads, t.cur.returned.isSome) <| by
    simp only [System.Quiet, Option.isSome_iff_exists, returned_iff]

theorem begun_iff {t : Thread κ ν ρ μ} (h : t.Fits sp) {r : ρ} (hr : t.cur = .ret r) :
    t.begun = true ↔ sp.done r := by
  unfold Thread.Fits at h
  rw [hr] at h
  split at h
  · exact ⟨fun _ => h, fun _ => by assumption⟩
  · exact ⟨fun hb => absurd hb (by assumption), fun hd => absurd hd h.1⟩

theorem quiet_view {s : System κ ν ρ μ} (h : s.Quiet) : s.view = s.mem.counter := by
  funext y
  have hzero : (s.threads.map (·.owes y)).sum = 0 := by
    apply sum_eq_zero
    intro v hv
    obtain ⟨t, ht, rfl⟩ := mem_map.1 hv
    obtain ⟨r, hr⟩ := h t ht
    simp [Thread.owes, hr, Prog.rest]
  rw [System.view, hzero, add_zero]

/-! ## The interleaving -/

/-- A thread makes a step, with the answer it gets if it asks, or a claimed key is dropped. -/
inductive Action (ν : Type*)
  | step (i : ℕ) (yes : Bool)
  | evict (key : ν)

variable [DecidableEq ν] (rd : ℤ → ℤ)

/-- The next operation of thread `i`. A lock that is taken makes it wait. -/
def Thread.next (i : ℕ) (yes : Bool) (m : Memory κ ν) (t : Thread κ ν ρ μ) : Memory κ ν × Thread κ ν ρ μ :=
  match t.cur with
  | .ret _ => (m, t)
  | .load c k => (m, { t with cur := k (m.counter c) })
  | .store c seen d k =>
    ({ m with counter := update m.counter c (rd (seen + d)) }, { t with cur := k, begun := true })
  | .assign c v k => ({ m with counter := update m.counter c v }, { t with cur := k, begun := true })
  | .add c d k =>
    ({ m with counter := update m.counter c (rd (m.counter c + d)) }, { t with cur := k, begun := true })
  | .cas c old d ok fail =>
    if m.counter c = old then
      ({ m with counter := update m.counter c (rd (old + d)) }, { t with cur := ok, begun := true })
    else (m, { t with cur := fail })
  | .lock k => if m.owner = none then ({ m with owner := some i }, { t with cur := k }) else (m, t)
  | .unlock k => ({ m with owner := none }, { t with cur := k })
  | .claim key held free =>
    if key ∈ m.keys then (m, { t with cur := held })
    else ({ m with keys := key :: m.keys }, { t with cur := free })
  | .forget key k => ({ m with keys := m.keys.filter (· ≠ key) }, { t with cur := k })
  | .ask k => (m, { t with cur := k yes })
  | .loop body => (m, { t with entry := body, cur := body })
  | .again => (m, { t with cur := t.entry })

def System.act (s : System κ ν ρ μ) : Action ν → System κ ν ρ μ
  | .step i yes =>
    match s.threads[i]? with
    | none => s
    | some t => ⟨(t.next rd i yes s.mem).1, s.threads.set i (t.next rd i yes s.mem).2⟩
  | .evict key => { s with mem := { s.mem with keys := s.mem.keys.filter (· ≠ key) } }

section Condition

variable (sp)

/-- A sum that is written fits, a store overwrites what it was computed from, the check of a checked move still
holds at its first write, nothing is owed on a counter that is assigned, and a thread that has written is not
told no. -/
def Thread.Clean (t : Thread κ ν ρ μ) (yes : Bool) (counter view : κ → ℤ) (others : κ → ℤ) : Prop :=
  match t.cur with
  | .store c seen d _ => rd (seen + d) = seen + d ∧ counter c = seen ∧
      (t.begun = false → sp.checked t.move → sp.ok view t.move)
  | .add c d _ => rd (counter c + d) = counter c + d
  | .cas c old d _ _ => counter c = old → rd (old + d) = old + d ∧ (sp.checked t.move → sp.ok view t.move)
  | .assign c _ _ => sp.ok view t.move ∧ others c = 0
  | .ask _ => t.begun = true → yes = true
  | _ => True

def System.Clean (s : System κ ν ρ μ) : Action ν → Prop
  | .step i yes => ∀ t ∈ s.threads[i]?,
      t.Clean sp rd yes s.mem.counter s.view fun y => (s.threads.map (·.owes y)).sum - t.owes y
  | .evict _ => True

instance [DecidablePred sp.checked] [∀ x m, Decidable (sp.ok x m)] (t : Thread κ ν ρ μ)
    (yes : Bool) (counter view others : κ → ℤ) : Decidable (t.Clean sp rd yes counter view others) := by
  unfold Thread.Clean
  split <;> infer_instance

instance [DecidablePred sp.checked] [∀ x m, Decidable (sp.ok x m)] (s : System κ ν ρ μ) :
    (a : Action ν) → Decidable (s.Clean sp rd a)
  | .step i yes => inferInstanceAs (Decidable (∀ t ∈ s.threads[i]?,
      t.Clean sp rd yes s.mem.counter s.view fun y => (s.threads.map (·.owes y)).sum - t.owes y))
  | .evict _ => inferInstanceAs (Decidable True)

end Condition

/-! ## One operation of one thread -/

/-- The view is left alone, or the move of the thread is made while it is allowed. -/
def Progress (sp : Spec κ ρ μ) (t : Thread κ ν ρ μ) (m : Memory κ ν) (view others : κ → ℤ)
    (q : Memory κ ν × Thread κ ν ρ μ) : Prop :=
  q.2.Fits sp ∧ q.2.move = t.move ∧
  ((q.2.begun = t.begun ∧ ∀ y, q.1.counter y + q.2.owes y = m.counter y + t.owes y) ∨
    (t.begun = false ∧ q.2.begun = true ∧ sp.ok view t.move ∧
      ∀ y, q.1.counter y + q.2.owes y + others y = sp.apply view t.move y))

section Next

variable {rd} {t : Thread κ ν ρ μ} {m : Memory κ ν} {view others : κ → ℤ} {yes : Bool}

theorem next_late (i : ℕ) (hbegun : t.begun = true) (hlate : Late sp t.cur)
    (hclean : t.Clean sp rd yes m.counter view others) : Progress sp t m view others (t.next rd i yes m) := by
  obtain ⟨move, entry, cur, begun⟩ := t
  cases hbegun
  cases cur with
  | ret r => exact ⟨hlate, rfl, .inl ⟨rfl, fun _ => rfl⟩⟩
  -- what is stored is what was seen plus what was owed
  | store c seen d k =>
    refine ⟨hlate.2, rfl, .inl ⟨rfl, fun y => ?_⟩⟩
    obtain ⟨hfits, hseen, -⟩ := hclean
    simp only [Thread.next, Thread.owes, if_true, Prog.rest, hfits]
    by_cases hy : y = c
    · subst hy
      rw [update_self, if_pos rfl, hseen]
      omega
    · rw [update_of_ne hy, if_neg hy, zero_add]
  | add c d k =>
    refine ⟨hlate.2, rfl, .inl ⟨rfl, fun y => ?_⟩⟩
    have hfits : rd (m.counter c + d) = m.counter c + d := hclean
    simp only [Thread.next, Thread.owes, if_true, Prog.rest, hfits]
    by_cases hy : y = c
    · subst hy
      rw [update_self, if_pos rfl]
      omega
    · rw [update_of_ne hy, if_neg hy, zero_add]
  | unlock k => exact ⟨hlate, rfl, .inl ⟨rfl, fun _ => rfl⟩⟩
  | ask k =>
    obtain rfl : yes = true := hclean rfl
    exact ⟨hlate, rfl, .inl ⟨rfl, fun _ => rfl⟩⟩
  | _ => exact hlate.elim

theorem next_early (i : ℕ) (hbegun : t.begun = false) (hcur : Early sp t.move t.cur)
    (hentry : Early sp t.move t.entry) (hclean : t.Clean sp rd yes m.counter view others)
    (hview : ∀ y, view y = m.counter y + others y) (hdirect : ∀ y, sp.direct y → others y = 0) :
    Progress sp t m view others (t.next rd i yes m) := by
  obtain ⟨move, entry, cur, begun⟩ := t
  cases hbegun
  -- no write: only the program moves on
  have quiet : ∀ {q : Prog κ ν ρ} (m' : Memory κ ν), m'.counter = m.counter → Early sp move q →
      Progress sp ⟨move, entry, cur, false⟩ m view others (m', ⟨move, entry, q, false⟩) :=
    fun m' hm hq => ⟨⟨hq, hentry⟩, rfl, .inl ⟨rfl, fun y => by rw [hm]; rfl⟩⟩
  cases cur with
  | ret r => exact quiet m rfl hcur
  | load c k => exact quiet m rfl (hcur _)
  | store c seen d k =>
    obtain ⟨hs, hlate, hsuf⟩ := hcur
    obtain ⟨hfits, hseen, hok⟩ := hclean
    refine ⟨hlate, rfl, .inr ⟨rfl, rfl, ok_of_suffices hsuf hseen hview hdirect (hok rfl), ?_⟩⟩
    simp only [Thread.next, hfits]
    exact shift_view hs hseen hview
  -- nothing is owed on the counter, neither by the others nor by this thread
  | assign c v k =>
    obtain ⟨hset, hrest, hlate⟩ := hcur
    obtain ⟨hok, hothers⟩ := hclean
    refine ⟨hlate, rfl, .inr ⟨rfl, rfl, hok, fun y => ?_⟩⟩
    rw [hset view]
    simp only [Thread.next, Thread.owes, if_true, hrest y, add_zero]
    by_cases hy : y = c
    · subst hy
      rw [update_self, update_self, hothers, add_zero]
    · rw [update_of_ne hy, update_of_ne hy, hview y]
  | add c d k =>
    obtain ⟨hs, hlate, hok⟩ := hcur
    refine ⟨hlate, rfl, .inr ⟨rfl, rfl, hok view, ?_⟩⟩
    have hfits : rd (m.counter c + d) = m.counter c + d := hclean
    simp only [Thread.next, hfits]
    exact shift_view hs rfl hview
  | cas c old d ok fail =>
    obtain ⟨⟨hs, hlate, hsuf⟩, hfail⟩ := hcur
    unfold Thread.next
    dsimp only
    split
    · rename_i hold
      obtain ⟨hfits, hok⟩ := hclean hold
      refine ⟨hlate, rfl, .inr ⟨rfl, rfl, ok_of_suffices hsuf hold hview hdirect hok, ?_⟩⟩
      simp only [hfits]
      exact shift_view hs hold hview
    · exact quiet m rfl hfail
  | lock k =>
    unfold Thread.next
    dsimp only
    split
    · exact quiet _ rfl hcur
    · exact quiet m rfl hcur
  | unlock k | forget key k => exact quiet _ rfl hcur
  | claim key held free =>
    unfold Thread.next
    dsimp only
    split
    · exact quiet m rfl hcur.1
    · exact quiet _ rfl hcur.2
  | ask k => exact quiet m rfl (hcur yes)
  | loop body => exact ⟨⟨hcur, hcur⟩, rfl, .inl ⟨rfl, fun _ => rfl⟩⟩
  | again => exact quiet m rfl hentry

/-- **A step of a thread.** -/
theorem next_cases (i : ℕ) (hfit : t.Fits sp) (hclean : t.Clean sp rd yes m.counter view others)
    (hview : ∀ y, view y = m.counter y + t.owes y + others y)
    (hdirect : ∀ y, sp.direct y → others y = 0) : Progress sp t m view others (t.next rd i yes m) := by
  unfold Thread.Fits at hfit
  split at hfit
  · rename_i hbegun
    exact next_late i hbegun hfit hclean
  · rename_i hbegun
    rw [Bool.not_eq_true] at hbegun
    refine next_early i hbegun hfit.1 hfit.2 hclean (fun y => ?_) hdirect
    rw [hview y, Thread.owes, hbegun]
    simp

end Next

/-! ## The whole system -/

theorem act_moves (s : System κ ν ρ μ) (a : Action ν) :
    (s.act rd a).threads.map (·.move) = s.threads.map (·.move) := by
  cases a with
  | evict key => rfl
  | step i yes =>
    unfold System.act
    dsimp only
    split
    · rfl
    · rename_i t ht
      have hmove : (t.next rd i yes s.mem).2.move = t.move := by
        unfold Thread.next
        split <;> first | rfl | (split <;> rfl)
      obtain ⟨hlt, rfl⟩ := List.getElem?_eq_some_iff.1 ht
      rw [map_set, hmove, ← map_set, set_getElem_self]

/-- The view is what the moves of the threads that have written make of the start, each allowed when
it was made. -/
structure Inv (sp : Spec κ ρ μ) (x₀ : κ → ℤ) (s : System κ ν ρ μ) (log : List μ) : Prop where
  fits : ∀ t ∈ s.threads, t.Fits sp
  legal : Along sp.apply sp.ok x₀ log
  view : s.view = run sp.apply x₀ log
  made : log.Perm ((s.threads.filter (·.begun)).map (·.move))

/-- **One action**: the moves made stay as they are, or one is added. -/
theorem act_inv {x₀ : κ → ℤ} {s : System κ ν ρ μ} {log : List μ} {a : Action ν} (h : Inv sp x₀ s log)
    (hclean : s.Clean sp rd a) : ∃ log', Inv sp x₀ (s.act rd a) log' := by
  cases a with
  | evict key => exact ⟨log, h.fits, h.legal, h.view, h.made⟩
  | step i yes =>
    unfold System.act
    dsimp only
    split
    · exact ⟨log, h⟩
    rename_i t ht
    have hmem : t ∈ s.threads := List.mem_of_getElem? ht
    have hfit := h.fits t hmem
    -- the others owe nothing on a direct counter
    have hdirect : ∀ y, sp.direct y → (s.threads.map (·.owes y)).sum - t.owes y = 0 := by
      intro y hy
      rw [owes_sum_direct h.fits hy, owes_direct hfit hy, sub_zero]
    obtain ⟨hfit', hmove, hcase⟩ := next_cases i hfit (hclean t ht)
      (fun y => by simp only [System.view]; omega) hdirect
    obtain ⟨hperm, hset⟩ := perm_rest ht
    have hfits : ∀ t' ∈ s.threads.set i (t.next rd i yes s.mem).2, t'.Fits sp := forall_mem_set h.fits hfit'
    have hview : ∀ y, System.view ⟨(t.next rd i yes s.mem).1, s.threads.set i (t.next rd i yes s.mem).2⟩ y =
        (t.next rd i yes s.mem).1.counter y + (t.next rd i yes s.mem).2.owes y +
          ((s.threads.map (·.owes y)).sum - t.owes y) := by
      intro y
      simp only [System.view, ((hset _).map _).sum_eq, (hperm.map _).sum_eq, map_cons, sum_cons]
      omega
    -- the same moves as before, or one more
    rcases hcase with ⟨hbegun, hsame⟩ | ⟨hbefore, hafter, hok, hnew⟩
    · refine ⟨log, hfits, h.legal, ?_, ?_⟩
      · rw [← h.view]
        funext y
        rw [hview y, hsame y]
        simp only [System.view]
        omega
      · refine h.made.trans (((hperm.filter _).map _).trans (.trans ?_ (((hset _).filter _).map _).symm))
        rw [filter_cons, filter_cons, hbegun]
        split <;> simp [hmove]
    · -- the first write of the thread: its move comes last
      refine ⟨log ++ [t.move], hfits, ?_, ?_, ?_⟩
      · rw [along_snoc, ← h.view]
        exact ⟨h.legal, hok⟩
      · rw [run_snoc, ← h.view]
        funext y
        rw [hview y, hnew y]
      · have hmade := h.made.trans ((hperm.filter _).map _)
        rw [filter_cons_of_neg (by simp [hbefore])] at hmade
        refine List.Perm.trans ?_ (((hset _).filter _).map _).symm
        rw [filter_cons_of_pos hafter, map_cons, hmove]
        exact (perm_append_singleton _ _).trans (hmade.cons _)

/-- **Every clean interleaving is a sequential run of the moves made.** -/
theorem run_inv {s : System κ ν ρ μ} (hstart : ∀ t ∈ s.threads, t.begun = false)
    (hfits : ∀ t ∈ s.threads, t.Fits sp) {acts : List (Action ν)}
    (h : Along (System.act rd) (System.Clean sp rd) s acts) :
    ∃ log, Inv sp s.mem.counter (run (System.act rd) s acts) log := by
  have hnone : s.threads.filter (·.begun) = [] := by
    rw [filter_eq_nil_iff]
    intro t ht
    simp [hstart t ht]
  have hzero : ∀ y, (s.threads.map (·.owes y)).sum = 0 := by
    intro y
    apply sum_eq_zero
    intro v hv
    obtain ⟨t, ht, rfl⟩ := mem_map.1 hv
    simp [Thread.owes, hstart t ht]
  have h₀ : ∃ log, Inv sp s.mem.counter s log := by
    refine ⟨[], hfits, trivial, ?_, by rw [hnone]; exact .refl _⟩
    funext y
    simp [System.view, hzero y]
  exact run_preserves (P := fun s' => ∃ log, Inv sp s.mem.counter s' log) (fun _ _ ⟨_, hlog⟩ => act_inv rd hlog) h₀ h

end Lib.Atomic
