import Settla.Lib.Run

/-!
# Interleaved threads

A thread is a program of atomic steps on a shared state. A step has a label, and goes on in a way that
depends on the state it found and on an answer of the environment. Threads take their steps in any
order and can be dropped before any step. A program `Follows G` when each of its steps does what `G`
allows at its label.
-/

namespace Lib.Threads

open List

variable {σ α γ ρ ι : Type*}

/-- A program on a shared state `σ` with answers `α`, labels `γ` and results `ρ`. -/
inductive Prog (σ α γ ρ : Type*)
  | ret (r : ρ)
  | act (label : γ) (f : α → σ → σ) (k : α → σ → Prog σ α γ ρ)

inductive Pos (γ ρ : Type*)
  | before (label : γ)
  | returned (r : ρ)

def Pos.ended : Pos γ ρ → Bool
  | .before _ => false
  | .returned _ => true

def Pos.label? : Pos γ ρ → Option γ
  | .before g => some g
  | .returned _ => none

def Prog.pos : Prog σ α γ ρ → Pos γ ρ
  | .ret r => .returned r
  | .act g _ _ => .before g

structure System (σ α γ ρ : Type*) where
  state : σ
  threads : List (Prog σ α γ ρ)

def System.positions (s : System σ α γ ρ) : List (Pos γ ρ) := s.threads.map Prog.pos

inductive Action (ι α : Type*)
  /-- a thread starts -/
  | start (c : ι)
  /-- thread `i` takes its next step and is answered `a` -/
  | step (i : ℕ) (a : α)
  /-- thread `i` crashes -/
  | drop (i : ℕ)

/-- Perform an action; `code` are the programs that can be started. -/
def System.act (code : ι → Prog σ α γ ρ) (s : System σ α γ ρ) : Action ι α → System σ α γ ρ
  | .start c => { s with threads := s.threads ++ [code c] }
  | .drop i => { s with threads := s.threads.eraseIdx i }
  | .step i a =>
    match s.threads[i]? with
    | some (.act _ f k) => ⟨f a s.state, s.threads.set i (k a s.state)⟩
    | _ => s

/-- Each step of the program does what `G` allows: at a label, with an answer, from one
state to the next and on to a position. -/
def Prog.Follows (G : γ → α → σ → σ → Pos γ ρ → Prop) : Prog σ α γ ρ → Prop
  | .ret _ => True
  | .act g f k => ∀ a s, G g a s (f a s) (k a s).pos ∧ (k a s).Follows G

variable {G : γ → α → σ → σ → Pos γ ρ → Prop} {code : ι → Prog σ α γ ρ} {G' : γ → α → σ → σ → Pos γ ρ → Prop}

theorem Prog.Follows.mono (h : ∀ g a s s' q, G g a s s' q → G' g a s s' q)
    {p : Prog σ α γ ρ} (hp : p.Follows G) : p.Follows G' := by
  induction p with
  | ret r => trivial
  | act g f k ih => exact fun a s => ⟨h _ _ _ _ _ (hp a s).1, ih a s (hp a s).2⟩

theorem Prog.Follows.and {p : Prog σ α γ ρ} (hp : p.Follows G)
    (hp' : p.Follows G') : p.Follows fun g a s s' q => G g a s s' q ∧ G' g a s s' q := by
  induction p with
  | ret r => trivial
  | act g f k ih => exact fun a s => ⟨⟨(hp a s).1, (hp' a s).1⟩, ih a s (hp a s).2 (hp' a s).2⟩

def System.Following (G : γ → α → σ → σ → Pos γ ρ → Prop) (s : System σ α γ ρ) : Prop :=
  ∀ p ∈ s.threads, p.Follows G

/-- What an action can do, on states and positions. -/
inductive Effect (G : γ → α → σ → σ → Pos γ ρ → Prop) (code : ι → Prog σ α γ ρ) (s : σ) (ps : List (Pos γ ρ)) :
    Action ι α → σ → List (Pos γ ρ) → Prop
  | start (c : ι) : Effect G code s ps (.start c) s (ps ++ [(code c).pos])
  | drop (i : ℕ) : Effect G code s ps (.drop i) s (ps.eraseIdx i)
  /-- there is no such thread, or it has returned -/
  | idle (i : ℕ) (a : α) : Effect G code s ps (.step i a) s ps
  | step (i : ℕ) (a : α) (g : γ) (s' : σ) (q : Pos γ ρ) : ps[i]? = some (.before g) → G g a s s' q →
      Effect G code s ps (.step i a) s' (ps.set i q)

variable {s : System σ α γ ρ}

/-- **An action has an effect `G` allows**, and the threads go on following `G`. -/
theorem act_cases (hcode : ∀ c, (code c).Follows G) (hs : s.Following G) (a : Action ι α) :
    (s.act code a).Following G ∧
      Effect G code s.state s.positions a (s.act code a).state (s.act code a).positions := by
  cases a with
  | start c =>
    have h : Effect G code s.state s.positions (.start c) s.state (s.positions ++ [(code c).pos]) := .start c
    exact ⟨forall_mem_snoc hs (hcode c), by simpa [System.act, System.positions] using h⟩
  | drop i =>
    refine ⟨fun p hp => hs p (mem_of_mem_eraseIdx hp), ?_⟩
    have h : Effect G code s.state s.positions (.drop i) s.state (s.positions.eraseIdx i) := .drop i
    simpa [System.act, System.positions, eraseIdx_map] using h
  | step i a =>
    simp only [System.act]
    split
    · rename_i g f k hi
      have hp := hs _ (List.mem_of_getElem? hi)
      have hpos : s.positions[i]? = some (.before g) := by simp [System.positions, hi, Prog.pos]
      have h : Effect G code s.state s.positions (.step i a) (f a s.state) (s.positions.set i (k a s.state).pos) :=
        .step i a g _ _ hpos (hp a s.state).1
      exact ⟨forall_mem_set hs (hp a s.state).2, by simpa [System.positions, map_set] using h⟩
    · exact ⟨hs, .idle i a⟩

/-- How a call to the outside ends. One that is `lost` has been carried out, but its caller
sees an error. -/
inductive Reply
  | ok | error | lost
  deriving DecidableEq

/-- Whether the call was carried out. -/
def Reply.applied : Reply → Bool
  | .ok => true
  | .error => false
  | .lost => true

/-! ## Invariants -/

/-- `J` is kept by every effect of an action that meets `ok`. -/
def Keeps (G : γ → α → σ → σ → Pos γ ρ → Prop) (code : ι → Prog σ α γ ρ)
    (ok : σ → List (Pos γ ρ) → Action ι α → Prop) (J : σ → List (Pos γ ρ) → Prop) : Prop :=
  ∀ s ps a s' ps', J s ps → ok s ps a → Effect G code s ps a s' ps' → J s' ps'

variable {ok : σ → List (Pos γ ρ) → Action ι α → Prop} {J : σ → List (Pos γ ρ) → Prop}

/-- Every action of the run meets `ok`, in the state and at the positions it finds. -/
def Meets (code : ι → Prog σ α γ ρ) (ok : σ → List (Pos γ ρ) → Action ι α → Prop) :
    System σ α γ ρ → List (Action ι α) → Prop :=
  Along (System.act code) fun s a => ok s.state s.positions a

instance [∀ s ps a, Decidable (ok s ps a)] (s : System σ α γ ρ) (as : List (Action ι α)) :
    Decidable (Meets code ok s as) :=
  inferInstanceAs (Decidable (Along _ _ s as))

/-- **Invariant rule.** -/
theorem run_keeps (hcode : ∀ c, (code c).Follows G) (hJ : Keeps G code ok J)
    (hs : s.Following G) (h : J s.state s.positions) {as : List (Action ι α)} (has : Meets code ok s as) :
    (run (System.act code) s as).Following G ∧
      J (run (System.act code) s as).state (run (System.act code) s as).positions := by
  refine run_preserves (P := fun s : System σ α γ ρ => s.Following G ∧ J s.state s.positions) ?_ ⟨hs, h⟩ has
  rintro s a ⟨hs, h⟩ ha
  obtain ⟨hs', heff⟩ := act_cases hcode hs a
  exact ⟨hs', hJ _ _ _ _ _ h ha heff⟩

def System.init (s : σ) : System σ α γ ρ := ⟨s, []⟩

theorem init_following (s : σ) : (System.init s : System σ α γ ρ).Following G := by
  simp [System.Following, System.init]

/-- Threads that run one after the other, each with up to `n` steps answered alike. -/
def inOrder (cs : List ι) (n : ℕ) (a : α) : List (Action ι α) :=
  cs.zipIdx.flatMap fun (c, i) => .start c :: List.replicate n (.step i a)

/-! ## A program on a part of the state -/

/-- How a program on `σ` works on one part of a larger state `σ'`. -/
structure Focus (σ α γ ρ σ' α' γ' ρ' : Type*) where
  get : σ' → Option σ
  put : σ → σ' → σ'
  answer : α' → α
  label : γ → γ'
  result : ρ → ρ'
  /-- what is returned where there is no such part -/
  missing : ρ'

section Focus

variable {σ' α' γ' ρ' : Type*} (F : Focus σ α γ ρ σ' α' γ' ρ')

def Focus.pos : Pos γ ρ → Pos γ' ρ'
  | .before g => .before (F.label g)
  | .returned r => .returned (F.result r)

def Prog.focus : Prog σ α γ ρ → Prog σ' α' γ' ρ'
  | .ret r => .ret (F.result r)
  | .act g f k =>
    .act (F.label g) (fun a s => (F.get s).elim s fun x => F.put (f (F.answer a) x) s)
      fun a s => (F.get s).elim (.ret F.missing) fun x => (k (F.answer a) x).focus

theorem focus_pos (p : Prog σ α γ ρ) : (p.focus F).pos = F.pos p.pos := by
  cases p <;> rfl

/-- What a program does to the larger state, when it does `G` to its part. -/
inductive Focused (G : γ → α → σ → σ → Pos γ ρ → Prop) : γ' → α' → σ' → σ' → Pos γ' ρ' → Prop
  | missing {g a s} : Focused G (F.label g) a s s (.returned F.missing)
  | does {g a s x y q} : F.get s = some x → G g (F.answer a) x y q → Focused G (F.label g) a s (F.put y s) (F.pos q)

theorem Prog.Follows.focus {p : Prog σ α γ ρ} (hp : p.Follows G) : (p.focus F).Follows (Focused F G) := by
  induction p with
  | ret r => trivial
  | act g f k ih =>
    intro a s
    dsimp only
    cases hs : F.get s with
    | none => exact ⟨.missing, trivial⟩
    | some x =>
      obtain ⟨hG, hk⟩ := hp (F.answer a) x
      refine ⟨?_, ih _ _ hk⟩
      rw [Option.elim_some, Option.elim_some, focus_pos]
      exact .does hs hG

end Focus

/-! ## One program by itself -/

/-- Run a program with the answers it gets; it crashes when they end before it returns. -/
def Prog.exec : Prog σ α γ ρ → List α → σ → σ × Option ρ
  | .ret r, _, s => (s, some r)
  | .act _ _ _, [], s => (s, none)
  | .act _ f k, a :: as, s => (k a s).exec as (f a s)

@[simp] theorem exec_ret (r : ρ) (as : List α) (s : σ) : (Prog.ret r : Prog σ α γ ρ).exec as s = (s, some r) := by
  cases as <;> rfl

/-- Each answer of the run meets `ok` at its label, and a crash comes only before a label
that `crash` allows. -/
def Prog.Within (ok : γ → α → Prop) (crash : γ → Prop) : Prog σ α γ ρ → List α → σ → Prop
  | .ret _, _, _ => True
  | .act g _ _, [], _ => crash g
  | .act g f k, a :: as, s => ok g a ∧ (k a s).Within ok crash as (f a s)

/-- What is known when a run ends: at the result, or at the label before which it crashed. -/
def Ended (crash : γ → Prop) (J : σ → Pos γ ρ → Prop) (s : σ) : Option ρ → Prop
  | some r => J s (.returned r)
  | none => ∃ g, crash g ∧ J s (.before g)

section Exec

variable {p : Prog σ α γ ρ} {okAt : γ → α → Prop} {crash : γ → Prop} {K : σ → Pos γ ρ → Prop}

/-- **Assertions at the labels**: what each step passes on to the next position holds at
the end. -/
theorem exec_keeps (hp : p.Follows G) (hK : ∀ g a s s' q, K s (.before g) → okAt g a → G g a s s' q → K s' q)
    {as : List α} {s : σ} (h : K s p.pos) (has : p.Within okAt crash as s) :
    Ended crash K (p.exec as s).1 (p.exec as s).2 := by
  induction p generalizing as s with
  | ret r => cases as <;> exact h
  | act g f k ih =>
    cases as with
    | nil => exact ⟨g, has, h⟩
    | cons a as =>
      obtain ⟨hG, hk⟩ := hp a s
      exact ih a s hk (hK _ _ _ _ _ h has.1 hG) has.2

theorem exec_position (hp : p.Follows G) (hK : ∀ g a s s' q, K s (.before g) → G g a s s' q → K s' q)
    {s : σ} (h : K s p.pos) (as : List α) : ∃ q, K (p.exec as s).1 q := by
  induction p generalizing as s with
  | ret r => exact ⟨_, by cases as <;> exact h⟩
  | act g f k ih =>
    cases as with
    | nil => exact ⟨_, h⟩
    | cons a as =>
      obtain ⟨hG, hk⟩ := hp a s
      exact ih a s hk (hK _ _ _ _ _ h hG) as

/-- Run a program again and again, each time with its own answers; the state and the
result after each run. -/
def Prog.rerun (p : Prog σ α γ ρ) : σ → List (List α) → List (σ × Option ρ)
  | _, [] => []
  | s, as :: rest => p.exec as s :: p.rerun (p.exec as s).1 rest

/-- All runs stay within the conditions. -/
def Prog.RerunWithin (okAt : γ → α → Prop) (crash : γ → Prop) (p : Prog σ α γ ρ) : σ → List (List α) → Prop
  | _, [] => True
  | s, as :: rest => p.Within okAt crash as s ∧ p.RerunWithin okAt crash (p.exec as s).1 rest

theorem rerun_keeps (hp : p.Follows G) (hK : ∀ g a s s' q, K s (.before g) → okAt g a → G g a s s' q → K s' q)
    (hagain : ∀ s o, Ended crash K s o → K s p.pos) {rs : List (List α)} {s : σ} (h : K s p.pos)
    (hrs : p.RerunWithin okAt crash s rs) : ∀ x ∈ p.rerun s rs, Ended crash K x.1 x.2 := by
  induction rs generalizing s with
  | nil => intro x hx; cases hx
  | cons as rs ih =>
    have hend := exec_keeps hp hK h hrs.1
    intro x hx
    rcases mem_cons.1 hx with rfl | hx
    · exact hend
    · exact ih (hagain _ _ hend) hrs.2 x hx

/-- The run comes to its end, and each of its steps meets `ok` in the state it finds. -/
def Prog.Throughout (ok : σ → γ → α → Prop) : Prog σ α γ ρ → List α → σ → Prop
  | .ret _, _, _ => True
  | .act _ _ _, [], _ => False
  | .act g f k, a :: as, s => ok s g a ∧ (k a s).Throughout ok as (f a s)

def Prog.RerunThroughout (ok : σ → γ → α → Prop) (p : Prog σ α γ ρ) : σ → List (List α) → Prop
  | _, [] => True
  | s, as :: rest => p.Throughout ok as s ∧ p.RerunThroughout ok (p.exec as s).1 rest

section Throughout

variable {okIn : σ → γ → α → Prop}

theorem exec_throughout (hp : p.Follows G) (hK : ∀ g a s s' q, K s (.before g) → okIn s g a → G g a s s' q → K s' q)
    {as : List α} {s : σ} (h : K s p.pos) (has : p.Throughout okIn as s) :
    ∃ r, (p.exec as s).2 = some r ∧ K (p.exec as s).1 (.returned r) := by
  induction p generalizing as s with
  | ret r => exact ⟨r, by cases as <;> rfl, by cases as <;> exact h⟩
  | act g f k ih =>
    cases as with
    | nil => exact has.elim
    | cons a as =>
      obtain ⟨hG, hk⟩ := hp a s
      exact ih a s hk (hK _ _ _ _ _ h has.1 hG) has.2

theorem rerun_throughout (hp : p.Follows G) (hK : ∀ g a s s' q, K s (.before g) → okIn s g a → G g a s s' q → K s' q)
    (hagain : ∀ s r, K s (.returned r) → K s p.pos) {rs : List (List α)} {s : σ} (h : K s p.pos)
    (hrs : p.RerunThroughout okIn s rs) : ∀ x ∈ p.rerun s rs, ∃ r, x.2 = some r ∧ K x.1 (.returned r) := by
  induction rs generalizing s with
  | nil => intro x hx; cases hx
  | cons as rs ih =>
    have hend := exec_throughout hp hK h hrs.1
    intro x hx
    rcases mem_cons.1 hx with rfl | hx
    · exact hend
    · obtain ⟨r, -, hr⟩ := hend
      exact ih (hagain _ r hr) hrs.2 x hx

end Throughout

/-! ### Histories

A history is a summary of the steps so far and of what the environment did at each. -/

section History

variable {β η : Type*} {answer : β → α} {next : η → γ × β → η} {possible : γ × β → Prop}
  {okStep : η → γ × β → Prop} {P : η → γ → Prop}

/-- The steps of a run, each with what the environment does at it. -/
def Prog.trace (answer : β → α) : Prog σ α γ ρ → List β → σ → List (γ × β)
  | .ret _, _, _ => []
  | .act _ _ _, [], _ => []
  | .act g f k, b :: bs, s => (g, b) :: (k (answer b) s).trace answer bs (f (answer b) s)

/-- No run comes to its end with only steps that `P` allows. -/
def Prog.Breaks (answer : β → α) (next : η → γ × β → η) (P : η → γ → Prop) : η → Prog σ α γ ρ → Prop
  | _, .ret _ => False
  | h, .act g _ k => P h g → ∀ b s, (k (answer b) s).Breaks answer next P (next h (g, b))

/-- While the environment keeps to `okStep`, `P` allows each step; once it does not, a run that ends
breaks `P`. -/
def Prog.Hinges (answer : β → α) (next : η → γ × β → η) (possible : γ × β → Prop) (okStep : η → γ × β → Prop)
    (P : η → γ → Prop) : η → Prog σ α γ ρ → Prop
  | _, .ret _ => True
  | h, .act g _ k => P h g ∧ ∀ b s, possible (g, b) →
    (okStep h (g, b) → (k (answer b) s).Hinges answer next possible okStep P (next h (g, b))) ∧
      (¬ okStep h (g, b) → (k (answer b) s).Breaks answer next P (next h (g, b)))

variable {bs : List β}

/-- **Steps are justified by the history** along every run that keeps to the condition. -/
theorem trace_justified {h : η} (hp : p.Hinges answer next possible okStep P h) {s : σ}
    (hposs : ∀ x ∈ p.trace answer bs s, possible x) (hok : Along next okStep h (p.trace answer bs s)) :
    Along next (fun h x => P h x.1) h (p.trace answer bs s) := by
  induction p generalizing h bs s with
  | ret r => cases bs <;> trivial
  | act g f k ih =>
    cases bs with
    | nil => trivial
    | cons b bs =>
      obtain ⟨hP, hk⟩ := hp
      have hb := (hk b s (hposs _ mem_cons_self)).1 hok.1
      exact ⟨hP, ih _ _ hb (fun x hx => hposs x (mem_cons_of_mem _ hx)) hok.2⟩

theorem not_along_of_breaks {h : η} (hp : p.Breaks answer next P h) {s : σ}
    (hend : (p.exec (bs.map answer) s).2.isSome) : ¬ Along next (fun h x => P h x.1) h (p.trace answer bs s) := by
  induction p generalizing h bs s with
  | ret r => exact hp.elim
  | act g f k ih =>
    cases bs with
    | nil => cases hend
    | cons b bs =>
      intro hall
      exact ih _ _ (hp hall.1 b s) hend hall.2

/-- **The condition is needed**: a run that ends, and whose steps are all justified, keeps to
it. -/
theorem trace_within {h : η} (hp : p.Hinges answer next possible okStep P h) {s : σ}
    (hposs : ∀ x ∈ p.trace answer bs s, possible x) (hend : (p.exec (bs.map answer) s).2.isSome)
    (hall : Along next (fun h x => P h x.1) h (p.trace answer bs s)) : Along next okStep h (p.trace answer bs s) := by
  induction p generalizing h bs s with
  | ret r => cases bs <;> trivial
  | act g f k ih =>
    cases bs with
    | nil => cases hend
    | cons b bs =>
      obtain ⟨-, hk⟩ := hp
      have hb := hk b s (hposs _ mem_cons_self)
      by_cases hstep : okStep h (g, b)
      · exact ⟨hstep, ih _ _ (hb.1 hstep) (fun x hx => hposs x (mem_cons_of_mem _ hx)) hend hall.2⟩
      · exact (not_along_of_breaks (hb.2 hstep) hend hall.2).elim

end History

instance Prog.decidableWithin [∀ g a, Decidable (okAt g a)] [∀ g, Decidable (crash g)] :
    ∀ (p : Prog σ α γ ρ) (as : List α) (s : σ), Decidable (p.Within okAt crash as s)
  | .ret _, _, _ => .isTrue trivial
  | .act g _ _, [], _ => inferInstanceAs (Decidable (crash g))
  | .act g f k, a :: as, s =>
    have := Prog.decidableWithin (k a s) as (f a s)
    inferInstanceAs (Decidable (okAt g a ∧ (k a s).Within okAt crash as (f a s)))

instance Prog.decidableRerunWithin [∀ g a, Decidable (okAt g a)] [∀ g, Decidable (crash g)] (p : Prog σ α γ ρ) :
    ∀ (s : σ) (rs : List (List α)), Decidable (p.RerunWithin okAt crash s rs)
  | _, [] => .isTrue trivial
  | s, as :: rest =>
    have := Prog.decidableRerunWithin p (p.exec as s).1 rest
    inferInstanceAs (Decidable (p.Within okAt crash as s ∧ p.RerunWithin okAt crash (p.exec as s).1 rest))

instance Prog.decidableThroughout {okIn : σ → γ → α → Prop} [∀ s g a, Decidable (okIn s g a)] :
    ∀ (p : Prog σ α γ ρ) (as : List α) (s : σ), Decidable (p.Throughout okIn as s)
  | .ret _, _, _ => .isTrue trivial
  | .act _ _ _, [], _ => .isFalse id
  | .act g f k, a :: as, s =>
    have : Decidable ((k a s).Throughout okIn as (f a s)) := Prog.decidableThroughout (k a s) as (f a s)
    inferInstanceAs (Decidable (okIn s g a ∧ (k a s).Throughout okIn as (f a s)))

instance Prog.decidableRerunThroughout {okIn : σ → γ → α → Prop} [∀ s g a, Decidable (okIn s g a)] (p : Prog σ α γ ρ) :
    ∀ (s : σ) (rs : List (List α)), Decidable (p.RerunThroughout okIn s rs)
  | _, [] => .isTrue trivial
  | s, as :: rest =>
    have : Decidable (p.RerunThroughout okIn (p.exec as s).1 rest) := Prog.decidableRerunThroughout p (p.exec as s).1 rest
    inferInstanceAs (Decidable (p.Throughout okIn as s ∧ p.RerunThroughout okIn (p.exec as s).1 rest))

end Exec

end Lib.Threads
