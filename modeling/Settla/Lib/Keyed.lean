import Mathlib.Data.List.Induction
import Mathlib.Data.List.Nodup
import Mathlib.Algebra.BigOperators.Group.List.Basic

/-!
# Maps that are filled in a loop

A map is the list of its entries. `tally` changes the value of each element's key, `grouped` collects
the elements; `Reading` is any order in which a map is read.
-/

namespace Lib.Keyed

open List

variable {α κ ν : Type*}

/-- An order in which the entries of a map are read. -/
structure Reading (α : Type*) where
  read : List α → List α
  perm : ∀ l, (read l).Perm l

def Reading.inserted : Reading α := ⟨id, fun _ => List.Perm.rfl⟩

theorem Reading.mem (r : Reading α) {l : List α} {a : α} : a ∈ r.read l ↔ a ∈ l := (r.perm l).mem_iff

/-- A sort that may exchange elements of which neither is less. -/
structure Sorting (α : Type*) (less : α → α → Prop) extends Reading α where
  sorted : ∀ l, (read l).Pairwise fun a b => ¬ less b a

theorem Sorting.exists_read [DecidableEq α] {less : α → α → Prop} (o : Sorting α less) {l l' : List α}
    (hperm : l'.Perm l) (hsorted : l'.Pairwise fun a b => ¬ less b a) :
    ∃ o' : Sorting α less, o'.read l = l' := by
  refine ⟨⟨⟨fun x => if x = l then l' else o.read x, fun x => ?_⟩, fun x => ?_⟩, if_pos rfl⟩
  · split_ifs with hx
    · rw [hx]
      exact hperm
    · exact o.perm x
  · dsimp only
    split_ifs with hx
    · exact hsorted
    · exact o.sorted x

/-- In a sorted list the first ones are those with few before them. -/
theorem mem_take_sorted (key : α → ℕ) {l : List α} (h : l.Pairwise fun a b => key a < key b) {n : ℕ} {x : α} :
    x ∈ l.take n ↔ x ∈ l ∧ l.countP (key · < key x) < n := by
  induction l generalizing n with
  | nil => simp
  | cons a l ih =>
    obtain ⟨hfirst, hl⟩ := pairwise_cons.1 h
    cases n with
    | zero => simp
    | succ n =>
      have hnone : x = a → l.countP (key · < key x) = 0 := by
        rintro rfl
        exact countP_eq_zero.2 fun b hb => by simpa using Nat.le_of_lt (hfirst b hb)
      have hmore : x ∈ l → (a :: l).countP (key · < key x) = l.countP (key · < key x) + 1 :=
        fun hx => countP_cons_of_pos (by simpa using hfirst x hx)
      rw [take_succ_cons, mem_cons, mem_cons, ih hl]
      constructor
      · rintro (rfl | ⟨hx, hlt⟩)
        · exact ⟨.inl rfl, by simp [hnone rfl]⟩
        · exact ⟨.inr hx, by rw [hmore hx]; omega⟩
      · rintro ⟨rfl | hx, hlt⟩
        · exact .inl rfl
        · rw [hmore hx] at hlt
          exact .inr ⟨hx, by omega⟩

variable [DecidableEq κ]

def get (m : List (κ × ν)) (k : κ) : Option ν := (m.find? (·.1 = k)).map (·.2)

/-- Change the value of a key, which starts from `init` if the key is new. -/
def upsert (init : κ → ν) (f : ν → ν) (k : κ) : List (κ × ν) → List (κ × ν)
  | [] => [(k, f (init k))]
  | e :: m => if e.1 = k then (e.1, f e.2) :: m else e :: upsert init f k m

/-- Go through a list and change the value of each key. -/
def tally (init : κ → ν) (key : α → κ) (f : α → ν → ν) (l : List α) : List (κ × ν) :=
  l.foldl (fun m x => upsert init (f x) (key x) m) []

def grouped (key : α → κ) (l : List α) : List (κ × List α) := tally (fun _ => []) key (fun x xs => xs ++ [x]) l

section

variable {init : κ → ν} {key : α → κ} {f : α → ν → ν}

theorem get_cons (e : κ × ν) (m : List (κ × ν)) (k : κ) : get (e :: m) k = if e.1 = k then some e.2 else get m k := by
  unfold get
  by_cases h : e.1 = k <;> simp [h]

theorem get_upsert (g : ν → ν) (k k' : κ) (m : List (κ × ν)) :
    get (upsert init g k m) k' = if k' = k then some (g ((get m k).getD (init k))) else get m k' := by
  induction m with
  | nil =>
    unfold upsert
    rw [get_cons]
    by_cases h : k' = k
    · subst h
      simp [get]
    · simp [h, Ne.symm h]
  | cons e m ih =>
    unfold upsert
    by_cases he : e.1 = k
    · rw [if_pos he, get_cons, get_cons, get_cons, he]
      by_cases h : k' = k
      · subst h
        simp
      · simp [h, Ne.symm h]
    · rw [if_neg he, get_cons, get_cons, get_cons, ih, if_neg he]
      by_cases h : k' = k
      · subst h
        simp [he]
      · simp [h]

theorem keys_upsert (g : ν → ν) (k : κ) (m : List (κ × ν)) :
    (upsert init g k m).map Prod.fst = if k ∈ m.map Prod.fst then m.map Prod.fst else m.map Prod.fst ++ [k] := by
  induction m with
  | nil => rfl
  | cons e m ih =>
    unfold upsert
    by_cases he : e.1 = k
    · simp [he]
    · rw [if_neg he, map_cons, ih]
      by_cases h : k ∈ m.map Prod.fst
      · simp [h]
      · have hk : k ∉ (e :: m).map Prod.fst := by simpa [Ne.symm he] using h
        rw [if_neg h, if_neg hk]
        rfl

variable (l : List α)

theorem tally_snoc (x : α) : tally init key f (l ++ [x]) = upsert init (f x) (key x) (tally init key f l) := by
  unfold tally
  rw [foldl_append]
  rfl

theorem tally_nodup : ((tally init key f l).map Prod.fst).Nodup := by
  induction l using List.reverseRecOn with
  | nil => exact nodup_nil
  | append_singleton l x ih =>
    rw [tally_snoc, keys_upsert]
    split_ifs with h
    · exact ih
    · exact ih.append (nodup_singleton _) (disjoint_singleton.2 h)

/-- **The value of a key** is the fold over the elements that have it. -/
theorem get_tally (k : κ) :
    get (tally init key f l) k =
      if ∃ x ∈ l, key x = k then some ((l.filter (key · = k)).foldl (fun v x => f x v) (init k)) else none := by
  induction l using List.reverseRecOn with
  | nil => simp [tally, get]
  | append_singleton l x ih =>
    have hlast : (∃ y ∈ l ++ [x], key y = k) ↔ (∃ y ∈ l, key y = k) ∨ key x = k := by
      simp [or_and_right, exists_or]
    rw [tally_snoc, get_upsert, filter_append, foldl_append]
    by_cases hx : key x = k
    · rw [hx, if_pos rfl, ih, if_pos (hlast.2 (Or.inr hx))]
      have hfilter : [x].filter (key · = k) = [x] := by simp [hx]
      rw [hfilter]
      by_cases hl : ∃ y ∈ l, key y = k
      · rw [if_pos hl]
        rfl
      · rw [if_neg hl]
        have hnone : l.filter (key · = k) = [] := by
          rw [filter_eq_nil_iff]
          intro y hy hyk
          exact hl ⟨y, hy, of_decide_eq_true hyk⟩
        rw [hnone]
        rfl
    · have hfilter : [x].filter (key · = k) = [] := by simp [hx]
      rw [if_neg (Ne.symm hx), ih, hfilter]
      by_cases hl : ∃ y ∈ l, key y = k
      · rw [if_pos hl, if_pos (hlast.2 (Or.inl hl))]
        rfl
      · rw [if_neg hl, if_neg fun h => (hlast.1 h).elim hl hx]

theorem mem_iff_get {m : List (κ × ν)} (hnodup : (m.map Prod.fst).Nodup) (k : κ) (v : ν) :
    (k, v) ∈ m ↔ get m k = some v := by
  induction m with
  | nil => simp [get]
  | cons e m ih =>
    obtain ⟨hnew, hrest⟩ := nodup_cons.1 hnodup
    rw [get_cons, mem_cons, ih hrest]
    by_cases he : e.1 = k
    · rw [if_pos he]
      have hnone : get m k ≠ some v := by
        intro hget
        exact hnew (he ▸ mem_map_of_mem (f := Prod.fst) ((ih hrest).2 hget))
      constructor
      · rintro (heq | hget)
        · rw [← heq]
        · exact absurd hget hnone
      · intro hv
        exact Or.inl (Prod.ext he.symm (Option.some.inj hv).symm)
    · rw [if_neg he]
      exact or_iff_right fun heq => he (heq ▸ rfl)

theorem mem_tally (k : κ) (v : ν) :
    (k, v) ∈ tally init key f l ↔
      (∃ x ∈ l, key x = k) ∧ v = (l.filter (key · = k)).foldl (fun v x => f x v) (init k) := by
  rw [mem_iff_get (tally_nodup l), get_tally]
  by_cases hl : ∃ x ∈ l, key x = k
  · rw [if_pos hl, Option.some.injEq, eq_comm]
    exact (and_iff_right hl).symm
  · rw [if_neg hl]
    exact iff_of_false nofun fun h => hl h.1

end

section

variable {key : α → κ}

theorem upsert_perm (x : α) (k : κ) (m : List (κ × List α)) :
    ((upsert (fun _ => []) (· ++ [x]) k m).flatMap Prod.snd).Perm (x :: m.flatMap Prod.snd) := by
  induction m with
  | nil => exact List.Perm.rfl
  | cons e m ih =>
    unfold upsert
    by_cases he : e.1 = k
    · rw [if_pos he, flatMap_cons, flatMap_cons, append_assoc]
      exact perm_middle
    · rw [if_neg he, flatMap_cons, flatMap_cons]
      exact (ih.append_left e.2).trans perm_middle

/-- **The groups together are the list.** -/
theorem grouped_perm (l : List α) : ((grouped key l).flatMap Prod.snd).Perm l := by
  induction l using List.reverseRecOn with
  | nil => exact List.Perm.rfl
  | append_singleton l x ih =>
    unfold grouped at ih ⊢
    rw [tally_snoc]
    refine (upsert_perm x (key x) _).trans ((ih.cons x).trans ?_)
    exact (perm_append_singleton x l).symm

theorem mem_grouped {l : List α} {e : κ × List α} (h : e ∈ grouped key l) : e.2 = l.filter (key · = e.1) := by
  have hfold : ∀ xs ys : List α, xs.foldl (fun v x => v ++ [x]) ys = ys ++ xs := by
    intro xs
    induction xs with
    | nil => simp
    | cons x xs ih => simp [ih]
  obtain ⟨-, hv⟩ := (mem_tally l e.1 e.2).1 h
  rw [hv, hfold, nil_append]

end

end Lib.Keyed
