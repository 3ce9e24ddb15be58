import Mathlib.Algebra.Order.BigOperators.Group.List
import Mathlib.Algebra.Order.Group.Unbundled.Basic
import Mathlib.Tactic.Abel

/-!
# Greedy matching

Two lists of labelled amounts are matched from the front: the first of one side against
the first of the other, as far as the smaller amount goes, and what is left of the larger
one stays first.
-/

namespace Lib.Matching

open List

variable {ι κ α : Type*} [AddCommGroup α]

def total (l : List (ι × α)) : α := (l.map Prod.snd).sum

def amountOf (p : ι → Bool) (l : List (ι × α)) : α := total (l.filter fun x => p x.1)

theorem total_cons (i : ι) (a : α) (l : List (ι × α)) : total ((i, a) :: l) = a + total l := by
  simp only [total, map_cons, sum_cons]

theorem amountOf_cons (p : ι → Bool) (i : ι) (a : α) (l : List (ι × α)) :
    amountOf p ((i, a) :: l) = (if p i then a else 0) + amountOf p l := by
  unfold amountOf
  rw [filter_cons]
  split
  · exact total_cons i a _
  · rw [zero_add]

theorem total_rest {i : ι} {a b t : α} {l : List (ι × α)} (h : a + t = b + total l) : t = total ((i, b - a) :: l) := by
  rw [total_cons, eq_sub_of_add_eq' h]
  abel

/-- Where each amount lies in the running total of its side, from `s` on. -/
def spans (s : α) : List (ι × α) → List (ι × α × α)
  | [] => []
  | (i, a) :: l => (i, s, s + a) :: spans (s + a) l

variable [LinearOrder α]

def greedy : List (ι × α) → List (κ × α) → List (ι × κ × α)
  | (i, a) :: ds, (j, b) :: cs =>
    if a < b then (i, j, a) :: greedy ds ((j, b - a) :: cs)
    else if b < a then (i, j, b) :: greedy ((i, a - b) :: ds) cs
    else (i, j, a) :: greedy ds cs
  | _, _ => []
termination_by ds cs => ds.length + cs.length

@[simp] theorem greedy_nil_left (cs : List (κ × α)) : greedy ([] : List (ι × α)) cs = [] := by
  rw [greedy]
  nofun

@[simp] theorem greedy_nil_right (ds : List (ι × α)) : greedy ds ([] : List (κ × α)) = [] := by
  rw [greedy]
  nofun

section Step

variable {i : ι} {j : κ} {a b : α} {ds : List (ι × α)} {cs : List (κ × α)}

theorem greedy_lt (h : a < b) :
    greedy ((i, a) :: ds) ((j, b) :: cs) = (i, j, a) :: greedy ds ((j, b - a) :: cs) := by
  rw [greedy, if_pos h]

theorem greedy_gt (h : b < a) :
    greedy ((i, a) :: ds) ((j, b) :: cs) = (i, j, b) :: greedy ((i, a - b) :: ds) cs := by
  rw [greedy, if_neg h.not_gt, if_pos h]

theorem greedy_eq (h : a = b) : greedy ((i, a) :: ds) ((j, b) :: cs) = (i, j, a) :: greedy ds cs := by
  rw [greedy, if_neg h.not_lt, if_neg h.not_gt]

theorem greedy_ne_nil : greedy ((i, a) :: ds) ((j, b) :: cs) ≠ [] := by
  rcases lt_trichotomy a b with h | h | h
  · rw [greedy_lt h]; nofun
  · rw [greedy_eq h]; nofun
  · rw [greedy_gt h]; nofun

end Step

def Positive (l : List (ι × α)) : Prop := ∀ x ∈ l, 0 < x.2

variable {x : ι × α}

theorem Positive.cons {l : List (ι × α)} (hx : 0 < x.2) (hl : Positive l) : Positive (x :: l) :=
  forall_mem_cons.2 ⟨hx, hl⟩

theorem Positive.tail {l : List (ι × α)} (h : Positive (x :: l)) : Positive l :=
  (forall_mem_cons.1 h).2

theorem Positive.head {l : List (ι × α)} (h : Positive (x :: l)) : 0 < x.2 :=
  (forall_mem_cons.1 h).1

def Overlap (x : ι × α × α) (y : κ × α × α) : Prop := x.2.1 < y.2.2 ∧ y.2.1 < x.2.2

theorem greedy_induction {P : List (ι × α) → List (κ × α) → Prop} (left : ∀ cs, P [] cs) (right : ∀ ds, P ds [])
    (lt : ∀ i a ds j b cs, a < b → P ds ((j, b - a) :: cs) → P ((i, a) :: ds) ((j, b) :: cs))
    (gt : ∀ i a ds j b cs, b < a → P ((i, a - b) :: ds) cs → P ((i, a) :: ds) ((j, b) :: cs))
    (eq : ∀ i a ds j cs, P ds cs → P ((i, a) :: ds) ((j, a) :: cs)) (ds : List (ι × α)) (cs : List (κ × α)) :
    P ds cs := by
  fun_induction greedy ds cs with
  | case1 i a ds j b cs h ih => exact lt i a ds j b cs h ih
  | case2 i a ds j b cs _ h ih => exact gt i a ds j b cs h ih
  | case3 i a ds j b cs hlt hgt ih =>
    obtain rfl : a = b := le_antisymm (not_lt.1 hgt) (not_lt.1 hlt)
    exact eq i a ds j cs ih
  | case4 ds cs h =>
    rcases ds with _ | ⟨⟨i, a⟩, ds⟩
    · exact left cs
    · rcases cs with _ | ⟨⟨j, b⟩, cs⟩
      · exact right _
      · exact absurd rfl (h i a ds j b cs rfl)

theorem greedy_closed {P : α → Prop} (hsub : ∀ a b, P a → P b → a < b → P (b - a)) {ds : List (ι × α)}
    {cs : List (κ × α)} (hds : ∀ x ∈ ds, P x.2) (hcs : ∀ x ∈ cs, P x.2) : ∀ m ∈ greedy ds cs, P m.2.2 := by
  induction ds, cs using greedy_induction with
  | left cs => rw [greedy_nil_left]; nofun
  | right ds => rw [greedy_nil_right]; nofun
  | lt i a ds j b cs h ih =>
    obtain ⟨ha, hds⟩ := forall_mem_cons.1 hds
    obtain ⟨hb, hcs⟩ := forall_mem_cons.1 hcs
    rw [greedy_lt h]
    exact forall_mem_cons.2 ⟨ha, ih hds (forall_mem_cons.2 ⟨hsub a b ha hb h, hcs⟩)⟩
  | gt i a ds j b cs h ih =>
    obtain ⟨ha, hds⟩ := forall_mem_cons.1 hds
    obtain ⟨hb, hcs⟩ := forall_mem_cons.1 hcs
    rw [greedy_gt h]
    exact forall_mem_cons.2 ⟨hb, ih (forall_mem_cons.2 ⟨hsub b a hb ha h, hds⟩) hcs⟩
  | eq i a ds j cs ih =>
    obtain ⟨ha, hds⟩ := forall_mem_cons.1 hds
    rw [greedy_eq rfl]
    exact forall_mem_cons.2 ⟨ha, ih hds (forall_mem_cons.1 hcs).2⟩

variable [IsOrderedAddMonoid α] {l : List (ι × α)}

theorem Positive.total_pos (h : Positive l) (hne : l ≠ []) : 0 < total l := by
  refine sum_pos _ ?_ (by simpa using hne)
  intro a ha
  obtain ⟨x, hx, rfl⟩ := mem_map.1 ha
  exact h x hx

theorem Positive.eq_nil (h : Positive l) (h0 : total l = 0) : l = [] := by
  by_contra hne
  exact (h.total_pos hne).ne' h0

/-- **Conservation.** If both sides have the same total, the matches under labels with `p` (with
`q`) carry the amounts of these labels. -/
theorem sum_matches (p : ι → Bool) (q : κ → Bool) {ds : List (ι × α)} {cs : List (κ × α)} (hds : Positive ds)
    (hcs : Positive cs) (htotal : total ds = total cs) :
    (((greedy ds cs).filter fun m => p m.1).map (·.2.2)).sum = amountOf p ds ∧
      (((greedy ds cs).filter fun m => q m.2.1).map (·.2.2)).sum = amountOf q cs := by
  have hcons : ∀ (r : ι × κ × α → Bool) (m : ι × κ × α) (ms : List (ι × κ × α)),
      (((m :: ms).filter r).map (·.2.2)).sum = (if r m then m.2.2 else 0) + ((ms.filter r).map (·.2.2)).sum := by
    intro r m ms
    rw [filter_cons]
    split
    · rw [map_cons, sum_cons]
    · rw [zero_add]
  induction ds, cs using greedy_induction with
  | left cs =>
    obtain rfl : cs = [] := hcs.eq_nil htotal.symm
    rw [greedy_nil_left]
    exact ⟨rfl, rfl⟩
  | right ds =>
    obtain rfl : ds = [] := hds.eq_nil htotal
    rw [greedy_nil_right]
    exact ⟨rfl, rfl⟩
  | lt i a ds j b cs h ih =>
    obtain ⟨hp, hq⟩ := ih hds.tail (hcs.tail.cons (sub_pos.2 h)) (total_rest htotal)
    simp only [greedy_lt h, hcons, hp, hq, amountOf_cons, true_and]
    split <;> abel
  | gt i a ds j b cs h ih =>
    obtain ⟨hp, hq⟩ := ih (hds.tail.cons (sub_pos.2 h)) hcs.tail (total_rest htotal.symm).symm
    simp only [greedy_gt h, hcons, hp, hq, amountOf_cons, and_true]
    split <;> abel
  | eq i a ds j cs ih =>
    simp only [total_cons, add_right_inj] at htotal
    obtain ⟨hp, hq⟩ := ih hds.tail hcs.tail htotal
    simp only [greedy_eq, hcons, hp, hq, amountOf_cons, and_self]

/-- **At most one match fewer than amounts.** Each step uses up an amount, and the last one
two. -/
theorem length_greedy {ds : List (ι × α)} {cs : List (κ × α)} (hds : Positive ds) (hcs : Positive cs)
    (htotal : total ds = total cs) : (greedy ds cs).length ≤ ds.length + cs.length - 1 := by
  induction ds, cs using greedy_induction with
  | left cs => rw [greedy_nil_left]; exact Nat.zero_le _
  | right ds => rw [greedy_nil_right]; exact Nat.zero_le _
  | lt i a ds j b cs h ih =>
    have := ih hds.tail (hcs.tail.cons (sub_pos.2 h)) (total_rest htotal)
    rw [greedy_lt h]
    simp only [length_cons] at this ⊢
    omega
  | gt i a ds j b cs h ih =>
    have := ih (hds.tail.cons (sub_pos.2 h)) hcs.tail (total_rest htotal.symm).symm
    rw [greedy_gt h]
    simp only [length_cons] at this ⊢
    omega
  | eq i a ds j cs ih =>
    simp only [total_cons, add_right_inj] at htotal
    have := ih hds.tail hcs.tail htotal
    rw [greedy_eq rfl]
    simp only [length_cons] at this ⊢
    omega

/-! ## Spans -/

theorem spans_bounds (hl : Positive l) {s : α} {x : ι × α × α} (hx : x ∈ spans s l) :
    s ≤ x.2.1 ∧ x.2.1 < x.2.2 := by
  induction l generalizing s with
  | nil => cases hx
  | cons y l ih =>
    rcases mem_cons.1 hx with rfl | hx
    · exact ⟨le_rfl, lt_add_of_pos_right s hl.head⟩
    · obtain ⟨hs, hlt⟩ := ih hl.tail hx
      exact ⟨(le_add_of_nonneg_right hl.head.le).trans hs, hlt⟩

theorem heads_overlap {i : ι} {j : κ} {a b s : α} {ds : List (ι × α)} {cs : List (κ × α)}
    (hds : Positive ((i, a) :: ds)) (hcs : Positive ((j, b) :: cs)) :
    ∃ x ∈ (i, s, s + a) :: spans (s + a) ds, ∃ y ∈ (j, s, s + b) :: spans (s + b) cs,
      x.1 = i ∧ y.1 = j ∧ Overlap x y :=
  ⟨_, mem_cons_self, _, mem_cons_self, rfl, rfl, lt_add_of_pos_right s hcs.head,
    lt_add_of_pos_right s hds.head⟩

section Overlap

variable {i i' : ι} {j j' : κ} {a b s : α}

omit [AddCommGroup α] [IsOrderedAddMonoid α] in
theorem overlap_comm {xs : List (ι × α × α)} {ys : List (κ × α × α)} :
    (∃ x ∈ xs, ∃ y ∈ ys, x.1 = i ∧ y.1 = j ∧ Overlap x y) ↔ ∃ y ∈ ys, ∃ x ∈ xs, y.1 = j ∧ x.1 = i ∧ Overlap y x := by
  constructor <;> rintro ⟨x, hx, y, hy, hi, hj, hxy⟩ <;> exact ⟨y, hy, x, hx, hj, hi, hxy.symm⟩

/-- The first two spans overlap, and nothing is left of the shorter one. -/
theorem overlap_lt {ds : List (ι × α)} {cs : List (κ × α)} (hds : Positive ((i', a) :: ds))
    (hcs : Positive ((j', b) :: cs)) (h : a < b) :
    (∃ x ∈ spans s ((i', a) :: ds), ∃ y ∈ spans s ((j', b) :: cs), x.1 = i ∧ y.1 = j ∧ Overlap x y) ↔
      i = i' ∧ j = j' ∨ ∃ x ∈ spans (s + a) ds, ∃ y ∈ spans (s + a) ((j', b - a) :: cs), x.1 = i ∧ y.1 = j ∧ Overlap x y := by
  have hend : s + a + (b - a) = s + b := by abel
  rw [spans, spans, spans, hend]
  constructor
  · rintro ⟨x, hx, y, hy, rfl, rfl, hxy⟩
    rcases mem_cons.1 hx with rfl | hx
    · rcases mem_cons.1 hy with rfl | hy
      · exact .inl ⟨rfl, rfl⟩
      -- the first amount ends before the next one of the other side starts
      · have hstart := (spans_bounds hcs.tail hy).1
        exact absurd (hxy.2.trans_le ((add_le_add_right h.le s).trans hstart)) (lt_irrefl _)
    · rcases mem_cons.1 hy with rfl | hy
      · obtain ⟨hstart, hlt⟩ := spans_bounds hds.tail hx
        exact .inr ⟨x, hx, _, mem_cons_self, rfl, rfl, hxy.1, hstart.trans_lt hlt⟩
      · exact .inr ⟨x, hx, y, mem_cons_of_mem _ hy, rfl, rfl, hxy⟩
  · rintro (⟨rfl, rfl⟩ | ⟨x, hx, y, hy, rfl, rfl, hxy⟩)
    · exact heads_overlap hds hcs
    · rcases mem_cons.1 hy with rfl | hy
      · exact ⟨x, mem_cons_of_mem _ hx, _, mem_cons_self, rfl, rfl, hxy.1, (lt_add_of_pos_right s hds.head).trans hxy.2⟩
      · exact ⟨x, mem_cons_of_mem _ hx, y, mem_cons_of_mem _ hy, rfl, rfl, hxy⟩

end Overlap

/-- **Two labels are matched exactly if their spans overlap.** -/
theorem mem_greedy_iff {ds : List (ι × α)} {cs : List (κ × α)} (hds : Positive ds) (hcs : Positive cs) (s : α)
    (i : ι) (j : κ) : (∃ x, (i, j, x) ∈ greedy ds cs) ↔
      ∃ x ∈ spans s ds, ∃ y ∈ spans s cs, x.1 = i ∧ y.1 = j ∧ Overlap x y := by
  have hcons : ∀ i' j' (a : α) ms, (∃ x, (i, j, x) ∈ (i', j', a) :: ms) ↔ i = i' ∧ j = j' ∨ ∃ x, (i, j, x) ∈ ms := by
    simp [exists_or]
  induction ds, cs using greedy_induction generalizing s with
  | left cs | right ds => simp [spans]
  | lt i' a ds j' b cs h ih =>
    rw [greedy_lt h, hcons, overlap_lt hds hcs h]
    exact or_congr_right (ih hds.tail (hcs.tail.cons (sub_pos.2 h)) (s + a))
  | gt i' a ds j' b cs h ih =>
    rw [greedy_gt h, hcons, overlap_comm, overlap_lt hcs hds h]
    exact or_congr and_comm ((ih (hds.tail.cons (sub_pos.2 h)) hcs.tail (s + b)).trans overlap_comm)
  | eq i' a ds j' cs ih =>
    specialize ih hds.tail hcs.tail (s + a)
    rw [greedy_eq rfl, spans, spans]
    constructor
    · rintro ⟨z, hz⟩
      rcases mem_cons.1 hz with heq | hz
      · cases heq
        exact heads_overlap hds hcs
      · obtain ⟨x, hx, y, hy, h⟩ := ih.1 ⟨z, hz⟩
        exact ⟨x, mem_cons_of_mem _ hx, y, mem_cons_of_mem _ hy, h⟩
    · rintro ⟨x, hx, y, hy, rfl, rfl, hxy⟩
      rcases mem_cons.1 hx with rfl | hx <;> rcases mem_cons.1 hy with rfl | hy
      · exact ⟨a, mem_cons_self⟩
      · exact absurd (hxy.2.trans_le (spans_bounds hcs.tail hy).1) (lt_irrefl _)
      · exact absurd (hxy.1.trans_le (spans_bounds hds.tail hx).1) (lt_irrefl _)
      · exact (ih.2 ⟨x, hx, y, hy, rfl, rfl, hxy⟩).imp fun _ => mem_cons_of_mem _

end Lib.Matching
