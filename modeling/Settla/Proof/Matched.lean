import Settla.Lib.Groups
import Settla.Lib.Matching
import Settla.Proof.Postable
import Settla.Proof.Posting

/-!
# The transfers of a journal entry

`buildTransfers` is a greedy matching (`matchLines_greedy`). An entry that passes `ValidateEntries` is
balanced in every currency, so both sides are used up together.
-/

namespace Settla.Ledger

open Lib Lib.Matching List

/-- What the matching keeps of a line besides its amount. -/
structure Label where
  accountCode : String
  currency : Currency

def weigh (l : EntryLine) : Label × ℚ := (⟨l.accountCode, l.currency⟩, l.amount)

def weights (type : EntryType) (entry : Entry) : List (Label × ℚ) := (side type entry.lines).map weigh

def matched (entry : Entry) : List (Label × Label × ℚ) := greedy (weights .debit entry) (weights .credit entry)

structure Made (m : Label × Label × ℚ) (t : TBTransfer) : Prop where
  debit : t.debitAccountID = accountIDFromCode m.1.accountCode
  credit : t.creditAccountID = accountIDFromCode m.2.1.accountCode
  amount : decimalToTBAmount m.2.2 = some t.amount

/-! ## The loop is the greedy matching -/

variable {ms : List (Label × Label × ℚ)} {ls : List EntryLine} {ts : List TBTransfer}

theorem decimalToTBAmount_of_nonneg {d : Decimal} (h : 0 ≤ d) : ∃ n, decimalToTBAmount d = some n := by
  have hpart : (0 : ℚ) ≤ intPart (d * 10 ^ 8) := by
    have : 0 ≤ d * 10 ^ 8 := by positivity
    exact_mod_cast intPart_nonneg this
  have hscaled : ¬ truncPlaces 8 d * amountScale < 0 := by
    unfold truncPlaces amountScale
    rw [not_lt]
    positivity
  exact ⟨_, if_neg hscaled⟩

theorem remaining_pos {l : EntryLine} {amount : Decimal} (hle : amount ≤ l.amount) (h : ∀ x ∈ ls, 0 < x.amount) :
    ∀ x ∈ remaining l amount ls, 0 < x.amount := by
  unfold remaining
  split
  · exact h
  · rename_i hne
    exact forall_mem_cons.2 ⟨lt_of_le_of_ne (sub_nonneg.2 hle) (Ne.symm hne), h⟩

theorem greedy_weigh_cons (d c : EntryLine) (ds cs : List EntryLine) :
    let amount := if c.amount < d.amount then c.amount else d.amount
    greedy ((d :: ds).map weigh) ((c :: cs).map weigh) =
      (⟨d.accountCode, d.currency⟩, ⟨c.accountCode, c.currency⟩, amount) ::
        greedy ((remaining d amount ds).map weigh) ((remaining c amount cs).map weigh) := by
  intro amount
  rcases lt_trichotomy d.amount c.amount with h | h | h
  · have hamount : amount = d.amount := if_neg h.not_gt
    have hne : ¬ c.amount - d.amount = 0 := (sub_pos.2 h).ne'
    simp only [hamount, remaining, sub_self, if_true, hne, if_false, map_cons]
    exact greedy_lt h
  · have hamount : amount = d.amount := if_neg h.not_gt
    have hzero : c.amount - d.amount = 0 := sub_eq_zero.2 h.symm
    simp only [hamount, remaining, hzero, sub_self, if_true, map_cons]
    exact greedy_eq h
  · have hamount : amount = c.amount := if_pos h
    have hne : ¬ d.amount - c.amount = 0 := (sub_pos.2 h).ne'
    simp only [hamount, remaining, sub_self, if_true, hne, if_false, map_cons]
    exact greedy_gt h

/-- **The loop is the greedy matching**: with positive amounts it makes one transfer of each match. -/
theorem matchLines_greedy (ledger : ℕ) (entry : Entry) (idx : ℕ) {ds cs : List EntryLine}
    (hds : ∀ l ∈ ds, 0 < l.amount) (hcs : ∀ l ∈ cs, 0 < l.amount) :
    ∃ ts, matchLines ledger entry idx ds cs = .ok ts ∧
      List.Forall₂ Made (greedy (ds.map weigh) (cs.map weigh)) ts := by
  induction hn : ds.length + cs.length using Nat.strong_induction_on generalizing ds cs idx with
  | _ n ih =>
    rcases ds with _ | ⟨d, ds⟩
    · refine ⟨[], by rw [matchLines]; simp, ?_⟩
      rw [map_nil, greedy_nil_left]
      exact .nil
    rcases cs with _ | ⟨c, cs⟩
    · refine ⟨[], by rw [matchLines]; simp, ?_⟩
      rw [map_nil, greedy_nil_right]
      exact .nil
    obtain ⟨hd, hds⟩ := forall_mem_cons.1 hds
    obtain ⟨hc, hcs⟩ := forall_mem_cons.1 hcs
    have hshort := remaining_length_lt d c ds cs
    rw [greedy_weigh_cons]
    generalize hamount : (if c.amount < d.amount then c.amount else d.amount) = amount at hshort ⊢
    have hle : amount ≤ d.amount ∧ amount ≤ c.amount ∧ 0 < amount := by
      subst hamount
      split
      · rename_i h
        exact ⟨h.le, le_refl _, hc⟩
      · rename_i h
        exact ⟨le_refl _, not_lt.1 h, hd⟩
    obtain ⟨ts, hts, hmade⟩ := ih _ (hn ▸ hshort) (idx + 1) (remaining_pos hle.1 hds) (remaining_pos hle.2.1 hcs) rfl
    obtain ⟨tb, htb⟩ := decimalToTBAmount_of_nonneg hle.2.2.le
    refine ⟨_, by rw [matchLines]; simp only [hamount, htb, hts]; rfl, .cons ?_ hmade⟩
    exact ⟨rfl, rfl, htb⟩

theorem made_link (h : List.Forall₂ Made ms ts) : List.Forall₂ Made ms (link ts) := by
  induction h with
  | nil => exact .nil
  | @cons m t ms ts ht hts ih =>
    cases hts with
    | nil => exact .cons ht .nil
    | cons ht' hts' => exact .cons ⟨ht.debit, ht.credit, ht.amount⟩ ih

/-! ## Entries that pass `ValidateEntries` -/

theorem validateLines_pos {ids : List UUID} {keys : List String} (h : validateLines ids keys ls = .ok ()) :
    ∀ l ∈ ls, 0 < l.amount := by
  induction ls generalizing ids keys with
  | nil => nofun
  | cons l ls ih =>
    simp only [validateLines, check_eq_ok, not_not] at h
    exact forall_mem_cons.2 ⟨h.1, ih h.2.2.2⟩

theorem validateEntries_ok (h : validateEntries ls = .ok ()) :
    ls ≠ [] ∧ (∀ l ∈ ls, 0 < l.amount) ∧ ∀ l ∈ ls, sumLines .debit l.currency ls = sumLines .credit l.currency ls := by
  simp only [validateEntries, throw_eq, error_bind, check_eq_ok, bind_eq_ok, not_lt] at h
  obtain ⟨hlen, _, hlines, hbalance⟩ := h
  refine ⟨fun hnil => ?_, validateLines_pos hlines, (Node.validateBalance_ok ls).1 hbalance⟩
  rw [hnil] at hlen
  exact absurd hlen (by decide)

def signed (l : EntryLine) : ℚ :=
  match l.entryType with
  | .debit => l.amount
  | .credit => -l.amount
  | .other _ => 0

theorem groupSum_signed (c : Currency) (ls : List EntryLine) :
    groupSum (fun l : EntryLine => l.currency) signed c ls = sumLines .debit c ls - sumLines .credit c ls := by
  induction ls with
  | nil => simp [groupSum, sumLines]
  | cons l ls ih =>
    have hcons : groupSum (fun l : EntryLine => l.currency) signed c (l :: ls) =
        (if l.currency = c then signed l else 0) + groupSum (fun l : EntryLine => l.currency) signed c ls := by
      unfold groupSum
      by_cases hc : l.currency = c <;> simp [hc]
    rw [hcons, ih, Node.sumLines_cons, Node.sumLines_cons, signed]
    by_cases hc : l.currency = c <;> cases l.entryType <;> simp [hc] <;> ring

theorem total_weights (type : EntryType) (entry : Entry) :
    Matching.total (weights type entry) = ((side type entry.lines).map (·.amount)).sum := by
  rw [Matching.total, weights, map_map]
  rfl

theorem sum_signed (ls : List EntryLine) :
    (ls.map signed).sum = ((side .debit ls).map (·.amount)).sum - ((side .credit ls).map (·.amount)).sum := by
  induction ls with
  | nil => simp [side]
  | cons l ls ih =>
    simp only [side, map_cons, sum_cons, filter_cons, signed] at ih ⊢
    rw [ih]
    cases l.entryType <;> simp <;> ring

/-- An entry has a line that is a debit or a credit. Others are not posted. -/
def Entry.Posts (entry : Entry) : Prop := ∃ l ∈ entry.lines, l.entryType = .debit ∨ l.entryType = .credit

instance (entry : Entry) : Decidable entry.Posts := inferInstanceAs (Decidable (∃ l ∈ entry.lines, _))

section Valid

variable {entry : Entry} (hvalid : validateEntries entry.lines = .ok ())
include hvalid

theorem weights_positive (type : EntryType) : Positive (weights type entry) := by
  intro x hx
  obtain ⟨l, hl, rfl⟩ := mem_map.1 hx
  exact (validateEntries_ok hvalid).2.1 l (mem_of_mem_filter hl)

/-- **Balanced in every currency, both sides have the same total.** -/
theorem weights_total : Matching.total (weights .debit entry) = Matching.total (weights .credit entry) := by
  obtain ⟨-, -, hbalance⟩ := validateEntries_ok hvalid
  have hgroups : ∀ c, groupSum (fun l : EntryLine => l.currency) signed c entry.lines = 0 := by
    intro c
    by_cases hc : ∃ l ∈ entry.lines, l.currency = c
    · obtain ⟨l, hl, rfl⟩ := hc
      rw [groupSum_signed, hbalance l hl, sub_self]
    -- no line has this currency
    · have hnil : entry.lines.filter (fun l => decide (l.currency = c)) = [] := by
        rw [filter_eq_nil_iff]
        intro l hl
        simpa using fun h => hc ⟨l, hl, h⟩
      rw [groupSum, hnil]
      rfl
  have hsum := sum_eq_zero_of_groups hgroups
  rw [sum_signed, sub_eq_zero] at hsum
  rw [total_weights, total_weights, hsum]

theorem weights_ne_nil (hposts : entry.Posts) : weights .debit entry ≠ [] ∧ weights .credit entry ≠ [] := by
  have hsame := weights_total hvalid
  have hboth : weights .debit entry ≠ [] ∨ weights .credit entry ≠ [] := by
    obtain ⟨l, hl, hty | hty⟩ := hposts
    · exact .inl (ne_nil_of_mem (mem_map_of_mem (mem_filter.2 ⟨hl, by simp [hty]⟩)))
    · exact .inr (ne_nil_of_mem (mem_map_of_mem (mem_filter.2 ⟨hl, by simp [hty]⟩)))
  rcases hboth with h | h
  · have hpos := (weights_positive hvalid .debit).total_pos h
    exact ⟨h, fun hnil => absurd (hsame ▸ hpos) (by rw [hnil]; exact lt_irrefl 0)⟩
  · have hpos := (weights_positive hvalid .credit).total_pos h
    exact ⟨fun hnil => absurd (hsame.symm ▸ hpos) (by rw [hnil]; exact lt_irrefl 0), h⟩

theorem buildTransfers_made (ledger : ℕ) :
    ∃ ts, matchLines ledger entry 0 (side .debit entry.lines) (side .credit entry.lines) = .ok ts ∧
      buildTransfers ledger entry (side .debit entry.lines) (side .credit entry.lines) = .ok (link ts) ∧
      List.Forall₂ Made (matched entry) (link ts) := by
  have hpos : ∀ type, ∀ l ∈ side type entry.lines, 0 < l.amount := fun type l hl =>
    (validateEntries_ok hvalid).2.1 l (mem_of_mem_filter hl)
  obtain ⟨ts, hts, hmade⟩ := matchLines_greedy ledger entry 0 (hpos .debit) (hpos .credit)
  refine ⟨ts, hts, ?_, made_link hmade⟩
  rw [buildTransfers, hts]
  rfl

theorem made_ne_nil (hposts : entry.Posts) (h : List.Forall₂ Made (matched entry) (link ts)) : ts ≠ [] := by
  rintro rfl
  obtain ⟨hdebit, hcredit⟩ := weights_ne_nil hvalid hposts
  obtain ⟨d, ds, hd⟩ := exists_cons_of_ne_nil hdebit
  obtain ⟨c, cs, hc⟩ := exists_cons_of_ne_nil hcredit
  have hnil : matched entry = [] := List.forall₂_nil_right_iff.1 h
  rw [matched, hd, hc] at hnil
  exact greedy_ne_nil hnil

end Valid

/-! ## Conservation -/

/-- An amount TigerBeetle holds exactly: at most eight decimals, and in range. -/
def Exact (d : Decimal) : Prop := ∃ n : ℤ, d * 10 ^ 8 = n ∧ n < 2 ^ 63

theorem Exact.sub {a b : Decimal} (ha : 0 < a ∧ Exact a) (hb : 0 < b ∧ Exact b) (hlt : a < b) :
    0 < b - a ∧ Exact (b - a) := by
  obtain ⟨hpos, m, hm, -⟩ := ha
  obtain ⟨-, n, hn, hrange⟩ := hb
  refine ⟨sub_pos.2 hlt, n - m, by rw [sub_mul, hm, hn, Int.cast_sub], ?_⟩
  have hm0 : (0 : ℚ) < m := by
    rw [← hm]
    positivity
  have : 0 < m := by exact_mod_cast hm0
  omega

theorem Exact.amount {d : Decimal} (hpos : 0 < d) (h : Exact d) {n : ℕ} (hn : decimalToTBAmount d = some n) :
    0 < n ∧ (n : ℚ) = 10 ^ 8 * d := by
  obtain ⟨m, hm, hrange⟩ := h
  have hm0 : (0 : ℚ) < m := by
    rw [← hm]
    positivity
  have hmpos : 0 < m := by exact_mod_cast hm0
  have hscaled : truncPlaces 8 d * amountScale = m := by
    rw [truncPlaces, hm, intPart_intCast, amountScale]
    norm_num
  have hmod : m.toNat % 2 ^ 64 = m.toNat := Nat.mod_eq_of_lt (by omega)
  simp only [decimalToTBAmount, hscaled, not_lt.2 hm0.le, if_false, intPart_intCast, hmod, Option.some.injEq] at hn
  subst hn
  refine ⟨by omega, ?_⟩
  rw [mul_comm, hm, ← Int.cast_natCast, Int.toNat_of_nonneg hmpos.le]

def linesOn (type : EntryType) (account : ID128) (entry : Entry) : List EntryLine :=
  (side type entry.lines).filter (accountIDFromCode ·.accountCode = account)

def Alone (code : String) (entry : Entry) : Prop :=
  ∀ l ∈ entry.lines, accountIDFromCode l.accountCode = accountIDFromCode code → l.accountCode = code

/-- **The transfers move the lines of an entry**: on every account, with positive amounts, in one
chain if there is one, and with at most one transfer fewer than lines. TigerBeetle knows an account by the hash of
its code. -/
structure Conserves (entry : Entry) (ts : List TBTransfer) : Prop where
  debited : ∀ code, ((posted (accountIDFromCode code) ts).1 : ℚ) =
    10 ^ 8 * ((linesOn .debit (accountIDFromCode code) entry).map (·.amount)).sum
  credited : ∀ code, ((posted (accountIDFromCode code) ts).2 : ℚ) =
    10 ^ 8 * ((linesOn .credit (accountIDFromCode code) entry).map (·.amount)).sum
  debited_code : ∀ code, Alone code entry → ((posted (accountIDFromCode code) ts).1 : ℚ) =
    10 ^ 8 * (((side .debit entry.lines).filter (·.accountCode = code)).map (·.amount)).sum
  credited_code : ∀ code, Alone code entry → ((posted (accountIDFromCode code) ts).2 : ℚ) =
    10 ^ 8 * (((side .credit entry.lines).filter (·.accountCode = code)).map (·.amount)).sum
  positive : ∀ t ∈ ts, 0 < t.amount
  length : ts.length ≤ (side .debit entry.lines).length + (side .credit entry.lines).length - 1
  linked : entry.Posts → ∃ init last, ts = init ++ [last] ∧ (∀ t ∈ init, t.linked = true) ∧ last.linked = false

theorem linesOn_alone {entry : Entry} {code : String} (h : Alone code entry) (type : EntryType) :
    linesOn type (accountIDFromCode code) entry = (side type entry.lines).filter (·.accountCode = code) := by
  apply filter_congr
  intro l hl
  rw [decide_eq_decide]
  exact ⟨h l (mem_of_mem_filter hl), congrArg accountIDFromCode⟩

theorem posted_made (h : List.Forall₂ Made ms ts) (hexact : ∀ m ∈ ms, 0 < m.2.2 ∧ Exact m.2.2) (account : ID128) :
    ((posted account ts).1 : ℚ) =
        10 ^ 8 * ((ms.filter fun m => accountIDFromCode m.1.accountCode = account).map (·.2.2)).sum ∧
      ((posted account ts).2 : ℚ) =
        10 ^ 8 * ((ms.filter fun m => accountIDFromCode m.2.1.accountCode = account).map (·.2.2)).sum := by
  unfold posted
  induction h with
  | nil => simp
  | @cons m t ms ts ht hts ih =>
    obtain ⟨hm, hms⟩ := forall_mem_cons.1 hexact
    obtain ⟨hdebit, hcredit⟩ := ih hms
    have hamount := (hm.2.amount hm.1 ht.amount).2
    simp only [filter_cons, ht.debit, ht.credit]
    constructor
    · split
      · rw [map_cons, map_cons, sum_cons, sum_cons, Nat.cast_add, hamount, hdebit, mul_add]
      · exact hdebit
    · split
      · rw [map_cons, map_cons, sum_cons, sum_cons, Nat.cast_add, hamount, hcredit, mul_add]
      · exact hcredit

theorem amountOf_weights (type : EntryType) (account : ID128) (entry : Entry) :
    amountOf (fun l : Label => decide (accountIDFromCode l.accountCode = account)) (weights type entry) =
      ((linesOn type account entry).map (·.amount)).sum := by
  rw [amountOf, Matching.total, weights, filter_map, map_map]
  rfl

theorem made_positive (h : List.Forall₂ Made ms ts) (hexact : ∀ m ∈ ms, 0 < m.2.2 ∧ Exact m.2.2) :
    ∀ t ∈ ts, 0 < t.amount := by
  induction h with
  | nil => nofun
  | @cons m t ms ts ht hts ih =>
    obtain ⟨hm, hms⟩ := forall_mem_cons.1 hexact
    exact forall_mem_cons.2 ⟨(hm.2.amount hm.1 ht.amount).1, ih hms⟩

/-- **Conservation.** A valid entry with exact amounts is always decomposed, and the transfers
move its lines. -/
theorem buildTransfers_conserves (ledger : ℕ) (entry : Entry) (hvalid : validateEntries entry.lines = .ok ())
    (hexact : ∀ l ∈ entry.lines, Exact l.amount) :
    ∃ ts, buildTransfers ledger entry (side .debit entry.lines) (side .credit entry.lines) = .ok ts ∧
      Conserves entry ts := by
  obtain ⟨ts, hts, hbuild, hmade⟩ := buildTransfers_made hvalid ledger
  have hweights : ∀ type, ∀ x ∈ weights type entry, 0 < x.2 ∧ Exact x.2 := by
    intro type x hx
    obtain ⟨l, hl, rfl⟩ := mem_map.1 hx
    have hl := mem_of_mem_filter hl
    exact ⟨(validateEntries_ok hvalid).2.1 l hl, hexact l hl⟩
  have hmatched : ∀ m ∈ matched entry, 0 < m.2.2 ∧ Exact m.2.2 :=
    greedy_closed (fun a b ha hb hlt => Exact.sub ha hb hlt) (hweights .debit) (hweights .credit)
  have hdebit := weights_positive hvalid .debit
  have hcredit := weights_positive hvalid .credit
  have htotal := weights_total hvalid
  have hsums := fun code : String =>
    sum_matches (fun l : Label => decide (accountIDFromCode l.accountCode = accountIDFromCode code))
      (fun l : Label => decide (accountIDFromCode l.accountCode = accountIDFromCode code)) hdebit hcredit htotal
  have hdebited : ∀ code, ((posted (accountIDFromCode code) (link ts)).1 : ℚ) =
      10 ^ 8 * ((linesOn .debit (accountIDFromCode code) entry).map (·.amount)).sum := by
    intro code
    rw [(posted_made hmade hmatched _).1, ← amountOf_weights]
    exact congrArg _ (hsums code).1
  have hcredited : ∀ code, ((posted (accountIDFromCode code) (link ts)).2 : ℚ) =
      10 ^ 8 * ((linesOn .credit (accountIDFromCode code) entry).map (·.amount)).sum := by
    intro code
    rw [(posted_made hmade hmatched _).2, ← amountOf_weights]
    exact congrArg _ (hsums code).2
  have hlen := length_greedy hdebit hcredit htotal
  have hchain (hposts : entry.Posts) : (events fun _ => false).IsChain (link ts) :=
    link_isChain (made_ne_nil hvalid hposts hmade) (matchLines_unlinked hts)
  refine ⟨link ts, hbuild, hdebited, hcredited, fun code h => ?_, fun code h => ?_, made_positive hmade hmatched, ?_,
    hchain⟩
  · rw [hdebited, linesOn_alone h]
  · rw [hcredited, linesOn_alone h]
  · rw [← hmade.length_eq, matched]
    simpa only [weights, length_map] using hlen

def twoCurrencies : Entry where
  id := 1
  idempotencyKey := "swap"
  lines := [⟨⟨"assets:usd", .debit, 100, "USD", ""⟩, 1⟩, ⟨⟨"assets:gbp", .debit, 50, "GBP", ""⟩, 2⟩,
    ⟨⟨"liabilities:gbp", .credit, 50, "GBP", ""⟩, 3⟩, ⟨⟨"liabilities:usd", .credit, 100, "USD", ""⟩, 4⟩]

theorem twoCurrencies_valid : validateEntries twoCurrencies.lines = .ok () := by
  decide +kernel

theorem twoCurrencies_conserved :
    ∃ ts, buildTransfers 1 twoCurrencies (side .debit twoCurrencies.lines) (side .credit twoCurrencies.lines) = .ok ts ∧
      Conserves twoCurrencies ts := by
  refine buildTransfers_conserves 1 twoCurrencies twoCurrencies_valid fun l hl => ?_
  simp only [twoCurrencies, mem_cons, not_mem_nil, or_false] at hl
  rcases hl with rfl | rfl | rfl | rfl
  · exact ⟨10000000000, by norm_num, by norm_num⟩
  · exact ⟨5000000000, by norm_num, by norm_num⟩
  · exact ⟨5000000000, by norm_num, by norm_num⟩
  · exact ⟨10000000000, by norm_num, by norm_num⟩

/-! ## Currencies -/

/-- Lines that overlap in the running totals of their sides have the same currency. -/
def Aligned (entry : Entry) : Prop :=
  ∀ x ∈ spans 0 (weights .debit entry), ∀ y ∈ spans 0 (weights .credit entry), Overlap x y →
    x.1.currency = y.1.currency

/-- **The transfers of a valid entry stay within a currency exactly if its lines are aligned.** -/
theorem sameCurrency_iff (ledger : ℕ) (entry : Entry) (hvalid : validateEntries entry.lines = .ok ()) :
    ∃ ts, buildTransfers ledger entry (side .debit entry.lines) (side .credit entry.lines) = .ok ts ∧
      List.Forall₂ Made (matched entry) ts ∧
      ((∀ m ∈ matched entry, m.1.currency = m.2.1.currency) ↔ Aligned entry) := by
  obtain ⟨ts, -, hbuild, hmade⟩ := buildTransfers_made hvalid ledger
  have hmem := mem_greedy_iff (weights_positive hvalid .debit) (weights_positive hvalid .credit) 0
  refine ⟨link ts, hbuild, hmade, fun h x hx y hy hxy => ?_, fun h m hm => ?_⟩
  · obtain ⟨amount, hm⟩ := (hmem x.1 y.1).2 ⟨x, hx, y, hy, rfl, rfl, hxy⟩
    exact h _ hm
  · obtain ⟨x, hx, y, hy, hxm, hym, hxy⟩ := (hmem m.1 m.2.1).1 ⟨m.2.2, hm⟩
    rw [← hxm, ← hym]
    exact h x hx y hy hxy

theorem twoCurrencies_sameCurrency :
    ∃ ts, buildTransfers 1 twoCurrencies (side .debit twoCurrencies.lines) (side .credit twoCurrencies.lines) = .ok ts ∧
      List.Forall₂ Made (matched twoCurrencies) ts ∧
      ((∀ m ∈ matched twoCurrencies, m.1.currency = m.2.1.currency) ↔ Aligned twoCurrencies) :=
  sameCurrency_iff 1 twoCurrencies twoCurrencies_valid

/-- **The dollars are debited against the pounds.** -/
theorem dollars_for_pounds :
    validateEntries twoCurrencies.lines = .ok () ∧
    ∃ ts, buildTransfers 1 twoCurrencies (side .debit twoCurrencies.lines) (side .credit twoCurrencies.lines) = .ok ts ∧
      List.Forall₂ Made (matched twoCurrencies) ts ∧
      (⟨"assets:usd", "USD"⟩, ⟨"liabilities:gbp", "GBP"⟩, 50) ∈ matched twoCurrencies := by
  obtain ⟨ts, -, hbuild, hmade⟩ := buildTransfers_made twoCurrencies_valid 1
  refine ⟨twoCurrencies_valid, link ts, hbuild, hmade, ?_⟩
  have hfirst : matched twoCurrencies = (⟨"assets:usd", "USD"⟩, ⟨"liabilities:gbp", "GBP"⟩, 50) ::
      greedy [(⟨"assets:usd", "USD"⟩, 100 - 50), (⟨"assets:gbp", "GBP"⟩, 50)] [(⟨"liabilities:usd", "USD"⟩, 100)] :=
    greedy_gt (by norm_num)
  rw [hfirst]
  exact mem_cons_self

end Settla.Ledger
