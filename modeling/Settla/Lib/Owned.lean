import Mathlib.Data.List.Find

/-!
# Queries on a table with many owners

A query works on the rows of one owner at a time, or looks a row up by a globally unique key.
`Query.touched` records whose rows each access was about. A query that stays `Within` an owner gives
the same answer on any table with the same rows of that owner, and leaves all others as they were.
-/

namespace Lib.Owned

open List

variable {Row K Key α : Type*} [DecidableEq K]

structure Layout (Row K Key : Type*) where
  owner : Row → K
  named : Key → Row → Bool

/-- An update of single rows. It moves no row to another owner and keeps its keys. -/
structure Layout.Change (L : Layout Row K Key) where
  apply : Row → Row
  owner_apply : ∀ r, L.owner (apply r) = L.owner r
  named_apply : ∀ key r, L.named key (apply r) = L.named key r

variable {L : Layout Row K Key}

inductive Query (L : Layout Row K Key) (α : Type*)
  | ret (a : α)
  /-- read the rows of one owner -/
  | select (k : K) (next : List Row → Query L α)
  /-- read the row a key names -/
  | lookup (key : Key) (next : Option Row → Query L α)
  /-- update rows of one owner -/
  | change (k : K) (f : L.Change) (next : Query L α)
  /-- delete rows of one owner -/
  | remove (k : K) (p : Row → Bool) (next : Query L α)
  | insert (r : Row) (next : Query L α)

def Layout.rowsOf (L : Layout Row K Key) (k : K) (db : List Row) : List Row := db.filter (L.owner · = k)

def Layout.find (L : Layout Row K Key) (key : Key) (db : List Row) : Option Row := db.find? (L.named key)

def Layout.Keyed (L : Layout Row K Key) (key : Key) (db : List Row) : Prop :=
  ∀ r ∈ db, ∀ r' ∈ db, L.named key r → L.named key r' → L.owner r = L.owner r'

def Layout.changed (L : Layout Row K Key) (k : K) (f : L.Change) (db : List Row) : List Row :=
  db.map fun r => if L.owner r = k then f.apply r else r

def Layout.removed (L : Layout Row K Key) (k : K) (p : Row → Bool) (db : List Row) : List Row :=
  db.filter fun r => ! (L.owner r = k && p r)

def Query.run : Query L α → List Row → List Row × α
  | .ret a, db => (db, a)
  | .select k next, db => (next (L.rowsOf k db)).run db
  | .lookup key next, db => (next (L.find key db)).run db
  | .change k f next, db => next.run (L.changed k f db)
  | .remove k p next, db => next.run (L.removed k p db)
  | .insert r next, db => next.run (db ++ [r])

/-- Whose rows the accesses of a run are about; `none` is the whole table. -/
def Query.touched : Query L α → List Row → List (Option K)
  | .ret _, _ => []
  | .select k next, db => some k :: (next (L.rowsOf k db)).touched db
  | .lookup key next, db => (L.find key db).map L.owner :: (next (L.find key db)).touched db
  | .change k f next, db => some k :: next.touched (L.changed k f db)
  | .remove k p next, db => some k :: next.touched (L.removed k p db)
  | .insert r next, db => some (L.owner r) :: next.touched (db ++ [r])

def Query.Only (k : K) (q : Query L α) (db : List Row) : Prop := ∀ x ∈ q.touched db, x = some k

instance (k : K) (q : Query L α) (db : List Row) : Decidable (q.Only k db) :=
  inferInstanceAs (Decidable (∀ x ∈ _, _))

/-- The query works on the rows of `k` alone. It may look a row up again by `key`, if `k` owns it. -/
def Query.Within (key : Option Key) (k : K) : Query L α → Prop
  | .ret _ => True
  | .select k' next => k' = k ∧ ∀ rs, (∀ r ∈ rs, L.owner r = k) → (next rs).Within key k
  | .lookup key' next => some key' = key ∧ ∀ r, L.owner r = k → L.named key' r → (next (some r)).Within key k
  | .change k' _ next => k' = k ∧ next.Within key k
  | .remove k' _ next => k' = k ∧ key = none ∧ next.Within key k
  | .insert r next => L.owner r = k ∧ (∀ c ∈ key, L.named c r = false) ∧ next.Within key k

/-- The first access is about the rows of `k`. -/
def Query.Starts (k : K) : Query L α → Prop
  | .ret _ => False
  | .select k' _ => k' = k
  | .lookup _ _ => False
  | .change k' _ _ => k' = k
  | .remove k' _ _ => k' = k
  | .insert r _ => L.owner r = k

/-! ## Rows of an owner -/

section Rows

variable {k k' : K} {key : Key} {db db' : List Row}

theorem Layout.mem_rowsOf {r : Row} : r ∈ L.rowsOf k db ↔ r ∈ db ∧ L.owner r = k := by
  simp [Layout.rowsOf]

theorem Layout.rowsOf_append (r : Row) (db : List Row) :
    L.rowsOf k (db ++ [r]) = L.rowsOf k db ++ if L.owner r = k then [r] else [] := by
  simp [Layout.rowsOf, filter_append, filter_cons]

theorem Layout.owner_changed (f : L.Change) (r : Row) :
    L.owner (if L.owner r = k then f.apply r else r) = L.owner r := by
  split
  · exact f.owner_apply r
  · rfl

theorem Layout.rowsOf_changed (f : L.Change) (db : List Row) :
    L.rowsOf k (L.changed k' f db) = if k = k' then (L.rowsOf k db).map f.apply else L.rowsOf k db := by
  induction db with
  | nil => simp [Layout.rowsOf, Layout.changed]
  | cons r db ih =>
    simp only [Layout.rowsOf, Layout.changed, map_cons, filter_cons, L.owner_changed] at ih ⊢
    rw [ih]
    by_cases hk : k = k'
    · subst hk
      by_cases hr : L.owner r = k <;> simp [hr]
    · by_cases hr : L.owner r = k
      · simp [hr, hk]
      · simp [hr]

theorem Layout.rowsOf_removed (p : Row → Bool) (db : List Row) :
    L.rowsOf k (L.removed k' p db) = if k = k' then (L.rowsOf k db).filter (! p ·) else L.rowsOf k db := by
  simp only [Layout.rowsOf, Layout.removed, filter_filter]
  by_cases hk : k = k'
  · subst hk
    rw [if_pos rfl]
    apply filter_congr
    intro r _
    by_cases hr : L.owner r = k <;> simp [hr]
  · rw [if_neg hk]
    apply filter_congr
    intro r _
    by_cases hr : L.owner r = k
    · simp [hr, hk]
    · simp [hr]

/-! ## Keys -/

theorem Layout.named_changed (f : L.Change) (c : Key) (r : Row) :
    L.named c (if L.owner r = k then f.apply r else r) = L.named c r := by
  split
  · exact f.named_apply c r
  · rfl

theorem Layout.Keyed.changed (h : L.Keyed key db) (f : L.Change) : L.Keyed key (L.changed k f db) := by
  intro r hr r' hr'
  obtain ⟨s, hs, rfl⟩ := mem_map.1 hr
  obtain ⟨s', hs', rfl⟩ := mem_map.1 hr'
  simp only [L.named_changed, L.owner_changed]
  exact h s hs s' hs'

omit [DecidableEq K] in
theorem Layout.Keyed.append (h : L.Keyed key db) {r : Row} (hr : L.named key r = false) : L.Keyed key (db ++ [r]) := by
  intro s hs s' hs' hn hn'
  rw [mem_append, mem_singleton] at hs hs'
  rcases hs with hs | rfl
  · rcases hs' with hs' | rfl
    · exact h s hs s' hs' hn hn'
    · exact absurd hn' (by rw [hr]; exact Bool.false_ne_true)
  · exact absurd hn (by rw [hr]; exact Bool.false_ne_true)

def Layout.Owns (L : Layout Row K Key) (k : K) (key : Key) (db : List Row) : Prop :=
  ∃ r ∈ L.rowsOf k db, L.named key r

theorem Layout.find_of_owns (ho : L.Owns k key db) (hk : L.Keyed key db) :
    L.find key db = L.find key (L.rowsOf k db) := by
  obtain ⟨r, hr, hn⟩ := ho
  obtain ⟨hmem, hown⟩ := Layout.mem_rowsOf.1 hr
  rw [Layout.find, Layout.find, Layout.rowsOf, List.find?_filter]
  apply List.find?_congr
  intro s hs
  cases hns : L.named key s with
  | false => simp
  | true =>
    have hsk : L.owner s = k := (hk s hs r hmem hns hn).trans hown
    simp [hsk]

theorem Layout.Owns.find (ho : L.Owns k key db) (hk : L.Keyed key db) :
    ∃ r, L.find key db = some r ∧ L.owner r = k ∧ L.named key r := by
  have hfind := Layout.find_of_owns ho hk
  obtain ⟨r, hr, hn⟩ := ho
  obtain ⟨s, hs⟩ := Option.isSome_iff_exists.1 (List.find?_isSome.2 ⟨r, hr, hn⟩)
  refine ⟨s, hfind.trans hs, ?_, List.find?_some hs⟩
  exact (Layout.mem_rowsOf.1 (List.mem_of_find?_eq_some hs)).2

theorem Layout.Owns.changed (ho : L.Owns k key db) (f : L.Change) : L.Owns k key (L.changed k' f db) := by
  obtain ⟨r, hr, hn⟩ := ho
  obtain ⟨hmem, hown⟩ := Layout.mem_rowsOf.1 hr
  refine ⟨_, Layout.mem_rowsOf.2 ⟨mem_map_of_mem hmem, ?_⟩, ?_⟩
  · exact (L.owner_changed f r).trans hown
  · exact (L.named_changed f key r).trans hn

theorem Layout.Owns.append (ho : L.Owns k key db) (r : Row) : L.Owns k key (db ++ [r]) := by
  obtain ⟨s, hs, hn⟩ := ho
  refine ⟨s, ?_, hn⟩
  rw [L.rowsOf_append]
  exact mem_append_left _ hs

end Rows

/-! ## Queries within the rows of one owner -/

/-- The keys a query may look up are keys of `k`. -/
def Layout.Holds (L : Layout Row K Key) (k : K) (key : Option Key) (db : List Row) : Prop :=
  ∀ c ∈ key, L.Owns k c db ∧ L.Keyed c db

section Holds

variable {k : K} {key : Option Key} {db : List Row}

theorem Layout.Holds.changed (h : L.Holds k key db) (f : L.Change) : L.Holds k key (L.changed k f db) :=
  fun c hc => ⟨(h c hc).1.changed f, (h c hc).2.changed f⟩

theorem Layout.Holds.append (h : L.Holds k key db) {r : Row} (hr : ∀ c ∈ key, L.named c r = false) :
    L.Holds k key (db ++ [r]) :=
  fun c hc => ⟨(h c hc).1.append r, (h c hc).2.append (hr c hc)⟩

theorem Layout.holds_none (k : K) (db : List Row) : L.Holds k (none : Option Key) db := nofun

end Holds

variable {k : K} {key : Option Key} {q : Query L α} {db db' : List Row}

theorem Query.Within.only (hq : q.Within key k) (hk : L.Holds k key db) : q.Only k db := by
  intro x hx
  induction q generalizing db with
  | ret a => cases hx
  | select k' next ih =>
    obtain ⟨rfl, hnext⟩ := hq
    rcases mem_cons.1 hx with rfl | hx
    · rfl
    · exact ih _ (hnext _ fun r hr => (Layout.mem_rowsOf.1 hr).2) hk hx
  | lookup c next ih =>
    obtain ⟨hc, hnext⟩ := hq
    obtain ⟨r, hfind, hown, hn⟩ := (hk c hc.symm).1.find (hk c hc.symm).2
    rw [Query.touched, hfind] at hx
    rcases mem_cons.1 hx with rfl | hx
    · exact congrArg some hown
    · exact ih _ (hnext r hown hn) hk hx
  | change k' f next ih =>
    obtain ⟨rfl, hnext⟩ := hq
    rcases mem_cons.1 hx with rfl | hx
    · rfl
    · exact ih hnext (hk.changed f) hx
  | remove k' p next ih =>
    obtain ⟨rfl, rfl, hnext⟩ := hq
    rcases mem_cons.1 hx with rfl | hx
    · rfl
    · exact ih hnext (Layout.holds_none _ _) hx
  | insert r next ih =>
    obtain ⟨hown, hnamed, hnext⟩ := hq
    rcases mem_cons.1 hx with rfl | hx
    · exact congrArg some hown
    · exact ih hnext (hk.append hnamed) hx

theorem Query.Starts.mem_touched (h : q.Starts k) (db : List Row) : some k ∈ q.touched db := by
  cases q with
  | ret a | lookup c next => exact h.elim
  | select k' next | change k' f next | remove k' p next | insert r next => exact h ▸ mem_cons_self ..

theorem Query.Only.frame (h : q.Only k db) {k' : K} (hne : k' ≠ k) : L.rowsOf k' (q.run db).1 = L.rowsOf k' db := by
  induction q generalizing db with
  | ret a => rfl
  | select c next ih | lookup c next ih => exact ih _ fun x hx => h x (mem_cons_of_mem _ hx)
  | change c f next ih =>
    have hc : c = k := Option.some.inj (h _ (mem_cons_self ..))
    refine (ih fun x hx => h x (mem_cons_of_mem _ hx)).trans ?_
    rw [L.rowsOf_changed, if_neg (hc ▸ hne)]
  | remove c p next ih =>
    have hc : c = k := Option.some.inj (h _ (mem_cons_self ..))
    refine (ih fun x hx => h x (mem_cons_of_mem _ hx)).trans ?_
    rw [L.rowsOf_removed, if_neg (hc ▸ hne)]
  | insert r next ih =>
    have hr : L.owner r = k := Option.some.inj (h _ (mem_cons_self ..))
    refine (ih fun x hx => h x (mem_cons_of_mem _ hx)).trans ?_
    rw [L.rowsOf_append, if_neg fun heq => hne (heq.symm.trans hr), append_nil]

/-- **Two tables.** A query within the rows of `k` gives the same answer on any two tables
that agree on those rows. -/
theorem Query.Within.congr (hq : q.Within key k) (hk : L.Holds k key db) (hk' : L.Holds k key db')
    (heq : L.rowsOf k db = L.rowsOf k db') : (q.run db).2 = (q.run db').2 := by
  induction q generalizing db db' with
  | ret a => rfl
  | select k' next ih =>
    obtain ⟨rfl, hnext⟩ := hq
    rw [Query.run, Query.run, ← heq]
    exact ih _ (hnext _ fun r hr => (Layout.mem_rowsOf.1 hr).2) hk hk' heq
  | lookup c next ih =>
    obtain ⟨hc, hnext⟩ := hq
    obtain ⟨ho, hkey⟩ := hk c hc.symm
    obtain ⟨ho', hkey'⟩ := hk' c hc.symm
    have hsame : L.find c db = L.find c db' := by
      rw [Layout.find_of_owns ho hkey, Layout.find_of_owns ho' hkey', heq]
    obtain ⟨r, hfind, hown, hn⟩ := ho.find hkey
    rw [Query.run, Query.run, ← hsame, hfind]
    exact ih _ (hnext r hown hn) hk hk' heq
  | change k' f next ih =>
    obtain ⟨rfl, hnext⟩ := hq
    refine ih hnext (hk.changed f) (hk'.changed f) ?_
    rw [L.rowsOf_changed, L.rowsOf_changed, heq]
  | remove k' p next ih =>
    obtain ⟨rfl, rfl, hnext⟩ := hq
    refine ih hnext (Layout.holds_none _ _) (Layout.holds_none _ _) ?_
    rw [L.rowsOf_removed, L.rowsOf_removed, heq]
  | insert r next ih =>
    obtain ⟨-, hnamed, hnext⟩ := hq
    refine ih hnext (hk.append hnamed) (hk'.append hnamed) ?_
    rw [L.rowsOf_append, L.rowsOf_append, heq]

end Lib.Owned
