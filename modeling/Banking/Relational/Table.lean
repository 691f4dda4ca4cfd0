import Mathlib.Algebra.BigOperators.Group.List.Basic
import Mathlib.Data.List.Nodup
import Mathlib.Tactic.Abel

/-!
# Tables with a unique index

Library `Relational`. A table keeps its rows in insertion order together with the proof
that no two of them share a key, so a table that breaks its unique index cannot be built.
`insert` leaves a table with the key already present as it is; a caller that must reject
the duplicate looks the key up first.
-/

namespace Relational

/-- Rows in insertion order with a unique index on `key`. -/
structure Table {Row Key : Type} (key : Row → Key) where
  rows : List Row
  unique : (rows.map key).Nodup

namespace Table

variable {Row Key : Type} {key : Row → Key}

/-- The table without rows. -/
def empty : Table key := ⟨[], List.nodup_nil⟩

/-- Tables are equal whenever their rows agree in order. -/
theorem ext {t u : Table key} (h : t.rows = u.rows) : t = u := by
  cases t
  cases u
  cases h
  rfl

/-- An empty table has no rows. -/
@[simp] theorem rows_empty : (empty : Table key).rows = [] := rfl

variable [DecidableEq Key]

/-- Lookup through the unique index. -/
def find? (t : Table key) (k : Key) : Option Row := t.rows.find? (fun r ↦ decide (key r = k))

/-- A found row carries the key it was looked up under. -/
theorem key_of_find? {t : Table key} {k : Key} {r : Row} (h : t.find? k = some r) :
    key r = k := by
  simpa using List.find?_some h

/-- A found row is a row of the table. -/
theorem mem_of_find? {t : Table key} {k : Key} {r : Row} (h : t.find? k = some r) :
    r ∈ t.rows := List.mem_of_find?_eq_some h

/-- A missing key belongs to no row. -/
theorem find?_eq_none {t : Table key} {k : Key} :
    t.find? k = none ↔ ∀ r ∈ t.rows, key r ≠ k := by
  simp [find?, List.find?_eq_none]

/-- The unique index returns every row under its own key. -/
theorem find?_of_mem {t : Table key} {r : Row} (h : r ∈ t.rows) : t.find? (key r) = some r := by
  obtain ⟨rows, unique⟩ := t
  simp only [find?] at *
  induction rows with
  | nil => simp at h
  | cons x xs ih =>
    have hx : key x ∉ xs.map key := (List.nodup_cons.mp unique).1
    rcases List.mem_cons.mp h with rfl | hr
    · simp
    · have hne : key x ≠ key r := fun he ↦ hx (he ▸ List.mem_map_of_mem hr)
      simpa [hne] using ih (List.nodup_cons.mp unique).2 hr

/-- At most one row has a given key. -/
theorem countP_key_le_one (t : Table key) (k : Key) :
    t.rows.countP (fun r ↦ decide (key r = k)) ≤ 1 := by
  have hcount := List.nodup_iff_count_le_one.mp t.unique k
  rw [List.count_eq_countP, List.countP_map] at hcount
  refine Nat.le_trans (Nat.le_of_eq (List.countP_congr fun r _ ↦ ?_)) hcount
  simp

/-- Nothing is found in the empty table. -/
@[simp] theorem find?_empty (k : Key) : (empty : Table key).find? k = none := rfl

/-! ### Insertion -/

private theorem nodup_append_fresh {t : Table key} {r : Row} (h : t.find? (key r) = none) :
    ((t.rows ++ [r]).map key).Nodup := by
  rw [List.map_append]
  apply List.Nodup.append t.unique (by simp)
  intro k hk hr
  obtain ⟨x, hx, rfl⟩ := List.mem_map.mp hk
  exact find?_eq_none.mp h x hx (by simpa using hr)

/-- Append a row whose key is absent; a table that has the key is left as it is. -/
def insert (t : Table key) (r : Row) : Table key :=
  match h : t.find? (key r) with
  | none => ⟨t.rows ++ [r], nodup_append_fresh h⟩
  | some _ => t

/-- A fresh row goes to the end. -/
theorem rows_insert {t : Table key} {r : Row} (h : t.find? (key r) = none) :
    (t.insert r).rows = t.rows ++ [r] := by
  unfold insert
  split
  · rfl
  · next hs => simp [h] at hs

/-- Inserting adds no other row. -/
theorem mem_rows_insert {t : Table key} {r x : Row} (h : x ∈ (t.insert r).rows) :
    x = r ∨ x ∈ t.rows := by
  cases hfind : t.find? (key r) with
  | none =>
    rw [rows_insert hfind] at h
    exact (List.mem_append.mp h).symm.imp_left List.mem_singleton.mp
  | some _ =>
    unfold insert at h
    split at h
    · next hnone => simp [hfind] at hnone
    · exact .inr h

/-- Lookup after inserting a fresh row. -/
theorem find?_insert {t : Table key} {r : Row} (h : t.find? (key r) = none) (k : Key) :
    (t.insert r).find? k = if key r = k then some r else t.find? k := by
  simp only [find?, rows_insert h, List.find?_append]
  by_cases hk : key r = k
  · subst hk
    change (t.find? (key r)).or _ = _
    simp [h]
  · simp [hk]

/-- The inserted row is found under its key. -/
theorem find?_insert_self {t : Table key} {r : Row} (h : t.find? (key r) = none) :
    (t.insert r).find? (key r) = some r := by
  simp [find?_insert h]

/-- Inserting a row keeps what other keys find, fresh or not. -/
theorem find?_insert_of_ne (t : Table key) {r : Row} {k : Key} (hk : key r ≠ k) :
    (t.insert r).find? k = t.find? k := by
  cases h : t.find? (key r) with
  | none => simp [find?_insert h, hk]
  | some x => unfold insert; split <;> simp_all

/-- An insertion never removes a row. -/
theorem find?_insert_of_some {t : Table key} {r x : Row} {k : Key} (h : t.find? k = some x) :
    (t.insert r).find? k = some x := by
  cases hr : t.find? (key r) with
  | none =>
    have hne : key r ≠ k := by
      intro he
      rw [he, h] at hr
      cases hr
    rw [find?_insert_of_ne t hne, h]
  | some y => unfold insert; split <;> simp_all

/-- After an insertion a found row is the new one or an old one. -/
theorem eq_or_of_find?_insert {t : Table key} {r x : Row} {k : Key}
    (h : (t.insert r).find? k = some x) : x = r ∨ t.find? k = some x := by
  cases hr : t.find? (key r) with
  | none =>
    rw [find?_insert hr] at h
    split at h
    · exact .inl (Option.some.inj h).symm
    · exact .inr h
  | some y =>
    have hsame : t.insert r = t := by unfold insert; split <;> simp_all
    exact .inr (hsame ▸ h)

/-- Fresh rows go to the end, in their order. -/
theorem rows_foldl_insert {rows : List Row} {t : Table key}
    (hfresh : ∀ r ∈ rows, t.find? (key r) = none) (hnodup : (rows.map key).Nodup) :
    (rows.foldl insert t).rows = t.rows ++ rows := by
  induction rows generalizing t with
  | nil => exact (List.append_nil _).symm
  | cons r rows ih =>
    rw [List.map_cons, List.nodup_cons] at hnodup
    have hrow := hfresh r List.mem_cons_self
    rw [List.foldl_cons, ih (fun x hx ↦ ?_) hnodup.2, rows_insert hrow, List.append_assoc,
      List.singleton_append]
    have hne : key r ≠ key x := fun heq ↦ hnodup.1 (heq ▸ List.mem_map_of_mem hx)
    rw [find?_insert_of_ne _ hne, hfresh x (List.mem_cons_of_mem _ hx)]

/-! ### Update in place -/

/-- Update every row; the update keeps every key. -/
def map (t : Table key) (f : Row → Row) (hf : ∀ r, key (f r) = key r) : Table key :=
  ⟨t.rows.map f, by
    rw [List.map_map, show key ∘ f = key from funext hf]
    exact t.unique⟩

/-- Lookup after an update of every row. -/
theorem find?_map (t : Table key) (f : Row → Row) (hf : ∀ r, key (f r) = key r) (k : Key) :
    (t.map f hf).find? k = (t.find? k).map f := by
  have hcomp : (fun r ↦ decide (key r = k)) ∘ f = fun r ↦ decide (key r = k) := by
    funext r
    simp [hf]
  rw [find?, map, List.find?_map, hcomp]
  rfl

omit [DecidableEq Key] in
/-- An update after which no further row passes a test and some row fails it lowers the number of
rows that pass. -/
theorem countP_map_lt {t : Table key} {f : Row → Row} (hf : ∀ r, key (f r) = key r)
    {p : Row → Bool} (hsub : ∀ r ∈ t.rows, p (f r) = true → p r = true) {r : Row}
    (hr : r ∈ t.rows) (hp : p r = true) (hnot : ¬ p (f r) = true) :
    (t.map f hf).rows.countP p < t.rows.countP p := by
  have hfilter : (t.map f hf).rows.countP p = (t.rows.filter p).countP (p ∘ f) := by
    rw [List.countP_filter, map, List.countP_map]
    exact List.countP_congr fun x hx ↦ by simpa using hsub x hx
  rw [hfilter, List.countP_eq_length_filter (p := p)]
  refine Nat.lt_of_le_of_ne List.countP_le_length fun hall ↦ hnot ?_
  exact List.countP_eq_length.mp hall r (List.mem_filter.mpr ⟨hr, hp⟩)

private theorem map_modify (k : Key) (f : Row → Row) (hf : ∀ r, key (f r) = key r)
    (rows : List Row) :
    (rows.map (fun r ↦ if key r = k then f r else r)).map key = rows.map key := by
  rw [List.map_map]
  apply List.map_congr_left
  intro r _
  simp only [Function.comp_apply]
  split <;> simp [hf]

/-- Update the row with key `k`; the update keeps every key. -/
def modify (t : Table key) (k : Key) (f : Row → Row) (hf : ∀ r, key (f r) = key r) : Table key :=
  ⟨t.rows.map (fun r ↦ if key r = k then f r else r), by rw [map_modify k f hf]; exact t.unique⟩

/-- An update keeps the order of the rows. -/
theorem rows_modify (t : Table key) (k : Key) (f : Row → Row) (hf : ∀ r, key (f r) = key r) :
    (t.modify k f hf).rows = t.rows.map (fun r ↦ if key r = k then f r else r) := rfl

/-- Lookup after an update. -/
theorem find?_modify (t : Table key) (k : Key) (f : Row → Row) (hf : ∀ r, key (f r) = key r)
    (k' : Key) :
    (t.modify k f hf).find? k' = if k' = k then (t.find? k).map f else t.find? k' := by
  have hcomp : ((fun r ↦ decide (key r = k')) ∘ fun r ↦ if key r = k then f r else r) =
      fun r ↦ decide (key r = k') := by
    funext r
    simp only [Function.comp_apply]
    split <;> simp [hf]
  simp only [find?, rows_modify, List.find?_map, hcomp]
  by_cases hk : k' = k
  · subst hk
    simp only [if_true]
    cases h : t.rows.find? (fun r ↦ decide (key r = k')) with
    | none => rfl
    | some r =>
      have hr : key r = k' := by simpa using List.find?_some h
      simp [hr]
  · simp only [if_neg hk]
    cases h : t.rows.find? (fun r ↦ decide (key r = k')) with
    | none => rfl
    | some r =>
      have hr : key r = k' := by simpa using List.find?_some h
      simp [hr, hk]

/-- Updates under different keys commute. -/
theorem modify_comm (t : Table key) {k k' : Key} (hne : k ≠ k') (f g : Row → Row)
    (hf : ∀ r, key (f r) = key r) (hg : ∀ r, key (g r) = key r) :
    (t.modify k f hf).modify k' g hg = (t.modify k' g hg).modify k f hf := by
  apply ext
  simp only [rows_modify, List.map_map]
  apply List.map_congr_left
  intro r _
  simp only [Function.comp_apply]
  by_cases hk : key r = k
  · have hk' : key r ≠ k' := fun he ↦ hne (hk.symm.trans he)
    simp [hk, hf, hne]
  · by_cases hk' : key r = k'
    · simp [hk', hg, Ne.symm hne]
    · simp [hk, hk']

/-- Updates and insertions under different keys commute. -/
theorem modify_insert_of_ne {t : Table key} {r : Row} (h : t.find? (key r) = none) {k : Key}
    (hne : key r ≠ k) (f : Row → Row) (hf : ∀ r, key (f r) = key r) :
    (t.insert r).modify k f hf = (t.modify k f hf).insert r := by
  have hfresh : (t.modify k f hf).find? (key r) = none := by
    rw [find?_modify, if_neg hne, h]
  apply ext
  rw [rows_modify, rows_insert h, rows_insert hfresh, rows_modify, List.map_append]
  simp [hne]

/-- Updating the row just inserted is inserting the updated row. -/
theorem modify_insert_self {t : Table key} {r : Row} (h : t.find? (key r) = none) (f : Row → Row)
    (hf : ∀ r, key (f r) = key r) : (t.insert r).modify (key r) f hf = t.insert (f r) := by
  apply ext
  rw [rows_modify, rows_insert h, rows_insert (by rw [hf]; exact h), List.map_append]
  have hold : t.rows.map (fun x ↦ if key x = key r then f x else x) = t.rows := by
    refine (List.map_congr_left ?_).trans (List.map_id _)
    intro x hx
    simp [find?_eq_none.mp h x hx]
  rw [hold]
  simp

/-! ### Sums over the rows -/

section Sums

variable {M : Type} [AddCommGroup M]

/-- A fresh row adds its own summand. -/
theorem sum_insert {t : Table key} {r : Row} (h : t.find? (key r) = none) (g : Row → M) :
    ((t.insert r).rows.map g).sum = (t.rows.map g).sum + g r := by
  simp [rows_insert h]

private theorem sum_map_modify (k : Key) (f : Row → Row) (g : Row → M) {r : Row} :
    ∀ rows : List Row, (rows.map key).Nodup → r ∈ rows → key r = k →
      ((rows.map (fun x ↦ if key x = k then f x else x)).map g).sum =
        (rows.map g).sum - g r + g (f r) := by
  intro rows
  induction rows with
  | nil => intro _ hr; simp at hr
  | cons x xs ih =>
    intro hn hr hk
    have hx : key x ∉ xs.map key := (List.nodup_cons.mp hn).1
    rcases List.mem_cons.mp hr with rfl | hmem
    · have hrest : xs.map (fun y ↦ if key y = k then f y else y) = xs := by
        refine (List.map_congr_left ?_).trans (List.map_id _)
        intro y hy
        have hne : key y ≠ k := fun he ↦ hx (hk ▸ he ▸ List.mem_map_of_mem hy)
        simp [hne]
      simp only [List.map_cons, hk, if_true, hrest, List.sum_cons]
      abel
    · have hne : key x ≠ k := fun he ↦ hx (he ▸ hk ▸ List.mem_map_of_mem hmem)
      simp only [List.map_cons, hne, if_false, List.sum_cons]
      rw [ih (List.nodup_cons.mp hn).2 hmem hk]
      abel

/-- Updating a row exchanges its summand. -/
theorem sum_modify {t : Table key} {k : Key} {r : Row} (h : t.find? k = some r) (f : Row → Row)
    (hf : ∀ r, key (f r) = key r) (g : Row → M) :
    ((t.modify k f hf).rows.map g).sum = (t.rows.map g).sum - g r + g (f r) :=
  sum_map_modify k f g t.rows t.unique (mem_of_find? h) (key_of_find? h)

/-- A summand for one existing key. -/
private theorem sum_single (t : Table key) {k : Key} (h : (t.find? k).isSome) (c : M) :
    (t.rows.map fun r ↦ if key r = k then c else 0).sum = c := by
  obtain ⟨r, hr⟩ := Option.isSome_iff_exists.mp h
  have hmem : k ∈ t.rows.map key :=
    List.mem_map.mpr ⟨r, mem_of_find? hr, key_of_find? hr⟩
  have hsum := List.sum_map_ite_eq (t.rows.map key) (fun _ ↦ c) (fun _ ↦ 0) k
  rw [List.count_eq_one_of_mem t.unique hmem, List.map_map] at hsum
  simpa [Function.comp_def, one_nsmul] using hsum

/-- Rows whose keys refer to the rows of another table are added up along that table. -/
theorem sum_join {Row' : Type} {key' : Row' → Key} (t : Table key) (u : Table key')
    (href : ∀ r ∈ u.rows, (t.find? (key' r)).isSome) (g : Row' → M) :
    (u.rows.map g).sum = (t.rows.map fun r ↦ ((u.find? (key r)).map g).getD 0).sum := by
  obtain ⟨rows, unique⟩ := u
  simp only [find?] at href ⊢
  induction rows with
  | nil => simp
  | cons r' rest ih =>
    obtain ⟨hnot, hrest⟩ := List.nodup_cons.mp unique
    obtain ⟨hr', href⟩ := List.forall_mem_cons.mp href
    have hsplit : ∀ r ∈ t.rows,
        (((r' :: rest).find? fun x ↦ decide (key' x = key r)).map g).getD 0 =
          (if key r = key' r' then g r' else 0) +
            ((rest.find? fun x ↦ decide (key' x = key r)).map g).getD 0 := by
      intro r _
      by_cases hk : key' r' = key r
      · have hnone : rest.find? (fun x ↦ decide (key' x = key r)) = none :=
          List.find?_eq_none.mpr fun x hx hxk ↦
            hnot (hk ▸ of_decide_eq_true hxk ▸ List.mem_map_of_mem hx)
        simp [hk, hnone]
      · simp [List.find?_cons_of_neg, hk, Ne.symm hk]
    rw [List.map_cons, List.sum_cons, ih hrest href, List.map_congr_left hsplit, List.sum_map_add,
      sum_single t hr']

end Sums

end Table

end Relational
