import Mathlib.Algebra.BigOperators.Group.List.Basic
import Mathlib.Data.List.Nodup
import Mathlib.Data.List.Perm.Basic

/-!
# Tallies

Library `Relational`. Sums of values that are filed under keys. A key has a sum as soon as a value
is filed under it, and the order in which the values arrive does not matter.
-/

namespace Relational

variable {Key M : Type} [DecidableEq Key] [AddCommMonoid M]

/-- The values filed under a key. -/
def valuesAt (items : List (Key × M)) (k : Key) : List M :=
  (items.filter (fun item ↦ item.1 = k)).map Prod.snd

/-- The sum under a key, if a value is filed under it. -/
def tally (items : List (Key × M)) (k : Key) : Option M :=
  if (valuesAt items k).isEmpty then none else some (valuesAt items k).sum

/-- A key with a sum has a value. -/
theorem exists_of_tally {items : List (Key × M)} {k : Key} {sum : M}
    (h : tally items k = some sum) : ∃ value, (k, value) ∈ items := by
  simp only [tally] at h
  split at h
  · cases h
  · next hvalues =>
    obtain ⟨value, hvalue⟩ := List.exists_mem_of_ne_nil _ fun hnil ↦
      hvalues (List.isEmpty_iff.mpr hnil)
    obtain ⟨item, hitem, rfl⟩ := List.mem_map.mp hvalue
    obtain ⟨hmem, hkey⟩ := List.mem_filter.mp hitem
    exact ⟨item.2, of_decide_eq_true hkey ▸ hmem⟩

/-- Without a value the sum is zero. -/
theorem getD_tally (items : List (Key × M)) (k : Key) :
    (tally items k).getD 0 = (valuesAt items k).sum := by
  unfold tally
  split
  · next h => rw [List.isEmpty_iff.mp h, Option.getD_none, List.sum_nil]
  · rfl

omit [AddCommMonoid M] in
/-- A value filed first comes first under its key. -/
theorem valuesAt_cons (item : Key × M) (items : List (Key × M)) (k : Key) :
    valuesAt (item :: items) k =
      if item.1 = k then item.2 :: valuesAt items k else valuesAt items k := by
  by_cases h : item.1 = k <;> simp [valuesAt, h]

omit [AddCommMonoid M] in
/-- A value filed last comes last under its key. -/
theorem valuesAt_concat (items : List (Key × M)) (item : Key × M) (k : Key) :
    valuesAt (items ++ [item]) k =
      valuesAt items k ++ if item.1 = k then [item.2] else [] := by
  by_cases h : item.1 = k <;> simp [valuesAt, List.filter_append, h]

/-- Filing a value changes the sum under its key. -/
theorem tally_concat (items : List (Key × M)) (item : Key × M) (k : Key) :
    tally (items ++ [item]) k =
      if item.1 = k then some ((tally items k).getD 0 + item.2) else tally items k := by
  rw [getD_tally, tally, valuesAt_concat]
  by_cases h : item.1 = k
  · simp [h]
  · simp [h, tally]

/-- The order does not matter. -/
theorem tally_perm {items items' : List (Key × M)} (h : items.Perm items') (k : Key) :
    tally items k = tally items' k := by
  have hvalues : (valuesAt items k).Perm (valuesAt items' k) := by
    unfold valuesAt
    exact (h.filter _).map _
  rw [tally, tally, hvalues.isEmpty_eq, hvalues.sum_eq]

/-- A key has a sum exactly when a value is filed under it. -/
theorem isSome_tally {items : List (Key × M)} {k : Key} :
    (tally items k).isSome = true ↔ k ∈ items.map Prod.fst := by
  have hempty : (valuesAt items k).isEmpty = true ↔ k ∉ items.map Prod.fst := by
    rw [List.isEmpty_iff, valuesAt, List.map_eq_nil_iff, List.filter_eq_nil_iff, List.mem_map]
    simp only [decide_eq_true_eq, not_exists, not_and]
  unfold tally
  split
  · next h => simp [hempty.mp h]
  · next h => simpa using not_not.mp (mt hempty.mpr h)

/-- The sums of two lists add up. -/
theorem tally_append (items items' : List (Key × M)) (k : Key) :
    tally (items ++ items') k = (tally items k).merge (· + ·) (tally items' k) := by
  have hvalues : valuesAt (items ++ items') k = valuesAt items k ++ valuesAt items' k := by
    simp [valuesAt, List.filter_append]
  rw [tally, hvalues, List.sum_append, tally, tally]
  cases hleft : valuesAt items k with
  | nil => cases hright : valuesAt items' k <;> simp
  | cons value values => cases hright : valuesAt items' k <;> simp

/-- Only the values under a key count for it. -/
theorem tally_filter (items : List (Key × M)) (k : Key) :
    tally (items.filter (fun item ↦ item.1 = k)) k = tally items k := by
  have hvalues : valuesAt (items.filter (fun item ↦ item.1 = k)) k = valuesAt items k := by
    simp [valuesAt, List.filter_filter]
  rw [tally, tally, hvalues]

/-- Under distinct keys, of which every value has one, the sums add up to all values. -/
theorem sum_valuesAt {items : List (Key × M)} {keys : List Key} (hkeys : keys.Nodup)
    (hcover : ∀ item ∈ items, item.1 ∈ keys) :
    (keys.map fun k ↦ (valuesAt items k).sum).sum = (items.map Prod.snd).sum := by
  induction items with
  | nil => simp [valuesAt]
  | cons item items ih =>
    obtain ⟨hitem, hcover⟩ := List.forall_mem_cons.mp hcover
    have hsplit : ∀ k ∈ keys, (valuesAt (item :: items) k).sum =
        (if item.1 = k then item.2 else 0) + (valuesAt items k).sum := by
      intro k _
      rw [valuesAt_cons]
      by_cases hk : item.1 = k <;> simp [hk]
    have hone : (keys.map fun k ↦ if item.1 = k then item.2 else 0).sum = item.2 := by
      rw [List.sum_map_eq_nsmul_single item.1 _ fun k hk _ ↦ if_neg (Ne.symm hk),
        List.count_eq_one_of_mem hkeys hitem, one_nsmul, if_pos rfl]
    rw [List.map_congr_left hsplit, List.sum_map_add, hone, ih hcover, List.map_cons,
      List.sum_cons]

end Relational
