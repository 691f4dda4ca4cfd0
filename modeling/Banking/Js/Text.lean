import Mathlib.Algebra.Group.Int.Defs
import Mathlib.Algebra.GroupWithZero.Nat
import Mathlib.Data.List.DropRight
import Mathlib.Data.List.TakeWhile

/-!
# JavaScript strings and integers in decimal

Library `Js`. The parts of `String.prototype.trim`, `length`, `BigInt` and `toString` that
validators and serializers of decimal amounts rely on: trimming is idempotent, and the decimal
rendering of an integer is accepted by the usual digit patterns and read back unchanged.
-/

namespace Js

/-- The white space and line terminators that `trim` removes. -/
def isWhiteSpace (c : Char) : Bool :=
  let n := c.toNat
  (9 ≤ n && n ≤ 13) || n == 0x20 || n == 0xA0 || n == 0x1680 || (0x2000 ≤ n && n ≤ 0x200A) ||
    n == 0x2028 || n == 0x2029 || n == 0x202F || n == 0x205F || n == 0x3000 || n == 0xFEFF

private def trimChars (cs : List Char) : List Char :=
  (cs.dropWhile isWhiteSpace).rdropWhile isWhiteSpace

/-- `String.prototype.trim`. -/
def trim (s : String) : String := String.ofList (trimChars s.toList)

private theorem dropWhile_rdropWhile_of_head (cs : List Char)
    (h : ∀ hl : 0 < cs.length, ¬ isWhiteSpace (cs.get ⟨0, hl⟩)) :
    (cs.rdropWhile isWhiteSpace).dropWhile isWhiteSpace = cs.rdropWhile isWhiteSpace := by
  obtain ⟨t, ht⟩ := List.rdropWhile_prefix (p := isWhiteSpace) (l := cs)
  apply List.dropWhile_eq_self_iff.mpr
  intro hl
  have hcs : 0 < cs.length := by
    rw [← ht, List.length_append]
    omega
  rw [List.IsPrefix.getElem ⟨t, ht⟩ hl]
  exact h hcs

private theorem trimChars_trimChars (cs : List Char) :
    trimChars (trimChars cs) = trimChars cs := by
  have hhead := List.dropWhile_eq_self_iff.mp (List.dropWhile_idempotent isWhiteSpace cs)
  unfold trimChars
  rw [dropWhile_rdropWhile_of_head _ (by simpa using hhead)]
  exact List.rdropWhile_idempotent isWhiteSpace _

/-- Trimming twice is trimming once. -/
@[simp] theorem trim_trim (s : String) : trim (trim s) = trim s := by
  simp only [trim, String.toList_ofList, trimChars_trimChars]

/-- A string without white space is left alone. -/
theorem trim_eq_self {s : String} (h : ∀ c ∈ s.toList, isWhiteSpace c = false) : trim s = s := by
  have hhead : s.toList.dropWhile isWhiteSpace = s.toList :=
    List.dropWhile_eq_self_iff.mpr fun hl ↦ by simp [h]
  have hlast : s.toList.rdropWhile isWhiteSpace = s.toList :=
    List.rdropWhile_eq_self_iff.mpr fun hl ↦ by simp [h]
  rw [trim, trimChars, hhead, hlast, String.ofList_toList]

/-- `String.prototype.length` counts UTF-16 code units. -/
def length (s : String) : Nat :=
  (s.toList.map (fun c ↦ if 0x10000 ≤ c.toNat then 2 else 1)).sum

/-- A string with a character has positive length. -/
theorem length_pos {s : String} (h : s.toList ≠ []) : 1 ≤ length s := by
  obtain ⟨c, cs, hs⟩ := List.exists_cons_of_ne_nil h
  rw [length, hs, List.map_cons, List.sum_cons]
  split <;> omega

/-- `String.prototype.slice(0, n)` in UTF-8, where half of a character that is cut in two becomes
U+FFFD. -/
def sliceTo (n : Nat) (s : String) : String :=
  let rec go : Nat → List Char → List Char
    | _, [] => []
    | n, c :: cs =>
      let units := if 0x10000 ≤ c.toNat then 2 else 1
      if units ≤ n then c :: go (n - units) cs
      else if n = 0 then [] else [Char.ofNat 0xFFFD]
  String.ofList (go n s.toList)

/-- `String.prototype.split(',')[0]`. -/
def beforeComma (s : String) : String := String.ofList (s.toList.takeWhile (· ≠ ','))

/-! ### Decimal digits -/

/-- The pattern `^\d+$`. -/
def isDigits (s : String) : Bool := !s.toList.isEmpty && s.toList.all Char.isDigit

/-- The pattern `^[1-9]\d*$`. -/
def isPositiveDigits (s : String) : Bool :=
  match s.toList with
  | [] => false
  | c :: cs => c.isDigit && c != '0' && cs.all Char.isDigit

/-- `BigInt` of a string of decimal digits. -/
def bigInt (s : String) : Int := (Nat.ofDigitChars 10 s.toList 0 : Nat)

private theorem all_isDigit_toDigits (n : Nat) : (Nat.toDigits 10 n).all Char.isDigit = true :=
  List.all_eq_true.mpr fun _ hc ↦ Nat.isDigit_of_mem_toDigits (by decide) (by decide) hc

private theorem head_toDigits_ne_zero (n : Nat) (hn : 0 < n) :
    ∃ c cs, Nat.toDigits 10 n = c :: cs ∧ c ≠ '0' := by
  induction n using Nat.strongRecOn with
  | ind n ih =>
    rw [Nat.toDigits_eq_if (by decide)]
    split
    · next h =>
      have hdigit : ∀ m < 10, 0 < m → Nat.digitChar m ≠ '0' := by decide
      exact ⟨_, _, rfl, hdigit n h hn⟩
    · next h =>
      obtain ⟨c, cs, he, hc⟩ := ih (n / 10) (Nat.div_lt_self hn (by decide))
        (Nat.div_pos (by omega) (by decide))
      exact ⟨c, cs ++ [Nat.digitChar (n % 10)], by rw [he]; rfl, hc⟩

private theorem toList_toString_natCast (n : Nat) :
    (toString (n : Int)).toList = Nat.toDigits 10 n := by
  change (Nat.repr n).toList = _
  exact Nat.toList_repr

/-- The rendering of a non-negative integer is a string of digits. -/
theorem isDigits_toString {n : Int} (hn : 0 ≤ n) : isDigits (toString n) = true := by
  obtain ⟨m, rfl⟩ := Int.eq_ofNat_of_zero_le hn
  unfold isDigits
  rw [toList_toString_natCast, all_isDigit_toDigits]
  simp [Nat.toDigits_ne_nil]

/-- The rendering of a positive integer has no leading zero. -/
theorem isPositiveDigits_toString {n : Int} (hn : 0 < n) :
    isPositiveDigits (toString n) = true := by
  obtain ⟨m, rfl⟩ := Int.eq_ofNat_of_zero_le (Int.le_of_lt hn)
  obtain ⟨c, cs, he, hc⟩ := head_toDigits_ne_zero m (by omega)
  have hall := all_isDigit_toDigits m
  rw [he, List.all_cons, Bool.and_eq_true] at hall
  unfold isPositiveDigits
  rw [toList_toString_natCast, he]
  simp [hall, hc]

/-- A rendered non-negative integer is read back unchanged. -/
theorem bigInt_toString {n : Int} (hn : 0 ≤ n) : bigInt (toString n) = n := by
  obtain ⟨m, rfl⟩ := Int.eq_ofNat_of_zero_le hn
  unfold bigInt
  rw [toList_toString_natCast, Nat.ofDigitChars_ten_toDigits]

/-- What `BigInt` reads from digits without leading zero is positive. -/
theorem bigInt_pos {s : String} (h : isPositiveDigits s = true) : 0 < bigInt s := by
  unfold isPositiveDigits at h
  unfold bigInt
  split at h
  · cases h
  · next c cs hs =>
    simp only [Bool.and_eq_true, bne_iff_ne, ne_eq] at h
    obtain ⟨⟨hd, hz⟩, -⟩ := h
    have hdigit : 1 ≤ c.toNat - '0'.toNat := by
      have hlow : '0'.toNat ≤ c.toNat := (Char.isDigit_iff_toNat.mp hd).1
      have hne : c.toNat ≠ '0'.toNat := fun he ↦ hz (Char.toNat_inj.mp he)
      omega
    rw [hs, Nat.ofDigitChars_cons, Nat.ofDigitChars_eq_ofDigitChars_zero]
    have hpow : 0 < 10 ^ cs.length * (10 * 0 + (c.toNat - '0'.toNat)) :=
      Nat.mul_pos (Nat.pow_pos (by decide)) (by omega)
    omega

private theorem toList_toString_negSucc (m : Nat) :
    (toString (Int.negSucc m)).toList = '-' :: (toString ((m + 1 : Nat) : Int)).toList := by
  change ("-" ++ Nat.repr (m + 1)).toList = '-' :: (Nat.repr (m + 1)).toList
  simp

/-- Only the rendering of a natural number consists of digits. -/
theorem nonneg_of_isDigits_toString {n : Int} (h : isDigits (toString n) = true) : 0 ≤ n := by
  cases n with
  | ofNat m => exact Int.natCast_nonneg m
  | negSucc m =>
    rw [isDigits, toList_toString_negSucc] at h
    simp at h

/-- Different integers are rendered differently. -/
theorem toString_injective {n m : Int} (h : toString n = toString m) : n = m := by
  have hdigits : 0 ≤ n ↔ 0 ≤ m :=
    ⟨fun hn ↦ nonneg_of_isDigits_toString (h ▸ isDigits_toString hn),
      fun hm ↦ nonneg_of_isDigits_toString (h ▸ isDigits_toString hm)⟩
  by_cases hn : 0 ≤ n
  · rw [← bigInt_toString hn, h, bigInt_toString (hdigits.mp hn)]
  · obtain ⟨a, rfl⟩ := Int.eq_negSucc_of_lt_zero (Int.not_le.mp hn)
    obtain ⟨b, rfl⟩ := Int.eq_negSucc_of_lt_zero (Int.not_le.mp (mt hdigits.mpr hn))
    have hlist := congrArg String.toList h
    rw [toList_toString_negSucc, toList_toString_negSucc, List.cons.injEq] at hlist
    have hrepr := congrArg bigInt (String.toList_inj.mp hlist.2)
    rw [bigInt_toString (Int.natCast_nonneg _), bigInt_toString (Int.natCast_nonneg _)] at hrepr
    rw [Int.negSucc_inj]
    omega

end Js
