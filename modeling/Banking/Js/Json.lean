import Banking.Js.Date

/-!
# JSON values and validators

Library `Zod`. A schema maps a value, or `undefined`, to the parsed value, or rejects it. The
combinators are those of strict object schemas with string, enumeration, number and nested
fields; a caller builds an object schema by parsing each field in order.
-/

/-- JSON values. The keys of an object are distinct and in order of definition. -/
inductive Json where
  | null
  | bool (b : Bool)
  | num (n : Rat)
  | str (s : String)
  | arr (items : List Json)
  | obj (fields : List (String × Json))

namespace Zod

/-- A validator: `none` as input is `undefined`, `none` as output a validation error. -/
abbrev Schema (α : Type) := Option Json → Option α

/-- `z.string()`. -/
def string : Schema String
  | some (.str s) => some s
  | _ => none

/-- Reject the values that fail a check. -/
def Schema.refine {α : Type} (s : Schema α) (p : α → Bool) : Schema α :=
  fun v ↦ (s v).filter p

/-- `.transform(f)`. -/
def Schema.transform {α β : Type} (s : Schema α) (f : α → β) : Schema β :=
  fun v ↦ (s v).map f

/-- `.optional()`. -/
def Schema.optional {α : Type} (s : Schema α) : Schema (Option α)
  | none => some none
  | some v => (s (some v)).map some

/-- `.nullable()`. -/
def Schema.nullable {α : Type} (s : Schema α) : Schema (Option α)
  | some .null => some none
  | v => (s v).map some

/-- `z.literal(text)`. -/
def literal (text : String) : Schema String := string.refine (· == text)

/-- `z.string().trim().min(1)`. -/
def trimmedString : Schema String := (string.transform Js.trim).refine (1 ≤ Js.length ·)

/-- `z.string().trim().min(1).max(bound)`. -/
def boundedString (bound : Nat) : Schema String := trimmedString.refine (Js.length · ≤ bound)

/-- `z.number().int().positive()`, within the safe integers. -/
def positiveInt : Schema Int
  | some (.num n) => if n.den = 1 ∧ 0 < n.num ∧ n.num < 2 ^ 53 then some n.num else none
  | _ => none

/-- `z.iso.datetime()`. -/
def isoDatetime : Schema String := string.refine Js.isDatetime

/-- The key that object schemas pass over and record schemas drop. -/
def protoKey : String := "__proto__"

mutual

/-- The copy of a value that `z.json()` returns. -/
def json : Json → Json
  | .arr items => .arr (jsonItems items)
  | .obj fields => .obj (jsonFields fields)
  | value => value

/-- The copy of an array. -/
def jsonItems : List Json → List Json
  | [] => []
  | item :: items => json item :: jsonItems items

/-- The copy of an object. -/
def jsonFields : List (String × Json) → List (String × Json)
  | [] => []
  | (key, value) :: fields =>
    if key = protoKey then jsonFields fields else (key, json value) :: jsonFields fields

end

/-- `z.record(z.string(), z.json())`. -/
def record : Schema (List (String × Json))
  | some (.obj fields) => some (jsonFields fields)
  | _ => none

private def isHex (c : Char) : Bool :=
  c.isDigit || ('a' ≤ c && c ≤ 'f') || ('A' ≤ c && c ≤ 'F')

private def isVariant (c : Char) : Bool := "89abAB".toList.contains c

private def uuidPattern : List (Char → Bool) :=
  List.replicate 8 isHex ++ [(· == '-')] ++ List.replicate 4 isHex ++ [(· == '-')] ++
    [fun c ↦ '1' ≤ c && c ≤ '8'] ++ List.replicate 3 isHex ++ [(· == '-')] ++
    [isVariant] ++ List.replicate 3 isHex ++ [(· == '-')] ++ List.replicate 12 isHex

/-- The pattern of `z.uuid()`: any version and variant of RFC 9562, the nil and the max UUID. -/
def isUuid (s : String) : Bool :=
  (s.toList.length == uuidPattern.length &&
    (List.zipWith (fun p c ↦ p c) uuidPattern s.toList).all id) ||
  s == "00000000-0000-0000-0000-000000000000" || s == "ffffffff-ffff-ffff-ffff-ffffffffffff"

private theorem isWhiteSpace_of_isHex {c : Char} (h : isHex c = true) :
    Js.isWhiteSpace c = false := by
  have hbounds : 48 ≤ c.toNat ∧ c.toNat ≤ 57 ∨ 97 ≤ c.toNat ∧ c.toNat ≤ 102 ∨
      65 ≤ c.toNat ∧ c.toNat ≤ 70 := by
    simp only [isHex, Bool.or_eq_true, Bool.and_eq_true, decide_eq_true_eq,
      Char.isDigit_iff_toNat] at h
    rcases h with (h | h) | h
    · exact .inl h
    · exact .inr (.inl h)
    · exact .inr (.inr h)
  simp only [Js.isWhiteSpace, Bool.or_eq_false_iff, Bool.and_eq_false_iff, decide_eq_false_iff_not,
    beq_eq_false_iff_ne]
  omega

private theorem isHex_or_dash {p : Char → Bool} (hp : p ∈ uuidPattern) {c : Char}
    (h : p c = true) : isHex c = true ∨ c = '-' := by
  simp only [uuidPattern, List.mem_append, List.mem_replicate, List.mem_singleton] at hp
  have hvariant : isVariant c = true → isHex c = true := by
    intro hc
    have hmem : c ∈ ['8', '9', 'a', 'b', 'A', 'B'] := List.contains_iff_mem.mp hc
    simp only [List.mem_cons, List.not_mem_nil, or_false] at hmem
    rcases hmem with rfl | rfl | rfl | rfl | rfl | rfl <;> rfl
  have hversion : (decide ('1' ≤ c) && decide (c ≤ '8')) = true → isHex c = true := by
    intro hc
    obtain ⟨hlow, hhigh⟩ := Bool.and_eq_true_iff.mp hc
    have hlow : '1'.toNat ≤ c.toNat := of_decide_eq_true hlow
    have hhigh : c.toNat ≤ '8'.toNat := of_decide_eq_true hhigh
    have hdigit : c.isDigit = true := Char.isDigit_iff_toNat.mpr ⟨by
      exact Nat.le_trans (by decide) hlow, Nat.le_trans hhigh (by decide)⟩
    simp [isHex, hdigit]
  rcases hp with ((((((((((⟨-, rfl⟩ | rfl) | ⟨-, rfl⟩) | rfl) | rfl) | ⟨-, rfl⟩) | rfl) | rfl) |
    ⟨-, rfl⟩) | rfl) | ⟨-, rfl⟩)
  all_goals first
    | exact .inl h
    | exact .inr (eq_of_beq h)
    | exact .inl (hversion h)
    | exact .inl (hvariant h)

private theorem exists_pattern {ps : List (Char → Bool)} {cs : List Char}
    (hlength : cs.length = ps.length)
    (h : (List.zipWith (fun p c ↦ p c) ps cs).all id = true) {c : Char} (hc : c ∈ cs) :
    ∃ p ∈ ps, p c = true := by
  induction ps generalizing cs with
  | nil =>
    rw [List.eq_nil_of_length_eq_zero hlength] at hc
    cases hc
  | cons p ps ih =>
    cases cs with
    | nil => cases hc
    | cons c' cs =>
      rw [List.zipWith_cons_cons, List.all_cons, Bool.and_eq_true] at h
      rcases List.mem_cons.mp hc with rfl | hc
      · exact ⟨p, List.mem_cons_self, h.1⟩
      · obtain ⟨q, hq, hqc⟩ := ih (Nat.succ.inj hlength) h.2 hc
        exact ⟨q, List.mem_cons_of_mem p hq, hqc⟩

/-- A UUID is trimmed and not empty. -/
theorem trim_of_isUuid {s : String} (h : isUuid s = true) : Js.trim s = s ∧ 1 ≤ Js.length s := by
  simp only [isUuid, Bool.or_eq_true, Bool.and_eq_true, beq_iff_eq] at h
  rcases h with (⟨hlength, hall⟩ | rfl) | rfl
  · refine ⟨Js.trim_eq_self fun c hc ↦ ?_, Js.length_pos fun hnil ↦ ?_⟩
    · obtain ⟨p, hp, hpc⟩ := exists_pattern hlength hall hc
      rcases isHex_or_dash hp hpc with hhex | rfl
      · exact isWhiteSpace_of_isHex hhex
      · decide
    · rw [hnil] at hlength
      exact absurd hlength (by decide)
  · decide
  · decide

/-- `z.uuid()`. -/
def uuid : Schema String := string.refine isUuid

/-- `z.object({…}).strict()`: only the given keys may occur, and `__proto__`; `parse` reads the
fields. -/
def strictObject {α : Type} (keys : List String) (parse : (String → Option Json) → Option α) :
    Schema α
  | some (.obj fields) =>
    if fields.all (fun field ↦ keys.contains field.1 || field.1 == protoKey) then
      parse (fields.lookup ·)
    else none
  | _ => none

/-! ### What the schemas accept -/

variable {α β : Type}

/-- Strings are accepted as they are. -/
theorem string_eq_some {v : Option Json} {s : String} : string v = some s ↔ v = some (.str s) := by
  cases v with
  | none => simp [string]
  | some j => cases j <;> simp [string]

/-- A schema with a check accepts what the check holds of. -/
theorem refine_eq_some {s : Schema α} {p : α → Bool} {v : Option Json} {a : α} :
    s.refine p v = some a ↔ s v = some a ∧ p a = true := by
  simp [Schema.refine, Option.filter_eq_some_iff]

/-- A transformed schema accepts the images. -/
theorem transform_eq_some {s : Schema α} {f : α → β} {v : Option Json} {b : β} :
    s.transform f v = some b ↔ ∃ a, s v = some a ∧ f a = b := by
  simp [Schema.transform]

/-- An optional schema accepts what the schema accepts. -/
theorem optional_some {s : Schema α} {v : Json} {a : α} (h : s (some v) = some a) :
    s.optional (some v) = some (some a) := by
  rw [Schema.optional, h]
  rfl

/-- An object with exactly the given keys is parsed by its fields. -/
theorem strictObject_obj {keys : List String} {parse : (String → Option Json) → Option α}
    {fields : List (String × Json)} (h : fields.map Prod.fst = keys) :
    strictObject keys parse (some (.obj fields)) = parse (fields.lookup ·) := by
  refine if_pos (List.all_eq_true.mpr fun field hfield ↦ Bool.or_eq_true_iff.mpr (.inl ?_))
  exact List.contains_iff_mem.mpr (h ▸ List.mem_map_of_mem hfield)

/-- What an object schema accepts is an object. -/
theorem strictObject_eq_some {keys : List String} {parse : (String → Option Json) → Option α}
    {v : Option Json} {a : α} (h : strictObject keys parse v = some a) :
    ∃ fields, v = some (.obj fields) ∧ parse (fields.lookup ·) = some a := by
  rw [strictObject.eq_def] at h
  split at h
  · split at h
    · exact ⟨_, rfl, h⟩
    · cases h
  · cases h

/-- A trimmed non-empty string is accepted as it is. -/
theorem trimmedString_str {s : String} (ht : Js.trim s = s) (hl : 1 ≤ Js.length s) :
    trimmedString (some (.str s)) = some s :=
  refine_eq_some.mpr ⟨transform_eq_some.mpr ⟨s, rfl, ht⟩, by simpa using hl⟩

/-- What a trimmed string schema returns is trimmed and not empty. -/
theorem trimmedString_eq_some {v : Option Json} {s : String} (h : trimmedString v = some s) :
    Js.trim s = s ∧ 1 ≤ Js.length s := by
  obtain ⟨ht, hl⟩ := refine_eq_some.mp h
  obtain ⟨r, -, rfl⟩ := transform_eq_some.mp ht
  exact ⟨Js.trim_trim r, by simpa using hl⟩

/-- A trimmed non-empty string within the bound is accepted as it is. -/
theorem boundedString_str {bound : Nat} {s : String} (ht : Js.trim s = s)
    (hl : 1 ≤ Js.length s) (hb : Js.length s ≤ bound) :
    boundedString bound (some (.str s)) = some s :=
  refine_eq_some.mpr ⟨trimmedString_str ht hl, by simpa using hb⟩

/-- What a bounded string schema returns is trimmed, not empty and within the bound. -/
theorem boundedString_eq_some {bound : Nat} {v : Option Json} {s : String}
    (h : boundedString bound v = some s) :
    Js.trim s = s ∧ 1 ≤ Js.length s ∧ Js.length s ≤ bound := by
  obtain ⟨ht, hb⟩ := refine_eq_some.mp h
  obtain ⟨h₁, h₂⟩ := trimmedString_eq_some ht
  exact ⟨h₁, h₂, by simpa using hb⟩

/-- A string that meets the check of a refined string schema is accepted as it is. -/
theorem refine_str {p : String → Bool} {s : String} (h : p s = true) :
    string.refine p (some (.str s)) = some s :=
  refine_eq_some.mpr ⟨rfl, h⟩

end Zod
