import Mathlib.Data.Rat.Defs
import TransferWorker.Json.Text

/-! # JSON Schema

The keywords of JSON Schema, draft 2020-12, that constrain the shape of a document: `type`, `enum`,
`pattern`, `minimum`, `items`, `minItems`, `properties`, `required` and `additionalProperties`.
`format`, `title`, `description` and `examples` are annotations in that draft and left out. A pattern is
the predicate that its regular expression is. Of a repeated member the first one counts; JSON leaves it
open.

* **`Schema`**, `Schema.valid` — schemas and what they accept.
* **`valid_string`**, `valid_integer`, `valid_array`, `valid_object` — the same, one level at a time. -/

namespace Json

/-- **A schema.** -/
inductive Schema where
  /-- `type: string` with a `pattern`. -/
  | string (pattern : String → Bool)
  /-- `type: integer` with a `minimum`. -/
  | integer (minimum : Int)
  /-- `type: array` with `items` and `minItems`. -/
  | array (items : Schema) (minItems : Nat)
  /-- `type: object` with `properties`, `required`, and `additionalProperties: false`. -/
  | object (properties : List (String × Schema)) (required : List String)

/-- `type: string` without further keywords. -/
def Schema.anyString : Schema := .string fun _ => true

/-- `type: string` with an `enum`. -/
def Schema.enum (values : List String) : Schema := .string values.contains

/-- **An integer of JSON Schema** that is not below a minimum: any number without a fractional part,
however it is written. -/
def isInteger (minimum : Int) : Value → Bool
  | .int n => minimum ≤ n
  | .float m e =>
      let q : ℚ := m * 10 ^ e
      q.den = 1 && (minimum : ℚ) ≤ q
  | _ => false

mutual

/-- **The schema accepts a value.** -/
def Schema.valid : Schema → Value → Bool
  | .string pattern, .str s => pattern s
  | .integer minimum, v => isInteger minimum v
  | .array items minItems, .arr vs => decide (minItems ≤ vs.length) && vs.all items.valid
  | .object properties required, .obj ms =>
      required.all (fun name => (lookup name ms).isSome) &&
        ms.all (fun m => (properties.map Prod.fst).contains m.1) && validProperties properties ms
  | _, _ => false

/-- The schema of each property accepts the member of that name, if there is one. -/
def Schema.validProperties : List (String × Schema) → List (String × Value) → Bool
  | [], _ => true
  | (name, schema) :: properties, ms =>
      (match lookup name ms with
        | none => true
        | some v => schema.valid v) && validProperties properties ms

end

namespace Schema

/-- What a string with a pattern allows. -/
theorem valid_string {pattern : String → Bool} {v : Value} :
    (string pattern).valid v = true ↔ ∃ s, v = .str s ∧ pattern s = true := by
  cases v <;> simp [valid]

/-- What a string without a pattern allows. -/
theorem valid_anyString {v : Value} : anyString.valid v = true ↔ ∃ s, v = .str s := by
  rw [anyString, valid_string]
  simp

/-- What an enumeration allows. -/
theorem valid_enum {values : List String} {v : Value} :
    (enum values).valid v = true ↔ ∃ s ∈ values, v = .str s := by
  rw [enum, valid_string]
  constructor
  · rintro ⟨s, rfl, hs⟩
    exact ⟨s, by simpa using hs, rfl⟩
  · rintro ⟨s, hs, rfl⟩
    exact ⟨s, rfl, by simpa using hs⟩

/-- What an integer with a minimum allows. -/
theorem valid_integer {minimum : Int} {v : Value} :
    (integer minimum).valid v = true ↔ isInteger minimum v = true := by
  simp [valid]

/-- What an array allows. -/
theorem valid_array {items : Schema} {minItems : Nat} {v : Value} :
    (array items minItems).valid v = true ↔
      ∃ vs, v = .arr vs ∧ minItems ≤ vs.length ∧ ∀ w ∈ vs, items.valid w = true := by
  cases v <;> simp [valid]

/-- The properties that are there are valid. -/
theorem validProperties_iff {properties : List (String × Schema)} {ms : List (String × Value)} :
    validProperties properties ms = true ↔
      ∀ p ∈ properties, ∀ v, lookup p.1 ms = some v → p.2.valid v = true := by
  induction properties with
  | nil => simp [validProperties]
  | cons p properties ih =>
      obtain ⟨name, schema⟩ := p
      rw [validProperties, Bool.and_eq_true, ih, List.forall_mem_cons]
      refine and_congr_left fun _ => ?_
      cases lookup name ms <;> simp

/-- **An object is valid** when it has the required members, no others than the properties, and each
of them is valid. -/
theorem valid_object {properties : List (String × Schema)} {required : List String} {v : Value} :
    (object properties required).valid v = true ↔ ∃ ms, v = .obj ms ∧
      (∀ name ∈ required, (lookup name ms).isSome = true) ∧
      (∀ m ∈ ms, m.1 ∈ properties.map Prod.fst) ∧
      ∀ p ∈ properties, ∀ v, lookup p.1 ms = some v → p.2.valid v = true := by
  cases v with
  | obj ms =>
      rw [valid, Bool.and_eq_true, Bool.and_eq_true, validProperties_iff, List.all_eq_true,
        List.all_eq_true]
      simp [and_assoc]
  | _ => simp [valid]

end Schema

end Json
