import Linework.Argument.Value
import Linework.Proofs.Json.Quoting
import Linework.Proofs.Number.ReadingBack

/-!
# `Linework.Proofs.Argument.Exported`: values in JSON

A text, a number or a truth value is a JSON value of the same type, and it is read back as it was
(`Json.argument?_toJson`). The one exception is a number that is not finite: JSON has none, and
`null` stands for all of them. A token can spell such a number, so it is a value that an argument
can have.

Numbers are written in digits that read as the double (`Literal.decimal?_magnitude`), and zero keeps
its sign.
-/

set_option autoImplicit false

namespace Linework

open Binary64

/-! ## Types -/

namespace ArgValue

/-- The JSON type of a value. -/
def typeName : ArgValue → String
  | text _ => "string"
  | number _ => "number"
  | truth _ => "boolean"

/-- A value that JSON can hold, which is any but a number that is not finite. -/
def IsFinite : ArgValue → Prop
  | number value => value.isFinite = true
  | _ => True

end ArgValue

/-- The type of a JSON value. -/
def Json.typeName : Json → String
  | null => "null"
  | bool _ => "boolean"
  | number _ => "number"
  | string _ => "string"
  | array _ => "array"
  | object _ => "object"

/-- The value that a scalar of JSON stands for. -/
def Json.argument? : Json → Option ArgValue
  | string literal => (unquote? literal).map .text
  | number literal => (Literal.decimal? literal.toList).map .number
  | bool value => some (.truth value)
  | _ => none

/-! ## Numbers -/

/-- A finite double is written as a decimal literal, and is read back from it. -/
theorem Json.ofFloat_eq_number {x : Float} {negative : Bool} {m s : Nat}
    (finite : parts x = .finite negative m s) :
    ∃ literal, Json.ofFloat x = .number literal ∧ Literal.decimal? literal.toList = some x := by
  rw [ofFloat, finite]
  refine ⟨_, rfl, ?_⟩
  rw [String.toList_ofList]
  rcases Nat.eq_zero_or_pos m with rfl | pos
  · -- Zero is written with its sign, other than in a hint.
    obtain rfl := scale_eq_zero finite
    rw [eq_ofMagnitudeBits finite]
    cases negative <;> rfl
  · have read := (Literal.decimal?_magnitude jsonFormat x.abs negative pos
      (canonical_of_parts finite)).2
    rw [← eq_ofMagnitudeBits finite] at read
    rw [if_neg (Nat.ne_of_gt pos)]
    cases negative <;> exact read

/-! ## Values -/

/-- A value that JSON can hold has the same type there. -/
theorem Json.typeName_toJson {value : ArgValue} (finite : value.IsFinite) :
    value.toJson.typeName = value.typeName := by
  cases value with
  | text value => rfl
  | truth value => rfl
  | number value =>
    obtain ⟨negative, m, s, number⟩ := (isFinite_iff value).mp finite
    obtain ⟨literal, written, -⟩ := ofFloat_eq_number number
    rw [ArgValue.toJson, written]
    rfl

/-- A value that JSON can hold is read back as it was. -/
theorem Json.argument?_toJson {value : ArgValue} (finite : value.IsFinite) :
    value.toJson.argument? = some value := by
  -- Only a number can be one that JSON lacks.
  cases value with
  | text value =>
    show (unquote? (quote value)).map ArgValue.text = _
    rw [unquote?_quote]
    rfl
  | truth value => rfl
  | number value =>
    obtain ⟨negative, m, s, number⟩ := (isFinite_iff value).mp finite
    obtain ⟨literal, written, read⟩ := ofFloat_eq_number number
    rw [ArgValue.toJson, written, argument?, read]
    rfl

end Linework
