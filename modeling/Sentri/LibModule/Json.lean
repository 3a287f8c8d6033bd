import Sentri.Text.Basic

/-!
# JSON values

Parsed JSON documents and the typed access to them.  Access to a missing value,
or to a value of another type, violates an assertion, which throws the integer
one.
-/

namespace Sentri.LibModule.Json

open Sentri.Text

universe u v

/-- The number of a value is a `long double`. -/
inductive Value where
  | number (value : Rat)
  | string (value : Str)
  | boolean (value : Bool)
  | null
  | array (values : List Value)
  | object (entries : List (Str × Value))
  | invalid

/-- The entries of an object, with different keys. -/
abbrev Object := List (Str × Value)

namespace Value

def number? : Value → Option Rat
  | number value => some value
  | _ => none

def string? : Value → Option Str
  | string value => some value
  | _ => none

def boolean? : Value → Option Bool
  | boolean value => some value
  | _ => none

def array? : Value → Option (List Value)
  | array values => some values
  | _ => none

def object? : Value → Option Object
  | object entries => some entries
  | _ => none

end Value

namespace Object

variable {α : Type u}

/-- The value of a key, when it has the type that `as` reads. -/
def find (as : Value → Option α) (object : Object) (key : Str) : Option α :=
  (object.lookup key).bind as

/-- Access to a key that has to be there. -/
def get (as : Value → Option α) (object : Object) (key : Str) : Except Int α :=
  match find as object key with
  | some value => .ok value
  | none => .error 1

/-- Access to a key with a default value. -/
def getD (as : Value → Option α) (object : Object) (key : Str) (default : α) : α :=
  (find as object key).getD default

end Object

/-- A sequence of two computations succeeds when both do. -/
theorem bind_eq_ok {α : Type u} {β : Type u} {ε : Type v} {first : Except ε α}
    {next : α → Except ε β} {value : β} :
    (first >>= next) = .ok value ↔ ∃ middle, first = .ok middle ∧ next middle = .ok value := by
  cases first with
  | error thrown =>
      constructor
      · intro impossible
        cases impossible
      · rintro ⟨_, impossible, _⟩
        cases impossible
  | ok middle =>
      constructor
      · intro result
        exact ⟨middle, rfl, result⟩
      · rintro ⟨_, equal, result⟩
        cases equal
        exact result

end Sentri.LibModule.Json
