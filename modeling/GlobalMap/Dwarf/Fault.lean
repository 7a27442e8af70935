import GlobalMap.DebugInfo.Entry
/-!
What may go wrong while an encoding is read, before it is known which entry asked for it.
-/
namespace GlobalMap.Dwarf

/-- Why an encoding cannot be read. -/
inductive Fault where
  /-- A code or form that is used is not declared. -/
  | undeclared (code : String)
  /-- A code that is not declared has too many digits for a text. -/
  | overlong (code : Number.Overlong)
  /-- A rule of the format is broken. -/
  | rejected (what : String)
  /-- The section ends inside a value, or a value of a header is none that the format knows. -/
  | truncated
  /-- A section that is referred to is missing. -/
  | missingSection (name : String)
  | addressSize (size : Nat)
  | siblingForm (form : String)
  deriving DecidableEq, Repr

namespace Fault

/-- The fault that the code or form of a number is not declared. -/
def undeclaredNumber (code : Nat) : Fault :=
  if Number.isOverlong code then overlong {} else undeclared (toString code)

/-- The damage that an entry meets when it asks for what cannot be read. -/
def damage (near : Nat) : Fault → Damage
  | undeclared code => .undeclared near code
  | overlong code => .overlong code
  | rejected what => .malformed what
  | truncated => .malformed "The section ends inside an entry"
  | missingSection name => .missingSection name
  | addressSize size => .addressSize size
  | siblingForm form => .siblingForm form

end Fault

/-- A value that is there, or the fault that the section ends too early. -/
def orTruncated {α : Type} : Option α → Except Fault α
  | some a => .ok a
  | none => .error .truncated

end GlobalMap.Dwarf
