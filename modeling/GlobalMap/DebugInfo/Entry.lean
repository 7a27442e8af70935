import GlobalMap.Dwarf.Scan
import GlobalMap.Number.Decimal
import GlobalMap.Text.Hex
/-!
The entry trees of debug information, once their encoding has been taken away.

An entry has a tag, an offset that others refer to it by, a few attributes and children. An
attribute may be there in a form that cannot be used (`Attribute.unreadable`). Where the encoding is
damaged the list of children ends early; where it leads around in circles there is no end of them.
The entry says so (`Entry.failure`).
-/
namespace GlobalMap

/-- Damage in the encoding of debug information. -/
inductive Damage where
  /-- An entry uses an abbreviation, or an attribute a form, that is not declared. -/
  | undeclared (near : Nat) (code : String)
  /-- A code without a name has too many digits for a text. -/
  | overlong (code : Number.Overlong)
  /-- The bytes do not follow the encoding. -/
  | malformed (what : String)
  /-- An attribute refers to a section that the file does not have. -/
  | missingSection (name : String)
  /-- A unit has addresses of a size that is not supported. -/
  | addressSize (size : Nat)
  /-- An entry says where the next one is in a form that is not supported. -/
  | siblingForm (form : String)
  deriving DecidableEq, Repr

namespace Damage

def message : Damage → String
  | undeclared near code =>
    s!"Entry near {Text.hex near} uses an undeclared abbreviation: {code}"
  | overlong code => code.message
  | malformed what => what
  | missingSection _ => "'NoneType' object has no attribute 'stream'"
  | addressSize size => toString size
  | siblingForm form => s!"sibling in form {form}"

end Damage

/-- What keeps the entries of debug information from being gone through to the end. -/
inductive Hindrance where
  | damaged (damage : Damage)
  /-- One entry leads to the next for ever. -/
  | endless
  deriving DecidableEq, Repr

/-- An attribute of an entry. -/
inductive Attribute (α : Type) where
  | absent
  | value (a : α)
  /-- The attribute is there, in a form that cannot be used. -/
  | unreadable (reason : String)
  deriving DecidableEq, Repr

namespace Attribute

/-- The value of an attribute if it has one; the reason if it cannot be read. -/
def read {α : Type} : Attribute α → Except String (Option α)
  | absent => .ok none
  | value a => .ok (some a)
  | unreadable reason => .error reason

end Attribute

/-- What a location attribute says: a number, or the bytes of a location program. -/
inductive Place where
  | constant (n : Int)
  | program (bytes : List Int)
  deriving DecidableEq, Repr

/-- The entry that declares what another entry defines. -/
structure Declaration where
  offset : Int
  name : Attribute String := .absent
  typeRef : Attribute Int := .absent
  deriving DecidableEq, Repr

/-- An entry of a tree. -/
structure Entry where
  tag : String
  offset : Int
  name : Attribute String := .absent
  /-- The offset of the entry's type. -/
  typeRef : Attribute Int := .absent
  location : Attribute Place := .absent
  memberLocation : Attribute Place := .absent
  /-- Whether the entry declares something that is defined elsewhere. -/
  declared : Bool := false
  /-- The declaration that the entry completes. Following the reference may meet damage. -/
  specification : Attribute (Except Damage Declaration) := .absent
  children : List Entry := []
  /-- Why the children are not all, if there were to be more. Of children without end only some are
  held. -/
  failure : Option Hindrance := none

instance : Inhabited Entry := ⟨{ tag := "", offset := 0 }⟩

/-- A unit: an entry tree, and the encoding of the location programs in it. -/
structure DebugUnit where
  offset : Int := 0
  length : Int := 0
  version : Nat := 4
  encoding : Dwarf.Encoding := {}
  top : Except Damage Entry

/-- The units of a file, and why there are no more of them if there were to be. -/
structure DebugInfo where
  units : List DebugUnit
  failure : Option Damage := none

/-- What the entries of a tag are to the type graph. -/
inductive Role where
  | baseType
  | typeDefinition
  /-- A structure or a union. -/
  | aggregate
  | qualifier
  | variable
  | member
  /-- Nothing in itself. -/
  | other
  deriving DecidableEq, Repr

namespace Role

/-- The role of a tag. -/
def ofTag (tag : String) : Role :=
  match tag with
  | "DW_TAG_base_type" => .baseType
  | "DW_TAG_typedef" => .typeDefinition
  | "DW_TAG_structure_type" => .aggregate
  | "DW_TAG_union_type" => .aggregate
  | "DW_TAG_const_type" => .qualifier
  | "DW_TAG_volatile_type" => .qualifier
  | "DW_TAG_variable" => .variable
  | "DW_TAG_member" => .member
  | _ => .other

end Role

/-- The role of an entry. -/
def Entry.role (e : Entry) : Role :=
  .ofTag e.tag

end GlobalMap
