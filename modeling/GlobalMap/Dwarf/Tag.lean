import GlobalMap.Number.Decimal
/-!
The names of entry tags.
-/
namespace GlobalMap.Dwarf

/-- The tags of the standard and of common extensions, without the prefix of their names. -/
def tagTable : List (Nat × String) := [
  (0x00, "null"), (0x01, "array_type"), (0x02, "class_type"), (0x03, "entry_point"),
  (0x04, "enumeration_type"), (0x05, "formal_parameter"), (0x06, "global_subroutine"),
  (0x07, "global_variable"), (0x08, "imported_declaration"), (0x0a, "label"),
  (0x0b, "lexical_block"), (0x0c, "local_variable"), (0x0d, "member"), (0x0f, "pointer_type"),
  (0x10, "reference_type"), (0x11, "compile_unit"), (0x12, "string_type"),
  (0x13, "structure_type"), (0x14, "subroutine"), (0x15, "subroutine_type"), (0x16, "typedef"),
  (0x17, "union_type"), (0x18, "unspecified_parameters"), (0x19, "variant"),
  (0x1a, "common_block"), (0x1b, "common_inclusion"), (0x1c, "inheritance"),
  (0x1d, "inlined_subroutine"), (0x1e, "module"), (0x1f, "ptr_to_member_type"),
  (0x20, "set_type"), (0x21, "subrange_type"), (0x22, "with_stmt"), (0x23, "access_declaration"),
  (0x24, "base_type"), (0x25, "catch_block"), (0x26, "const_type"), (0x27, "constant"),
  (0x28, "enumerator"), (0x29, "file_type"), (0x2a, "friend"), (0x2b, "namelist"),
  (0x2c, "namelist_items"), (0x2d, "packed_type"), (0x2e, "subprogram"),
  (0x2f, "template_type_param"), (0x30, "template_value_param"), (0x31, "thrown_type"),
  (0x32, "try_block"), (0x33, "variant_part"), (0x34, "variable"), (0x35, "volatile_type"),
  (0x36, "dwarf_procedure"), (0x37, "restrict_type"), (0x38, "interface_type"),
  (0x39, "namespace"), (0x3a, "imported_module"), (0x3b, "unspecified_type"),
  (0x3c, "partial_unit"), (0x3d, "imported_unit"), (0x3e, "mutable_type"), (0x3f, "condition"),
  (0x40, "shared_type"), (0x41, "type_unit"), (0x42, "rvalue_reference_type"),
  (0x43, "template_alias"), (0x44, "coarray_type"), (0x45, "generic_subrange"),
  (0x46, "dynamic_type"), (0x47, "atomic_type"), (0x48, "call_site"),
  (0x49, "call_site_parameter"), (0x4a, "skeleton_unit"), (0x4b, "immutable_type"),
  (0x4080, "lo_user"), (0x4106, "GNU_template_template_param"),
  (0x4107, "GNU_template_parameter_pack"), (0x4108, "GNU_formal_parameter_pack"),
  (0x4109, "GNU_call_site"), (0x410a, "GNU_call_site_parameter"), (0x4200, "APPLE_property"),
  (0xffff, "hi_user")]

/-- The name of a tag; that of one that is not in the table is its number, unless this has too many
digits. -/
def tagName (tag : Nat) : Except Number.Overlong String :=
  match tagTable.lookup tag with
  | some name => .ok ("DW_TAG_" ++ name)
  | none => if Number.isOverlong tag then .error {} else .ok (toString tag)

end GlobalMap.Dwarf
