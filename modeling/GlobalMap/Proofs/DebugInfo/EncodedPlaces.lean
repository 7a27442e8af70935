import GlobalMap.DebugInfo.Survey
import GlobalMap.Proofs.Location.Sums

/-! Where variables and members are, as it is written in programs that add numbers up. The offset of
a member may stand as a number or as the program that adds the number to the address of the
structure; a walk over the structure does not tell one from the other. -/
namespace GlobalMap

open Dwarf Location

variable {encoding : Encoding}

namespace Entry

/-- An entry whose place inside its structure is another one. -/
def placedAt (e : Entry) (place : Place) : Entry :=
  { e with memberLocation := .value place }

theorem offsetOf_plus {n : Numeral} (fits : n.value < Nat.pow 2 encoding.bits) :
    offsetOf encoding (.program (byteValues (plusCode [n]))) =
      offsetOf encoding (.constant n.value) := by
  have sum : ((0 + total [n] : Int) % Nat.pow 2 encoding.bits).toNat = n.value := by
    rw [Int.zero_add, ← Int.natCast_mod, Int.toNat_natCast, total, List.map_singleton,
      List.sum_singleton, Nat.mod_eq_of_lt fits]
  simp only [offsetOf, locate_plus, sum]

section SamePlace

variable {place other : Place} (same : offsetOf encoding place = offsetOf encoding other)
include same

theorem asMember_placedAt (e : Entry) :
    (e.placedAt place).asMember encoding = (e.placedAt other).asMember encoding := by
  obtain ⟨tag, offset, name, typeRef, location, memberLocation, declared, specification, children,
    failure⟩ := e
  unfold asMember nameAndType
  cases name with
  | absent | unreadable reason => cases typeRef <;> rfl
  | value name =>
    cases typeRef with
    | absent | unreadable reason => rfl
    | value typeRef =>
      simp only [placedAt]
      change (offsetOf encoding place >>= _) = (offsetOf encoding other >>= _)
      rw [same]

theorem findChild_placedAt (e : Entry) :
    (e.placedAt place).findChild encoding = (e.placedAt other).findChild encoding := by
  have role (there : Place) : (e.placedAt there).role = e.role := rfl
  have leaveOut (there : Place) : (e.placedAt there).leaveOut = e.leaveOut := rfl
  simp only [findChild, role, leaveOut, asMember_placedAt same]

/-- A structure is walked in the same way. -/
theorem structureTrail_placedAt (s e : Entry) (front back : List Entry) :
    ({ s with children := front ++ e.placedAt place :: back } : Entry).structureTrail encoding =
      ({ s with children := front ++ e.placedAt other :: back } : Entry).structureTrail
        encoding := by
  have role (there : Place) : (e.placedAt there).role = e.role := rfl
  have members : membersAmong encoding (front ++ e.placedAt place :: back) =
      membersAmong encoding (front ++ e.placedAt other :: back) := by
    simp only [membersAmong, List.filterMap_append, List.filterMap_cons, role,
      asMember_placedAt same]
  simp only [structureTrail, asStructure, members, List.flatMap_append, List.flatMap_cons,
    findChild_placedAt same]

end SamePlace

end Entry

/-- **Encoded places are sums.** In either byte order and with addresses of either size, the bytes
of an address and of numbers to add to it, each in any of its numerals, are reduced to the sum as an
address of the object file, and the numbers alone to their sum with the word that is given, both cut
down to a word. So a member whose offset is a number below the words of the target is at that offset
just the same if a program adds the number, and a walk over their structure does not tell the two
apart. Every number has a numeral. -/
theorem places_sum (encoding : Encoding) :
    (∀ address < Nat.pow 2 encoding.bits, ∀ ns : List Numeral,
      locate encoding (byteValues (addressCode encoding address ++ plusCode ns)) none =
        .ok ⟨.relocatedAddress, (address + total ns) % Nat.pow 2 encoding.bits⟩) ∧
    (∀ (initial : Int) (ns : List Numeral),
      locate encoding (byteValues (plusCode ns)) (some initial) =
        .ok ⟨.address, ((initial + total ns) % Nat.pow 2 encoding.bits).toNat⟩) ∧
    (∀ n : Numeral, n.value < Nat.pow 2 encoding.bits →
      Entry.offsetOf encoding (.program (byteValues (plusCode [n]))) = .ok n.value ∧
      ∀ (s e : Entry) (front back : List Entry),
        ({ s with children :=
            front ++ e.placedAt (.constant n.value) :: back } : Entry).structureTrail encoding =
          ({ s with children := front ++ e.placedAt (.program (byteValues (plusCode [n]))) ::
            back } : Entry).structureTrail encoding) ∧
    ∀ n, ∃ x : Numeral, x.value = n ∧ x.bytes = ulebBytes n := by
  refine ⟨fun address fits => locate_address_plus fits, locate_plus encoding, ?_,
    Numeral.exists_shortest⟩
  intro n fits
  have same := Entry.offsetOf_plus fits
  exact ⟨same, Entry.structureTrail_placedAt same.symm⟩

/-- Ten in two bytes: added twice to an address, where the sum goes around, and as the offset of a
member on a target that has wide words with the highest byte first. -/
theorem places_sum_ten :
    locate {} (byteValues (addressCode {} 0xfffffff0 ++ plusCode [⟨[10], 0⟩, ⟨[10], 0⟩])) none =
        .ok ⟨.relocatedAddress, 4⟩ ∧
      Entry.offsetOf ⟨.eight, .big, .dwarf64⟩ (.program (byteValues (plusCode [⟨[10], 0⟩]))) =
        .ok 10 := by
  have around := (places_sum {}).1 0xfffffff0 (by decide) [⟨[10], 0⟩, ⟨[10], 0⟩]
  have wide := ((places_sum ⟨.eight, .big, .dwarf64⟩).2.2.1 ⟨[10], 0⟩ (by decide)).1
  exact ⟨around, wide⟩

end GlobalMap
