import GlobalMap.Dwarf.Tree

/-! Reading goes forward in a section. What is read at a place ends at a place of the same section,
and the first entry of a unit stands behind its header. -/
namespace GlobalMap.Dwarf

/-! ## Scanners -/

section Scanners

variable {bytes data rest : Bytes}

theorem block_eq {size : Nat} (read : block size bytes = some (data, rest)) :
    rest = bytes.drop size := by
  unfold block at read
  dsimp only at read
  split at read
  · cases read
  · cases read
    rfl

theorem uleb_eq {n : Nat} (read : uleb bytes = some (n, rest)) :
    rest = bytes.drop (Cursor.lebSize bytes) := by
  induction bytes generalizing n with
  | nil => cases read
  | cons b bytes ih =>
    unfold uleb at read
    split at read
    next last =>
      cases read
      have stops : ¬ (0x80 : UInt8) ≤ b := UInt8.not_le.mpr last
      simp [Cursor.lebSize, stops]
    next more =>
      obtain ⟨⟨high, tail⟩, found, same⟩ := Option.map_eq_some_iff.mp read
      cases same
      have goes : (0x80 : UInt8) ≤ b := UInt8.not_lt.mp more
      rw [ih found]
      simp [Cursor.lebSize, goes]

theorem sleb_eq {n : Int} (read : sleb bytes = some (n, rest)) :
    rest = bytes.drop (Cursor.lebSize bytes) := by
  induction bytes generalizing n with
  | nil => cases read
  | cons b bytes ih =>
    unfold sleb at read
    split at read
    next last =>
      cases read
      have stops : ¬ (0x80 : UInt8) ≤ b :=
        UInt8.not_le.mpr (UInt8.lt_trans last (by decide))
      simp [Cursor.lebSize, stops]
    next =>
      split at read
      next last =>
        cases read
        have stops : ¬ (0x80 : UInt8) ≤ b := UInt8.not_le.mpr last
        simp [Cursor.lebSize, stops]
      next more =>
        obtain ⟨⟨high, tail⟩, found, same⟩ := Option.map_eq_some_iff.mp read
        cases same
        have goes : (0x80 : UInt8) ≤ b := UInt8.not_lt.mp more
        rw [ih found]
        simp [Cursor.lebSize, goes]

theorem terminated_eq (read : terminated bytes = some (data, rest)) :
    rest = bytes.drop (data.length + 1) := by
  induction bytes generalizing data with
  | nil => cases read
  | cons b bytes ih =>
    unfold terminated at read
    split at read
    · cases read
      rfl
    · obtain ⟨⟨front, tail⟩, found, same⟩ := Option.map_eq_some_iff.mp read
      cases same
      exact ih found

end Scanners

/-! ## Cursors -/

namespace Cursor

/-- A cursor is some bytes further on in the same section. -/
def Leads (c next : Cursor) : Prop :=
  ∃ count, next = ⟨c.offset + count, c.rest.drop count⟩

variable {c d e next : Cursor} {width : Nat}

theorem Leads.refl (c : Cursor) : c.Leads c :=
  ⟨0, rfl⟩

theorem Leads.trans (first : c.Leads d) (second : d.Leads e) : c.Leads e := by
  obtain ⟨m, rfl⟩ := first
  obtain ⟨n, rfl⟩ := second
  refine ⟨m + n, ?_⟩
  simp only [List.drop_drop, Nat.add_assoc]

/-- From a place in a section a cursor leads to a place in it. -/
theorem Leads.eq_ofOffset {bytes : Bytes} {offset : Nat} (leads : (ofOffset bytes offset).Leads c) :
    ∃ place, c = ofOffset bytes place := by
  obtain ⟨count, rfl⟩ := leads
  refine ⟨offset + count, ?_⟩
  simp only [ofOffset, List.drop_drop]

theorem leads_block {size : Nat} {data : Bytes} (read : c.block size = some (data, next)) :
    c.Leads next := by
  obtain ⟨⟨_, rest⟩, taken, same⟩ := Option.map_eq_some_iff.mp read
  cases same
  exact ⟨size, by rw [block_eq taken]⟩

theorem leads_word {n : Nat} (read : c.word width = some (n, next)) : c.Leads next := by
  obtain ⟨⟨_, rest⟩, taken, same⟩ := Option.map_eq_some_iff.mp read
  cases same
  obtain ⟨⟨_, rest⟩, digits, same⟩ := Option.map_eq_some_iff.mp taken
  cases same
  exact ⟨width, by rw [block_eq digits]⟩

theorem leads_uleb {n : Nat} (read : c.uleb = some (n, next)) : c.Leads next := by
  obtain ⟨⟨_, rest⟩, taken, same⟩ := Option.map_eq_some_iff.mp read
  cases same
  exact ⟨lebSize c.rest, by rw [uleb_eq taken]⟩

theorem leads_sleb {n : Int} (read : c.sleb = some (n, next)) : c.Leads next := by
  obtain ⟨⟨_, rest⟩, taken, same⟩ := Option.map_eq_some_iff.mp read
  cases same
  exact ⟨lebSize c.rest, by rw [sleb_eq taken]⟩

theorem leads_terminated {data : Bytes} (read : c.terminated = some (data, next)) :
    c.Leads next := by
  obtain ⟨⟨_, rest⟩, taken, same⟩ := Option.map_eq_some_iff.mp read
  cases same
  exact ⟨_, by rw [terminated_eq taken, Nat.add_assoc]⟩

end Cursor

/-! ## Entries -/

section Reading

variable {α β : Type} {c next : Cursor} {u : LoadedUnit}

/-- Where reading comes to a result, its cursor is further on. -/
def Onward (c : Cursor) (result : Except Fault (α × Cursor)) : Prop :=
  ∀ a next, result = .ok (a, next) → c.Leads next

theorem onward_error (fault : Fault) : Onward c (.error fault : Except Fault (α × Cursor)) := by
  intro a next read
  cases read

theorem onward_ok (a : α) (leads : c.Leads next) : Onward c (.ok (a, next)) := by
  intro a' next' read
  cases read
  exact leads

theorem onward_orTruncated {read : Option (α × Cursor)}
    (leads : ∀ a next, read = some (a, next) → c.Leads next) : Onward c (orTruncated read) := by
  cases read with
  | none => exact onward_error _
  | some row => exact onward_ok _ (leads _ _ rfl)

theorem Onward.map {result : Except Fault (α × Cursor)} (onward : Onward c result) (f : α → β) :
    Onward c (result.map fun (a, next) => (f a, next)) := by
  cases result with
  | error fault => exact onward_error _
  | ok row => exact onward_ok _ (onward _ _ rfl)

/-- What is read behind something that is read stands further on than both. -/
theorem Onward.bind {result : Except Fault (α × Cursor)} (onward : Onward c result)
    {f : α × Cursor → Except Fault (β × Cursor)} (rest : ∀ a next, Onward next (f (a, next))) :
    Onward c (result >>= f) := by
  cases result with
  | error fault => exact onward_error _
  | ok row => exact fun b next read => (onward _ _ rfl).trans (rest _ _ b next read)

/-- What is read does not depend on what is looked up elsewhere. -/
theorem onward_bind {result : Except Fault α} {f : α → Except Fault (β × Cursor)}
    (each : ∀ a, Onward c (f a)) : Onward c (result >>= f) := by
  cases result with
  | error fault => exact onward_error _
  | ok a => exact each a

theorem leads_counted {read : Option (Nat × Cursor)} {data : Bytes}
    (first : ∀ n next, read = some (n, next) → c.Leads next)
    (counted : (read.bind fun (size, c) => c.block size) = some (data, next)) : c.Leads next := by
  obtain ⟨⟨size, middle⟩, here, taken⟩ := Option.bind_eq_some_iff.mp counted
  exact (first _ _ here).trans (Cursor.leads_block taken)

theorem onward_numbered {read : Option (Nat × Cursor)}
    (leads : ∀ n next, read = some (n, next) → c.Leads next) :
    Onward c (LoadedUnit.numbered read) :=
  (onward_orTruncated leads).map fun n => Value.number n

theorem onward_blocked {read : Option (Bytes × Cursor)}
    (leads : ∀ data next, read = some (data, next) → c.Leads next) :
    Onward c (LoadedUnit.blocked read) :=
  (onward_orTruncated leads).map Value.bytes

theorem onward_readRaw (u : LoadedUnit) (form : Form) (c : Cursor) :
    Onward c (u.readRaw form c) := by
  unfold LoadedUnit.readRaw
  cases form.layout with
  | address | offset | word | reference => exact onward_numbered fun _ _ => Cursor.leads_word
  | uleb => exact onward_numbered fun _ _ => Cursor.leads_uleb
  | sleb => exact (onward_orTruncated fun _ _ => Cursor.leads_sleb).map Value.number
  | block => exact onward_blocked fun _ _ => leads_counted fun _ _ => Cursor.leads_word
  | ulebBlock => exact onward_blocked fun _ _ => leads_counted fun _ _ => Cursor.leads_uleb
  | bytes => exact onward_blocked fun _ _ => Cursor.leads_block
  | text => exact (onward_orTruncated fun _ _ => Cursor.leads_terminated).map fun data =>
      Value.text (some data)
  | present => exact onward_ok _ (.refl c)
  | constant | indirect | unknown => exact onward_error _

theorem onward_readIndirect (u : LoadedUnit) (c : Cursor) : Onward c (u.readIndirect c) := by
  fun_induction LoadedUnit.readIndirect u c with
  | case1 => exact onward_error _
  | case2 => exact onward_error _
  | case3 c code next read form found indirect ih =>
    exact fun a last result => (Cursor.leads_uleb read).trans (ih a last result)
  | case4 c code next read form found direct =>
    exact fun a last result =>
      (Cursor.leads_uleb read).trans
        ((onward_readRaw u form next).map (fun value => (form, value)) a last result)

theorem onward_readDeclared (u : LoadedUnit) (spec : AttributeSpec) (c : Cursor) :
    Onward c (u.readDeclared spec c) := by
  unfold LoadedUnit.readDeclared
  cases Form.ofCode? spec.form with
  | none => exact onward_error _
  | some form =>
    dsimp only
    split
    · exact onward_ok _ (.refl c)
    · exact onward_readIndirect u c
    · exact (onward_readRaw u form c).map fun value => (form, value)

theorem onward_readFields (u : LoadedUnit) (sections : Sections) (top : Option Fields)
    (fields : Fields) (specs : List AttributeSpec) (c : Cursor) :
    Onward c (u.readFields sections top fields specs c) := by
  induction specs generalizing fields c with
  | nil => exact onward_ok _ (.refl c)
  | cons spec specs ih =>
    exact (onward_readDeclared u spec c).bind fun _ next => onward_bind fun value => ih _ next

theorem exists_of_bind {x : Except Fault α} {f : α → Except Fault β} {b : β}
    (read : (x >>= f) = .ok b) : ∃ a, x = .ok a ∧ f a = .ok b := by
  cases x with
  | error fault => cases read
  | ok a => exact ⟨a, rfl, read⟩

/-- The place behind an entry is further on than the entry. -/
theorem leads_readRecord {sections : Sections} {top : Option Fields} {r : Record}
    (read : u.readRecord sections top c = .ok r) : c.Leads r.next := by
  obtain ⟨⟨code, behind⟩, found, rest⟩ := exists_of_bind read
  have first : c.Leads behind := onward_orTruncated (fun _ _ => Cursor.leads_uleb) _ _ found
  dsimp only at rest
  split at rest
  · cases rest
    exact first
  · obtain ⟨table, _, rest⟩ := exists_of_bind rest
    split at rest
    · cases rest
    · obtain ⟨⟨fields, last⟩, attributes, same⟩ := exists_of_bind rest
      cases same
      exact first.trans (onward_readFields u sections top [] _ behind _ _ attributes)

theorem onward_readLength (c : Cursor) : Onward c (UnitHeader.readLength c) := by
  refine (onward_orTruncated fun _ _ => Cursor.leads_word).bind fun first next => ?_
  dsimp only
  split
  · exact onward_ok _ (.refl next)
  · split
    · exact onward_error _
    · exact (onward_orTruncated fun _ _ => Cursor.leads_word).bind fun length last =>
        onward_ok _ (.refl last)

theorem onward_readLayout (format : Format) (version : Nat) (c : Cursor) :
    Onward c (UnitHeader.readLayout format version c) := by
  have word (width : Nat) (c : Cursor) : Onward c (orTruncated (c.word width)) :=
    onward_orTruncated fun _ _ => Cursor.leads_word
  unfold UnitHeader.readLayout
  split
  · exact (word _ c).bind fun _ c => (word 1 c).bind fun _ c => onward_ok _ (.refl c)
  · refine (word 1 c).bind fun _ c => onward_bind fun extra => ?_
    refine (word 1 c).bind fun _ c => (word _ c).bind fun _ c => ?_
    exact (onward_orTruncated fun _ _ => Cursor.leads_block).bind fun _ c => onward_ok _ (.refl c)

/-- The first entry of a unit stands in the section of the unit. -/
theorem leads_top {entries : Bytes} {offset : Nat} {h : UnitHeader}
    (read : UnitHeader.read entries offset = .ok h) :
    (Cursor.ofOffset entries offset).Leads h.top := by
  obtain ⟨⟨⟨format, length⟩, c⟩, begun, rest⟩ := exists_of_bind read
  obtain ⟨⟨version, d⟩, versioned, rest⟩ := exists_of_bind rest
  obtain ⟨⟨⟨addressBytes, abbreviationOffset⟩, last⟩, laidOut, rest⟩ := exists_of_bind rest
  have leads : (Cursor.ofOffset entries offset).Leads last :=
    (onward_readLength _ _ _ begun).trans <|
      (onward_orTruncated (fun _ _ => Cursor.leads_word) _ _ versioned).trans
        (onward_readLayout format version d _ _ laidOut)
  dsimp only at rest
  split at rest
  · cases rest
  · split at rest
    · cases rest
    · cases rest
      exact leads

end Reading

end GlobalMap.Dwarf
