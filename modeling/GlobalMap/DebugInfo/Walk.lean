import GlobalMap.DebugInfo.Entry
import GlobalMap.DebugInfo.Omission
import GlobalMap.TypeGraph.Basic
/-!
What a walk over an entry tree finds.

An entry with a role is recorded or left out and nothing below it is walked, the members of a
structure apart; all other entries are walked through. Each finding depends on its own entry alone,
so one that cannot be used costs nothing but itself. Only damage in the encoding ends a walk early;
what was found before it is kept (`Trail`). Where the entries lead around in circles a walk does not
end.
-/
namespace GlobalMap

/-- A step of a walk. -/
inductive Finding where
  /-- An entry was visited. -/
  | visited
  | baseType (offset : Int) (name : String)
  | typeDefinition (offset : Int) (definition : TypeDefinition)
  | qualifier (offset : Int) (target : Int)
  | aggregate (s : Structure)
  | global (v : Variable)
  | omitted (o : Omission)

namespace Finding

/-- Whether a finding is the visit of an entry. -/
def isVisit : Finding → Bool
  | visited => true
  | _ => false

def baseType? : Finding → Option (Int × String)
  | baseType offset name => some (offset, name)
  | _ => none

def typeDefinition? : Finding → Option (Int × TypeDefinition)
  | typeDefinition offset t => some (offset, t)
  | _ => none

def qualifier? : Finding → Option (Int × Int)
  | qualifier offset target => some (offset, target)
  | _ => none

def structure? : Finding → Option (Int × Structure)
  | aggregate s => some (s.identity, s)
  | _ => none

def global? : Finding → Option Variable
  | global v => some v
  | _ => none

def omission? : Finding → Option Omission
  | omitted o => some o
  | _ => none

end Finding

/-- What a walk found, and what kept it from getting to its end if anything did. -/
structure Trail where
  findings : List Finding := []
  failure : Option Hindrance := none

namespace Trail

/-- A walk that goes on with another one if it has got to its end. -/
def andThen (first second : Trail) : Trail :=
  match first.failure with
  | some _ => first
  | none => ⟨first.findings ++ second.findings, second.failure⟩

/-- A walk that goes on with further findings if it has got to its end. -/
def andFind (trail : Trail) (findings : List Finding) : Trail :=
  trail.andThen ⟨findings, none⟩

end Trail

namespace Entry

/-- The finding that an entry is left out. -/
def leaveOut (e : Entry) (kind : String) (reason : OmissionReason) : Finding :=
  .omitted ⟨kind, e.offset, reason⟩

/-- A base type needs a name. -/
def findBaseType (e : Entry) : Finding :=
  match e.name.read with
  | .error reason => e.leaveOut "base type" (.unreadable reason)
  | .ok none => e.leaveOut "base type" .noName
  | .ok (some name) => .baseType e.offset name

/-- The name and type of an entry; the reason if one of them cannot be read. -/
def nameAndType (e : Entry) : Except String (Option String × Option Int) := do
  let name ← e.name.read
  let typeRef ← e.typeRef.read
  return (name, typeRef)

/-- A typedef needs a name and a type. -/
def findTypeDefinition (e : Entry) : Finding :=
  match e.nameAndType with
  | .error reason => e.leaveOut "typedef" (.unreadable reason)
  | .ok (some name, some target) => .typeDefinition e.offset ⟨name, target⟩
  | .ok _ => e.leaveOut "typedef" .incompleteDefinition

/-- A qualifier without a type qualifies `void` and is nothing to record. -/
def findQualifier (e : Entry) : List Finding :=
  match e.typeRef.read with
  | .error reason => [e.leaveOut "qualifier" (.unreadable reason)]
  | .ok none => []
  | .ok (some target) => [.qualifier e.offset target]

/-- The offset of a member inside its structure: a number, or the plain address that its program
computes from a structure at zero. -/
def offsetOf (encoding : Dwarf.Encoding) : Place → Except OmissionReason Int
  | .constant n => .ok n
  | .program bytes =>
    match Location.locate encoding bytes (some 0) with
    | .error fault => .error (.unlocatable fault)
    | .ok ⟨.address, value⟩ => .ok value
    | .ok ⟨kind, _⟩ => .error (.misplaced kind)

/-- A member needs a name, a type and an offset. -/
def asMember (encoding : Dwarf.Encoding) (e : Entry) : Except OmissionReason Member := do
  let (name, typeRef) ← e.nameAndType.mapError .unreadable
  let place ← e.memberLocation.read.mapError .unreadable
  match name, typeRef, place with
  | some name, some typeRef, some place =>
    return { name, typeRef, offset := ← offsetOf encoding place }
  | _, _, _ => throw .incompleteMember

/-- The members among the children of a structure. -/
def membersAmong (encoding : Dwarf.Encoding) (children : List Entry) : List Member :=
  children.filterMap fun child =>
    if child.role = .member then (child.asMember encoding).toOption else none

/-- What visiting a child of a structure finds. -/
def findChild (encoding : Dwarf.Encoding) (child : Entry) : List Finding :=
  if child.role = .member then
    match child.asMember encoding with
    | .ok _ => [.visited]
    | .error reason => [.visited, child.leaveOut "member" reason]
  else [.visited]

/-- A structure needs nothing; a name that cannot be read is none. -/
def asStructure (encoding : Dwarf.Encoding) (e : Entry) : Structure where
  name := e.name.read.toOption.join
  identity := e.offset
  members := membersAmong encoding e.children

/-- A structure is recorded once all its children have been visited. -/
def structureTrail (encoding : Dwarf.Encoding) (e : Entry) : Trail :=
  Trail.andFind ⟨e.children.flatMap (findChild encoding), e.failure⟩
    [.aggregate (e.asStructure encoding)]

/-- Variables deeper than this are local to a function. -/
def maxGlobalLevel : Int := 1

/-- Why a variable is not recorded. -/
inductive Obstacle where
  | unusable (reason : OmissionReason)
  | damaged (damage : Damage)

/-- The name and type of a variable. One that is missing is taken from the declaration that the
variable completes. -/
def identityOf (e : Entry) : Except Obstacle (Option String × Option Int) := do
  let unusable := fun reason => Obstacle.unusable (.unreadable reason)
  let (name, typeRef) ← e.nameAndType.mapError unusable
  if name.isSome && typeRef.isSome then return (name, typeRef)
  match ← e.specification.read.mapError unusable with
  | none => return (name, typeRef)
  | some (.error damage) => throw (.damaged damage)
  | some (.ok declaration) =>
    let name ← match name with
      | some name => pure (some name)
      | none => declaration.name.read.mapError unusable
    let typeRef ← match typeRef with
      | some typeRef => pure (some typeRef)
      | none => declaration.typeRef.read.mapError unusable
    return (name, typeRef)

/-- The address of a variable: the one of the object file that its program computes. -/
def addressOf (encoding : Dwarf.Encoding) : Place → Except OmissionReason Int
  | .constant _ => .error .locationList
  | .program bytes =>
    match Location.locate encoding bytes none with
    | .error fault => .error (.unlocatable fault)
    | .ok ⟨.relocatedAddress, value⟩ => .ok value
    | .ok ⟨kind, _⟩ => .error (.misplaced kind)

/-- A variable needs a name, a type and an address. One that has no location and is only declared is
defined elsewhere and is nothing to record. -/
def asVariable (encoding : Dwarf.Encoding) (e : Entry) : Except Obstacle (Option Variable) := do
  let place ← e.location.read.mapError fun reason => .unusable (.unreadable reason)
  if place.isNone && e.declared then return none
  match ← e.identityOf, place with
  | (some name, some typeRef), some place =>
    let address ← (addressOf encoding place).mapError .unusable
    return some { name, address, typeRef }
  | _, _ => throw (.unusable .incompleteVariable)

def variableTrail (encoding : Dwarf.Encoding) (level : Int) (e : Entry) : Trail :=
  if maxGlobalLevel < level then {}
  else
    match e.asVariable encoding with
    | .ok none => {}
    | .ok (some v) => ⟨[.global v], none⟩
    | .error (.unusable reason) => ⟨[e.leaveOut "variable" reason], none⟩
    | .error (.damaged damage) => ⟨[], some (.damaged damage)⟩

/-- What an entry whose children are not walked through finds, its visit apart; `none` for an entry
without a role of its own. -/
def ownTrail? (encoding : Dwarf.Encoding) (level : Int) (e : Entry) : Option Trail :=
  match e.role with
  | .baseType => some ⟨[e.findBaseType], none⟩
  | .typeDefinition => some ⟨[e.findTypeDefinition], none⟩
  | .qualifier => some ⟨e.findQualifier, none⟩
  | .aggregate => some (e.structureTrail encoding)
  | .variable => some (e.variableTrail encoding level)
  | .member | .other => none

mutual

/-- The walk over an entry at a level below the top of its unit. -/
def trail (encoding : Dwarf.Encoding) (level : Int) : Entry → Trail
  | ⟨tag, offset, name, typeRef, location, memberLocation, declared, specification, children,
      failure⟩ =>
    let e : Entry := ⟨tag, offset, name, typeRef, location, memberLocation, declared,
      specification, children, failure⟩
    Trail.andThen ⟨[.visited], none⟩ <|
      match e.ownTrail? encoding level with
      | some own => own
      | none => (trailOfChildren encoding (level + 1) children).andThen ⟨[], failure⟩

/-- The walk over entries that stand side by side. -/
def trailOfChildren (encoding : Dwarf.Encoding) (level : Int) : List Entry → Trail
  | [] => {}
  | child :: rest =>
    (trail encoding level child).andThen (trailOfChildren encoding level rest)

end

end Entry

/-- The walk over a unit. -/
def DebugUnit.trail (u : DebugUnit) : Trail :=
  match u.top with
  | .ok entry => entry.trail u.encoding 0
  | .error damage => ⟨[], some (.damaged damage)⟩

end GlobalMap
