import ZMachine.Operation.Printing

/-!
# Objects

Instructions on the object tree, attributes and properties, which the host's object model carries
out. Object 0 is no object: what is asked of it is 0 or false, and changes to it are left out.
-/

namespace ZMachine.Handler

open Session

variable {H : Host}

/-- The answer to a question about an object, or the empty answer for object 0. -/
def askAbout {α : Type} (object : Word) (nothing : α)
    (question : H.Objects → Memory → Except Fault α) : Exec H α :=
  if object = 0 then return nothing else askObjects question

/-- Delivers a relative of an object, and branches if there is one. -/
def relative (relation : H.Objects → Memory → Word → Except Fault Word) (i : Instruction)
    (args : List Word) : Exec H Flow := do
  let object ← argument i args 0
  let related ← askAbout object 0 fun objects memory => relation objects memory object
  onMachine (Machine.storeResult i.store related)
  onMachine (Machine.branch i.branch (related != 0))

/-- The next child of the same parent. -/
def getSibling : Instruction → List Word → Exec H Flow :=
  relative H.objectModel.sibling

/-- The first child. -/
def getChild : Instruction → List Word → Exec H Flow :=
  relative H.objectModel.child

/-- The parent. -/
def getParent : Instruction → List Word → Exec H Flow :=
  relative H.objectModel.parent

/-- Delivers the length of the property whose data stand at an address. -/
def getPropLen (i : Instruction) (args : List Word) : Exec H Flow := do
  let addr ← argument i args 0
  let length ← askObjects fun objects memory => H.objectModel.propertyLength objects memory addr
  onMachine (Machine.deliver i length)

/-- Takes an object away from its parent. -/
def removeObj (i : Instruction) (args : List Word) : Exec H Flow := do
  let object ← argument i args 0
  if object ≠ 0 then
    onObjects (H.objectModel.remove object)
  return .next

/-- Prints the short name of an object. -/
def printObj (i : Instruction) (args : List Word) : Exec H Flow := do
  let object ← argument i args 0
  if object ≠ 0 then
    let addr ← askObjects fun objects memory => H.objectModel.nameAddress objects memory object
    printAt addr
  return .next

/-- Branches if the second object is the parent of the first. -/
def jin (i : Instruction) (args : List Word) : Exec H Flow := do
  let object ← argument i args 0
  let dest ← argument i args 1
  let parent ← askAbout object 0 fun objects memory => H.objectModel.parent objects memory object
  onMachine (Machine.branch i.branch (parent == dest))

/-- Branches if the object has the attribute. -/
def testAttr (i : Instruction) (args : List Word) : Exec H Flow := do
  let object ← argument i args 0
  let number ← argument i args 1
  let isSet ← askAbout object false fun objects memory =>
    H.objectModel.testAttribute objects memory object number
  onMachine (Machine.branch i.branch isSet)

/-- Gives the object the attribute. -/
def setAttr (i : Instruction) (args : List Word) : Exec H Flow := do
  let object ← argument i args 0
  let number ← argument i args 1
  if object ≠ 0 then
    onObjects (H.objectModel.setAttribute object number)
  return .next

/-- Takes the attribute from the object. -/
def clearAttr (i : Instruction) (args : List Word) : Exec H Flow := do
  let object ← argument i args 0
  let number ← argument i args 1
  if object ≠ 0 then
    onObjects (H.objectModel.clearAttribute object number)
  return .next

/-- Makes the first object the first child of the second. -/
def insertObj (i : Instruction) (args : List Word) : Exec H Flow := do
  let object ← argument i args 0
  let dest ← argument i args 1
  if object ≠ 0 ∧ dest ≠ 0 then
    onObjects (H.objectModel.insert object dest)
  return .next

/-- Delivers what the object model says of a property of an object. -/
def propertyOp (question : H.Objects → Memory → Word → Word → Except Fault Word) (i : Instruction)
    (args : List Word) : Exec H Flow := do
  let object ← argument i args 0
  let property ← argument i args 1
  let answer ← askAbout object 0 fun objects memory => question objects memory object property
  onMachine (Machine.deliver i answer)

/-- Delivers the value of a property. -/
def getProp : Instruction → List Word → Exec H Flow :=
  propertyOp H.objectModel.property

/-- Delivers the address of a property's data. -/
def getPropAddr : Instruction → List Word → Exec H Flow :=
  propertyOp H.objectModel.propertyAddress

/-- Delivers the number of the property after the given one. -/
def getNextProp : Instruction → List Word → Exec H Flow :=
  propertyOp H.objectModel.nextProperty

/-- Gives a property a value. -/
def putProp (i : Instruction) (args : List Word) : Exec H Flow := do
  let object ← argument i args 0
  let property ← argument i args 1
  let value ← argument i args 2
  if object ≠ 0 then
    onObjects (H.objectModel.putProperty object property value)
  return .next

end ZMachine.Handler
