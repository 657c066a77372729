import ZMachine.Host.NumberTable

/-!
# Objects

The machine knows nothing of how objects are laid out; what it needs of them is an `ObjectModel`.
A model may keep its objects in story memory or in a state of its own.

* `ObjectModel`  : the operations on objects, for a model with a given state.
* `ObjectForest` : a model that keeps everything in tables outside memory.
-/

namespace ZMachine

/-- The operations on objects, for a model with states of type `ω`. Object 0 is no object. -/
structure ObjectModel (ω : Type) where
  parent : ω → Memory → Word → Except Fault Word
  sibling : ω → Memory → Word → Except Fault Word
  child : ω → Memory → Word → Except Fault Word
  testAttribute : ω → Memory → Word → Word → Except Fault Bool
  setAttribute : Word → Word → Action (ω × Memory) Unit
  clearAttribute : Word → Word → Action (ω × Memory) Unit
  /-- Makes an object the first child of another. -/
  insert : Word → Word → Action (ω × Memory) Unit
  /-- Takes an object away from its parent. -/
  remove : Word → Action (ω × Memory) Unit
  property : ω → Memory → Word → Word → Except Fault Word
  putProperty : Word → Word → Word → Action (ω × Memory) Unit
  /-- The address of a property's data, or 0 if the object lacks it. -/
  propertyAddress : ω → Memory → Word → Word → Except Fault Word
  /-- The property after the given one; 0 stands before the first and after the last. -/
  nextProperty : ω → Memory → Word → Word → Except Fault Word
  /-- The length of the property whose data stand at an address. -/
  propertyLength : ω → Memory → Word → Except Fault Word
  /-- The address of an object's short name. -/
  nameAddress : ω → Memory → Word → Except Fault Nat

/-- Objects in tables outside memory. An object missing from a table of links has the link 0. -/
structure ObjectForest where
  parents : NumberTable Word := {}
  siblings : NumberTable Word := {}
  children : NumberTable Word := {}
  attributes : NumberTable (List Word) := {}
  properties : NumberTable (NumberTable Word) := {}
  names : NumberTable Nat := {}
  deriving DecidableEq, Repr, Inhabited

namespace ObjectForest

/-- The link of an object in a table. -/
def link (table : NumberTable Word) (object : Word) : Word :=
  (table.find? object).getD 0

/-- The first object from `start` along the siblings, within so many steps, whose sibling is the
given one. -/
def predecessor? (siblings : NumberTable Word) (object : Word) : Nat → Word → Option Word
  | 0, _ => none
  | steps + 1, start =>
      if start = 0 then none
      else if link siblings start = object then some start
      else predecessor? siblings object steps (link siblings start)

/-- Takes an object out of the children of its parent. -/
def unlink (forest : ObjectForest) (object : Word) : ObjectForest :=
  let parent := link forest.parents object
  let next := link forest.siblings object
  if parent = 0 then forest
  else if link forest.children parent = object then
    { forest with children := forest.children.insert parent next }
  else
    let steps := forest.siblings.entries.length + 1
    match predecessor? forest.siblings object steps (link forest.children parent) with
    | some before => { forest with siblings := forest.siblings.insert before next }
    | none => forest

/-- Leaves an object without parent and sibling. -/
def remove (forest : ObjectForest) (object : Word) : ObjectForest :=
  let forest := forest.unlink object
  { forest with
    parents := forest.parents.insert object 0
    siblings := forest.siblings.insert object 0 }

/-- Makes an object the first child of another. -/
def insert (forest : ObjectForest) (object dest : Word) : ObjectForest :=
  let forest := forest.remove object
  { forest with
    siblings := forest.siblings.insert object (link forest.children dest)
    children := forest.children.insert dest object
    parents := forest.parents.insert object dest }

/-- The attributes of an object, in the order they were set. -/
def attributesOf (forest : ObjectForest) (object : Word) : List Word :=
  (forest.attributes.find? object).getD []

/-- Adds an attribute. -/
def setAttribute (forest : ObjectForest) (object number : Word) : ObjectForest :=
  { forest with
    attributes := forest.attributes.insert object (forest.attributesOf object ++ [number]) }

/-- Removes an attribute as often as it was set. -/
def clearAttribute (forest : ObjectForest) (object number : Word) : ObjectForest :=
  match forest.attributes.find? object with
  | none => forest
  | some attributes =>
      { forest with
        attributes := forest.attributes.insert object (attributes.filter (· != number)) }

/-- The value of a property the object has. -/
def property? (forest : ObjectForest) (object property : Word) : Option Word :=
  (forest.properties.find? object).bind (·.find? property)

/-- Gives a property the object has a value. -/
def putProperty (forest : ObjectForest) (object property value : Word) :
    Except Fault ObjectForest :=
  match forest.properties.find? object, forest.property? object property with
  | some table, some _ =>
      .ok { forest with
            properties := forest.properties.insert object (table.insert property value) }
  | _, _ => .error (.refused (.noProperty object property))

/-- Where the data of a property are said to stand. -/
def propertyAddress (forest : ObjectForest) (object property : Word) : Word :=
  if (forest.property? object property).isSome then 0x500 + object * 0x10 + property else 0

/-- The greatest property below the given one, or the greatest of all after 0. -/
def nextProperty (forest : ObjectForest) (object property : Word) : Word :=
  match forest.properties.find? object with
  | none => 0
  | some table => (table.greatest? fun n => property == 0 || n < property).getD 0

/-- The address of an object's short name. -/
def nameAddress (forest : ObjectForest) (object : Word) : Except Fault Nat :=
  match forest.names.find? object with
  | some addr => .ok addr
  | none => .error (.refused (.noName object))

/-- A change of the forest that leaves memory alone. -/
def change (f : ObjectForest → ObjectForest) : Action (ObjectForest × Memory) Unit :=
  modify fun s => (f s.1, s.2)

/-- The forest as an object model. -/
def model : ObjectModel ObjectForest where
  parent := fun forest _ object => .ok (link forest.parents object)
  sibling := fun forest _ object => .ok (link forest.siblings object)
  child := fun forest _ object => .ok (link forest.children object)
  testAttribute := fun forest _ object number =>
    .ok ((forest.attributesOf object).contains number)
  setAttribute := fun object number => change (·.setAttribute object number)
  clearAttribute := fun object number => change (·.clearAttribute object number)
  insert := fun object dest => change (·.insert object dest)
  remove := fun object => change (·.remove object)
  property := fun forest _ object property => .ok ((forest.property? object property).getD 0)
  putProperty := fun object property value => do
    let (forest, memory) ← get
    let forest ← forest.putProperty object property value
    set (forest, memory)
  propertyAddress := fun forest _ object property => .ok (forest.propertyAddress object property)
  nextProperty := fun forest _ object property => .ok (forest.nextProperty object property)
  propertyLength := fun _ _ addr => .ok (if addr = 0 then 0 else 2)
  nameAddress := fun forest _ object => forest.nameAddress object

end ObjectForest

end ZMachine
