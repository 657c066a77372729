import ZMachine.Memory

/-!
# Tables by number

A finite table of values by 16-bit numbers, kept in ascending order of the numbers.

* `NumberTable.find?`   : the value of a number.
* `NumberTable.insert`  : gives a number a value, in place of an earlier one.
* `NumberTable.greatest?` : the greatest number with a property.
-/

namespace ZMachine

/-- A table of values by number, in ascending order. -/
structure NumberTable (α : Type) where
  entries : List (Word × α) := []
  deriving DecidableEq, Repr, Inhabited

namespace NumberTable

variable {α : Type}

/-- The value of a number. -/
def find? (table : NumberTable α) (number : Word) : Option α :=
  table.entries.lookup number

/-- Gives a number a value in a list of entries. -/
def insertEntry (number : Word) (value : α) : List (Word × α) → List (Word × α)
  | [] => [(number, value)]
  | entry :: rest =>
      if number < entry.1 then (number, value) :: entry :: rest
      else if number = entry.1 then (number, value) :: rest
      else entry :: insertEntry number value rest

/-- Gives a number a value. -/
def insert (table : NumberTable α) (number : Word) (value : α) : NumberTable α :=
  ⟨insertEntry number value table.entries⟩

/-- The table of a list of entries; a later entry counts. -/
def ofList (entries : List (Word × α)) : NumberTable α :=
  entries.foldl (fun table entry => table.insert entry.1 entry.2) {}

/-- The greatest number with a property. -/
def greatest? (table : NumberTable α) (wanted : Word → Bool) : Option Word :=
  ((table.entries.map (·.1)).filter wanted).getLast?

end NumberTable

end ZMachine
