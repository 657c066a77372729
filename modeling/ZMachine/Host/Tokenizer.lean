import ZMachine.Header

/-!
# Taking input apart

The words of an input line are looked up and listed in a parse buffer by a `Tokenizer`.

* `Tokenizer`   : the operation, for a tokenizer with a given state.
* `WordCounter` : a tokenizer that only counts the words between spaces.
-/

namespace ZMachine

/-- What a tokenizer is asked for. -/
structure TokenRequest where
  textBuffer : Nat
  parseBuffer : Nat
  /-- The dictionary to use in place of the one the header names. -/
  dictionary : Option Nat
  /-- Whether the entries of unknown words are left as they are. -/
  skipUnknown : Bool
  deriving DecidableEq, Repr

/-- The operation of a tokenizer with states of type `τ`. -/
structure Tokenizer (τ : Type) where
  tokenise : TokenRequest → Action (τ × Memory) Unit

/-- A tokenizer that counts words, or one that has no dictionary to look them up in. -/
inductive WordCounter where
  /-- Counts, and keeps the requests it was given, the last first. -/
  | counting (requests : List TokenRequest)
  /-- Fails every request. -/
  | withoutDictionary
  deriving DecidableEq, Repr

namespace WordCounter

/-- The address of the first zero byte from `addr` on. -/
def zeroFrom (m : Memory) (addr : Nat) : Except Fault Nat :=
  match h : m.readByte addr with
  | .error e => .error e
  | .ok b => if b = 0 then .ok addr else zeroFrom m (addr + 1)
termination_by m.size - addr
decreasing_by
  have := Memory.lt_size_of_readByte h
  omega

/-- Start and length of the text in a buffer: up to version 4 it ends with a zero byte, later it
starts with its length. -/
def textRange (m : Memory) (buffer : Nat) : Except Fault (Nat × Nat) := do
  let version ← m.readByte 0
  if version ≤ 4 then
    return (buffer + 1, (← zeroFrom m (buffer + 1)) - (buffer + 1))
  else
    return (buffer + 2, (← m.readByte (buffer + 1)).toNat)

/-- The number of pieces between spaces that are not empty, given whether the byte before is part of
one. -/
def countWords : Bool → List UInt8 → Nat
  | _, [] => 0
  | inWord, b :: rest =>
      if b = 32 then countWords false rest
      else (if inWord then 0 else 1) + countWords true rest

/-- Counts the words of the text buffer into byte 1 of the parse buffer. -/
def count (m : Memory) (request : TokenRequest) : Except Fault Memory := do
  let (start, length) ← textRange m request.textBuffer
  let text ← m.slice start length
  m.writeByte (request.parseBuffer + 1) (UInt8.ofNat (countWords false text))

/-- The word counter as a tokenizer. -/
def tokenizer : Tokenizer WordCounter where
  tokenise := fun request => do
    match ← get with
    | (.withoutDictionary, _) => throw (.refused .noDictionary)
    | (.counting requests, memory) =>
        set (WordCounter.counting (request :: requests), memory)
        let memory ← count memory request
        set (WordCounter.counting (request :: requests), memory)

end WordCounter

end ZMachine
