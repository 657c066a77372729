import ZMachine.Host.ObjectModel
import ZMachine.Host.Tokenizer

/-!
# Hosts

A host supplies what a story needs beside the machine: an object model and a tokenizer, each with a
state of its own. The machine works with any host.
-/

namespace ZMachine

/-- The helpers a machine works with. -/
structure Host where
  Objects : Type
  objectModel : ObjectModel Objects
  Lexer : Type
  tokenizer : Tokenizer Lexer

/-- The host with the helpers of this library. -/
def Host.standard : Host where
  Objects := ObjectForest
  objectModel := ObjectForest.model
  Lexer := WordCounter
  tokenizer := WordCounter.tokenizer

end ZMachine
