import ZMachine.Memory
import ZMachine.Random.ChaCha

/-!
# Random numbers

A story draws numbers from 1 to a bound. The row of numbers is either predictable, given by a seed,
or uniform, given by a seed the host drew from its own entropy.

* `Random.draw`   : the next number up to a bound.
* `Random.reseed` : a new row, predictable unless the seed is 0.
-/

namespace ZMachine

/-- Where the numbers come from. -/
inductive RandomMode where
  | predictable (seed : UInt64)
  | uniform
  deriving DecidableEq, Repr

/-- A source of random numbers. -/
structure Random where
  mode : RandomMode
  stream : ChaCha
  /-- The host's seed for the next uniform row. -/
  entropy : UInt64
  deriving DecidableEq, Repr

namespace Random

/-- A uniform row from the host's entropy. -/
def uniform (entropy : UInt64) : Random :=
  { mode := .uniform, stream := ChaCha.ofSeed entropy, entropy := ChaCha.spreadStep entropy }

/-- The predictable row of a seed. -/
def predictable (seed entropy : UInt64) : Random :=
  { mode := .predictable seed, stream := ChaCha.ofSeed seed, entropy }

/-- A new row: the predictable one of the seed, or a uniform one for 0. -/
def reseed (r : Random) (seed : UInt64) : Random :=
  if seed = 0 then uniform r.entropy else predictable seed r.entropy

/-- How often a word may be turned down in one draw. One in 65536 is, at most. -/
def maxTurnedDown : Nat := 4096

/-- Draws a number from 1 to `bound`. A word of the stream is scaled to the bound; it is turned down
if its fraction lies in the zone that would favour some numbers. -/
def drawWord (bound zone : UInt64) : Nat → ChaCha → Word × ChaCha
  | 0, g => (1, g)
  | tries + 1, g =>
      let (word, g) := g.next
      let scaled := word.toUInt64 * bound
      if scaled &&& 0xffffffff ≤ zone then
        ((scaled >>> 32).toUInt16 + 1, g)
      else
        drawWord bound zone tries g

/-- The next number from 1 to `bound`; for the bound 0 it is 0, and nothing is drawn. -/
def draw (r : Random) (bound : Word) : Word × Random :=
  if bound = 0 then
    (0, r)
  else
    let wide := bound.toUInt64
    let zone := 0xffffffff - ((0x100000000 - wide) % wide)
    let (number, stream) := drawWord wide zone maxTurnedDown r.stream
    (number, { r with stream })

end Random

end ZMachine
