/-!
# The ChaCha stream

A row of pseudo-random 32-bit words from a key of eight words: the blocks of the ChaCha cipher with
twelve rounds, counted from 0, over an all-zero message.

* `ChaCha.keyOfSeed` : spreads a 64-bit seed over a key.
* `ChaCha.block`     : the sixteen words of one block.
* `ChaCha`           : a place in the stream; `ChaCha.next` takes the next word.
-/

namespace ZMachine

/-! ## 1. Blocks -/

namespace ChaCha

/-- Rotation of a word to the left. -/
def rotateLeft (x : UInt32) (n : UInt32) : UInt32 :=
  (x <<< n) ||| (x >>> (32 - n))

/-- The word of a state at an index. -/
def wordAt (state : Array UInt32) (i : Nat) : UInt32 :=
  state.getD i 0

/-- One half of a quarter round: adds `b` to `a`, then mixes `a` into `d` by a rotation. -/
def mix (a b d : Nat) (n : UInt32) (state : Array UInt32) : Array UInt32 :=
  let sum := wordAt state a + wordAt state b
  (state.setIfInBounds a sum).setIfInBounds d (rotateLeft (wordAt state d ^^^ sum) n)

/-- The quarter round on four words of the state. -/
def quarterRound (state : Array UInt32) (q : Nat × Nat × Nat × Nat) : Array UInt32 :=
  let (a, b, c, d) := q
  mix c d b 7 (mix a b d 8 (mix c d b 12 (mix a b d 16 state)))

/-- The quarter rounds of a double round: the columns, then the diagonals. -/
def doubleRoundSteps : List (Nat × Nat × Nat × Nat) :=
  [(0, 4, 8, 12), (1, 5, 9, 13), (2, 6, 10, 14), (3, 7, 11, 15),
    (0, 5, 10, 15), (1, 6, 11, 12), (2, 7, 8, 13), (3, 4, 9, 14)]

/-- Repeats a change of the state. -/
def repeated (change : Array UInt32 → Array UInt32) : Nat → Array UInt32 → Array UInt32
  | 0, state => state
  | n + 1, state => repeated change n (change state)

/-- The words every state starts with. -/
def constants : List UInt32 :=
  [0x61707865, 0x3320646e, 0x79622d32, 0x6b206574]

/-- The state a block starts from: constants, key, block number, and two zero words. -/
def initialState (key : List UInt32) (number : UInt64) : Array UInt32 :=
  (constants ++ key ++ [number.toUInt32, (number >>> 32).toUInt32, 0, 0]).toArray

/-- The sixteen words of a block. -/
def block (key : List UInt32) (number : UInt64) : List UInt32 :=
  let start := initialState key number
  let mixed := repeated (fun state => doubleRoundSteps.foldl quarterRound state) 6 start
  List.zipWith (· + ·) mixed.toList start.toList

/-! ## 2. Keys from seeds -/

/-- The next state of the generator that spreads a seed. -/
def spreadStep (s : UInt64) : UInt64 :=
  s * 6364136223846793005 + 11634580027462260723

/-- The key word of a state of that generator. -/
def spreadWord (s : UInt64) : UInt32 :=
  let x := (((s >>> 18) ^^^ s) >>> 27).toUInt32
  let n := (s >>> 59).toUInt32
  (x >>> n) ||| (x <<< ((32 - n) &&& 31))

/-- The given number of key words from a state of that generator. -/
def spread : Nat → UInt64 → List UInt32
  | 0, _ => []
  | n + 1, s => spreadWord (spreadStep s) :: spread n (spreadStep s)

/-- The key of a seed. -/
def keyOfSeed (seed : UInt64) : List UInt32 :=
  spread 8 seed

end ChaCha

/-! ## 3. The stream -/

/-- A place in the stream of a key: the words of the current block not yet taken, and the number of
the next block. -/
structure ChaCha where
  key : List UInt32
  unread : List UInt32
  nextBlock : UInt64
  deriving DecidableEq, Repr

namespace ChaCha

/-- The start of the stream of a seed. -/
def ofSeed (seed : UInt64) : ChaCha :=
  { key := keyOfSeed seed, unread := [], nextBlock := 0 }

/-- Takes the next word of the stream. -/
def next (g : ChaCha) : UInt32 × ChaCha :=
  match g.unread with
  | word :: rest => (word, { g with unread := rest })
  | [] =>
      match block g.key g.nextBlock with
      | word :: rest => (word, { g with unread := rest, nextBlock := g.nextBlock + 1 })
      | [] => (0, g)

end ChaCha

end ZMachine
