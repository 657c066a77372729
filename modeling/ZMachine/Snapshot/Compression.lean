import ZMachine.Memory

/-!
# Compressed memory

Memory is kept as its difference from the story as loaded. A changed byte is stored as the exclusive
or of its old and new value, which is never 0; a run of 1 to 256 unchanged bytes is stored as 0 and
one less than its length. What is unchanged up to the end of memory may be left out.

* `Compression.encode`     : the stored form of a row of differences.
* `Compression.compress`   : the stored form of a memory.
* `Compression.decompress` : the memory of a stored form.
-/

namespace ZMachine.Compression

/-- The stored form of a run of unchanged bytes, of at most 256. -/
def encodeRun (length : Nat) : List UInt8 :=
  if length = 0 then [] else [0, UInt8.ofNat (length - 1)]

/-- The stored form of a row of differences, behind `run` unchanged bytes not yet stored. -/
def encode : Nat → List UInt8 → List UInt8
  | run, [] => encodeRun run
  | run, d :: rest =>
      if d = 0 then
        if run = 255 then encodeRun 256 ++ encode 0 rest else encode (run + 1) rest
      else
        encodeRun run ++ d :: encode 0 rest

/-- The stored form of a memory, against the story it has the size of. -/
def compress (current story : List UInt8) : Except Fault (List UInt8) :=
  if current.length = story.length then
    .ok (encode 0 (List.zipWith (· ^^^ ·) current story))
  else
    .error (.refused (.sizesDiffer current.length story.length))

/-- The memory of a stored form, against what is left of the story. -/
def decompress : List UInt8 → List UInt8 → Except Fault (List UInt8)
  | [], story => .ok story
  | d :: rest, story =>
      if d = 0 then
        match rest with
        | [] => .error (.refused .incompleteRun)
        | run :: rest =>
            let length := run.toNat + 1
            if length ≤ story.length then do
              return story.take length ++ (← decompress rest (story.drop length))
            else
              .error (.refused .runBeyondMemory)
      else
        match story with
        | [] => .error (.refused .dataBeyondMemory)
        | b :: story => do
            return (b ^^^ d) :: (← decompress rest story)

end ZMachine.Compression
