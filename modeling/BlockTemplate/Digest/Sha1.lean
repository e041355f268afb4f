/-!
# SHA-1

The 160-bit digest of a sequence of bytes. The bytes are padded to blocks of 64, each block is
stretched to 80 words, and a state of five words goes through 80 rounds for each block.
-/

namespace BlockTemplate.Sha1

/-- The five words of the state. -/
structure State where
  a : UInt32
  b : UInt32
  c : UInt32
  d : UInt32
  e : UInt32
deriving DecidableEq, Repr

def initial : State := ⟨0x67452301, 0xEFCDAB89, 0x98BADCFE, 0x10325476, 0xC3D2E1F0⟩

def State.add (s t : State) : State := ⟨s.a + t.a, s.b + t.b, s.c + t.c, s.d + t.d, s.e + t.e⟩

def rotateLeft (x n : UInt32) : UInt32 := (x <<< n) ||| (x >>> (32 - n))

/-- A number as `size` bytes, the most significant one first. -/
def bigEndian (size n : Nat) : List UInt8 :=
  (List.range size).reverse.map fun i => UInt8.ofNat (n / Nat.pow 256 i)

/-- The bytes with a one bit, zeros and the number of bits appended, so that they fill blocks. -/
def padded (bytes : List UInt8) : List UInt8 :=
  -- one byte for the bit and eight for the length remain of the last block
  let zeros := (119 - bytes.length % 64) % 64
  bytes ++ 0x80 :: List.replicate zeros 0 ++ bigEndian 8 (8 * bytes.length)

/-- The words of a sequence of bytes. -/
def wordsOf : List UInt8 → List UInt32
  | a :: b :: c :: d :: rest =>
    (a.toUInt32 <<< 24 ||| b.toUInt32 <<< 16 ||| c.toUInt32 <<< 8 ||| d.toUInt32) :: wordsOf rest
  | _ => []

/-- Add `count` words to a schedule, each made of four earlier ones. -/
def stretch (count : Nat) (schedule : Array UInt32) : Array UInt32 :=
  match count with
  | 0 => schedule
  | count + 1 =>
    let word (back : Nat) : UInt32 := schedule.getD (schedule.size - back) 0
    stretch count (schedule.push (rotateLeft (word 3 ^^^ word 8 ^^^ word 14 ^^^ word 16) 1))

/-- The function and the constant of a round. -/
def mix (round : Nat) (s : State) : UInt32 :=
  if round < 20 then ((s.b &&& s.c) ||| (~~~s.b &&& s.d)) + 0x5A827999
  else if round < 40 then (s.b ^^^ s.c ^^^ s.d) + 0x6ED9EBA1
  else if round < 60 then ((s.b &&& s.c) ||| (s.b &&& s.d) ||| (s.c &&& s.d)) + 0x8F1BBCDC
  else (s.b ^^^ s.c ^^^ s.d) + 0xCA62C1D6

/-- The state after the rounds from `round` on. -/
def runRounds (round : Nat) (s : State) : List UInt32 → State
  | [] => s
  | word :: rest =>
    let a := rotateLeft s.a 5 + mix round s + s.e + word
    runRounds (round + 1) ⟨a, s.a, rotateLeft s.b 30, s.c, s.d⟩ rest

/-- The state after a block of sixteen words. -/
def runBlock (s : State) (block : List UInt32) : State :=
  s.add (runRounds 0 s (stretch 64 block.toArray).toList)

/-- The state after `count` blocks. -/
def runBlocks (count : Nat) (s : State) (words : List UInt32) : State :=
  match count with
  | 0 => s
  | count + 1 => runBlocks count (runBlock s (words.take 16)) (words.drop 16)

/-- The final state for a sequence of bytes. -/
def digest (bytes : List UInt8) : State :=
  let words := wordsOf (padded bytes)
  runBlocks (words.length / 16) initial words

/-- A word as eight hexadecimal digits. -/
def hexWord (word : UInt32) : List Char :=
  let digits := Nat.toDigits 16 word.toNat
  List.replicate (8 - digits.length) '0' ++ digits

/-- The digest of a text in hexadecimal. -/
def ofText (s : String) : String :=
  let state := digest s.toUTF8.data.toList
  String.ofList ([state.a, state.b, state.c, state.d, state.e].flatMap hexWord)

end BlockTemplate.Sha1
