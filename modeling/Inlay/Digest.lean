/-
This file computes the BLAKE3 digest of a sequence of bytes and writes it in hexadecimal.

The input is cut into chunks of 1024 bytes and each chunk into blocks of 64. A chunk folds its
blocks into eight chaining words by the compression function. The chunks are the leaves of a binary
tree in which every left subtree is complete; such a tree comes from joining neighbours level by
level, where a last node without a neighbour moves up as it is. The compression that is the root
carries a flag of its own, so a node keeps its last compression undone until its place is known.
-/

namespace Inlay.Digest

/-- So many words of 32 bits. -/
abbrev Words (count : Nat) := Vector UInt32 count

/-- The words that a computation starts from. -/
def initial : Words 8 :=
  #v[0x6a09e667, 0xbb67ae85, 0x3c6ef372, 0xa54ff53a, 0x510e527f, 0x9b05688c, 0x1f83d9ab, 0x5be0cd19]

/-! ### The compression function -/

/-- The word turned to the right by so many bits. -/
def rotateRight (word count : UInt32) : UInt32 := (word >>> count) ||| (word <<< (32 - count))

/-- Mixes two message words into four words of the state. -/
def mix (state : Words 16) (a b c d : Fin 16) (first second : UInt32) : Words 16 :=
  let wordA := state[a] + state[b] + first
  let wordD := rotateRight (state[d] ^^^ wordA) 16
  let wordC := state[c] + wordD
  let wordB := rotateRight (state[b] ^^^ wordC) 12
  let wordA := wordA + wordB + second
  let wordD := rotateRight (wordD ^^^ wordA) 8
  let wordC := wordC + wordD
  let wordB := rotateRight (wordB ^^^ wordC) 7
  (((state.set a wordA).set b wordB).set c wordC).set d wordD

/-- One round: the four columns of the state, then its four diagonals. -/
def round (message : Words 16) (state : Words 16) : Words 16 :=
  let state := mix state 0 4 8 12 message[0] message[1]
  let state := mix state 1 5 9 13 message[2] message[3]
  let state := mix state 2 6 10 14 message[4] message[5]
  let state := mix state 3 7 11 15 message[6] message[7]
  let state := mix state 0 5 10 15 message[8] message[9]
  let state := mix state 1 6 11 12 message[10] message[11]
  let state := mix state 2 7 8 13 message[12] message[13]
  mix state 3 4 9 14 message[14] message[15]

/-- The order in which the next round takes the words of the message. -/
def schedule : Vector (Fin 16) 16 := #v[2, 6, 3, 10, 7, 0, 4, 13, 1, 11, 12, 5, 9, 14, 15, 8]

/-- The message as the next round takes it. -/
def reordered (message : Words 16) : Words 16 := schedule.map fun index => message[index]

/-- So many rounds, with the message reordered between them. -/
def rounds : Nat → Words 16 → Words 16 → Words 16
  | 0, _, state => state
  | count + 1, message, state => rounds count (reordered message) (round message state)

/-- The flag of the first block of a chunk. -/
def chunkStart : UInt32 := 1

/-- The flag of the last block of a chunk. -/
def chunkEnd : UInt32 := 2

/-- The flag of a node above two others. -/
def parent : UInt32 := 4

/-- The flag of the node at the top of the tree. -/
def root : UInt32 := 8

/-- A compression that is still to be done. -/
structure Node where
  chaining : Words 8
  message : Words 16
  counter : UInt64
  length : UInt32
  flags : UInt32

/-- The chaining words of a node, compressed with these flags besides its own. -/
def Node.compress (node : Node) (flags : UInt32) : Words 8 :=
  let state : Words 16 :=
    #v[node.chaining[0], node.chaining[1], node.chaining[2], node.chaining[3],
      node.chaining[4], node.chaining[5], node.chaining[6], node.chaining[7],
      initial[0], initial[1], initial[2], initial[3],
      node.counter.toUInt32, (node.counter >>> 32).toUInt32, node.length, node.flags ||| flags]
  let state := rounds 7 node.message state
  Vector.ofFn fun index : Fin 8 => state[index.val] ^^^ state[index.val + 8]

/-! ### Chunks and the tree over them -/

/-- The byte at a position, and zero past the end. -/
def byteAt (bytes : ByteArray) (position : Nat) : UInt32 :=
  if inside : position < bytes.size then bytes[position].toUInt32 else 0

/-- The four bytes from a position on, the lowest first. -/
def wordAt (bytes : ByteArray) (position : Nat) : UInt32 :=
  byteAt bytes position ||| (byteAt bytes (position + 1) <<< 8) |||
    (byteAt bytes (position + 2) <<< 16) ||| (byteAt bytes (position + 3) <<< 24)

/-- The number of pieces of this size that cover so many bytes; nothing takes one piece too. -/
def pieces (size total : Nat) : Nat := max 1 ((total + size - 1) / size)

/-- The last compression of a chunk, after all its other blocks. -/
def chunkNode (bytes : ByteArray) (chunk : Nat) : Node :=
  let start := 1024 * chunk
  let size := min 1024 (bytes.size - start)
  let blocks := pieces 64 size
  let blockNode (chaining : Words 8) (block : Nat) : Node :=
    { chaining
      message := Vector.ofFn fun index : Fin 16 => wordAt bytes (start + 64 * block + 4 * index.val)
      counter := chunk.toUInt64
      length := (min 64 (size - 64 * block)).toUInt32
      flags := (if block = 0 then chunkStart else 0) |||
        (if block + 1 = blocks then chunkEnd else 0) }
  let chaining := (List.range (blocks - 1)).foldl
    (fun chaining block => (blockNode chaining block).compress 0) initial
  blockNode chaining (blocks - 1)

/-- The node above two neighbours. -/
def join (left right : Node) : Node :=
  { chaining := initial
    message := left.compress 0 ++ right.compress 0
    counter := 0
    length := 64
    flags := parent }

/-- The next level: neighbours joined, a last one without a neighbour as it is. -/
def joinNeighbours : List Node → List Node
  | left :: right :: rest => join left right :: joinNeighbours rest
  | rest => rest

/-- The node at the top of the tree over a first node and the rest of its level. Every level has
fewer nodes, so as many levels as nodes are enough. -/
def top : Nat → Node → List Node → Node
  | levels + 1, first, second :: rest => top levels (join first second) (joinNeighbours rest)
  | _, first, _ => first

/-- The eight words of the digest. -/
def words (bytes : ByteArray) : Words 8 :=
  let chunks := pieces 1024 bytes.size
  let rest := (List.range (chunks - 1)).map fun index => chunkNode bytes (index + 1)
  (top chunks (chunkNode bytes 0) rest).compress root

/-- The two lower-case hexadecimal digits of a byte. -/
def hexByte (byte : UInt8) : List Char :=
  [Nat.digitChar (byte.toNat / 16), Nat.digitChar (byte.toNat % 16)]

/-- The bytes of a word, the lowest first. -/
def wordBytes (word : UInt32) : List UInt8 :=
  [word.toUInt8, (word >>> 8).toUInt8, (word >>> 16).toUInt8, (word >>> 24).toUInt8]

/-- The digest of the bytes as 64 lower-case hexadecimal digits. -/
def hex (bytes : ByteArray) : String :=
  String.ofList (((words bytes).toList.flatMap wordBytes).flatMap hexByte)

end Inlay.Digest
