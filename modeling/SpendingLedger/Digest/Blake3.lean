/-!
The BLAKE3 hash of bytes, as far as its first word: chunks of 1024 bytes, cut into blocks of 64,
are compressed one block after the other; the chaining values of the chunks are combined in pairs
up to a root, whose compression gives the output.
-/

namespace SpendingLedger.Digest

/-- The eight words a compression hands on. -/
abbrev Chain := Vector UInt32 8

/-- Sixteen words: a block of input, or the state inside a compression. -/
abbrev Block := Vector UInt32 16

def initial : Chain :=
  #v[0x6A09E667, 0xBB67AE85, 0x3C6EF372, 0xA54FF53A, 0x510E527F, 0x9B05688C, 0x1F83D9AB, 0x5BE0CD19]

/-- Marks the first block of a chunk. -/
def chunkStart : UInt32 := 1

/-- Marks the last block of a chunk. -/
def chunkEnd : UInt32 := 2

/-- Marks a node with two children. -/
def parentFlag : UInt32 := 4

/-- Marks the last compression of all. -/
def rootFlag : UInt32 := 8

/-- The word turned right by `n` bits, for `n` from 1 to 31. -/
def rotateRight (x n : UInt32) : UInt32 := (x >>> n) ||| (x <<< (32 - n))

/-- Mixes two words of input into four words of the state. -/
def mix (s : Block) (a b c d : Fin 16) (x y : UInt32) : Block :=
  let s := s.set a (s[a] + s[b] + x)
  let s := s.set d (rotateRight (s[d] ^^^ s[a]) 16)
  let s := s.set c (s[c] + s[d])
  let s := s.set b (rotateRight (s[b] ^^^ s[c]) 12)
  let s := s.set a (s[a] + s[b] + y)
  let s := s.set d (rotateRight (s[d] ^^^ s[a]) 8)
  let s := s.set c (s[c] + s[d])
  s.set b (rotateRight (s[b] ^^^ s[c]) 7)

/-- One round: the columns of the state, then its diagonals. -/
def round (s m : Block) : Block :=
  let s := mix s 0 4 8 12 m[0] m[1]
  let s := mix s 1 5 9 13 m[2] m[3]
  let s := mix s 2 6 10 14 m[4] m[5]
  let s := mix s 3 7 11 15 m[6] m[7]
  let s := mix s 0 5 10 15 m[8] m[9]
  let s := mix s 1 6 11 12 m[10] m[11]
  let s := mix s 2 7 8 13 m[12] m[13]
  mix s 3 4 9 14 m[14] m[15]

/-- The order of the input words in the next round. -/
def permute (m : Block) : Block :=
  #v[m[2], m[6], m[3], m[10], m[7], m[0], m[4], m[13], m[1], m[11], m[12], m[5], m[9], m[14], m[15],
    m[8]]

def rounds : Nat → Block → Block → Block
  | 0, s, _ => s
  | n + 1, s, m => rounds n (round s m) (permute m)

/-- What a compression takes in. -/
structure Node where
  chain : Chain
  block : Block
  counter : UInt64
  length : UInt32
  flags : UInt32

namespace Node

/-- The state of a compression before its first round. -/
def start (n : Node) : Block :=
  #v[n.chain[0], n.chain[1], n.chain[2], n.chain[3], n.chain[4], n.chain[5], n.chain[6], n.chain[7],
    initial[0], initial[1], initial[2], initial[3], n.counter.toUInt32,
    (n.counter >>> 32).toUInt32, n.length, n.flags]

/-- The words that a compression hands on. -/
def output (n : Node) : Chain :=
  let s := rounds 7 n.start n.block
  #v[s[0] ^^^ s[8], s[1] ^^^ s[9], s[2] ^^^ s[10], s[3] ^^^ s[11], s[4] ^^^ s[12], s[5] ^^^ s[13],
    s[6] ^^^ s[14], s[7] ^^^ s[15]]

/-- The node above two others. -/
def parent (left right : Node) : Node where
  chain := initial
  block := left.output ++ right.output
  counter := 0
  length := 64
  flags := parentFlag

/-- Combines neighbours; an odd one at the end stays. -/
def pairUp : List Node → List Node
  | a :: b :: rest => parent a b :: pairUp rest
  | nodes => nodes

theorem pairUp_length (nodes : List Node) : (pairUp nodes).length ≤ nodes.length := by
  fun_induction pairUp nodes <;> simp_all; omega

/-- Combines nodes up to the root. -/
def root (first : Node) : List Node → Node
  | [] => first
  | second :: rest =>
    root (parent first second) (pairUp rest)
termination_by rest => rest.length
decreasing_by
  have := pairUp_length rest
  simp only [List.length_cons]
  omega

end Node

/-- The word of four bytes, the first one lowest. Bytes past the end are zero. -/
def wordAt (bytes : Array UInt8) (i : Nat) : UInt32 :=
  (bytes.getD i 0).toUInt32 ||| ((bytes.getD (i + 1) 0).toUInt32 <<< 8) |||
    ((bytes.getD (i + 2) 0).toUInt32 <<< 16) ||| ((bytes.getD (i + 3) 0).toUInt32 <<< 24)

/-- The block of at most 64 bytes. -/
def blockOf (bytes : List UInt8) : Block :=
  let bytes := bytes.toArray
  Vector.ofFn (fun i => wordAt bytes (4 * i.val))

/-- Cuts a list into pieces of `n + 1` items, the last one shorter; the empty list is one piece. -/
def pieces {α : Type} (n : Nat) (l : List α) : List (List α) :=
  if n + 1 < l.length then l.take (n + 1) :: pieces n (l.drop (n + 1)) else [l]
termination_by l.length
decreasing_by simp only [List.length_drop]; omega

/-- The last node of a chunk, its other blocks compressed. -/
def chunkNode (counter : UInt64) (chain : Chain) (flags : UInt32) : List (List UInt8) → Node
  | [] => ⟨chain, blockOf [], counter, 0, flags ||| chunkEnd⟩
  | [last] => ⟨chain, blockOf last, counter, last.length.toUInt32, flags ||| chunkEnd⟩
  | block :: rest =>
    chunkNode counter (Node.mk chain (blockOf block) counter 64 flags).output 0 rest

/-- The nodes of the chunks. -/
def chunkNodes (bytes : List UInt8) : List Node :=
  (pieces 1023 bytes).zipIdx.map (fun (chunk, i) =>
    chunkNode (UInt64.ofNat i) initial chunkStart (pieces 63 chunk))

/-- The first word of the hash, its first byte lowest. -/
def firstWord (bytes : List UInt8) : UInt32 :=
  match chunkNodes bytes with
  | [] => 0
  | first :: rest =>
    let root := Node.root first rest
    { root with flags := root.flags ||| rootFlag }.output[0]

end SpendingLedger.Digest
