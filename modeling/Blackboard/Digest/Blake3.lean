/-!
# BLAKE3

The BLAKE3 digest of a row of bytes, as lower-case hexadecimal text. A value that has no literal
form is known by the digest of its text.

The input is cut into chunks of 1024 bytes and each chunk into blocks of 64. The blocks of a chunk
are compressed one after another into a chaining value; the chaining values of the chunks are then
joined in pairs, level by level, and the node at the top gives the digest.
-/

namespace Blackboard.Blake3

/-! ## 1. Compression -/

/-- Eight words: a chaining value. -/
abbrev Chain := Vector UInt32 8

/-- Sixteen words: a message block or the state of a compression. -/
abbrev Block := Vector UInt32 16

/-- The chaining value that everything starts from. -/
def initial : Chain :=
  #v[0x6A09E667, 0xBB67AE85, 0x3C6EF372, 0xA54FF53A, 0x510E527F, 0x9B05688C, 0x1F83D9AB, 0x5BE0CD19]

/-- Rotation of a word to the right. -/
def rotate (x : UInt32) (n : UInt32) : UInt32 := (x >>> n) ||| (x <<< (32 - n))

/-- Mixes two message words into four words of the state. -/
def mix (v : Block) (a b c d : Fin 16) (x y : UInt32) : Block :=
  let v := v.set a (v[a] + v[b] + x)
  let v := v.set d (rotate (v[d] ^^^ v[a]) 16)
  let v := v.set c (v[c] + v[d])
  let v := v.set b (rotate (v[b] ^^^ v[c]) 12)
  let v := v.set a (v[a] + v[b] + y)
  let v := v.set d (rotate (v[d] ^^^ v[a]) 8)
  let v := v.set c (v[c] + v[d])
  v.set b (rotate (v[b] ^^^ v[c]) 7)

/-- One round: the columns of the state, then its diagonals. -/
def round (v m : Block) : Block :=
  let v := mix v 0 4 8 12 m[0] m[1]
  let v := mix v 1 5 9 13 m[2] m[3]
  let v := mix v 2 6 10 14 m[4] m[5]
  let v := mix v 3 7 11 15 m[6] m[7]
  let v := mix v 0 5 10 15 m[8] m[9]
  let v := mix v 1 6 11 12 m[10] m[11]
  let v := mix v 2 7 8 13 m[12] m[13]
  mix v 3 4 9 14 m[14] m[15]

/-- The order in which a round takes the words of the round before. -/
def permute (m : Block) : Block :=
  #v[m[2], m[6], m[3], m[10], m[7], m[0], m[4], m[13], m[1], m[11], m[12], m[5], m[9], m[14], m[15],
    m[8]]

/-- Rounds on a state, the message permuted between them. -/
def rounds : Nat → Block → Block → Block
  | 0, v, _ => v
  | n + 1, v, m => rounds n (round v m) (permute m)

/-- What a block is within the tree. -/
structure Role where
  chunkStart : Bool
  chunkEnd : Bool
  parent : Bool
  root : Bool

/-- The flags of a block as bits. -/
def Role.bits (r : Role) : UInt32 :=
  (if r.chunkStart then 1 else 0) ||| (if r.chunkEnd then 2 else 0) ||| (if r.parent then 4 else 0)
    ||| (if r.root then 8 else 0)

/-- Compresses a block of `size` bytes into a chaining value. -/
def compress (chain : Chain) (block : Block) (counter : Nat) (size : Nat) (role : Role) : Chain :=
  let low := UInt32.ofNat counter
  let high := UInt32.ofNat (counter >>> 32)
  let start : Block :=
    #v[chain[0], chain[1], chain[2], chain[3], chain[4], chain[5], chain[6], chain[7],
      initial[0], initial[1], initial[2], initial[3], low, high, UInt32.ofNat size, role.bits]
  let v := rounds 7 start block
  #v[v[0] ^^^ v[8], v[1] ^^^ v[9], v[2] ^^^ v[10], v[3] ^^^ v[11],
    v[4] ^^^ v[12], v[5] ^^^ v[13], v[6] ^^^ v[14], v[7] ^^^ v[15]]

/-! ## 2. Nodes of the tree -/

/-- A compression that still waits for whether it is at the top. -/
structure Node where
  chain : Chain
  block : Block
  counter : Nat
  size : Nat
  role : Role

/-- The chaining value of a node below the top. -/
def Node.value (n : Node) : Chain := compress n.chain n.block n.counter n.size n.role

/-- The digest, if the node is at the top. -/
def Node.digest (n : Node) : Chain :=
  compress n.chain n.block 0 n.size { n.role with root := true }

/-- Cuts a list into parts of `n`, the last of which may be shorter; `fuel` bounds their number. -/
def parts {α : Type} (n : Nat) : Nat → List α → List (List α)
  | 0, _ => []
  | _, [] => []
  | fuel + 1, xs => xs.take n :: parts n fuel (xs.drop n)

/-- A word from at most four bytes, the first byte being the lowest. -/
def word (bytes : List UInt8) : UInt32 :=
  bytes.foldr (fun b w => (w <<< 8) ||| b.toUInt32) 0

/-- The words of a block; missing bytes are zero. -/
def blockOf (bytes : List UInt8) : Block :=
  Vector.ofFn fun i => word ((bytes.drop (4 * i.val)).take 4)

/-- Compresses the blocks of a chunk up to the last one, which becomes a node. -/
def chunkNode (counter : Nat) (chain : Chain) (first : Bool) : List (List UInt8) → Node
  | [] => ⟨chain, blockOf [], counter, 0, ⟨first, true, false, false⟩⟩
  | [b] => ⟨chain, blockOf b, counter, b.length, ⟨first, true, false, false⟩⟩
  | b :: b' :: bs =>
    chunkNode counter (compress chain (blockOf b) counter b.length ⟨first, false, false, false⟩)
      false (b' :: bs)

/-- The node of a chunk. -/
def chunk (counter : Nat) (bytes : List UInt8) : Node :=
  chunkNode counter initial true (parts 64 16 bytes)

/-- The node above two nodes. -/
def parent (left right : Node) : Node :=
  ⟨initial, left.value ++ right.value, 0, 64, ⟨false, false, true, false⟩⟩

/-- One level of the tree: neighbours are joined, and a last node without a partner stays. -/
def level : List Node → List Node
  | l :: r :: rest => parent l r :: level rest
  | rest => rest

/-- The node at the top; every level at least takes one node off. -/
def top : Nat → Node → List Node → Node
  | _, n, [] => n
  | 0, n, _ => n
  | fuel + 1, n, m :: rest => top fuel (parent n m) (level rest)

/-! ## 3. The digest -/

/-- The bytes of a word, the lowest first, in hexadecimal. -/
def wordHex (w : UInt32) : List Char :=
  (List.range 4).flatMap fun i =>
    let b := (w.toNat >>> (8 * i)) % 256
    [(b / 16).digitChar, (b % 16).digitChar]

/-- The digest of a row of bytes in hexadecimal. -/
def hex (bytes : List UInt8) : String :=
  let chunks := (parts 1024 (bytes.length / 1024 + 1) bytes).zipIdx.map fun (b, i) => chunk i b
  let node :=
    match chunks with
    | [] => chunk 0 []
    | n :: rest => top rest.length n rest
  String.ofList (node.digest.toList.flatMap wordHex)

/-- The digest of the UTF-8 form of a text. -/
def ofText (text : String) : String := hex text.toUTF8.toList

end Blackboard.Blake3
