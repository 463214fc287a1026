/-!
# Secure hash algorithms

The algorithms of one family differ in the size of their words, the number of rounds, the amounts
of their rotations and the initial state. All constants are the leading bits of the fractional
parts of roots of primes: cube roots for the rounds, square roots for the initial state.
-/

namespace NodeProvisioner.Digest

/-! ## Constants -/

/-- No smaller number but one divides `n`. -/
def isPrime (n : Nat) : Bool := 2 ≤ n && (List.range n).all fun d => d < 2 || n % d ≠ 0

/-- The first eighty primes. -/
def primes : List Nat := (List.range 410).filter isPrime

/-- The greatest number with a bit at most `bit` whose `k`-th power is at most `n`, given that
`root` is one without these bits. -/
def rootFrom (k n : Nat) : Nat → Nat → Nat
  | 0, root => root
  | bit + 1, root =>
    let next := root + 1 <<< bit
    rootFrom k n bit (if Nat.pow next k ≤ n then next else root)

/-- The first `width` bits of the fractional part of the `k`-th root of `n`. -/
def rootFraction (k width n : Nat) : Nat :=
  rootFrom k (n <<< (k * width)) (width + 5) 0 % 1 <<< width

/-! ## The family -/

/-- One algorithm of the family, with words of `w` bits. -/
structure Algorithm (w : Nat) where
  rounds : Nat
  constants : Array (BitVec w)
  initial : List (BitVec w)
  /-- The rotations that mix the first and the fifth word of the state. -/
  firstSum : Nat × Nat × Nat
  fifthSum : Nat × Nat × Nat
  /-- Two rotations and a shift, for words two and fifteen places back. -/
  nearWord : Nat × Nat × Nat
  farWord : Nat × Nat × Nat
  /-- The number of bytes of a digest. -/
  size : Nat

/-- An algorithm with words of `w` bits and so many rounds; `skipped` primes come before those of
the initial state. -/
def Algorithm.make (w rounds skipped size : Nat)
    (firstSum fifthSum nearWord farWord : Nat × Nat × Nat) : Algorithm w where
  rounds
  constants := ((primes.take rounds).map fun p => BitVec.ofNat w (rootFraction 3 w p)).toArray
  initial := ((primes.drop skipped).take 8).map fun p => BitVec.ofNat w (rootFraction 2 w p)
  firstSum
  fifthSum
  nearWord
  farWord
  size

/-- The algorithm with digests of 256 bits. -/
def sha256 : Algorithm 32 :=
  .make 32 64 0 32 (2, 13, 22) (6, 11, 25) (17, 19, 10) (7, 18, 3)

/-- The algorithm with digests of 384 bits. -/
def sha384 : Algorithm 64 :=
  .make 64 80 8 48 (28, 34, 39) (14, 18, 41) (19, 61, 6) (1, 8, 7)

namespace Algorithm

variable {w : Nat}

/-- Three rotations of a word. -/
def rotations (r : Nat × Nat × Nat) (x : BitVec w) : BitVec w :=
  x.rotateRight r.1 ^^^ x.rotateRight r.2.1 ^^^ x.rotateRight r.2.2

/-- Two rotations of a word and a shift. -/
def shifts (r : Nat × Nat × Nat) (x : BitVec w) : BitVec w :=
  x.rotateRight r.1 ^^^ x.rotateRight r.2.1 ^^^ (x >>> r.2.2)

/-- The number of bytes of a block. -/
def blockSize (w : Nat) : Nat := 2 * w

/-- The message with a bit, zeros and its length, so that it fills its blocks. -/
def padded (w : Nat) (message : List UInt8) : List UInt8 :=
  let block := blockSize w
  let used := message.length + 1 + w / 4
  let zeros := (block - used % block) % block
  let length := 8 * message.length
  message ++ (0x80 : UInt8) :: List.replicate zeros 0 ++
    (List.range (w / 4)).reverse.map fun i => UInt8.ofNat (length >>> (8 * i))

/-- The words of a block. -/
def wordsOf (w : Nat) (bytes : List UInt8) : List (BitVec w) :=
  (List.range 16).map fun i =>
    let word := (bytes.drop (i * (w / 8))).take (w / 8)
    BitVec.ofNat w (word.foldl (fun n b => 256 * n + b.toNat) 0)

/-- The words of all rounds: those after the first sixteen are mixed from earlier ones. -/
def schedule (a : Algorithm w) (block : List (BitVec w)) : Array (BitVec w) :=
  (List.range (a.rounds - 16)).foldl (fun ws _ =>
    let back (n : Nat) : BitVec w := ws.getD (ws.size - n) 0
    ws.push (shifts a.nearWord (back 2) + back 7 + shifts a.farWord (back 15) + back 16))
    block.toArray

/-- One round. -/
def round (a : Algorithm w) (state : List (BitVec w)) (constant word : BitVec w) :
    List (BitVec w) :=
  match state with
  | [s0, s1, s2, s3, s4, s5, s6, s7] =>
    let chosen := (s4 &&& s5) ^^^ (~~~s4 &&& s6)
    let majority := (s0 &&& s1) ^^^ (s0 &&& s2) ^^^ (s1 &&& s2)
    let t := s7 + rotations a.fifthSum s4 + chosen + constant + word
    [t + rotations a.firstSum s0 + majority, s0, s1, s2, s3 + t, s4, s5, s6]
  | other => other

/-- The state after a block. -/
def compress (a : Algorithm w) (state : List (BitVec w)) (block : List UInt8) : List (BitVec w) :=
  let words := a.schedule (wordsOf w block)
  let last := (List.range a.rounds).foldl
    (fun s i => a.round s (a.constants.getD i 0) (words.getD i 0)) state
  List.zipWith (· + ·) state last

/-- The blocks of a padded message. -/
def blocks (w : Nat) (bytes : List UInt8) : List (List UInt8) :=
  (List.range (bytes.length / blockSize w)).map fun i =>
    (bytes.drop (i * blockSize w)).take (blockSize w)

/-- The digest of a message. -/
def digest (a : Algorithm w) (message : List UInt8) : List UInt8 :=
  let state := (blocks w (padded w message)).foldl a.compress a.initial
  (state.flatMap fun word =>
    (List.range (w / 8)).reverse.map fun i => UInt8.ofNat (word.toNat >>> (8 * i))).take a.size

end Algorithm

end NodeProvisioner.Digest
