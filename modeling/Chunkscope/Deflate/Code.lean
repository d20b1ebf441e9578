import Chunkscope.Deflate.Bits
import Chunkscope.Walk

/-!
Codes for symbols. The length of each symbol's code settles all codes: shorter codes come first,
and codes of one length are in the order of their symbols.
-/

namespace Chunkscope.Deflate

/-- The longest code there is. -/
def longestCode : Nat := 15

/-- A code for symbols, as the tree of its bits. -/
inductive CodeTree where
  | empty
  | symbol (value : Nat)
  | branch (zero one : CodeTree)
  deriving Repr

namespace CodeTree

/-- Puts a symbol at the end of the path that its code describes. -/
def insert (value : Nat) : List Bool → CodeTree → CodeTree
  | [], _ => .symbol value
  | bit :: rest, .branch zero one =>
      if bit then .branch zero (insert value rest one) else .branch (insert value rest zero) one
  | bit :: rest, _ =>
      if bit then .branch .empty (insert value rest .empty)
      else .branch (insert value rest .empty) .empty

/-- A code without symbols. It takes a bit to see that it has no meaning. -/
def initial : CodeTree := .branch .empty .empty

/-- Follows bits down to a symbol. -/
def read : CodeTree → List Bool → Except Fault (Nat × List Bool)
  | .empty, _ => .error .corrupt
  | .symbol value, bits => .ok (value, bits)
  | .branch _ _, [] => .error .incomplete
  | .branch zero one, bit :: rest => if bit then one.read rest else zero.read rest

end CodeTree

/-- The symbols that have a code, each as the length of its code and its number, in the order of
their codes. -/
def usedSymbols (lengths : List Nat) : List (Nat × Nat) :=
  (lengths.zipIdx.filter fun entry => entry.1 ≠ 0).mergeSort fun first second =>
    first.1 ≤ second.1

/-- The share of all longest codes that begin with a code of the given length. -/
def share (length : Nat) : Nat := Nat.pow 2 (longestCode - length)

/-- Gives each symbol the code that follows those before it. -/
def assignCodes (symbols : List (Nat × Nat)) : List (List Bool × Nat) :=
  (mapState
    (fun start entry =>
      ((codeBits entry.1 (start / share entry.1), entry.2), start + share entry.1))
    0 symbols).1

/-- Whether codes of the given symbols leave no bit pattern without a meaning. -/
def isComplete (symbols : List (Nat × Nat)) : Bool :=
  symbols.foldr (fun entry rest => share entry.1 + rest) 0 = share 0

/-- Whether there is no code at all, or only one of a single bit. -/
def isSparse (symbols : List (Nat × Nat)) : Bool :=
  symbols.length ≤ 1 && symbols.all fun entry => entry.1 = 1

/-- The code with the given lengths. It must be complete; where `sparse` allows it, a sparse one
will do. -/
def codeOfLengths (sparse : Bool) (lengths : List Nat) : Except Fault CodeTree :=
  let symbols := usedSymbols lengths
  if isComplete symbols || (sparse && isSparse symbols) then
    .ok ((assignCodes symbols).foldl (fun tree entry => tree.insert entry.2 entry.1) .initial)
  else .error .corrupt

/-- The code for the code lengths of a block. Where it has no symbols, each bit is a zero. -/
def codeForLengths (lengths : List Nat) : Except Fault CodeTree :=
  if usedSymbols lengths = [] then .ok (.branch (.symbol 0) (.symbol 0))
  else codeOfLengths false lengths

/-- The lengths of the fixed code for literals and lengths. -/
def fixedLiteralLengths : List Nat :=
  List.replicate 144 8 ++ List.replicate 112 9 ++ List.replicate 24 7 ++ List.replicate 8 8

def fixedDistanceLengths : List Nat := List.replicate 32 5

/-- The symbol after the last one of a block. -/
def endOfBlock : Nat := 256

/-- What the length symbols from 257 on stand for: a smallest length and a number of extra bits. -/
def lengthSymbols : List (Nat × Nat) :=
  [ (3, 0), (4, 0), (5, 0), (6, 0), (7, 0), (8, 0), (9, 0), (10, 0), (11, 1), (13, 1), (15, 1),
    (17, 1), (19, 2), (23, 2), (27, 2), (31, 2), (35, 3), (43, 3), (51, 3), (59, 3), (67, 4),
    (83, 4), (99, 4), (115, 4), (131, 5), (163, 5), (195, 5), (227, 5), (258, 0) ]

/-- What the distance symbols stand for: a smallest distance and a number of extra bits. -/
def distanceSymbols : List (Nat × Nat) :=
  [ (1, 0), (2, 0), (3, 0), (4, 0), (5, 1), (7, 1), (9, 2), (13, 2), (17, 3), (25, 3), (33, 4),
    (49, 4), (65, 5), (97, 5), (129, 6), (193, 6), (257, 7), (385, 7), (513, 8), (769, 8),
    (1025, 9), (1537, 9), (2049, 10), (3073, 10), (4097, 11), (6145, 11), (8193, 12),
    (12289, 12), (16385, 13), (24577, 13) ]

end Chunkscope.Deflate
