import MoCodes.Lib.Bits
import MoCodes.Lib.Feistel

/-! The data encryption standard as FIPS 46-3 states it, on lists of bits numbered from
1 at the left. The S-boxes are a parameter of the cipher function, so that the same
network can be run with other ones. -/
namespace MoCodes.Crypto.Fips46
open MoCodes.Lib.Bits MoCodes.Lib

def initialPermutation : List Nat :=
  [58,50,42,34,26,18,10,2,60,52,44,36,28,20,12,4,
   62,54,46,38,30,22,14,6,64,56,48,40,32,24,16,8,
   57,49,41,33,25,17,9,1,59,51,43,35,27,19,11,3,
   61,53,45,37,29,21,13,5,63,55,47,39,31,23,15,7]

def inversePermutation : List Nat :=
  [40,8,48,16,56,24,64,32,39,7,47,15,55,23,63,31,
   38,6,46,14,54,22,62,30,37,5,45,13,53,21,61,29,
   36,4,44,12,52,20,60,28,35,3,43,11,51,19,59,27,
   34,2,42,10,50,18,58,26,33,1,41,9,49,17,57,25]

def expansion : List Nat :=
  [32,1,2,3,4,5,4,5,6,7,8,9,
   8,9,10,11,12,13,12,13,14,15,16,17,
   16,17,18,19,20,21,20,21,22,23,24,25,
   24,25,26,27,28,29,28,29,30,31,32,1]

def permutation : List Nat :=
  [16,7,20,21,29,12,28,17,1,15,23,26,5,18,31,10,
   2,8,24,14,32,27,3,9,19,13,30,6,22,11,4,25]

def choice1 : List Nat :=
  [57,49,41,33,25,17,9,1,58,50,42,34,26,18,
   10,2,59,51,43,35,27,19,11,3,60,52,44,36,
   63,55,47,39,31,23,15,7,62,54,46,38,30,22,
   14,6,61,53,45,37,29,21,13,5,28,20,12,4]

def choice2 : List Nat :=
  [14,17,11,24,1,5,3,28,15,6,21,10,
   23,19,12,4,26,8,16,7,27,20,13,2,
   41,52,31,37,47,55,30,40,51,45,33,48,
   44,49,39,56,34,53,46,42,50,36,29,32]

def shifts : List Nat :=
  [1,1,2,2,2,2,2,2,1,2,2,2,2,2,2,1]

def substitutionBoxes : List (List Nat) :=
  [[14,4,13,1,2,15,11,8,3,10,6,12,5,9,0,7,
    0,15,7,4,14,2,13,1,10,6,12,11,9,5,3,8,
    4,1,14,8,13,6,2,11,15,12,9,7,3,10,5,0,
    15,12,8,2,4,9,1,7,5,11,3,14,10,0,6,13],
   [15,1,8,14,6,11,3,4,9,7,2,13,12,0,5,10,
    3,13,4,7,15,2,8,14,12,0,1,10,6,9,11,5,
    0,14,7,11,10,4,13,1,5,8,12,6,9,3,2,15,
    13,8,10,1,3,15,4,2,11,6,7,12,0,5,14,9],
   [10,0,9,14,6,3,15,5,1,13,12,7,11,4,2,8,
    13,7,0,9,3,4,6,10,2,8,5,14,12,11,15,1,
    13,6,4,9,8,15,3,0,11,1,2,12,5,10,14,7,
    1,10,13,0,6,9,8,7,4,15,14,3,11,5,2,12],
   [7,13,14,3,0,6,9,10,1,2,8,5,11,12,4,15,
    13,8,11,5,6,15,0,3,4,7,2,12,1,10,14,9,
    10,6,9,0,12,11,7,13,15,1,3,14,5,2,8,4,
    3,15,0,6,10,1,13,8,9,4,5,11,12,7,2,14],
   [2,12,4,1,7,10,11,6,8,5,3,15,13,0,14,9,
    14,11,2,12,4,7,13,1,5,0,15,10,3,9,8,6,
    4,2,1,11,10,13,7,8,15,9,12,5,6,3,0,14,
    11,8,12,7,1,14,2,13,6,15,0,9,10,4,5,3],
   [12,1,10,15,9,2,6,8,0,13,3,4,14,7,5,11,
    10,15,4,2,7,12,9,5,6,1,13,14,0,11,3,8,
    9,14,15,5,2,8,12,3,7,0,4,10,1,13,11,6,
    4,3,2,12,9,5,15,10,11,14,1,7,6,0,8,13],
   [4,11,2,14,15,0,8,13,3,12,9,7,5,10,6,1,
    13,0,11,7,4,9,1,10,14,3,5,12,2,15,8,6,
    1,4,11,13,12,3,7,14,10,15,6,8,0,5,9,2,
    6,11,13,8,1,4,10,7,9,5,0,15,14,2,3,12],
   [13,2,8,4,6,15,11,1,10,9,3,14,5,0,12,7,
    1,15,13,8,10,3,7,4,12,5,6,11,0,14,9,2,
    7,11,4,1,9,12,14,2,0,6,10,13,15,3,5,8,
    2,1,14,7,4,10,8,13,15,12,9,0,3,5,6,11]]

def bitValue (bits : List Bool) (i : Nat) : Nat := (bits.getD i false).toNat

/-- The first and the last of six bits choose the row of a box, the others its column. -/
def row (six : List Bool) : Nat := 2*bitValue six 0+bitValue six 5

def column (six : List Bool) : Nat :=
  8*bitValue six 1+4*bitValue six 2+2*bitValue six 3+bitValue six 4

def group (bits : List Bool) (i : Nat) : List Bool := (bits.drop (6*i)).take 6

def nibble (value : Nat) : List Bool :=
  [value.testBit 3,value.testBit 2,value.testBit 1,value.testBit 0]

def entry (boxes : List (List Nat)) (i : Nat) (six : List Bool) : Nat :=
  (boxes.getD i []).getD (16*row six+column six) 0

def substitute (boxes : List (List Nat)) (bits : List Bool) : List Bool :=
  (List.range 8).flatMap fun i => nibble (entry boxes i (group bits i))

def boxInput (key right : List Bool) : List Bool := List.zipWith xor (select expansion right) key

def cipher (boxes : List (List Nat)) (key right : List Bool) : List Bool :=
  select permutation (substitute boxes (boxInput key right))

def schedule (key : List Bool) : Nat → List Bool × List Bool
  | 0 => ((select choice1 key).take 28,(select choice1 key).drop 28)
  | n+1 => ((schedule key n).1.rotate (shifts.getD n 0),(schedule key n).2.rotate (shifts.getD n 0))

/-- `roundKey key n` is the standard's K(n+1). -/
def roundKey (key : List Bool) (n : Nat) : List Bool :=
  select choice2 ((schedule key (n+1)).1 ++ (schedule key (n+1)).2)

def xorMixer : Feistel.Mixer (List Bool) where
  mix := List.zipWith xor
  Half half := half.length = 32
  closed := by intro a b left right; simp [left,right]
  comm := by intro a b; exact List.zipWith_comm_of_comm Bool.xor_comm
  undo := by
    intro a b left right
    apply List.ext_getElem
    · simp [left,right]
    · intro i inside bound
      simp

def halves (boxes : List (List Nat)) (keys : Nat → List Bool) (n : Nat) (block : List Bool) :
    List Bool × List Bool :=
  Feistel.rounds xorMixer (fun i => cipher boxes (keys i)) n
    ((select initialPermutation block).take 32,(select initialPermutation block).drop 32)

def crypt (boxes : List (List Nat)) (keys : Nat → List Bool) (block : List Bool) : List Bool :=
  select inversePermutation ((halves boxes keys 16 block).2 ++ (halves boxes keys 16 block).1)

def encryptKeys (key : List Bool) : Nat → List Bool := roundKey key

def decryptKeys (key : List Bool) (n : Nat) : List Bool := roundKey key (15-n)

def encrypt (key block : List Bool) : List Bool := crypt substitutionBoxes (encryptKeys key) block

def decrypt (key block : List Bool) : List Bool := crypt substitutionBoxes (decryptKeys key) block

end MoCodes.Crypto.Fips46
