import MoCodes.Lib.Bits

/-! The single-block routines of moCrypt_DES.c. A buffer is the list of its bytes and
has the size the header gives it; buffers are never NULL and the scratch array of the
key shift is always allocated, so no routine takes an error exit. -/
namespace MoCodes.Crypto.Des
open MoCodes.Lib.Bits

def gKeyExReplaceTable : List Nat :=
  [57,49,41,33,25,17,9,1,58,50,42,34,26,18,
   10,2,59,51,43,35,27,19,11,3,60,52,44,36,
   63,55,47,39,31,23,15,7,62,54,46,38,30,22,
   14,6,61,53,45,37,29,21,13,5,28,20,12,4]

def gCompressedTable : List Nat :=
  [14,17,11,24,1,5,3,28,15,6,21,10,
   23,19,12,4,26,8,16,7,27,20,13,2,
   41,52,31,37,47,55,30,40,51,45,33,48,
   44,49,39,56,34,53,46,42,50,36,29,32]

def gLoopLeftShiftTable : List Nat :=
  [1,1,2,2,2,2,2,2,1,2,2,2,2,2,2,1]

def gRoundExReplaceTable : List Nat :=
  [32,1,2,3,4,5,4,5,6,7,8,9,
   8,9,10,11,12,13,12,13,14,15,16,17,
   16,17,18,19,20,21,20,21,22,23,24,25,
   24,25,26,27,28,29,28,29,30,31,32,1]

def gRoundSboxTable : List (List Nat) :=
  [[14,4,13,1,2,15,11,8,3,10,6,12,5,9,0,7,
    0,15,7,4,14,2,13,1,10,6,12,11,9,5,3,8,
    4,1,14,8,13,6,2,11,15,12,9,7,3,10,5,0,
    15,12,8,2,4,9,1,7,5,11,3,14,10,0,6,13],
   [15,1,8,14,6,11,3,4,9,7,2,13,12,0,5,10,
    3,13,4,7,15,2,8,14,12,0,1,10,6,9,11,5,
    0,14,7,11,10,4,13,1,5,8,12,6,9,3,2,15,
    13,8,10,1,3,15,4,2,11,6,7,12,0,5,14,9],
   [10,0,9,14,6,3,15,5,1,13,12,7,11,4,2,8,
    13,7,0,9,3,4,6,10,2,8,5,14,12,11,15,1,
    13,6,4,9,8,15,3,0,11,1,2,12,5,10,14,7,
    1,10,13,0,6,9,8,7,4,15,14,3,11,5,2,12],
   [7,13,14,3,0,6,9,10,1,2,8,5,11,12,4,15,
    13,8,11,5,6,15,0,3,4,7,2,12,1,10,14,9,
    10,6,9,0,12,11,7,13,15,1,3,14,5,2,8,4,
    3,15,0,6,10,1,13,8,9,4,5,11,12,7,2,14],
   [2,12,4,1,7,10,11,6,8,5,3,15,13,0,14,9,
    14,11,2,12,4,7,13,1,5,0,15,10,3,9,8,6,
    4,2,1,11,10,13,7,8,15,9,12,5,6,3,0,14,
    11,8,12,7,1,14,2,13,6,15,0,9,10,4,5,3],
   [12,1,10,15,9,2,6,8,0,13,3,4,14,7,5,11,
    10,15,4,2,7,12,0,5,6,1,13,14,0,11,3,8,
    9,14,15,5,2,8,12,3,7,0,4,10,1,13,11,6,
    4,3,2,12,9,5,15,10,11,14,1,7,6,0,8,13],
   [4,11,2,14,15,0,8,13,3,12,9,7,5,10,6,1,
    13,0,11,7,4,0,1,10,14,3,5,12,2,15,8,6,
    1,4,11,13,12,3,7,14,10,15,6,8,0,5,9,2,
    6,11,13,8,1,4,10,7,9,5,0,15,14,2,3,12],
   [13,2,8,4,6,15,11,1,10,9,3,14,5,0,12,7,
    1,15,13,8,10,3,7,4,12,5,6,11,0,14,9,2,
    7,11,4,1,9,12,14,2,0,6,10,13,15,3,5,8,
    2,1,14,7,4,10,8,13,15,12,9,0,3,5,6,11]]

def gRoundPboxTable : List Nat :=
  [16,7,20,21,29,12,28,17,1,15,23,26,5,18,31,10,
   2,8,24,14,32,27,3,9,19,13,30,6,22,11,4,25]

def gIpTable : List Nat :=
  [58,50,42,34,26,18,10,2,60,52,44,36,28,20,12,4,
   62,54,46,38,30,22,14,6,64,56,48,40,32,24,16,8,
   57,49,41,33,25,17,9,1,59,51,43,35,27,19,11,3,
   61,53,45,37,29,21,13,5,63,55,47,39,31,23,15,7]

def gIpInvTable : List Nat :=
  [40,8,48,16,56,24,64,32,39,7,47,15,55,23,63,31,
   38,6,46,14,54,22,62,30,37,5,45,13,53,21,61,29,
   36,4,44,12,52,20,60,28,35,3,43,11,51,19,59,27,
   34,2,42,10,50,18,58,26,33,1,41,9,49,17,57,25]

/-- The loop of every permutation: the destination is cleared, and its bit `i` set when
the source has the bit that the table names. -/
def bitConv (table : List Nat) (len : Nat) (pSrc : List UInt8) : List UInt8 :=
  setBits (List.range table.length) (fun i => bitAt pSrc (table.getD i 0-1)) (fun i => i)
    (List.replicate len 0)

def keyExReplace (pKey : List UInt8) : List UInt8 := bitConv gKeyExReplaceTable 7 pKey

def compReKey (pReKey : List UInt8) : List UInt8 := bitConv gCompressedTable 6 pReKey

def roundExReplace (pOrg : List UInt8) : List UInt8 := bitConv gRoundExReplaceTable 6 pOrg

def roundPbox (pValue : List UInt8) : List UInt8 := bitConv gRoundPboxTable 4 pValue

def ipConv (pSrc : List UInt8) : List UInt8 := bitConv gIpTable 8 pSrc

def ipInvConv (pSrc : List UInt8) : List UInt8 := bitConv gIpInvTable 8 pSrc

def bitByte (bytes : List UInt8) (bytesPos bitsPos : Nat) : UInt8 :=
  if bitAt bytes (8*bytesPos+bitsPos) then 1 else 0

def splitReKey (pReKey : List UInt8) : List UInt8 × List UInt8 :=
  ((List.range 28).map fun i => bitByte pReKey (i/8) (i%8),
   ((List.range 4).map fun i => bitByte pReKey 3 (i+4)) ++
     (List.range 24).map fun i => bitByte pReKey (i/8+4) (i%8))

def loopLeftShiftArray (pArray : List UInt8) (arrLen shiftNum : Nat) : List UInt8 :=
  if shiftNum%arrLen = 0 then pArray
  else
    let realShiftNum := if arrLen < shiftNum then shiftNum%arrLen else shiftNum
    pArray.drop realShiftNum ++ pArray.take realShiftNum

def joinHalf2ReKey (pLeft pRight : List UInt8) : List UInt8 :=
  let left := setBits (List.range 28) (fun i => pLeft.getD i 0 != 0) (fun i => 8*(i/8)+i%8)
    (List.replicate 7 0)
  let four := setBits (List.range 4) (fun i => pRight.getD i 0 != 0) (fun i => 8*3+(i+4)) left
  setBits (List.range 24) (fun i => pRight.getD (i+4) 0 != 0) (fun i => 8*(i/8+4)+i%8) four

/-- The halves are shifted from the start in every round, by all the rounds' numbers so far. -/
def loopNum (loopCnt : Nat) : Nat :=
  (List.range (loopCnt+1)).foldl (fun num i => num+gLoopLeftShiftTable.getD i 0) 0

def keyExGetKey (pLeft pRight : List UInt8) (loopCnt : Nat) : List UInt8 :=
  compReKey (joinHalf2ReKey (loopLeftShiftArray pLeft 28 (loopNum loopCnt))
    (loopLeftShiftArray pRight 28 (loopNum loopCnt)))

def keyExpand (pKey : List UInt8) : List (List UInt8) :=
  let parts := splitReKey (keyExReplace pKey)
  (List.range 16).map (keyExGetKey parts.1 parts.2)

def roundXor (pPart1 pPart2 : List UInt8) : List UInt8 := List.zipWith (· ^^^ ·) pPart1 pPart2

def roundSboxSplitKey (pBytes : List UInt8) : List UInt8 :=
  (List.range (8*pBytes.length)).map fun i => bitByte pBytes (i/8) (i%8)

def rowNum (pOrgBits : List UInt8) (i : Nat) : UInt8 :=
  (pOrgBits.getD (0+i*6) 0 <<< 1) ||| (pOrgBits.getD (5+i*6) 0 <<< 0)

def columnNum (pOrgBits : List UInt8) (i : Nat) : UInt8 :=
  (pOrgBits.getD (1+i*6) 0 <<< 3) ||| (pOrgBits.getD (2+i*6) 0 <<< 2) |||
    (pOrgBits.getD (3+i*6) 0 <<< 1) ||| (pOrgBits.getD (4+i*6) 0 <<< 0)

def sboxValue (pOrgBits : List UInt8) (i : Nat) : UInt8 :=
  UInt8.ofNat ((gRoundSboxTable.getD i []).getD
    ((rowNum pOrgBits i).toNat*16+(columnNum pOrgBits i).toNat) 0)

/-- Boxes of even index fill the high four bits of a byte, the others the low four. -/
def roundSbox (pOrg : List UInt8) : List UInt8 :=
  let pOrgBits := roundSboxSplitKey pOrg
  (List.range 8).foldl (fun pDst i =>
    if i%2 = 0 then pDst.modify (i/2) (· ||| (sboxValue pOrgBits i <<< 4))
    else pDst.modify (i/2) (· ||| sboxValue pOrgBits i)) (List.replicate 4 0)

def cryptRound (halves : List UInt8 × List UInt8) (pCurKeyEx : List UInt8) : List UInt8 × List UInt8 :=
  let xorOrgRight := roundXor (roundExReplace halves.2) pCurKeyEx
  (halves.2,roundXor (roundPbox (roundSbox xorOrgRight)) halves.1)

def splitUnit2Half (pSrc : List UInt8) : List UInt8 × List UInt8 :=
  (pSrc.take 4,(pSrc.drop 4).take 4)

def joinHalf2Unit (pLeftHalf pRightHalf : List UInt8) : List UInt8 :=
  pLeftHalf.take 4 ++ pRightHalf.take 4

def cryptRounds (keyAt : Nat → List UInt8) (loopCnt : Nat) (pSrcUnit : List UInt8) :
    List UInt8 × List UInt8 :=
  (List.range loopCnt).foldl (fun halves i => cryptRound halves (keyAt i))
    (splitUnit2Half (ipConv pSrcUnit))

/-- Encryption and decryption of a unit differ only in the order of the sub-keys. -/
def unitCrypt (keyAt : Nat → List UInt8) (pSrcUnit : List UInt8) : List UInt8 :=
  let halves := cryptRounds keyAt 16 pSrcUnit
  ipInvConv (joinHalf2Unit halves.2 halves.1)

def encryptKeyAt (keyEx : List (List UInt8)) (loopCnt : Nat) : List UInt8 := keyEx.getD loopCnt []

def decryptKeyAt (keyEx : List (List UInt8)) (loopCnt : Nat) : List UInt8 :=
  keyEx.getD (16-loopCnt-1) []

def unitEncrypt (pSrcUnit : List UInt8) (keyEx : List (List UInt8)) : List UInt8 :=
  unitCrypt (encryptKeyAt keyEx) pSrcUnit

def unitDecrypt (pSrcUnit : List UInt8) (keyEx : List (List UInt8)) : List UInt8 :=
  unitCrypt (decryptKeyAt keyEx) pSrcUnit

end MoCodes.Crypto.Des
