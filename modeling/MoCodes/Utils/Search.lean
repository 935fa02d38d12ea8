import MoCodes.Lib.Matching
import Mathlib.Algebra.Group.Nat.Defs
import Mathlib.Algebra.Group.Int.Defs

/-! The four sub-string searches of moUtils and the tables three of them read.
A pointer is the bytes from its address on, so what lies after an object is there to
be read; none is NULL, and the allocations succeed. Lengths and positions are unsigned
int: the sums that the code lets wrap are taken modulo 2^32, and every table entry is an
unsigned char. -/
namespace MoCodes.Utils.Search
open MoCodes.Lib.Loop MoCodes.Lib.Matching

abbrev Bytes := Nat → UInt8

/-- The memory that starts with the given bytes and is 0 behind them. -/
def bytesOf (bytes : List UInt8) : Bytes := fun i => bytes.getD i 0

def u32 (n : Nat) : Nat := n % 2^32

def toInt (n : Nat) : Int := if n < 2^31 then n else (n : Int) - 2^32

def errPatLenLarger : Int := 0 - 12001
def errPatNotExist : Int := 0 - 12002
def errInvalidLen : Int := 0 - 12004

def mismatch (pSrc pPattern : Bytes) (patternLen i : Nat) : Option Nat :=
  (List.range patternLen).find? fun j => pSrc (i+j) != pPattern j

def checkLen (srcLen patternLen : Nat) : Option Int :=
  if srcLen < patternLen then some errPatLenLarger
  else if patternLen = 0 ∨ srcLen = 0 then some errInvalidLen
  else none

/-- The offsets run while `offset + patternLen <= srcLen`. -/
def searchBF (pSrc : Bytes) (srcLen : Nat) (pPattern : Bytes) (patternLen : Nat) : Int :=
  match checkLen srcLen patternLen with
  | some err => err
  | none =>
    match (List.range (srcLen-patternLen+1)).find? fun offset =>
        (mismatch pSrc pPattern patternLen offset).isNone with
    | some offset => toInt offset
    | none => errPatNotExist

def isBorder (pPattern : Bytes) (i j : Nat) : Bool :=
  (List.range j).all fun k => pPattern k == pPattern (i-j+k)

/-- One more than the longest border of the prefix of length `i`; 0 for the empty one. -/
def pmValue (pPattern : Bytes) (i : Nat) : Nat :=
  (List.range i).foldl (fun value j => if isBorder pPattern i j then j+1 else value) 0

def genPMT (pmt pPattern : Bytes) (patternLen : Nat) : Bytes :=
  fun i => if i < patternLen then UInt8.ofNat (pmValue pPattern i) else pmt i

def genKmpNext (pNext pmt : Bytes) (patternLen : Nat) : Bytes :=
  fun i => if i < patternLen then UInt8.ofNat (i+1) - pmt i else pNext i

/-- `pPmt` is the scratch array the allocation gives, whatever it holds. -/
def kmpGenNextArray (pPmt pNext pPattern : Bytes) (patternLen : Nat) : Bytes :=
  genKmpNext pNext (genPMT pPmt pPattern patternLen) patternLen

def kmpBody (pSrc : Bytes) (srcLen : Nat) (pPattern : Bytes) (patternLen : Nat) (pNext : Bytes)
    (i : Nat) : Outcome Nat Int :=
  if i ≤ srcLen-patternLen then
    match mismatch pSrc pPattern patternLen i with
    | some j => .next (u32 (i+(pNext j).toNat))
    | none => .done (toInt i)
  else .done errPatNotExist

def SearchKMP (pSrc : Bytes) (srcLen : Nat) (pPattern : Bytes) (patternLen : Nat) (pNext : Bytes)
    (result : Int) : Prop :=
  match checkLen srcLen patternLen with
  | some err => result = err
  | none => Returns (kmpBody pSrc srcLen pPattern patternLen pNext) 0 result

def bmGenBCT (pPattern : Bytes) (patternLen : Nat) : UInt8 → UInt8 :=
  (List.range patternLen).foldl
    (fun pBct j => Function.update pBct (pPattern j) (UInt8.ofNat (patternLen-j-1)))
    (fun _ => UInt8.ofNat patternLen)

def isPrevExist (pPattern : Bytes) (patternLen i j : Nat) : Bool :=
  (List.range (patternLen-i)).all fun k => pPattern (j+k) == pPattern (i+k)

def isMatchToHead (pPattern : Bytes) (patternLen tmpStartPos : Nat) : Bool :=
  (List.range (patternLen-tmpStartPos)).all fun k => pPattern k == pPattern (tmpStartPos+k)

def gstValue (pPattern : Bytes) (patternLen i : Nat) : Nat :=
  match (List.range i).findRev? (isPrevExist pPattern patternLen i) with
  | some j => i-j
  | none =>
    match (List.range (patternLen-1-i)).find? fun k => isMatchToHead pPattern patternLen (i+1+k) with
    | some k => i+1+k
    | none => patternLen

/-- The index is an int: from 2^31 + 1 bytes on it starts negative and nothing is written. -/
def bmGenGST (pGst pPattern : Bytes) (patternLen : Nat) : Bytes :=
  fun i => if i < patternLen ∧ patternLen ≤ 2^31 then UInt8.ofNat (gstValue pPattern patternLen i)
    else pGst i

/-- The comparison from the last byte back; `j` is an int as well. -/
def bmMismatch (pSrc pPattern : Bytes) (patternLen i : Nat) : Option Nat :=
  if patternLen ≤ 2^31 then
    (List.range patternLen).findRev? fun j => pPattern j != pSrc (u32 (i+j))
  else none

def bmBody (pSrc : Bytes) (srcLen : Nat) (pPattern : Bytes) (patternLen : Nat)
    (pBct : UInt8 → UInt8) (pGst : Bytes) (i : Nat) : Outcome Nat Int :=
  if i ≤ srcLen-patternLen then
    match bmMismatch pSrc pPattern patternLen i with
    | none => .done (toInt i)
    | some j =>
      let next := if j = patternLen-1 then pBct (pSrc (u32 (i+j))) else pGst (j+1)
      .next (u32 (i+next.toNat))
  else .done errPatNotExist

def SearchBM (pSrc : Bytes) (srcLen : Nat) (pPattern : Bytes) (patternLen : Nat)
    (pBct : UInt8 → UInt8) (pGst : Bytes) (result : Int) : Prop :=
  match checkLen srcLen patternLen with
  | some err => result = err
  | none => Returns (bmBody pSrc srcLen pPattern patternLen pBct pGst) 0 result

def sundayGenNextTable (pPattern : Bytes) (patternLen : Nat) : UInt8 → UInt8 :=
  (List.range patternLen).foldl
    (fun pNext i => Function.update pNext (pPattern i) (UInt8.ofNat (patternLen-i)))
    (fun _ => UInt8.ofNat (patternLen+1))

/-- The comparison loop carries `i` with it: past the end of the text a mismatch moves
`i` on by one and the comparison goes on from there. -/
def sundayMatch (pSrc : Bytes) (srcLen : Nat) (pPattern : Bytes) (patternLen : Nat)
    (pNext : UInt8 → UInt8) : Nat → Nat → Nat → Bool → Nat × Bool
  | 0,_,i,isMatched => (i,isMatched)
  | left+1,j,i,isMatched =>
    if pSrc (u32 (i+j)) ≠ pPattern j then
      if u32 (i+patternLen) < srcLen then (u32 (i+(pNext (pSrc (u32 (i+patternLen)))).toNat),false)
      else sundayMatch pSrc srcLen pPattern patternLen pNext left (j+1) (u32 (i+1)) false
    else sundayMatch pSrc srcLen pPattern patternLen pNext left (j+1) i isMatched

def sundayBody (pSrc : Bytes) (srcLen : Nat) (pPattern : Bytes) (patternLen : Nat)
    (pNext : UInt8 → UInt8) (i : Nat) : Outcome Nat Int :=
  if i ≤ srcLen-patternLen then
    match sundayMatch pSrc srcLen pPattern patternLen pNext patternLen 0 i true with
    | (after,true) => .done (toInt after)
    | (after,false) => .next after
  else .done errPatNotExist

def SearchSunday (pSrc : Bytes) (srcLen : Nat) (pPattern : Bytes) (patternLen : Nat)
    (pNext : UInt8 → UInt8) (result : Int) : Prop :=
  match checkLen srcLen patternLen with
  | some err => result = err
  | none => Returns (sundayBody pSrc srcLen pPattern patternLen pNext) 0 result

end MoCodes.Utils.Search
