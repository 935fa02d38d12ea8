import MoCodes.Crypto.Rfc1321

/-! updateUnitStates and final of moCrypt_MD5.c with the macros of utils.h. Sums of words are
taken modulo 2^32, as they are when they are stored. -/
namespace MoCodes.Crypto.Md5
open MoCodes.Crypto

def rotateLeftShift (a s : UInt32) : UInt32 := (a <<< s) ||| (a >>> (32-s))

def F (X Y Z : UInt32) : UInt32 := (X &&& Y) ||| (~~~X &&& Z)

def G (X Y Z : UInt32) : UInt32 := (X &&& Z) ||| (Y &&& ~~~Z)

def H (X Y Z : UInt32) : UInt32 := X ^^^ Y ^^^ Z

def I (X Y Z : UInt32) : UInt32 := Y ^^^ (X ||| ~~~Z)

def FF (a b c d k s t : UInt32) : UInt32 := rotateLeftShift (a+(k+t+F b c d)) s + b

def GG (a b c d k s t : UInt32) : UInt32 := rotateLeftShift (a+(k+t+G b c d)) s + b

def HH (a b c d k s t : UInt32) : UInt32 := rotateLeftShift (a+(k+t+H b c d)) s + b

def II (a b c d k s t : UInt32) : UInt32 := rotateLeftShift (a+(k+t+I b c d)) s + b

def S11 : UInt32 := 7

def S12 : UInt32 := 12

def S13 : UInt32 := 17

def S14 : UInt32 := 22

def S21 : UInt32 := 5

def S22 : UInt32 := 9

def S23 : UInt32 := 14

def S24 : UInt32 := 20

def S31 : UInt32 := 4

def S32 : UInt32 := 11

def S33 : UInt32 := 16

def S34 : UInt32 := 23

def S41 : UInt32 := 6

def S42 : UInt32 := 10

def S43 : UInt32 := 15

def S44 : UInt32 := 21

/-- `state[0]` to `state[3]`. -/
structure STATES where
  a : UInt32
  b : UInt32
  c : UInt32
  d : UInt32

def initStates : STATES := ⟨0x67452301,0xefcdab89,0x98badcfe,0x10325476⟩

inductive Loop where
  | FF
  | GG
  | HH
  | II
  deriving DecidableEq

/-- The order of the four registers in a line; the line sets the first of them. -/
inductive Order where
  | abcd
  | dabc
  | cdab
  | bcda
  deriving DecidableEq

structure Line where
  loop : Loop
  order : Order
  k : Nat
  s : UInt32
  t : UInt32
  deriving DecidableEq

def Loop.run : Loop → UInt32 → UInt32 → UInt32 → UInt32 → UInt32 → UInt32 → UInt32 → UInt32
  | .FF => Md5.FF
  | .GG => Md5.GG
  | .HH => Md5.HH
  | .II => Md5.II

def Line.run (M : Nat → UInt32) (line : Line) (state : STATES) : STATES :=
  let set := fun a b c d => line.loop.run a b c d (M line.k) line.s line.t
  match line.order with
  | .abcd => { state with a := set state.a state.b state.c state.d }
  | .dabc => { state with d := set state.d state.a state.b state.c }
  | .cdab => { state with c := set state.c state.d state.a state.b }
  | .bcda => { state with b := set state.b state.c state.d state.a }

def lines : List Line := [
    ⟨.FF,.abcd,0,S11,0xd76aa478⟩,⟨.FF,.dabc,1,S12,0xe8c7b756⟩,
    ⟨.FF,.cdab,2,S13,0x242070db⟩,⟨.FF,.bcda,3,S14,0xc1bdceee⟩,
    ⟨.FF,.abcd,4,S11,0xf57c0faf⟩,⟨.FF,.dabc,5,S12,0x4787c62a⟩,
    ⟨.FF,.cdab,6,S13,0xa8304613⟩,⟨.FF,.bcda,7,S14,0xfd469501⟩,
    ⟨.FF,.abcd,8,S11,0x698098d8⟩,⟨.FF,.dabc,9,S12,0x8b44f7af⟩,
    ⟨.FF,.cdab,10,S13,0xffff5bb1⟩,⟨.FF,.bcda,11,S14,0x895cd7be⟩,
    ⟨.FF,.abcd,12,S11,0x6b901122⟩,⟨.FF,.dabc,13,S12,0xfd987193⟩,
    ⟨.FF,.cdab,14,S13,0xa679438e⟩,⟨.FF,.bcda,15,S14,0x49b40821⟩,
    ⟨.GG,.abcd,1,S21,0xf61e2562⟩,⟨.GG,.dabc,6,S22,0xc040b340⟩,
    ⟨.GG,.cdab,11,S23,0x265e5a51⟩,⟨.GG,.bcda,0,S24,0xe9b6c7aa⟩,
    ⟨.GG,.abcd,5,S21,0xd62f105d⟩,⟨.GG,.dabc,10,S22,0x02441453⟩,
    ⟨.GG,.cdab,15,S23,0xd8a1e681⟩,⟨.GG,.bcda,4,S24,0xe7d3fbc8⟩,
    ⟨.GG,.abcd,9,S21,0x21e1cde6⟩,⟨.GG,.dabc,14,S22,0xc33707d6⟩,
    ⟨.GG,.cdab,3,S23,0xf4d50d87⟩,⟨.GG,.bcda,8,S24,0x455a14ed⟩,
    ⟨.GG,.abcd,13,S21,0xa9e3e905⟩,⟨.GG,.dabc,2,S22,0xfcefa3f8⟩,
    ⟨.GG,.cdab,7,S23,0x676f02d9⟩,⟨.GG,.bcda,12,S24,0x8d2a4c8a⟩,
    ⟨.HH,.abcd,5,S31,0xfffa3942⟩,⟨.HH,.dabc,8,S32,0x8771f681⟩,
    ⟨.HH,.cdab,11,S33,0x6d9d6122⟩,⟨.HH,.bcda,14,S34,0xfde5380c⟩,
    ⟨.HH,.abcd,1,S31,0xa4beea44⟩,⟨.HH,.dabc,4,S32,0x4bdecfa9⟩,
    ⟨.HH,.cdab,7,S33,0xf6bb4b60⟩,⟨.HH,.bcda,10,S34,0xbebfbc70⟩,
    ⟨.HH,.abcd,13,S31,0x289b7ec6⟩,⟨.HH,.dabc,0,S32,0xeaa127fa⟩,
    ⟨.HH,.cdab,3,S33,0xd4ef3085⟩,⟨.HH,.bcda,6,S34,0x04881d05⟩,
    ⟨.HH,.abcd,9,S31,0xd9d4d039⟩,⟨.HH,.dabc,12,S32,0xe6db99e5⟩,
    ⟨.HH,.cdab,15,S33,0x1fa27cf8⟩,⟨.HH,.bcda,2,S34,0xc4ac5665⟩,
    ⟨.II,.abcd,0,S41,0xf4292244⟩,⟨.II,.dabc,7,S42,0x432aff97⟩,
    ⟨.II,.cdab,14,S43,0xab9423a7⟩,⟨.II,.bcda,5,S44,0xfc93a039⟩,
    ⟨.II,.abcd,12,S41,0x655b59c3⟩,⟨.II,.dabc,3,S42,0x8f0ccc92⟩,
    ⟨.II,.cdab,10,S43,0xffeff47d⟩,⟨.II,.bcda,1,S44,0x85845dd1⟩,
    ⟨.II,.abcd,8,S41,0x6fa87e4f⟩,⟨.II,.dabc,15,S42,0xfe2ce6e0⟩,
    ⟨.II,.cdab,6,S43,0xa3014314⟩,⟨.II,.bcda,13,S44,0x4e0811a1⟩,
    ⟨.II,.abcd,4,S41,0xf7537e82⟩,⟨.II,.dabc,11,S42,0xbd3af235⟩,
    ⟨.II,.cdab,2,S43,0x2ad7d2bb⟩,⟨.II,.bcda,9,S44,0xeb86d391⟩]

def unitWord (pStart : List UInt8) (i : Nat) : UInt32 :=
  ((pStart.getD (i*4+0) 0).toUInt32 <<< 0) + ((pStart.getD (i*4+1) 0).toUInt32 <<< 8) +
    ((pStart.getD (i*4+2) 0).toUInt32 <<< 16) + ((pStart.getD (i*4+3) 0).toUInt32 <<< 24)

def updateUnitStates (pStart : List UInt8) (pState : STATES) : STATES :=
  let last := lines.foldl (fun state line => line.run (unitWord pStart) state) pState
  ⟨pState.a+last.a,pState.b+last.b,pState.c+last.c,pState.d+last.d⟩

def STATES.state (pState : STATES) (i : Nat) : UInt32 :=
  match i with
  | 0 => pState.a
  | 1 => pState.b
  | 2 => pState.c
  | _ => pState.d

def final (pState : STATES) : List UInt8 :=
  (List.range 16).map fun i => (pState.state (i/4) >>> UInt32.ofNat (i%4*8)).toUInt8

theorem rotateLeftShift_rotate (a s : UInt32) (positive : 0 < s.toNat) (below : s.toNat < 32) :
    rotateLeftShift a s = Rfc1321.rotate a s.toNat := by
  apply UInt32.toBitVec_inj.mp
  have width : ((32 : UInt32)-s).toNat = 32-s.toNat := UInt32.toNat_sub_of_le _ _ (Nat.le_of_lt below)
  rw [rotateLeftShift,Rfc1321.rotate,UInt32.toBitVec_or,UInt32.toBitVec_shiftLeft,
    UInt32.toBitVec_shiftRight,BitVec.rotateLeft_def,BitVec.shiftLeft_eq',BitVec.ushiftRight_eq',
    BitVec.toNat_umod,BitVec.toNat_umod]
  congr 2
  rw [UInt32.toNat_toBitVec,width,Nat.mod_eq_of_lt below]
  have word : (32-s.toNat)%32 = 32-s.toNat := Nat.mod_eq_of_lt (by omega)
  exact word

theorem unitWord_word (pStart : List UInt8) (i : Nat) : unitWord pStart i = Rfc1321.word pStart i := by
  apply UInt32.toNat_inj.mp
  have b0 := (pStart.getD (i*4) 0).toNat_lt
  have b1 := (pStart.getD (i*4+1) 0).toNat_lt
  have b2 := (pStart.getD (i*4+2) 0).toNat_lt
  have b3 := (pStart.getD (i*4+3) 0).toNat_lt
  simp only [unitWord,Rfc1321.word,UInt32.toNat_add,UInt32.toNat_shiftLeft,UInt8.toNat_toUInt32,
    UInt32.toNat_ofNat',Nat.shiftLeft_eq,Nat.add_zero]
  simp
  omega

def loopOf (i : Nat) : Loop :=
  match i/16 with
  | 0 => .FF
  | 1 => .GG
  | 2 => .HH
  | _ => .II

def orderOf (i : Nat) : Order :=
  match i%4 with
  | 0 => .abcd
  | 1 => .dabc
  | 2 => .cdab
  | _ => .bcda

def lineOf (i : Nat) : Line :=
  ⟨loopOf i,orderOf i,Rfc1321.index i,UInt32.ofNat (Rfc1321.shift i),Rfc1321.T.getD i 0⟩

theorem lines_schedule : lines = (List.range 64).map lineOf := by decide +kernel

theorem shift_bounds (i : Nat) (inside : i < 64) : 0 < Rfc1321.shift i ∧ Rfc1321.shift i < 32 := by
  revert i
  decide

/-- The registers as a line with this order sees them. -/
def view (order : Order) (state : STATES) : Rfc1321.Buffer :=
  match order with
  | .abcd => ⟨state.a,state.b,state.c,state.d⟩
  | .dabc => ⟨state.d,state.a,state.b,state.c⟩
  | .cdab => ⟨state.c,state.d,state.a,state.b⟩
  | .bcda => ⟨state.b,state.c,state.d,state.a⟩

section Step

variable {s : UInt32} (positive : 0 < s.toNat) (below : s.toNat < 32)
include positive below

theorem operation_step (mixed : UInt32) (a b k t : UInt32) :
    rotateLeftShift (a+(k+t+mixed)) s + b = b + Rfc1321.rotate (a+mixed+k+t) s.toNat := by
  have sum : a+(k+t+mixed) = a+mixed+k+t := by ac_rfl
  rw [rotateLeftShift_rotate _ s positive below,sum,UInt32.add_comm]

theorem loop_step (i : Nat) (a b c d k t : UInt32) :
    (loopOf i).run a b c d k s t = b + Rfc1321.rotate (a + Rfc1321.auxiliary i b c d + k + t) s.toNat := by
  unfold loopOf Rfc1321.auxiliary
  generalize i/16 = loop
  match loop with
  | 0 => exact operation_step positive below (F b c d) a b k t
  | 1 => exact operation_step positive below (G b c d) a b k t
  | 2 => exact operation_step positive below (H b c d) a b k t
  | _+3 => exact operation_step positive below (I b c d) a b k t

end Step

/-- A line does on the registers in its order what a step does on the moved registers. -/
theorem line_step (M : Nat → UInt32) (state : STATES) {i : Nat} (inside : i < 64) :
    view (orderOf (i+1)) ((lineOf i).run M state) = Rfc1321.step M (view (orderOf i) state) i := by
  obtain ⟨positive,below⟩ := shift_bounds i inside
  have value : (UInt32.ofNat (Rfc1321.shift i)).toNat = Rfc1321.shift i :=
    Nat.mod_eq_of_lt (by omega)
  have run := fun a b c d => loop_step (value.symm ▸ positive) (value.symm ▸ below) i a b c d
    (M (Rfc1321.index i)) (Rfc1321.T.getD i 0)
  rw [value] at run
  have remainder : i%4 = 0 ∨ i%4 = 1 ∨ i%4 = 2 ∨ i%4 = 3 := by omega
  rcases remainder with order | order | order | order
  all_goals
    have next : (i+1)%4 = (i%4+1)%4 := by omega
    simp only [orderOf,lineOf,Line.run,view,Rfc1321.step,next,order,run]

theorem lines_steps (M : Nat → UInt32) (state : STATES) (n : Nat) (bound : n ≤ 64) :
    view (orderOf n) (((List.range n).map lineOf).foldl (fun state line => line.run M state) state) =
      (List.range n).foldl (Rfc1321.step M) (view (orderOf 0) state) := by
  induction n with
  | zero => rfl
  | succ n ih =>
    rw [List.range_succ,List.map_append,List.foldl_append,List.foldl_append,← ih (by omega)]
    exact line_step M _ bound

theorem updateUnitStates_compress (pStart : List UInt8) (pState : STATES) :
    view .abcd (updateUnitStates pStart pState) =
      Rfc1321.compress (Rfc1321.word pStart) (view .abcd pState) := by
  have steps := lines_steps (Rfc1321.word pStart) pState 64 (Nat.le_refl 64)
  have words : unitWord pStart = Rfc1321.word pStart := funext (unitWord_word pStart)
  have first : orderOf 0 = .abcd := rfl
  have last : orderOf 64 = .abcd := rfl
  rw [← lines_schedule,first,last] at steps
  rw [Rfc1321.compress,updateUnitStates,words,← steps]
  rfl

theorem shifted_byte (value : UInt32) {i : Nat} (inside : i < 4) :
    (value >>> UInt32.ofNat (i*8)).toUInt8 = UInt8.ofNat (value.toNat/256^i) := by
  apply UInt8.toNat_inj.mp
  have shift : (UInt32.ofNat (i*8)).toNat%32 = 8*i := by
    rw [UInt32.toNat_ofNat']
    omega
  rw [UInt32.toNat_toUInt8,UInt32.toNat_shiftRight,shift,Nat.shiftRight_eq_div_pow,Nat.pow_mul,
    UInt8.toNat_ofNat']

theorem final_output (pState : STATES) : final pState = Rfc1321.output (view .abcd pState) := by
  have bytes : ∀ value : UInt32, ((List.range 4).map fun i => (value >>> UInt32.ofNat (i*8)).toUInt8) =
      Rfc1321.lowBytes 4 value.toNat :=
    fun value => List.map_congr_left fun _ member => shifted_byte value (List.mem_range.mp member)
  have words : final pState = (List.range 4).flatMap fun j =>
      (List.range 4).map fun i => (pState.state j >>> UInt32.ofNat (i*8)).toUInt8 := rfl
  simp only [words,bytes,Rfc1321.output,List.append_assoc]
  rfl

end MoCodes.Crypto.Md5
