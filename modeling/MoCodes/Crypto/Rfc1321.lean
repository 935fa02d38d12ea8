import MoCodes.Lib.Blocks
import Mathlib.Algebra.Group.Nat.Defs

/-! The MD5 message digest of RFC 1321 on texts of whole bytes. The four registers are moved
on by one place at every step, so that every step is the same one but for its function, the
word it reads, its shift and its constant. -/
namespace MoCodes.Crypto.Rfc1321
open MoCodes.Lib.Blocks

def F (X Y Z : UInt32) : UInt32 := (X &&& Y) ||| (~~~X &&& Z)

def G (X Y Z : UInt32) : UInt32 := (X &&& Z) ||| (Y &&& ~~~Z)

def H (X Y Z : UInt32) : UInt32 := X ^^^ Y ^^^ Z

def I (X Y Z : UInt32) : UInt32 := Y ^^^ (X ||| ~~~Z)

/-- The integer part of 4294967296 times abs(sin(i+1)). -/
def T : List UInt32 := [
    0xd76aa478,0xe8c7b756,0x242070db,0xc1bdceee,0xf57c0faf,0x4787c62a,0xa8304613,0xfd469501,
    0x698098d8,0x8b44f7af,0xffff5bb1,0x895cd7be,0x6b901122,0xfd987193,0xa679438e,0x49b40821,
    0xf61e2562,0xc040b340,0x265e5a51,0xe9b6c7aa,0xd62f105d,0x02441453,0xd8a1e681,0xe7d3fbc8,
    0x21e1cde6,0xc33707d6,0xf4d50d87,0x455a14ed,0xa9e3e905,0xfcefa3f8,0x676f02d9,0x8d2a4c8a,
    0xfffa3942,0x8771f681,0x6d9d6122,0xfde5380c,0xa4beea44,0x4bdecfa9,0xf6bb4b60,0xbebfbc70,
    0x289b7ec6,0xeaa127fa,0xd4ef3085,0x04881d05,0xd9d4d039,0xe6db99e5,0x1fa27cf8,0xc4ac5665,
    0xf4292244,0x432aff97,0xab9423a7,0xfc93a039,0x655b59c3,0x8f0ccc92,0xffeff47d,0x85845dd1,
    0x6fa87e4f,0xfe2ce6e0,0xa3014314,0x4e0811a1,0xf7537e82,0xbd3af235,0x2ad7d2bb,0xeb86d391]

structure Buffer where
  A : UInt32
  B : UInt32
  C : UInt32
  D : UInt32
  deriving DecidableEq

def initial : Buffer := ⟨0x67452301,0xefcdab89,0x98badcfe,0x10325476⟩

def rotate (X : UInt32) (s : Nat) : UInt32 := ⟨X.toBitVec.rotateLeft s⟩

def auxiliary (i : Nat) : UInt32 → UInt32 → UInt32 → UInt32 :=
  match i/16 with
  | 0 => F
  | 1 => G
  | 2 => H
  | _ => I

def index (i : Nat) : Nat :=
  match i/16 with
  | 0 => i%16
  | 1 => (5*i+1)%16
  | 2 => (3*i+5)%16
  | _ => 7*i%16

def shift (i : Nat) : Nat :=
  (([[7,12,17,22],[5,9,14,20],[4,11,16,23],[6,10,15,21]].getD (i/16) []).getD (i%4) 0)

def step (X : Nat → UInt32) (buffer : Buffer) (i : Nat) : Buffer :=
  let sum := buffer.A + auxiliary i buffer.B buffer.C buffer.D + X (index i) + T.getD i 0
  ⟨buffer.D,buffer.B + rotate sum (shift i),buffer.B,buffer.C⟩

def compress (X : Nat → UInt32) (buffer : Buffer) : Buffer :=
  let last := (List.range 64).foldl (step X) buffer
  ⟨buffer.A+last.A,buffer.B+last.B,buffer.C+last.C,buffer.D+last.D⟩

/-- Word `k` of a block, its low-order byte first. -/
def word (block : List UInt8) (k : Nat) : UInt32 :=
  UInt32.ofNat ((block.getD (k*4) 0).toNat+256*(block.getD (k*4+1) 0).toNat+
    256^2*(block.getD (k*4+2) 0).toNat+256^3*(block.getD (k*4+3) 0).toNat)

/-- The `count` low-order bytes of a number, the lowest first. -/
def lowBytes (count n : Nat) : List UInt8 := (List.range count).map fun i => UInt8.ofNat (n/256^i)

/-- A bit 1 and zeros up to 8 bytes short of a whole block, then the length in bits. -/
def padding (length : Nat) : List UInt8 :=
  0x80::List.replicate ((119-length%64)%64) 0 ++ lowBytes 8 (8*length)

def blocks (text : List UInt8) : List (List UInt8) :=
  let padded := text ++ padding text.length
  cut 64 (padded.length/64) padded

def output (buffer : Buffer) : List UInt8 :=
  lowBytes 4 buffer.A.toNat ++ lowBytes 4 buffer.B.toNat ++ lowBytes 4 buffer.C.toNat ++
    lowBytes 4 buffer.D.toNat

def digest (text : List UInt8) : List UInt8 :=
  output ((blocks text).foldl (fun buffer block => compress (word block) buffer) initial)

example : digest "abc".toUTF8.toList = [0x90,0x01,0x50,0x98,0x3c,0xd2,0x4f,0xb0,0xd6,0x96,0x3f,0x7d,
    0x28,0xe1,0x7f,0x72] := by
  decide +kernel

theorem lowBytes_length (count n : Nat) : (lowBytes count n).length = count := by
  simp [lowBytes]

theorem lowBytes_mod (count n : Nat) : lowBytes count (n%256^count) = lowBytes count n := by
  apply List.map_congr_left
  intro i member
  have split : 256^count = 256^i*256^(count-i) := by
    rw [← Nat.pow_add,Nat.add_sub_cancel' (Nat.le_of_lt (List.mem_range.mp member))]
  have more : 256^1 ∣ 256^(count-i) :=
    Nat.pow_dvd_pow 256 (Nat.sub_pos_of_lt (List.mem_range.mp member))
  apply UInt8.toNat_inj.mp
  rw [UInt8.toNat_ofNat',UInt8.toNat_ofNat',split,Nat.mod_mul_right_div_self]
  exact Nat.mod_mod_of_dvd _ more

theorem lowBytes_inj {count n m : Nat} (small : n < 256^count) (bound : m < 256^count)
    (same : lowBytes count n = lowBytes count m) : n = m := by
  induction count generalizing n m with
  | zero => omega
  | succ count ih =>
    have digits : ∀ n, lowBytes (count+1) n = UInt8.ofNat n::lowBytes count (n/256) := by
      intro n
      simp only [lowBytes,List.range_succ_eq_map,List.map_cons,List.map_map,Nat.pow_zero,Nat.div_one]
      congr 1
      apply List.map_congr_left
      intro i _
      rw [Function.comp_apply,Nat.succ_eq_add_one,Nat.pow_succ',Nat.div_div_eq_div_mul]
    rw [digits,digits,List.cons.injEq] at same
    have low := congrArg UInt8.toNat same.1
    rw [UInt8.toNat_ofNat',UInt8.toNat_ofNat'] at low
    rw [Nat.pow_succ] at small bound
    have high := ih (by omega) (by omega) same.2
    omega

theorem padding_length (length : Nat) :
    (padding length).length = 9+(119-length%64)%64 := by
  simp only [padding,List.length_append,List.length_cons,List.length_replicate,lowBytes_length]
  omega

/-- Whole blocks are blocks of the text, what is left of it is padded. -/
theorem cut_padded {count : Nat} {front : List UInt8} (whole : front.length = count*64)
    (last pad : List UInt8) :
    cut 64 (((front++last)++pad).length/64) ((front++last)++pad) =
      cut 64 count front ++ cut 64 ((last.length+pad.length)/64) (last++pad) := by
  have counted : ((front++last)++pad).length/64 = count+(last.length+pad.length)/64 := by
    rw [List.length_append,List.length_append,whole]
    omega
  rw [counted,List.append_assoc,cut_append _ _ whole]

end MoCodes.Crypto.Rfc1321
