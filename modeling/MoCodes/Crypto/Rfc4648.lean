import MoCodes.Lib.Bits
import MoCodes.Lib.Blocks

/-! The base 64 encoding of RFC 4648. The bits of the text are cut into groups of six, the
last of them filled up with zero bits, every group is one character of the alphabet, and
padding characters complete the last group of four. -/
namespace MoCodes.Crypto.Rfc4648
open MoCodes.Lib.Bits MoCodes.Lib.Blocks

def alphabet (n : Nat) : UInt8 :=
  UInt8.ofNat (if n < 26 then 65+n else if n < 52 then 97+(n-26) else if n < 62 then 48+(n-52)
    else if n = 62 then 43 else 47)

def padChar : UInt8 := 61

def value (bits : List Bool) : Nat := bits.foldl (fun n bit => 2*n+bit.toNat) 0

def sextets : List Bool → List Nat
  | b5::b4::b3::b2::b1::b0::rest => value [b5,b4,b3,b2,b1,b0]::sextets rest
  | [] => []
  | short => [value (short ++ List.replicate (6-short.length) false)]

def pad (symbols : List UInt8) : List UInt8 :=
  symbols ++ List.replicate ((4-symbols.length%4)%4) padChar

def encode (bytes : List UInt8) : List UInt8 := pad ((sextets (bitsOf bytes)).map alphabet)

def byteBits (byte : UInt8) : List Bool :=
  let bit := byte.toNat.testBit
  [bit 7,bit 6,bit 5,bit 4,bit 3,bit 2,bit 1,bit 0]

theorem bitsOf_byte (byte : UInt8) : bitsOf [byte] = byteBits byte := by
  have bits : (List.range 8).map (bitAt [byte]) =
      (List.range 8).map fun pos => byte.toNat.testBit (7-pos) := by
    apply List.map_congr_left
    intro pos inside
    have bound : pos < 8 := List.mem_range.mp inside
    rw [bitAt_testBit,Nat.div_eq_of_lt bound,Nat.mod_eq_of_lt bound]
    rfl
  exact bits

theorem bitsOf_cons (byte : UInt8) (bytes : List UInt8) :
    bitsOf (byte::bytes) = byteBits byte ++ bitsOf bytes := by
  rw [← bitsOf_byte,← bitsOf_append]
  rfl

theorem bitsOf_nil : bitsOf [] = [] := rfl

theorem byte_value (n : Nat) (small : n < 256) :
    n = 128*(n.testBit 7).toNat+64*(n.testBit 6).toNat+32*(n.testBit 5).toNat+
      16*(n.testBit 4).toNat+8*(n.testBit 3).toNat+4*(n.testBit 2).toNat+
      2*(n.testBit 1).toNat+(n.testBit 0).toNat := by
  revert n
  decide +kernel

/-- The parts of a byte that a group of six bits can take, as numbers. -/
theorem byte_parts (byte : UInt8) :
    ∃ b7 b6 b5 b4 b3 b2 b1 b0 : Bool, byteBits byte = [b7,b6,b5,b4,b3,b2,b1,b0] ∧
      32*b7.toNat+16*b6.toNat+8*b5.toNat+4*b4.toNat+2*b3.toNat+b2.toNat = byte.toNat/4 ∧
      2*b1.toNat+b0.toNat = byte.toNat%4 ∧
      8*b7.toNat+4*b6.toNat+2*b5.toNat+b4.toNat = byte.toNat/16 ∧
      8*b3.toNat+4*b2.toNat+2*b1.toNat+b0.toNat = byte.toNat%16 ∧
      2*b7.toNat+b6.toNat = byte.toNat/64 ∧
      32*b5.toNat+16*b4.toNat+8*b3.toNat+4*b2.toNat+2*b1.toNat+b0.toNat = byte.toNat%64 := by
  refine ⟨_,_,_,_,_,_,_,_,rfl,?_⟩
  have whole := byte_value byte.toNat byte.toNat_lt
  have small := fun n => Bool.toNat_le (byte.toNat.testBit n)
  have bit0 := small 0
  have bit1 := small 1
  have bit2 := small 2
  have bit3 := small 3
  have bit4 := small 4
  have bit5 := small 5
  have bit6 := small 6
  refine ⟨?_,?_,?_,?_,?_,?_⟩ <;> omega

theorem value_six (b5 b4 b3 b2 b1 b0 : Bool) :
    value [b5,b4,b3,b2,b1,b0] =
      32*b5.toNat+16*b4.toNat+8*b3.toNat+4*b2.toNat+2*b1.toNat+b0.toNat := by
  simp only [value,List.foldl_cons,List.foldl_nil]
  omega

theorem sextets_block (a b c : UInt8) (bytes : List UInt8) :
    sextets (bitsOf (a::b::c::bytes)) =
      a.toNat/4::(a.toNat%4*16+b.toNat/16)::(b.toNat%16*4+c.toNat/64)::c.toNat%64::
        sextets (bitsOf bytes) := by
  obtain ⟨a7,a6,a5,a4,a3,a2,a1,a0,aBits,aHigh,aLow,_⟩ := byte_parts a
  obtain ⟨b7,b6,b5,b4,b3,b2,b1,b0,bBits,_,_,bHigh,bLow,_⟩ := byte_parts b
  obtain ⟨c7,c6,c5,c4,c3,c2,c1,c0,cBits,_,_,_,_,cHigh,cLow⟩ := byte_parts c
  simp only [bitsOf_cons,aBits,bBits,cBits,List.cons_append,List.nil_append,sextets,value_six,
    aHigh,cLow,List.cons.injEq,true_and,and_true]
  exact ⟨by omega,by omega⟩

/-- One byte left: its last two bits begin a group that zero bits complete. -/
theorem sextets_one (a : UInt8) : sextets (bitsOf [a]) = [a.toNat/4,a.toNat%4*16] := by
  obtain ⟨a7,a6,a5,a4,a3,a2,a1,a0,aBits,aHigh,aLow,_⟩ := byte_parts a
  simp only [bitsOf_byte,aBits,sextets,value_six,aHigh,List.cons_append,List.nil_append,
    List.length_cons,List.length_nil,List.replicate,Bool.toNat_false,List.cons.injEq,true_and,and_true]
  omega

theorem sextets_two (a b : UInt8) :
    sextets (bitsOf [a,b]) = [a.toNat/4,a.toNat%4*16+b.toNat/16,b.toNat%16*4] := by
  obtain ⟨a7,a6,a5,a4,a3,a2,a1,a0,aBits,aHigh,aLow,_⟩ := byte_parts a
  obtain ⟨b7,b6,b5,b4,b3,b2,b1,b0,bBits,_,_,bHigh,bLow,_⟩ := byte_parts b
  simp only [bitsOf_cons,bitsOf_nil,aBits,bBits,sextets,value_six,aHigh,List.cons_append,
    List.nil_append,List.length_cons,List.length_nil,List.replicate,Bool.toNat_false,List.cons.injEq,
    true_and,and_true]
  exact ⟨by omega,by omega⟩

theorem pad_four (a b c d : UInt8) (symbols : List UInt8) :
    pad (a::b::c::d::symbols) = a::b::c::d::pad symbols := by
  have same : (symbols.length+1+1+1+1)%4 = symbols.length%4 := by omega
  simp only [pad,List.length_cons,List.cons_append,same]

theorem encode_block (a b c : UInt8) (bytes : List UInt8) :
    encode (a::b::c::bytes) = alphabet (a.toNat/4)::alphabet (a.toNat%4*16+b.toNat/16)::
      alphabet (b.toNat%16*4+c.toNat/64)::alphabet (c.toNat%64)::encode bytes := by
  simp only [encode,sextets_block,List.map_cons,pad_four]

theorem encode_nil : encode [] = [] := rfl

theorem encode_one (a : UInt8) :
    encode [a] = [alphabet (a.toNat/4),alphabet (a.toNat%4*16),padChar,padChar] := by
  simp [encode,sextets_one,pad]

theorem encode_two (a b : UInt8) :
    encode [a,b] = [alphabet (a.toNat/4),alphabet (a.toNat%4*16+b.toNat/16),
      alphabet (b.toNat%16*4),padChar] := by
  simp [encode,sextets_two,pad]

theorem encode_three_append {block : List UInt8} (full : block.length = 3) (bytes : List UInt8) :
    encode (block++bytes) = encode block ++ encode bytes := by
  match block,full with
  | [a,b,c],_ =>
    simp only [List.cons_append,List.nil_append,encode_block,encode_nil]

theorem encode_append {front : List UInt8} {count : Nat} (whole : front.length = count*3)
    (back : List UInt8) : encode (front++back) = encode front ++ encode back := by
  refine blocks_induction (P := fun _ front => encode (front++back) = encode front ++ encode back)
    ?_ ?_ count front whole
  · rfl
  · intro count first rest full _ ih
    rw [List.append_assoc,encode_three_append full,ih,encode_three_append full rest,List.append_assoc]

theorem encode_eq_mapBlocks {bytes : List UInt8} {count : Nat} (whole : bytes.length = count*3) :
    encode bytes = mapBlocks 3 count encode bytes := by
  refine blocks_induction (P := fun count bytes => encode bytes = mapBlocks 3 count encode bytes)
    ?_ ?_ count bytes whole
  · rfl
  · intro count first rest full _ ih
    rw [encode_three_append full,mapBlocks_succ full,ih]

theorem encode_three_length {block : List UInt8} (full : block.length = 3) :
    (encode block).length = 4 := by
  match block,full with
  | [a,b,c],_ => simp only [encode_block,encode_nil,List.length_cons,List.length_nil]

theorem encode_whole_length {bytes : List UInt8} {count : Nat} (whole : bytes.length = count*3) :
    (encode bytes).length = count*4 := by
  rw [encode_eq_mapBlocks whole]
  exact mapBlocks_length (fun _ full => encode_three_length full) whole

theorem encode_last_length {last : List UInt8} (some : last ≠ []) (short : last.length ≤ 3) :
    (encode last).length = 4 := by
  match last,some,short with
  | [a],_,_ => rw [encode_one]; rfl
  | [a,b],_,_ => rw [encode_two]; rfl
  | [a,b,c],_,_ => exact encode_three_length rfl

theorem encode_length (bytes : List UInt8) : (encode bytes).length = (bytes.length+2)/3*4 := by
  have whole : (bytes.take (bytes.length/3*3)).length = bytes.length/3*3 := by
    rw [List.length_take]
    omega
  have tail : (bytes.drop (bytes.length/3*3)).length = bytes.length%3 := by
    rw [List.length_drop]
    omega
  rw [← List.take_append_drop (bytes.length/3*3) bytes,encode_append whole,List.length_append,
    encode_whole_length whole,List.take_append_drop]
  rcases Nat.eq_zero_or_pos (bytes.length%3) with none | some
  · have last : bytes.drop (bytes.length/3*3) = [] := List.length_eq_zero_iff.mp (by omega)
    rw [last,encode_nil,List.length_nil]
    omega
  · have last : bytes.drop (bytes.length/3*3) ≠ [] := by
      intro nothing
      rw [nothing,List.length_nil] at tail
      omega
    rw [encode_last_length last (by omega)]
    omega

end MoCodes.Crypto.Rfc4648
