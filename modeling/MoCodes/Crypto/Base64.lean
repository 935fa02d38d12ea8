import MoCodes.Crypto.MoCrypt
import MoCodes.Crypto.Rfc4648

/-! moCrypt_BASE64_Chars of moCrypt_BASE64.c. A buffer is given with its length, buffers
for the result can be allocated, and block numbers times block sizes stay below 2^32,
so the indexes of the loops are plain numbers. -/
namespace MoCodes.Crypto.Base64
open MoCodes.Lib.Bits MoCodes.Lib.Blocks MoCodes.Crypto.Rfc4648

def encryptBlockSize : Nat := 3

def decryptBlockSize : Nat := 4

def symb (c : Char) : UInt8 := UInt8.ofNat c.toNat

def paddingSymb : UInt8 := symb '='

def gMap : List UInt8 :=
  ['A','B','C','D','E','F','G','H',
   'I','J','K','L','M','N','O','P',
   'Q','R','S','T','U','V','W','X',
   'Y','Z','a','b','c','d','e','f',
   'g','h','i','j','k','l','m','n',
   'o','p','q','r','s','t','u','v',
   'w','x','y','z','0','1','2','3',
   '4','5','6','7','8','9','+','/'].map symb

def convertFromNumToBase64Symbol (num : UInt8) : UInt8 := gMap.getD num.toNat 0

def convertFromBase64SymbolTonum (num : UInt8) : UInt8 :=
  if symb 'A' ≤ num ∧ num ≤ symb 'Z' then num-symb 'A'
  else if symb 'a' ≤ num ∧ num ≤ symb 'z' then num-symb 'a'+26
  else if symb '0' ≤ num ∧ num ≤ symb '9' then num-symb '0'+52
  else if num = symb '+' then 62
  else 63

/-- The four symbols for the three bytes at `pos`. -/
def encryptBlock (src : List UInt8) (pos : Nat) : List UInt8 :=
  let byte := fun k => src.getD (pos+k) 0
  [convertFromNumToBase64Symbol ((byte 0 &&& 0xfc) >>> 2),
    convertFromNumToBase64Symbol (((byte 0 &&& 0x03) <<< 4) ||| ((byte 1 &&& 0xf0) >>> 4)),
    convertFromNumToBase64Symbol (((byte 1 &&& 0x0f) <<< 2) ||| ((byte 2 &&& 0xc0) >>> 6)),
    convertFromNumToBase64Symbol (byte 2 &&& 0x3f)]

def encryptLastBlock (src : List UInt8) (pos lastBlockBytes : Nat) : List UInt8 :=
  let byte := fun k => src.getD (pos+k) 0
  match lastBlockBytes with
  | 1 => [convertFromNumToBase64Symbol ((byte 0 &&& 0xfc) >>> 2),
      convertFromNumToBase64Symbol ((byte 0 &&& 0x03) <<< 4),paddingSymb,paddingSymb]
  | 2 => [convertFromNumToBase64Symbol ((byte 0 &&& 0xfc) >>> 2),
      convertFromNumToBase64Symbol (((byte 0 &&& 0x03) <<< 4) ||| ((byte 1 &&& 0xf0) >>> 4)),
      convertFromNumToBase64Symbol ((byte 1 &&& 0x0f) <<< 2),paddingSymb]
  | _ => []

/-- The result with what is written to `pDstLen`. -/
def encryptChars (src : List UInt8) (srcLen : Nat) : List UInt8 × Nat :=
  let completeBlockNum := srcLen/encryptBlockSize
  let lastBlockBytes := srcLen%encryptBlockSize
  let allBlockNum := if lastBlockBytes ≠ 0 then completeBlockNum+1 else completeBlockNum
  (((List.range completeBlockNum).flatMap fun curBlk => encryptBlock src (curBlk*encryptBlockSize)) ++
    encryptLastBlock src (completeBlockNum*encryptBlockSize) lastBlockBytes,
    allBlockNum*decryptBlockSize%2^32)

/-- The symbol `i` places before the end, at an index that wraps as unsigned numbers do. -/
def fromEnd (src : List UInt8) (srcLen i : Nat) : UInt8 := src.getD ((srcLen+2^32-1-i)%2^32) 0

def padSymbNum (src : List UInt8) (srcLen : Nat) : Nat :=
  if fromEnd src srcLen 0 = paddingSymb then
    if fromEnd src srcLen 1 = paddingSymb then 2 else 1
  else 0

def decryptBlock (src : List UInt8) (pos : Nat) : List UInt8 :=
  let var := fun k => convertFromBase64SymbolTonum (src.getD (pos+k) 0)
  [((var 0 &&& 0x3f) <<< 2) ||| ((var 1 &&& 0x30) >>> 4),
    ((var 1 &&& 0x0f) <<< 4) ||| ((var 2 &&& 0x3c) >>> 2),
    ((var 2 &&& 0x03) <<< 6) ||| ((var 3 &&& 0x3f) >>> 0)]

def decryptLastBlock (src : List UInt8) (pos lastBlockBytes : Nat) : List UInt8 :=
  let var := fun k => convertFromBase64SymbolTonum (src.getD (pos+k) 0)
  match lastBlockBytes with
  | 1 => [((var 0 &&& 0x3f) <<< 2) ||| ((var 1 &&& 0x30) >>> 4)]
  | 2 => [((var 0 &&& 0x3f) <<< 2) ||| ((var 1 &&& 0x30) >>> 4),
      ((var 1 &&& 0x0f) <<< 4) ||| ((var 2 &&& 0x3c) >>> 2)]
  | _ => []

/-- NULL where the size asked of malloc is negative. -/
def decryptChars (src : List UInt8) (srcLen : Nat) : Option (List UInt8 × Nat) :=
  let padSymbNum := padSymbNum src srcLen
  let blockNum : Int := srcLen/decryptBlockSize
  let completeBlockNum := if padSymbNum = 0 then blockNum else blockNum-1
  let lastBlockBytes : Nat := match padSymbNum with
    | 1 => 2
    | 2 => 1
    | _ => 0
  let size := completeBlockNum*encryptBlockSize+lastBlockBytes
  if size < 0 then none
  else
    let count := completeBlockNum.toNat
    some (((List.range count).flatMap fun blkCnt => decryptBlock src (blkCnt*decryptBlockSize)) ++
      decryptLastBlock src (count*decryptBlockSize) lastBlockBytes,size.toNat)

def moCrypt_BASE64_Chars (method : MOCRYPT_METHOD) (src : Option (List UInt8)) (srcLen : Nat) :
    Option (List UInt8 × Nat) :=
  match src with
  | none => none
  | some src =>
    if srcLen = 0 then none
    else match method with
      | .encrypt => some (encryptChars src srcLen)
      | .decrypt => decryptChars src srcLen

theorem symbol_alphabet (num : UInt8) (small : num.toNat < 64) :
    convertFromNumToBase64Symbol num = alphabet num.toNat := by
  have all : ∀ n, n < 64 → gMap.getD n 0 = alphabet n := by decide +kernel
  exact all num.toNat small

theorem num_alphabet {n : Nat} (small : n < 64) :
    (convertFromBase64SymbolTonum (alphabet n)).toNat = n := by
  revert n
  decide +kernel

theorem alphabet_ne_padding {n : Nat} (small : n < 64) : alphabet n ≠ paddingSymb := by
  revert n
  decide +kernel

/-- Fields that do not overlap are put together by `|`. -/
theorem or_fields {first second : UInt8} {k n : Nat} (upper : first.toNat = 2^k*n)
    (lower : second.toNat < 2^k) : (first ||| second).toNat = 2^k*n+second.toNat := by
  rw [UInt8.toNat_or,upper,Nat.two_pow_add_eq_or_of_lt lower]

section Fields

variable (byte : UInt8)

theorem field_down {mask shift : UInt8} (k : Nat) (ones : mask.toNat >>> (shift.toNat%8) = 2^k-1) :
    ((byte &&& mask) >>> shift).toNat = byte.toNat/2^(shift.toNat%8)%2^k := by
  rw [UInt8.toNat_shiftRight,UInt8.toNat_and,Nat.shiftRight_and_distrib,ones,
    Nat.and_two_pow_sub_one_eq_mod,Nat.shiftRight_eq_div_pow]

theorem field_up {mask shift : UInt8} (k : Nat) (ones : mask.toNat = 2^k-1)
    (room : k+shift.toNat%8 ≤ 8) :
    ((byte &&& mask) <<< shift).toNat = 2^(shift.toNat%8)*(byte.toNat%2^k) := by
  have low : byte.toNat%2^k < 2^k := Nat.mod_lt _ (Nat.two_pow_pos k)
  have bound : byte.toNat%2^k*2^(shift.toNat%8) < 2^8 := by
    calc byte.toNat%2^k*2^(shift.toNat%8)
        < 2^k*2^(shift.toNat%8) := Nat.mul_lt_mul_of_pos_right low (Nat.two_pow_pos _)
      _ = 2^(k+shift.toNat%8) := (Nat.pow_add 2 k _).symm
      _ ≤ 2^8 := Nat.pow_le_pow_right (by omega) room
  rw [UInt8.toNat_shiftLeft,UInt8.toNat_and,ones,Nat.and_two_pow_sub_one_eq_mod,Nat.shiftLeft_eq,
    Nat.mod_eq_of_lt bound,Nat.mul_comm]

theorem high6 : ((byte &&& 0xfc) >>> 2).toNat = byte.toNat/4 := by
  have bound := byte.toNat_lt
  have field : ((byte &&& 0xfc) >>> 2).toNat = byte.toNat/2^2%2^6 := field_down byte 6 rfl
  omega

theorem low2 : ((byte &&& 0x03) <<< 4).toNat = 2^4*(byte.toNat%4) :=
  field_up byte 2 rfl (by decide)

theorem high4 : ((byte &&& 0xf0) >>> 4).toNat = byte.toNat/16 := by
  have bound := byte.toNat_lt
  have field : ((byte &&& 0xf0) >>> 4).toNat = byte.toNat/2^4%2^4 := field_down byte 4 rfl
  omega

theorem low4 : ((byte &&& 0x0f) <<< 2).toNat = 2^2*(byte.toNat%16) :=
  field_up byte 4 rfl (by decide)

theorem high2 : ((byte &&& 0xc0) >>> 6).toNat = byte.toNat/64 := by
  have bound := byte.toNat_lt
  have field : ((byte &&& 0xc0) >>> 6).toNat = byte.toNat/2^6%2^2 := field_down byte 2 rfl
  omega

theorem low6 : (byte &&& 0x3f).toNat = byte.toNat%64 := by
  rw [UInt8.toNat_and]
  exact Nat.and_two_pow_sub_one_eq_mod byte.toNat 6

theorem num_all : ((byte &&& 0x3f) <<< 2).toNat = 2^2*(byte.toNat%64) :=
  field_up byte 6 rfl (by decide)

theorem num_high2 : ((byte &&& 0x30) >>> 4).toNat = byte.toNat/16%4 := field_down byte 2 rfl

theorem num_low4 : ((byte &&& 0x0f) <<< 4).toNat = 2^4*(byte.toNat%16) :=
  field_up byte 4 rfl (by decide)

theorem num_high4 : ((byte &&& 0x3c) >>> 2).toNat = byte.toNat/4%16 := field_down byte 4 rfl

theorem num_low2 : ((byte &&& 0x03) <<< 6).toNat = 2^6*(byte.toNat%4) :=
  field_up byte 2 rfl (by decide)

theorem num_low6 : ((byte &&& 0x3f) >>> 0).toNat = byte.toNat%64 := by
  have field : ((byte &&& 0x3f) >>> 0).toNat = byte.toNat/2^0%2^6 := field_down byte 6 rfl
  omega

end Fields

section EncryptBlock

variable (a b c : UInt8)

theorem first_symbol : convertFromNumToBase64Symbol ((a &&& 0xfc) >>> 2) = alphabet (a.toNat/4) := by
  have bound := a.toNat_lt
  rw [symbol_alphabet _ (by rw [high6]; omega),high6]

theorem second_symbol :
    convertFromNumToBase64Symbol (((a &&& 0x03) <<< 4) ||| ((b &&& 0xf0) >>> 4)) =
      alphabet (a.toNat%4*16+b.toNat/16) := by
  have bound := b.toNat_lt
  have sum := or_fields (low2 a) (by rw [high4 b]; omega)
  rw [symbol_alphabet _ (by rw [sum,high4]; omega),sum,high4]
  congr 1
  omega

theorem third_symbol :
    convertFromNumToBase64Symbol (((b &&& 0x0f) <<< 2) ||| ((c &&& 0xc0) >>> 6)) =
      alphabet (b.toNat%16*4+c.toNat/64) := by
  have bound := c.toNat_lt
  have sum := or_fields (low4 b) (by rw [high2 c]; omega)
  rw [symbol_alphabet _ (by rw [sum,high2]; omega),sum,high2]
  congr 1
  omega

theorem fourth_symbol : convertFromNumToBase64Symbol (c &&& 0x3f) = alphabet (c.toNat%64) := by
  rw [symbol_alphabet _ (by rw [low6]; omega),low6]

theorem second_symbol_last :
    convertFromNumToBase64Symbol ((a &&& 0x03) <<< 4) = alphabet (a.toNat%4*16) := by
  rw [symbol_alphabet _ (by rw [low2]; omega),low2,Nat.mul_comm]
  rfl

theorem third_symbol_last :
    convertFromNumToBase64Symbol ((b &&& 0x0f) <<< 2) = alphabet (b.toNat%16*4) := by
  rw [symbol_alphabet _ (by rw [low4]; omega),low4,Nat.mul_comm]
  rfl

theorem encryptBlock_encode {block : List UInt8} (full : block.length = encryptBlockSize) :
    encryptBlock block 0 = encode block := by
  match block,full with
  | [a,b,c],_ =>
    simp only [encryptBlock,Nat.zero_add,List.getD_cons_zero,List.getD_cons_succ,first_symbol,
      second_symbol,third_symbol,fourth_symbol,encode_block,encode_nil]

theorem encryptLastBlock_encode {last : List UInt8} (short : last.length < encryptBlockSize) :
    encryptLastBlock last 0 last.length = encode last := by
  match last,short with
  | [],_ => rfl
  | [a],_ =>
    simp only [encryptLastBlock,List.length_singleton,Nat.zero_add,List.getD_cons_zero,first_symbol,
      second_symbol_last,encode_one]
    rfl
  | [a,b],_ =>
    simp only [encryptLastBlock,List.length_cons,List.length_nil,Nat.zero_add,List.getD_cons_zero,
      List.getD_cons_succ,first_symbol,second_symbol,third_symbol_last,encode_two]
    rfl

end EncryptBlock

theorem encryptBlocks_encode {src : List UInt8} {count : Nat}
    (inside : count*encryptBlockSize ≤ src.length) :
    ((List.range count).flatMap fun curBlk => encryptBlock src (curBlk*encryptBlockSize)) =
      mapBlocks encryptBlockSize count encode src := by
  apply flatMap_blocks
  intro i bound
  have reached : (i+1)*encryptBlockSize ≤ src.length :=
    Nat.le_trans (Nat.mul_le_mul_right _ bound) inside
  rw [← encryptBlock_encode (blockAt_length reached)]
  simp only [encryptBlock,Nat.zero_add,getD_blockAt _ _ (by decide : 0 < encryptBlockSize),
    getD_blockAt _ _ (by decide : 1 < encryptBlockSize),
    getD_blockAt _ _ (by decide : 2 < encryptBlockSize)]

theorem encryptLastBlock_drop (src : List UInt8) (pos lastBlockBytes : Nat) :
    encryptLastBlock src pos lastBlockBytes = encryptLastBlock (src.drop pos) 0 lastBlockBytes := by
  simp only [encryptLastBlock,List.getD_eq_getElem?_getD,List.getElem?_drop,Nat.zero_add]

/-- Encryption is the standard's encoding, for every text. -/
theorem encryptChars_encode (src : List UInt8) :
    encryptChars src src.length = (encode src,(encode src).length%2^32) := by
  obtain ⟨count,front,last,rfl,whole,short⟩ := blocks_split (by decide : 0 < encryptBlockSize) src
  have size : encryptBlockSize = 3 := rfl
  have completeBlockNum : (front++last).length/encryptBlockSize = count := by
    rw [List.length_append,whole,size]
    omega
  have lastBlockBytes : (front++last).length%encryptBlockSize = last.length := by
    rw [List.length_append,whole,size]
    omega
  have allBlockNum : (if last.length ≠ 0 then count+1 else count)*decryptBlockSize =
      (encode (front++last)).length := by
    rw [encode_length,List.length_append,whole,size]
    split <;> simp only [decryptBlockSize] <;> omega
  have blocks := mapBlocks_append encode 0 last whole
  have encoded : mapBlocks encryptBlockSize count encode front = encode front :=
    (encode_eq_mapBlocks whole).symm
  rw [Nat.add_zero,mapBlocks_zero,List.append_nil,encoded] at blocks
  have inside : count*encryptBlockSize ≤ (front++last).length := by
    rw [List.length_append,whole]
    omega
  simp only [encryptChars,completeBlockNum,lastBlockBytes,allBlockNum]
  rw [encryptBlocks_encode inside,blocks,encryptLastBlock_drop,List.drop_left' whole,
    encryptLastBlock_encode short,encode_append whole]

section DecryptBlock

variable (a b c : UInt8)

theorem first_byte {x y : UInt8} (first : x.toNat = a.toNat/4)
    (second : y.toNat = a.toNat%4*16+b.toNat/16) :
    ((x &&& 0x3f) <<< 2) ||| ((y &&& 0x30) >>> 4) = a := by
  have aBound := a.toNat_lt
  have bBound := b.toNat_lt
  apply UInt8.toNat_inj.mp
  rw [or_fields (num_all x) (by rw [num_high2]; omega),num_high2,first,second]
  omega

theorem second_byte {y z : UInt8} (second : y.toNat = a.toNat%4*16+b.toNat/16)
    (third : z.toNat = b.toNat%16*4+c.toNat/64) :
    ((y &&& 0x0f) <<< 4) ||| ((z &&& 0x3c) >>> 2) = b := by
  have bBound := b.toNat_lt
  have cBound := c.toNat_lt
  apply UInt8.toNat_inj.mp
  rw [or_fields (num_low4 y) (by rw [num_high4]; omega),num_high4,second,third]
  omega

theorem third_byte {z w : UInt8} (third : z.toNat = b.toNat%16*4+c.toNat/64)
    (fourth : w.toNat = c.toNat%64) : ((z &&& 0x03) <<< 6) ||| ((w &&& 0x3f) >>> 0) = c := by
  have cBound := c.toNat_lt
  apply UInt8.toNat_inj.mp
  rw [or_fields (num_low2 z) (by rw [num_low6]; omega),num_low6,third,fourth]
  omega

end DecryptBlock

theorem decryptBlock_encode {block : List UInt8} (full : block.length = encryptBlockSize) :
    decryptBlock (encode block) 0 = block := by
  match block,full with
  | [a,b,c],_ =>
    have aBound := a.toNat_lt
    have bBound := b.toNat_lt
    have cBound := c.toNat_lt
    have first := num_alphabet (n := a.toNat/4) (by omega)
    have second := num_alphabet (n := a.toNat%4*16+b.toNat/16) (by omega)
    have third := num_alphabet (n := b.toNat%16*4+c.toNat/64) (by omega)
    have fourth := num_alphabet (n := c.toNat%64) (by omega)
    simp only [decryptBlock,encode_block,Nat.zero_add,List.getD_cons_zero,List.getD_cons_succ,
      first_byte a b first second,second_byte a b c second third,third_byte b c third fourth]

theorem decryptLastBlock_one (a : UInt8) : decryptLastBlock (encode [a]) 0 1 = [a] := by
  have aBound := a.toNat_lt
  have first := num_alphabet (n := a.toNat/4) (by omega)
  have second := num_alphabet (n := a.toNat%4*16) (by omega)
  simp only [decryptLastBlock,encode_one,Nat.zero_add,List.getD_cons_zero,List.getD_cons_succ,
    first_byte a 0 first second]

theorem decryptLastBlock_two (a b : UInt8) : decryptLastBlock (encode [a,b]) 0 2 = [a,b] := by
  have aBound := a.toNat_lt
  have bBound := b.toNat_lt
  have first := num_alphabet (n := a.toNat/4) (by omega)
  have second := num_alphabet (n := a.toNat%4*16+b.toNat/16) (by omega)
  have third := num_alphabet (n := b.toNat%16*4) (by omega)
  simp only [decryptLastBlock,encode_two,Nat.zero_add,List.getD_cons_zero,List.getD_cons_succ,
    first_byte a b first second,second_byte a b 0 second third]

theorem decryptBlocks_encode {front : List UInt8} {count : Nat}
    (whole : front.length = count*encryptBlockSize) (back : List UInt8) :
    ((List.range count).flatMap fun blkCnt =>
      decryptBlock (encode front ++ back) (blkCnt*decryptBlockSize)) = front := by
  have length : (encode front).length = count*decryptBlockSize := encode_whole_length whole
  have encoded : encode front = mapBlocks encryptBlockSize count encode front :=
    encode_eq_mapBlocks whole
  have blocks := mapBlocks_append (decryptBlock · 0) 0 back length
  rw [Nat.add_zero,mapBlocks_zero,List.append_nil] at blocks
  have passes : ((List.range count).flatMap fun blkCnt =>
      decryptBlock (encode front ++ back) (blkCnt*decryptBlockSize)) =
      mapBlocks decryptBlockSize count (decryptBlock · 0) (encode front ++ back) := by
    apply flatMap_blocks
    intro i _
    simp only [decryptBlock,Nat.zero_add,getD_blockAt _ _ (by decide : 0 < decryptBlockSize),
      getD_blockAt _ _ (by decide : 1 < decryptBlockSize),
      getD_blockAt _ _ (by decide : 2 < decryptBlockSize),
      getD_blockAt _ _ (by decide : 3 < decryptBlockSize)]
  rw [passes,blocks,encoded]
  exact mapBlocks_inverse (fun _ full => encode_three_length full)
    (fun _ full => decryptBlock_encode full) whole

theorem decryptLastBlock_drop (src : List UInt8) (pos lastBlockBytes : Nat) :
    decryptLastBlock src pos lastBlockBytes = decryptLastBlock (src.drop pos) 0 lastBlockBytes := by
  simp only [decryptLastBlock,List.getD_eq_getElem?_getD,List.getElem?_drop,Nat.zero_add]

theorem fromEnd_last {front last : List UInt8} (group : last.length = 4)
    (small : front.length+4 < 2^32) {k : Nat} (inside : k < 4) :
    fromEnd (front++last) (front++last).length k = last.getD (3-k) 0 := by
  have index : ((front++last).length+2^32-1-k)%2^32 = front.length+(3-k) := by
    rw [List.length_append,group]
    omega
  rw [fromEnd,index,List.getD_append_right _ _ _ _ (Nat.le_add_right _ _),Nat.add_sub_cancel_left]

theorem padSymbNum_encode {front last : List UInt8} (small : front.length+4 < 2^32) (some : last ≠ [])
    (short : last.length ≤ encryptBlockSize) :
    padSymbNum (front ++ encode last) (front ++ encode last).length = encryptBlockSize-last.length := by
  have group := encode_last_length some short
  rw [padSymbNum,fromEnd_last group small (by decide),fromEnd_last group small (by decide)]
  match last,some,short with
  | [a],_,_ =>
    rw [encode_one]
    rfl
  | [a,b],_,_ =>
    have bBound := b.toNat_lt
    have third := alphabet_ne_padding (n := b.toNat%16*4) (by omega)
    rw [encode_two]
    simp only [List.getD_cons_succ,List.getD_cons_zero,third,if_false]
    rfl
  | [a,b,c],_,_ =>
    have fourth := alphabet_ne_padding (n := c.toNat%64) (by omega)
    rw [encode_block,encode_nil]
    simp only [List.getD_cons_succ,List.getD_cons_zero,fourth,if_false]
    rfl

/-- The two ways through the routine: all blocks complete, or a last block of one or two bytes. -/
theorem decryptChars_result {src : List UInt8} {count pads : Nat}
    (length : src.length = (count+1)*decryptBlockSize) (padded : padSymbNum src src.length = pads)
    (bound : pads ≤ 2) :
    decryptChars src src.length =
      if pads = 0 then
        some ((List.range (count+1)).flatMap fun blkCnt => decryptBlock src (blkCnt*decryptBlockSize),
          (count+1)*encryptBlockSize)
      else
        some (((List.range count).flatMap fun blkCnt => decryptBlock src (blkCnt*decryptBlockSize)) ++
          decryptLastBlock (src.drop (count*decryptBlockSize)) 0 (encryptBlockSize-pads),
          count*encryptBlockSize+(encryptBlockSize-pads)) := by
  have blockNum : (src.length : Int)/decryptBlockSize = count+1 := by
    rw [length,decryptBlockSize]
    omega
  have before : (count : Int)+1-1 = count := by omega
  simp only [decryptChars,padded,blockNum,before]
  match pads,bound with
  | 0,_ =>
    have size : (((count : Int)+1)*encryptBlockSize+(0 : Nat)) = ((count+1)*encryptBlockSize : Nat) := by
      rw [Nat.cast_mul,Nat.cast_succ,Nat.cast_zero,Int.add_zero]
    have whole : ((count : Int)+1).toNat = count+1 := by omega
    simp only [if_true,size,Int.toNat_natCast,whole,decryptLastBlock,List.append_nil]
    rw [if_neg (by omega)]
  | 1,_ =>
    have size : ((count : Int)*encryptBlockSize+(2 : Nat)) = (count*encryptBlockSize+2 : Nat) := by
      rw [Nat.cast_add,Nat.cast_mul]
    simp only [if_neg Nat.one_ne_zero,size,Int.toNat_natCast]
    rw [if_neg (by omega),decryptLastBlock_drop]
    rfl
  | 2,_ =>
    have size : ((count : Int)*encryptBlockSize+(1 : Nat)) = (count*encryptBlockSize+1 : Nat) := by
      rw [Nat.cast_add,Nat.cast_mul]
    simp only [if_neg (by decide : ¬2 = 0),size,Int.toNat_natCast]
    rw [if_neg (by omega),decryptLastBlock_drop]
    rfl

theorem decryptChars_encode {src : List UInt8} (some : src ≠ [])
    (small : (encode src).length < 2^32) :
    decryptChars (encode src) (encode src).length = .some (src,src.length) := by
  obtain ⟨count,front,last,rfl,whole,more,short⟩ :=
    blocks_split_last (by decide : 0 < encryptBlockSize) some
  have front4 : (encode front).length = count*decryptBlockSize := encode_whole_length whole
  have group : (encode last).length = decryptBlockSize := encode_last_length more short
  rw [encode_append whole] at small ⊢
  rw [List.length_append,group] at small
  have pads := padSymbNum_encode small more short
  have length : (encode front ++ encode last).length = (count+1)*decryptBlockSize := by
    rw [List.length_append,group,front4,Nat.succ_mul]
  have bound : encryptBlockSize-last.length ≤ 2 := by
    have positive := List.length_pos_of_ne_nil more
    simp only [encryptBlockSize]
    omega
  rw [decryptChars_result length pads bound,List.drop_left' front4,decryptBlocks_encode whole]
  clear pads length
  match last,more,short with
  | [a],_,_ =>
    have one : encryptBlockSize-[a].length = 2 := rfl
    have rest : encryptBlockSize-2 = 1 := rfl
    rw [one,if_neg (by decide),rest,decryptLastBlock_one,List.length_append,whole,List.length_singleton]
  | [a,b],_,_ =>
    have two : encryptBlockSize-[a,b].length = 1 := rfl
    have rest : encryptBlockSize-1 = 2 := rfl
    rw [two,if_neg (by decide),rest,decryptLastBlock_two,List.length_append,whole,List.length_cons,
      List.length_singleton]
  | [a,b,c],_,_ =>
    have none : encryptBlockSize-[a,b,c].length = 0 := rfl
    have all : (front++[a,b,c]).length = (count+1)*encryptBlockSize := by
      rw [List.length_append,whole,Nat.succ_mul]
      rfl
    have blocks := decryptBlocks_encode all []
    rw [List.append_nil,encode_append whole] at blocks
    rw [none,if_pos rfl,blocks,all]

theorem encode_ne_nil {src : List UInt8} (some : src ≠ []) : encode src ≠ [] := by
  have positive := List.length_pos_of_ne_nil some
  apply List.ne_nil_of_length_pos
  rw [encode_length]
  omega

/-- Both directions, for every text whose encoding has a length that an int can hold. -/
theorem base64Chars_roundTrip {src : List UInt8} (some : src ≠ [])
    (small : (src.length+2)/3*4 < 2^31) :
    moCrypt_BASE64_Chars .encrypt (.some src) src.length = .some (encode src,(encode src).length) ∧
      moCrypt_BASE64_Chars .decrypt (.some (encode src)) (encode src).length =
        .some (src,src.length) := by
  rw [← encode_length] at small
  have srcLen : src.length ≠ 0 := fun none => some (List.length_eq_zero_iff.mp none)
  have cipherLen : (encode src).length ≠ 0 :=
    fun none => encode_ne_nil some (List.length_eq_zero_iff.mp none)
  constructor
  · have bounded : (encode src).length%2^32 = (encode src).length := Nat.mod_eq_of_lt (by omega)
    simp only [moCrypt_BASE64_Chars,if_neg srcLen,encryptChars_encode,bounded]
  · simp only [moCrypt_BASE64_Chars,if_neg cipherLen,decryptChars_encode some (by omega)]

theorem base64Chars_roundTrip_foo :
    [102,111,111,98] ≠ ([] : List UInt8) ∧ (([102,111,111,98] : List UInt8).length+2)/3*4 < 2^31 ∧
      moCrypt_BASE64_Chars .encrypt (some [102,111,111,98]) [102,111,111,98].length =
          some (encode [102,111,111,98],(encode [102,111,111,98]).length) ∧
        moCrypt_BASE64_Chars .decrypt (some (encode [102,111,111,98]))
          (encode [102,111,111,98]).length = some ([102,111,111,98],[102,111,111,98].length) :=
  ⟨by decide,by decide,base64Chars_roundTrip (by decide) (by decide)⟩

end MoCodes.Crypto.Base64
