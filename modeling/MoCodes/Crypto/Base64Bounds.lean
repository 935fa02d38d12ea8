import MoCodes.Crypto.Base64

/-! What decryptChars of moCrypt_BASE64.c reads and writes. `src` is the memory around the source, with
a negative index for what lies before it. An `int` that leaves its range wraps around, and a size
that is negative becomes a `size_t` of 2^63 at least. -/
namespace MoCodes.Crypto.Base64
open MoCodes.Lib.Blocks

def toInt (n : Int) : Int := n.bmod (2^32)

/-- The number of '=' met and the indices read, from the symbol `i` places before the end. -/
def padLoop (src : Int → UInt8) (srcLen : Nat) : Nat → Nat → Nat × List Int
  | 0,_ => (0,[])
  | left+1,i =>
    let pos := (srcLen : Int)-1-i
    if src pos = paddingSymb then
      let rest := padLoop src srcLen left (i+1)
      (rest.1+1,pos :: rest.2)
    else (0,[pos])

structure Decrypted where
  size : Nat
  reads : List Int
  writes : List (Int × UInt8)
  dstLen : Nat
  deriving DecidableEq

def symbolReads (blkCnt : Int) (symbols : Nat) : List Int :=
  (List.range symbols).map fun k : Nat => toInt (blkCnt*decryptBlockSize)+k

def byteWrites (blkCnt : Int) (bytes : List UInt8) : List (Int × UInt8) :=
  bytes.zipIdx.map fun (byte,k) => (toInt (blkCnt*encryptBlockSize)+k,byte)

def lastBytes (padSymbNum : Nat) : Nat :=
  match padSymbNum with
  | 1 => 2
  | 2 => 1
  | _ => 0

def lastSymbols (lastBlockBytes : Nat) : Nat :=
  match lastBlockBytes with
  | 1 => 2
  | 2 => 3
  | _ => 0

/-- From the buffer on; `blkCnt` stands at `count` behind the loop. -/
def decrypted (src : Int → UInt8) (padReads : List Int) (completeBlockNum : Int) (lastBlockBytes : Nat)
    (size : Int) : Decrypted :=
  let count := completeBlockNum.toNat
  let lastReads := symbolReads count (lastSymbols lastBlockBytes)
  { size := (UInt64.ofInt size).toNat
    reads := padReads ++ (((List.range count).flatMap fun blkCnt : Nat => symbolReads blkCnt 4) ++ lastReads)
    writes := ((List.range count).flatMap fun blkCnt : Nat =>
        byteWrites blkCnt (decryptBlock ((symbolReads blkCnt 4).map src) 0)) ++
      byteWrites completeBlockNum (decryptLastBlock (lastReads.map src) 0 lastBlockBytes)
    dstLen := (UInt32.ofInt size).toNat }

/-- `malloc` tells which sizes are given; `none` is NULL. -/
def decryptCharsAt (malloc : Nat → Bool) (src : Int → UInt8) (srcLen : Nat) : Option Decrypted :=
  let (padSymbNum,padReads) := padLoop src srcLen 2 0
  let blockNum := toInt (srcLen/decryptBlockSize : Nat)
  let completeBlockNum := if padSymbNum = 0 then blockNum else toInt (blockNum-1)
  let lastBlockBytes := lastBytes padSymbNum
  let size := toInt (toInt (completeBlockNum*encryptBlockSize)+lastBlockBytes)
  if malloc (UInt64.ofInt size).toNat then
    some (decrypted src padReads completeBlockNum lastBlockBytes size)
  else none

/-- All accesses lie inside the source and the buffer, and so does the length reported. -/
structure Bounded (srcLen : Nat) (dst : Decrypted) : Prop where
  reads : ∀ pos ∈ dst.reads, 0 ≤ pos ∧ pos < srcLen
  writes : ∀ write ∈ dst.writes, 0 ≤ write.1 ∧ write.1 < dst.size
  dstLen : dst.dstLen ≤ dst.size

def trailing (src : Int → UInt8) (srcLen : Nat) : Nat :=
  ([src (srcLen-1),src (srcLen-2)].takeWhile (· == paddingSymb)).length

/-- Three bytes for four symbols, less the padding. -/
def decodedSize (src : Int → UInt8) (srcLen : Nat) : Nat := 3*(srcLen/4)-trailing src srcLen

theorem toInt_same {n : Int} (lower : -2^31 ≤ n) (upper : n < 2^31) : toInt n = n := by
  apply Int.bmod_eq_of_le <;> omega

theorem toInt_over {n : Int} (lower : 2^31 ≤ n) (upper : n < 2^32) : toInt n = n-2^32 := by
  rw [toInt,Int.bmod_def]
  omega

section Padding

variable (src : Int → UInt8) (srcLen : Nat)

theorem padLoop_two : padLoop src srcLen 2 0 =
    if src (srcLen-1) = paddingSymb then
      if src (srcLen-2) = paddingSymb then (2,[(srcLen : Int)-1,srcLen-2]) else (1,[(srcLen : Int)-1,srcLen-2])
    else (0,[(srcLen : Int)-1]) := by
  have first : (srcLen : Int)-1-(0 : Nat) = srcLen-1 := by omega
  have second : (srcLen : Int)-1-(0+1 : Nat) = srcLen-2 := by omega
  simp only [padLoop,first,second]
  split_ifs <;> rfl

theorem trailing_eq : trailing src srcLen =
    if src (srcLen-1) = paddingSymb then if src (srcLen-2) = paddingSymb then 2 else 1 else 0 := by
  simp only [trailing,List.takeWhile_cons,List.takeWhile_nil,beq_iff_eq]
  split_ifs <;> rfl

theorem padLoop_trailing : (padLoop src srcLen 2 0).1 = trailing src srcLen := by
  rw [padLoop_two,trailing_eq]
  split_ifs <;> rfl

theorem trailing_le : trailing src srcLen ≤ 2 := (List.takeWhile_prefix _).length_le

theorem padLoop_reads :
    ∀ pos ∈ (padLoop src srcLen 2 0).2,
      srcLen-1-trailing src srcLen ≤ pos ∧ (srcLen : Int)-2 ≤ pos ∧ pos < srcLen := by
  rw [padLoop_two,trailing_eq]
  split_ifs <;> simp <;> omega

/-- The padding is looked for before the source when that is one '='. -/
theorem padLoop_inside_iff (some : 1 ≤ srcLen) :
    (∀ pos ∈ (padLoop src srcLen 2 0).2, 0 ≤ pos ∧ pos < srcLen) ↔
      ¬(srcLen = 1 ∧ src 0 = paddingSymb) := by
  constructor
  · rintro inside ⟨rfl,padded⟩
    have here : src ((1 : Nat)-1) = paddingSymb := padded
    have before : (-1 : Int) ∈ (padLoop src 1 2 0).2 := by
      rw [padLoop_two,if_pos here]
      split_ifs <;> exact List.mem_cons_of_mem _ (List.mem_singleton_self _)
    have lower := (inside _ before).1
    omega
  · intro longer pos read
    have near := padLoop_reads src srcLen pos read
    by_cases single : srcLen = 1
    · obtain rfl := single
      have other : src ((1 : Nat)-1) ≠ paddingSymb := fun padded => longer ⟨rfl,padded⟩
      have none : trailing src 1 = 0 := by rw [trailing_eq,if_neg other]
      omega
    · omega

end Padding

def indices (count : Nat) : List Int := (List.range count).map Nat.cast

theorem mem_indices {count : Nat} {pos : Int} : pos ∈ indices count ↔ 0 ≤ pos ∧ pos < count := by
  rw [indices,List.mem_map]
  constructor
  · rintro ⟨n,inside,rfl⟩
    have bound := List.mem_range.mp inside
    omega
  · intro ⟨lower,upper⟩
    exact ⟨pos.toNat,List.mem_range.mpr (by omega),Int.toNat_of_nonneg lower⟩

theorem symbolReads_small {blkCnt : Nat} (symbols : Nat) (small : blkCnt*decryptBlockSize < 2^31) :
    symbolReads blkCnt symbols = ((List.range symbols).map (blkCnt*decryptBlockSize+·)).map Nat.cast := by
  have start : toInt (blkCnt*decryptBlockSize) = (blkCnt*decryptBlockSize : Nat) := by
    rw [← Nat.cast_mul]
    exact toInt_same (by omega) (by omega)
  rw [symbolReads,start,List.map_map]
  rfl

theorem byteWrites_small {blkCnt : Nat} (bytes : List UInt8) (small : blkCnt*encryptBlockSize < 2^31) :
    (byteWrites blkCnt bytes).map Prod.fst =
      ((List.range bytes.length).map (blkCnt*encryptBlockSize+·)).map Nat.cast := by
  have start : toInt (blkCnt*encryptBlockSize) = (blkCnt*encryptBlockSize : Nat) := by
    rw [← Nat.cast_mul]
    exact toInt_same (by omega) (by omega)
  rw [byteWrites,start,List.map_map,List.map_map,List.range_eq_range',← List.zipIdx_map_snd,List.map_map]
  rfl

theorem byteWrites_bytes (blkCnt : Int) (bytes : List UInt8) : (byteWrites blkCnt bytes).map Prod.snd = bytes := by
  rw [byteWrites,List.map_map]
  exact List.zipIdx_map_fst 0 bytes

section Inside

variable (src : Int → UInt8) (padReads : List Int) {count lastBlockBytes : Nat} (size : Int)

theorem blockReads_indices (small : count*decryptBlockSize ≤ 2^31) :
    ((List.range count).flatMap fun blkCnt : Nat => symbolReads blkCnt 4) = indices (count*decryptBlockSize) := by
  rw [indices,← range_blocks,List.map_flatMap]
  apply List.flatMap_congr
  intro blkCnt inside
  have before : (blkCnt+1)*decryptBlockSize ≤ count*decryptBlockSize :=
    Nat.mul_le_mul_right _ (List.mem_range.mp inside)
  apply symbolReads_small
  simp only [decryptBlockSize] at before small ⊢
  omega

theorem decrypted_reads (small : count*decryptBlockSize+lastSymbols lastBlockBytes ≤ 2^31) :
    (decrypted src padReads count lastBlockBytes size).reads =
      padReads ++ indices (count*decryptBlockSize+lastSymbols lastBlockBytes) := by
  have blocks := blockReads_indices (Nat.le_of_add_right_le small)
  have last : symbolReads count (lastSymbols lastBlockBytes) =
      ((List.range (lastSymbols lastBlockBytes)).map (count*decryptBlockSize+·)).map Nat.cast := by
    by_cases none : lastSymbols lastBlockBytes = 0
    · rw [none,symbolReads,List.range_zero,List.map_nil,List.map_nil,List.map_nil]
    · exact symbolReads_small _ (by omega)
  simp only [decrypted,Int.toNat_natCast]
  rw [blocks,last,indices,indices,List.range_add,List.map_append]

theorem decrypted_writes (last : lastBlockBytes ≤ 2) (small : count*encryptBlockSize+lastBlockBytes < 2^31) :
    (decrypted src padReads count lastBlockBytes size).writes.map Prod.fst =
      indices (count*encryptBlockSize+lastBlockBytes) := by
  have blocks : (((List.range count).flatMap fun blkCnt : Nat =>
      byteWrites blkCnt (decryptBlock ((symbolReads blkCnt 4).map src) 0)).map Prod.fst) =
      indices (count*encryptBlockSize) := by
    rw [indices,← range_blocks,List.map_flatMap,List.map_flatMap]
    apply List.flatMap_congr
    intro blkCnt inside
    have before : (blkCnt+1)*encryptBlockSize ≤ count*encryptBlockSize :=
      Nat.mul_le_mul_right _ (List.mem_range.mp inside)
    apply byteWrites_small
    rw [Nat.succ_mul] at before
    omega
  have length : ∀ symbols, (decryptLastBlock symbols 0 lastBlockBytes).length = lastBlockBytes := by
    intro symbols
    interval_cases lastBlockBytes <;> rfl
  simp only [decrypted,Int.toNat_natCast]
  rw [List.map_append,blocks,byteWrites_small _ (by omega),length,indices,indices,List.range_add,List.map_append]

end Inside

theorem ofInt_negative {n : Int} (lower : -2^31 ≤ n) (upper : n < 0) : 2^63 ≤ (UInt64.ofInt n).toNat := by
  rw [UInt64.ofInt,UInt64.toNat_ofNat']
  omega

theorem ofInt_small {n : Nat} (small : n < 2^31) :
    (UInt64.ofInt n).toNat = n ∧ (UInt32.ofInt n).toNat = n := by
  rw [UInt64.ofInt,UInt64.toNat_ofNat',UInt32.ofInt,UInt32.toNat_ofNat']
  omega

section Sizes

variable {malloc : Nat → Bool} (src : Int → UInt8) {srcLen : Nat}

theorem decryptCharsAt_size (fits : srcLen < 2^32) :
    let t := trailing src srcLen
    let size := toInt (3*(srcLen/4 : Nat)-t)
    decryptCharsAt malloc src srcLen = if malloc (UInt64.ofInt size).toNat then
        some (decrypted src (padLoop src srcLen 2 0).2 (if t = 0 then (srcLen/4 : Nat) else (srcLen/4 : Nat)-1)
          (lastBytes t) size)
      else none := by
  have pads : padLoop src srcLen 2 0 = (trailing src srcLen,(padLoop src srcLen 2 0).2) :=
    Prod.ext (padLoop_trailing src srcLen) rfl
  have blockNum : toInt (srcLen/decryptBlockSize : Nat) = (srcLen/4 : Nat) := by
    rw [decryptBlockSize]
    exact toInt_same (by omega) (by omega)
  have before : toInt ((srcLen/4 : Nat)-1) = (srcLen/4 : Nat)-1 := toInt_same (by omega) (by omega)
  have sum : ∀ completeBlockNum last : Int, toInt (toInt (completeBlockNum*encryptBlockSize)+last) =
      toInt (completeBlockNum*3+last) := fun _ _ => Int.bmod_add_bmod
  have bound := trailing_le src srcLen
  intro t size
  rw [decryptCharsAt,pads]
  simp only [blockNum,before,sum]
  have same : toInt ((if t = 0 then ((srcLen/4 : Nat) : Int) else (srcLen/4 : Nat)-1)*3+lastBytes t) = size := by
    change trailing src srcLen ≤ 2 at bound
    have cases : t = 0 ∨ t = 1 ∨ t = 2 := by omega
    apply congrArg toInt
    obtain h | h | h := cases <;> rw [h] <;> simp [lastBytes] <;> omega
  rw [same]

variable {src} in
theorem decodedSize_cast (enough : trailing src srcLen ≤ 3*(srcLen/4)) :
    (3*(srcLen/4 : Nat) : Int)-trailing src srcLen = decodedSize src srcLen := by
  rw [decodedSize]
  omega

/-- A size that is negative is refused, one of 2^31 or more turns negative. -/
theorem decryptCharsAt_refused (limited : ∀ size, 2^63 ≤ size → malloc size = false) (fits : srcLen < 2^32)
    (refused : 3*(srcLen/4) < trailing src srcLen ∨ 2^31 ≤ decodedSize src srcLen ∨
      malloc (decodedSize src srcLen) = false) : decryptCharsAt malloc src srcLen = none := by
  have bound := trailing_le src srcLen
  rw [decryptCharsAt_size src fits]
  apply if_neg
  rw [Bool.not_eq_true]
  by_cases short : 3*(srcLen/4) < trailing src srcLen
  · rw [toInt_same (by omega) (by omega)]
    exact limited _ (ofInt_negative (by omega) (by omega))
  rw [decodedSize_cast (not_lt.mp short)]
  by_cases long : 2^31 ≤ decodedSize src srcLen
  · have upper : decodedSize src srcLen ≤ 3*(srcLen/4) := Nat.sub_le _ _
    rw [toInt_over (by omega) (by omega)]
    exact limited _ (ofInt_negative (by omega) (by omega))
  · rw [toInt_same (by omega) (by omega),(ofInt_small (by omega)).1]
    exact (refused.resolve_left short).resolve_left long

theorem decryptCharsAt_given (fits : srcLen < 2^32) (enough : trailing src srcLen ≤ 3*(srcLen/4))
    (small : decodedSize src srcLen < 2^31) (given : malloc (decodedSize src srcLen) = true) :
    ∃ count last : Nat, last ≤ 2 ∧ count*3+last = decodedSize src srcLen ∧
      count+(if last = 0 then 0 else 1) = srcLen/4 ∧
      decryptCharsAt malloc src srcLen = some (decrypted src (padLoop src srcLen 2 0).2 count last
        (decodedSize src srcLen)) := by
  have bound := trailing_le src srcLen
  rw [decryptCharsAt_size src fits,decodedSize_cast enough,toInt_same (by omega) (by omega),(ofInt_small small).1,
    if_pos given]
  by_cases none : trailing src srcLen = 0
  · refine ⟨srcLen/4,0,by omega,by rw [decodedSize]; omega,rfl,?_⟩
    rw [if_pos none,none]
    rfl
  · refine ⟨srcLen/4-1,3-trailing src srcLen,by omega,by rw [decodedSize]; omega,?_,?_⟩
    · rw [if_neg (by omega)]
      omega
    · have complete : ((srcLen/4 : Nat) : Int)-1 = (srcLen/4-1 : Nat) := by omega
      have last : lastBytes (trailing src srcLen) = 3-trailing src srcLen := by
        have cases : trailing src srcLen = 1 ∨ trailing src srcLen = 2 := by omega
        obtain one | two := cases
        · rw [one]
          rfl
        · rw [two]
          rfl
      rw [if_neg none,complete,last]

theorem lastSymbols_eq {last : Nat} (bound : last ≤ 2) : lastSymbols last = if last = 0 then 0 else last+1 := by
  interval_cases last <;> rfl

theorem bounded_small {dst : Decrypted} (some : 1 ≤ srcLen) (blocks : srcLen/4 ≤ 2^29)
    (enough : trailing src srcLen ≤ 3*(srcLen/4)) (given : malloc (decodedSize src srcLen) = true)
    (result : decryptCharsAt malloc src srcLen = .some dst) : Bounded srcLen dst := by
  have upper : decodedSize src srcLen ≤ 3*(srcLen/4) := Nat.sub_le _ _
  obtain ⟨count,last,bound,size,whole,decrypts⟩ :=
    decryptCharsAt_given src (by omega) enough (by omega) given
  obtain rfl := Option.some_inj.mp (decrypts.symm.trans result)
  have symbols := lastSymbols_eq bound
  have inside : count*decryptBlockSize+lastSymbols last ≤ srcLen/4*4 := by
    rw [symbols,← whole,decryptBlockSize]
    split_ifs <;> omega
  constructor
  · intro pos read
    rw [decrypted_reads _ _ _ (by omega),List.mem_append,mem_indices] at read
    obtain padding | block := read
    · have near := padLoop_reads src srcLen pos padding
      omega
    · omega
  · intro write written
    have place : write.1 ∈ indices (count*encryptBlockSize+last) := by
      rw [← decrypted_writes src (padLoop src srcLen 2 0).2 (decodedSize src srcLen) bound
        (by rw [encryptBlockSize]; omega)]
      exact List.mem_map_of_mem written
    rw [mem_indices,encryptBlockSize,size] at place
    rw [decrypted,(ofInt_small (by omega)).1]
    exact place
  · rw [decrypted,(ofInt_small (by omega)).1,(ofInt_small (by omega)).2]

theorem unbounded_long {dst : Decrypted} (fits : srcLen < 2^32) (blocks : 2^29 < srcLen/4)
    (small : decodedSize src srcLen < 2^31) (given : malloc (decodedSize src srcLen) = true)
    (result : decryptCharsAt malloc src srcLen = some dst) : ¬Bounded srcLen dst := by
  have padding := trailing_le src srcLen
  obtain ⟨count,last,bound,size,whole,decrypts⟩ :=
    decryptCharsAt_given src fits (by omega) small given
  obtain rfl := Option.some_inj.mp (decrypts.symm.trans result)
  intro bounded
  have wrapped : toInt ((2^29 : Nat)*decryptBlockSize) = -2^31 := rfl
  have read : (-2^31 : Int) ∈ (decrypted src (padLoop src srcLen 2 0).2 count last
      (decodedSize src srcLen)).reads := by
    apply List.mem_append_right
    rw [Int.toNat_natCast,List.mem_append]
    by_cases inside : 2^29 < count
    · refine Or.inl (List.mem_flatMap.mpr ⟨2^29,List.mem_range.mpr inside,?_⟩)
      exact List.mem_map.mpr ⟨0,by decide,by rw [wrapped]; rfl⟩
    · have more : last ≠ 0 := by
        rintro rfl
        rw [if_pos rfl] at whole
        omega
      rw [if_neg more] at whole
      have there : count = 2^29 := by omega
      refine Or.inr (List.mem_map.mpr ⟨0,?_,by rw [there,wrapped]; rfl⟩)
      rw [lastSymbols_eq bound,if_neg more,List.mem_range]
      omega
  have lower := (bounded.reads _ read).1
  omega

end Sizes

section Text

variable (text : List UInt8)

/-- The text in memory, with nothing around it. -/
def memoryOf (pos : Int) : UInt8 := if pos < 0 then 0 else text.getD pos.toNat 0

theorem memoryOf_nat (pos : Nat) : memoryOf text pos = text.getD pos 0 := by
  rw [memoryOf,if_neg (by omega),Int.toNat_natCast]

theorem memoryOf_read {blkCnt symbols k : Nat} (small : blkCnt*decryptBlockSize < 2^31) (inside : k < symbols) :
    ((symbolReads blkCnt symbols).map (memoryOf text)).getD k 0 = text.getD (blkCnt*decryptBlockSize+k) 0 := by
  rw [symbolReads_small symbols small,List.getD_eq_getElem?_getD,List.getElem?_map,List.getElem?_map,
    List.getElem?_map,List.getElem?_range inside]
  exact memoryOf_nat text _

theorem fromEnd_memoryOf {i : Nat} (fits : text.length < 2^31+4) (last : i ≤ 1) :
    fromEnd text text.length i = memoryOf text (text.length-1-i) := by
  rw [fromEnd,memoryOf]
  by_cases before : text.length < 1+i
  · rw [if_pos (by omega),List.getD_eq_default _ _ (by omega)]
  · rw [if_neg (by omega)]
    congr 1
    omega

theorem padSymbNum_trailing (fits : text.length < 2^31+4) :
    padSymbNum text text.length = trailing (memoryOf text) text.length := by
  have first : (text.length : Int)-1-(0 : Nat) = text.length-1 := by omega
  have second : (text.length : Int)-1-(1 : Nat) = text.length-2 := by omega
  rw [padSymbNum,fromEnd_memoryOf text fits (Nat.zero_le 1),fromEnd_memoryOf text fits le_rfl,first,second,
    trailing_eq]

theorem decryptBlock_read {blkCnt : Nat} (small : blkCnt*decryptBlockSize < 2^31) :
    decryptBlock ((symbolReads blkCnt 4).map (memoryOf text)) 0 = decryptBlock text (blkCnt*decryptBlockSize) := by
  simp only [decryptBlock,Nat.zero_add,memoryOf_read text small (by decide : 0 < 4),
    memoryOf_read text small (by decide : 1 < 4),memoryOf_read text small (by decide : 2 < 4),
    memoryOf_read text small (by decide : 3 < 4)]

theorem decryptLastBlock_read {count last : Nat} (bound : last ≤ 2)
    (small : count*decryptBlockSize+lastSymbols last ≤ 2^31) :
    decryptLastBlock ((symbolReads count (lastSymbols last)).map (memoryOf text)) 0 last =
      decryptLastBlock text (count*decryptBlockSize) last := by
  match last,bound with
  | 0,_ => rfl
  | 1,_ =>
    have start : count*decryptBlockSize < 2^31 := Nat.lt_of_lt_of_le (Nat.lt_add_of_pos_right (by decide)) small
    simp only [decryptLastBlock,lastSymbols,Nat.zero_add,memoryOf_read text start (by decide : 0 < 2),
      memoryOf_read text start (by decide : 1 < 2)]
  | 2,_ =>
    have start : count*decryptBlockSize < 2^31 := Nat.lt_of_lt_of_le (Nat.lt_add_of_pos_right (by decide)) small
    simp only [decryptLastBlock,lastSymbols,Nat.zero_add,memoryOf_read text start (by decide : 0 < 3),
      memoryOf_read text start (by decide : 1 < 3),memoryOf_read text start (by decide : 2 < 3)]

theorem decrypted_bytes (padReads : List Int) {count last : Nat} (size : Int) (bound : last ≤ 2)
    (small : count*decryptBlockSize+lastSymbols last ≤ 2^31) :
    (decrypted (memoryOf text) padReads count last size).writes.map Prod.snd =
      ((List.range count).flatMap fun blkCnt => decryptBlock text (blkCnt*decryptBlockSize)) ++
        decryptLastBlock text (count*decryptBlockSize) last := by
  have blocks : ((List.range count).flatMap fun blkCnt : Nat =>
      decryptBlock ((symbolReads blkCnt 4).map (memoryOf text)) 0) =
      (List.range count).flatMap fun blkCnt => decryptBlock text (blkCnt*decryptBlockSize) := by
    apply List.flatMap_congr
    intro blkCnt inside
    have before : (blkCnt+1)*decryptBlockSize ≤ count*decryptBlockSize :=
      Nat.mul_le_mul_right _ (List.mem_range.mp inside)
    apply decryptBlock_read
    simp only [decryptBlockSize] at before small ⊢
    omega
  simp only [decrypted,Int.toNat_natCast]
  rw [List.map_append,List.map_flatMap,byteWrites_bytes,decryptLastBlock_read text bound small]
  simp only [byteWrites_bytes]
  rw [blocks]

theorem decryptChars_short (fits : text.length < 2^31+4)
    (short : 3*(text.length/4) < trailing (memoryOf text) text.length) : decryptChars text text.length = none := by
  have bound := trailing_le (memoryOf text) text.length
  have blockNum : (text.length : Int)/decryptBlockSize = 0 := by
    rw [decryptBlockSize]
    omega
  have cases : trailing (memoryOf text) text.length = 1 ∨ trailing (memoryOf text) text.length = 2 := by omega
  rw [decryptChars,padSymbNum_trailing text fits,blockNum]
  obtain one | two := cases
  · rw [one]
    rfl
  · rw [two]
    rfl

theorem decryptChars_blocks {count last : Nat} (fits : text.length < 2^31+4) (bound : last ≤ 2)
    (enough : trailing (memoryOf text) text.length ≤ 3*(text.length/4))
    (size : count*3+last = decodedSize (memoryOf text) text.length)
    (whole : count+(if last = 0 then 0 else 1) = text.length/4) :
    decryptChars text text.length =
      some (((List.range count).flatMap fun blkCnt => decryptBlock text (blkCnt*decryptBlockSize)) ++
        decryptLastBlock text (count*decryptBlockSize) last,count*3+last) := by
  have padding := trailing_le (memoryOf text) text.length
  have blockNum : (text.length : Int)/decryptBlockSize = (text.length/4 : Nat) := by
    rw [decryptBlockSize]
    omega
  have pads := padSymbNum_trailing text fits
  rw [decodedSize] at size
  generalize trailing (memoryOf text) text.length = t at padding enough size pads
  have cases : (t = 0 ∧ last = 0 ∧ text.length/4 = count) ∨
      (t = 1 ∧ last = 2 ∧ text.length/4 = count+1) ∨ (t = 2 ∧ last = 1 ∧ text.length/4 = count+1) := by
    split_ifs at whole <;> omega
  have before : ((count+1 : Nat) : Int)-1 = count := by omega
  have result : ∀ last : Nat, ¬(count*encryptBlockSize+last : Int) < 0 ∧
      ((count*encryptBlockSize+last : Int)).toNat = count*3+last := by
    intro last
    rw [encryptBlockSize]
    omega
  obtain ⟨rfl,rfl,complete⟩ | ⟨rfl,rfl,complete⟩ | ⟨rfl,rfl,complete⟩ := cases
  · simp only [decryptChars,pads,blockNum,complete,if_true]
    rw [if_neg (result 0).1,(result 0).2,Int.toNat_natCast]
  · simp only [decryptChars,pads,blockNum,complete,before,if_neg Nat.one_ne_zero]
    rw [if_neg (result 2).1,(result 2).2,Int.toNat_natCast]
  · simp only [decryptChars,pads,blockNum,complete,before,if_neg (by decide : ¬2 = 0)]
    rw [if_neg (result 1).1,(result 1).2,Int.toNat_natCast]

/-- With the buffer at hand the bytes written are those of the routine. -/
theorem decryptCharsAt_text {malloc : Nat → Bool} (limited : ∀ size, 2^63 ≤ size → malloc size = false)
    (given : ∀ size, size < 2^31 → malloc size = true) (fits : text.length < 2^31+4) :
    (decryptCharsAt malloc (memoryOf text) text.length).map (fun dst => (dst.writes.map Prod.snd,dst.dstLen)) =
      decryptChars text text.length := by
  have upper : decodedSize (memoryOf text) text.length ≤ 3*(text.length/4) := Nat.sub_le _ _
  by_cases short : 3*(text.length/4) < trailing (memoryOf text) text.length
  · rw [decryptChars_short text fits short,
      decryptCharsAt_refused (memoryOf text) limited (by omega) (Or.inl short)]
    rfl
  · obtain ⟨count,last,bound,size,whole,decrypts⟩ := decryptCharsAt_given (memoryOf text)
      (by omega : text.length < 2^32) (by omega) (by omega) (given _ (by omega))
    have symbols := lastSymbols_eq bound
    have inside : count*decryptBlockSize+lastSymbols last ≤ 2^31 := by
      rw [symbols,decryptBlockSize]
      split_ifs at whole ⊢ <;> omega
    rw [decrypts,decryptChars_blocks text fits bound (by omega) size whole,Option.map_some,
      decrypted_bytes text _ _ bound inside,size,decrypted,(ofInt_small (by omega)).2]

end Text

/-- The accesses stay in bounds as long as no block begins at 2^31, unless there is no buffer. -/
theorem decryptChars_bounded_iff {malloc : Nat → Bool}
    (limited : ∀ size, 2^63 ≤ size → malloc size = false) (src : Int → UInt8) {srcLen : Nat}
    (some : 1 ≤ srcLen) (fits : srcLen < 2^32) :
    (∀ dst, decryptCharsAt malloc src srcLen = .some dst → Bounded srcLen dst) ↔
      srcLen/4 ≤ 2^29 ∨ 2^31 ≤ decodedSize src srcLen ∨ malloc (decodedSize src srcLen) = false := by
  constructor
  · intro bounded
    by_contra outside
    rw [not_or,not_or] at outside
    obtain ⟨long,small,given⟩ := outside
    have blocks : 2^29 < srcLen/4 := by omega
    have room : malloc (decodedSize src srcLen) = true := Bool.eq_true_of_not_eq_false given
    have padding := trailing_le src srcLen
    obtain ⟨count,last,-,-,-,decrypts⟩ := decryptCharsAt_given src fits (by omega) (by omega) room
    exact unbounded_long src fits blocks (by omega) room decrypts (bounded _ decrypts)
  · intro condition dst result
    have refused := mt (decryptCharsAt_refused src limited fits) (by rw [result]; exact Option.some_ne_none _)
    rw [not_or,not_or] at refused
    obtain ⟨enough,small,given⟩ := refused
    have blocks : srcLen/4 ≤ 2^29 := condition.resolve_right (not_or.mpr ⟨small,given⟩)
    exact bounded_small src some blocks (by omega) (Bool.eq_true_of_not_eq_false given) result

/-- Every size that an object can have. -/
def anySize (size : Nat) : Bool := decide (size < 2^63)

theorem decryptChars_bounded_f :
    decryptCharsAt anySize (memoryOf [90,103,61,61]) 4 =
        some ⟨1,[3,2,0,1],[(0,102)],1⟩ ∧ Bounded 4 ⟨1,[3,2,0,1],[(0,102)],1⟩ := by
  have result : decryptCharsAt anySize (memoryOf [90,103,61,61]) 4 =
      some ⟨1,[3,2,0,1],[(0,102)],1⟩ := by decide +kernel
  have limited : ∀ size, 2^63 ≤ size → anySize size = false :=
    fun size large => decide_eq_false (Nat.not_lt.mpr large)
  exact ⟨result,(decryptChars_bounded_iff limited (memoryOf [90,103,61,61]) (by decide) (by decide)).mpr
    (Or.inl (by decide)) _ result⟩

/-- 2^31+4 symbols 'A': the last block is read from 2^31 places before the source. -/
theorem decryptChars_behind_int :
    ∃ dst, decryptCharsAt anySize (fun _ => symb 'A') (2^31+4) = some dst ∧
      ¬Bounded (2^31+4) dst := by
  have none : trailing (fun _ => symb 'A') (2^31+4) = 0 := rfl
  have size : decodedSize (fun _ => symb 'A') (2^31+4) = 3*(2^29+1) := by
    rw [decodedSize,none]
    decide
  have given : anySize (decodedSize (fun _ => symb 'A') (2^31+4)) = true := by
    rw [size]
    decide
  have small : decodedSize (fun _ => symb 'A') (2^31+4) < 2^31 := by
    rw [size]
    decide
  obtain ⟨count,last,-,-,-,result⟩ := decryptCharsAt_given (fun _ => symb 'A') (by decide : 2^31+4 < 2^32)
    (by rw [none]; decide) small given
  exact ⟨_,result,unbounded_long _ (by decide) (by decide) small given result⟩

end MoCodes.Crypto.Base64
