import MoCodes.Lib.Transfer
import MoCodes.Cps.Proto

/-! The two transfer loops of moCpsUtils.c on the answers of `read` and `write`: `left`
and `ptr` go with what has been moved, an interrupted call is made again, and a call
that would have to wait ends the loop with the bytes moved so far. -/
namespace MoCodes.Cps.CpsUtils
open MoCodes.Lib.Loop MoCodes.Lib.Transfer MoCodes.Utils.Search

def retOf (len : Int) : End → Int
  | .stopped left => len-left
  | .failed => -1
  | .closed => -2

def transfer {σ : Type} (answers : Nat → Answer) (move : Nat → Nat → σ → σ) (len : Int) (held : σ)
    (fuel : Nat) : Option (Int × σ) :=
  (run (body answers move) fuel ⟨0,len,0,held⟩).map fun result => (retOf len result.1,result.2)

/-- The buffer, and how many bytes of the peer are taken. -/
structure Incoming where
  buf : Bytes
  taken : Nat

/-- `read` to `ptr` of the next `n` bytes that the peer has sent. -/
def fill (sent : Bytes) (ptr n : Nat) (held : Incoming) : Incoming where
  buf := fun i => if ptr ≤ i ∧ i < ptr+n then sent (held.taken+(i-ptr)) else held.buf i
  taken := held.taken+n

/-- `write` of `n` bytes from `ptr` on, behind what the peer has. -/
def put (buf : Bytes) (ptr n : Nat) (got : List UInt8) : List UInt8 :=
  got ++ (List.range n).map fun i => buf (ptr+i)

def readn (answers : Nat → Answer) (sent : Bytes) (len : Int) (held : Incoming) (fuel : Nat) :
    Option (Int × Incoming) :=
  transfer answers (fill sent) len held fuel

def writen (answers : Nat → Answer) (buf : Bytes) (len : Int) (got : List UInt8) (fuel : Nat) :
    Option (Int × List UInt8) :=
  transfer answers (put buf) len got fuel

section Moves

theorem fill_nothing (sent : Bytes) (held : Incoming) : fill sent 0 0 held = held := by
  simp [fill]

theorem fill_joined (sent : Bytes) (n m : Nat) (held : Incoming) :
    fill sent n m (fill sent 0 n held) = fill sent 0 (n+m) held := by
  simp only [fill,Nat.zero_le,true_and,Nat.zero_add,Nat.sub_zero,Incoming.mk.injEq]
  refine ⟨funext fun i => ?_,Nat.add_assoc _ _ _⟩
  by_cases front : i < n
  · rw [if_neg (by omega),if_pos front,if_pos (by omega)]
  · by_cases inside : i < n+m
    · have place : held.taken+n+(i-n) = held.taken+i := by omega
      rw [if_pos (by omega),if_pos inside,place]
    · rw [if_neg (by omega),if_neg front,if_neg inside]

theorem put_nothing (buf : Bytes) (got : List UInt8) : put buf 0 0 got = got := by
  simp [put]

theorem put_joined (buf : Bytes) (n m : Nat) (got : List UInt8) :
    put buf n m (put buf 0 n got) = put buf 0 (n+m) got := by
  simp only [put,Nat.zero_add,List.range_add,List.map_append,List.map_map,List.append_assoc]
  rfl

theorem fill_whole (sent : Bytes) (len : Nat) (held : Incoming) :
    fill sent 0 len held = ⟨fun i => if i < len then sent (held.taken+i) else held.buf i,held.taken+len⟩ := by
  simp [fill]

theorem put_whole (buf : Bytes) (len : Nat) (got : List UInt8) :
    put buf 0 len got = got ++ (List.range len).map buf := by
  simp [put]

end Moves

section Transfers

variable {σ : Type} {answers : Nat → Answer} {move : Nat → Nat → σ → σ} {len : Int} {held : σ}

theorem transfer_of_returns {ended : End × σ} (returns : Returns (body answers move) ⟨0,len,0,held⟩ ended) :
    ∃ fuel, transfer answers move len held fuel = some (retOf len ended.1,ended.2) := by
  obtain ⟨fuel,ok⟩ := returns
  exact ⟨fuel,by rw [transfer,ok]; rfl⟩

theorem transfer_returns {fuel : Nat} {result : Int × σ} (ok : transfer answers move len held fuel = some result) :
    ∃ ended, Returns (body answers move) ⟨0,len,0,held⟩ ended ∧ result = (retOf len ended.1,ended.2) := by
  obtain ⟨ended,returns,rfl⟩ := Option.map_eq_some_iff.mp ok
  exact ⟨ended,⟨fuel,returns⟩,rfl⟩

end Transfers

section Results

variable {answers : Nat → Answer} {sent : Bytes} {len fuel : Nat} {held : Incoming} {result : Int × Incoming}

theorem readn_mono {len : Int} (more : Nat) (ok : readn answers sent len held fuel = some result) :
    readn answers sent len held (fuel+more) = some result := by
  obtain ⟨ended,run,rfl⟩ := Option.map_eq_some_iff.mp ok
  rw [readn,transfer,run_mono _ _ more _ _ run]
  rfl

theorem readn_delivers (sent : Bytes) (held : Incoming) (delivers : Delivers answers len) :
    ∃ fuel, readn answers sent len held fuel = some ((len : Int),fill sent 0 len held) := by
  obtain ⟨fuel,ok⟩ := transfer_of_returns (returns_whole (fill_nothing sent) (fill_joined sent) held delivers)
  exact ⟨fuel,by rw [readn,ok,retOf,Int.sub_zero]⟩

/-- A result that is no error may still stand for fewer bytes than asked for. -/
theorem readn_nonneg (ok : readn answers sent len held fuel = some result) (positive : 0 ≤ result.1) :
    Delivers answers len ∧ result = ((len : Int),fill sent 0 len held) ∨
      Breaks answers len ∧ result.1 < len := by
  obtain ⟨ended,returns,rfl⟩ := transfer_returns ok
  obtain ⟨k,goes,ends⟩ := returns_ends (fill_nothing sent) (fill_joined sent) returns
  cases ends with
  | whole enough => exact .inl ⟨⟨k,goes,enough⟩,by rw [retOf,Int.sub_zero]⟩
  | waits short answer =>
    refine .inr ⟨⟨k,goes,short,answer⟩,?_⟩
    simp only [retOf]
    omega
  | fails short answer => exact absurd (show (0 : Int) ≤ -1 from positive) (by decide)
  | closes short answer => exact absurd (show (0 : Int) ≤ -2 from positive) (by decide)

theorem readn_breaks (sent : Bytes) (held : Incoming) (breaks : Breaks answers len) :
    ∃ fuel n, n < len ∧ readn answers sent len held fuel = some ((n : Int),fill sent 0 n held) := by
  obtain ⟨k,goes,short,waits⟩ := breaks
  obtain ⟨fuel,ok⟩ := transfer_of_returns (returns_broken (fill_nothing sent) (fill_joined sent) held goes short waits)
  refine ⟨fuel,_,short,?_⟩
  rw [readn,ok,retOf,Int.sub_sub_self]

theorem readn_len (ok : readn answers sent len held fuel = some result) (all : result.1 = len) :
    Delivers answers len ∧ result.2 = fill sent 0 len held := by
  rcases readn_nonneg ok (by omega) with ⟨delivers,rfl⟩ | ⟨_,less⟩
  · exact ⟨delivers,rfl⟩
  · omega

end Results

section Stream

/-- The answers on a blocking socket whose peer sends `bytes` and closes behind them. -/
structure Feeds (answers : Nat → Answer) (bytes : List UInt8) : Prop where
  inside : ∀ k, Goes answers k → offered answers k ≤ bytes.length
  closed : ∀ k, Goes answers k → Benign (answers k) ∨ answers k = .moved 0 ∧ offered answers k = bytes.length

theorem fill_stream {bytes : List UInt8} {len : Nat} (buf : Bytes) (long : len ≤ bytes.length) :
    (List.range len).map (fill (bytesOf bytes) 0 len ⟨buf,0⟩).buf = (Cps.readn bytes len).1 := by
  rw [fill_whole]
  apply List.ext_getElem
  · simp [Cps.readn,long]
  · intro i left right
    have inside : i < len := by simpa using left
    have there : i < bytes.length := Nat.lt_of_lt_of_le inside long
    simp [Cps.readn,bytesOf,inside,there]

/-- On such a socket the loop gets what the bytes still to come hold. -/
theorem readn_stream {answers : Nat → Answer} {bytes : List UInt8} {len fuel : Nat} {buf : Bytes}
    {result : Int × Incoming} (feeds : Feeds answers bytes)
    (ok : readn answers (bytesOf bytes) len ⟨buf,0⟩ fuel = some result) :
    (result.1 = len ↔ (Cps.readn bytes len).1.length = len) ∧
      (result.1 = len → (List.range len).map result.2.buf = (Cps.readn bytes len).1 ∧ result.2.taken = len) := by
  obtain ⟨ended,returns,rfl⟩ := transfer_returns ok
  obtain ⟨k,goes,ends⟩ := returns_ends (fill_nothing _) (fill_joined _) returns
  have room := feeds.inside k goes
  have short : (Cps.readn bytes len).1.length = len ↔ len ≤ bytes.length := by simp [Cps.readn]
  have enough : Benign (answers k) → len ≤ offered answers k := fun benign => (ends_benign benign ends).1
  cases ends with
  | whole all =>
    have long : len ≤ bytes.length := Nat.le_trans all room
    exact ⟨iff_of_true (by simp [retOf]) (short.mpr long),fun _ => ⟨fill_stream buf long,Nat.zero_add len⟩⟩
  | waits less answer =>
    rcases feeds.closed k goes with benign | ⟨moved,_⟩
    · exact absurd (enough benign) (Nat.not_le.mpr less)
    · cases answer.symm.trans moved
  | fails less answer =>
    rcases feeds.closed k goes with benign | ⟨moved,_⟩
    · exact absurd (enough benign) (Nat.not_le.mpr less)
    · cases answer.symm.trans moved
  | closes less answer =>
    rcases feeds.closed k goes with benign | ⟨_,all⟩
    · exact absurd (enough benign) (Nat.not_le.mpr less)
    · have other : retOf len End.closed ≠ len := by
        simp only [retOf]
        omega
      exact ⟨iff_of_false other (by rw [short]; omega),fun same => absurd same other⟩

end Stream

section Whole

variable {answers : Nat → Answer}

/-- With nothing but interruptions and moves the loops end with all `len` bytes moved, each
once and in order; and they do end, unless the interruptions go on for ever. -/
theorem readn_writen_whole (answers : Nat → Answer) (benign : ∀ k, Benign (answers k)) (len : Nat)
    (sent buf : Bytes) (held : Incoming) (got : List UInt8) :
    (∀ fuel result, readn answers sent len held fuel = some result → result =
      ((len : Int),⟨fun i => if i < len then sent (held.taken+i) else held.buf i,held.taken+len⟩)) ∧
    (∀ fuel result, writen answers buf len got fuel = some result →
      result = ((len : Int),got ++ (List.range len).map buf)) ∧
    ((∀ k, ∃ m ≥ k, answers m ≠ .interrupted) →
      (∃ fuel, (readn answers sent len held fuel).isSome = true) ∧
        ∃ fuel, (writen answers buf len got fuel).isSome = true) := by
  refine ⟨fun fuel result ok => ?_,fun fuel result ok => ?_,fun resumes => ?_⟩
  · obtain ⟨ended,returns,rfl⟩ := transfer_returns ok
    rw [returns_benign (fill_nothing sent) (fill_joined sent) benign returns,fill_whole,retOf,Int.sub_zero]
  · obtain ⟨ended,returns,rfl⟩ := transfer_returns ok
    rw [returns_benign (put_nothing buf) (put_joined buf) benign returns,put_whole,retOf,Int.sub_zero]
  · have delivers := delivers_of_benign benign resumes len
    obtain ⟨fuel,read⟩ :=
      transfer_of_returns (returns_whole (fill_nothing sent) (fill_joined sent) held delivers)
    obtain ⟨more,written⟩ :=
      transfer_of_returns (returns_whole (put_nothing buf) (put_joined buf) got delivers)
    exact ⟨⟨fuel,by rw [readn,read]; rfl⟩,⟨more,by rw [writen,written]; rfl⟩⟩

/-- Every other call is interrupted, and a call moves three bytes at most. -/
def threes (k : Nat) : Answer := if k%2 = 0 then .interrupted else .moved 3

theorem threes_benign (k : Nat) : Benign (threes k) := by
  unfold threes
  split
  · exact .inl rfl
  · exact .inr (by decide)

theorem threes_resumes (k : Nat) : ∃ m ≥ k, threes m ≠ .interrupted :=
  ⟨2*k+1,by omega,by rw [threes,if_neg (by omega)]; exact nofun⟩

theorem readn_writen_seven :
    (∀ fuel result, readn threes (fun i => i.toUInt8) 7 ⟨fun _ => 255,2⟩ fuel = some result → result =
      (7,⟨fun i => if i < 7 then (2+i).toUInt8 else 255,9⟩)) ∧
    (∀ fuel result, writen threes (fun i => i.toUInt8) 7 [255] fuel = some result →
      result = (7,[255,0,1,2,3,4,5,6])) ∧
    (∃ fuel, (readn threes (fun i => i.toUInt8) 7 ⟨fun _ => 255,2⟩ fuel).isSome = true) ∧
      ∃ fuel, (writen threes (fun i => i.toUInt8) 7 [255] fuel).isSome = true := by
  obtain ⟨read,written,ends⟩ := readn_writen_whole threes threes_benign 7 (fun i => i.toUInt8)
    (fun i => i.toUInt8) ⟨fun _ => 255,2⟩ [255]
  exact ⟨read,written,ends threes_resumes⟩

end Whole

end MoCodes.Cps.CpsUtils
