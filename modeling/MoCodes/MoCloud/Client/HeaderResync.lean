import MoCodes.Cps.Proto
import MoCodes.MoCloud.Client.RecvData

/-! getDataHeader of cliData.c on a stream of bytes. It keeps a window of one header, looks for
the mark in it, moves what begins with the mark to the front and reads what is then missing. -/
namespace MoCodes.MoCloud.Client.HeaderResync
open Lib.Layout Lib.Loop RecvData
open MoCodes.Cps (MarkAt findMark findMark_at findMark_absent markAt_take markAt_left markAt_drop markAt_inside)

/-- Between two reads: `length` bytes are to be read to `pTmp + startPos`. -/
structure HeaderState where
  tmp : List UInt8
  startPos : Nat
  length : Nat
  stream : List UInt8

/-- `outside`: a byte behind the buffer has been written. -/
inductive HeaderResult where
  | ok (header stream : List UInt8)
  | failed (code : Int) (stream : List UInt8)
  | outside
  deriving DecidableEq

/-- Behind a readn that has got all it was to get. -/
def headerCheck (tmp stream : List UInt8) : Outcome HeaderState HeaderResult :=
  let pos := searchMark tmp
  if pos < 0 then
    .next
      { tmp := tmp.drop (dataHeaderSize-markDwld.length) ++ tmp.drop markDwld.length
        startPos := markDwld.length
        length := dataHeaderSize-markDwld.length
        stream := stream }
  else if pos ≠ 0 then
    .next
      { tmp := tmp.drop pos.toNat ++ tmp.drop (dataHeaderSize-pos.toNat)
        startPos := pos.toNat+1
        length := pos.toNat
        stream := stream }
  else if checksumCheckValue (tmp.getD 32 0) then .done (.ok tmp stream)
  else .next ⟨List.replicate dataHeaderSize 0,0,dataHeaderSize,stream⟩

/-- A readn that gets less than it asks for comes to the end of what is there. -/
def headerBody (state : HeaderState) : Outcome HeaderState HeaderResult :=
  let got := state.stream.take state.length
  if dataHeaderSize < state.startPos+got.length then .done .outside
  else if got.length ≠ state.length then .done (.failed (-2) (state.stream.drop state.length))
  else
    headerCheck (state.tmp.take state.startPos ++ got ++ state.tmp.drop (state.startPos+state.length))
      (state.stream.drop state.length)

def headerStart (stream : List UInt8) : HeaderState := ⟨List.replicate dataHeaderSize 0,0,dataHeaderSize,stream⟩

def getDataHeader (stream : List UInt8) : HeaderResult :=
  (run headerBody (stream.length+1) (headerStart stream)).getD .outside

def placeOf : Outcome HeaderState HeaderResult → RecvData.Place
  | .next state => .header state.tmp state.startPos state.length []
  | .done (.ok header _) => startBody header
  | .done (.failed _ _) => .select
  | .done .outside => .fault

section Passes

variable {state after : HeaderState} {tmp header stream bytes : List UInt8}

theorem headerCheck_place : placeOf (headerCheck tmp stream) = checkHeader tmp := by
  rw [headerCheck,checkHeader]
  split_ifs <;> rfl

/-- A readn that is complete takes the receive thread to the same place. -/
theorem readMore_headerBody (whole : state.length ≤ state.stream.length) :
    readMore (.header state.tmp state.startPos state.length []) (state.stream.take state.length) =
      placeOf (headerBody state) := by
  have full : (state.stream.take state.length).length = state.length := List.length_take_of_le whole
  rw [readMore,headerBody]
  simp only [List.nil_append,full,ne_eq,not_true_eq_false,if_false,if_true]
  split
  · rfl
  · exact headerCheck_place.symm

theorem headerCheck_next (step : headerCheck tmp stream = .next after) : 0 < after.length ∧ after.stream = stream := by
  rw [headerCheck] at step
  split_ifs at step
  · cases step
    exact ⟨show 0 < dataHeaderSize-markDwld.length by decide,rfl⟩
  · cases step
    exact ⟨by simp only; omega,rfl⟩
  · cases step
    exact ⟨show 0 < dataHeaderSize by decide,rfl⟩

theorem headerCheck_ok (step : headerCheck tmp stream = .done (.ok header bytes)) : header = tmp ∧ bytes = stream := by
  rw [headerCheck] at step
  split_ifs at step
  cases step
  exact ⟨rfl,rfl⟩

theorem headerBody_cases (state : HeaderState) :
    dataHeaderSize < state.startPos+(state.stream.take state.length).length ∧ headerBody state = .done .outside ∨
    state.stream.length < state.length ∧ headerBody state = .done (.failed (-2) (state.stream.drop state.length)) ∨
    state.startPos+state.length ≤ dataHeaderSize ∧ state.length ≤ state.stream.length ∧
      headerBody state = headerCheck (state.tmp.take state.startPos ++ state.stream.take state.length ++
        state.tmp.drop (state.startPos+state.length)) (state.stream.drop state.length) := by
  rw [headerBody]
  split_ifs with beyond short
  · exact .inl ⟨beyond,rfl⟩
  · rw [List.length_take] at short
    exact .inr (.inl ⟨by omega,rfl⟩)
  · rw [List.length_take] at beyond short
    exact .inr (.inr ⟨by omega,by omega,rfl⟩)

theorem headerBody_reads (some_byte : 0 < state.length) (step : headerBody state = .next after) :
    0 < after.length ∧ after.stream.length < state.stream.length := by
  obtain ⟨_,stop⟩ | ⟨_,stop⟩ | ⟨_,whole,goes⟩ := headerBody_cases state
  · cases stop.symm.trans step
  · cases stop.symm.trans step
  · obtain ⟨more,rest⟩ := headerCheck_next (goes.symm.trans step)
    refine ⟨more,?_⟩
    rw [rest,List.length_drop]
    omega

theorem getDataHeader_returns (bytes : List UInt8) : Returns headerBody (headerStart bytes) (getDataHeader bytes) := by
  obtain ⟨result,ended⟩ := run_of_measure (fun state => 0 < state.length) (fun state => state.stream.length)
    (fun _ _ some_byte step => headerBody_reads some_byte step) (bytes.length+1) (headerStart bytes)
    (show 0 < dataHeaderSize by decide) (Nat.lt_succ_self _)
  exact ⟨bytes.length+1,by rw [getDataHeader,ended,Option.getD_some]⟩

/-- What is left behind a header is less than what was there before its last read. -/
theorem returns_ok_shorter (some_byte : 0 < state.length)
    (returns : Returns headerBody state (.ok header bytes)) : bytes.length < state.stream.length := by
  refine returns_invariant (fun other => 0 < other.length ∧ other.stream.length ≤ state.stream.length)
    (fun result => ∀ header bytes, result = .ok header bytes → bytes.length < state.stream.length)
    ?_ ?_ ⟨some_byte,Nat.le_refl _⟩ returns header bytes rfl
  · rintro other after ⟨more,bound⟩ step
    obtain ⟨more',less⟩ := headerBody_reads more step
    exact ⟨more',by omega⟩
  · rintro other result ⟨more,bound⟩ step header bytes rfl
    obtain ⟨_,stop⟩ | ⟨_,stop⟩ | ⟨_,whole,goes⟩ := headerBody_cases other
    · cases stop.symm.trans step
    · cases stop.symm.trans step
    · rw [(headerCheck_ok (goes.symm.trans step)).2,List.length_drop]
      omega

end Passes

section Windows

variable {state : HeaderState} {tmp bytes : List UInt8} {start p : Nat}

theorem searchMark_first (size : tmp.length = dataHeaderSize) (here : MarkAt tmp markDwld p)
    (before : ∀ r < p, ¬ MarkAt tmp markDwld r) : searchMark tmp = p := by
  have inside := markAt_inside (by decide) here
  have found := findMark_at (by decide) here before
  rw [findMark,size] at found
  rw [searchMark,found,Utils.Search.toInt,if_pos]
  rw [size] at inside
  unfold dataHeaderSize at inside
  omega

theorem searchMark_none (size : tmp.length = dataHeaderSize) (absent : ∀ i, ¬ MarkAt tmp markDwld i) :
    searchMark tmp < 0 := by
  have found := findMark_absent (by decide) (by rw [size]; decide) absent
  rw [findMark,size] at found
  rw [searchMark,found]
  decide

/-- The buffer shows the bytes from `start` on, as far as it has been filled. -/
structure Window (bytes : List UInt8) (start : Nat) (state : HeaderState) : Prop where
  size : state.tmp.length = dataHeaderSize
  room : state.startPos+state.length = dataHeaderSize
  front : state.tmp.take state.startPos = slice bytes start state.startPos
  stream : state.stream = bytes.drop (start+state.startPos)

theorem window_start (bytes : List UInt8) : Window bytes 0 (headerStart bytes) :=
  ⟨rfl,rfl,rfl,rfl⟩

theorem window_body (window : Window bytes start state) (whole : start+dataHeaderSize ≤ bytes.length) :
    headerBody state = headerCheck (slice bytes start dataHeaderSize) (bytes.drop (start+dataHeaderSize)) := by
  obtain ⟨size,room,front,stream⟩ := window
  have there : state.length ≤ state.stream.length := by
    rw [stream,List.length_drop]
    omega
  have joined : state.tmp.take state.startPos ++ state.stream.take state.length ++
      state.tmp.drop (state.startPos+state.length) = slice bytes start dataHeaderSize := by
    rw [room,List.drop_of_length_le (Nat.le_of_eq size),List.append_nil,front,stream,slice,slice,← room,
      List.take_add,List.drop_drop]
  have behind : state.stream.drop state.length = bytes.drop (start+dataHeaderSize) := by
    rw [stream,List.drop_drop,Nat.add_assoc,room]
  obtain ⟨beyond,_⟩ | ⟨short,_⟩ | ⟨_,_,goes⟩ := headerBody_cases state
  · rw [List.length_take] at beyond
    omega
  · omega
  · rw [goes,joined,behind]

theorem slice_length (whole : start+dataHeaderSize ≤ bytes.length) :
    (slice bytes start dataHeaderSize).length = dataHeaderSize := by
  rw [slice,List.length_take,List.length_drop]
  omega

theorem markAt_slice {i : Nat} (inside : i+markDwld.length ≤ dataHeaderSize) :
    MarkAt (slice bytes start dataHeaderSize) markDwld i ↔ MarkAt bytes markDwld (start+i) := by
  rw [slice,markAt_take inside,markAt_drop]

theorem window_slides (window : Window bytes start state) (whole : start+dataHeaderSize ≤ bytes.length)
    (absent : ∀ i, i+markDwld.length ≤ dataHeaderSize → ¬ MarkAt bytes markDwld (start+i)) :
    ∃ after, headerBody state = .next after ∧ Window bytes (start+(dataHeaderSize-markDwld.length)) after := by
  have size := slice_length whole
  have nowhere : searchMark (slice bytes start dataHeaderSize) < 0 := by
    refine searchMark_none size fun i here => ?_
    have inside := markAt_inside (by decide) here
    rw [size] at inside
    exact absent i inside ((markAt_slice inside).mp here)
  have twelve : markDwld.length = 12 := rfl
  rw [window_body window whole,headerCheck,if_pos nowhere]
  refine ⟨_,rfl,?_,?_,?_,?_⟩
  · simp only [List.length_append,List.length_drop,size,twelve]
    rfl
  · rfl
  · have kept : ((slice bytes start dataHeaderSize).drop (dataHeaderSize-markDwld.length)).length = markDwld.length := by
      simp only [List.length_drop,size,twelve]
      rfl
    dsimp only
    rw [List.take_left' kept,slice,slice,List.drop_take,List.drop_drop,Nat.sub_sub_self (by decide)]
  · dsimp only
    rw [Nat.add_assoc,Nat.sub_add_cancel (by decide)]

end Windows

section Claim

variable {garbage head rest : List UInt8} {state : HeaderState} {p : Nat}

/-- The bytes behind the mark are read to `pos + 1` instead of behind what was moved. The header
comes out right only where it has the same bytes at both places, and where the bytes that are
left over repeat those before them. -/
structure Repeats (p : Nat) (head : List UInt8) : Prop where
  inside : 2*p+1 ≤ dataHeaderSize
  moved : ∀ j, p < j → j ≤ 2*p → head[j]? = head[j+35-2*p]?
  stale : ∀ j < dataHeaderSize, 2*p < j → dataHeaderSize ≤ j+p → head[j]? = head[j-p]?

def shifted (window head rest : List UInt8) (p : Nat) : HeaderState where
  tmp := window.drop p ++ window.drop (dataHeaderSize-p)
  startPos := p+1
  length := p
  stream := head.drop (dataHeaderSize-p) ++ rest

def reread (window head : List UInt8) (p : Nat) : List UInt8 :=
  (window.drop p ++ window.drop (dataHeaderSize-p)).take (p+1) ++ head.drop (dataHeaderSize-p) ++
    (window.drop p ++ window.drop (dataHeaderSize-p)).drop (p+1+p)

section Reread

variable {before : List UInt8} (size : head.length = dataHeaderSize) (gap : before.length = p)
  (inside : 2*p+1 ≤ dataHeaderSize)
include size gap inside

theorem reread_get {j : Nat} (bound : j < dataHeaderSize) :
    (reread (before ++ head.take (dataHeaderSize-p)) head p)[j]? =
      if j ≤ p then head[j]? else if j ≤ 2*p then head[j+35-2*p]?
      else if j+p < dataHeaderSize then head[j]? else head[j-p]? := by
  unfold dataHeaderSize at *
  have kept : (before ++ head.take (36-p)).drop p = head.take (36-p) := List.drop_left' gap
  have front : (head.take (36-p)).length = 36-p := by
    rw [List.length_take,size]
    omega
  have rest : (before ++ head.take (36-p)).drop (36-p) = (head.take (36-p)).drop (36-2*p) := by
    have place : 36-p = before.length+(36-2*p) := by omega
    exact (congrArg (List.drop · _) place).trans (List.drop_length_add_append _)
  have moved : ((head.take (36-p) ++ (head.take (36-p)).drop (36-2*p)).take (p+1)).length = p+1 := by
    rw [List.length_take,List.length_append,front]
    omega
  have read : (head.drop (36-p)).length = p := by
    rw [List.length_drop,size]
    omega
  rw [reread,kept,dataHeaderSize,rest]
  by_cases low : j ≤ p
  · rw [if_pos low,List.append_assoc,List.getElem?_append_left (by omega),List.getElem?_take_of_lt (by omega),
      List.getElem?_append_left (by omega),List.getElem?_take_of_lt (by omega)]
  rw [if_neg low,List.append_assoc,List.getElem?_append_right (by omega),moved]
  by_cases middle : j ≤ 2*p
  · rw [if_pos middle,List.getElem?_append_left (by omega),List.getElem?_drop]
    congr 1
    omega
  rw [if_neg middle,List.getElem?_append_right (by omega),read,List.getElem?_drop,
    show p+1+p+(j-(p+1)-p) = j by omega]
  by_cases high : j+p < 36
  · rw [if_pos high,List.getElem?_append_left (by omega),List.getElem?_take_of_lt (by omega)]
  · rw [if_neg high,List.getElem?_append_right (by omega),front,List.getElem?_drop,List.getElem?_take_of_lt (by omega)]
    congr 1
    omega

theorem repeats_iff : reread (before ++ head.take (dataHeaderSize-p)) head p = head ↔ Repeats p head := by
  have get := fun j => reread_get size gap inside (j := j)
  constructor
  · intro same
    rw [same] at get
    refine ⟨inside,fun j above below => ?_,fun j bound above late => ?_⟩
    · have here := get j (by omega)
      rwa [if_neg (by omega),if_pos below] at here
    · have here := get j bound
      rwa [if_neg (by omega),if_neg (by omega),if_neg (by omega)] at here
  · rintro ⟨_,moved,stale⟩
    apply List.ext_getElem?
    intro j
    by_cases bound : j < dataHeaderSize
    · rw [get j bound]
      split_ifs with low middle high
      · rfl
      · exact (moved j (by omega) middle).symm
      · rfl
      · exact (stale j bound (by omega) (by omega)).symm
    · have long : (reread (before ++ head.take (dataHeaderSize-p)) head p).length ≤ j := by
        simp only [reread,List.length_append,List.length_take,List.length_drop,gap,size]
        omega
      rw [List.getElem?_eq_none long,List.getElem?_eq_none (by omega)]

end Reread

theorem headerCheck_right (size : head.length = dataHeaderSize) (mark : MarkAt head markDwld 0)
    (sum : checksumCheckValue (head.getD 32 0) = true) : headerCheck head rest = .done (.ok head rest) := by
  have front := searchMark_first size mark fun r below => absurd below (Nat.not_lt_zero r)
  rw [headerCheck,front,if_neg (by decide),if_neg (by decide),if_pos sum]

theorem shifted_returns {before : List UInt8} (size : head.length = dataHeaderSize)
    (mark : MarkAt head markDwld 0) (sum : checksumCheckValue (head.getD 32 0) = true)
    (gap : before.length = p) (positive : 0 < p) (small : p ≤ dataHeaderSize) :
    Returns headerBody (shifted (before ++ head.take (dataHeaderSize-p)) head rest p) (.ok head rest) ↔
      Repeats p head := by
  have read : (head.drop (dataHeaderSize-p)).length = p := by
    rw [List.length_drop,size]
    omega
  have taken : (shifted (before ++ head.take (dataHeaderSize-p)) head rest p).stream.take p =
      head.drop (dataHeaderSize-p) := List.take_left' read
  have left : (shifted (before ++ head.take (dataHeaderSize-p)) head rest p).stream.drop p = rest :=
    List.drop_left' read
  obtain ⟨beyond,stop⟩ | ⟨short,_⟩ | ⟨room,_,goes⟩ :=
      headerBody_cases (shifted (before ++ head.take (dataHeaderSize-p)) head rest p)
  · change dataHeaderSize < p+1+(List.take p _).length at beyond
    rw [taken,read] at beyond
    refine iff_of_false (fun returns => ?_) fun repeats => ?_
    · cases returns_unique returns (returns_done stop)
    · have inside := repeats.inside
      omega
  · change (head.drop (dataHeaderSize-p) ++ rest).length < p at short
    rw [List.length_append,read] at short
    omega
  · change p+1+p ≤ dataHeaderSize at room
    have goes : headerBody (shifted (before ++ head.take (dataHeaderSize-p)) head rest p) =
        headerCheck (reread (before ++ head.take (dataHeaderSize-p)) head p) rest := by
      rw [goes]
      change headerCheck (List.take (p+1) _ ++ List.take p _ ++ List.drop (p+1+p) _) (List.drop p _) = _
      rw [taken,left]
      rfl
    rw [← repeats_iff size gap (by omega)]
    constructor
    · intro returns
      cases checked : headerCheck (reread (before ++ head.take (dataHeaderSize-p)) head p) rest with
      | done result =>
        obtain rfl := returns_unique returns (returns_done (goes.trans checked))
        exact (headerCheck_ok checked).1.symm
      | next after =>
        obtain ⟨more,stream⟩ := headerCheck_next checked
        have shorter := returns_ok_shorter more ((returns_next (goes.trans checked)).mp returns)
        rw [stream] at shorter
        exact absurd shorter (Nat.lt_irrefl _)
    · intro same
      exact returns_done (by rw [goes,same,headerCheck_right size mark sum])

/-- The header with what stands in front of it. -/
structure Precedes (garbage head : List UInt8) : Prop where
  size : head.length = dataHeaderSize
  mark : MarkAt head markDwld 0
  sum : checksumCheckValue (head.getD 32 0) = true
  clean : ∀ i < garbage.length, ¬ MarkAt (garbage ++ head) markDwld i

theorem Precedes.absent (precedes : Precedes garbage head) {i : Nat} (before : i < garbage.length) :
    ¬ MarkAt (garbage ++ head ++ rest) markDwld i := by
  have twelve : markDwld.length = 12 := rfl
  rw [markAt_left]
  · exact precedes.clean i before
  · rw [List.length_append,precedes.size,twelve,dataHeaderSize]
    omega

theorem Precedes.here (precedes : Precedes garbage head) : MarkAt (garbage ++ head ++ rest) markDwld garbage.length := by
  have moved := markAt_drop (garbage ++ head ++ rest) markDwld garbage.length 0
  rw [List.append_assoc,List.drop_left,markAt_left (by rw [precedes.size]; decide)] at moved
  rw [List.append_assoc]
  exact moved.mp precedes.mark

theorem seek (precedes : Precedes garbage head) (positive : 0 < p) (small : p ≤ dataHeaderSize-markDwld.length)
    (k : Nat) {start : Nat} (window : Window (garbage ++ head ++ rest) start state)
    (place : garbage.length = start+(dataHeaderSize-markDwld.length)*k+p) {result : HeaderResult} :
    Returns headerBody state result ↔
      Returns headerBody (shifted (garbage.drop (garbage.length-p) ++ head.take (dataHeaderSize-p)) head rest p) result := by
  have size := precedes.size
  have total : (garbage ++ head ++ rest).length = garbage.length+dataHeaderSize+rest.length := by
    rw [List.length_append,List.length_append,size]
  have step : dataHeaderSize-markDwld.length = 24 := rfl
  have long : dataHeaderSize = 36 := rfl
  have twelve : markDwld.length = 12 := rfl
  rw [step] at small place
  induction k generalizing start state with
  | zero =>
    have shown : slice (garbage ++ head ++ rest) start dataHeaderSize =
        garbage.drop (garbage.length-p) ++ head.take (dataHeaderSize-p) := by
      rw [slice,List.append_assoc,List.drop_append_of_le_length (by omega),
        show garbage.length-p = start by omega,List.take_append,List.take_append_of_le_length (by omega),
        List.take_of_length_le (by rw [List.length_drop]; omega),List.length_drop]
      congr 2
      omega
    have left : (garbage ++ head ++ rest).drop (start+dataHeaderSize) = head.drop (dataHeaderSize-p) ++ rest := by
      rw [List.append_assoc,List.drop_append,List.drop_of_length_le (by omega),List.nil_append,
        List.drop_append_of_le_length (by omega)]
      congr 2
      omega
    have found : searchMark (slice (garbage ++ head ++ rest) start dataHeaderSize) = p := by
      refine searchMark_first (slice_length (by omega)) ((markAt_slice (by omega)).mpr ?_) fun r below here => ?_
      · rw [show start+p = garbage.length by omega]
        exact precedes.here
      · exact precedes.absent (by omega) ((markAt_slice (by omega)).mp here)
    apply returns_next
    rw [window_body window (by omega),headerCheck,found,if_neg (by omega),if_pos (by omega),shown,left]
    rfl
  | succ k ih =>
    obtain ⟨after,goes,window⟩ := window_slides window (by omega) fun i inside =>
      precedes.absent (by omega)
    rw [step] at window
    rw [returns_next goes]
    exact ih window (by omega)

def markPlace (gap : Nat) : Nat := (gap-1)%(dataHeaderSize-markDwld.length)+1

theorem getDataHeader_iff {bytes : List UInt8} {result : HeaderResult} :
    getDataHeader bytes = result ↔ Returns headerBody (headerStart bytes) result := by
  have returns := getDataHeader_returns bytes
  constructor
  · rintro rfl
    exact returns
  · exact returns_unique returns

/-- The header is returned, with the stream behind it, exactly without garbage, or where it has
the same bytes at the places that are confused. -/
theorem getDataHeader_resync_iff (precedes : Precedes garbage head) (rest : List UInt8) :
    getDataHeader (garbage ++ head ++ rest) = .ok head rest ↔
      garbage = [] ∨ Repeats (markPlace garbage.length) head := by
  have start := window_start (garbage ++ head ++ rest)
  have size := precedes.size
  rw [getDataHeader_iff]
  by_cases none : garbage = []
  · refine iff_of_true (returns_done ?_) (.inl none)
    subst none
    rw [window_body start (by rw [List.length_append,List.length_append,size]; omega)]
    have shown : slice ([] ++ head ++ rest) 0 dataHeaderSize = head := List.take_left' size
    have left : ([] ++ head ++ rest).drop (0+dataHeaderSize) = rest := by
      rw [Nat.zero_add]
      exact List.drop_left' size
    rw [shown,left]
    exact headerCheck_right size precedes.mark precedes.sum
  · have some_byte := List.length_pos_iff.mpr none
    have step : dataHeaderSize-markDwld.length = 24 := rfl
    have long : dataHeaderSize = 36 := rfl
    have positive : 0 < markPlace garbage.length := Nat.succ_pos _
    have small : markPlace garbage.length ≤ 24 := Nat.mod_lt _ (by decide)
    have place : garbage.length = 0+24*((garbage.length-1)/24)+markPlace garbage.length := by
      have split := Nat.div_add_mod (garbage.length-1) 24
      rw [markPlace,step]
      omega
    have gap : (garbage.drop (garbage.length-markPlace garbage.length)).length = markPlace garbage.length := by
      rw [List.length_drop]
      omega
    rw [seek precedes positive small ((garbage.length-1)/24) start place,
      shifted_returns size precedes.mark precedes.sum gap positive (by omega),or_iff_right none]

instance (bytes mark : List UInt8) (i : Nat) : Decidable (MarkAt bytes mark i) :=
  inferInstanceAs (Decidable (_ = _))

theorem getDataHeader_one_byte : Precedes [7] twoBytes.1 ∧
    getDataHeader ([7] ++ twoBytes.1 ++ [7,8]) = .failed (-2) [] := by
  refine ⟨⟨by decide,by decide,by decide,?_⟩,by decide +kernel⟩
  decide

theorem getDataHeader_front : getDataHeader ([] ++ twoBytes.1 ++ [7,8]) = .ok twoBytes.1 [7,8] := by
  have precedes : Precedes [] twoBytes.1 :=
    ⟨by decide,by decide,by decide,fun i below => absurd below (Nat.not_lt_zero i)⟩
  exact (getDataHeader_resync_iff precedes [7,8]).mpr (.inl rfl)

end Claim

end MoCodes.MoCloud.Client.HeaderResync
