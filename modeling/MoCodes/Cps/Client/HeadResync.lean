import MoCodes.Cps.Client.RecvData

/-! Bytes before a header. The window that is to be kept for the next pass is copied from
whole headers behind the plain buffer, so its bytes are not those that were received. -/
namespace MoCodes.Cps.Client
open MoCodes.Lib.Loop MoCodes.Utils.Search

section Window

variable {algo : CryptAlgo} {beyond : Nat → Bytes} {state : HeadState}

def window (state : HeadState) : List UInt8 :=
  state.kept ++ (readn state.stream (dataHeaderSize-state.kept.length)).1

theorem headBody_ok {header : DataHeader} {stream : List UInt8}
    (step : headBody algo beyond state = .done (.ok header stream)) : MarkAt (window state) markServer 0 := by
  simp only [headBody] at step
  split at step
  · cases step
  split at step
  · cases step
  split at step
  · cases step
  split at step
  · split at step
    · next right =>
      simp only [isRightFormatHeader,Bool.and_eq_true] at right
      exact (sameMark_take right.1.1).1
    · cases step
  · cases step

theorem headBody_kept {after : HeadState} (start : state.kept.length < dataHeaderSize)
    (step : headBody algo beyond state = .next after) :
    ∃ n len, 0 < len ∧ after.kept = beyondPlain beyond state.pass n len := by
  have again : 0 < markServer.length-1 := by decide
  simp only [headBody] at step
  split at step
  · cases step
  next whole =>
  split at step
  · cases step
  split at step
  · cases step
    exact ⟨_,_,again,rfl⟩
  next lost =>
  split at step
  · split at step
    · cases step
    · cases step
      exact ⟨_,_,again,rfl⟩
  · cases step
    refine ⟨_,_,?_,rfl⟩
    have size : (window state).length = dataHeaderSize := by
      rw [window,List.length_append,not_ne_iff.mp whole]
      omega
    have inside : (findMark (window state) markServer).toNat+markServer.length ≤ _ :=
      findMark_inside (by decide) (by rw [size]; decide) (by rw [size]; decide)
    have some : 0 < markServer.length := by decide
    have bound : (findMark (window state) markServer).toNat < dataHeaderSize := by omega
    exact Nat.sub_pos_of_lt bound

/-- With nothing but zeros behind the buffer no later window begins with the mark. -/
structure Shifted (state : HeadState) : Prop where
  short : state.kept.length < dataHeaderSize
  zero : state.kept.head? = some 0

theorem headBody_shifted {after : HeadState} (start : state.kept.length < dataHeaderSize)
    (step : headBody algo (fun _ _ => 0) state = .next after) : Shifted after := by
  refine ⟨(headBody_next start step).1,?_⟩
  obtain ⟨n,len,some,kept⟩ := headBody_kept start step
  rw [kept,beyondPlain,List.head?_map,List.head?_range,if_neg (by omega)]
  rfl

theorem shifted_not_ok (shifted : Shifted state) (header : DataHeader) (stream : List UInt8) :
    headBody algo beyond state ≠ .done (.ok header stream) := by
  intro step
  have front := markAt_byte (headBody_ok step) (show 0 < markServer.length by decide)
  rw [window,Nat.add_zero] at front
  have zero := shifted.zero
  cases kept : state.kept with
  | nil =>
    rw [kept] at zero
    cases zero
  | cons byte rest =>
    rw [kept] at zero front
    cases zero
    cases front

/-- Garbage in front of a header, with zeros behind the buffer: no header is returned at all. -/
theorem recvHead_garbage {stream : List UInt8} (garbage : ¬ MarkAt (stream.take dataHeaderSize) markServer 0)
    (header : DataHeader) (rest : List UInt8) :
    recvHeadAndCheck algo (fun _ _ => 0) stream ≠ .ok header rest := by
  obtain ⟨result,ended⟩ := recvHead_ends algo (fun _ _ => 0) stream
  rw [recvHeadAndCheck,ended,Option.getD_some]
  refine returns_invariant (fun state => state = ⟨0,[],stream⟩ ∨ Shifted state)
    (fun result => result ≠ .ok header rest) ?_ ?_ (.inl rfl) ⟨_,ended⟩
  · rintro state after (rfl | shifted) step
    · exact .inr (headBody_shifted (by show 0 < dataHeaderSize; decide) step)
    · exact .inr (headBody_shifted shifted.short step)
  · rintro state result (rfl | shifted) step rfl
    · exact garbage (headBody_ok step)
    · exact shifted_not_ok shifted header rest step

end Window

section Claim

variable {algo : CryptAlgo} {garbage head : List UInt8}

/-- Whatever lies behind the buffer, the header behind the garbage is the one returned
exactly when there is no garbage. -/
theorem recvHeadAndCheck_resync_iff (size : head.length = dataHeaderSize) (right : isRightFormatHeader head = true)
    (clean : ∀ i < garbage.length, ¬ MarkAt (garbage ++ head) markServer i) (rest : List UInt8) :
    (∀ beyond, recvHeadAndCheck algo beyond (garbage ++ head ++ rest) = .ok (dataHeader head) rest) ↔
      algo.known = true ∧ garbage = [] := by
  constructor
  · intro resync
    constructor
    · by_contra unknown
      obtain ⟨err,left,failed⟩ :=
        recvHead_unknown (fun _ _ => 0) (by simpa using unknown) (garbage ++ head ++ rest)
      rw [resync] at failed
      cases failed
    · by_contra some
      refine recvHead_garbage ?_ _ _ (resync fun _ _ => 0)
      have before := clean 0 (List.length_pos_iff.mpr some)
      have front : markServer.length ≤ dataHeaderSize := by decide
      rw [markAt_take (by omega),markAt_left]
      · exact before
      · rw [List.length_append,size]
        omega
  · rintro ⟨known,rfl⟩ beyond
    exact recvHead_right beyond known size right rest

/-- A block of one byte. -/
def oneByteHead : List UInt8 :=
  markServer ++ [0,0,0,0,5,0,0,0,1,0,0,0,1,0,0,0,0,0,0,0,0,0,0,0,0,0,0,0,1,0,0,0,192,0,0,0]

theorem recvHeadAndCheck_one_byte_before :
    isRightFormatHeader oneByteHead = true ∧ (∀ i < 1, ¬ MarkAt ([7] ++ oneByteHead) markServer i) ∧
      ∃ stream, recvHeadAndCheck .rc4 (fun _ _ => 0) ([7] ++ oneByteHead ++ [9]) = .failed (-1) stream := by
  refine ⟨by decide +kernel,fun i below => ?_,?_⟩
  · obtain rfl : i = 0 := by omega
    show ¬ (([7] ++ oneByteHead).drop 0).take markServer.length = markServer
    decide +kernel
  · exact ⟨_,rfl⟩

theorem recvHeadAndCheck_nothing_before :
    (∀ beyond, recvHeadAndCheck .rc4 beyond ([] ++ oneByteHead ++ [9]) = .ok (dataHeader oneByteHead) [9]) ∧
      dataHeader oneByteHead = ⟨5,1,1,0,1⟩ := by
  refine ⟨(recvHeadAndCheck_resync_iff ?_ ?_ ?_ [9]).mpr ⟨rfl,rfl⟩,?_⟩
  · decide +kernel
  · decide +kernel
  · exact fun i below => absurd below (Nat.not_lt_zero i)
  · decide +kernel

end Claim

end MoCodes.Cps.Client
