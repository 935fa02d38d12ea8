import MoCodes.CryptFileTool.CftProt
import MoCodes.Lib.RingQueue
import Mathlib.Algebra.GroupWithZero.Nat

/-! The queue of cftProt.cpp in memory: a ring of request nodes around a head node. A batch is
linked as a list of its own and then put in. Reading, writing or freeing what is not allocated is
a fault. -/
namespace MoCodes.CryptFileTool
open Lib.Loop Lib.Ring Lib.RingQueue

inductive MocryptMethod where
  | encrypt | decrypt
  deriving DecidableEq

/-- CFT_REQUEST_INFO; the two buffers hold strings. -/
structure CftRequestInfo where
  srcFilepath : List UInt8
  passwd : List UInt8
  algoNo : MoCftAlgo
  cryptMethod : MocryptMethod
  deriving DecidableEq

abbrev ReqHeap := Heap CftRequestInfo

def cftProtMallocFailed : Int := -10003

section Calls

variable (heap : ReqHeap) (gReqQueue : Nat)

/-- A node is linked into the list of the batch, which may be a single node with no links. -/
def addTmp (pTmpList pCurNode : Nat) : Option ReqHeap := do
  let tmp ← heap pTmpList
  match tmp.prev with
  | none =>
    let heap ← setPrev heap pTmpList pCurNode
    let heap ← setNext heap pTmpList pCurNode
    let heap ← setPrev heap pCurNode pTmpList
    setNext heap pCurNode pTmpList
  | some pCurLastNode =>
    let heap ← setPrev heap pTmpList pCurNode
    let heap ← setNext heap pCurLastNode pCurNode
    let heap ← setPrev heap pCurNode pCurLastNode
    setNext heap pCurNode pTmpList

/-- The loop over the requests that are left, from the `i`-th on, as `malloc` answers. -/
def buildTmp (malloc : Nat → Option Nat) : Nat → List CftRequestInfo → ReqHeap → Option Nat →
    Option (Bool × ReqHeap × Option Nat)
  | _,[],heap,pTmpList => some (true,heap,pTmpList)
  | i,req :: pRequests,heap,pTmpList =>
    match malloc i,pTmpList with
    | none,_ => some (false,heap,pTmpList)
    | some pCurNode,none => buildTmp malloc (i+1) pRequests (allocate heap pCurNode req) (some pCurNode)
    | some pCurNode,some tmp =>
      (addTmp (allocate heap pCurNode req) tmp pCurNode).bind fun heap =>
        buildTmp malloc (i+1) pRequests heap (some tmp)

/-- The links of the first and the last node of the batch. -/
def closeTmp (pTmpList pCurLastNode : Nat) : Option ReqHeap := do
  let tmp ← heap pTmpList
  match tmp.prev with
  | none =>
    let heap ← setPrev heap pTmpList pCurLastNode
    setNext heap pTmpList gReqQueue
  | some rear =>
    let heap ← setNext heap rear gReqQueue
    setPrev heap pTmpList pCurLastNode

def addQueue (pTmpList : Nat) : Option ReqHeap := do
  let head ← heap gReqQueue
  match head.prev with
  | none =>
    let heap ← setNext heap gReqQueue pTmpList
    let tmp ← heap pTmpList
    let heap ← setPrev heap gReqQueue (tmp.prev.getD pTmpList)
    closeTmp heap gReqQueue pTmpList gReqQueue
  | some pCurLastNode =>
    let heap ← setNext heap pCurLastNode pTmpList
    let tmp ← heap pTmpList
    let heap ← setPrev heap gReqQueue (tmp.prev.getD pTmpList)
    closeTmp heap gReqQueue pTmpList pCurLastNode

/-- The outer `none` is a clean-up that goes on after so many turns, the inner one a fault. -/
def cftProtAddRequest (turns : Nat) (pRequests : List CftRequestInfo) (malloc : Nat → Option Nat) :
    Option (Option (Int × ReqHeap)) :=
  if pRequests = [] then some (some (cftProtInputInvalid.val,heap))
  else
    match buildTmp malloc 0 pRequests heap none with
    | none => some none
    | some (false,heap,pTmpList) =>
      (run (freeBody none) turns (heap,pTmpList)).map (Option.map (Prod.mk cftProtMallocFailed))
    | some (true,heap,pTmpList) => some (pTmpList.bind fun tmp => (addQueue heap gReqQueue tmp).map (Prod.mk 0))

def deQueue : Option (Option Nat × ReqHeap) := do
  let head ← heap gReqQueue
  match head.next with
  | none => return (none,heap)
  | some pRet =>
    let node ← heap pRet
    if node.next = some gReqQueue then
      let heap ← unlink heap gReqQueue
      return (some pRet,heap)
    else
      let next ← node.next
      let heap ← setNext heap gReqQueue next
      let heap ← setPrev heap next gReqQueue
      return (some pRet,heap)

/-- As for `cftProtAddRequest`. -/
def clearQueue (turns : Nat) : Option (Option ReqHeap) :=
  match heap gReqQueue with
  | none => some none
  | some head =>
    (run (freeBody (some gReqQueue)) turns (heap,head.next)).map fun freed =>
      freed.bind fun heap => unlink heap gReqQueue

end Calls

/-- The links at the seams lead from the one list to the other and back, and all else is as it was. -/
structure Spliced (heap after : ReqHeap) (head last first rear : Nat) : Prop where
  info : infoOf after = infoOf heap
  next : ∀ addr, nextOf after addr =
    if addr = last then some first else if addr = rear then some head else nextOf heap addr
  prev : ∀ addr, prevOf after addr =
    if addr = first then some last else if addr = head then some rear else prevOf heap addr

section Writes

variable {heap after : ReqHeap} {head first addr : Nat}

theorem addTmp_spliced {pTmpList pCurNode last : Nat} (tmp : (infoOf heap pTmpList).isSome)
    (cur : (infoOf heap pCurNode).isSome) (ending : (prevOf heap pTmpList).getD pTmpList = last)
    (there : (infoOf heap last).isSome) (apart : pCurNode ≠ last) :
    ∃ after, addTmp heap pTmpList pCurNode = some after ∧ Spliced heap after pTmpList last pCurNode pCurNode := by
  obtain ⟨node,found,_,prev⟩ := node_of_info tmp
  obtain ⟨tmp_req,tmp⟩ := Option.isSome_iff_exists.mp tmp
  obtain ⟨cur_req,cur⟩ := Option.isSome_iff_exists.mp cur
  obtain ⟨last_req,there⟩ := Option.isSome_iff_exists.mp there
  obtain ⟨one,first_step,info_one,next_one,prev_one⟩ := setPrev_views pCurNode tmp
  obtain ⟨two,second_step,info_two,next_two,prev_two⟩ := setNext_views pCurNode (info_one ▸ there)
  obtain ⟨three,third_step,info_three,next_three,prev_three⟩ := setPrev_views last (info_two ▸ info_one ▸ cur)
  obtain ⟨four,fourth_step,info_four,next_four,prev_four⟩ :=
    setNext_views pTmpList (info_three ▸ info_two ▸ info_one ▸ cur)
  refine ⟨four,?_,?_,?_,?_⟩
  · -- a single node is its own last one, and its links are written in another order
    rw [← prev] at ending
    cases links : node.prev with
    | none =>
      rw [links] at ending
      obtain rfl : pTmpList = last := ending
      simp [addTmp,found,links,first_step,second_step,third_step,fourth_step]
    | some pCurLastNode =>
      rw [links] at ending
      obtain rfl : pCurLastNode = last := ending
      simp [addTmp,found,links,first_step,second_step,third_step,fourth_step]
  · rw [info_four,info_three,info_two,info_one]
  · intro addr
    rw [next_four,next_three,next_two,next_one]
    simp only [Function.update_apply]
    split_ifs with same same' same' <;> simp_all
  · intro addr
    rw [prev_four,prev_three,prev_two,prev_one]
    simp only [Function.update_apply]

theorem closeTmp_spliced (gReqQueue last : Nat) {pTmpList rear : Nat} {tmp_req rear_req : CftRequestInfo}
    (tmp : infoOf heap pTmpList = some tmp_req) (ending : (prevOf heap pTmpList).getD pTmpList = rear)
    (there : infoOf heap rear = some rear_req) :
    ∃ after, closeTmp heap gReqQueue pTmpList last = some after ∧ infoOf after = infoOf heap ∧
      nextOf after = Function.update (nextOf heap) rear (some gReqQueue) ∧
      prevOf after = Function.update (prevOf heap) pTmpList (some last) := by
  obtain ⟨node,found,_⟩ := infoOf_some.mp tmp
  rw [prevOf_of_node found] at ending
  cases links : node.prev with
  | none =>
    rw [links] at ending
    obtain rfl : pTmpList = rear := ending
    obtain ⟨one,first_step,info_one,next_one,prev_one⟩ := setPrev_views last tmp
    obtain ⟨two,second_step,info_two,next_two,prev_two⟩ := setNext_views gReqQueue (info_one ▸ tmp)
    refine ⟨two,?_,?_,?_,?_⟩
    · simp [closeTmp,found,links,first_step,second_step]
    · rw [info_two,info_one]
    · rw [next_two,next_one]
    · rw [prev_two,prev_one]
  | some prev =>
    rw [links] at ending
    obtain rfl : prev = rear := ending
    obtain ⟨one,first_step,info_one,next_one,prev_one⟩ := setNext_views gReqQueue there
    obtain ⟨two,second_step,info_two,next_two,prev_two⟩ := setPrev_views last (info_one ▸ tmp)
    refine ⟨two,?_,?_,?_,?_⟩
    · simp [closeTmp,found,links,first_step,second_step]
    · rw [info_two,info_one]
    · rw [next_two,next_one]
    · rw [prev_two,prev_one]

theorem addQueue_spliced {gReqQueue pTmpList last rear : Nat} (head : (infoOf heap gReqQueue).isSome)
    (tmp : (infoOf heap pTmpList).isSome) (ending : (prevOf heap gReqQueue).getD gReqQueue = last)
    (ending' : (prevOf heap pTmpList).getD pTmpList = rear) (there : (infoOf heap last).isSome)
    (there' : (infoOf heap rear).isSome) (apart : pTmpList ≠ gReqQueue) (apart' : last ≠ rear) :
    ∃ after, addQueue heap gReqQueue pTmpList = some after ∧ Spliced heap after gReqQueue last pTmpList rear := by
  obtain ⟨node,found,_,prev⟩ := node_of_info head
  obtain ⟨head_req,head⟩ := Option.isSome_iff_exists.mp head
  obtain ⟨tmp_req,tmp⟩ := Option.isSome_iff_exists.mp tmp
  obtain ⟨last_req,there⟩ := Option.isSome_iff_exists.mp there
  obtain ⟨rear_req,there'⟩ := Option.isSome_iff_exists.mp there'
  obtain ⟨one,first_step,info_one,next_one,prev_one⟩ := setNext_views pTmpList there
  have tmp_one : infoOf one pTmpList = some tmp_req := by rw [info_one,tmp]
  obtain ⟨behind,found',_,prev'⟩ := node_of_info (Option.isSome_iff_exists.mpr ⟨_,tmp_one⟩)
  rw [prev_one] at prev'
  obtain ⟨two,second_step,info_two,next_two,prev_two⟩ := setPrev_views rear (info_one ▸ head)
  obtain ⟨three,third_step,info_three,next_three,prev_three⟩ := closeTmp_spliced gReqQueue last
    (info_two ▸ tmp_one) (by rw [prev_two,Function.update_of_ne apart,prev_one]; exact ending') (info_two ▸ info_one ▸ there')
  refine ⟨three,?_,?_,?_,?_⟩
  · rw [← prev] at ending
    rw [← prev'] at ending'
    cases links : node.prev with
    | none =>
      rw [links] at ending
      obtain rfl : gReqQueue = last := ending
      simp [addQueue,found,links,first_step,found',ending',second_step,third_step]
    | some pCurLastNode =>
      rw [links] at ending
      obtain rfl : pCurLastNode = last := ending
      simp [addQueue,found,links,first_step,found',ending',second_step,third_step]
  · rw [info_three,info_two,info_one]
  · intro addr
    rw [next_three,next_two,next_one]
    simp only [Function.update_apply]
    split_ifs with same same' same' <;> simp_all
  · intro addr
    rw [prev_three,prev_two,prev_one]
    simp only [Function.update_apply]

end Writes

section Batch

variable {heap : ReqHeap} {head : Nat} {cells : List (Cell CftRequestInfo)}

theorem Spliced.outside {after : ReqHeap} {last first rear addr : Nat} (spliced : Spliced heap after head last first rear)
    (not_last : addr ≠ last) (not_rear : addr ≠ rear) (not_first : addr ≠ first) (not_head : addr ≠ head) :
    after addr = heap addr := by
  apply node_congr
  · rw [spliced.info]
  · rw [spliced.next,if_neg not_last,if_neg not_rear]
  · rw [spliced.prev,if_neg not_first,if_neg not_head]

theorem hung_last (hung : Hung heap head cells) :
    ∃ last, (head :: addrs cells).getLast? = some last ∧ (prevOf heap head).getD head = last ∧
      last ∈ head :: addrs cells := by
  refine ⟨(prevOf heap head).getD head,?_,rfl,?_⟩
  · rw [hung_prev hung,List.getLast?_cons]
  · apply List.mem_of_getLast?
    rw [hung_prev hung,List.getLast?_cons]

theorem hung_allocated {addr : Nat} (hung : Hung heap head cells) (unused : heap addr = none) :
    addr ∉ head :: addrs cells := by
  intro member
  have there := hung_info hung member
  rw [infoOf,unused] at there
  cases there

theorem hung_beside {addr : Nat} (req : CftRequestInfo) (hung : Hung heap head cells) (unused : heap addr = none) :
    Hung (allocate heap addr req) head cells := by
  refine hung_of_same hung fun other member => ?_
  have apart : other ≠ addr := by
    rintro rfl
    exact hung_allocated hung unused member
  exact Function.update_of_ne apart ..

theorem addTmp_hung {cur : Nat} (req : CftRequestInfo) (hung : Hung heap head cells) (unused : heap cur = none) :
    ∃ after, addTmp (allocate heap cur req) head cur = some after ∧ Hung after head (cells ++ [(cur,req)]) ∧
      infoOf after head = infoOf heap head ∧ ∀ addr ∉ head :: addrs cells, addr ≠ cur → after addr = heap addr := by
  have beside := hung_beside req hung unused
  have out := hung_allocated hung unused
  obtain ⟨last,ending,links,inside⟩ := hung_last beside
  have cur_info : infoOf (allocate heap cur req) cur = some req := by simp [infoOf_allocate]
  have not_last : cur ≠ last := fun same => out (same ▸ inside)
  have not_head : head ≠ cur := fun same => out (same ▸ List.mem_cons_self)
  obtain ⟨after,done,spliced⟩ := addTmp_spliced beside.there (Option.isSome_iff_exists.mpr ⟨req,cur_info⟩) links
    (hung_info beside inside) not_last
  refine ⟨after,done,?_,?_,?_⟩
  · refine hung_splice beside hung_allocate cur_info ?_ ending rfl spliced.info spliced.next spliced.prev
    intro addr member here
    exact out (List.mem_singleton.mp here ▸ member)
  · rw [spliced.info,infoOf_allocate,Function.update_of_ne not_head]
  · intro addr outside apart
    have apart_last : addr ≠ last := fun same => outside (same ▸ inside)
    have apart_head : addr ≠ head := fun same => outside (same ▸ List.mem_cons_self)
    rw [spliced.outside apart_last apart apart apart_head]
    exact Function.update_of_ne apart ..

/-- The batch as far as there was memory: `row` are the nodes that `malloc` gave from here on. -/
theorem buildTmp_hung {malloc : Nat → Option Nat} {row : List Nat} {i : Nat} {pRequests : List CftRequestInfo}
    (answers : ∀ j, malloc (i+j) = row[j]?) (hung : Hung heap head cells) (short : row.length ≤ pRequests.length)
    (distinct : row.Nodup) (unused : ∀ addr ∈ row, heap addr = none) :
    ∃ after, buildTmp malloc i pRequests heap (some head) =
        some (decide (row.length = pRequests.length),after,some head) ∧
      Hung after head (cells ++ row.zip pRequests) ∧ infoOf after head = infoOf heap head ∧
      ∀ addr ∉ head :: addrs cells, addr ∉ row → after addr = heap addr := by
  induction pRequests generalizing row i heap cells with
  | nil =>
    obtain rfl : row = [] := List.length_eq_zero_iff.mp (Nat.le_zero.mp short)
    exact ⟨heap,rfl,by simpa using hung,rfl,fun _ _ _ => rfl⟩
  | cons req pRequests ih =>
    cases row with
    | nil =>
      have refused : malloc i = none := answers 0
      exact ⟨heap,by simp [buildTmp,refused],by simpa using hung,rfl,fun _ _ _ => rfl⟩
    | cons cur row =>
      have given : malloc i = some cur := answers 0
      obtain ⟨out,different⟩ := List.nodup_cons.mp distinct
      obtain ⟨here,others⟩ := List.forall_mem_cons.mp unused
      obtain ⟨next,done,longer,info,outside⟩ := addTmp_hung req hung here
      have free_still : ∀ addr ∈ row, next addr = none := by
        intro addr member
        have apart : addr ≠ cur := fun same => out (same ▸ member)
        rw [outside addr (hung_allocated hung (others addr member)) apart]
        exact others addr member
      have answers' : ∀ j, malloc (i+1+j) = row[j]? := by
        intro j
        rw [Nat.add_assoc,Nat.add_comm 1 j,answers]
        rfl
      obtain ⟨after,built,whole,info',outside'⟩ := ih answers' longer (Nat.le_of_succ_le_succ short) different free_still
      refine ⟨after,?_,?_,?_,?_⟩
      · simp [buildTmp,given,done,built]
      · simpa using whole
      · rw [info',info]
      · intro addr out_cells out_line
        obtain ⟨apart,out_line⟩ := not_or.mp (List.mem_cons.not.mp out_line)
        rw [outside' addr ?_ out_line,outside addr out_cells apart]
        simp only [addrs,List.map_append,List.map_cons,List.map_nil,List.mem_cons,List.mem_append,
          List.not_mem_nil,or_false,not_or] at out_cells ⊢
        exact ⟨out_cells.1,out_cells.2,apart⟩

/-- The same from the start, with at least one node. -/
theorem buildTmp_first {malloc : Nat → Option Nat} {first : Nat} {row : List Nat} (req : CftRequestInfo)
    {pRequests : List CftRequestInfo} (answers : ∀ j, malloc j = (first :: row)[j]?)
    (short : row.length ≤ pRequests.length) (distinct : (first :: row).Nodup)
    (unused : ∀ addr ∈ first :: row, heap addr = none) :
    ∃ after, buildTmp malloc 0 (req :: pRequests) heap none =
        some (decide (row.length = pRequests.length),after,some first) ∧
      Hung after first (row.zip pRequests) ∧ infoOf after first = some req ∧
      ∀ addr ∉ first :: row, after addr = heap addr := by
  obtain ⟨out,different⟩ := List.nodup_cons.mp distinct
  have given : malloc 0 = some first := answers 0
  have single : Hung (allocate heap first req) first ([] : List (Cell CftRequestInfo)) := hung_allocate
  have unused' : ∀ addr ∈ row, allocate heap first req addr = none := by
    intro addr member
    have apart : addr ≠ first := fun same => out (same ▸ member)
    rw [allocate,Function.update_of_ne apart]
    exact unused addr (List.mem_cons_of_mem _ member)
  have answers' : ∀ j, malloc (0+1+j) = row[j]? := by
    intro j
    rw [Nat.zero_add,Nat.add_comm 1 j,answers]
    rfl
  obtain ⟨after,built,hung,info,outside⟩ := buildTmp_hung answers' single short different unused'
  refine ⟨after,?_,hung,?_,?_⟩
  · simp [buildTmp,given,built]
  · simp [info,infoOf_allocate]
  · intro addr outside_line
    obtain ⟨apart,out_line⟩ := not_or.mp (List.mem_cons.not.mp outside_line)
    rw [outside addr (by simpa [addrs] using apart) out_line]
    exact Function.update_of_ne apart ..

end Batch

section Refusal

variable {heap after : ReqHeap} {pRequests : List CftRequestInfo} {row : List Nat}

/-- The walk of the clean-up over a list of nodes that hangs at the first of them. -/
theorem run_cleanup {first : Nat} {cells : List (Cell CftRequestInfo)} (hung : Hung after first cells) (turns : Nat) :
    run (freeBody none) ((first :: addrs cells).length+turns) (after,some first) =
      run (freeBody none) turns
        (freeAll after (first :: addrs cells),if cells = [] then none else some first) := by
  refine run_freeBody (hung.line.imp fun one other linked => linked.1) ?_ ?_ hung.nodup ?_ turns
  · intro last ending
    cases cells with
    | nil =>
      obtain rfl : first = last := Option.some.inj ending
      exact (hung.idle rfl).1
    | cons cell cells =>
      rw [if_neg (List.cons_ne_nil _ _)]
      exact (hung.back last (by simpa [addrs,List.getLast?_cons] using ending)).1
  · intro addr member
    obtain ⟨node,found,_⟩ := node_of_info (hung_info hung member)
    rw [found]
    rfl
  · intro addr _ same
    cases same

theorem addRequest_refused {first : Nat} (gReqQueue : Nat) (req : CftRequestInfo)
    (short : row.length < pRequests.length) (distinct : (first :: row).Nodup)
    (unused : ∀ addr ∈ first :: row, heap addr = none) (turns : Nat) :
    ∃ after, Hung after first (row.zip pRequests) ∧
      (∀ addr ∉ first :: row, after addr = heap addr) ∧
      cftProtAddRequest heap gReqQueue turns (req :: pRequests) (fun i => (first :: row)[i]?) =
        (run (freeBody none) turns (after,some first)).map (Option.map (Prod.mk cftProtMallocFailed)) := by
  have answers : ∀ i, (fun i : Nat => (first :: row)[i]?) i = (first :: row)[i]? := fun _ => rfl
  obtain ⟨after,built,hung,_,outside⟩ := buildTmp_first req answers (Nat.le_of_lt short) distinct unused
  refine ⟨after,hung,outside,?_⟩
  rw [cftProtAddRequest,if_neg (List.cons_ne_nil _ _),built]
  simp [Nat.ne_of_lt short]

theorem zip_addrs (first : Nat) (short : row.length < pRequests.length) :
    first :: addrs (row.zip pRequests) = first :: row ∧ (row.zip pRequests = [] ↔ row = []) := by
  have zipped : addrs (row.zip pRequests) = row := List.map_fst_zip (Nat.le_of_lt short)
  refine ⟨by rw [zipped],?_⟩
  conv_rhs => rw [← zipped]
  simp [addrs]

/-- Two nodes or more are a ring, which leads the clean-up back to the first, freed by then. -/
theorem addRequest_fault (gReqQueue turns : Nat) (short : row.length < pRequests.length) (distinct : row.Nodup)
    (unused : ∀ addr ∈ row, heap addr = none) (several : 1 < row.length) (result : Int × ReqHeap) :
    cftProtAddRequest heap gReqQueue turns pRequests (fun i => row[i]?) ≠ some (some result) := by
  intro done
  match row,pRequests,several,short with
  | first :: row,req :: pRequests,several,short =>
    have fewer : row.length < pRequests.length := Nat.lt_of_succ_lt_succ short
    obtain ⟨after,hung,_,call⟩ := addRequest_refused gReqQueue req fewer distinct unused turns
    rw [call] at done
    obtain ⟨freed,walked,mapped⟩ := Option.map_eq_some_iff.mp done
    have ring : ¬ row.zip pRequests = [] := by
      rw [(zip_addrs first fewer).2]
      rintro rfl
      simp at several
    have fault : Returns (freeBody none) (after,some first) none := by
      refine ⟨(first :: addrs (row.zip pRequests)).length+1,?_⟩
      rw [run_cleanup hung,if_neg ring]
      apply run_done
      simp [freeBody,freeAll_apply]
    have same := returns_unique fault ⟨turns,walked⟩
    rw [← same] at mapped
    cases mapped

theorem addRequest_restored (gReqQueue : Nat) (short : row.length < pRequests.length)
    (unused : ∀ addr ∈ row, heap addr = none) (few : row.length ≤ 1) :
    ∃ turns, cftProtAddRequest heap gReqQueue turns pRequests (fun i => row[i]?) =
      some (some (cftProtMallocFailed,heap)) := by
  match row,pRequests,few,short with
  | [],req :: pRequests,few,short => exact ⟨1,rfl⟩
  | [first],req :: pRequests,few,short =>
    have fewer : ([] : List Nat).length < pRequests.length := Nat.lt_of_succ_lt_succ short
    obtain ⟨after,hung,outside,call⟩ := addRequest_refused gReqQueue req fewer (by simp) unused 2
    refine ⟨2,?_⟩
    have walked : run (freeBody none) 2 (after,some first) = _ := run_cleanup hung 1
    rw [(zip_addrs first fewer).1,if_pos ((zip_addrs first fewer).2.mpr rfl)] at walked
    have restored : freeAll after [first] = heap := by
      funext addr
      rw [freeAll_apply]
      split_ifs with here
      · exact (unused addr here).symm
      · exact outside addr here
    rw [call,walked,restored]
    rfl

/-- When `malloc` fails behind the nodes of the row, the call leaves the memory as it was, without
a fault, exactly if that is one node at most. -/
theorem addRequest_atomic_iff (gReqQueue : Nat) (short : row.length < pRequests.length) (distinct : row.Nodup)
    (unused : ∀ addr ∈ row, heap addr = none) :
    (∃ turns, cftProtAddRequest heap gReqQueue turns pRequests (fun i => row[i]?) =
      some (some (cftProtMallocFailed,heap))) ↔ row.length ≤ 1 := by
  constructor
  · rintro ⟨turns,done⟩
    exact not_lt.mp fun several => addRequest_fault gReqQueue turns short distinct unused several _ done
  · exact addRequest_restored gReqQueue short unused

def someRequest (name : UInt8) : CftRequestInfo := ⟨[47,name],[],.rc4,.encrypt⟩

theorem addRequest_atomic_second :
    ∃ turns, cftProtAddRequest (fun _ => none) 0 turns [someRequest 97,someRequest 98] (fun i => [1][i]?) =
      some (some (cftProtMallocFailed,fun _ => none)) :=
  (addRequest_atomic_iff 0 (by decide) (by decide) fun _ _ => rfl).mpr (by decide)

/-- Of three requests the third gets no memory. -/
theorem addRequest_not_atomic :
    ¬ ∃ turns, cftProtAddRequest (fun _ => none) 0 turns [someRequest 97,someRequest 98,someRequest 99]
      (fun i => [1,2][i]?) = some (some (cftProtMallocFailed,fun _ => none)) := by
  rintro ⟨turns,done⟩
  exact addRequest_fault 0 turns (by decide) (by decide) (fun _ _ => rfl) (by decide) _ done

end Refusal

section Operations

variable {heap : ReqHeap} {gReqQueue : Nat} {cells : List (Cell CftRequestInfo)}

theorem addRequest_hung {pRequests : List CftRequestInfo} {row : List Nat} (turns : Nat)
    (hung : Hung heap gReqQueue cells) (whole : row.length = pRequests.length) (distinct : row.Nodup)
    (unused : ∀ addr ∈ row, heap addr = none) :
    ∃ ret after, cftProtAddRequest heap gReqQueue turns pRequests (fun i => row[i]?) = some (some (ret,after)) ∧
      Hung after gReqQueue (cells ++ row.zip pRequests) ∧
      ∀ addr ∉ gReqQueue :: addrs cells, addr ∉ row → after addr = heap addr := by
  cases pRequests with
  | nil => exact ⟨_,heap,rfl,by simpa using hung,fun _ _ _ => rfl⟩
  | cons req pRequests =>
    cases row with
    | nil => cases whole
    | cons first row =>
      have lengths : row.length = pRequests.length := Nat.succ.inj whole
      have answers : ∀ i, (fun i : Nat => (first :: row)[i]?) i = (first :: row)[i]? := fun _ => rfl
      obtain ⟨built,done,more,info,outside⟩ := buildTmp_first req answers lengths.le distinct unused
      have apart : ∀ addr ∈ gReqQueue :: addrs cells, addr ∉ first :: row := fun addr member new =>
        hung_allocated hung (unused addr new) member
      have zipped : addrs (row.zip pRequests) = row := List.map_fst_zip lengths.le
      have queue : Hung built gReqQueue cells := hung_of_same hung fun addr member =>
        outside addr (apart addr member)
      obtain ⟨last,ending,links,inside⟩ := hung_last queue
      obtain ⟨rear,ending',links',inside'⟩ := hung_last more
      rw [zipped] at inside'
      have not_rear : last ≠ rear := fun same => apart last inside (same ▸ inside')
      have not_head : first ≠ gReqQueue := fun same => apart first (same ▸ List.mem_cons_self) List.mem_cons_self
      obtain ⟨after,put,spliced⟩ := addQueue_spliced queue.there more.there links links' (hung_info queue inside)
        (hung_info more (by rw [zipped]; exact inside')) not_head not_rear
      refine ⟨0,after,?_,?_,?_⟩
      · rw [cftProtAddRequest,if_neg (List.cons_ne_nil _ _),done]
        simp [lengths,put]
      · rw [List.zip_cons_cons]
        refine hung_splice queue more info ?_ ending ending' spliced.info spliced.next spliced.prev
        rw [zipped]
        exact apart
      · intro addr out out'
        have apart_last : addr ≠ last := fun same => out (same ▸ inside)
        have apart_rear : addr ≠ rear := fun same => out' (same ▸ inside')
        have apart_first : addr ≠ first := fun same => out' (same ▸ List.mem_cons_self)
        have apart_head : addr ≠ gReqQueue := fun same => out (same ▸ List.mem_cons_self)
        rw [spliced.outside apart_last apart_rear apart_first apart_head,outside addr out']

theorem deQueue_nil (hung : Hung heap gReqQueue []) : deQueue heap gReqQueue = some (none,heap) := by
  obtain ⟨node,found,next,_⟩ := node_of_info hung.there
  rw [(hung.idle rfl).1] at next
  simp [deQueue,found,next]

theorem deQueue_cons {cell : Cell CftRequestInfo} (hung : Hung heap gReqQueue (cell :: cells)) :
    ∃ after, deQueue heap gReqQueue = some (some cell.1,after) ∧ Hung after gReqQueue cells ∧
      infoOf after = infoOf heap ∧
      ∀ addr ∉ gReqQueue :: addrs (cell :: cells), after addr = heap addr := by
  obtain ⟨head,found,next,_⟩ := node_of_info hung.there
  obtain ⟨head_req,there⟩ := Option.isSome_iff_exists.mp hung.there
  have begin : nextOf heap gReqQueue = some cell.1 := hung_next hung
  rw [begin] at next
  obtain ⟨ret,found',next',_⟩ := node_of_info (hung_info hung (List.mem_cons_of_mem _ List.mem_cons_self))
  cases cells with
  | nil =>
    have back := (hung.back cell.1 rfl).1
    rw [back] at next'
    obtain ⟨after,done,info,next_after,prev_after⟩ := unlink_views there
    refine ⟨after,by simp [deQueue,found,next,found',next',done],?_,info,?_⟩
    · apply hung_nil
      · rw [info,there]
        rfl
      · rw [next_after,Function.update_self]
      · rw [prev_after,Function.update_self]
    · intro addr out
      have apart : addr ≠ gReqQueue := fun same => out (same ▸ List.mem_cons_self)
      apply node_congr
      · rw [info]
      · rw [next_after,Function.update_of_ne apart]
      · rw [prev_after,Function.update_of_ne apart]
  | cons second cells =>
    have behind := (List.isChain_cons_cons.mp (List.isChain_cons_cons.mp hung.line).2).1.1
    rw [behind] at next'
    have not_head : second.1 ≠ gReqQueue := by
      intro same
      exact (List.nodup_cons.mp hung.nodup).1 (same ▸ by simp [addrs])
    obtain ⟨one,first_step,info_one,next_one,prev_one⟩ := setNext_views second.1 there
    have second_info := hung.infos second (List.mem_cons_of_mem _ List.mem_cons_self)
    obtain ⟨two,second_step,info_two,next_two,prev_two⟩ := setPrev_views gReqQueue (info_one ▸ second_info)
    refine ⟨two,by simp [deQueue,found,next,found',next',not_head,first_step,second_step],?_,?_,?_⟩
    · apply hung_tail hung rfl
      · rw [info_two,info_one]
      · rw [next_two,next_one]
      · rw [prev_two,prev_one]
    · rw [info_two,info_one]
    · intro addr out
      have apart : addr ≠ gReqQueue := fun same => out (same ▸ List.mem_cons_self)
      have apart' : addr ≠ second.1 := by
        rintro rfl
        exact out (by simp [addrs])
      apply node_congr
      · rw [info_two,info_one]
      · rw [next_two,next_one,Function.update_of_ne apart]
      · rw [prev_two,prev_one,Function.update_of_ne apart']

theorem clearQueue_hung {turns : Nat} (hung : Hung heap gReqQueue cells) (enough : cells.length < turns) :
    ∃ after, clearQueue heap gReqQueue turns = some (some after) ∧ Hung after gReqQueue [] ∧
      ∀ addr ∉ gReqQueue :: addrs cells, after addr = heap addr := by
  obtain ⟨head,found,next,_⟩ := node_of_info hung.there
  obtain ⟨out,distinct⟩ := List.nodup_cons.mp hung.nodup
  have start : head.next = (addrs cells).head?.or (if cells = [] then none else some gReqQueue) := by
    rw [next,hung_next hung]
    cases cells <;> rfl
  have walked : run (freeBody (some gReqQueue)) turns (heap,head.next) = some (some (freeAll heap (addrs cells))) := by
    have length : turns = (addrs cells).length+(turns-cells.length-1+1) := by
      simp only [addrs,List.length_map]
      omega
    rw [length,start,run_freeBody]
    · apply run_done
      unfold freeBody
      split_ifs with none <;> simp
    · exact hung.line.tail.imp fun one other linked => linked.1
    · intro last ending
      have some_cell : cells ≠ [] := by
        rintro rfl
        cases ending
      rw [if_neg some_cell]
      exact (hung.back last ending).1
    · intro addr member
      obtain ⟨node,here,_⟩ := node_of_info (hung_info hung (List.mem_cons_of_mem _ member))
      rw [here]
      rfl
    · exact distinct
    · intro addr member same
      obtain rfl := Option.some.inj same
      exact out member
  obtain ⟨head_req,there⟩ := Option.isSome_iff_exists.mp hung.there
  have there_still : infoOf (freeAll heap (addrs cells)) gReqQueue = some head_req := by
    rw [infoOf_freeAll,if_neg out,there]
  obtain ⟨after,done,info,next_after,prev_after⟩ := unlink_views there_still
  refine ⟨after,?_,?_,?_⟩
  · simp [clearQueue,found,walked,done]
  · apply hung_nil
    · rw [info,there_still]
      rfl
    · rw [next_after,Function.update_self]
    · rw [prev_after,Function.update_self]
  · intro addr outside
    obtain ⟨apart,outside⟩ := not_or.mp (List.mem_cons.not.mp outside)
    rw [← (freeAll_apply.trans (if_neg outside) : freeAll heap (addrs cells) addr = heap addr)]
    apply node_congr
    · rw [info]
    · rw [next_after,Function.update_of_ne apart]
    · rw [prev_after,Function.update_of_ne apart]

end Operations

/-- `handed` are the nodes that `deQueue` has returned and that are not freed yet. -/
structure Queue where
  heap : ReqHeap
  gReqQueue : Nat
  handed : List Nat := []

/-- `mallocs` are the nodes that the calls of `malloc` return; `free` is what the request thread
does with a node that it has got. -/
inductive QueueOp where
  | add (pRequests : List CftRequestInfo) (mallocs : List Nat)
  | deQueue
  | clear
  | free (pCurReq : Nat)

/-- The results of `deQueue`, and the requests that are still to come. -/
def QueueOp.pending (pending : List CftRequestInfo) : QueueOp → List (Option CftRequestInfo) × List CftRequestInfo
  | .add pRequests _ => ([],pending ++ pRequests)
  | .deQueue => ([pending.head?],pending.tail)
  | .clear => ([],[])
  | .free _ => ([],pending)

def pendingRun (pending : List CftRequestInfo) : List QueueOp → List (Option CftRequestInfo) × List CftRequestInfo
  | [] => ([],pending)
  | op :: ops =>
    let (results,left) := op.pending pending
    let (more,last) := pendingRun left ops
    (results ++ more,last)

/-- The list of algorithms that CftProt keeps is that of the requests that are pending. -/
theorem pending_add {cft : CftProt} {pending : List CftRequestInfo}
    (same : cft.gReqQueue = pending.map CftRequestInfo.algoNo) (pRequests : List CftRequestInfo) (mallocs : List Nat) :
    (cft.cftProtAddRequest (pRequests.map CftRequestInfo.algoNo)).gReqQueue =
      ((QueueOp.add pRequests mallocs).pending pending).2.map CftRequestInfo.algoNo := by
  rw [CftProt.cftProtAddRequest]
  split_ifs with none
  · simp [QueueOp.pending,same,List.map_eq_nil_iff.mp none]
  · simp [QueueOp.pending,same]

theorem pending_take {cft : CftProt} {pending : List CftRequestInfo} {start : Start}
    (same : cft.gReqQueue = pending.map CftRequestInfo.algoNo)
    (starts : ∀ req ∈ pending.head?, ∃ reports, startCrypt req.algoNo start = .ok reports) :
    (cft.take start).gReqQueue = (QueueOp.deQueue.pending pending).2.map CftRequestInfo.algoNo := by
  cases pending with
  | nil => simp [CftProt.take,QueueOp.pending,same]
  | cons req pending =>
    obtain ⟨reports,started⟩ := starts req rfl
    simp [CftProt.take,QueueOp.pending,same,started]

def QueueOp.size : QueueOp → Nat
  | .add pRequests _ => pRequests.length
  | _ => 0

namespace Queue

variable (turns : Nat) (queue : Queue)

/-- The results of `deQueue` and the queue after the call; `none` is a fault, or a loop that goes on
after so many turns. -/
def step : QueueOp → Option (List (Option CftRequestInfo) × Queue)
  | .add pRequests mallocs =>
    (cftProtAddRequest queue.heap queue.gReqQueue turns pRequests (fun i => mallocs[i]?)).join.map fun after =>
      ([],{queue with heap := after.2})
  | .deQueue =>
    (deQueue queue.heap queue.gReqQueue).map fun after =>
      ([after.1.bind (infoOf after.2)],
        {queue with heap := after.2, handed := queue.handed ++ after.1.toList})
  | .clear => (clearQueue queue.heap queue.gReqQueue turns).join.map fun heap => ([],{queue with heap})
  | .free pCurReq =>
    (queue.heap pCurReq).map fun _ =>
      ([],{queue with heap := Lib.RingQueue.free queue.heap pCurReq, handed := queue.handed.erase pCurReq})

def run : Queue → List QueueOp → Option (List (Option CftRequestInfo) × Queue)
  | queue,[] => some ([],queue)
  | queue,op :: ops => do
    let (results,after) ← queue.step turns op
    let (more,last) ← run after ops
    return (results ++ more,last)

/-- `malloc` succeeds, with memory that is not in use, and only what `deQueue` has returned is freed. -/
def Fits : QueueOp → Prop
  | .add pRequests mallocs =>
    mallocs.length = pRequests.length ∧ mallocs.Nodup ∧ ∀ addr ∈ mallocs, queue.heap addr = none
  | .deQueue => True
  | .clear => True
  | .free pCurReq => pCurReq ∈ queue.handed

def Fitting : Queue → List QueueOp → Prop
  | _,[] => True
  | queue,op :: ops => queue.Fits op ∧ ∀ after ∈ queue.step turns op, after.2.Fitting ops

instance : DecidablePred queue.Fits
  | .add pRequests mallocs =>
    inferInstanceAs (Decidable (mallocs.length = pRequests.length ∧ mallocs.Nodup ∧
      ∀ addr ∈ mallocs, queue.heap addr = none))
  | .deQueue => isTrue trivial
  | .clear => isTrue trivial
  | .free pCurReq => inferInstanceAs (Decidable (pCurReq ∈ queue.handed))

instance decidableFitting : (queue : Queue) → (ops : List QueueOp) → Decidable (Fitting turns queue ops)
  | _,[] => isTrue trivial
  | queue,op :: ops =>
    have := fun after => decidableFitting after ops
    inferInstanceAs (Decidable (queue.Fits op ∧ ∀ after ∈ queue.step turns op, after.2.Fitting turns ops))

/-- Both links of the head are NULL, or the nodes of the requests are a circle through the head in
which next and prev are inverse to each other. -/
def Ring (pending : List CftRequestInfo) : Prop :=
  (pending = [] ∧ nextOf queue.heap queue.gReqQueue = none ∧ prevOf queue.heap queue.gReqQueue = none) ∨
    ∃ cells, cells ≠ [] ∧ cells.map Prod.snd = pending ∧ Circle queue.heap queue.gReqQueue cells

structure Holds (cells : List (Cell CftRequestInfo)) : Prop where
  hung : Hung queue.heap queue.gReqQueue cells
  handed : ∀ addr ∈ queue.handed, (infoOf queue.heap addr).isSome ∧ addr ∉ queue.gReqQueue :: addrs cells
  distinct : queue.handed.Nodup

variable {turns} {queue} {cells : List (Cell CftRequestInfo)} {op : QueueOp} {ops : List QueueOp}

theorem Holds.ring (holds : queue.Holds cells) : queue.Ring (cells.map Prod.snd) := by
  rcases eq_or_ne cells [] with rfl | some_cell
  · exact Or.inl ⟨rfl,holds.hung.idle rfl⟩
  · exact Or.inr ⟨cells,some_cell,rfl,hung_circle holds.hung some_cell⟩

/-- Nodes that were handed out are not touched by what happens in the ring and in fresh memory. -/
theorem Holds.kept {after : ReqHeap} {now : List (Cell CftRequestInfo)} (fresh : List Nat) (holds : queue.Holds cells)
    (hung : Hung after queue.gReqQueue now) (unused : ∀ addr ∈ fresh, queue.heap addr = none)
    (within : ∀ addr ∈ addrs now, addr ∈ addrs cells ∨ addr ∈ fresh)
    (outside : ∀ addr ∉ queue.gReqQueue :: addrs cells, addr ∉ fresh → after addr = queue.heap addr) :
    Holds {queue with heap := after} now where
  hung := hung
  handed := fun addr member => by
    obtain ⟨there,out⟩ := holds.handed addr member
    have not_fresh : addr ∉ fresh := by
      intro new
      rw [infoOf,unused addr new] at there
      cases there
    refine ⟨?_,?_⟩
    · change (infoOf after addr).isSome
      rw [infoOf,outside addr out not_fresh]
      exact there
    · intro inside
      rcases List.mem_cons.mp inside with rfl | among
      · exact out List.mem_cons_self
      · rcases within addr among with old | new
        · exact out (List.mem_cons_of_mem _ old)
        · exact not_fresh new
  distinct := holds.distinct

/-- Each call leaves a ring, of what ought to be pending, and `deQueue` returns what it ought to. -/
theorem step_holds (holds : queue.Holds cells) (fits : queue.Fits op) (enough : cells.length+op.size < turns) :
    ∃ results after now, queue.step turns op = some (results,after) ∧ after.Holds now ∧
      (results,now.map Prod.snd) = op.pending (cells.map Prod.snd) ∧
      now.length ≤ cells.length+op.size := by
  cases op with
  | add pRequests mallocs =>
    obtain ⟨whole,distinct,unused⟩ := fits
    obtain ⟨ret,after,done,hung,outside⟩ := addRequest_hung turns holds.hung whole distinct unused
    have zipped : (mallocs.zip pRequests).map Prod.snd = pRequests := List.map_snd_zip whole.ge
    have length : (mallocs.zip pRequests).length = pRequests.length := by simp [whole]
    refine ⟨[],{queue with heap := after},cells ++ mallocs.zip pRequests,by simp [step,done],
      holds.kept mallocs hung unused ?_ outside,?_,?_⟩
    · intro addr member
      rw [addrs,List.map_append,List.map_fst_zip whole.le] at member
      exact List.mem_append.mp member
    · simp [QueueOp.pending,zipped]
    · simp [QueueOp.size,length]
  | deQueue =>
    cases cells with
    | nil =>
      refine ⟨[none],queue,[],?_,holds,rfl,Nat.zero_le _⟩
      simp [step,deQueue_nil holds.hung]
    | cons cell cells =>
      obtain ⟨after,done,hung,info,outside⟩ := deQueue_cons holds.hung
      have returned : infoOf after cell.1 = some cell.2 := by rw [info,holds.hung.infos cell List.mem_cons_self]
      have inside : cell.1 ∈ queue.gReqQueue :: addrs (cell :: cells) :=
        List.mem_cons_of_mem _ List.mem_cons_self
      have kept : Holds {queue with heap := after} cells := by
        refine holds.kept [] hung (by simp) (fun addr member => Or.inl (List.mem_cons_of_mem _ member)) ?_
        exact fun addr out _ => outside addr out
      refine ⟨[some cell.2],{queue with heap := after, handed := queue.handed ++ [cell.1]},cells,?_,?_,rfl,?_⟩
      · simp [step,done,returned]
      · refine ⟨hung,fun addr member => ?_,?_⟩
        · rcases List.mem_append.mp member with old | new
          · exact kept.handed addr old
          · obtain rfl := List.mem_singleton.mp new
            refine ⟨by rw [returned]; rfl,?_⟩
            obtain ⟨head_out,rest⟩ := List.nodup_cons.mp holds.hung.nodup
            rw [List.mem_cons,not_or]
            exact ⟨fun same => head_out (same ▸ List.mem_cons_self),(List.nodup_cons.mp rest).1⟩
        · refine List.nodup_append.mpr ⟨holds.distinct,by simp,?_⟩
          rintro addr old other new rfl
          exact (holds.handed addr old).2 (List.mem_singleton.mp new ▸ inside)
      · simp [QueueOp.size]
  | clear =>
    obtain ⟨after,done,hung,outside⟩ := clearQueue_hung holds.hung (by simpa [QueueOp.size] using enough)
    refine ⟨[],{queue with heap := after},[],by simp [step,done],?_,rfl,Nat.zero_le _⟩
    refine holds.kept [] hung (by simp) (fun addr member => by cases member) ?_
    exact fun addr out _ => outside addr out
  | free pCurReq =>
    obtain ⟨there,out⟩ := holds.handed pCurReq fits
    obtain ⟨node,found,_⟩ := node_of_info there
    refine ⟨[],
      {queue with heap := Lib.RingQueue.free queue.heap pCurReq, handed := queue.handed.erase pCurReq},cells,
      by simp [step,found],⟨?_,?_,holds.distinct.erase _⟩,rfl,Nat.le_add_right _ _⟩
    · refine hung_of_same holds.hung fun addr member => ?_
      have apart : addr ≠ pCurReq := by
        rintro rfl
        exact out member
      exact Function.update_of_ne apart ..
    · intro addr member
      obtain ⟨apart,before⟩ := (holds.distinct.mem_erase_iff).mp member
      obtain ⟨there,out⟩ := holds.handed addr before
      refine ⟨?_,out⟩
      change (infoOf (Lib.RingQueue.free queue.heap pCurReq) addr).isSome
      rw [infoOf,Lib.RingQueue.free,Function.update_of_ne apart]
      exact there

theorem run_holds (holds : queue.Holds cells) (fitting : queue.Fitting turns ops)
    (enough : cells.length+(ops.map QueueOp.size).sum < turns) :
    ∃ results after now, queue.run turns ops = some (results,after) ∧ after.Holds now ∧
      (results,now.map Prod.snd) = pendingRun (cells.map Prod.snd) ops := by
  induction ops generalizing queue cells with
  | nil => exact ⟨[],queue,cells,rfl,holds,rfl⟩
  | cons op ops ih =>
    simp only [List.map_cons,List.sum_cons] at enough
    have first : cells.length+op.size < turns := by omega
    obtain ⟨results,after,now,stepped,kept,spec,length⟩ := step_holds holds fitting.1 first
    have fits := fitting.2 (results,after) stepped
    obtain ⟨more,last,left,ran,kept',spec'⟩ := ih kept fits (by omega)
    refine ⟨results ++ more,last,left,?_,kept',?_⟩
    · simp [run,stepped,ran]
    · rw [pendingRun,← spec]
      dsimp only
      rw [← spec']

/-- After any sequence of calls the requests that are pending hang at the head in a ring, and
`deQueue` has returned the others in the order in which they were added. -/
theorem queue_fifo {heap : ReqHeap} {head : Nat} (start : Hung heap head [])
    (fitting : Fitting turns ⟨heap,head,[]⟩ ops) (enough : (ops.map QueueOp.size).sum < turns) :
    ∃ results after pending, run turns ⟨heap,head,[]⟩ ops = some (results,after) ∧ after.Ring pending ∧
      (results,pending) = pendingRun [] ops := by
  have holds : Holds ⟨heap,head,[]⟩ [] := ⟨start,by simp,by simp⟩
  obtain ⟨results,after,cells,ran,kept,spec⟩ := run_holds holds fitting (by simpa using enough)
  exact ⟨results,after,cells.map Prod.snd,ran,kept.ring,spec⟩

/-- The empty queue, with the head at 0 and everything else free. -/
def emptyHeap : ReqHeap := fun addr => if addr = 0 then some ⟨someRequest 0,none,none⟩ else none

/-- Two batches, the second in memory that the first has left, and a clear at the end. -/
def twoBatches : List QueueOp :=
  [.add [someRequest 97,someRequest 98] [3,5],.deQueue,.free 3,.add [someRequest 99] [3],.deQueue,.deQueue,.deQueue,
    .add [someRequest 100] [7],.clear]

theorem queue_fifo_twoBatches :
    ∃ results after pending, run 9 ⟨emptyHeap,0,[]⟩ twoBatches = some (results,after) ∧ after.Ring pending ∧
      (results,pending) = pendingRun [] twoBatches :=
  queue_fifo (hung_nil rfl rfl rfl) (by decide) (by decide)

end Queue

end MoCodes.CryptFileTool
