import MoCodes.Lib.Layout
import MoCodes.Lib.Loop
import MoCodes.MoCloud.Client.Refresh

/-! The lists of files of moCloudClientLib.c with the bytes of their records: refreshFilelist, which
frees the lists of a type and puts the records of a response body into them, and
moCloudClient_getFilelist, which copies them. A type is an `unsigned int`. -/
namespace MoCodes.MoCloud.Client.Filelist
open Lib.Layout Lib.Loop

abbrev Record := List UInt8

/-- gpFilelist by its index, the node in front first. -/
abbrev Filelists := Nat → List Record

/-- What lies from `pRespBody` on. -/
abbrev Body := Int → UInt8

/-- `key.filetype`, the first field of a record. -/
def filetypeOf (record : Record) : Nat := readLE (record.take 4)

def recordAt (body : Body) (offset : Int) : Record := (List.range basicFileinfoSize).map fun i => body (offset+i)

def firstType (type : Nat) : Nat := if (type : Int) = filetypeAll then filetypeVideo.toNat else type

def limitType (type : Nat) : Nat := if (type : Int) = filetypeAll then filetypeAll.toNat else type+1

/-- The loop of freeLocalFilelist and moCloudClient_getFilelist, which doubles `curType`. -/
def typeBody {σ : Type} (visit : Nat → σ → σ) (type : Nat) (state : Nat × σ) : Outcome (Nat × σ) σ :=
  if state.1 < limitType type then .next (state.1*2,visit state.1 state.2) else .done state.2

/-- `none` is a loop that does not end: 0 is doubled for ever. -/
def visitTypes {σ : Type} (visit : Nat → σ → σ) (type : Nat) (state : σ) : Option σ :=
  run (typeBody visit type) (limitType type+1) (firstType type,state)

def freeLocalFilelist (type : Nat) (gpFilelist : Filelists) : Option (Int × Filelists) :=
  if filetypeMax ≤ (type : Int) then some (-1,gpFilelist)
  else (visitTypes (fun curType lists => Function.update lists curType []) type gpFilelist).map fun lists => (0,lists)

def Rejected (type filetype : Nat) : Prop := filetypeMax ≤ (filetype : Int) ∨ (type : Int) ≠ filetypeAll ∧ filetype ≠ type

instance (type filetype : Nat) : Decidable (Rejected type filetype) := inferInstanceAs (Decidable (_ ∨ _))

def putRecord (filetype : Nat) (record : Record) (gpFilelist : Filelists) : Filelists :=
  Function.update gpFilelist filetype (record :: gpFilelist filetype)

/-- Between two turns; so many nodes have been asked for. -/
structure Saving where
  readLen : Int
  nodes : Nat
  gpFilelist : Filelists

/-- `readLen + sizeof(MOCLOUD_BASIC_FILEINFO) <= bodyLen`, over `size_t`. -/
def More (bodyLen readLen : Int) : Prop := (toSize readLen+basicFileinfoSize)%2^64 ≤ toSize bodyLen

instance (bodyLen readLen : Int) : Decidable (More bodyLen readLen) := inferInstanceAs (Decidable (_ ≤ _))

def saveBody (body : Body) (bodyLen : Int) (type : Nat) (malloc : Nat → Bool) (state : Saving) :
    Outcome Saving (Int × Filelists) :=
  if More bodyLen state.readLen then
    let pCurInfo := recordAt body state.readLen
    let readLen := toInt (state.readLen+basicFileinfoSize)
    if Rejected type (filetypeOf pCurInfo) then .next { state with readLen := readLen }
    else if !malloc state.nodes then .done (-2,state.gpFilelist)
    else .next ⟨readLen,state.nodes+1,putRecord (filetypeOf pCurInfo) pCurInfo state.gpFilelist⟩
  else .done (0,state.gpFilelist)

/-- `pRespBody` may be NULL. -/
def setFilelistValue (pRespBody : Option Body) (bodyLen : Int) (type : Nat) (malloc : Nat → Bool)
    (gpFilelist : Filelists) : Option (Int × Filelists) :=
  match pRespBody with
  | none => some (-1,gpFilelist)
  | some body =>
    if (type : Int) < filetypeVideo ∨ filetypeMax ≤ (type : Int) then some (-1,gpFilelist)
    else do
      let freed ← freeLocalFilelist type gpFilelist
      let (ret,saved) ← run (saveBody body bodyLen type malloc) (toSize bodyLen+1) ⟨0,0,freed.2⟩
      if ret < 0 then return (ret,(← freeLocalFilelist type saved).2) else return (ret,saved)

/-- What the calls of refreshFilelist give; `sent` tells that writen takes the whole request. -/
structure Answers where
  login : Bool
  getCipherRequestInfo : Int
  sent : Bool
  getRespHeader : Int
  bodyLen : Int
  getRespBody : Int
  pRespBody : Body
  malloc : Nat → Bool

def refreshFilelist (type : Nat) (answers : Answers) (gpFilelist : Filelists) : Option (Int × Filelists) :=
  if filetypeMax ≤ (type : Int) then some (-1,gpFilelist)
  else if !answers.login then some (-2,gpFilelist)
  else if answers.getCipherRequestInfo < 0 then some (-4,gpFilelist)
  else if !answers.sent then some (-5,gpFilelist)
  else if answers.getRespHeader < 0 then some (-5,gpFilelist)
  else if answers.bodyLen ≠ 0 then
    if answers.getRespBody < 0 then some (-6,gpFilelist)
    else (setFilelistValue (some answers.pRespBody) answers.bodyLen type answers.malloc gpFilelist).map fun (ret,lists) =>
      if ret < 0 then (-7,lists) else (0,lists)
  else some (0,gpFilelist)

def errInputInvalid : Int := -9

def errMallocFailed : Int := -8

/-- The copy while it is made: the code, the nodes that have been asked for, and the list. -/
structure Copying where
  ret : Int
  nodes : Nat
  filelist : List Record

def copyNodes (malloc : Nat → Bool) : List Record → Copying → Copying
  | [],state => state
  | record :: rest,state =>
    if !malloc state.nodes then { state with ret := errMallocFailed, nodes := state.nodes+1 }
    else copyNodes malloc rest { state with nodes := state.nodes+1, filelist := record :: state.filelist }

/-- `*ppFilelist` is NULL for []. -/
def getFilelist (ppFilelist : List Record) (type : Nat) (malloc : Nat → Bool) (gpFilelist : Filelists) :
    Option (Int × List Record) :=
  if ppFilelist ≠ [] ∨ filetypeMax ≤ (type : Int) ∨ (type : Int) < filetypeVideo then some (errInputInvalid,ppFilelist)
  else
    (visitTypes (fun curType => copyNodes malloc (gpFilelist curType)) type ⟨0,0,ppFilelist⟩).map fun state =>
      if state.ret < 0 then (state.ret,[]) else (state.ret,state.filelist)

section Types

variable {σ : Type} {visit : Nat → σ → σ} {type curType : Nat} {state : σ}

/-- The lists that a type stands for. -/
def typesOf (type : Nat) : List Nat := if (type : Int) = filetypeAll then [1,2,4,8] else [type]

theorem limitType_le (bound : (type : Int) < filetypeMax) : limitType type ≤ 15 := by
  unfold limitType filetypeAll filetypeMax at *
  split_ifs <;> omega

theorem visitTypes_all (visit : Nat → σ → σ) (positive : 0 < type) (state : σ) :
    visitTypes visit type state = some ((typesOf type).foldl (fun state curType => visit curType state) state) := by
  by_cases all : (type : Int) = filetypeAll
  · obtain rfl : type = 15 := by
      unfold filetypeAll at all
      omega
    rfl
  · have first : typeBody visit type (type,state) = .next (type*2,visit type state) := by
      rw [typeBody,limitType,if_neg all]
      exact if_pos (Nat.lt_succ_self _)
    have second : typeBody visit type (type*2,visit type state) = .done (visit type state) := by
      rw [typeBody,limitType,if_neg all]
      exact if_neg (by simp only; omega)
    rw [visitTypes,firstType,limitType,if_neg all,if_neg all,typesOf,if_neg all,run_next first,run_done second]
    rfl

def Requested (type : Nat) : Prop := (type : Int) ∈ filetypeBits ∨ (type : Int) = filetypeAll

instance (type : Nat) : Decidable (Requested type) := inferInstanceAs (Decidable (_ ∨ _))

theorem requested_range (requested : Requested type) : 0 < type ∧ (type : Int) < filetypeMax := by
  rcases requested with single | all
  · simp only [filetypeBits,List.mem_cons,List.not_mem_nil,or_false] at single
    unfold filetypeVideo filetypeAudio filetypePic filetypeOthers at single
    unfold filetypeMax
    omega
  · unfold filetypeAll at all
    unfold filetypeMax
    omega

theorem mem_typesOf (requested : Requested type) :
    curType ∈ typesOf type ↔ (curType : Int) ∈ filetypeBits ∧ Covers type curType := by
  rw [typesOf,Covers]
  split_ifs with all
  · simp only [filetypeBits,List.mem_cons,List.not_mem_nil,or_false,all,or_true,and_true]
    unfold filetypeVideo filetypeAudio filetypePic filetypeOthers
    omega
  · have single := requested.resolve_right all
    rw [List.mem_singleton,Int.ofNat_inj]
    refine ⟨?_,fun both => (both.2.resolve_right all).symm⟩
    rintro rfl
    exact ⟨single,Or.inl rfl⟩

theorem cleared_lists {types : List Nat} (gpFilelist : Filelists) (curType : Nat) :
    types.foldl (fun lists curType => Function.update lists curType []) gpFilelist curType =
      if curType ∈ types then [] else gpFilelist curType := by
  induction types generalizing gpFilelist with
  | nil => rfl
  | cons type types ih =>
    rw [List.foldl_cons,ih]
    by_cases here : curType = type
    · subst here
      rw [Function.update_self,ite_self,if_pos List.mem_cons_self]
    · rw [Function.update_of_ne here]
      exact if_congr (by simp [here]) rfl rfl

theorem freeLocalFilelist_lists (positive : 0 < type) (bound : (type : Int) < filetypeMax) (gpFilelist : Filelists) :
    freeLocalFilelist type gpFilelist =
      some (0,fun curType => if curType ∈ typesOf type then [] else gpFilelist curType) := by
  rw [freeLocalFilelist,if_neg (Int.not_le.mpr bound),visitTypes_all _ positive,Option.map_some]
  congr 2
  funext curType
  exact cleared_lists gpFilelist curType

end Types

section Records

variable {type curType : Nat} {records : List Record} {gpFilelist : Filelists} {malloc : Nat → Bool} {body : Body}
  {bodyLen : Int}

def saveRecord (type : Nat) (gpFilelist : Filelists) (record : Record) : Filelists :=
  if Rejected type (filetypeOf record) then gpFilelist else putRecord (filetypeOf record) record gpFilelist

theorem saveRecords_list (taken : ∀ record ∈ records, ¬ Rejected type (filetypeOf record)) :
    records.foldl (saveRecord type) gpFilelist curType =
      (records.filter fun record => filetypeOf record = curType).reverse ++ gpFilelist curType := by
  induction records generalizing gpFilelist with
  | nil => rfl
  | cons record records ih =>
    obtain ⟨first,others⟩ := List.forall_mem_cons.mp taken
    rw [List.foldl_cons,ih others,saveRecord,if_neg first,putRecord]
    by_cases here : filetypeOf record = curType
    · subst here
      rw [Function.update_self,List.filter_cons_of_pos (by simp),List.reverse_cons,List.append_assoc]
      rfl
    · rw [Function.update_of_ne (Ne.symm here),List.filter_cons_of_neg (by simpa using here)]

/-- The records lie in the body from the `k`-th place on. -/
def LieFrom (body : Body) (k : Nat) (records : List Record) : Prop :=
  ∀ i record, records[i]? = some record → recordAt body ((k+i)*basicFileinfoSize : Nat) = record

theorem more_iff {readLen length : Nat} (low : readLen < 2^31) (small : length < 2^31) :
    More length readLen ↔ readLen+basicFileinfoSize ≤ length := by
  have whole : ∀ n : Nat, n < 2^31 → toSize n = n := by
    intro n bound
    rw [toSize]
    omega
  rw [More,whole _ low,whole _ small]
  unfold basicFileinfoSize
  omega

theorem saveBody_records (type : Nat) (malloc : Nat → Bool) (k nodes : Nat) (gpFilelist : Filelists)
    (small : (k+records.length)*basicFileinfoSize < 2^31)
    (lie : LieFrom body k records) :
    ∃ ret saved, run (saveBody body ((k+records.length)*basicFileinfoSize : Nat) type malloc) (records.length+1)
      ⟨(k*basicFileinfoSize : Nat),nodes,gpFilelist⟩ = some (ret,saved) ∧ (ret = 0 ∨ ret = -2) ∧
      (ret = 0 → saved = records.foldl (saveRecord type) gpFilelist) := by
  have low : k*basicFileinfoSize < 2^31 :=
    Nat.lt_of_le_of_lt (Nat.mul_le_mul_right _ (Nat.le_add_right _ _)) small
  induction records generalizing k nodes gpFilelist with
  | nil =>
    refine ⟨0,gpFilelist,run_done ?_ 0,Or.inl rfl,fun _ => rfl⟩
    rw [saveBody,if_neg]
    rw [more_iff low small,List.length_nil,Nat.add_zero]
    unfold basicFileinfoSize
    omega
  | cons record records ih =>
    have count : k+(record :: records).length = k+1+records.length := by
      rw [List.length_cons]
      omega
    rw [count] at small ⊢
    have inside : (k+1)*basicFileinfoSize ≤ (k+1+records.length)*basicFileinfoSize :=
      Nat.mul_le_mul_right _ (Nat.le_add_right _ _)
    have more : More ((k+1+records.length)*basicFileinfoSize : Nat) (k*basicFileinfoSize : Nat) := by
      rw [more_iff low small,← Nat.succ_mul]
      exact inside
    have here : recordAt body (k*basicFileinfoSize : Nat) = record := lie 0 record rfl
    have rest : LieFrom body (k+1) records := by
      intro i other found
      have there := lie (i+1) other found
      rwa [← Nat.add_assoc,Nat.add_right_comm] at there
    have next : toInt ((k*basicFileinfoSize : Nat)+basicFileinfoSize) = ((k+1)*basicFileinfoSize : Nat) := by
      rw [← (toInt_same _).mpr (Nat.lt_of_le_of_lt inside small),Nat.succ_mul]
      rfl
    have later : (k+1)*basicFileinfoSize < 2^31 := Nat.lt_of_le_of_lt inside small
    have turn : saveBody body ((k+1+records.length)*basicFileinfoSize : Nat) type malloc ⟨(k*basicFileinfoSize : Nat),nodes,gpFilelist⟩ =
        if Rejected type (filetypeOf record) then .next ⟨((k+1)*basicFileinfoSize : Nat),nodes,gpFilelist⟩
        else if !malloc nodes then .done (-2,gpFilelist)
        else .next ⟨((k+1)*basicFileinfoSize : Nat),nodes+1,putRecord (filetypeOf record) record gpFilelist⟩ := by
      rw [saveBody,if_pos more,here,next]
    rw [List.foldl_cons,List.length_cons,saveRecord]
    by_cases rejected : Rejected type (filetypeOf record)
    · rw [if_pos rejected] at turn ⊢
      rw [run_next turn]
      exact ih (k+1) nodes _ small rest later
    · rw [if_neg rejected] at turn ⊢
      cases memory : malloc nodes with
      | false =>
        rw [memory] at turn
        exact ⟨-2,gpFilelist,run_done turn _,Or.inr rfl,fun zero => absurd zero (by decide)⟩
      | true =>
        rw [memory] at turn
        rw [run_next turn]
        exact ih (k+1) (nodes+1) _ small rest later

end Records

section Refresh

variable {type : Nat} {gpFilelist after : Filelists} {answers : Answers}

/-- A body that the server sends for a type; its length is an `int`. -/
structure Response (type : Nat) where
  records : List Record
  size : ∀ record ∈ records, record.length = basicFileinfoSize
  types : ∀ record ∈ records, filetypeOf record ∈ typesOf type
  length : records.length*basicFileinfoSize < 2^31

/-- What is read from the socket is the response. -/
structure Delivers (response : Response type) (answers : Answers) : Prop where
  bodyLen : answers.bodyLen = (response.records.length*basicFileinfoSize : Nat)
  body : LieFrom answers.pRespBody 0 response.records

/-- What moCloudClient_getFilelist gives is a copy of the lists of the type. -/
def Copies (type : Nat) (gpFilelist : Filelists) : Prop :=
  ∀ malloc, ∃ ret filelist, getFilelist [] type malloc gpFilelist = some (ret,filelist) ∧
    (ret = 0 → filelist.Perm ((typesOf type).flatMap gpFilelist)) ∧ ((∀ node, malloc node = true) → ret = 0)

structure Refreshed (type : Nat) (records : List Record) (gpFilelist after : Filelists) : Prop where
  replaced : ∀ curType ∈ typesOf type, (after curType).Perm (records.filter fun record => filetypeOf record = curType)
  others : ∀ curType ∉ typesOf type, after curType = gpFilelist curType
  copies : Copies type after

theorem copyNodes_list {malloc : Nat → Bool} {records : List Record} {state : Copying}
    (done : (copyNodes malloc records state).ret = 0) :
    state.ret = 0 ∧ (copyNodes malloc records state).filelist = records.reverse ++ state.filelist := by
  induction records generalizing state with
  | nil => exact ⟨done,rfl⟩
  | cons record records ih =>
    rw [copyNodes] at done ⊢
    split at done
    · exact absurd (show errMallocFailed = 0 from done) (by decide)
    · rename_i memory
      obtain ⟨zero,list⟩ := ih done
      rw [if_neg memory,list,List.reverse_cons,List.append_assoc]
      exact ⟨zero,rfl⟩

theorem copyNodes_ret {malloc : Nat → Bool} (memory : ∀ node, malloc node = true) (records : List Record) (state : Copying) :
    (copyNodes malloc records state).ret = state.ret := by
  induction records generalizing state with
  | nil => rfl
  | cons record records ih =>
    rw [copyNodes,memory,if_neg (by decide)]
    exact ih _

theorem copyTypes_list {malloc : Nat → Bool} {types : List Nat} {state : Copying}
    (done : (types.foldl (fun state curType => copyNodes malloc (gpFilelist curType) state) state).ret = 0) :
    state.ret = 0 ∧ (types.foldl (fun state curType => copyNodes malloc (gpFilelist curType) state) state).filelist =
      (types.flatMap gpFilelist).reverse ++ state.filelist := by
  induction types generalizing state with
  | nil => exact ⟨done,rfl⟩
  | cons curType types ih =>
    rw [List.foldl_cons] at done ⊢
    obtain ⟨zero,list⟩ := ih done
    obtain ⟨before,copied⟩ := copyNodes_list zero
    refine ⟨before,?_⟩
    rw [list,copied,List.flatMap_cons,List.reverse_append,List.append_assoc]

theorem copyTypes_ret {malloc : Nat → Bool} (memory : ∀ node, malloc node = true) (types : List Nat) (state : Copying) :
    (types.foldl (fun state curType => copyNodes malloc (gpFilelist curType) state) state).ret = state.ret := by
  induction types generalizing state with
  | nil => rfl
  | cons curType types ih => rw [List.foldl_cons,ih,copyNodes_ret memory]

theorem copies_all (requested : Requested type) (gpFilelist : Filelists) : Copies type gpFilelist := by
  obtain ⟨positive,bound⟩ := requested_range requested
  intro malloc
  have valid : ¬ (([] : List Record) ≠ [] ∨ filetypeMax ≤ (type : Int) ∨ (type : Int) < filetypeVideo) := by
    unfold filetypeVideo
    rintro (some_node | large | small)
    · exact some_node rfl
    · exact Int.not_lt.mpr large bound
    · omega
  have copied := visitTypes_all (fun curType => copyNodes malloc (gpFilelist curType)) positive ⟨0,0,[]⟩
  rw [getFilelist,if_neg valid,copied,Option.map_some]
  split
  · rename_i negative
    refine ⟨_,_,rfl,fun zero => ?_,fun memory => ?_⟩
    · rw [zero] at negative
      exact absurd negative (by decide)
    · rw [copyTypes_ret memory]
  · refine ⟨_,_,rfl,fun zero => ?_,fun memory => ?_⟩
    · rw [(copyTypes_list zero).2,List.append_nil]
      exact List.reverse_perm _
    · rw [copyTypes_ret memory]

theorem taken_records (response : Response type) (requested : Requested type) :
    ∀ record ∈ response.records, ¬ Rejected type (filetypeOf record) := by
  intro record member
  have among := (mem_typesOf requested).mp (response.types record member)
  obtain ⟨_,bound,_⟩ := bit_range among.1
  rintro (large | ⟨single,other⟩)
  · omega
  · rcases among.2 with same | all
    · exact other (Int.ofNat_inj.mp same).symm
    · exact single all

/-- The lists of a type hold the records of it; the rest is what it was. -/
theorem setFilelistValue_lists (requested : Requested type) (response : Response type) (delivers : Delivers response answers)
    (gpFilelist : Filelists) : ∃ ret after,
    setFilelistValue (some answers.pRespBody) answers.bodyLen type answers.malloc gpFilelist = some (ret,after) ∧
      (0 ≤ ret → after = fun curType => if curType ∈ typesOf type then
        (response.records.filter fun record => filetypeOf record = curType).reverse else gpFilelist curType) := by
  obtain ⟨positive,bound⟩ := requested_range requested
  have valid : ¬ ((type : Int) < filetypeVideo ∨ filetypeMax ≤ (type : Int)) := by
    unfold filetypeVideo
    omega
  have small := response.length
  rw [← Nat.zero_add response.records.length] at small
  obtain ⟨ret,saved,ran,codes,lists⟩ := saveBody_records type answers.malloc 0 0
    (fun curType => if curType ∈ typesOf type then [] else gpFilelist curType) small delivers.body
  rw [Nat.zero_add] at small ran
  have size : toSize answers.bodyLen = response.records.length*basicFileinfoSize := by
    rw [delivers.bodyLen,toSize]
    omega
  have enough : response.records.length+1+(toSize answers.bodyLen-response.records.length) = toSize answers.bodyLen+1 := by
    have more : response.records.length ≤ toSize answers.bodyLen := by
      rw [size]
      exact Nat.le_mul_of_pos_right _ (by decide)
    omega
  have looped := run_mono _ _ (toSize answers.bodyLen-response.records.length) _ _ ran
  rw [enough,← delivers.bodyLen,Nat.zero_mul] at looped
  rw [setFilelistValue]
  dsimp only
  rw [if_neg valid,freeLocalFilelist_lists positive bound,Option.bind_eq_bind,Option.bind_some]
  dsimp only
  rw [show ((0 : Nat) : Int) = 0 from rfl] at looped
  rw [looped,Option.bind_some]
  rcases codes with rfl | rfl
  · refine ⟨0,saved,rfl,fun _ => ?_⟩
    rw [lists rfl]
    funext curType
    rw [saveRecords_list (taken_records response requested)]
    split
    · exact List.append_nil _
    · rename_i other
      have none_of : (response.records.filter fun record => filetypeOf record = curType) = [] := by
        rw [List.filter_eq_nil_iff]
        intro record member same
        exact other (of_decide_eq_true same ▸ response.types record member)
      rw [none_of]
      rfl
  · dsimp only
    rw [if_pos (by decide),freeLocalFilelist_lists positive bound]
    exact ⟨_,_,rfl,fun nonneg => absurd nonneg (by decide)⟩

section Parsed

def parseRecord (record : Record) : BasicFileinfo where
  key := ⟨filetypeOf record,cString (slice record 4 256)⟩
  filesize := readLE (slice record 264 8)
  ownerName := cString (slice record 272 32)
  state := readInt (slice record 304 4)

theorem ofType_parsed (records : List Record) (curType : Nat) : ofType curType (records.map parseRecord) =
    ((records.filter fun record => filetypeOf record = curType).reverse).map parseRecord := by
  have same : (fun info : BasicFileinfo => decide (info.key.filetype = curType)) ∘ parseRecord =
      fun record => decide (filetypeOf record = curType) := by
    funext record
    exact decide_eq_decide.mpr Int.ofNat_inj
  rw [ofType,List.filter_map,same,List.map_reverse]

/-- The lists are those of Client/Refresh, where the answer is a list of records. -/
theorem setFilelistValue_parsed (requested : Requested type) (response : Response type) (delivers : Delivers response answers)
    {ret code : Int} {fetch : Fetch} {lists saved : Client.Filelists}
    (ran : setFilelistValue (some answers.pRespBody) answers.bodyLen type answers.malloc gpFilelist = some (ret,after))
    (nonneg : 0 ≤ ret) (infos : fetch.infos = response.records.map parseRecord)
    (parsed : Client.setFilelistValue fetch response.records.length type lists = some (code,saved)) :
    ∀ curType ∈ typesOf type, (saved curType).infos = (after curType).map parseRecord := by
  intro curType among
  obtain ⟨positive,bound⟩ := requested_range requested
  obtain ⟨bit,covers⟩ := (mem_typesOf requested).mp among
  obtain ⟨_,_,other,spec⟩ := setFilelistValue_lists requested response delivers gpFilelist
  cases other.symm.trans ran
  have room : fetch.infos.length ≤ response.records.length := by rw [infos,List.length_map]
  have list := Client.setFilelistValue_lists fetch (by omega) bound room bit parsed
  rw [list,if_pos covers,spec nonneg,infos]
  dsimp only
  rw [if_pos among,ofType_parsed]

end Parsed

/-- The property of one request: whatever the calls give, a refresh that returns 0 with the response has
replaced the lists. -/
def Replaces (type : Nat) (response : Response type) (gpFilelist : Filelists) : Prop :=
  ∀ answers, Delivers response answers → ∀ after, refreshFilelist type answers gpFilelist = some (0,after) →
    Refreshed type response.records gpFilelist after

theorem refreshFilelist_zero (ran : refreshFilelist type answers gpFilelist = some (0,after)) :
    (answers.bodyLen = 0 ∧ after = gpFilelist) ∨ answers.bodyLen ≠ 0 ∧ ∃ ret,
      setFilelistValue (some answers.pRespBody) answers.bodyLen type answers.malloc gpFilelist = some (ret,after) ∧ 0 ≤ ret := by
  rw [refreshFilelist] at ran
  split at ran
  · cases ran
  split at ran
  · cases ran
  split at ran
  · cases ran
  split at ran
  · cases ran
  split at ran
  · cases ran
  split at ran
  · rename_i some_byte
    refine Or.inr ⟨some_byte,?_⟩
    split at ran
    · cases ran
    · obtain ⟨⟨ret,lists⟩,saved,result⟩ := Option.map_eq_some_iff.mp ran
      dsimp only at result
      split at result
      · cases result
      · rename_i nonneg
        cases result
        exact ⟨ret,saved,Int.not_lt.mp nonneg⟩
  · rename_i empty
    cases ran
    exact Or.inl ⟨not_not.mp empty,rfl⟩

theorem bodyLen_zero {response : Response type} (delivers : Delivers response answers) :
    answers.bodyLen = 0 ↔ response.records = [] := by
  rw [delivers.bodyLen,← List.length_eq_zero_iff]
  unfold basicFileinfoSize
  omega

def granting (bodyLen : Int) (pRespBody : Body) : Answers := ⟨true,0,true,0,bodyLen,0,pRespBody,fun _ => true⟩

/-- An empty answer is not given to setFilelistValue, so that the lists of before stay. -/
theorem refreshFilelist_replaces_iff (requested : Requested type) (response : Response type) (gpFilelist : Filelists) :
    Replaces type response gpFilelist ↔ response.records ≠ [] ∨ ∀ curType ∈ typesOf type, gpFilelist curType = [] := by
  refine ⟨fun replaces => ?_,fun cond answers delivers after ran => ?_⟩
  · by_cases empty : response.records = []
    · have delivers : Delivers response (granting 0 fun _ => 0) := by
        refine ⟨?_,fun i record found => ?_⟩
        · rw [empty]
          rfl
        · rw [empty] at found
          cases found
      have ran : refreshFilelist type (granting 0 fun _ => 0) gpFilelist = some (0,gpFilelist) :=
        if_neg (Int.not_le.mpr (requested_range requested).2)
      have same := (replaces _ delivers _ ran).replaced
      refine Or.inr fun curType among => ?_
      have perm := same curType among
      rw [empty] at perm
      exact List.Perm.eq_nil perm
    · exact Or.inl empty
  · rcases refreshFilelist_zero ran with ⟨zero,rfl⟩ | ⟨some_byte,ret,saved,nonneg⟩
    · have empty := (bodyLen_zero delivers).mp zero
      have old := cond.resolve_left (not_not.mpr empty)
      refine ⟨fun curType among => ?_,fun _ _ => rfl,copies_all requested after⟩
      rw [old curType among,empty]
      exact List.Perm.nil
    · obtain ⟨code,lists,ran,spec⟩ := setFilelistValue_lists requested response delivers gpFilelist
      cases ran.symm.trans saved
      have here := spec nonneg
      refine ⟨fun curType among => ?_,fun curType other => ?_,copies_all requested after⟩
      · rw [here]
        dsimp only
        rw [if_pos among]
        exact List.reverse_perm _
      · rw [here]
        exact if_neg other

def noRecords : Response 1 := ⟨[],by decide,by decide,by decide⟩

theorem refreshFilelist_replaces_empty : Replaces 1 noRecords fun _ => [] :=
  (refreshFilelist_replaces_iff (by decide) noRecords fun _ => []).mpr (Or.inr fun _ _ => rfl)

/-- The last video of the server has been deleted, and the client keeps it in its list. -/
theorem refreshFilelist_keeps_old : (∀ record : Record,
    refreshFilelist 1 (granting 0 fun _ => 0) (fun curType => if curType = 1 then [record] else []) =
      some (0,fun curType => if curType = 1 then [record] else [])) ∧
    ¬ Replaces 1 noRecords (fun curType => if curType = 1 then [List.replicate basicFileinfoSize 0] else []) := by
  refine ⟨fun record => rfl,fun replaces => ?_⟩
  have delivers : Delivers noRecords (granting 0 fun _ => 0) := ⟨rfl,fun i record found => by cases found⟩
  have same := (replaces _ delivers _ rfl).replaced 1 (by decide)
  exact absurd same.length_eq (by decide)

end Refresh

end MoCodes.MoCloud.Client.Filelist
