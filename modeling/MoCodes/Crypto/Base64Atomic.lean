import MoCodes.Crypto.Base64File

/-! cryptFileToSame of moCrypt_BASE64.c where any of its calls may fail. A call of fread or
fwrite may transfer less than it could, and fread ends its loop when it gives nothing; what
fwrite, fclose and unlink return is not looked at. The temporary path is no symbolic link. -/
namespace MoCodes.Crypto.Base64Atomic
open MoCodes.Lib.Blocks MoCodes.Lib.FileStore MoCodes.Utils.File MoCodes.Crypto.Base64
open MoCodes.Crypto.Base64File (cryptFileBlockSize Disk getTmpFilepath cryptChars openRead openWrite)

/-- The calls that fail, in the order of the source, and how many bytes call `n` of fread and
fwrite leaves out. -/
structure Faults where
  tmpPath : Bool
  srcRead : Bool
  tmpWrite : Bool
  readShort : Nat → Nat
  malloc : Nat → Bool
  writeShort : Nat → Nat
  srcWrite : Bool
  tmpRead : Bool
  copyReadShort : Nat → Nat
  copyWriteShort : Nat → Nat
  unlink : Bool

def orFail {α : Type} (fails : Bool) (result : Option α) : Option α := if fails then none else result

/-- What the calls of fread return until one returns nothing. -/
def freads (short : Nat → Nat) (call : Nat) (text : List UInt8) : List (List UInt8) :=
  let readNum := min cryptFileBlockSize text.length-short call
  if readNum = 0 then [] else text.take readNum::freads short (call+1) (text.drop readNum)
termination_by text.length
decreasing_by simp only [List.length_drop]; omega

def fwrite (short : Nat → Nat) (call : Nat) (text : List UInt8) : List UInt8 :=
  text.take (text.length-short call)

def cryptLoop (faults : Faults) (method : MOCRYPT_METHOD) :
    Nat → List (List UInt8) → List UInt8 → Int × List UInt8
  | _,[],written => (0,written)
  | call,buf::bufs,written => match orFail (faults.malloc call) (cryptChars method buf) with
    | some txt => cryptLoop faults method (call+1) bufs
      (written ++ fwrite faults.writeShort call (txt.1.take txt.2))
    | none => (base64ErrMallocFailed,written)

def copyLoop (short : Nat → Nat) : Nat → List (List UInt8) → List UInt8
  | _,[] => []
  | call,buf::bufs => fwrite short call buf ++ copyLoop short (call+1) bufs

variable (world : World) (faults : Faults)

/-- From the second opening of the source on. -/
def copyBack (disk : Disk) (pSrcFilepath pTmpFilepath : Path) : Int × Disk :=
  match orFail faults.srcWrite (openWrite world disk pSrcFilepath) with
  | none => (base64ErrFileOpenFail,disk)
  | some (fpSrc,emptied) => match orFail faults.tmpRead (openRead world emptied pTmpFilepath) with
    | none => (base64ErrFileOpenFail,emptied)
    | some fpTmp =>
      let copied := emptied.put fpSrc
        (copyLoop faults.copyWriteShort 0 (freads faults.copyReadShort 0 (emptied.content fpTmp)))
      (0,if faults.unlink then copied else copied.unlink (world.entryOf pTmpFilepath))

def cryptFileToSame (disk : Disk) (method : MOCRYPT_METHOD) (pSrcFilepath : Path) : Int × Disk :=
  if faults.tmpPath then (base64ErrMallocFailed,disk)
  else
    let pTmpFilepath := getTmpFilepath pSrcFilepath
    match orFail faults.srcRead (openRead world disk pSrcFilepath) with
    | none => (base64ErrFileOpenFail,disk)
    | some fpSrc => match orFail faults.tmpWrite (openWrite world disk pTmpFilepath) with
      | none => (base64ErrFileOpenFail,disk)
      | some (fpTmp,opened) =>
        let result := cryptLoop faults method 0 (freads faults.readShort 0 (opened.content fpSrc)) []
        let crypted := opened.put fpTmp result.2
        if result.1 ≠ 0 then (result.1,crypted)
        else copyBack world faults crypted pSrcFilepath pTmpFilepath

section Faultless

def faultless : Faults where
  tmpPath := false
  srcRead := false
  tmpWrite := false
  readShort := fun _ => 0
  malloc := fun _ => false
  writeShort := fun _ => 0
  srcWrite := false
  tmpRead := false
  copyReadShort := fun _ => 0
  copyWriteShort := fun _ => 0
  unlink := false

theorem fwrite_whole (call : Nat) (text : List UInt8) : fwrite (fun _ => 0) call text = text := by
  rw [fwrite,Nat.sub_zero,List.take_length]

theorem freads_nil (short : Nat → Nat) (call : Nat) : freads short call [] = [] := by
  rw [freads]
  exact if_pos (by simp)

theorem freads_chunks (call : Nat) (text : List UInt8) :
    freads (fun _ => 0) call text = chunks cryptFileBlockSize text := by
  have positive : 0 < cryptFileBlockSize := by decide
  rcases eq_or_ne text [] with rfl | more
  · rw [freads_nil,chunks_nil positive]
  · revert call
    refine last_induction (P := fun text => ∀ call,
      freads (fun _ => 0) call text = chunks cryptFileBlockSize text) positive ?_ ?_ more
    · intro last more short call
      have long := List.length_pos_of_ne_nil more
      rw [chunks_last more short,freads]
      simp only [Nat.min_eq_right short,Nat.sub_zero,List.take_length,List.drop_length,freads_nil]
      exact if_neg (by omega)
    · intro first rest full _ ih call
      have whole : min cryptFileBlockSize (first++rest).length = cryptFileBlockSize := by
        rw [List.length_append,full]
        omega
      rw [chunks_block full positive,freads]
      simp only [whole,Nat.sub_zero,List.take_left' full,List.drop_left' full,ih]
      exact if_neg (by omega)

theorem cryptLoop_faultless (method : MOCRYPT_METHOD) (bufs : List (List UInt8)) :
    ∀ call written, cryptLoop faultless method call bufs written = Base64File.cryptLoop method bufs written := by
  induction bufs with
  | nil => exact fun _ _ => rfl
  | cons buf bufs ih =>
    intro call written
    simp only [cryptLoop,Base64File.cryptLoop,faultless,orFail,Bool.false_eq_true,if_false,fwrite_whole]
    cases cryptChars method buf with
    | none => rfl
    | some txt => exact ih (call+1) _

theorem copyLoop_whole (bufs : List (List UInt8)) : ∀ call, copyLoop (fun _ => 0) call bufs = bufs.flatten := by
  induction bufs with
  | nil => exact fun _ => rfl
  | cons buf bufs ih =>
    intro call
    rw [copyLoop,fwrite_whole,ih,List.flatten_cons]

/-- Where no call fails the conversion is the one above. -/
theorem cryptFileToSame_faultless (disk : Disk) (method : MOCRYPT_METHOD) (pSrcFilepath : Path) :
    cryptFileToSame world faultless disk method pSrcFilepath =
      Base64File.cryptFileToSame world disk method pSrcFilepath := by
  have reads : ∀ text, freads faultless.readShort 0 text = chunks cryptFileBlockSize text := freads_chunks 0
  have copies : ∀ text, copyLoop faultless.copyWriteShort 0 (freads faultless.copyReadShort 0 text) =
      (chunks cryptFileBlockSize text).flatten := by
    intro text
    have blocks : freads faultless.copyReadShort 0 text = chunks cryptFileBlockSize text := freads_chunks 0 text
    rw [blocks]
    exact copyLoop_whole _ 0
  simp only [cryptFileToSame,copyBack,Base64File.cryptFileToSame,reads,copies,cryptLoop_faultless]
  rfl

end Faultless

structure Begins (src : Path) : Prop where
  tmpPath : faults.tmpPath = false
  srcRead : faults.srcRead = false ∧ world.canRead src = true
  tmpWrite : faults.tmpWrite = false ∧ world.canWrite (getTmpFilepath src) = true

/-- Every block that is read gets its memory and is crypted. -/
def Crypts (method : MOCRYPT_METHOD) (bufs : List (List UInt8)) : Prop :=
  ∀ call buf, bufs[call]? = some buf → faults.malloc call = false ∧ cryptChars method buf ≠ none

def SrcOpens (src : Path) : Prop := faults.srcWrite = false ∧ world.canWrite src = true

def TmpOpens (src : Path) : Prop := faults.tmpRead = false ∧ world.canRead (getTmpFilepath src) = true

/-- The temporary name leads to the source itself. -/
def Aliased (disk : Disk) (src : Path) : Prop :=
  disk.fileOf (world.entryOf (getTmpFilepath src)) = disk.fileOf (world.entryOf src)

def SourceKept (disk : Disk) (method : MOCRYPT_METHOD) (src : Path) : Prop :=
  let result := cryptFileToSame world faults disk method src
  result.1 ≠ 0 → result.2.read (world.entryOf src) = disk.read (world.entryOf src)

section Steps

variable {world faults}

theorem orFail_eq_some {α : Type} {fails : Bool} {result : Option α} {a : α} :
    orFail fails result = some a ↔ fails = false ∧ result = some a := by
  cases fails <;> simp [orFail]

theorem orFail_none {α : Type} {fails : Bool} {result : Option α}
    (missing : ∀ a, ¬ (fails = false ∧ result = some a)) : orFail fails result = none :=
  Option.eq_none_iff_forall_ne_some.mpr fun a found => missing a (orFail_eq_some.mp found)

theorem crypts_cons {method : MOCRYPT_METHOD} {buf : List UInt8} {bufs : List (List UInt8)} {call : Nat} :
    (∀ k txt, (buf::bufs)[k]? = some txt → faults.malloc (call+k) = false ∧ cryptChars method txt ≠ none) ↔
      (faults.malloc call = false ∧ cryptChars method buf ≠ none) ∧
        ∀ k txt, bufs[k]? = some txt → faults.malloc (call+1+k) = false ∧ cryptChars method txt ≠ none := by
  constructor
  · intro all
    refine ⟨all 0 buf rfl,fun k txt found => ?_⟩
    have later := all (k+1) txt found
    rwa [Nat.add_comm k 1,← Nat.add_assoc] at later
  · rintro ⟨first,later⟩ k txt found
    cases k with
    | zero =>
      cases found
      exact first
    | succ k =>
      rw [Nat.add_comm k 1,← Nat.add_assoc]
      exact later k txt found

theorem cryptLoop_ok_iff (method : MOCRYPT_METHOD) (bufs : List (List UInt8)) : ∀ call written,
    (cryptLoop faults method call bufs written).1 = 0 ↔
      ∀ k txt, bufs[k]? = some txt → faults.malloc (call+k) = false ∧ cryptChars method txt ≠ none := by
  induction bufs with
  | nil =>
    intro call written
    simp [cryptLoop]
  | cons buf bufs ih =>
    intro call written
    rw [crypts_cons,cryptLoop]
    split
    · next txt found =>
      obtain ⟨memory,crypted⟩ := orFail_eq_some.mp found
      have fits : faults.malloc call = false ∧ cryptChars method buf ≠ none := ⟨memory,by simp [crypted]⟩
      rw [ih,and_iff_right fits]
    · next missing =>
      have nonzero : base64ErrMallocFailed ≠ 0 := by decide
      refine iff_of_false nonzero ?_
      rintro ⟨⟨memory,crypted⟩,_⟩
      obtain ⟨txt,found⟩ := Option.ne_none_iff_exists'.mp crypted
      rw [orFail_eq_some.mpr ⟨memory,found⟩] at missing
      cases missing

theorem cryptLoop_crypts_iff (method : MOCRYPT_METHOD) (bufs : List (List UInt8)) :
    (cryptLoop faults method 0 bufs []).1 = 0 ↔ Crypts faults method bufs := by
  rw [cryptLoop_ok_iff]
  simp only [Nat.zero_add,Crypts]

theorem orFail_openWrite {fails : Bool} (disk : Disk) {path : Path}
    (opens : fails = false ∧ world.canWrite path = true) :
    orFail fails (openWrite world disk path) = some (disk.truncate (world.entryOf path)) := by
  rw [orFail_eq_some,openWrite,if_pos opens.2]
  exact ⟨opens.1,rfl⟩

theorem orFail_openWrite_none {fails : Bool} {disk : Disk} {path : Path}
    (missing : ¬ (fails = false ∧ world.canWrite path = true)) : orFail fails (openWrite world disk path) = none := by
  refine orFail_none fun opened found => missing ⟨found.1,?_⟩
  by_contra locked
  rw [openWrite,if_neg locked] at found
  cases found.2

theorem orFail_openRead {fails : Bool} {disk : Disk} {path : Path} {id : Nat}
    (leads : disk.fileOf (world.entryOf path) = some id) (opens : fails = false ∧ world.canRead path = true) :
    orFail fails (openRead world disk path) = some id := by
  rw [orFail_eq_some,openRead,if_pos opens.2]
  exact ⟨opens.1,leads⟩

theorem orFail_openRead_none {fails : Bool} {disk : Disk} {path : Path}
    (missing : ¬ (fails = false ∧ world.canRead path = true)) : orFail fails (openRead world disk path) = none := by
  refine orFail_none fun opened found => missing ⟨found.1,?_⟩
  by_contra locked
  rw [openRead,if_neg locked] at found
  cases found.2

theorem unbegun_disk {disk : Disk} {method : MOCRYPT_METHOD} {src : Path}
    (missing : disk.fileOf (world.entryOf src) = none ∨ ¬ Begins world faults src) :
    (cryptFileToSame world faults disk method src).2 = disk := by
  by_cases tmpPath : faults.tmpPath = true
  · rw [cryptFileToSame,if_pos tmpPath]
  · cases found : orFail faults.srcRead (openRead world disk src) with
    | none => simp only [cryptFileToSame,if_neg tmpPath,found]
    | some fpSrc =>
      obtain ⟨srcRead,opened⟩ := orFail_eq_some.mp found
      have readable : world.canRead src = true ∧ disk.fileOf (world.entryOf src) = some fpSrc := by
        simpa [openRead] using opened
      have tmpMissing : ¬ (faults.tmpWrite = false ∧ world.canWrite (getTmpFilepath src) = true) := by
        intro tmpWrite
        rcases missing with gone | unopened
        · rw [gone] at readable
          cases readable.2
        · exact unopened ⟨by simpa using tmpPath,⟨srcRead,readable.1⟩,tmpWrite⟩
      simp only [cryptFileToSame,if_neg tmpPath,found,orFail_openWrite_none tmpMissing]

def openedText (world : World) (disk : Disk) (src : Path) (text : List UInt8) : List UInt8 :=
  if disk.fileOf (world.entryOf (getTmpFilepath src)) = disk.fileOf (world.entryOf src) then [] else text

def openedBlocks (world : World) (faults : Faults) (disk : Disk) (src : Path) (source : Nat) : List (List UInt8) :=
  freads faults.readShort 0 (openedText world disk src (disk.content source))

section Begun

variable {disk : Disk} {method : MOCRYPT_METHOD} {src : Path} {source : Nat}
  (leads : disk.fileOf (world.entryOf src) = some source) (begins : Begins world faults src)

def crypted (world : World) (faults : Faults) (disk : Disk) (method : MOCRYPT_METHOD) (src : Path)
    (source : Nat) : Disk :=
  let opened := disk.truncate (world.entryOf (getTmpFilepath src))
  opened.2.put opened.1
    (cryptLoop faults method 0 (freads faults.readShort 0 (opened.2.content source)) []).2

include leads in
theorem crypted_fileOf : (crypted world faults disk method src source).fileOf (world.entryOf src) = some source :=
  truncate_keeps disk leads

include leads in
theorem opened_content : (disk.truncate (world.entryOf (getTmpFilepath src))).2.content source =
    openedText world disk src (disk.content source) := by
  rw [truncate_content_of disk leads,openedText,leads]

include leads in
/-- The loop writes nothing to the source: where the two are one file it reads nothing. -/
theorem crypted_read : (crypted world faults disk method src source).read (world.entryOf src) =
    some (openedText world disk src (disk.content source)) := by
  rw [Files.read,crypted_fileOf leads,Option.map_some,crypted,truncate_put_content_of disk leads,
    opened_content leads,openedText,leads]
  split
  · rw [freads_nil]
    rfl
  · rfl

theorem crypted_tmp : ∃ id,
    (crypted world faults disk method src source).fileOf (world.entryOf (getTmpFilepath src)) = some id :=
  ⟨_,truncate_fileOf disk _⟩

theorem openFail_ne : base64ErrFileOpenFail ≠ 0 := by decide

theorem copyBack_unopened {tmp : Path} (missing : ¬ SrcOpens world faults src) :
    copyBack world faults disk src tmp = (base64ErrFileOpenFail,disk) := by
  simp only [copyBack,orFail_openWrite_none missing]

include leads in
/-- The source is emptied before the temporary file is opened for reading. -/
theorem copyBack_emptied (opens : SrcOpens world faults src) (missing : ¬ TmpOpens world faults src) :
    copyBack world faults disk src (getTmpFilepath src) = (base64ErrFileOpenFail,disk.put source []) := by
  simp only [copyBack,orFail_openWrite disk opens,truncate_found disk leads,orFail_openRead_none missing]

theorem copyBack_ok (opens : SrcOpens world faults src) (reopens : TmpOpens world faults src)
    (there : ∃ id, disk.fileOf (world.entryOf (getTmpFilepath src)) = some id) :
    (copyBack world faults disk src (getTmpFilepath src)).1 = 0 := by
  obtain ⟨id,found⟩ := there
  have kept : (disk.truncate (world.entryOf src)).2.fileOf (world.entryOf (getTmpFilepath src)) = some id :=
    truncate_keeps disk found
  simp only [copyBack,orFail_openWrite disk opens,orFail_openRead kept reopens]

include leads begins in
theorem cryptFileToSame_begun : cryptFileToSame world faults disk method src =
    if (cryptLoop faults method 0 (openedBlocks world faults disk src source) []).1 ≠ 0
    then ((cryptLoop faults method 0 (openedBlocks world faults disk src source) []).1,
      crypted world faults disk method src source)
    else copyBack world faults (crypted world faults disk method src source) src (getTmpFilepath src) := by
  have first := orFail_openRead leads begins.srcRead
  have second := orFail_openWrite disk begins.tmpWrite
  simp only [cryptFileToSame,begins.tmpPath,first,second,opened_content leads,crypted,openedBlocks]
  rfl

include leads begins in
theorem begun_crypts (crypts : Crypts faults method (openedBlocks world faults disk src source)) :
    cryptFileToSame world faults disk method src =
      copyBack world faults (crypted world faults disk method src source) src (getTmpFilepath src) := by
  have whole := (cryptLoop_crypts_iff method _).mpr crypts
  rw [cryptFileToSame_begun leads begins]
  exact if_neg (not_not.mpr whole)

include leads begins in
/-- The loop or the second opening fails: the source is as the first opening left it. -/
theorem begun_stopped (fails : ¬ (Crypts faults method (openedBlocks world faults disk src source) ∧
    SrcOpens world faults src)) :
    (cryptFileToSame world faults disk method src).1 ≠ 0 ∧
      (cryptFileToSame world faults disk method src).2.read (world.entryOf src) =
        some (openedText world disk src (disk.content source)) := by
  by_cases crypts : Crypts faults method (openedBlocks world faults disk src source)
  · have missing : ¬ SrcOpens world faults src := fun opens => fails ⟨crypts,opens⟩
    rw [begun_crypts leads begins crypts,copyBack_unopened missing]
    exact ⟨openFail_ne,crypted_read leads⟩
  · have broken : (cryptLoop faults method 0 (openedBlocks world faults disk src source) []).1 ≠ 0 :=
      fun ok => crypts ((cryptLoop_crypts_iff method _).mp ok)
    rw [cryptFileToSame_begun leads begins,if_pos broken]
    exact ⟨broken,crypted_read leads⟩

include leads begins in
theorem begun_emptied (crypts : Crypts faults method (openedBlocks world faults disk src source))
    (opens : SrcOpens world faults src) (missing : ¬ TmpOpens world faults src) :
    (cryptFileToSame world faults disk method src).1 ≠ 0 ∧
      (cryptFileToSame world faults disk method src).2.read (world.entryOf src) = some [] := by
  rw [begun_crypts leads begins crypts,copyBack_emptied (crypted_fileOf leads) opens missing]
  refine ⟨openFail_ne,?_⟩
  rw [Files.read,put_fileOf,crypted_fileOf leads,Option.map_some,put_content]

include leads begins in
theorem begun_ok (crypts : Crypts faults method (openedBlocks world faults disk src source))
    (opens : SrcOpens world faults src) (reopens : TmpOpens world faults src) :
    (cryptFileToSame world faults disk method src).1 = 0 := by
  rw [begun_crypts leads begins crypts,copyBack_ok opens reopens crypted_tmp]

include leads begins in
theorem begun_kept_iff : SourceKept world faults disk method src ↔
    (¬ (Crypts faults method (openedBlocks world faults disk src source) ∧ SrcOpens world faults src) →
      openedText world disk src (disk.content source) = disk.content source) ∧
    (Crypts faults method (openedBlocks world faults disk src source) → SrcOpens world faults src →
      ¬ TmpOpens world faults src → disk.content source = []) := by
  have before : disk.read (world.entryOf src) = some (disk.content source) := by
    rw [Files.read,leads,Option.map_some]
  rw [SourceKept,before]
  constructor
  · intro kept
    constructor
    · intro fails
      obtain ⟨error,read⟩ := begun_stopped leads begins fails
      exact Option.some.inj (read.symm.trans (kept error))
    · intro crypts opens missing
      obtain ⟨error,read⟩ := begun_emptied leads begins crypts opens missing
      exact (Option.some.inj (read.symm.trans (kept error))).symm
  · rintro ⟨stopped,emptied⟩ error
    by_cases fails : Crypts faults method (openedBlocks world faults disk src source) ∧ SrcOpens world faults src
    · by_cases reopens : TmpOpens world faults src
      · exact absurd (begun_ok leads begins fails.1 fails.2 reopens) error
      · rw [(begun_emptied leads begins fails.1 fails.2 reopens).2,emptied fails.1 fails.2 reopens]
    · rw [(begun_stopped leads begins fails).2,stopped fails]

end Begun

/-- The faults after which the source is as it was, or the call returns 0. -/
def Harmless (world : World) (faults : Faults) (disk : Disk) (method : MOCRYPT_METHOD) (src : Path) : Prop :=
  let text := (disk.read (world.entryOf src)).getD []
  text = [] ∨ ¬ Begins world faults src ∨
    (Aliased world disk src ∧ SrcOpens world faults src ∧ TmpOpens world faults src) ∨
    (¬ Aliased world disk src ∧ (¬ Crypts faults method (freads faults.readShort 0 text) ∨
      ¬ SrcOpens world faults src ∨ TmpOpens world faults src))

theorem crypts_nil (method : MOCRYPT_METHOD) : Crypts faults method [] := by
  intro call buf found
  cases found

/-- An error leaves the source as it was exactly after harmless faults. -/
theorem cryptFileToSame_atomic_iff (world : World) (faults : Faults) (disk : Disk) (method : MOCRYPT_METHOD)
    (src : Path) : SourceKept world faults disk method src ↔ Harmless world faults disk method src := by
  cases leads : disk.fileOf (world.entryOf src) with
  | none =>
    have missing : disk.read (world.entryOf src) = none := by rw [Files.read,leads,Option.map_none]
    refine iff_of_true (fun _ => ?_) (.inl (by rw [missing]; rfl))
    rw [unbegun_disk (.inl leads)]
  | some source =>
    have before : disk.read (world.entryOf src) = some (disk.content source) := by
      rw [Files.read,leads,Option.map_some]
    by_cases begins : Begins world faults src
    · rw [begun_kept_iff leads begins,Harmless,before,Option.getD_some]
      by_cases aliased : Aliased world disk src
      · have emptied : openedText world disk src (disk.content source) = [] := if_pos aliased
        simp only [openedBlocks,emptied,freads_nil,crypts_nil,begins,aliased,true_and,not_true_eq_false,
          true_implies,false_and,false_or,or_false,eq_comm (a := ([] : List UInt8))]
        tauto
      · have same : openedText world disk src (disk.content source) = disk.content source := if_neg aliased
        simp only [openedBlocks,same,begins,aliased,not_true_eq_false,implies_true,true_and,not_false_eq_true,
          false_and,false_or]
        tauto
    · refine iff_of_true (fun _ => ?_) (.inr (.inl begins))
      rw [unbegun_disk (.inr begins)]

end Steps

open MoCodes.Crypto.Base64File (spaceWorld spaceDisk)

/-- Only the temporary file does not open again, and the one byte of the source is gone. -/
theorem cryptFileToSame_source_lost :
    ¬ SourceKept spaceWorld {faultless with tmpRead := true} (spaceDisk.put 0 [7]) .encrypt ['a',' ','b','/','x'] := by
  intro kept
  have begins : Begins spaceWorld {faultless with tmpRead := true} ['a',' ','b','/','x'] :=
    ⟨rfl,⟨rfl,rfl⟩,⟨rfl,rfl⟩⟩
  have blocks : openedBlocks spaceWorld {faultless with tmpRead := true} (spaceDisk.put 0 [7])
      ['a',' ','b','/','x'] 0 = [[7]] := by
    have whole : openedText spaceWorld (spaceDisk.put 0 [7]) ['a',' ','b','/','x'] [7] = [7] := if_neg (by decide)
    have text : (spaceDisk.put 0 [7]).content 0 = [7] := put_content spaceDisk 0 [7]
    rw [openedBlocks,text,whole]
    exact (freads_chunks 0 [7]).trans (chunks_last (by decide) (by decide))
  have crypts : Crypts {faultless with tmpRead := true} .encrypt [[7]] := by
    intro call buf found
    exact ⟨rfl,by simp [cryptChars]⟩
  have lost := (begun_kept_iff rfl begins).mp kept
  rw [blocks,put_content] at lost
  exact absurd (lost.2 crypts ⟨rfl,rfl⟩ fun opens => Bool.noConfusion opens.1) (by decide)

end MoCodes.Crypto.Base64Atomic
