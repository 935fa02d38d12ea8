import MoCodes.Cps.Server.ReaderNodes

/-! The readers of the file manager against the table of what is being read. An open stream belongs
to exactly one node, and a node that is not being read has none. -/
namespace MoCodes.Cps.Server.FileMgr
open MoCodes.Lib.LinkedList MoCodes.Lib.DirTree MoCodes.Lib.Descriptors MoCodes.Lib.Machine

section Sharing

/-- The file that is read through the node. -/
def ReadsFile (streams : List (Option Stream)) (info : FileInfo) : Option Nat → Prop
  | none => info.fp = none ∧ info.readHdrNum = 0
  | some file => ∃ fp stream, info.fp = some fp ∧ info.readHdrNum = 1 ∧ opened streams fp = some stream ∧
      stream.file = file

structure Shown (dirPath : Path) (listed : FileType → Path → Bool) (entry : FileType → Path → Option FileInfo)
    (fm : Readers) (table : ReadTable) : Prop where
  sees : Sees fm.gDirFileList entry
  path : fm.gDirFileList.dirPath = dirPath
  disk : table.disk = fm.disk
  listed : ∀ type name, (entry type name).isSome = listed type name
  reads : ∀ {type name info}, entry type name = some info → ReadsFile fm.streams info (table.reading type name)
  unlisted : ∀ {type name}, entry type name = none → table.reading type name = none
  owned : ∀ {fp}, opened fm.streams fp ≠ none → ∃ type name info, entry type name = some info ∧ info.fp = some fp
  apart : ∀ {type name info other asked info' fp}, entry type name = some info → info.fp = some fp →
    entry other asked = some info' → info'.fp = some fp → other = type ∧ asked = name

def Shows (dirPath : Path) (listed : FileType → Path → Bool) (fm : Readers) (table : ReadTable) : Prop :=
  ∃ entry, Shown dirPath listed entry fm table

variable {dirPath : Path} {listed : FileType → Path → Bool} {entry : FileType → Path → Option FileInfo}
  {fm : Readers} {table : ReadTable} {type : FileType} {name : Path} {info : FileInfo}

theorem Shown.moved (shown : Shown dirPath listed entry fm table) (fp pos : Nat) :
    Shown dirPath listed entry
      {fm with streams := change (fun stream => {stream with pos := pos}) fp fm.streams} table := by
  have same (other : Nat) : (opened (change (fun stream : Stream => {stream with pos := pos}) fp fm.streams) other).map
      Stream.file = (opened fm.streams other).map Stream.file := by
    rw [opened_change]
    split_ifs with equal
    · rw [equal,Option.map_map]
      rfl
    · rfl
  refine ⟨shown.sees,shown.path,shown.disk,shown.listed,?_,shown.unlisted,?_,shown.apart⟩
  · intro type name info there
    have before := shown.reads there
    cases reading : table.reading type name with
    | none =>
      rw [reading] at before
      exact before
    | some file =>
      rw [reading] at before
      obtain ⟨other,stream,held,number,there,rfl⟩ := before
      have kept := same other
      rw [there] at kept
      obtain ⟨moved,here,file⟩ := Option.map_eq_some_iff.mp kept
      exact ⟨other,moved,held,number,here,file⟩
  · intro other open_
    apply shown.owned
    intro closed
    have kept := same other
    rw [closed] at kept
    exact open_ (Option.map_eq_none_iff.mp kept)

theorem Shown.readOpened (shown : Shown dirPath listed entry fm table) (there : entry type name = some info)
    {pNode : Nat} {next : Option Nat} (here : fm.gDirFileList.heap pNode = some ⟨info,next⟩) {file : Nat}
    (reading : table.reading type name = some file) (offset length : Int) (room : Nat) :
    Agree (Shows dirPath listed) (fm.readOpened pNode offset length room) (table.part file offset length room) := by
  have held := shown.reads there
  rw [reading] at held
  obtain ⟨fp,stream,at_node,_,open_,rfl⟩ := held
  simp only [Readers.readOpened,Readers.readFile,here,at_node,open_,ReadTable.part,shown.disk]
  split_ifs with negative short whole
  · exact .right ⟨entry,shown.moved fp 0⟩
  · exact .wrong
  · exact .right ⟨entry,shown.moved fp _⟩
  · exact .right ⟨entry,shown.moved fp _⟩

theorem Shown.open_of_fp (shown : Shown dirPath listed entry fm table) (there : entry type name = some info) {fp : Nat}
    (held : info.fp = some fp) : opened fm.streams fp ≠ none := by
  have reads := shown.reads there
  cases reading : table.reading type name with
  | none =>
    rw [reading,ReadsFile,held] at reads
    cases reads.1
  | some file =>
    rw [reading] at reads
    obtain ⟨other,stream,same,_,open_,_⟩ := reads
    rw [held] at same
    rw [Option.some.inj same,open_]
    exact Option.some_ne_none stream

theorem setEntry_some {other : FileType} {asked : Path} {told changed : FileInfo}
    (there : setEntry entry type name changed other asked = some told) :
    (other = type ∧ asked = name) ∧ told = changed ∨ ¬ (other = type ∧ asked = name) ∧ entry other asked = some told := by
  rw [setEntry] at there
  split_ifs at there with here
  · exact Or.inl ⟨here,(Option.some.inj there).symm⟩
  · exact Or.inr ⟨here,there⟩

theorem setEntry_isSome (there : entry type name = some info) (changed : FileInfo) (other : FileType) (asked : Path) :
    (setEntry entry type name changed other asked).isSome = (entry other asked).isSome := by
  rw [setEntry]
  split_ifs with here
  · rw [here.1,here.2,there]
    rfl
  · rfl

theorem setEntry_none {other : FileType} {asked : Path} {changed : FileInfo}
    (missing : setEntry entry type name changed other asked = none) :
    ¬ (other = type ∧ asked = name) ∧ entry other asked = none := by
  rw [setEntry] at missing
  split_ifs at missing with here
  exact ⟨here,missing⟩

/-- What openFile leaves behind. -/
def openedNode (fm : Readers) (info : FileInfo) : FileInfo := {info with fp := some (lowest fm.streams),readHdrNum := 1}

def openedReaders (fm : Readers) (pNode : Nat) (info : FileInfo) (next : Option Nat) (file : Nat) : Readers :=
  {fm with
    gDirFileList := fm.setInfo pNode ⟨info,next⟩ (openedNode fm info),streams := give ⟨file,0⟩ fm.streams}

theorem Shown.opens (shown : Shown dirPath listed entry fm table) (there : entry type name = some info)
    (closed : table.reading type name = none) {pNode : Nat} {next : Option Nat}
    (node : NodeOf fm.gDirFileList entry type name info pNode next) (file : Nat) :
    Shown dirPath listed (setEntry entry type name (openedNode fm info)) (openedReaders fm pNode info next file)
      (table.setFile type name (some file)) := by
  have unheld : info.fp = none := by
    have reads := shown.reads there
    rw [closed] at reads
    exact reads.1
  have new (fp : Nat) (open_ : opened fm.streams fp ≠ none) : fp ≠ lowest fm.streams :=
    fun same => open_ (same ▸ lowest_free)
  refine ⟨node.written (openedNode fm) (fun _ => rfl),shown.path,shown.disk,?_,?_,?_,?_,?_⟩
  · intro other asked
    rw [setEntry_isSome there,shown.listed]
  · intro other asked told told_there
    rcases setEntry_some told_there with ⟨⟨rfl,rfl⟩,rfl⟩ | ⟨apart,before⟩
    · simp only [ReadTable.setFile,true_and,if_true]
      exact ⟨_,⟨file,0⟩,rfl,rfl,by rw [openedReaders,opened_give,if_pos rfl],rfl⟩
    · simp only [ReadTable.setFile,if_neg apart]
      have reads := shown.reads before
      cases reading : table.reading other asked with
      | none =>
        rw [reading] at reads
        exact reads
      | some other =>
        rw [reading] at reads
        obtain ⟨fp,stream,held,number,open_,same⟩ := reads
        refine ⟨fp,stream,held,number,?_,same⟩
        rw [openedReaders,opened_give,if_neg (new fp (by simp [open_])),open_]
  · intro other asked missing
    obtain ⟨apart,before⟩ := setEntry_none missing
    simp only [ReadTable.setFile,if_neg apart]
    exact shown.unlisted before
  · intro fp open_
    by_cases same : fp = lowest fm.streams
    · exact ⟨type,name,openedNode fm info,if_pos ⟨rfl,rfl⟩,congrArg some same.symm⟩
    · rw [openedReaders,opened_give,if_neg same] at open_
      obtain ⟨other,asked,told,before,held⟩ := shown.owned open_
      refine ⟨other,asked,told,?_,held⟩
      rw [setEntry,if_neg,before]
      rintro ⟨rfl,rfl⟩
      cases there.symm.trans before
      cases unheld.symm.trans held
  · intro one asked told two asked' told' fp first held second held'
    rcases setEntry_some first with ⟨⟨rfl,rfl⟩,rfl⟩ | ⟨_,before⟩
    · rcases setEntry_some second with ⟨here,_⟩ | ⟨_,before'⟩
      · exact here
      · exact absurd (Option.some.inj held).symm (new fp (shown.open_of_fp before' held'))
    · rcases setEntry_some second with ⟨_,rfl⟩ | ⟨_,before'⟩
      · exact absurd (Option.some.inj held').symm (new fp (shown.open_of_fp before held))
      · exact shown.apart before held before' held'

def closedNode (info : FileInfo) : FileInfo := {info with fp := none,readHdrNum := 0}

theorem Shown.closes (shown : Shown dirPath listed entry fm table) (there : entry type name = some info) {fp : Nat}
    (held : info.fp = some fp) {pNode : Nat} {next : Option Nat}
    (node : NodeOf fm.gDirFileList entry type name info pNode next) :
    Shown dirPath listed (setEntry entry type name (closedNode info))
      {fm with gDirFileList := fm.setInfo pNode ⟨info,next⟩ (closedNode info),streams := close fp fm.streams}
      (table.setFile type name none) := by
  refine ⟨node.written closedNode (fun _ => rfl),shown.path,shown.disk,?_,?_,?_,?_,?_⟩
  · intro other asked
    rw [setEntry_isSome there,shown.listed]
  · intro other asked told told_there
    rcases setEntry_some told_there with ⟨⟨rfl,rfl⟩,rfl⟩ | ⟨apart,before⟩
    · simp only [ReadTable.setFile,true_and,if_true]
      exact ⟨rfl,rfl⟩
    · simp only [ReadTable.setFile,if_neg apart]
      have reads := shown.reads before
      cases reading : table.reading other asked with
      | none =>
        rw [reading] at reads
        exact reads
      | some file =>
        rw [reading] at reads
        obtain ⟨kept,stream,held',number,open_,same⟩ := reads
        have different : kept ≠ fp := fun equal => apart (shown.apart there held before (held'.trans (equal ▸ rfl)))
        exact ⟨kept,stream,held',number,by rw [opened_close,if_neg different,open_],same⟩
  · intro other asked missing
    obtain ⟨apart,before⟩ := setEntry_none missing
    simp only [ReadTable.setFile,if_neg apart]
    exact shown.unlisted before
  · intro other open_
    by_cases same : other = fp
    · rw [opened_close,if_pos same] at open_
      exact absurd rfl open_
    · rw [opened_close,if_neg same] at open_
      obtain ⟨kind,asked,told,before,held'⟩ := shown.owned open_
      refine ⟨kind,asked,told,?_,held'⟩
      rw [setEntry,if_neg,before]
      rintro ⟨rfl,rfl⟩
      cases there.symm.trans before
      exact same (Option.some.inj (held'.symm.trans held))
  · intro one asked told two asked' told' kept first held' second held''
    rcases setEntry_some first with ⟨_,rfl⟩ | ⟨_,before⟩
    · cases held'
    · rcases setEntry_some second with ⟨_,rfl⟩ | ⟨_,before'⟩
      · cases held''
      · exact shown.apart before held' before' held''

theorem Shown.stopNode (shown : Shown dirPath listed entry fm table) (there : entry type name = some info)
    {pNode : Nat} {next : Option Nat} (node : NodeOf fm.gDirFileList entry type name info pNode next) :
    ∃ after, fm.stopNode pNode = some ((if table.reading type name = none then -4 else 0),after) ∧
      Shows dirPath listed after
        (if table.reading type name = none then table else table.setFile type name none) := by
  have reads := shown.reads there
  cases reading : table.reading type name with
  | none =>
    rw [reading] at reads
    exact ⟨fm,by simp [Readers.stopNode,node.here,reads.2],entry,shown⟩
  | some file =>
    rw [reading] at reads
    obtain ⟨fp,stream,held,number,open_,_⟩ := reads
    refine ⟨_,?_,_,shown.closes there held node⟩
    simp [Readers.stopNode,node.here,number,held,open_,closedNode]

theorem Shown.openFile (shown : Shown dirPath listed entry fm table) (there : entry type name = some info)
    (closed : table.reading type name = none) {pNode : Nat} {next : Option Nat}
    (node : NodeOf fm.gDirFileList entry type name info pNode next)
    (fits : (join (getSubdirPath dirPath type) name).length < filepathMaxlen) (permitted : Bool) :
    fm.openFile permitted pNode =
      match if permitted then table.disk.named (join (getSubdirPath dirPath type) name) else none with
      | none => some (-3,fm)
      | some file => some (0,openedReaders fm pNode info next file) := by
  have reads := shown.reads there
  rw [closed] at reads
  have path : join (getSubdirPath fm.gDirFileList.dirPath info.basicInfo.type) info.basicInfo.filename =
      join (getSubdirPath dirPath type) name := by
    rw [shown.path,node.named,node.typed]
  simp only [Readers.openFile,node.here,reads.1,reads.2,path,if_neg (Nat.not_le_of_lt fits),shown.disk,ne_eq,
    not_true_eq_false,or_self,if_false]
  rfl

theorem Shown.readNode (shown : Shown dirPath listed entry fm table) (there : entry type name = some info)
    {pNode : Nat} {next : Option Nat} (node : NodeOf fm.gDirFileList entry type name info pNode next)
    (fits : (join (getSubdirPath dirPath type) name).length < filepathMaxlen) (permitted : Bool)
    (offset length : Int) (room : Nat) :
    Agree (Shows dirPath listed) (fm.readNode permitted pNode offset length room)
      (table.readName dirPath permitted type name offset length room) := by
  simp only [Readers.readNode,node.here,ReadTable.readName]
  cases reading : table.reading type name with
  | some file =>
    have reads := shown.reads there
    rw [reading] at reads
    obtain ⟨fp,_,held,_⟩ := reads
    rw [if_pos (by rw [held]; exact Option.some_ne_none fp)]
    exact shown.readOpened there node.here reading offset length room
  | none =>
    have reads := shown.reads there
    rw [reading] at reads
    rw [if_neg (not_not.mpr reads.1),shown.openFile there reading node fits]
    cases if permitted then table.disk.named (join (getSubdirPath dirPath type) name) else none with
    | none => exact .right ⟨entry,shown⟩
    | some file =>
      have after := shown.opens there reading node file
      have found : setEntry entry type name (openedNode fm info) type name = some (openedNode fm info) := if_pos ⟨rfl,rfl⟩
      apply after.readOpened found
      · exact Function.update_self _ _ _
      · exact if_pos ⟨rfl,rfl⟩

variable (fits : ∀ type name, listed type name = true → (join (getSubdirPath dirPath type) name).length < filepathMaxlen)

theorem Shown.entry_none (shown : Shown dirPath listed entry fm table) (unlisted : ¬ listed type name = true) :
    entry type name = none := by
  rw [← shown.listed] at unlisted
  simpa using unlisted

include fits

theorem Shows.read (shows : Shows dirPath listed fm table) (permitted : Bool) (fileInfo : AskedFile)
    (offset length : Int) (pBuf : Option Nat) :
    Agree (Shows dirPath listed) (fm.fmReadFile permitted fileInfo offset length pBuf)
      (table.read dirPath listed permitted fileInfo offset length pBuf) := by
  cases pBuf with
  | none => exact .right shows
  | some room =>
    simp only [Readers.fmReadFile,ReadTable.read]
    split_ifs with beyond
    · exact .right shows
    cases fileInfo.type with
    | none => exact .right shows
    | some type =>
      obtain ⟨entry,shown⟩ := shows
      simp only []
      split_ifs with there
      · obtain ⟨info,entered⟩ := Option.isSome_iff_exists.mp ((shown.listed type _).trans there)
        obtain ⟨pNode,next,node⟩ := shown.sees.node entered
        rw [node.found]
        exact shown.readNode entered node (fits type _ there) permitted offset length room
      · rw [shown.sees.missing (shown.entry_none there)]
        exact .right ⟨entry,shown⟩

omit fits in
theorem Shows.stop (shows : Shows dirPath listed fm table) (fileInfo : AskedFile) :
    ∃ after, fm.fmStopReadFile fileInfo = some ((table.stop listed fileInfo).1,after) ∧
      Shows dirPath listed after (table.stop listed fileInfo).2 := by
  rw [Readers.fmStopReadFile,ReadTable.stop]
  cases fileInfo.type with
  | none => exact ⟨fm,rfl,shows⟩
  | some type =>
    obtain ⟨entry,shown⟩ := shows
    simp only []
    split_ifs with there
    · obtain ⟨info,entered⟩ := Option.isSome_iff_exists.mp ((shown.listed type _).trans there)
      obtain ⟨pNode,next,node⟩ := shown.sees.node entered
      obtain ⟨after,stopped,shows⟩ := shown.stopNode entered node
      rw [node.found]
      refine ⟨after,?_,?_⟩
      · cases reading : table.reading type fileInfo.filename with
        | none => simpa [reading] using stopped
        | some file => simpa [reading] using stopped
      · cases reading : table.reading type fileInfo.filename with
        | none => simpa [reading] using shows
        | some file => simpa [reading] using shows
    · rw [shown.sees.missing (shown.entry_none there)]
      exact ⟨fm,rfl,entry,shown⟩

theorem readers_simulates : Simulates readers (readTable dirPath listed) (Shows dirPath listed) := by
  intro fm table call shows
  cases call with
  | read permitted fileInfo offset length pBuf => exact shows.read fits permitted fileInfo offset length pBuf
  | stop fileInfo =>
    obtain ⟨after,stopped,later⟩ := shows.stop fileInfo
    simp only [readers,stopped,Option.map_some]
    exact .right later
  | changed disk =>
    obtain ⟨entry,shown⟩ := shows
    exact .right ⟨entry,{shown with disk := rfl}⟩

end Sharing

section Started

variable {tree : ServedTree} {fm : Fm}

def listedIn (tree : ServedTree) (type : FileType) (name : Path) : Bool := (regularNames tree type).elem name

theorem find_isNamed {infos : List FileInfo} {name : Path} :
    (infos.find? (isNamed name)).isSome = true ↔ name ∈ infos.map fun info => info.basicInfo.filename := by
  rw [List.find?_isSome,List.mem_map]
  simp only [isNamed,decide_eq_true_eq]

theorem found_names (startable : Startable tree) (type : FileType) :
    (foundInfos tree.dirs tree.dirPath type).map (fun info => info.basicInfo.filename) = regularNames tree type := by
  have records := congrArg (List.map BasicFileInfo.filename) (@records_found tree type startable).2
  rw [recordsOf,subFiles,List.map_map,List.map_map] at records
  exact records.trans (List.map_id' _)

theorem found_info {type : FileType} {info : FileInfo} (member : info ∈ foundInfos tree.dirs tree.dirPath type) :
    info.basicInfo.type = type ∧ info.fp = none ∧ info.readHdrNum = 0 := by
  obtain ⟨name,_,rfl⟩ := List.mem_map.mp member
  exact ⟨rfl,rfl,rfl⟩

theorem started_kept (startable : Startable tree) (ran : fmInit tree.dirs tree.uninit tree.dirPath = some (.ok fm)) :
    ∃ cells, Kept fm.gDirFileList cells ∧ ∀ type, (cells type).map Prod.snd = foundInfos tree.dirs tree.dirPath type := by
  obtain ⟨_,_,table⟩ := start_table ran
  have each (type : FileType) : ∃ cells, Listed fm.gDirFileList.heap type.value cells ∧
      cells.map Prod.snd = foundInfos tree.dirs tree.dirPath type ∧
      ∀ addr ∈ addrs cells, FileType.all.length ≤ addr ∧ addr < fm.gDirFileList.used := by
    obtain ⟨_,_,link,cells,at_head,seg,same,nodup,bounds⟩ := table.chain type
    have last : (if foundInfos tree.dirs tree.dirPath type = [] then (tree.uninit type).next else none) = none := by
      split_ifs with nothing
      · have names := found_names startable type
        rw [nothing] at names
        exact startable.ended type names.symm
      · rfl
    rw [last] at seg
    refine ⟨cells,⟨⟨_,link,at_head,seg⟩,List.nodup_cons.mpr ⟨fun member => ?_,nodup⟩⟩,same,bounds⟩
    exact absurd (FileType.value_lt type) (Nat.not_lt_of_le (bounds _ member).1)
  choose cells listed infos bounds using each
  refine ⟨cells,⟨fun type => (table.chain type).head,listed,bounds,fun type cell member => ?_⟩,infos⟩
  have inside : cell.2 ∈ (cells type).map Prod.snd := List.mem_map_of_mem member
  rw [infos type] at inside
  exact (found_info inside).1

def startReaders (fm : Fm) (disk : Disk) : Readers := ⟨fm.gDirFileList,[],disk⟩

def nothingRead (disk : Disk) : ReadTable := ⟨fun _ _ => none,disk⟩

theorem started_shows (startable : Startable tree) (ran : fmInit tree.dirs tree.uninit tree.dirPath = some (.ok fm))
    (disk : Disk) : Shows tree.dirPath (listedIn tree) (startReaders fm disk) (nothingRead disk) := by
  obtain ⟨cells,kept,infos⟩ := started_kept startable ran
  have table := (start_table ran).2.2
  have entered {type : FileType} {name : Path} {info : FileInfo} (there : entryOf (cells type) name = some info) :
      info.fp = none ∧ info.readHdrNum = 0 := by
    obtain ⟨pNode,_,member,_⟩ := entryOf_some there
    have inside : info ∈ (cells type).map Prod.snd := List.mem_map_of_mem member
    rw [infos type] at inside
    exact (found_info inside).2
  have closed (fp : Nat) : opened ([] : List (Option Stream)) fp = none := by rw [opened,List.getElem?_nil]; rfl
  refine ⟨fun type name => entryOf (cells type) name,⟨⟨cells,kept,fun _ _ => rfl⟩,table.dirPath,rfl,?_,?_,?_,?_,?_⟩⟩
  · intro type name
    rw [Bool.eq_iff_iff,entryOf,Option.isSome_map,listedIn,List.elem_iff,← found_names startable,← infos type,
      ← find_isNamed,find_items,Option.isSome_map]
  · intro type name info there
    exact entered there
  · exact fun _ => rfl
  · intro fp open_
    exact absurd (closed fp) open_
  · intro type name info other asked info' fp there held
    cases (entered there).1.symm.trans held

theorem listed_fits (startable : Startable tree) (type : FileType) (name : Path)
    (listed : listedIn tree type name = true) :
    (join (getSubdirPath tree.dirPath type) name).length < filepathMaxlen := by
  have member := List.elem_iff.mp listed
  rw [← found_names startable] at member
  obtain ⟨info,found,rfl⟩ := List.mem_map.mp member
  obtain ⟨name,recorded,rfl⟩ := List.mem_map.mp found
  exact (records_found startable).1 name recorded

theorem oneFile_startable : Startable oneFileTree := by
  refine ⟨by decide,?_,?_,?_,by decide⟩
  · intro type
    cases type <;> decide
  · intro type
    cases type <;> decide
  · intro type
    cases type <;> exact fun nothing => by cases nothing

/-- The one file of the videos is file 1. -/
def oneFileDisk : Disk where
  named path := if path = join (getSubdirPath ['d'] .video) ['a'] then some 1 else none
  content _ := [1,2,3,4,5]

def oneAskedFile : AskedFile := ⟨5,['a'],some .video⟩

theorem Shown.closed_iff {dirPath : Path} {listed : FileType → Path → Bool}
    {entry : FileType → Path → Option FileInfo} {last : Readers} {table : ReadTable}
    (shown : Shown dirPath listed entry last table) :
    (∀ fp, opened last.streams fp = none) ↔ ∀ type name, table.reading type name = none := by
  constructor
  · intro closed type name
    cases there : entry type name with
    | none => exact shown.unlisted there
    | some info =>
      have reads := shown.reads there
      cases reading : table.reading type name with
      | none => rfl
      | some file =>
        rw [reading] at reads
        obtain ⟨fp,_,_,_,open_,_⟩ := reads
        cases (closed fp).symm.trans open_
  · intro unread fp
    by_contra open_
    obtain ⟨type,name,info,there,held⟩ := shown.owned open_
    have reads := shown.reads there
    rw [unread type name] at reads
    cases reads.1.symm.trans held

/-- fmUnInit goes through after every run and leaves no stream open exactly when every file that
was opened has been stopped. It asks for no reader, and a later call with a known type looks for
its node in memory that has been freed. -/
theorem fmUnInit_after_readers (startable : Startable tree)
    (ran : fmInit tree.dirs tree.uninit tree.dirPath = some (.ok fm)) {disk : Disk} {calls : List ReaderCall}
    {given : List (Int × List UInt8)} {last : Readers}
    (called : run readers (startReaders fm disk) calls = some (given,last)) :
    ∃ table after, run (readTable tree.dirPath (listedIn tree)) (nothingRead disk) calls = some (given,table) ∧
      last.fmUnInit = some after ∧
      ((∀ fp, opened after.streams fp = none) ↔ ∀ type name, table.reading type name = none) ∧
      ∀ name type, findFileNode after.gDirFileList name type = none := by
  obtain ⟨table,followed,entry,shown⟩ :=
    simulates_last (readers_simulates (listed_fits startable)) (started_shows startable ran disk) called
  obtain ⟨cells,kept,_⟩ := shown.sees
  obtain ⟨list,freed,lost⟩ := kept.unInit
  refine ⟨table,{last with gDirFileList := list},followed,?_,shown.closed_iff,lost⟩
  rw [Readers.fmUnInit,freed]
  rfl

theorem fmUnInit_after_readers_without_stop : ∃ fm last after,
    fmInit oneFileTree.dirs oneFileTree.uninit oneFileTree.dirPath = some (.ok fm) ∧
      run readers (startReaders fm oneFileDisk) [.read true oneAskedFile 1 3 (some 3)] =
        some ([(0,[2,3,4])],last) ∧
      last.fmUnInit = some after ∧ ¬ ∀ fp, opened after.streams fp = none := by
  obtain ⟨fm,_,ran,_⟩ := right_of_startable oneFile_startable
  have same := simulates_answers (readers_simulates (listed_fits oneFile_startable))
    (started_shows oneFile_startable ran oneFileDisk) [.read true oneAskedFile 1 3 (some 3)]
  have told : answers (readTable oneFileTree.dirPath (listedIn oneFileTree)) (nothingRead oneFileDisk)
      [.read true oneAskedFile 1 3 (some 3)] = some [(0,[2,3,4])] := by decide +kernel
  obtain ⟨⟨_,last⟩,called,rfl⟩ := Option.map_eq_some_iff.mp (same.trans told)
  obtain ⟨table,after,followed,uninited,leaks,_⟩ := fmUnInit_after_readers oneFile_startable ran called
  refine ⟨fm,last,after,ran,called,uninited,fun closed => ?_⟩
  have reading : (run (readTable oneFileTree.dirPath (listedIn oneFileTree)) (nothingRead oneFileDisk)
      [.read true oneAskedFile 1 3 (some 3)]).map (fun done => done.2.reading .video ['a']) = some (some 1) := by
    decide +kernel
  rw [followed,Option.map_some,leaks.mp closed] at reading
  cases reading

end Started

end MoCodes.Cps.Server.FileMgr
