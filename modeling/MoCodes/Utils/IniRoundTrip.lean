import MoCodes.Utils.IniLines
import MoCodes.Utils.IniSections

/-! Every way to write down sections and their attributes is parsed to just these, and the
lookup finds what is stored and nothing else. -/
namespace MoCodes.Utils.Ini
open MoCodes.Lib.Spans

/-- What an ini file stores. -/
structure Document where
  sections : Sections
  named : ∀ node ∈ sections, Name node.sectionName
  distinct : (sections.map MOUTILS_INI_SECTION_INFO.sectionName).Nodup
  valued : ∀ node ∈ sections, ∀ attr ∈ node.attrs, Trimmed attr.key ∧ Trimmed attr.value
  keysDistinct : ∀ node ∈ sections, (node.attrs.map MOUTILS_INI_ATTR_INFO.key).Nodup

def attrLines (attrs : List MOUTILS_INI_ATTR_INFO) : List Line :=
  attrs.map fun attr => .attrLine attr.key attr.value

def dataLines (sections : Sections) : List Line :=
  sections.flatMap fun node => .sectionLine node.sectionName::attrLines node.attrs

def isData : Line → Bool
  | .commentLine => false
  | .spaceLine => false
  | _ => true

/-- The lines of a file that stores the document, each in any of the ways to write it. -/
structure Rendering (document : Document) where
  lines : List (Line × Text)
  written : ∀ line ∈ lines, Renders line.1 line.2
  short : ∀ line ∈ lines, line.2.length < maxLineLen-1
  stored : (lines.map Prod.fst).filter isData = dataLines document.sections

/-- The newline after the last line may be there, as an empty line behind it, or not. -/
def fileText : List Text → List UInt8
  | [] => []
  | [text] => text
  | text::next::rest => text ++ newlineSymbol::fileText (next::rest)

theorem fgets_line {text : Text} (oneLine : newlineSymbol ∉ text) {room : Nat} (short : text.length < room)
    (fp : List UInt8) : fgets room (text ++ newlineSymbol::fp) = (text++[newlineSymbol],fp) := by
  induction text generalizing room with
  | nil =>
    obtain ⟨room,rfl⟩ := Nat.exists_eq_succ_of_ne_zero (Nat.ne_zero_of_lt short)
    rfl
  | cons char text ih =>
    obtain ⟨room,rfl⟩ := Nat.exists_eq_succ_of_ne_zero (Nat.ne_zero_of_lt short)
    have other : ¬char = newlineSymbol := fun same => oneLine (same ▸ List.mem_cons_self)
    have rest := ih (fun member => oneLine (List.mem_cons_of_mem _ member)) (Nat.lt_of_succ_lt_succ short)
    rw [List.cons_append,fgets,if_neg other]
    simp only [rest,List.cons_append]

theorem fgets_last {text : Text} (oneLine : newlineSymbol ∉ text) {room : Nat} (short : text.length < room) :
    fgets room text = (text,[]) := by
  induction text generalizing room with
  | nil =>
    obtain ⟨room,rfl⟩ := Nat.exists_eq_succ_of_ne_zero (Nat.ne_zero_of_lt short)
    rfl
  | cons char text ih =>
    obtain ⟨room,rfl⟩ := Nat.exists_eq_succ_of_ne_zero (Nat.ne_zero_of_lt short)
    have other : ¬char = newlineSymbol := fun same => oneLine (same ▸ List.mem_cons_self)
    have rest := ih (fun member => oneLine (List.mem_cons_of_mem _ member)) (Nat.lt_of_succ_lt_succ short)
    rw [fgets,if_neg other]
    simp only [rest]

theorem lineOf_line {text : Text} (oneLine : OneLine text) : lineOf (text++[newlineSymbol]) = text := by
  have noNul : (0 : UInt8) ∉ text++[newlineSymbol] := by
    simp only [List.mem_append,List.mem_singleton,not_or]
    exact ⟨oneLine.1,by decide⟩
  simp [lineOf,takeWhile_absent noNul]

theorem lineOf_last {text : Text} (oneLine : OneLine text) : lineOf text = text := by
  have newline : text.getLast? ≠ some newlineSymbol := fun last => oneLine.2 (List.mem_of_getLast? last)
  simp [lineOf,takeWhile_absent oneLine.1,newline]

theorem reads_cons {file read rest : List UInt8} (more : file ≠ [])
    (first : fgets (maxLineLen-1) file = (read,rest)) : reads file = read::reads rest := by
  obtain ⟨char,fp,rfl⟩ := List.exists_cons_of_ne_nil more
  rw [reads,first]

/-- fgets and the cut of the newline give the lines of a file back, but for an empty last one. -/
theorem linesOf_fileText {texts : List Text} (oneLine : ∀ text ∈ texts, OneLine text)
    (short : ∀ text ∈ texts, text.length < maxLineLen-1) :
    (linesOf (fileText texts)).filter isData = (texts.map getLineType).filter isData := by
  match texts with
  | [] => simp [fileText,linesOf,reads]
  | [text] =>
    have inLine := oneLine text List.mem_cons_self
    by_cases none : text = []
    · subst none
      simp [fileText,linesOf,reads,getLineType,getFirstValidCharType,isData]
    · have last := fgets_last inLine.2 (short text List.mem_cons_self)
      rw [fileText,linesOf,reads_cons none last,reads]
      simp [lineOf_last inLine]
  | text::next::rest =>
    have inLine := oneLine text List.mem_cons_self
    have line := fgets_line inLine.2 (short text List.mem_cons_self) (fileText (next::rest))
    have later := linesOf_fileText (fun text member => oneLine text (List.mem_cons_of_mem _ member))
      (fun text member => short text (List.mem_cons_of_mem _ member))
    rw [linesOf] at later
    rw [fileText,linesOf,reads_cons (by simp) line,List.map_cons,lineOf_line inLine,List.filter_cons,later]
    exact List.filter_cons.symm

section Data

variable (cur : Text) (lines : List Line)

theorem names_data : names (lines.filter isData) = names lines := by
  induction lines with
  | nil => rfl
  | cons line lines ih => cases line <;> simp [List.filter_cons,isData,names,ih]

theorem entries_data : entries cur (lines.filter isData) = entries cur lines := by
  induction lines generalizing cur with
  | nil => rfl
  | cons line lines ih => cases line <;> simp [List.filter_cons,isData,entries,ih]

theorem error_data : Line.errorLine ∈ lines.filter isData ↔ Line.errorLine ∈ lines := by
  simp [isData]

end Data

def entriesOf (sections : Sections) : List Entry :=
  sections.flatMap fun node => node.attrs.map fun attr => (node.sectionName,attr)

theorem names_dataLines (sections : Sections) :
    names (dataLines sections) = sections.map MOUTILS_INI_SECTION_INFO.sectionName := by
  have attrs : ∀ (attrs : List MOUTILS_INI_ATTR_INFO) (lines : List Line),
      names (attrLines attrs ++ lines) = names lines := by
    intro attrs lines
    induction attrs with
    | nil => rfl
    | cons attr attrs ih => exact ih
  induction sections with
  | nil => rfl
  | cons node sections ih =>
    rw [dataLines,List.flatMap_cons,List.cons_append,names,attrs,List.map_cons]
    exact congrArg _ ih

theorem entries_dataLines (cur : Text) (sections : Sections) :
    entries cur (dataLines sections) = entriesOf sections := by
  have attrs : ∀ (cur : Text) (attrs : List MOUTILS_INI_ATTR_INFO) (lines : List Line),
      entries cur (attrLines attrs ++ lines) = (attrs.map fun attr => (cur,attr)) ++ entries cur lines := by
    intro cur attrs lines
    induction attrs with
    | nil => rfl
    | cons attr attrs ih => exact congrArg _ ih
  induction sections generalizing cur with
  | nil => rfl
  | cons node sections ih =>
    rw [dataLines,List.flatMap_cons,List.cons_append,entries,attrs,entriesOf,List.flatMap_cons]
    exact congrArg _ (ih node.sectionName)

theorem sectionsOf_distinct (found : List Entry) {seen sectionNames : List Text}
    (distinct : sectionNames.Nodup) (apart : ∀ name ∈ sectionNames, name ∉ seen) :
    sectionsOf found seen sectionNames = sectionNames.map fun name => ⟨name,attrsOf found name⟩ := by
  induction sectionNames generalizing seen with
  | nil => rfl
  | cons name rest ih =>
    obtain ⟨fresh,later⟩ := List.nodup_cons.mp distinct
    rw [sectionsOf,if_neg (apart name List.mem_cons_self),ih later,List.map_cons]
    intro other member old
    rcases List.mem_cons.mp old with same | before
    · exact fresh (same ▸ member)
    · exact apart other (List.mem_cons_of_mem _ member) before

theorem attrsOf_append (front back : List Entry) (name : Text) :
    attrsOf (front++back) name = attrsOf front name ++ attrsOf back name := by
  rw [attrsOf,List.filter_append,List.map_append]
  rfl

theorem attrsOf_entriesOf {sections : Sections}
    (distinct : (sections.map MOUTILS_INI_SECTION_INFO.sectionName).Nodup)
    {node : MOUTILS_INI_SECTION_INFO} (member : node ∈ sections) :
    attrsOf (entriesOf sections) node.sectionName = node.attrs := by
  have same : ∀ node : MOUTILS_INI_SECTION_INFO,
      attrsOf (node.attrs.map fun attr => (node.sectionName,attr)) node.sectionName = node.attrs := by
    intro node
    simp [attrsOf,List.filter_map,Function.comp_def]
  have other : ∀ (node : MOUTILS_INI_SECTION_INFO) (name : Text), node.sectionName ≠ name →
      attrsOf (node.attrs.map fun attr => (node.sectionName,attr)) name = [] := by
    intro node name differ
    apply attrsOf_other
    simp [differ]
  induction sections with
  | nil => cases member
  | cons first sections ih =>
    obtain ⟨fresh,later⟩ := List.nodup_cons.mp distinct
    rw [entriesOf,List.flatMap_cons,attrsOf_append]
    rcases List.mem_cons.mp member with rfl | inside
    · rw [same]
      have none : attrsOf (entriesOf sections) node.sectionName = [] := by
        apply attrsOf_other
        intro entry stored equal
        obtain ⟨holder,within,attr,_,rfl⟩ := by simpa [entriesOf] using stored
        exact fresh (List.mem_map.mpr ⟨holder,within,equal⟩)
      rw [entriesOf] at none
      rw [none,List.append_nil]
    · have differ : first.sectionName ≠ node.sectionName :=
        fun equal => fresh (equal ▸ List.mem_map_of_mem inside)
      rw [other first node.sectionName differ]
      exact ih later inside

theorem sectionsOf_entriesOf {sections : Sections}
    (distinct : (sections.map MOUTILS_INI_SECTION_INFO.sectionName).Nodup) :
    sectionsOf (entriesOf sections) [] (sections.map MOUTILS_INI_SECTION_INFO.sectionName) = sections := by
  rw [sectionsOf_distinct _ distinct (by simp),List.map_map]
  calc
    _ = sections.map id := by
      apply List.map_congr_left
      intro node member
      simp only [Function.comp_apply,attrsOf_entriesOf distinct member,id]
    _ = sections := List.map_id sections

section Parsed

variable {document : Document} (rendering : Rendering document)

def Rendering.content : List UInt8 := fileText (rendering.lines.map Prod.snd)

theorem Rendering.lines_type : (rendering.lines.map Prod.snd).map getLineType = rendering.lines.map Prod.fst := by
  rw [List.map_map]
  apply List.map_congr_left
  intro line member
  exact renders_type (rendering.written line member)

theorem Rendering.linesOf_data :
    (linesOf rendering.content).filter isData = dataLines document.sections := by
  have oneLine : ∀ text ∈ rendering.lines.map Prod.snd, OneLine text := by
    intro text member
    obtain ⟨line,there,rfl⟩ := List.mem_map.mp member
    exact renders_text (rendering.written line there)
  have short : ∀ text ∈ rendering.lines.map Prod.snd, text.length < maxLineLen-1 := by
    intro text member
    obtain ⟨line,there,rfl⟩ := List.mem_map.mp member
    exact rendering.short line there
  rw [Rendering.content,linesOf_fileText oneLine short,rendering.lines_type,rendering.stored]

theorem Rendering.names_content : names (linesOf rendering.content) =
    document.sections.map MOUTILS_INI_SECTION_INFO.sectionName := by
  rw [← names_data,rendering.linesOf_data,names_dataLines]

theorem Rendering.entries_content : entries [] (linesOf rendering.content) = entriesOf document.sections := by
  rw [← entries_data,rendering.linesOf_data,entries_dataLines]

theorem Document.names_ok :
    SectionNamesOk (document.sections.map MOUTILS_INI_SECTION_INFO.sectionName) := by
  intro front name back split member
  have nodup := document.distinct
  rw [split,List.nodup_append] at nodup
  rcases List.mem_cons.mp ((List.dropLast_sublist _).mem member) with empty | before
  · have inside : name ∈ document.sections.map MOUTILS_INI_SECTION_INFO.sectionName := by
      rw [split]
      simp
    obtain ⟨node,there,same⟩ := List.mem_map.mp inside
    exact (document.named node there).more (same.trans empty)
  · exact nodup.2.2 name before name List.mem_cons_self rfl

theorem Document.keys_ok : ((entriesOf document.sections).map entryKey).Nodup := by
  have keys : (entriesOf document.sections).map entryKey = document.sections.flatMap fun node =>
      (node.attrs.map MOUTILS_INI_ATTR_INFO.key).map (Prod.mk node.sectionName) := by
    simp [entriesOf,List.map_flatMap,entryKey,Function.comp_def]
  rw [keys,List.nodup_flatMap]
  refine ⟨fun node there => ?_,?_⟩
  · exact (document.keysDistinct node there).map fun _ _ same => congrArg Prod.snd same
  · refine (List.pairwise_map.mp document.distinct).imp fun differ key first second => ?_
    obtain ⟨_,_,rfl⟩ := List.mem_map.mp first
    obtain ⟨_,_,same⟩ := List.mem_map.mp second
    exact differ (congrArg Prod.fst same).symm

theorem Rendering.acceptable : Acceptable (linesOf rendering.content) where
  noError := by
    rw [← error_data,rendering.linesOf_data]
    simp [dataLines,attrLines]
  inSection := by
    rw [rendering.entries_content]
    intro entry member
    obtain ⟨node,there,attr,_,rfl⟩ := by simpa [entriesOf] using member
    exact (document.named node there).more
  namesOk := by
    rw [List.nil_append,rendering.names_content]
    exact document.names_ok
  keysOk := by
    rw [List.nil_append,rendering.entries_content]
    exact document.keys_ok

theorem Rendering.init : moUtils_Ini_Init (some rendering.content) = some document.sections := by
  rw [(init_result rendering.content).1 rendering.acceptable,rendering.names_content,
    rendering.entries_content,sectionsOf_entriesOf document.distinct]

end Parsed

def plainLines (sections : Sections) : List (Line × Text) :=
  sections.flatMap fun node =>
    (.sectionLine node.sectionName,bracketLeftSymbol::node.sectionName ++ [bracketRightSymbol])::
      node.attrs.map fun attr => (.attrLine attr.key attr.value,attr.key ++ equalSymbol::attr.value)

theorem plainLines_cases {sections : Sections} {line : Line × Text} (member : line ∈ plainLines sections) :
    ∃ node ∈ sections,
      line = (.sectionLine node.sectionName,bracketLeftSymbol::node.sectionName ++ [bracketRightSymbol]) ∨
        ∃ attr ∈ node.attrs, line = (.attrLine attr.key attr.value,attr.key ++ equalSymbol::attr.value) := by
  obtain ⟨node,there,inside⟩ := List.mem_flatMap.mp member
  refine ⟨node,there,?_⟩
  rcases List.mem_cons.mp inside with first | later
  · exact .inl first
  · obtain ⟨attr,within,rfl⟩ := List.mem_map.mp later
    exact .inr ⟨attr,within,rfl⟩

theorem plainLines_renders (document : Document) :
    ∀ line ∈ plainLines document.sections, Renders line.1 line.2 := by
  intro line member
  have unpadded : Blanks [] := by simp [Blanks]
  obtain ⟨node,there,rfl | ⟨attr,within,rfl⟩⟩ := plainLines_cases member
  · have written : Renders (.sectionLine node.sectionName)
        ([] ++ (bracketLeftSymbol::node.sectionName ++ [bracketRightSymbol] ++ []) ++ []) :=
      .sectionLine unpadded (document.named node there) unpadded (.inl rfl)
    simpa using written
  · obtain ⟨keyed,valued⟩ := document.valued node there attr within
    have written : Renders (.attrLine attr.key attr.value)
        ([] ++ ((attr.key++[]) ++ equalSymbol::([]++attr.value++[])) ++ []) :=
      .attrLine unpadded keyed unpadded unpadded valued unpadded (.inl rfl)
    simpa using written

theorem plainLines_short (document : Document) :
    ∀ line ∈ plainLines document.sections, line.2.length < maxLineLen-1 := by
  intro line member
  obtain ⟨node,there,rfl | ⟨attr,within,rfl⟩⟩ := plainLines_cases member
  · have name := (document.named node there).short
    simp [maxLineLen]
    omega
  · obtain ⟨keyed,valued⟩ := document.valued node there attr within
    have key := keyed.short
    have value := valued.short
    simp [maxLineLen]
    omega

theorem plainLines_stored (document : Document) :
    ((plainLines document.sections).map Prod.fst).filter isData = dataLines document.sections := by
  have types : (plainLines document.sections).map Prod.fst = dataLines document.sections := by
    simp [plainLines,dataLines,attrLines,List.map_flatMap,Function.comp_def]
  rw [types,List.filter_eq_self]
  intro line member
  obtain ⟨node,_,inside⟩ := List.mem_flatMap.mp member
  rcases List.mem_cons.mp inside with rfl | later
  · rfl
  · obtain ⟨attr,_,rfl⟩ := List.mem_map.mp later
    rfl

/-- Every document can be written down, at least without any blank and comment. -/
def Document.plain (document : Document) : Rendering document where
  lines := plainLines document.sections
  written := plainLines_renders document
  short := plainLines_short document
  stored := plainLines_stored document

theorem find_key {α : Type} (key : α → Text) {list : List α} (distinct : (list.map key).Nodup) {item : α}
    (member : item ∈ list) : list.find? (fun other => key item == key other) = some item := by
  induction list with
  | nil => cases member
  | cons first list ih =>
    obtain ⟨fresh,later⟩ := List.nodup_cons.mp distinct
    rcases List.mem_cons.mp member with rfl | inside
    · simp
    · have differ : key item ≠ key first := fun same => fresh (same ▸ List.mem_map_of_mem inside)
      rw [List.find?_cons_of_neg (by simpa using differ)]
      exact ih later inside

def Document.Stores (document : Document) (secName key value : Text) : Prop :=
  ∃ node ∈ document.sections, node.sectionName = secName ∧ ⟨key,value⟩ ∈ node.attrs

theorem getAttrValue_stored {document : Document} {secName key value : Text}
    (stored : document.Stores secName key value) :
    moUtils_Ini_GetAttrValue (some secName) (some key) (some document.sections) = (0,some value) := by
  obtain ⟨node,there,rfl,inside⟩ := stored
  have sectionFound := find_key MOUTILS_INI_SECTION_INFO.sectionName document.distinct there
  have attrFound := find_key MOUTILS_INI_ATTR_INFO.key (document.keysDistinct node there) inside
  simp only at attrFound
  simp only [moUtils_Ini_GetAttrValue,sectionFound,attrFound]

theorem getAttrValue_absent {document : Document} {secName key : Text}
    (absent : ¬∃ value, document.Stores secName key value) :
    (moUtils_Ini_GetAttrValue (some secName) (some key) (some document.sections)).1 < 0 := by
  simp only [moUtils_Ini_GetAttrValue]
  cases sectionFound : document.sections.find? fun node => secName == node.sectionName with
  | none => simp
  | some node =>
    cases attrFound : node.attrs.find? fun attr => key == attr.key with
    | none => simp [attrFound]
    | some attr =>
      have sameName := List.find?_some sectionFound
      have sameKey := List.find?_some attrFound
      simp only [beq_iff_eq] at sameName sameKey
      refine absurd ⟨attr.value,node,List.mem_of_find?_eq_some sectionFound,sameName.symm,?_⟩ absent
      rw [sameKey]
      exact List.mem_of_find?_eq_some attrFound

/-- However the document is written down, it is parsed to just what it stores. -/
theorem ini_round_trip (document : Document) (rendering : Rendering document) :
    let sections := moUtils_Ini_Init (some rendering.content)
    sections = some document.sections ∧
      ∀ secName key : Text,
        (∀ value, document.Stores secName key value →
          moUtils_Ini_GetAttrValue (some secName) (some key) sections = (0,some value)) ∧
        ((¬∃ value, document.Stores secName key value) →
          (moUtils_Ini_GetAttrValue (some secName) (some key) sections).1 < 0) := by
  intro sections
  have parsed : sections = some document.sections := rendering.init
  refine ⟨parsed,fun secName key => ⟨fun value stored => ?_,fun absent => ?_⟩⟩
  · rw [parsed]
    exact getAttrValue_stored stored
  · rw [parsed]
    exact getAttrValue_absent absent

/-- `[ a ]` is not a section named `a`. -/
theorem ini_padded_name : moUtils_Ini_GetAttrValue (some [97]) (some [107])
    (moUtils_Ini_Init (some [91,32,97,32,93,10,107,61,118,10])) ≠ (0,some [118]) := by
  have first : fgets (maxLineLen-1) [91,32,97,32,93,10,107,61,118,10] =
      ([91,32,97,32,93,10],[107,61,118,10]) := by decide
  have second : fgets (maxLineLen-1) [107,61,118,10] = ([107,61,118,10],[]) := by decide
  have lines : linesOf [91,32,97,32,93,10,107,61,118,10] =
      [.sectionLine [32,97,32],.attrLine [107] [118]] := by
    rw [linesOf,reads,first,reads,second,reads]
    decide
  have built : moUtils_Ini_Init (some [91,32,97,32,93,10,107,61,118,10]) =
      some [⟨[32,97,32],[⟨[107],[118]⟩]⟩] := by
    rw [moUtils_Ini_Init,getSectionList,lines]
    decide
  rw [built]
  decide

end MoCodes.Utils.Ini
