import MoCodes.Utils.Ini
import Mathlib.Data.List.Chain
import Mathlib.Data.List.Nodup

/-! The two nested lists of iniParser.c, built from the lines of any file, against the
sections and attributes that the file names. -/
namespace MoCodes.Utils.Ini

abbrev Entry := Text × MOUTILS_INI_ATTR_INFO

/-- The names of the section lines. -/
def names : List Line → List Text
  | [] => []
  | .sectionLine sectionName::lines => sectionName::names lines
  | _::lines => names lines

/-- The attribute lines with the section they stand in. -/
def entries (cur : Text) : List Line → List Entry
  | [] => []
  | .sectionLine sectionName::lines => entries sectionName lines
  | .attrLine key value::lines => (cur,⟨key,value⟩)::entries cur lines
  | _::lines => entries cur lines

def entryKey (entry : Entry) : Text × Text := (entry.1,entry.2.key)

def attrsOf (found : List Entry) (sectionName : Text) : List MOUTILS_INI_ATTR_INFO :=
  (found.filter fun entry => entry.1 == sectionName).map Prod.snd

/-- Every attribute stands in the first section of its name. -/
def sectionsOf (found : List Entry) (seen : List Text) : List Text → Sections
  | [] => []
  | name::rest => ⟨name,if name ∈ seen then [] else attrsOf found name⟩::sectionsOf found (name::seen) rest

@[simp] theorem sectionsOf_names (found : List Entry) (seen sectionNames : List Text) :
    (sectionsOf found seen sectionNames).map MOUTILS_INI_SECTION_INFO.sectionName = sectionNames := by
  induction sectionNames generalizing seen with
  | nil => rfl
  | cons name rest ih => rw [sectionsOf,List.map_cons,ih]

theorem isNodeExist_iff (pSecName : Text) (name : Text) (rest : List Text) :
    isNodeExist pSecName (name::rest) = true ↔ pSecName ∈ (name::rest).dropLast := by
  induction rest generalizing name with
  | nil => simp [isNodeExist]
  | cons next rest ih =>
    rw [isNodeExist,List.dropLast_cons_cons,List.mem_cons,← ih]
    by_cases same : name = pSecName
    · simp [same]
    · simp [same,Ne.symm same]

/-- No section line has a name that the code compares it with: that of the head node or of a
section before the last one. -/
def SectionNamesOk (sectionNames : List Text) : Prop :=
  ∀ front name back, sectionNames = front ++ name::back → name ∉ ([]::front).dropLast

theorem sectionNamesOk_snoc (sectionNames : List Text) (name : Text) :
    SectionNamesOk (sectionNames++[name]) ↔
      SectionNamesOk sectionNames ∧ name ∉ ([]::sectionNames).dropLast := by
  constructor
  · intro ok
    refine ⟨?_,ok sectionNames name [] rfl⟩
    intro front other back same
    exact ok front other (back++[name]) (by rw [same,List.append_assoc,List.cons_append])
  · intro ⟨ok,fresh⟩ front other back same
    rcases List.eq_nil_or_concat back with rfl | ⟨others,last,rfl⟩
    · obtain ⟨rfl,one⟩ := List.append_inj' same rfl
      cases one
      exact fresh
    · rw [List.concat_eq_append,← List.cons_append,← List.append_assoc] at same
      obtain ⟨rfl,_⟩ := List.append_inj' same rfl
      exact ok front other others rfl

theorem sectionNamesOk_append {front back : List Text} (ok : SectionNamesOk (front++back)) :
    SectionNamesOk front := by
  intro before name after same
  exact ok before name (after++back) (by rw [same,List.append_assoc,List.cons_append])

theorem addSecInfoNode_result (pSecName : Text) (sections : Sections) :
    let sectionNames := sections.map MOUTILS_INI_SECTION_INFO.sectionName
    (pSecName ∉ ([]::sectionNames).dropLast →
        addSecInfoNode pSecName sections = (0,sections ++ [⟨pSecName,[]⟩])) ∧
      (pSecName ∈ ([]::sectionNames).dropLast → (addSecInfoNode pSecName sections).1 ≠ 0) := by
  intro sectionNames
  rw [← isNodeExist_iff,addSecInfoNode]
  constructor
  · intro fresh
    rw [if_neg fresh]
  · intro exist
    rw [if_pos exist]
    simp

theorem attrsOf_other {found : List Entry} {name : Text} (absent : ∀ entry ∈ found, entry.1 ≠ name) :
    attrsOf found name = [] := by
  rw [attrsOf,List.filter_eq_nil_iff.mpr,List.map_nil]
  intro entry member
  simpa using absent entry member

theorem attrsOf_snoc (found : List Entry) (name : Text) (entry : Entry) :
    attrsOf (found++[entry]) name =
      if entry.1 = name then attrsOf found name ++ [entry.2] else attrsOf found name := by
  rw [attrsOf,attrsOf,List.filter_append,List.map_append]
  by_cases same : entry.1 = name
  · simp [same]
  · simp [same]

/-- A new section has no attributes yet, also where one of its name is there already. -/
theorem sectionsOf_snoc {found : List Entry} {seen sectionNames : List Text} (name : Text)
    (known : ∀ entry ∈ found, entry.1 ∈ seen ∨ entry.1 ∈ sectionNames) :
    sectionsOf found seen (sectionNames++[name]) = sectionsOf found seen sectionNames ++ [⟨name,[]⟩] := by
  induction sectionNames generalizing seen with
  | nil =>
    rw [List.nil_append,sectionsOf,sectionsOf,sectionsOf,List.nil_append]
    by_cases there : name ∈ seen
    · rw [if_pos there]
    · rw [if_neg there,attrsOf_other]
      intro entry member same
      rcases known entry member with old | none
      · exact there (same ▸ old)
      · cases none
  | cons first rest ih =>
    rw [List.cons_append,sectionsOf,sectionsOf,ih,List.cons_append]
    intro entry member
    rcases known entry member with old | present
    · exact .inl (List.mem_cons_of_mem _ old)
    · rcases List.mem_cons.mp present with same | later
      · exact .inl (same ▸ List.mem_cons_self)
      · exact .inr later

/-- An attribute is added to the first section of its name unless its key is there. -/
theorem addAttrInfoNode_result (pAttrInfo : MOUTILS_INI_ATTR_INFO) (found : List Entry) {pSecName : Text}
    {seen sectionNames : List Text} (first : pSecName ∉ seen) (present : pSecName ∈ sectionNames) :
    let result := addAttrInfoNode pAttrInfo pSecName (sectionsOf found seen sectionNames)
    ((pSecName,pAttrInfo.key) ∉ found.map entryKey →
        result = (0,sectionsOf (found++[(pSecName,pAttrInfo)]) seen sectionNames)) ∧
      ((pSecName,pAttrInfo.key) ∈ found.map entryKey → result.1 ≠ 0) := by
  have others : ∀ (seen : List Text) (rest : List Text), pSecName ∈ seen →
      sectionsOf (found++[(pSecName,pAttrInfo)]) seen rest = sectionsOf found seen rest := by
    intro seen rest member
    induction rest generalizing seen with
    | nil => rfl
    | cons name rest ih =>
      rw [sectionsOf,sectionsOf,ih _ (List.mem_cons_of_mem _ member),attrsOf_snoc]
      by_cases same : pSecName = name
      · rw [if_pos (same ▸ member),if_pos (same ▸ member)]
      · rw [if_neg same]
  have taken : ((attrsOf found pSecName).any fun attr => attr.key == pAttrInfo.key) = true ↔
      (pSecName,pAttrInfo.key) ∈ found.map entryKey := by
    simp [attrsOf,entryKey,List.any_map,List.any_filter]
  induction sectionNames generalizing seen with
  | nil => cases present
  | cons name rest ih =>
    intro result
    simp only [result,sectionsOf,addAttrInfoNode]
    by_cases same : pSecName = name
    · subst same
      simp only [if_true,if_neg first,others _ rest List.mem_cons_self,attrsOf_snoc]
      constructor
      · intro fresh
        rw [if_neg (fun hit => fresh (taken.mp hit))]
      · intro old
        rw [if_pos (taken.mpr old)]
        simp
    · have later : pSecName ∈ rest := by simpa [same] using present
      have firstLater : pSecName ∉ name::seen := by simp [same,first]
      obtain ⟨ok,failed⟩ := ih firstLater later
      simp only [if_neg same,attrsOf_snoc]
      constructor
      · intro fresh
        rw [ok fresh]
      · exact failed

/-- What makes the lines a file the parser takes, after sections `before` and attributes `found`. -/
structure AcceptableFrom (before : List Text) (found : List Entry) (cur : Text) (lines : List Line) :
    Prop where
  noError : Line.errorLine ∉ lines
  inSection : ∀ entry ∈ entries cur lines, entry.1 ≠ []
  namesOk : SectionNamesOk (before ++ names lines)
  keysOk : ((found ++ entries cur lines).map entryKey).Nodup

abbrev Acceptable (lines : List Line) : Prop := AcceptableFrom [] [] [] lines

section Acceptance

variable {before : List Text} {found : List Entry} {cur : Text} {lines : List Line}

theorem acceptable_section (name : Text) :
    AcceptableFrom before found cur (.sectionLine name::lines) ↔
      AcceptableFrom (before++[name]) found name lines := by
  have shifted : before ++ name::names lines = before++[name] ++ names lines := by
    rw [List.append_assoc,List.singleton_append]
  constructor
  · intro ⟨noError,inSection,namesOk,keysOk⟩
    exact ⟨fun member => noError (List.mem_cons_of_mem _ member),inSection,shifted ▸ namesOk,keysOk⟩
  · intro ⟨noError,inSection,namesOk,keysOk⟩
    refine ⟨?_,inSection,?_,keysOk⟩
    · simpa using noError
    · rw [names,shifted]
      exact namesOk

theorem acceptable_attr (key value : Text) :
    AcceptableFrom before found cur (.attrLine key value::lines) ↔
      cur ≠ [] ∧ AcceptableFrom before (found++[(cur,⟨key,value⟩)]) cur lines := by
  have shifted : found ++ (cur,⟨key,value⟩)::entries cur lines =
      found++[(cur,⟨key,value⟩)] ++ entries cur lines := by
    rw [List.append_assoc,List.singleton_append]
  constructor
  · intro ⟨noError,inSection,namesOk,keysOk⟩
    obtain ⟨here,later⟩ := List.forall_mem_cons.mp inSection
    refine ⟨here,fun member => noError (List.mem_cons_of_mem _ member),later,namesOk,?_⟩
    rw [← shifted]
    exact keysOk
  · intro ⟨here,noError,inSection,namesOk,keysOk⟩
    refine ⟨by simpa using noError,List.forall_mem_cons.mpr ⟨here,inSection⟩,namesOk,?_⟩
    rw [entries,shifted]
    exact keysOk

theorem acceptable_comment :
    AcceptableFrom before found cur (.commentLine::lines) ↔ AcceptableFrom before found cur lines := by
  constructor
  · intro ⟨noError,inSection,namesOk,keysOk⟩
    exact ⟨fun member => noError (List.mem_cons_of_mem _ member),inSection,namesOk,keysOk⟩
  · intro ⟨noError,inSection,namesOk,keysOk⟩
    exact ⟨by simpa using noError,inSection,namesOk,keysOk⟩

theorem acceptable_space :
    AcceptableFrom before found cur (.spaceLine::lines) ↔ AcceptableFrom before found cur lines := by
  constructor
  · intro ⟨noError,inSection,namesOk,keysOk⟩
    exact ⟨fun member => noError (List.mem_cons_of_mem _ member),inSection,namesOk,keysOk⟩
  · intro ⟨noError,inSection,namesOk,keysOk⟩
    exact ⟨by simpa using noError,inSection,namesOk,keysOk⟩

/-- The lists as they are after the lines so far, and the section that attributes go to. -/
structure Built (before : List Text) (found : List Entry) (cur : Text) : Prop where
  known : ∀ entry ∈ found, entry.1 ∈ before
  current : cur ≠ [] → cur ∈ before
  namesOk : SectionNamesOk before
  keysOk : (found.map entryKey).Nodup

theorem Built.addSection (built : Built before found cur) {name : Text}
    (fresh : name ∉ ([]::before).dropLast) : Built (before++[name]) found name where
  known := fun entry member => List.mem_append_left _ (built.known entry member)
  current := fun _ => by simp
  namesOk := (sectionNamesOk_snoc before name).mpr ⟨built.namesOk,fresh⟩
  keysOk := built.keysOk

theorem Built.addAttr (built : Built before found cur) (more : cur ≠ []) (attr : MOUTILS_INI_ATTR_INFO)
    (fresh : (cur,attr.key) ∉ found.map entryKey) : Built before (found++[(cur,attr)]) cur where
  known := by
    intro entry member
    rcases List.mem_append.mp member with old | new
    · exact built.known entry old
    · rw [List.mem_singleton.mp new]
      exact built.current more
  current := built.current
  namesOk := built.namesOk
  keysOk := by
    rw [List.map_append,List.nodup_append]
    refine ⟨built.keysOk,by simp,?_⟩
    intro key old other new same
    rw [List.map_singleton,List.mem_singleton] at new
    rw [same,new] at old
    exact fresh old

/-- The parser takes exactly the acceptable lines, and builds what they say. -/
theorem addLines_result (built : Built before found cur) (lines : List Line) :
    let result := addLines lines ⟨sectionsOf found [] before,cur⟩
    (AcceptableFrom before found cur lines → result.1 = 0 ∧
      result.2.sections = sectionsOf (found ++ entries cur lines) [] (before ++ names lines)) ∧
    (¬AcceptableFrom before found cur lines → result.1 ≠ 0) := by
  induction lines generalizing before found cur with
  | nil =>
    refine ⟨fun _ => ⟨rfl,by simp [addLines,entries,names]⟩,fun unacceptable => absurd ?_ unacceptable⟩
    exact ⟨by simp,by simp [entries],by simpa [names] using built.namesOk,
      by simpa [entries] using built.keysOk⟩
  | cons line lines ih =>
    cases line with
    | errorLine =>
      refine ⟨fun acceptable => absurd List.mem_cons_self acceptable.noError,fun _ => ?_⟩
      simp [addLines,addLine]
    | commentLine =>
      rw [acceptable_comment]
      exact ih built
    | spaceLine =>
      rw [acceptable_space]
      exact ih built
    | sectionLine name =>
      obtain ⟨ok,failed⟩ := addSecInfoNode_result name (sectionsOf found [] before)
      rw [sectionsOf_names] at ok failed
      rw [acceptable_section]
      by_cases exist : name ∈ ([]::before).dropLast
      · have error := failed exist
        refine ⟨fun acceptable => absurd exist ?_,fun _ => by simp [addLines,addLine,error]⟩
        exact ((sectionNamesOk_snoc before name).mp (sectionNamesOk_append acceptable.namesOk)).2
      · have next := ih (built.addSection exist)
        rw [sectionsOf_snoc name (fun entry member => .inr (built.known entry member))] at next
        simpa [addLines,addLine,ok exist,entries,names] using next
    | attrLine key value =>
      rw [acceptable_attr]
      by_cases outside : cur = []
      · simp [outside,addLines,addLine]
      · obtain ⟨ok,failed⟩ := addAttrInfoNode_result ⟨key,value⟩ found
          (List.not_mem_nil : cur ∉ ([] : List Text)) (built.current outside)
        by_cases exist : (cur,key) ∈ found.map entryKey
        · have error := failed exist
          refine ⟨fun acceptable => ?_,fun _ => by simp [addLines,addLine,error,outside]⟩
          have keysOk := acceptable.2.keysOk
          rw [List.map_append,List.map_append,List.nodup_append,List.nodup_append] at keysOk
          exact absurd rfl (keysOk.1.2.2 _ exist _ (by simp [entryKey]))
        · have next := ih (built.addAttr outside ⟨key,value⟩ exist)
          simpa [addLines,addLine,ok exist,entries,names,outside] using next

end Acceptance

theorem init_result (content : List UInt8) :
    let lines := linesOf content
    (Acceptable lines →
      moUtils_Ini_Init (some content) = some (sectionsOf (entries [] lines) [] (names lines))) ∧
    (¬Acceptable lines → moUtils_Ini_Init (some content) = none) := by
  have built : Built [] [] [] := ⟨by simp,by simp,fun front name back same => by simp at same,by simp⟩
  obtain ⟨ok,failed⟩ := addLines_result built (linesOf content)
  simp only [sectionsOf,List.nil_append] at ok failed
  constructor
  · intro acceptable
    obtain ⟨accepted,sections⟩ := ok acceptable
    simp [moUtils_Ini_Init,getSectionList,accepted,sections]
  · intro unacceptable
    simp [moUtils_Ini_Init,getSectionList,failed unacceptable]

def Unique (sections : Sections) : Prop :=
  (sections.map MOUTILS_INI_SECTION_INFO.sectionName).Nodup ∧
    ∀ node ∈ sections, (node.attrs.map MOUTILS_INI_ATTR_INFO.key).Nodup

/-- Two section lines of one name, or two attribute lines of one key in one section. -/
def Repeats (lines : List Line) : Prop :=
  ¬(names lines).Nodup ∨ ¬((entries [] lines).map entryKey).Nodup

def KeepsUnique (content : List UInt8) : Prop :=
  (∀ sections, moUtils_Ini_Init (some content) = some sections → Unique sections) ∧
    (Repeats (linesOf content) → moUtils_Ini_Init (some content) = none)

/-- No section line has the name of the section line before it. -/
def NoImmediateRepeat (lines : List Line) : Prop := (names lines).IsChain (· ≠ ·)

/-- The comparisons leave out the last section only. -/
theorem sectionNames_nodup {sectionNames : List Text} (namesOk : SectionNamesOk sectionNames)
    (chain : sectionNames.IsChain (· ≠ ·)) : sectionNames.Nodup := by
  induction sectionNames using List.reverseRecOn with
  | nil => exact List.nodup_nil
  | append_singleton front name ih =>
    obtain ⟨before,fresh⟩ := (sectionNamesOk_snoc front name).mp namesOk
    obtain ⟨frontChain,_,apart⟩ := List.isChain_append.mp chain
    rw [List.nodup_append]
    refine ⟨ih before frontChain,by simp,?_⟩
    intro other member last new same
    rw [List.mem_singleton.mp new] at same
    subst same
    rcases List.eq_nil_or_concat front with rfl | ⟨others,last,rfl⟩
    · cases member
    · rw [List.concat_eq_append] at member fresh apart
      rcases List.mem_append.mp member with early | late
      · apply fresh
        rw [← List.cons_append,List.dropLast_concat]
        exact List.mem_cons_of_mem _ early
      · exact apart last (by simp) other (by simp) (List.mem_singleton.mp late).symm

theorem attrsOf_keys_nodup {found : List Entry} (keysOk : (found.map entryKey).Nodup) (name : Text) :
    ((attrsOf found name).map MOUTILS_INI_ATTR_INFO.key).Nodup := by
  have keys : ((found.filter fun entry => entry.1 == name).map entryKey) =
      ((attrsOf found name).map MOUTILS_INI_ATTR_INFO.key).map (Prod.mk name) := by
    rw [attrsOf,List.map_map,List.map_map]
    apply List.map_congr_left
    intro entry member
    have section_name := (List.mem_filter.mp member).2
    simp only [beq_iff_eq] at section_name
    rw [entryKey,section_name]
    rfl
  have filtered := keysOk.sublist ((List.filter_sublist (p := fun entry => entry.1 == name)).map entryKey)
  rw [keys] at filtered
  exact List.Nodup.of_map _ filtered

theorem sectionsOf_keys_nodup {found : List Entry} (keysOk : (found.map entryKey).Nodup)
    (seen sectionNames : List Text) :
    ∀ node ∈ sectionsOf found seen sectionNames, (node.attrs.map MOUTILS_INI_ATTR_INFO.key).Nodup := by
  induction sectionNames generalizing seen with
  | nil => simp [sectionsOf]
  | cons name rest ih =>
    intro node member
    rcases List.mem_cons.mp member with rfl | later
    · by_cases there : name ∈ seen
      · simp [there]
      · simpa [there] using attrsOf_keys_nodup keysOk name
    · exact ih (name::seen) node later

/-- Names and keys are unique, and what repeats one is rejected, exactly in the files that are
rejected anyway or never repeat the name of the section before. -/
theorem ini_unique_iff (content : List UInt8) :
    KeepsUnique content ↔ (Acceptable (linesOf content) → NoImmediateRepeat (linesOf content)) := by
  obtain ⟨accepted,rejected⟩ := init_result content
  constructor
  · intro ⟨unique,_⟩ acceptable
    have nodup := (unique _ (accepted acceptable)).1
    rw [sectionsOf_names] at nodup
    exact List.Pairwise.isChain nodup
  · intro apart
    by_cases acceptable : Acceptable (linesOf content)
    · have nodup := sectionNames_nodup acceptable.namesOk (apart acceptable)
      refine ⟨?_,?_⟩
      · intro sections built
        rw [accepted acceptable] at built
        cases built
        exact ⟨by rwa [sectionsOf_names],sectionsOf_keys_nodup acceptable.keysOk [] _⟩
      · intro repeated
        rcases repeated with sectionRepeated | keyRepeated
        · exact absurd nodup sectionRepeated
        · exact absurd acceptable.keysOk keyRepeated
    · have none := rejected acceptable
      exact ⟨fun sections built => (by rw [none] at built; cases built),fun _ => none⟩

/-- The file `[a]`, `[a]`. -/
theorem ini_section_twice : ¬KeepsUnique [91,97,93,10,91,97,93,10] := by
  intro ⟨unique,_⟩
  have first : fgets (maxLineLen-1) [91,97,93,10,91,97,93,10] = ([91,97,93,10],[91,97,93,10]) := by decide
  have second : fgets (maxLineLen-1) [91,97,93,10] = ([91,97,93,10],[]) := by decide
  have lines : linesOf [91,97,93,10,91,97,93,10] = [.sectionLine [97],.sectionLine [97]] := by
    rw [linesOf,reads,first,reads,second,reads]
    decide
  have built : moUtils_Ini_Init (some [91,97,93,10,91,97,93,10]) = some [⟨[97],[]⟩,⟨[97],[]⟩] := by
    rw [moUtils_Ini_Init,getSectionList,lines]
    decide
  exact absurd (unique _ built).1 (by decide)

end MoCodes.Utils.Ini
