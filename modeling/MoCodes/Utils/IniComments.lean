import MoCodes.Utils.IniRoundTrip

/-! A comment line in an ini file. fgets cuts a line into pieces of at most 511 bytes, and
each piece is classified by itself, so a long comment is a comment only up to its first
piece. -/
namespace MoCodes.Utils.Ini
open MoCodes.Lib.Spans

/-- A piece of a line that is a comment or nothing. -/
def Harmless (piece : Text) : Prop :=
  ∀ char, (piece.dropWhile isBlank).head? = some char →
    char = 0 ∨ char = semicolonSymbol ∨ char = newlineSymbol

/-- What ends where a line ends. -/
def EndsLine (text : Text) : Prop := text = [] ∨ text.getLast? = some newlineSymbol

def CommentLine (text : Text) : Prop :=
  newlineSymbol ∉ text ∧ ∃ lead body, Blanks lead ∧ text = lead ++ semicolonSymbol::body

section Reads

theorem fgets_append {room : Nat} {fp : List UInt8} (more : fp ≠ []) (ends : EndsLine fp) (rest : List UInt8) :
    fgets room (fp ++ rest) = ((fgets room fp).1,(fgets room fp).2 ++ rest) ∧ EndsLine (fgets room fp).2 := by
  induction room generalizing fp with
  | zero => exact ⟨rfl,ends⟩
  | succ room ih =>
    have last := ends.resolve_left more
    cases fp with
    | nil => exact absurd rfl more
    | cons char fp =>
      rw [List.cons_append,fgets,fgets]
      by_cases newline : char = newlineSymbol
      · rw [if_pos newline,if_pos newline]
        refine ⟨rfl,?_⟩
        cases fp with
        | nil => exact .inl rfl
        | cons next fp => exact .inr (by rwa [List.getLast?_cons_cons] at last)
      · rw [if_neg newline,if_neg newline]
        cases fp with
        | nil => exact absurd (Option.some.inj last) newline
        | cons next fp =>
          rw [List.getLast?_cons_cons] at last
          obtain ⟨read,left⟩ := ih (by simp) (.inr last)
          rw [read]
          exact ⟨rfl,left⟩

theorem reads_append {fp : List UInt8} (ends : EndsLine fp) (rest : List UInt8) :
    reads (fp ++ rest) = reads fp ++ reads rest := by
  induction fp using reads.induct with
  | case1 => rw [List.nil_append,reads,List.nil_append]
  | case2 char fp ih =>
    obtain ⟨read,left⟩ := fgets_append (List.cons_ne_nil char fp) ends rest
    rw [List.cons_append] at read ⊢
    rw [reads,reads,read,ih left,List.cons_append]

theorem fgets_newline (room : Nat) (fp : List UInt8) {front back : List UInt8}
    (read : (fgets room fp).1 = front ++ newlineSymbol::back) : back = [] := by
  induction room generalizing fp front with
  | zero => simp [fgets] at read
  | succ room ih =>
    cases fp with
    | nil => simp [fgets] at read
    | cons char fp =>
      rw [fgets] at read
      split at read
      · cases front with
        | nil => exact (List.cons.inj read).2.symm
        | cons first front => simp at read
      · next other =>
        cases front with
        | nil => exact absurd (List.cons.inj read).1 other
        | cons first front => exact ih fp (List.cons.inj read).2

theorem reads_newline (fp : List UInt8) {piece front back : Text} (member : piece ∈ reads fp)
    (newline : piece = front ++ newlineSymbol::back) : back = [] := by
  induction fp using reads.induct with
  | case1 =>
    rw [reads] at member
    cases member
  | case2 char fp ih =>
    rw [reads,List.mem_cons] at member
    rcases member with rfl | later
    · exact fgets_newline _ _ newline
    · exact ih later

end Reads

section Pieces

theorem lineOf_blanks {lead : Text} (leading : Blanks lead) (rest : Text) : lineOf (lead ++ rest) = lead ++ lineOf rest := by
  have noNul : ∀ char ∈ lead, (char != 0) = true := fun char member => by
    have blank := leading char member
    rw [bne_iff_ne]
    rintro rfl
    cases blank
  simp only [lineOf]
  rw [List.takeWhile_append_of_pos noNul]
  cases line : rest.takeWhile (· != 0) with
  | nil =>
    have newline : lead.getLast? ≠ some newlineSymbol := fun last => by
      have blank := leading _ (List.mem_of_getLast? last)
      cases blank
    simp [newline]
  | cons char rest =>
    rw [List.getLast?_append_of_ne_nil _ (by simp)]
    split
    · rw [List.dropLast_append_of_ne_nil (by simp)]
    · rfl

theorem lineOf_cons {char : UInt8} (text : char ≠ 0) (inside : char ≠ newlineSymbol) (rest : Text) :
    ∃ more, lineOf (char::rest) = char::more := by
  simp only [lineOf]
  rw [List.takeWhile_cons_of_pos (by simpa using text)]
  cases line : rest.takeWhile (· != 0) with
  | nil => exact ⟨[],by simp [inside]⟩
  | cons next more =>
    split
    · exact ⟨(next::more).dropLast,rfl⟩
    · exact ⟨next::more,rfl⟩

theorem lineType_blanks {lead : Text} (leading : Blanks lead) : getLineType lead = .spaceLine := by
  rw [getLineType,firstValidChar_none leading]

theorem lineType_data {lead : Text} (leading : Blanks lead) {char : UInt8} (valid : isBlank char = false)
    (more : Text) : isData (getLineType (lead ++ char::more)) = false ↔ char = semicolonSymbol := by
  rw [getLineType,firstValidChar_result leading valid]
  by_cases comment : char = semicolonSymbol
  · rw [if_pos comment]
    exact iff_of_true rfl comment
  · rw [if_neg comment]
    refine iff_of_false ?_ comment
    by_cases bracket : char = bracketLeftSymbol
    · rw [if_pos bracket]
      simp only
      split <;> simp [isData]
    · rw [if_neg bracket]
      simp only
      split <;> simp [isData]

/-- Only the comment lines and the empty ones begin with no other character. -/
theorem harmless_iff {fp : List UInt8} {piece : Text} (member : piece ∈ reads fp) :
    Harmless piece ↔ isData (getLineType (lineOf piece)) = false := by
  have leading : Blanks (piece.takeWhile isBlank) := fun _ => List.mem_takeWhile_imp
  have whole : piece = piece.takeWhile isBlank ++ piece.dropWhile isBlank := List.takeWhile_append_dropWhile.symm
  have nothing : lineOf (piece.dropWhile isBlank) = [] → isData (getLineType (lineOf piece)) = false := by
    intro empty
    rw [whole,lineOf_blanks leading,empty,List.append_nil,lineType_blanks leading]
    rfl
  unfold Harmless
  cases rest : piece.dropWhile isBlank with
  | nil =>
    rw [rest] at nothing
    exact iff_of_true (fun char first => by cases first) (nothing rfl)
  | cons char more =>
    rw [rest] at whole nothing
    simp only [List.head?_cons,Option.some.injEq,forall_eq']
    by_cases nul : char = 0
    · exact iff_of_true (.inl nul) (nothing (by simp [lineOf,nul]))
    by_cases newline : char = newlineSymbol
    · have last : more = [] := reads_newline fp member (newline ▸ whole)
      exact iff_of_true (.inr (.inr newline)) (nothing (by rw [newline,last]; rfl))
    · have valid : isBlank char = false := by
        have first := List.head?_dropWhile_not isBlank piece
        rw [rest] at first
        simpa using first
      obtain ⟨text,line⟩ := lineOf_cons nul newline more
      rw [whole,lineOf_blanks leading,line,lineType_data leading valid]
      simp [nul,newline]

end Pieces

section Counting

def count : Sections → Nat
  | [] => 0
  | node::sections => 1+node.attrs.length+count sections

theorem count_append (sections more : Sections) : count (sections ++ more) = count sections+count more := by
  induction sections with
  | nil => exact (Nat.zero_add _).symm
  | cons node sections ih =>
    rw [List.cons_append,count,count,ih]
    omega

theorem addSecInfoNode_count {pSecName : Text} {sections : Sections}
    (added : (addSecInfoNode pSecName sections).1 = 0) :
    count (addSecInfoNode pSecName sections).2 = count sections+1 := by
  unfold addSecInfoNode at added ⊢
  split at added
  · cases added
  · next new =>
    rw [if_neg new]
    exact count_append sections _

theorem addAttrInfoNode_count {pAttrInfo : MOUTILS_INI_ATTR_INFO} {pSecName : Text} {sections : Sections}
    (added : (addAttrInfoNode pAttrInfo pSecName sections).1 = 0) :
    count (addAttrInfoNode pAttrInfo pSecName sections).2 = count sections+1 := by
  induction sections with
  | nil => cases added
  | cons node rest ih =>
    rw [addAttrInfoNode] at added ⊢
    split at added
    · next same =>
      rw [if_pos same]
      split at added
      · cases added
      · next new =>
        rw [if_neg new]
        simp only [count,List.length_append,List.length_singleton]
        omega
    · next other =>
      rw [if_neg other]
      have later := ih added
      simp only [count] at later ⊢
      omega

theorem addLine_count {line : Line} {parsed : Parsed} (accepted : (addLine line parsed).1 = 0) :
    count (addLine line parsed).2.sections = count parsed.sections+if isData line then 1 else 0 := by
  cases line with
  | sectionLine sectionName =>
    simp only [addLine] at accepted ⊢
    split at accepted
    · cases accepted
    · next added =>
      rw [if_neg added]
      exact addSecInfoNode_count (not_ne_iff.mp added)
  | attrLine key value =>
    simp only [addLine] at accepted ⊢
    split at accepted
    · cases accepted
    next inside =>
    rw [if_neg inside]
    split at accepted
    · cases accepted
    · next added =>
      rw [if_neg added]
      exact addAttrInfoNode_count (not_ne_iff.mp added)
  | errorLine => cases accepted
  | commentLine => rfl
  | spaceLine => rfl

theorem addLines_cons {line : Line} {lines : List Line} {parsed : Parsed}
    (accepted : (addLines (line::lines) parsed).1 = 0) :
    (addLine line parsed).1 = 0 ∧ addLines (line::lines) parsed = addLines lines (addLine line parsed).2 := by
  rw [addLines] at accepted ⊢
  split at accepted
  · next refused => exact absurd accepted refused
  · next passed => exact ⟨not_ne_iff.mp passed,if_neg passed⟩

theorem addLines_count {lines : List Line} {parsed : Parsed} (accepted : (addLines lines parsed).1 = 0) :
    count (addLines lines parsed).2.sections = count parsed.sections+lines.countP isData := by
  induction lines generalizing parsed with
  | nil => rfl
  | cons line lines ih =>
    obtain ⟨passed,rest⟩ := addLines_cons accepted
    rw [rest] at accepted ⊢
    rw [ih accepted,addLine_count passed,List.countP_cons]
    omega

end Counting

section Inserted

theorem addLine_skipped {line : Line} (skipped : isData line = false) (parsed : Parsed) :
    addLine line parsed = (0,parsed) := by
  cases line <;> first | rfl | cases skipped

theorem addLines_filter (lines : List Line) (parsed : Parsed) :
    addLines (lines.filter isData) parsed = addLines lines parsed := by
  induction lines generalizing parsed with
  | nil => rfl
  | cons line lines ih =>
    cases data : isData line with
    | false =>
      rw [List.filter_cons_of_neg (by simp [data]),addLines,addLine_skipped data,if_neg (fun no => no rfl),ih]
    | true =>
      rw [List.filter_cons_of_pos data,addLines,addLines]
      simp only [ih]

theorem linesOf_inserted {front line : Text} (ends : EndsLine front) (back : Text) :
    linesOf (front ++ (line ++ [newlineSymbol]) ++ back) =
      linesOf front ++ linesOf (line ++ [newlineSymbol]) ++ linesOf back := by
  have closed : EndsLine (line ++ [newlineSymbol]) := .inr (by simp)
  rw [linesOf,List.append_assoc,reads_append ends,reads_append closed,List.map_append,List.map_append,
    ← List.append_assoc]
  rfl

/-- In a file that parses, a line more leaves the result as it is exactly when none of
the pieces that fgets cuts it into begins with another character. -/
theorem comment_inserted_iff {front comment back : Text} (ends : EndsLine front)
    (parses : (getSectionList (front ++ back)).1 = 0) :
    getSectionList (front ++ (comment ++ [newlineSymbol]) ++ back) = getSectionList (front ++ back) ↔
      ∀ piece ∈ reads (comment ++ [newlineSymbol]), Harmless piece := by
  have base : linesOf (front ++ back) = linesOf front ++ linesOf back := by
    simp only [linesOf,reads_append ends,List.map_append]
  constructor
  · intro same piece member
    have inserted : (addLines (linesOf (front ++ (comment ++ [newlineSymbol]) ++ back)) ⟨[],[]⟩).1 = 0 :=
      (congrArg Prod.fst same).trans parses
    have sections := congrArg (fun result => count result.2) same
    simp only [getSectionList] at sections parses
    rw [addLines_count inserted,addLines_count parses,linesOf_inserted ends,base] at sections
    simp only [List.countP_append] at sections
    have none : (linesOf (comment ++ [newlineSymbol])).countP isData = 0 := by omega
    rw [harmless_iff member]
    have data := List.countP_eq_zero.mp none _ (List.mem_map_of_mem member)
    simpa using data
  · intro harmless
    have none : (linesOf (comment ++ [newlineSymbol])).filter isData = [] := by
      rw [List.filter_eq_nil_iff]
      intro line member
      obtain ⟨piece,inside,rfl⟩ := List.mem_map.mp member
      rw [(harmless_iff inside).mp (harmless piece inside)]
      exact Bool.false_ne_true
    simp only [getSectionList]
    rw [← addLines_filter (linesOf (front ++ (comment ++ [newlineSymbol]) ++ back)),linesOf_inserted ends,
      List.filter_append,List.filter_append,none,List.append_nil,← List.filter_append,← base,addLines_filter]

theorem fgets_full {text : Text} (oneLine : newlineSymbol ∉ text) (rest : List UInt8) :
    fgets text.length (text ++ rest) = (text,rest) := by
  induction text with
  | nil => rfl
  | cons char text ih =>
    have other : char ≠ newlineSymbol := fun same => oneLine (same ▸ List.mem_cons_self)
    rw [List.length_cons,List.cons_append,fgets,if_neg other,ih fun member => oneLine (List.mem_cons_of_mem _ member)]

/-- 511 times ';' and an 'x'. -/
def longComment : Text := List.replicate 511 semicolonSymbol ++ [120]

theorem longComment_comment : CommentLine longComment := by
  refine ⟨by decide +kernel,[],List.replicate 510 semicolonSymbol ++ [120],?_,rfl⟩
  exact fun char member => by cases member

theorem linesOf_longComment : linesOf (longComment ++ [newlineSymbol]) = [.commentLine,.errorLine] := by
  have size : maxLineLen-1 = (List.replicate 511 semicolonSymbol).length := List.length_replicate.symm
  have oneLine : newlineSymbol ∉ List.replicate 511 semicolonSymbol := fun member =>
    absurd (List.eq_of_mem_replicate member) (by decide)
  have first : fgets (maxLineLen-1) (longComment ++ [newlineSymbol]) =
      (List.replicate 511 semicolonSymbol,[120,newlineSymbol]) := by
    rw [longComment,List.append_assoc,size]
    exact fgets_full oneLine _
  have second : fgets (maxLineLen-1) [120,newlineSymbol] = ([120,newlineSymbol],[]) := by decide
  rw [linesOf,reads_cons (by simp) first,reads_cons (by simp) second,reads]
  decide +kernel

theorem linesOf_section : linesOf [91,97,93,10] = [.sectionLine [97]] := by
  rw [linesOf,reads_cons (by simp) (show fgets (maxLineLen-1) [91,97,93,10] = ([91,97,93,10],[]) from rfl),reads]
  decide +kernel

/-- The 'x' behind the first 511 characters is a line of its own. -/
theorem comment_too_long :
    CommentLine longComment ∧ getSectionList ([] ++ [91,97,93,10]) = (0,[⟨[97],[]⟩]) ∧
      getSectionList ([] ++ (longComment ++ [newlineSymbol]) ++ [91,97,93,10]) = (0 - 4,[]) := by
  refine ⟨longComment_comment,?_,?_⟩
  · rw [List.nil_append,getSectionList,linesOf_section]
    decide +kernel
  · rw [getSectionList,linesOf_inserted (.inl rfl),linesOf_longComment,linesOf_section,linesOf,reads]
    decide +kernel

theorem reads_shortComment : reads ([59,120] ++ [newlineSymbol]) = [[59,120,10]] := by
  rw [reads_cons (by simp) (show fgets (maxLineLen-1) ([59,120] ++ [newlineSymbol]) = ([59,120,10],[]) from rfl),reads]

theorem comment_short :
    getSectionList ([] ++ ([59,120] ++ [newlineSymbol]) ++ [91,97,93,10]) = getSectionList ([] ++ [91,97,93,10]) := by
  refine (comment_inserted_iff (.inl rfl) ?_).mpr ?_
  · rw [List.nil_append,getSectionList,linesOf_section]
    decide +kernel
  · rw [reads_shortComment]
    simp [Harmless,isBlank,tableSymbol,spaceSymbol,semicolonSymbol]

end Inserted

end MoCodes.Utils.Ini
