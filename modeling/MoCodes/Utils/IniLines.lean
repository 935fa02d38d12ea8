import MoCodes.Utils.Ini
import MoCodes.Lib.Spans
import Mathlib.Data.List.GetD

/-! The ways a line of an ini file can be written, and that the parser takes each of them
for what it is. -/
namespace MoCodes.Utils.Ini
open MoCodes.Lib.Spans

def Blanks (pad : Text) : Prop := ∀ char ∈ pad, isBlank char = true

/-- Not a character of the syntax. -/
def Plain (text : Text) : Prop :=
  0 ∉ text ∧ newlineSymbol ∉ text ∧ semicolonSymbol ∉ text ∧ equalSymbol ∉ text ∧
    bracketLeftSymbol ∉ text ∧ bracketRightSymbol ∉ text

structure Name (text : Text) : Prop where
  more : text ≠ []
  short : text.length < 128
  plain : Plain text

/-- No blank at either end. -/
structure Trimmed (text : Text) : Prop extends Name text where
  front : ∀ char ∈ text.head?, isBlank char = false
  back : ∀ char ∈ text.getLast?, isBlank char = false

/-- Nothing, or anything after a ';'. -/
def Comment (text : Text) : Prop :=
  text = [] ∨ ∃ body, text = semicolonSymbol::body ∧ 0 ∉ body ∧ newlineSymbol ∉ body

inductive Renders : Line → Text → Prop
  | sectionLine {lead name trail comment : Text} (leading : Blanks lead) (named : Name name)
      (trailing : Blanks trail) (commented : Comment comment) :
      Renders (.sectionLine name) (lead ++ (bracketLeftSymbol::name ++ [bracketRightSymbol] ++ trail) ++ comment)
  | attrLine {lead key left right value trail comment : Text} (leading : Blanks lead) (keyed : Trimmed key)
      (afterKey : Blanks left) (beforeValue : Blanks right) (valued : Trimmed value)
      (trailing : Blanks trail) (commented : Comment comment) :
      Renders (.attrLine key value)
        (lead ++ ((key++left) ++ equalSymbol::(right++value++trail)) ++ comment)
  | commentLine {lead body : Text} (leading : Blanks lead) (text : 0 ∉ body) (oneLine : newlineSymbol ∉ body) :
      Renders .commentLine (lead ++ semicolonSymbol::body)
  | spaceLine {lead : Text} (leading : Blanks lead) : Renders .spaceLine lead

theorem blanks_absent {pad : Text} (blanks : Blanks pad) {char : UInt8} (other : isBlank char = false) :
    char ∉ pad := by
  intro member
  rw [blanks char member] at other
  cases other

theorem firstValidChar_result {lead : Text} (leading : Blanks lead) {char : UInt8}
    (valid : isBlank char = false) (rest : Text) :
    getFirstValidCharType (lead ++ char::rest) =
      (if char = semicolonSymbol then .semicolon else if char = bracketLeftSymbol then .leftBracket
        else .otherValidChar,lead.length) := by
  have blanks : (lead ++ char::rest).takeWhile isBlank = lead :=
    takeWhile_span leading (by simp [valid])
  simp only [getFirstValidCharType,blanks,List.drop_left]
  split
  · rfl
  · split <;> rfl

theorem firstValidChar_none {lead : Text} (leading : Blanks lead) :
    getFirstValidCharType lead = (.invalid,lead.length) := by
  have blanks : lead.takeWhile isBlank = lead := List.takeWhile_eq_self_iff.mpr leading
  rw [getFirstValidCharType,blanks,List.drop_length]

theorem validLineInfo_body {lead body comment : Text} (leading : Blanks lead)
    (plain : semicolonSymbol ∉ body) (commented : Comment comment) :
    validLineInfo (lead++body++comment) lead.length = body := by
  have front : semicolonSymbol ∉ lead++body := by
    rw [List.mem_append,not_or]
    exact ⟨blanks_absent leading rfl,plain⟩
  have cut : (lead++body++comment).takeWhile (· != semicolonSymbol) = lead++body := by
    rcases commented with rfl | ⟨text,rfl,_⟩
    · rw [List.append_nil,takeWhile_absent front]
    · exact takeWhile_sep front
  rw [validLineInfo,cut,List.drop_left]

theorem sectionName_body {lead name trail comment : Text} (leading : Blanks lead) (named : Name name)
    (trailing : Blanks trail) (commented : Comment comment) :
    getSectionNameFromLine (lead ++ (bracketLeftSymbol::name ++ [bracketRightSymbol] ++ trail) ++ comment)
      lead.length = (0,name) := by
  obtain ⟨_,_,noSemicolon,_,_,_⟩ := named.plain
  have plain : semicolonSymbol ∉ bracketLeftSymbol::name ++ [bracketRightSymbol] ++ trail := by
    simp only [List.mem_append,List.mem_cons,List.not_mem_nil,or_false,not_or]
    exact ⟨⟨⟨by decide,noSemicolon⟩,by decide⟩,blanks_absent trailing rfl⟩
  have closing : bracketRightSymbol ∉ trail := blanks_absent trailing rfl
  have short : ¬name.length ≥ sectionNameMaxLen := Nat.not_le.mpr named.short
  have after : trail.all isBlank = true := List.all_eq_true.mpr trailing
  rw [getSectionNameFromLine,validLineInfo_body leading plain commented]
  simp only [rtakeWhile_sep closing,rdropWhile_sep closing,after,List.dropLast_concat]
  simp [short]

theorem lastValid_eq {temp : Text} {e n : Nat} (below : e ≤ n)
    (after : ∀ k, e < k → k ≤ n → isBlank (temp.getD k 0) = true)
    (valid : e = 0 ∨ isBlank (temp.getD e 0) = false) : lastValid temp n = e := by
  induction n with
  | zero =>
    have zero : e = 0 := by omega
    rw [lastValid,zero]
  | succ n ih =>
    rw [lastValid]
    rcases Nat.eq_or_lt_of_le below with rfl | more
    · have here : isBlank (temp.getD (n+1) 0) = false := by simpa using valid
      rw [here]
      rfl
    · rw [after (n+1) more (Nat.le_refl _),if_pos rfl]
      exact ih (by omega) fun k above bound => after k above (by omega)

theorem trim_core {left core right : Text} (leading : Blanks left) (trailing : Blanks right)
    (trimmed : Trimmed core) : trim (left++core++right) = some core := by
  have long := List.length_pos_of_ne_nil trimmed.more
  have front : (left++core++right).takeWhile isBlank = left := by
    rw [List.append_assoc]
    apply takeWhile_span leading
    intro char first
    apply trimmed.front char
    rwa [List.head?_append_of_ne_nil _ trimmed.more] at first
  have size : (left++core++right).length = left.length+core.length+right.length := by
    rw [List.length_append,List.length_append]
  have last : lastValid (left++core++right) ((left++core++right).length-1) =
      left.length+core.length-1 := by
    apply lastValid_eq
    · omega
    · intro k above bound
      have inside : k-(left++core).length < right.length := by
        rw [List.length_append]
        omega
      rw [List.getD_append_right _ _ _ _ (by rw [List.length_append]; omega),
        List.getD_eq_getElem _ _ inside]
      exact trailing _ (List.getElem_mem inside)
    · refine .inr (trimmed.back _ ?_)
      rw [List.getD_append _ _ _ _ (by rw [List.length_append]; omega),
        List.getD_append_right _ _ _ _ (by omega),List.getLast?_eq_getElem?]
      have index : left.length+core.length-1-left.length = core.length-1 := by omega
      rw [index,List.getD_eq_getElem _ _ (by omega),List.getElem?_eq_getElem (by omega)]
      rfl
  simp only [trim,front,last]
  rw [if_neg (by omega),if_neg (by omega),List.append_assoc,List.drop_left]
  have count : left.length+core.length-1-left.length+1 = core.length := by omega
  rw [count,List.take_left]

theorem attr_body {lead key left right value trail comment : Text} (leading : Blanks lead)
    (keyed : Trimmed key) (afterKey : Blanks left) (beforeValue : Blanks right) (valued : Trimmed value)
    (trailing : Blanks trail) (commented : Comment comment) :
    getAttrFromLine (lead ++ ((key++left) ++ equalSymbol::(right++value++trail)) ++ comment) lead.length =
      (0,key,value) := by
  obtain ⟨_,_,keySemicolon,keyEqual,_,_⟩ := keyed.plain
  obtain ⟨_,_,valueSemicolon,valueEqual,_,_⟩ := valued.plain
  have absent : ∀ {pad : Text} {char : UInt8}, Blanks pad → isBlank char = false → char ∉ pad :=
    fun blanks other => blanks_absent blanks other
  have front : equalSymbol ∉ key++left := by
    simp only [List.mem_append,not_or]
    exact ⟨keyEqual,absent afterKey rfl⟩
  have back : equalSymbol ∉ right++value++trail := by
    simp only [List.mem_append,not_or]
    exact ⟨⟨absent beforeValue rfl,valueEqual⟩,absent trailing rfl⟩
  have plain : semicolonSymbol ∉ (key++left) ++ equalSymbol::(right++value++trail) := by
    simp only [List.mem_append,List.mem_cons,not_or]
    exact ⟨⟨keySemicolon,absent afterKey rfl⟩,by decide,⟨absent beforeValue rfl,valueSemicolon⟩,
      absent trailing rfl⟩
  have once : ((key++left) ++ equalSymbol::(right++value++trail)).count equalSymbol = 1 := by
    rw [List.count_append,List.count_cons_self,List.count_eq_zero.mpr front,List.count_eq_zero.mpr back]
  have keyText : trim (key++left) = some key := by
    have unpadded : Blanks [] := by simp [Blanks]
    exact trim_core unpadded afterKey keyed
  have keyLength : ¬(key.length ≤ 0 ∨ key.length ≥ attrKeyMaxLen) := by
    rw [not_or]
    exact ⟨Nat.not_le.mpr (List.length_pos_of_ne_nil keyed.more),Nat.not_le.mpr keyed.short⟩
  have valueLength : ¬(value.length ≤ 0 ∨ value.length ≥ attrValueMaxLen) := by
    rw [not_or]
    exact ⟨Nat.not_le.mpr (List.length_pos_of_ne_nil valued.more),Nat.not_le.mpr valued.short⟩
  rw [getAttrFromLine,validLineInfo_body leading plain commented]
  simp only [once,takeWhile_sep front,dropWhile_sep front,keyText,List.drop_one,List.tail_cons,
    trim_core beforeValue trailing valued,if_neg keyLength,if_neg valueLength]
  simp

theorem renders_type {line : Line} {text : Text} (renders : Renders line text) : getLineType text = line := by
  cases renders with
  | @sectionLine lead name trail comment leading named trailing commented =>
    have read := sectionName_body leading named trailing commented
    have first := firstValidChar_result leading (by decide : isBlank bracketLeftSymbol = false)
      (name ++ [bracketRightSymbol] ++ trail ++ comment)
    have bracket : ¬bracketLeftSymbol = semicolonSymbol := by decide
    rw [List.append_assoc,List.cons_append,List.cons_append,List.cons_append] at read ⊢
    simp only [getLineType,first,if_neg bracket,if_true,read]
  | @attrLine lead key left right value trail comment leading keyed afterKey beforeValue valued trailing
      commented =>
    have read := attr_body leading keyed afterKey beforeValue valued trailing commented
    obtain ⟨_,_,noSemicolon,_,noBracket,_⟩ := keyed.plain
    cases key with
    | nil => exact absurd rfl keyed.more
    | cons char key =>
      have valid : isBlank char = false := keyed.front char rfl
      have first := firstValidChar_result leading valid
        (key ++ left ++ equalSymbol::(right++value++trail) ++ comment)
      have semicolon : ¬char = semicolonSymbol := fun same => noSemicolon (same ▸ List.mem_cons_self)
      have bracket : ¬char = bracketLeftSymbol := fun same => noBracket (same ▸ List.mem_cons_self)
      rw [List.append_assoc,List.cons_append,List.cons_append,List.cons_append] at read ⊢
      simp only [getLineType,first,if_neg semicolon,if_neg bracket,read,if_true]
  | commentLine leading _ _ =>
    rw [getLineType,firstValidChar_result leading (by decide : isBlank semicolonSymbol = false)]
    rfl
  | spaceLine leading =>
    rw [getLineType,firstValidChar_none leading]

/-- Part of one line of a text file. -/
def OneLine (text : Text) : Prop := 0 ∉ text ∧ newlineSymbol ∉ text

theorem oneLine_append {front back : Text} (first : OneLine front) (second : OneLine back) :
    OneLine (front++back) := by
  simp only [OneLine,List.mem_append,not_or]
  exact ⟨⟨first.1,second.1⟩,first.2,second.2⟩

theorem oneLine_cons {char : UInt8} {rest : Text} (text : 0 ≠ char) (inside : newlineSymbol ≠ char)
    (later : OneLine rest) : OneLine (char::rest) := by
  simp only [OneLine,List.mem_cons,not_or]
  exact ⟨⟨text,later.1⟩,inside,later.2⟩

theorem oneLine_blanks {pad : Text} (blanks : Blanks pad) : OneLine pad :=
  ⟨blanks_absent blanks rfl,blanks_absent blanks rfl⟩

theorem oneLine_plain {text : Text} (plain : Plain text) : OneLine text := ⟨plain.1,plain.2.1⟩

theorem oneLine_nil : OneLine [] := ⟨List.not_mem_nil,List.not_mem_nil⟩

theorem oneLine_comment {comment : Text} (commented : Comment comment) : OneLine comment := by
  rcases commented with rfl | ⟨body,rfl,text,oneLine⟩
  · exact oneLine_nil
  · exact oneLine_cons (by decide) (by decide) ⟨text,oneLine⟩

theorem renders_text {line : Line} {text : Text} (renders : Renders line text) : OneLine text := by
  cases renders with
  | sectionLine leading named trailing commented =>
    apply oneLine_append _ (oneLine_comment commented)
    apply oneLine_append (oneLine_blanks leading)
    apply oneLine_append _ (oneLine_blanks trailing)
    apply oneLine_append _ (oneLine_cons (by decide) (by decide) oneLine_nil)
    exact oneLine_cons (by decide) (by decide) (oneLine_plain named.plain)
  | attrLine leading keyed afterKey beforeValue valued trailing commented =>
    apply oneLine_append _ (oneLine_comment commented)
    apply oneLine_append (oneLine_blanks leading)
    apply oneLine_append (oneLine_append (oneLine_plain keyed.plain) (oneLine_blanks afterKey))
    apply oneLine_cons (by decide) (by decide)
    apply oneLine_append _ (oneLine_blanks trailing)
    exact oneLine_append (oneLine_blanks beforeValue) (oneLine_plain valued.plain)
  | commentLine leading text oneLine =>
    exact oneLine_append (oneLine_blanks leading) (oneLine_cons (by decide) (by decide) ⟨text,oneLine⟩)
  | spaceLine leading => exact oneLine_blanks leading

end MoCodes.Utils.Ini
