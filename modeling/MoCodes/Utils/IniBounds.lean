import MoCodes.Utils.IniLines

/-! The indices that iniParser.c uses into the line buffer and into the copies it makes of it,
all of 512 bytes, statement by statement. A string function on a text goes up to its NUL; a
length that is negative becomes a huge `size_t`. -/
namespace MoCodes.Utils.Ini

/-- `count` bytes from an index on. -/
structure Span where
  start : Int
  count : Nat
  deriving DecidableEq

def Span.Inside (span : Span) : Prop := span.count = 0 ∨ 0 ≤ span.start ∧ span.start+span.count ≤ maxLineLen

def sizeT (n : Int) : Nat := (n % UInt64.size).toNat

/-- strlen, strrchr, and strcpy at either end, of a text that lies at `start`. -/
def throughNul (start : Nat) (text : Text) : Span := ⟨start,text.length+1⟩

/-- strchr stops at the first match. -/
def throughFirst (start : Nat) (text : Text) (char : UInt8) : Span :=
  ⟨start,(text.takeWhile (· != char)).length+1⟩

/-- strncpy reads up to `n` characters or to the NUL, and writes `n` to the front. -/
def strncpySpans (start : Nat) (text : Text) (n : Int) : List Span :=
  [⟨start,min (sizeT n) (text.length+1)⟩,⟨0,sizeT n⟩]

def wholeBuffer : Span := ⟨0,maxLineLen⟩

/-- validLineInfo is set to 0, and what is before the first ';' is copied to it. -/
def validLineSpans (line : Text) (firstValidCharPos : Nat) : List Span :=
  let firstSemicolonPos := (line.takeWhile (· != semicolonSymbol)).length
  wholeBuffer::throughFirst 0 line semicolonSymbol::
    if semicolonSymbol ∈ line then
      strncpySpans firstValidCharPos (line.drop firstValidCharPos) ((firstSemicolonPos : Int)-firstValidCharPos)
    else
      [throughNul firstValidCharPos (line.drop firstValidCharPos),
        throughNul 0 (line.drop firstValidCharPos)]

def sectionSpans (line : Text) (firstValidCharPos : Nat) : List Span :=
  let info := validLineInfo line firstValidCharPos
  validLineSpans line firstValidCharPos ++ throughNul 0 info::
    if bracketRightSymbol ∉ info then []
    else
      let lastRightBracketPos := (info.rdropWhile (· != bracketRightSymbol)).length-1
      let behind := info.rtakeWhile (· != bracketRightSymbol)
      ⟨(lastRightBracketPos : Int)+1,(behind.takeWhile isBlank).length+1⟩::
        if ¬behind.all isBlank then []
        else
          strncpySpans 1 (info.drop 1) ((lastRightBracketPos : Int)-1) ++
            [⟨(lastRightBracketPos : Int)-1,1⟩,throughNul 0 ((info.take lastRightBracketPos).drop 1)]

/-- The two loops over a key or a value, and the copy through `temp`. -/
def trimSpans (text : Text) : List Span :=
  let i := (text.takeWhile isBlank).length
  let j := lastValid text (text.length-1)
  throughNul 0 text::⟨0,min (i+1) text.length⟩::
    -- the loop for j starts at -1
    if text.length = 0 then []
    else
      -- it looks at no index below 1
      ⟨max j 1,text.length-max j 1⟩::
        if j < i then []
        else
          wholeBuffer::strncpySpans i (text.drop i) ((j : Int)-i+1) ++
            [⟨(j : Int)-i+1,1⟩,wholeBuffer,wholeBuffer]

/-- The lengths are checked, and key and value are handed out. -/
def lengthSpans (key value : Text) : List Span :=
  throughNul 0 key::
    if key.length ≤ 0 ∨ key.length ≥ attrKeyMaxLen then []
    else
      throughNul 0 value::
        if value.length ≤ 0 ∨ value.length ≥ attrValueMaxLen then []
        else [throughNul 0 key,throughNul 0 value]

def attrSpans (line : Text) (firstValidCharPos : Nat) : List Span :=
  let info := validLineInfo line firstValidCharPos
  validLineSpans line firstValidCharPos ++ throughFirst 0 info equalSymbol::
    if equalSymbol ∉ info then []
    else
      throughNul 0 info::
        if info.count equalSymbol ≠ 1 then []
        else
          let tempKey := info.takeWhile (· != equalSymbol)
          let tempValue := (info.dropWhile (· != equalSymbol)).drop 1
          wholeBuffer::throughNul (tempKey.length+1) tempValue::throughNul 0 tempValue::
            (strncpySpans 0 info tempKey.length ++ trimSpans tempKey ++
              match trim tempKey with
              | none => []
              | some key => trimSpans tempValue ++
                match trim tempValue with
                | none => []
                | some value => lengthSpans key value)

/-- One pass of the loop: fgets, strlen, the look at the last character, and GetLineType. -/
def lineSpans (read : List UInt8) : List Span :=
  let text := read.takeWhile (· != 0)
  let line := lineOf read
  let first := getFirstValidCharType line
  ⟨0,read.length+1⟩::throughNul 0 text::⟨(text.length : Int)-1,1⟩::⟨0,first.2+1⟩::
    match first.1 with
    | .leftBracket => sectionSpans line first.2
    | .otherValidChar => attrSpans line first.2
    | _ => []

/-- What is read up to and with the first line that is refused. -/
def linesRead : List (List UInt8) → Parsed → List (List UInt8)
  | [],_ => []
  | read::rest,parsed =>
    let result := addLine (getLineType (lineOf read)) parsed
    read::if result.1 ≠ 0 then [] else linesRead rest result.2

def parserSpans (content : List UInt8) : List Span := (linesRead (reads content) ⟨[],[]⟩).flatMap lineSpans

section Strings

theorem inside_of_le {start : Int} {count : Nat} (low : 0 ≤ start) (high : start+count ≤ 512) :
    Span.Inside ⟨start,count⟩ := .inr ⟨low,high⟩

theorem wholeBuffer_inside : wholeBuffer.Inside := inside_of_le (by decide) (by decide)

theorem throughNul_inside {start : Nat} {text : Text} (short : start+text.length ≤ 511) :
    (throughNul start text).Inside :=
  inside_of_le (by omega) (by omega)

theorem throughFirst_inside {start : Nat} {text : Text} (short : start+text.length ≤ 511) (char : UInt8) :
    (throughFirst start text char).Inside := by
  have less : (text.takeWhile (· != char)).length ≤ text.length := (List.takeWhile_prefix _).length_le
  exact inside_of_le (by omega) (by omega)

theorem sizeT_of_small {n : Int} (low : 0 ≤ n) (high : n ≤ 512) : (sizeT n : Int) = n := by
  have size : (UInt64.size : Int) = 18446744073709551616 := rfl
  rw [sizeT,size,Int.toNat_of_nonneg (by omega)]
  omega

theorem strncpySpans_inside {start : Nat} {text : Text} {n : Int} (low : 0 ≤ n) (high : n ≤ 511)
    (short : start+text.length ≤ 511) : ∀ span ∈ strncpySpans start text n, span.Inside := by
  have size := sizeT_of_small low (by omega)
  simp only [strncpySpans,List.mem_cons,List.not_mem_nil,or_false]
  rintro span (rfl | rfl)
  · exact inside_of_le (by omega) (by omega)
  · exact inside_of_le (by omega) (by omega)

end Strings

section Lines

variable {lead rest : Text} {char : UInt8}

theorem takeWhile_length_le (p : UInt8 → Bool) (text : Text) : (text.takeWhile p).length ≤ text.length :=
  (List.takeWhile_prefix p).length_le

theorem semicolon_before (leading : Blanks lead) (other : char ≠ semicolonSymbol) :
    (lead ++ char::rest).takeWhile (· != semicolonSymbol) = lead ++ char::rest.takeWhile (· != semicolonSymbol) := by
  have plain : ∀ item ∈ lead, (item != semicolonSymbol) = true := fun item member => by
    have blank := leading item member
    rw [bne_iff_ne]
    rintro rfl
    cases blank
  rw [List.takeWhile_append_of_pos plain,List.takeWhile_cons_of_pos (by simpa using other)]

theorem validLineInfo_cons (leading : Blanks lead) (other : char ≠ semicolonSymbol) :
    validLineInfo (lead ++ char::rest) lead.length = char::rest.takeWhile (· != semicolonSymbol) := by
  rw [validLineInfo,semicolon_before leading other,List.drop_left]

theorem validLineInfo_length (line : Text) (pos : Nat) : (validLineInfo line pos).length ≤ line.length := by
  have less := takeWhile_length_le (· != semicolonSymbol) line
  rw [validLineInfo,List.length_drop]
  omega

theorem validLineSpans_inside (leading : Blanks lead) (other : char ≠ semicolonSymbol)
    (short : (lead ++ char::rest).length ≤ 511) :
    ∀ span ∈ validLineSpans (lead ++ char::rest) lead.length, span.Inside := by
  have less := takeWhile_length_le (· != semicolonSymbol) (lead ++ char::rest)
  have plain : (lead ++ char::rest).takeWhile (· != semicolonSymbol) = _ := semicolon_before leading other
  have before := congrArg List.length plain
  rw [List.length_append,List.length_cons] at before
  have behind : lead.length+((lead ++ char::rest).drop lead.length).length ≤ 511 := by
    rw [List.drop_left]
    simpa using short
  simp only [validLineSpans,List.mem_cons]
  rintro span (rfl | rfl | member)
  · exact wholeBuffer_inside
  · exact throughFirst_inside (by omega) _
  · split at member
    · exact strncpySpans_inside (by omega) (by omega) behind span member
    · simp only [List.mem_cons,List.not_mem_nil,or_false] at member
      rcases member with rfl | rfl
      · exact throughNul_inside behind
      · exact throughNul_inside (by omega)

/-- A ']' is never the first character of what follows '['. -/
theorem rightBracket_split {body : Text} (found : bracketRightSymbol ∈ bracketLeftSymbol::body) :
    ∃ front, front ≠ [] ∧ (bracketLeftSymbol::body).rdropWhile (· != bracketRightSymbol) = front ++ [bracketRightSymbol] ∧
      bracketLeftSymbol::body = front ++ [bracketRightSymbol] ++
        (bracketLeftSymbol::body).rtakeWhile (· != bracketRightSymbol) := by
  have whole : (bracketLeftSymbol::body).rdropWhile (· != bracketRightSymbol) ++
      (bracketLeftSymbol::body).rtakeWhile (· != bracketRightSymbol) = bracketLeftSymbol::body :=
    List.rdropWhile_append_rtakeWhile
  have some : (bracketLeftSymbol::body).rdropWhile (· != bracketRightSymbol) ≠ [] := fun none => by
    have all := List.rdropWhile_eq_nil_iff.mp none _ found
    simp at all
  have last := List.rdropWhile_last_not (· != bracketRightSymbol) _ some
  have closed := List.dropLast_append_getLast some
  have bracket : ((bracketLeftSymbol::body).rdropWhile (· != bracketRightSymbol)).getLast some = bracketRightSymbol := by
    simpa using last
  rw [bracket] at closed
  rw [← closed] at whole
  refine ⟨_,fun none => ?_,closed.symm,whole.symm⟩
  rw [none] at whole
  exact absurd (List.cons.inj whole).1 (by decide)

theorem sectionSpans_inside (leading : Blanks lead) (short : (lead ++ bracketLeftSymbol::rest).length ≤ 511) :
    ∀ span ∈ sectionSpans (lead ++ bracketLeftSymbol::rest) lead.length, span.Inside := by
  have other : bracketLeftSymbol ≠ semicolonSymbol := by decide
  have size := Nat.le_trans (validLineInfo_length (lead ++ bracketLeftSymbol::rest) lead.length) short
  simp only [sectionSpans,List.mem_append,List.mem_cons]
  rw [validLineInfo_cons leading other] at size ⊢
  rintro span (member | rfl | member)
  · exact validLineSpans_inside leading other short span member
  · exact throughNul_inside (by omega)
  split at member
  · cases member
  next found =>
  obtain ⟨front,some,closed,whole⟩ := rightBracket_split (not_not.mp found)
  have length := congrArg List.length whole
  have more := List.length_pos_iff.mpr some
  simp only [closed,List.length_append,List.length_singleton,Nat.add_sub_cancel,List.mem_cons] at length member
  have blanks := takeWhile_length_le isBlank
    ((bracketLeftSymbol::rest.takeWhile (· != semicolonSymbol)).rtakeWhile (· != bracketRightSymbol))
  rcases member with rfl | member
  · exact inside_of_le (by omega) (by omega)
  split at member
  · cases member
  rcases List.mem_append.mp member with copied | later
  · exact strncpySpans_inside (by omega) (by omega) (by rw [List.length_drop]; omega) span copied
  · simp only [List.mem_cons,List.not_mem_nil,or_false] at later
    rcases later with rfl | rfl
    · exact inside_of_le (by omega) (by omega)
    · apply throughNul_inside
      rw [List.length_drop,List.length_take]
      omega

end Lines

section Trims

theorem lastValid_le (text : Text) (n : Nat) : lastValid text n ≤ n := by
  induction n with
  | zero => rfl
  | succ n ih =>
    rw [lastValid]
    split
    · omega
    · rfl

theorem trimSpans_inside {text : Text} (short : text.length ≤ 510) : ∀ span ∈ trimSpans text, span.Inside := by
  have blanks := takeWhile_length_le isBlank text
  have below := lastValid_le text (text.length-1)
  simp only [trimSpans,List.mem_cons]
  rintro span (rfl | rfl | member)
  · exact throughNul_inside (by omega)
  · exact inside_of_le (by omega) (by omega)
  split at member
  · cases member
  rcases List.mem_cons.mp member with rfl | member
  · exact inside_of_le (by omega) (by omega)
  split at member
  · cases member
  rw [List.cons_append,List.mem_cons,List.mem_append] at member
  rcases member with rfl | copied | later
  · exact wholeBuffer_inside
  · exact strncpySpans_inside (by omega) (by omega) (by rw [List.length_drop]; omega) span copied
  · simp only [List.mem_cons,List.not_mem_nil,or_false] at later
    rcases later with rfl | rfl | rfl
    · exact inside_of_le (by omega) (by omega)
    · exact wholeBuffer_inside
    · exact wholeBuffer_inside

theorem trim_length {text trimmed : Text} (ok : trim text = some trimmed) : trimmed.length ≤ text.length := by
  unfold trim at ok
  simp only at ok
  split at ok
  · cases ok
  split at ok
  · cases ok
  cases ok
  rw [List.length_take,List.length_drop]
  omega

end Trims

section Attrs

variable {lead rest : Text} {char : UInt8}

theorem lengthSpans_inside {key value : Text} (keyed : key.length ≤ 510) (valued : value.length ≤ 510) :
    ∀ span ∈ lengthSpans key value, span.Inside := by
  have first : (throughNul 0 key).Inside := throughNul_inside (by omega)
  have second : (throughNul 0 value).Inside := throughNul_inside (by omega)
  simp only [lengthSpans,List.mem_cons]
  rintro span (rfl | member)
  · exact first
  split at member
  · cases member
  rcases List.mem_cons.mp member with rfl | member
  · exact second
  split at member
  · cases member
  simp only [List.mem_cons,List.not_mem_nil,or_false] at member
  rcases member with rfl | rfl
  · exact first
  · exact second

/-- The key and the value share the place of the text less the '='. -/
theorem equal_split {info : Text} (found : equalSymbol ∈ info) :
    (info.takeWhile (· != equalSymbol)).length+1+((info.dropWhile (· != equalSymbol)).drop 1).length = info.length := by
  have whole := congrArg List.length
    (List.takeWhile_append_dropWhile (p := (· != equalSymbol)) (l := info))
  have some : 0 < (info.dropWhile (· != equalSymbol)).length := by
    rw [List.length_pos_iff,Ne,List.dropWhile_eq_nil_iff]
    intro all
    have := all _ found
    simp at this
  rw [List.length_append] at whole
  rw [List.length_drop]
  omega

theorem attrSpans_inside (leading : Blanks lead) (other : char ≠ semicolonSymbol)
    (short : (lead ++ char::rest).length ≤ 511) :
    ∀ span ∈ attrSpans (lead ++ char::rest) lead.length, span.Inside := by
  have size := Nat.le_trans (validLineInfo_length (lead ++ char::rest) lead.length) short
  simp only [attrSpans,List.mem_append,List.mem_cons]
  generalize validLineInfo (lead ++ char::rest) lead.length = info at size
  rintro span (member | rfl | member)
  · exact validLineSpans_inside leading other short span member
  · exact throughFirst_inside (by omega) _
  split at member
  · cases member
  next found =>
  have cut := equal_split (not_not.mp found)
  rcases List.mem_cons.mp member with rfl | member
  · exact throughNul_inside (by omega)
  split at member
  · cases member
  generalize info.takeWhile (· != equalSymbol) = tempKey at cut member
  generalize (info.dropWhile (· != equalSymbol)).drop 1 = tempValue at cut member
  simp only [List.mem_append,List.mem_cons] at member
  rcases member with rfl | rfl | rfl | (copied | trimmed) | member
  · exact wholeBuffer_inside
  · exact throughNul_inside (by omega)
  · exact throughNul_inside (by omega)
  · exact strncpySpans_inside (by omega) (by omega) (by omega) span copied
  · exact trimSpans_inside (by omega) span trimmed
  cases key : trim tempKey with
  | none =>
    rw [key] at member
    cases member
  | some _ =>
    have keyed := trim_length key
    rw [key,List.mem_append] at member
    rcases member with trimmed | member
    · exact trimSpans_inside (by omega) span trimmed
    cases value : trim tempValue with
    | none =>
      rw [value] at member
      cases member
    | some _ =>
      have valued := trim_length value
      rw [value] at member
      exact lengthSpans_inside (by omega) (by omega) span member

end Attrs

section Reads

theorem fgets_length (room : Nat) (fp : List UInt8) : (fgets room fp).1.length ≤ room := by
  induction room generalizing fp with
  | zero => exact Nat.le_refl 0
  | succ room ih =>
    cases fp with
    | nil => exact Nat.zero_le _
    | cons char fp =>
      rw [fgets]
      split
      · exact Nat.succ_le_succ (Nat.zero_le room)
      · exact Nat.succ_le_succ (ih fp)

theorem reads_short {fp read : List UInt8} (member : read ∈ reads fp) : read ≠ [] ∧ read.length ≤ 511 := by
  induction fp using reads.induct with
  | case1 =>
    rw [reads] at member
    cases member
  | case2 char fp ih =>
    rw [reads,List.mem_cons] at member
    rcases member with rfl | later
    · refine ⟨?_,fgets_length _ _⟩
      rw [maxLineLen,fgets]
      split <;> exact List.cons_ne_nil _ _
    · exact ih later

theorem lineOf_length (read : List UInt8) : (lineOf read).length ≤ (read.takeWhile (· != 0)).length := by
  simp only [lineOf]
  split
  · rw [List.length_dropLast]
    omega
  · rfl

theorem linesRead_mem {pieces : List (List UInt8)} {parsed : Parsed} {read : List UInt8}
    (member : read ∈ linesRead pieces parsed) : read ∈ pieces := by
  induction pieces generalizing parsed with
  | nil => exact member
  | cons first pieces ih =>
    rw [linesRead] at member
    rcases List.mem_cons.mp member with rfl | later
    · exact List.mem_cons_self
    · split at later
      · cases later
      · exact List.mem_cons_of_mem _ (ih later)

theorem firstValidChar_split (line : Text) :
    getFirstValidCharType line = (.invalid,line.length) ∨
      ∃ lead char rest, Blanks lead ∧ isBlank char = false ∧ line = lead ++ char::rest := by
  have leading : Blanks (line.takeWhile isBlank) := fun _ => List.mem_takeWhile_imp
  have whole : line.takeWhile isBlank ++ line.dropWhile isBlank = line := List.takeWhile_append_dropWhile
  cases behind : line.dropWhile isBlank with
  | nil =>
    rw [behind,List.append_nil] at whole
    rw [whole] at leading
    exact .inl (firstValidChar_none leading)
  | cons char rest =>
    have first := List.head?_dropWhile_not isBlank line
    rw [behind] at first whole
    exact .inr ⟨_,char,rest,leading,by simpa using first,whole.symm⟩

theorem typeSpans_inside {line : Text} (short : line.length ≤ 511) :
    (getFirstValidCharType line).2 ≤ line.length ∧
      ∀ span ∈ (match (getFirstValidCharType line).1 with
        | .leftBracket => sectionSpans line (getFirstValidCharType line).2
        | .otherValidChar => attrSpans line (getFirstValidCharType line).2
        | _ => []), span.Inside := by
  rcases firstValidChar_split line with invalid | ⟨lead,char,rest,leading,valid,rfl⟩
  · rw [invalid]
    exact ⟨Nat.le_refl _,fun span member => by cases member⟩
  rw [firstValidChar_result leading valid]
  refine ⟨by simp,?_⟩
  by_cases comment : char = semicolonSymbol
  · rw [if_pos comment]
    exact fun span member => by cases member
  rw [if_neg comment]
  by_cases bracket : char = bracketLeftSymbol
  · rw [if_pos bracket]
    subst bracket
    exact sectionSpans_inside leading short
  · rw [if_neg bracket]
    exact attrSpans_inside leading comment short

theorem text_empty {read : List UInt8} (more : read ≠ []) :
    (read.takeWhile (· != 0)).length = 0 ↔ read.head? = some 0 := by
  cases read with
  | nil => exact absurd rfl more
  | cons char read =>
    by_cases nul : char = 0
    · simp [nul]
    · simp [nul]

/-- In one pass only the look at the last character can leave the buffer, when the text is empty. -/
theorem lineSpans_inside_iff {read : List UInt8} (more : read ≠ []) (short : read.length ≤ 511) :
    (∀ span ∈ lineSpans read, span.Inside) ↔ read.head? ≠ some 0 := by
  have text := takeWhile_length_le (· != 0) read
  have line := lineOf_length read
  obtain ⟨first,split⟩ := typeSpans_inside (Nat.le_trans line (Nat.le_trans text short))
  rw [ne_eq,← text_empty more]
  constructor
  · intro inside empty
    have last := inside ⟨((read.takeWhile (· != 0)).length : Int)-1,1⟩ (by simp [lineSpans])
    rcases last with none | ⟨low,_⟩
    · cases none
    · simp only at low
      omega
  · intro some span member
    simp only [lineSpans,List.mem_cons] at member
    rcases member with rfl | rfl | rfl | rfl | member
    · exact inside_of_le (by omega) (by omega)
    · exact throughNul_inside (by omega)
    · exact inside_of_le (by omega) (by omega)
    · exact inside_of_le (by omega) (by omega)
    · exact split span member

/-- All indices lie inside their buffers exactly when nothing that is read begins with a NUL. -/
theorem parserSpans_inside_iff (content : List UInt8) :
    (∀ span ∈ parserSpans content, span.Inside) ↔
      ∀ read ∈ linesRead (reads content) ⟨[],[]⟩, read.head? ≠ some 0 := by
  have each : ∀ read ∈ linesRead (reads content) ⟨[],[]⟩,
      (∀ span ∈ lineSpans read, span.Inside) ↔ read.head? ≠ some 0 := fun read member => by
    obtain ⟨more,short⟩ := reads_short (linesRead_mem member)
    exact lineSpans_inside_iff more short
  constructor
  · intro inside read member
    exact (each read member).mp fun span used => inside span (List.mem_flatMap.mpr ⟨read,member,used⟩)
  · intro plain span member
    obtain ⟨read,inside,used⟩ := List.mem_flatMap.mp member
    exact (each read inside).mpr (plain read inside) span used

theorem parser_reads_before_line :
    (⟨-1,1⟩ : Span) ∈ parserSpans [0,10] ∧ ¬ (⟨-1,1⟩ : Span).Inside := by
  have first : fgets (maxLineLen-1) [0,10] = ([0,10],[]) := by decide
  have pieces : reads [0,10] = [[0,10]] := by rw [reads,first,reads]
  refine ⟨?_,?_⟩
  · rw [parserSpans,pieces]
    decide +kernel
  · rintro (none | ⟨low,_⟩)
    · cases none
    · exact absurd low (by decide)

end Reads

end MoCodes.Utils.Ini
