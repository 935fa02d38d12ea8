import Mathlib.Data.List.DropRight
import Mathlib.Tactic.Common

/-! iniParser.c. A text in memory is given up to its NUL, the nodes of the two kinds of lists
are given in the order of their `next` pointers, without the heads, and malloc succeeds. -/
namespace MoCodes.Utils.Ini

abbrev Text := List UInt8

def maxLineLen : Nat := 512

def sectionNameMaxLen : Nat := 128

def attrKeyMaxLen : Nat := 128

def attrValueMaxLen : Nat := 128

def tableSymbol : UInt8 := 9

def newlineSymbol : UInt8 := 10

def spaceSymbol : UInt8 := 32

def semicolonSymbol : UInt8 := 59

def equalSymbol : UInt8 := 61

def bracketLeftSymbol : UInt8 := 91

def bracketRightSymbol : UInt8 := 93

inductive FIRST_VALID_CHAR_TYPE where
  | invalid
  | semicolon
  | leftBracket
  | otherValidChar
  deriving DecidableEq

/-- LINE_TYPE with what the line holds. -/
inductive Line where
  | errorLine
  | sectionLine (sectionName : Text)
  | attrLine (key value : Text)
  | commentLine
  | spaceLine
  deriving DecidableEq

structure MOUTILS_INI_ATTR_INFO where
  key : Text
  value : Text
  deriving DecidableEq

structure MOUTILS_INI_SECTION_INFO where
  sectionName : Text
  attrs : List MOUTILS_INI_ATTR_INFO
  deriving DecidableEq

abbrev Sections := List MOUTILS_INI_SECTION_INFO

def isBlank (char : UInt8) : Bool := char == tableSymbol || char == spaceSymbol

/-- The names are those of the nodes from one of them on; the last one is not compared. -/
def isNodeExist (pSecName : Text) : List Text → Bool
  | [] => false
  | [_] => false
  | name::next::rest => if name = pSecName then true else isNodeExist pSecName (next::rest)

def addSecInfoNode (pSecName : Text) (sections : Sections) : Int × Sections :=
  -- the head node has an empty name
  if isNodeExist pSecName ([]::sections.map MOUTILS_INI_SECTION_INFO.sectionName) then (0 - 3,sections)
  else (0,sections ++ [⟨pSecName,[]⟩])

def addAttrInfoNode (pAttrInfo : MOUTILS_INI_ATTR_INFO) (pSecName : Text) : Sections → Int × Sections
  | [] => (0 - 3,[])
  | node::rest =>
    if pSecName = node.sectionName then
      if node.attrs.any fun attr => attr.key == pAttrInfo.key then (0 - 4,node::rest)
      else (0,{ node with attrs := node.attrs ++ [pAttrInfo] }::rest)
    else
      let result := addAttrInfoNode pAttrInfo pSecName rest
      (result.1,node::result.2)

def getFirstValidCharType (line : Text) : FIRST_VALID_CHAR_TYPE × Nat :=
  let ret := (line.takeWhile isBlank).length
  match line.drop ret with
  | [] => (.invalid,ret)
  | firstValidChar::_ =>
    if firstValidChar = semicolonSymbol then (.semicolon,ret)
    else if firstValidChar = bracketLeftSymbol then (.leftBracket,ret)
    else (.otherValidChar,ret)

/-- The line from its first valid character up to the first ';'. -/
def validLineInfo (line : Text) (firstValidCharPos : Nat) : Text :=
  (line.takeWhile (· != semicolonSymbol)).drop firstValidCharPos

def getSectionNameFromLine (line : Text) (firstValidCharPos : Nat) : Int × Text :=
  let info := validLineInfo line firstValidCharPos
  if bracketRightSymbol ∉ info then (0 - 2,[])
  else if ¬(info.rtakeWhile (· != bracketRightSymbol)).all isBlank then (0 - 2,[])
  else
    let tempSectionName := (info.rdropWhile (· != bracketRightSymbol)).dropLast.drop 1
    if tempSectionName.length ≥ sectionNameMaxLen then (0 - 3,[]) else (0,tempSectionName)

/-- `for(; j > 0 && blank; j--)`, which never looks at index 0. -/
def lastValid (temp : Text) : Nat → Nat
  | 0 => 0
  | j+1 => if isBlank (temp.getD (j+1) 0) then lastValid temp j else j+1

def trim (temp : Text) : Option Text :=
  let i := (temp.takeWhile isBlank).length
  -- the loop for j starts at -1
  if temp.length = 0 then none
  else
    let j := lastValid temp (temp.length-1)
    if j < i then none else some ((temp.drop i).take (j-i+1))

def getAttrFromLine (line : Text) (firstValidCharPos : Nat) : Int × Text × Text :=
  let info := validLineInfo line firstValidCharPos
  if equalSymbol ∉ info then (0 - 2,[],[])
  -- strchr and strrchr do not find the same one
  else if info.count equalSymbol ≠ 1 then (0 - 3,[],[])
  else match trim (info.takeWhile (· != equalSymbol)) with
    | none => (0 - 4,[],[])
    | some key => match trim ((info.dropWhile (· != equalSymbol)).drop 1) with
      | none => (0 - 4,[],[])
      | some value =>
        if key.length ≤ 0 ∨ key.length ≥ attrKeyMaxLen then (0 - 4,[],[])
        else if value.length ≤ 0 ∨ value.length ≥ attrValueMaxLen then (0 - 5,[],[])
        else (0,key,value)

def getLineType (line : Text) : Line :=
  let first := getFirstValidCharType line
  match first.1 with
  | .invalid => .spaceLine
  | .semicolon => .commentLine
  | .leftBracket =>
    let result := getSectionNameFromLine line first.2
    if result.1 = 0 then .sectionLine result.2 else .errorLine
  | .otherValidChar =>
    let result := getAttrFromLine line first.2
    if result.1 = 0 then .attrLine result.2.1 result.2.2 else .errorLine

/-- fgets with room for so many characters: what it reads and what it leaves. -/
def fgets : Nat → List UInt8 → List UInt8 × List UInt8
  | 0,fp => ([],fp)
  | _+1,[] => ([],[])
  | room+1,char::fp =>
    if char = newlineSymbol then ([char],fp)
    else
      let read := fgets room fp
      (char::read.1,read.2)

theorem fgets_split (room : Nat) (fp : List UInt8) : (fgets room fp).1 ++ (fgets room fp).2 = fp := by
  induction room generalizing fp with
  | zero => rfl
  | succ room ih =>
    cases fp with
    | nil => rfl
    | cons char fp =>
      rw [fgets]
      split
      · rfl
      · rw [List.cons_append,ih]

theorem fgets_shorter (char : UInt8) (fp : List UInt8) :
    (fgets (maxLineLen-1) (char::fp)).2.length < (char::fp).length := by
  have split := congrArg List.length (fgets_split (maxLineLen-1) (char::fp))
  have some : 0 < (fgets (maxLineLen-1) (char::fp)).1.length := by
    rw [maxLineLen,fgets]
    split <;> simp
  rw [List.length_append] at split
  omega

/-- What fgets reads, call by call, until there is nothing left. -/
def reads : List UInt8 → List (List UInt8)
  | [] => []
  | char::fp =>
    (fgets (maxLineLen-1) (char::fp)).1::reads (fgets (maxLineLen-1) (char::fp)).2
termination_by fp => fp.length
decreasing_by exact fgets_shorter char fp

/-- The buffer as a text, without its newline. -/
def lineOf (read : List UInt8) : Text :=
  let line := read.takeWhile (· != 0)
  if line.getLast? = some newlineSymbol then line.dropLast else line

structure Parsed where
  sections : Sections
  curSectionName : Text

def addLine (line : Line) (parsed : Parsed) : Int × Parsed :=
  match line with
  | .sectionLine sectionName =>
    let result := addSecInfoNode sectionName parsed.sections
    if result.1 ≠ 0 then (0 - 1,{ parsed with sections := result.2 }) else (0,⟨result.2,sectionName⟩)
  | .attrLine key value =>
    if parsed.curSectionName.length = 0 then (0 - 2,parsed)
    else
      let result := addAttrInfoNode ⟨key,value⟩ parsed.curSectionName parsed.sections
      if result.1 ≠ 0 then (0 - 3,{ parsed with sections := result.2 })
      else (0,{ parsed with sections := result.2 })
  | .errorLine => (0 - 4,parsed)
  | .commentLine => (0,parsed)
  | .spaceLine => (0,parsed)

/-- The `while` over the lines, left with the first error. -/
def addLines : List Line → Parsed → Int × Parsed
  | [],parsed => (0,parsed)
  | line::lines,parsed =>
    let result := addLine line parsed
    if result.1 ≠ 0 then result else addLines lines result.2

def linesOf (content : List UInt8) : List Line := (reads content).map fun read => getLineType (lineOf read)

def getSectionList (content : List UInt8) : Int × Sections :=
  let result := addLines (linesOf content) ⟨[],[]⟩
  (result.1,result.2.sections)

/-- `none` is a file that cannot be opened, and a NULL result. -/
def moUtils_Ini_Init (file : Option (List UInt8)) : Option Sections :=
  match file with
  | none => none
  | some content =>
    let result := getSectionList content
    if result.1 ≠ 0 then none else some result.2

def moUtils_Ini_GetAttrValue (pSecName pAttrKey : Option Text) (pSecInfoHeadNode : Option Sections) :
    Int × Option Text :=
  match pSecInfoHeadNode with
  | none => (0 - 1,none)
  | some sections => match pSecName,pAttrKey with
    | some secName,some attrKey =>
      match sections.find? fun node => secName == node.sectionName with
      | none => (0 - 3,none)
      | some node => match node.attrs.find? fun attr => attrKey == attr.key with
        | none => (0 - 4,none)
        | some attr => (0,some attr.value)
    | _,_ => (0 - 2,none)

end MoCodes.Utils.Ini
