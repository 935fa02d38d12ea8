import MoCodes.Utils.File
import Mathlib.Data.List.TakeWhile

/-! How moUtils_File_getAbsDirPath of file.c reads what the shell prints. Once a byte outside the block is
written, there is no result. -/
namespace MoCodes.Utils.PwdRead
open MoCodes.Utils.File

def unitSize : Nat := 256

def nul : Char := Char.ofNat 0

def cString (block : Path) : Path := block.takeWhile (· != nul)

/-- `memset` and `fread`; fewer characters than the block has room for come only at the end of the pipe. -/
def filled (blkSize : Nat) (fp : Path) : Path := fp.take blkSize ++ List.replicate (blkSize-fp.length) nul

theorem unit_pos (i : Nat) : 0 < unitSize*(i+1) := Nat.mul_pos (by decide) (Nat.succ_pos i)

/-- Pass `i`. `rewind` does nothing to a pipe, so what a full block took is gone. -/
def readBlocks (fp : Path) (i : Nat) : Option Path :=
  let blkSize := unitSize*(i+1)
  let readSize := (fp.take blkSize).length
  if full : readSize = blkSize then readBlocks (fp.drop blkSize) (i+1)
  -- `pBlk[readSize-1]` is in front of the block
  else if readSize = 0 then none
  else some (cString ((filled blkSize fp).set (readSize-1) nul))
termination_by fp.length
decreasing_by
  have positive := unit_pos i
  have enough := (List.length_take).symm.trans full
  rw [List.length_drop]
  omega

/-- `popen` gives the pipe, NULL is `none`. -/
def getAbsDirPath (isDir : Bool) (popen : Option Path) : Option (Option Path) :=
  if !isDir then some none
  else match popen with
    | none => some none
    | some fp => (readBlocks fp 0).map some

structure Line where
  text : Path
  one : '\n' ∉ text
  plain : nul ∉ text

def Line.printed (line : Line) : Path := line.text ++ ['\n']

theorem cString_nul (front back : Path) : cString (front ++ nul :: back) = cString front := by
  rw [cString,List.takeWhile_append]
  split
  · rename_i all
    rw [cString,List.takeWhile_cons_of_neg (by simp),List.append_nil,(List.takeWhile_prefix _).eq_of_length all]
  · rfl

section Passes

variable {fp : Path} {i : Nat}

theorem readBlocks_full (full : unitSize*(i+1) ≤ fp.length) :
    readBlocks fp i = readBlocks (fp.drop (unitSize*(i+1))) (i+1) := by
  rw [readBlocks,List.length_take,dif_pos (Nat.min_eq_left full)]

theorem readBlocks_nil : readBlocks [] i = none := by
  have positive := unit_pos i
  rw [readBlocks,List.take_nil,List.length_nil,dif_neg (Nat.ne_of_lt positive),if_pos rfl]

theorem readBlocks_short (short : fp.length < unitSize*(i+1)) (more : fp ≠ []) :
    readBlocks fp i = some (cString (fp.take (fp.length-1))) := by
  have positive := List.length_pos_iff.mpr more
  have whole := List.take_of_length_le (Nat.le_of_lt short)
  have block : (filled (unitSize*(i+1)) fp).set (fp.length-1) nul =
      fp.take (fp.length-1) ++ nul :: List.replicate (unitSize*(i+1)-fp.length) nul := by
    rw [filled,whole,List.set_append_left _ _ (by omega),List.set_eq_take_append_cons_drop,if_pos (by omega),
      Nat.sub_add_cancel positive,List.drop_length,List.append_assoc]
    rfl
  rw [readBlocks,whole,dif_neg (Nat.ne_of_lt short),if_neg (Nat.ne_of_gt positive),block,cString_nul]

theorem cString_plain {text : Path} (plain : nul ∉ text) : cString text = text := by
  apply List.takeWhile_eq_self_iff.mpr
  intro char among
  exact bne_iff_ne.mpr fun zero => plain (zero ▸ among)

/-- A read takes passes over full blocks and then one at the end of the pipe. -/
theorem readBlocks_induction {motive : Path → Nat → Option Path → Prop} (nil : ∀ i, motive [] i none)
    (short : ∀ fp i, fp ≠ [] → fp.length < unitSize*(i+1) → motive fp i (some (cString (fp.take (fp.length-1)))))
    (full : ∀ fp i read, unitSize*(i+1) ≤ fp.length → motive (fp.drop (unitSize*(i+1))) (i+1) read → motive fp i read)
    (fp : Path) (i : Nat) : motive fp i (readBlocks fp i) := by
  induction size : fp.length using Nat.strong_induction_on generalizing fp i with
  | _ n ih =>
    subst size
    rcases Nat.lt_or_ge fp.length (unitSize*(i+1)) with less | enough
    · by_cases none : fp = []
      · rw [none,readBlocks_nil]
        exact nil i
      · rw [readBlocks_short less none]
        exact short fp i none less
    · have positive := unit_pos i
      have smaller : (fp.drop (unitSize*(i+1))).length < fp.length := by
        rw [List.length_drop]
        omega
      rw [readBlocks_full enough]
      exact full fp i _ enough (ih _ smaller _ (i+1) rfl)

/-- The string is never longer than what is left of a pipe, without its newline. -/
theorem readBlocks_length (fp : Path) (i : Nat) : ∀ text ∈ readBlocks fp i, text.length+1 ≤ fp.length := by
  apply @readBlocks_induction (fun fp _ read => ∀ text ∈ read, text.length+1 ≤ fp.length)
  case nil => exact fun _ _ none => by cases none
  case short =>
    intro fp i more _ text read
    have positive := List.length_pos_iff.mpr more
    have cut := (List.takeWhile_prefix (· != nul) (l := fp.take (fp.length-1))).length_le
    obtain rfl := Option.some.inj read
    rw [List.length_take] at cut
    rw [cString]
    omega
  case full =>
    intro fp i read _ ih text among
    have shorter := ih text among
    rw [List.length_drop] at shorter
    omega

/-- What full blocks take, from pass `i` on. -/
def taken : Nat → Nat → Nat
  | _,0 => 0
  | i,passes+1 => unitSize*(i+1)+taken (i+1) passes

/-- In front of the block exactly if full blocks took all there is. -/
theorem readBlocks_none_iff (fp : Path) (i : Nat) : readBlocks fp i = none ↔ ∃ passes, fp.length = taken i passes := by
  apply @readBlocks_induction (fun fp i read => read = none ↔ ∃ passes, fp.length = taken i passes)
  case nil => exact fun i => iff_of_true rfl ⟨0,rfl⟩
  case short =>
    intro fp i more less
    refine iff_of_false (fun none => by cases none) ?_
    rintro ⟨passes,size⟩
    cases passes with
    | zero => exact more (List.length_eq_zero_iff.mp size)
    | succ passes =>
      rw [taken] at size
      omega
  case full =>
    intro fp i read enough ih
    rw [ih,List.length_drop]
    constructor
    · rintro ⟨passes,size⟩
      refine ⟨passes+1,?_⟩
      rw [taken]
      omega
    · rintro ⟨passes,size⟩
      have positive := unit_pos i
      cases passes with
      | zero =>
        rw [taken] at size
        omega
      | succ passes =>
        rw [taken] at size
        refine ⟨passes,?_⟩
        omega

/-- What whole blocks leave of a line, if they do not end with its newline. -/
def LeftFrom (i : Nat) (line rest : Path) : Prop :=
  ∃ passes, taken i passes ≤ line.length ∧ line.length+1 < taken i (passes+1) ∧ rest = line.drop (taken i passes)

theorem readBlocks_line_iff {line : Path} (plain : nul ∉ line) (i : Nat) (rest : Path) :
    readBlocks (line ++ ['\n']) i = some rest ↔ LeftFrom i line rest := by
  induction size : line.length using Nat.strong_induction_on generalizing line i with
  | _ n ih =>
    subst size
    have positive := unit_pos i
    have printed : (line ++ ['\n']).length = line.length+1 := List.length_append
    rcases Nat.lt_or_ge (line.length+1) (unitSize*(i+1)) with short | long
    · rw [readBlocks_short (printed ▸ short) (List.concat_ne_nil _ _),printed,Nat.add_sub_cancel,List.take_left,
        cString_plain plain,Option.some.injEq]
      constructor
      · rintro rfl
        exact ⟨0,Nat.zero_le _,short,rfl⟩
      · rintro ⟨passes,low,_,rfl⟩
        cases passes with
        | zero => rfl
        | succ passes =>
          rw [taken] at low
          omega
    · rw [readBlocks_full (printed ▸ long)]
      rcases Nat.eq_or_lt_of_le long with last | more
      · rw [List.drop_eq_nil_of_le (by omega),readBlocks_nil]
        refine iff_of_false (fun none => by cases none) ?_
        rintro ⟨passes,low,high,_⟩
        cases passes with
        | zero =>
          simp only [taken] at high
          omega
        | succ passes =>
          rw [taken] at low
          omega
      · have inside : unitSize*(i+1) ≤ line.length := by omega
        have shorter : (line.drop (unitSize*(i+1))).length < line.length := by
          rw [List.length_drop]
          omega
        rw [List.drop_append_of_le_length inside,
          ih _ shorter (fun zero => plain (List.mem_of_mem_drop zero)) (i+1) rfl]
        constructor
        · rintro ⟨passes,low,high,rfl⟩
          rw [List.length_drop] at low high
          refine ⟨passes+1,?_,?_,?_⟩
          · rw [taken]
            omega
          · rw [taken]
            omega
          · rw [taken,List.drop_drop]
        · rintro ⟨passes,low,high,rfl⟩
          cases passes with
          | zero =>
            simp only [taken] at high
            omega
          | succ passes =>
            rw [taken] at low high
            refine ⟨passes,?_,?_,?_⟩
            · rw [List.length_drop]
              omega
            · rw [List.length_drop]
              omega
            · rw [taken,List.drop_drop]

theorem leftFrom_short {i : Nat} {line rest : Path} (short : line.length+1 < unitSize*(i+1)) :
    LeftFrom i line rest ↔ rest = line := by
  constructor
  · rintro ⟨passes,low,_,rfl⟩
    cases passes with
    | zero => rfl
    | succ passes =>
      rw [taken] at low
      omega
  · rintro rfl
    exact ⟨0,Nat.zero_le _,short,rfl⟩

theorem taken_mono (i : Nat) {passes more : Nat} (fewer : passes ≤ more) : taken i passes ≤ taken i more := by
  induction more generalizing i passes with
  | zero =>
    obtain rfl := Nat.le_zero.mp fewer
    exact le_rfl
  | succ more ih =>
    cases passes with
    | zero => exact Nat.zero_le _
    | succ passes => exact Nat.add_le_add_left (ih (i+1) (Nat.le_of_succ_le_succ fewer)) _

theorem leftFrom_unique {i : Nat} {line rest other : Path} (left : LeftFrom i line rest) (also : LeftFrom i line other) :
    rest = other := by
  obtain ⟨passes,low,high,rfl⟩ := left
  obtain ⟨more,lower,higher,rfl⟩ := also
  have same : passes = more := by
    rcases lt_trichotomy passes more with fewer | same | fewer
    · have reached := @taken_mono i (passes+1) more fewer
      omega
    · exact same
    · have reached := @taken_mono i (more+1) passes fewer
      omega
  rw [same]

end Passes

/-- What is not read past a NUL is what the model of the path routines takes it to be. -/
theorem readBlocks_readPwd (fp : Path) (i : Nat) : nul ∉ fp → ∀ text ∈ readBlocks fp i, readPwd fp i = text := by
  apply @readBlocks_induction (fun fp i read => nul ∉ fp → ∀ text ∈ read, readPwd fp i = text)
  case nil => exact fun _ _ _ none => by cases none
  case short =>
    intro fp i more less plain text read
    obtain rfl := Option.some.inj read
    have same : ¬256*(i+1) ≤ fp.length := Nat.not_le.mpr less
    rw [readPwd,if_neg same,cString_plain fun among => plain (List.mem_of_mem_take among)]
  case full =>
    intro fp i read enough ih plain text among
    have same : 256*(i+1) ≤ fp.length := enough
    rw [readPwd,if_pos same]
    exact ih (fun zero => plain (List.mem_of_mem_drop zero)) text among

theorem getAbsDirPath_world (world : World) {pDirpath : Path} {read : Option Path} (plain : nul ∉ world.pwd pDirpath)
    (reads : getAbsDirPath (world.isDir pDirpath) (some (world.pwd pDirpath)) = some read) :
    File.getAbsDirPath world pDirpath = read := by
  rw [getAbsDirPath] at reads
  rw [File.getAbsDirPath]
  cases dir : world.isDir pDirpath with
  | false =>
    rw [dir] at reads
    exact Option.some.inj reads
  | true =>
    rw [dir] at reads
    obtain ⟨text,among,rfl⟩ := Option.map_eq_some_iff.mp reads
    rw [if_pos rfl,readBlocks_readPwd _ _ plain text among]

theorem getAbsDirPath_line_iff (line : Line) :
    getAbsDirPath true (some line.printed) = some (some line.text) ↔ line.text.length < 255 := by
  have size : line.printed.length = line.text.length+1 := by simp [Line.printed]
  have negated : (!true) = false := rfl
  rw [getAbsDirPath,negated,if_neg (by decide)]
  constructor
  · intro read
    obtain ⟨text,among,same⟩ := Option.map_eq_some_iff.mp read
    obtain rfl := Option.some.inj same
    by_contra long
    have full : unitSize*(0+1) ≤ line.printed.length := by
      rw [size,unitSize]
      omega
    rw [readBlocks_full full] at among
    have shorter := readBlocks_length _ _ _ among
    rw [List.length_drop,size,unitSize] at shorter
    omega
  · intro fits
    have less : line.printed.length < unitSize*(0+1) := by
      rw [size,unitSize]
      omega
    have more : line.printed ≠ [] := List.concat_ne_nil _ _
    rw [readBlocks_short less more,size,Nat.add_sub_cancel,Line.printed,List.take_left,cString_plain line.plain]
    rfl

/-- With the newline it has 256 characters. -/
def unitLine : Line := ⟨'/' :: List.replicate 254 'a',by decide +kernel,by decide +kernel⟩

theorem unitLine_outside : getAbsDirPath true (some unitLine.printed) = none := by
  have full : readBlocks unitLine.printed 0 = none := (readBlocks_none_iff _ 0).mpr ⟨1,by decide +kernel⟩
  have negated : (!true) = false := rfl
  rw [getAbsDirPath,negated,if_neg (by decide),full]
  rfl

end MoCodes.Utils.PwdRead
