import MoCodes.Lib.FileStore
import Mathlib.Data.List.DropRight

/-! The path routines of file.c. Paths are never NULL and malloc succeeds; what the system
knows about a path is a parameter. -/
namespace MoCodes.Utils.File

abbrev Path := List Char

/-- `pwd dir` is what the shell prints for `cd dir;pwd`, the directory being put into the
command as it is. -/
structure World where
  entryOf : Path → Nat
  canRead : Path → Bool
  canWrite : Path → Bool
  isDir : Path → Bool
  pwd : Path → Path

def errOk : Int := 0

def errMallocFailed : Int := 0 - 11001

inductive MOUTILS_FILE_ABSPATH_STATE where
  | err
  | same
  | diff
  deriving DecidableEq

/-- The directory keeps the last '/'. -/
def getDirAndFilename (pFilepath : Path) : Path × Path :=
  if '/' ∈ pFilepath then (pFilepath.rdropWhile (· != '/'),pFilepath.rtakeWhile (· != '/'))
  else (['.','/'],pFilepath)

/-- Pass `i` reads up to `256*(i+1)` bytes. A pipe cannot be rewound, so a pass that fills
its buffer is lost and the next one goes on after it; the last byte read is the newline. -/
def readPwd (printed : Path) (i : Nat) : Path :=
  if 256*(i+1) ≤ printed.length then readPwd (printed.drop (256*(i+1))) (i+1)
  else printed.take (printed.length-1)
termination_by printed.length
decreasing_by simp only [List.length_drop]; omega

variable (world : World)

def getAbsDirPath (pDirpath : Path) : Option Path :=
  if world.isDir pDirpath then some (readPwd (world.pwd pDirpath) 0) else none

def getAbsFilePath (pFilepath : Path) : Option Path :=
  let info := getDirAndFilename pFilepath
  (getAbsDirPath world info.1).map fun pAbsDirpath => pAbsDirpath ++ '/'::info.2

def getFilepathSameState (pSrcFilepath pDstFilepath : Path) : Int × MOUTILS_FILE_ABSPATH_STATE :=
  if pSrcFilepath = pDstFilepath then (errOk,.same)
  else match getAbsFilePath world pSrcFilepath,getAbsFilePath world pDstFilepath with
    | some pSrcAbsFilepath,some pDstAbsFilepath =>
      if pSrcAbsFilepath = pDstAbsFilepath then (errOk,.same) else (errOk,.diff)
    | _,_ => (errMallocFailed,.err)

theorem getFilepathSameState_cases (pSrcFilepath pDstFilepath : Path) :
    getFilepathSameState world pSrcFilepath pDstFilepath = (errMallocFailed,.err) ∨
      getFilepathSameState world pSrcFilepath pDstFilepath = (errOk,.same) ∨
      getFilepathSameState world pSrcFilepath pDstFilepath = (errOk,.diff) := by
  unfold getFilepathSameState
  split
  · exact .inr (.inl rfl)
  · split
    · split
      · exact .inr (.inl rfl)
      · exact .inr (.inr rfl)
    · exact .inl rfl

end MoCodes.Utils.File
