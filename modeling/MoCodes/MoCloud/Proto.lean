import Mathlib.Tactic.Common
import Mathlib.Algebra.Group.Nat.Defs
import Mathlib.Algebra.Group.Int.Defs

/-! The requests, responses and codes of moCloudUtilsTypes.h. A `string` or a text in memory is
the list of its bytes, without the NUL. -/
namespace MoCodes.MoCloud

abbrev Text := List UInt8

def text (literal : String) : Text := literal.toList.map fun char => UInt8.ofNat char.toNat

/-- The text at the start of a buffer. -/
def cString (buffer : List UInt8) : Text := buffer.takeWhile (· != 0)

def markClient : Text := text "MOCLOUD_CLIENT"

def markServer : Text := text "MOCLOUD_SERVER"

def markDwld : Text := text "MOCLOUD_DWLD"

def heartbeatInteval : Nat := 3

def invalidSockId : Int := -1

def filenameMaxLen : Nat := 256

def usernameMaxLen : Nat := 32

def passwdMinLen : Nat := 6

def passwdMaxLen : Nat := 16

def dwldTaskMaxNum : Nat := 8

def dataUnitLen : Nat := 1024

inductive CmdId where
  | keyAgree
  | heartbeat | signUp | logIn | logOut | byebye
  | getFilelist
  | sendDwldPort | dwldStart | dwldPause | dwldStop
  | upldStart | upldPause | upldStop
  | playVideoStart | playVideoPause | playVideoStop
  | playAudioStart | playAudioPause | playAudioStop
  | playPicture
  | max
  deriving DecidableEq,Repr

def CmdId.toWire : CmdId → Nat
  | .keyAgree => 0
  | .heartbeat => 10
  | .signUp => 11
  | .logIn => 12
  | .logOut => 13
  | .byebye => 14
  | .getFilelist => 20
  | .sendDwldPort => 30
  | .dwldStart => 31
  | .dwldPause => 32
  | .dwldStop => 33
  | .upldStart => 40
  | .upldPause => 41
  | .upldStop => 42
  | .playVideoStart => 50
  | .playVideoPause => 51
  | .playVideoStop => 52
  | .playAudioStart => 60
  | .playAudioPause => 61
  | .playAudioStop => 62
  | .playPicture => 70
  | .max => 71

/-- `isNeedResp` of a request that a response is sent for. -/
def requestTypeNeedResponse : Nat := 1

def filetypeVideo : Int := 1

def filetypeAudio : Int := 2

def filetypePic : Int := 4

def filetypeOthers : Int := 8

def filetypeAll : Int := 15

def filetypeMax : Int := 16

/-- The single types of MOCLOUD_FILETYPE. -/
def filetypeBits : List Int := [filetypeVideo,filetypeAudio,filetypePic,filetypeOthers]

/-- Whether `value`, in a `char`, has all bits of a type. -/
def includes (type : Int) (value : Int8) : Bool := value &&& Int8.ofInt type == Int8.ofInt type

inductive HeartbeatRet where
  | failed | ok | filelistChanged
  deriving DecidableEq,Repr

def HeartbeatRet.code : HeartbeatRet → Int
  | .failed => 0
  | .ok => 1
  | .filelistChanged => 2

inductive SignUpRet where
  | ok | errDupUsername | errOthers
  deriving DecidableEq,Repr

def SignUpRet.code : SignUpRet → Int
  | .ok => 0
  | .errDupUsername => 1
  | .errOthers => 2

inductive LogInRet where
  | ok | hasLogin | usernameDonotExist | passwdWrong | others
  deriving DecidableEq,Repr

def LogInRet.code : LogInRet → Int
  | .ok => 0
  | .hasLogin => 1
  | .usernameDonotExist => 2
  | .passwdWrong => 3
  | .others => 4

inductive LogOutRet where
  | ok | donotLogin | usernameDonotExist | others
  deriving DecidableEq,Repr

def LogOutRet.code : LogOutRet → Int
  | .ok => 0
  | .donotLogin => 1
  | .usernameDonotExist => 2
  | .others => 3

inductive GetFilelistErr where
  | ok | donotLogin | typeInvalid | others
  deriving DecidableEq,Repr

def GetFilelistErr.code : GetFilelistErr → Int
  | .ok => 0
  | .donotLogin => 1
  | .typeInvalid => 2
  | .others => 3

/-- MOCLOUD_CTRL_REQUEST without its checksum; `cInfo` is `addInfo.cInfo[0]`. -/
structure CtrlRequest where
  mark : Text
  isNeedResp : Nat
  cmdId : Nat
  cInfo : Int8
  bodyLen : Int
  deriving DecidableEq

/-- MOCLOUD_CTRL_RESPONSE without its checksum. As declared, it is all zeros. -/
structure CtrlResponse where
  mark : Text := []
  cmdId : Nat := 0
  ret : Int := 0
  cInfo : Int8 := 0
  bodyLen : Int := 0
  deriving DecidableEq

structure FileinfoKey where
  filetype : Int
  filename : Text
  deriving DecidableEq

structure BasicFileinfo where
  key : FileinfoKey
  filesize : Nat
  ownerName : Text
  state : Int
  deriving DecidableEq

/-- `sizeof(MOCLOUD_BASIC_FILEINFO)`. -/
def basicFileinfoSize : Nat := 312

/-- MOCLOUD_DATA_HEADER without its checksum. -/
structure DataHeader where
  mark : Text
  fileId : Int
  isEof : Bool
  unitId : Int
  bodyLen : Int
  deriving DecidableEq

/-- A value of type `unsigned int`. -/
def toUInt (value : Nat) : Nat := value % 2^32

/-- A value of type `int`. -/
def toInt (value : Int) : Int := value.bmod (2^32)

theorem toInt_same (size : Nat) : toInt size = size ↔ size < 2^31 := by
  refine ⟨fun same => ?_,fun small => ?_⟩
  · have high : toInt size < 2^31 := by
      have bound := Int.bmod_lt (x := (size : Int)) (m := 2^32) (by decide)
      rw [toInt]
      omega
    omega
  · rw [toInt,Int.bmod_eq_of_le] <;> omega

/-- A value of type `size_t`. -/
def toSize (value : Int) : Nat := (value % 2^64).toNat

end MoCodes.MoCloud
