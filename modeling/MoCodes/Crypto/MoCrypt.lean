import Mathlib.Tactic.Common

/-! What moCrypt.h gives to more than one algorithm. -/
namespace MoCodes.Crypto

inductive MOCRYPT_METHOD where
  | encrypt
  | decrypt
  deriving DecidableEq

def base64ErrInputNull : Int := 0 - 22000

def base64ErrFileOpenFail : Int := 0 - 22001

def base64ErrMallocFailed : Int := 0 - 22002

def base64ErrGetFileDiffStateFail : Int := 0 - 22004

def base64ErrOther : Int := 0 - 22005

def desErrInputNull : Int := 0 - 23000

def desErrMallocFailed : Int := 0 - 23001

def desErrInputError : Int := 0 - 23003

def desKeyLen : Nat := 8

end MoCodes.Crypto
