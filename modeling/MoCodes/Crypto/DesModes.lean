import MoCodes.Lib.BlockModes
import MoCodes.Lib.Blocks
import MoCodes.Crypto.MoCrypt
import MoCodes.Crypto.DesInverse

/-! The exported routines of moCrypt_DES.c. A call hands over its buffers and gets them
back; no pointer is NULL, `pKey` is what lies at the key's address (at least the bytes
that are read), and `pDst` has room for the text. -/
namespace MoCodes.Crypto.Des
open MoCodes.Lib.Blocks MoCodes.Lib.BlockModes

def unitLenBytes : Nat := 8

def unitAt (text : List UInt8) (cnt : Nat) : List UInt8 := blockAt unitLenBytes text cnt

def ecbEnCrypt (pSrc : List UInt8) (srcLen : Nat) (pKey : List UInt8) : List UInt8 :=
  let keyEx := keyExpand pKey
  (List.range (srcLen/unitLenBytes)).flatMap fun cnt => unitEncrypt (unitAt pSrc cnt) keyEx

def ecbDeCrypt (pSrc : List UInt8) (srcLen : Nat) (pKey : List UInt8) : List UInt8 :=
  let keyEx := keyExpand pKey
  (List.range (srcLen/unitLenBytes)).flatMap fun cnt => unitDecrypt (unitAt pSrc cnt) keyEx

/-- The first unit is mixed with the initial vector, the others with the cipher unit before. -/
def cbcEnCrypt (pSrc : List UInt8) (srcLen : Nat) (pKey pIv : List UInt8) : List UInt8 :=
  let keyEx := keyExpand pKey
  (List.range' 1 (srcLen/unitLenBytes-1)).foldl (fun pDst cnt =>
    pDst ++ unitEncrypt (roundXor (unitAt pSrc cnt) (unitAt pDst (cnt-1))) keyEx)
    (unitEncrypt (roundXor (unitAt pSrc 0) pIv) keyEx)

def cbcDeCrypt (pSrc : List UInt8) (srcLen : Nat) (pKey pIv : List UInt8) : List UInt8 :=
  let keyEx := keyExpand pKey
  (List.range' 1 (srcLen/unitLenBytes-1)).foldl (fun pDst cnt =>
    pDst ++ roundXor (unitDecrypt (unitAt pSrc cnt) keyEx) (unitAt pSrc (cnt-1)))
    (roundXor (unitDecrypt (unitAt pSrc 0) keyEx) pIv)

structure Call where
  pSrc : List UInt8
  srcLen : Nat
  pKey : List UInt8
  keyLen : Nat
  pIv : List UInt8
  pDst : List UInt8
  pDstLen : Nat

def overwrite (pDst text : List UInt8) : List UInt8 := text ++ pDst.drop text.length

/-- What the single DES routines share. They make a copy of the key with eight bytes, but
then go on with `pKey` itself. -/
def desCrypt (crypt : MOCRYPT_METHOD → Call → List UInt8) (method : MOCRYPT_METHOD) (call : Call) :
    Int × Call :=
  if call.srcLen = 0 then (desErrInputError,call)
  else if call.srcLen%unitLenBytes ≠ 0 then (desErrInputError,call)
  else (0,{ call with pDst := overwrite call.pDst (crypt method call), pDstLen := call.srcLen })

def ecbCrypt (method : MOCRYPT_METHOD) (call : Call) : List UInt8 :=
  match method with
  | .encrypt => ecbEnCrypt call.pSrc call.srcLen call.pKey
  | .decrypt => ecbDeCrypt call.pSrc call.srcLen call.pKey

def cbcCrypt (method : MOCRYPT_METHOD) (call : Call) : List UInt8 :=
  match method with
  | .encrypt => cbcEnCrypt call.pSrc call.srcLen call.pKey call.pIv
  | .decrypt => cbcDeCrypt call.pSrc call.srcLen call.pKey call.pIv

def moCrypt_DES_ECB : MOCRYPT_METHOD → Call → Int × Call := desCrypt ecbCrypt

def moCrypt_DES_CBC : MOCRYPT_METHOD → Call → Int × Call := desCrypt cbcCrypt

/-- The first 24 bytes of the key, or the key and zeros. -/
def des3Key (pKey : List UInt8) (keyLen : Nat) : List UInt8 :=
  if desKeyLen*3 ≤ keyLen then pKey.take (desKeyLen*3)
  else pKey.take keyLen ++ List.replicate (desKeyLen*3-keyLen) 0

def opposite : MOCRYPT_METHOD → MOCRYPT_METHOD
  | .encrypt => .decrypt
  | .decrypt => .encrypt

/-- Three passes, from `pSrc` to `pDst`, on to `pTmp` and back to `pDst`; `pTmp` is what malloc
returned. -/
def des3Crypt (single : MOCRYPT_METHOD → Call → Int × Call) (pTmp : Option (List UInt8))
    (method : MOCRYPT_METHOD) (call : Call) : Int × Call :=
  if call.srcLen = 0 then (desErrInputError,call)
  else if call.srcLen%unitLenBytes ≠ 0 then (desErrInputError,call)
  else
    let key := des3Key call.pKey call.keyLen
    match pTmp with
    | none => (desErrMallocFailed,call)
    | some pTmp =>
      let first := single method
        { call with
          pKey := key.drop (if method = .encrypt then 0 else desKeyLen*2)
          keyLen := desKeyLen }
      let written := { call with pDst := first.2.pDst, pDstLen := first.2.pDstLen, pIv := first.2.pIv }
      if first.1 ≠ 0 then (first.1,written)
      else
        let second := single (opposite method)
          { written with
            pSrc := written.pDst
            srcLen := written.pDstLen
            pKey := key.drop desKeyLen
            keyLen := desKeyLen
            pDst := pTmp }
        if second.1 ≠ 0 then (second.1,{ written with pDstLen := second.2.pDstLen, pIv := second.2.pIv })
        else
          let third := single method
            { written with
              pSrc := second.2.pDst
              srcLen := second.2.pDstLen
              pKey := key.drop (if method = .encrypt then desKeyLen*2 else 0)
              keyLen := desKeyLen
              pIv := second.2.pIv
              pDstLen := second.2.pDstLen }
          (third.1,{ written with pDst := third.2.pDst, pDstLen := third.2.pDstLen, pIv := third.2.pIv })

def moCrypt_DES3_ECB : Option (List UInt8) → MOCRYPT_METHOD → Call → Int × Call :=
  des3Crypt moCrypt_DES_ECB

def moCrypt_DES3_CBC : Option (List UInt8) → MOCRYPT_METHOD → Call → Int × Call :=
  des3Crypt moCrypt_DES_CBC

end MoCodes.Crypto.Des
