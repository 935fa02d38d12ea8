import MoCodes.Lib.KeyStream
import Mathlib.GroupTheory.Perm.Basic
import Mathlib.Logic.Equiv.Fin.Basic
import Mathlib.Data.Fin.Basic

/-! The cipher as the head of moCrypt_RC4.c describes it: a permutation of the 256 byte
values, shuffled with the key, then stepped once for every byte of the text. All index
arithmetic is modulo 256. -/
namespace MoCodes.Crypto.Rc4Reference
open MoCodes.Lib

structure State where
  S : Equiv.Perm (Fin 256)
  i : Fin 256
  j : Fin 256

def keyValue (key : List UInt8) (i : Fin 256) : Fin 256 :=
  Fin.ofNat 256 (key.getD (i.val%key.length) 0).toNat

/-- Step 2 for one index. -/
def shuffle (key : List UInt8) (state : Equiv.Perm (Fin 256) × Fin 256) (i : Fin 256) :
    Equiv.Perm (Fin 256) × Fin 256 :=
  let j := state.2+state.1 i+keyValue key i
  (state.1 * Equiv.swap i j,j)

def schedule (key : List UInt8) : Equiv.Perm (Fin 256) :=
  ((List.finRange 256).foldl (shuffle key) (1,0)).1

/-- Step 3 for one byte of the text. -/
def step (state : State) : UInt8 × State :=
  let i := state.i+1
  let j := state.j+state.S i
  let S := state.S * Equiv.swap i j
  (UInt8.ofNat (S (S i+S j)).val,⟨S,i,j⟩)

def start (key : List UInt8) : State := ⟨schedule key,0,0⟩

def cipherStream (key : List UInt8) : Nat → UInt8 := KeyStream.symbol step (start key)

def crypt (key text : List UInt8) : List UInt8 :=
  KeyStream.mask (· ^^^ ·) (cipherStream key) text

end MoCodes.Crypto.Rc4Reference
