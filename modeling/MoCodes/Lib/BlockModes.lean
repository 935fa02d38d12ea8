import Mathlib.Tactic.Common

/-! Cipher block chaining over any blocks, any block function and any way to mix the
chaining value in. Both directions carry the previous cipher block, and either one undoes
the other. -/
namespace MoCodes.Lib.BlockModes

variable {β : Type} (E D : β → β) (mix : β → β → β)

def cbcEncrypt : β → List β → List β
  | _,[] => []
  | chain,block::blocks => E (mix block chain)::cbcEncrypt (E (mix block chain)) blocks

def cbcDecrypt : β → List β → List β
  | _,[] => []
  | chain,block::blocks => mix (D block) chain::cbcDecrypt block blocks

variable {E D mix} {B : β → Prop}

@[simp] theorem cbcEncrypt_length (chain : β) (blocks : List β) :
    (cbcEncrypt E mix chain blocks).length = blocks.length := by
  induction blocks generalizing chain with
  | nil => rfl
  | cons block blocks ih => rw [cbcEncrypt,List.length_cons,ih,List.length_cons]

@[simp] theorem cbcDecrypt_length (chain : β) (blocks : List β) :
    (cbcDecrypt D mix chain blocks).length = blocks.length := by
  induction blocks generalizing chain with
  | nil => rfl
  | cons block blocks ih => rw [cbcDecrypt,List.length_cons,ih,List.length_cons]

section Inverse

variable (mixes : ∀ {a b}, B a → B b → B (mix a b)) (unmix : ∀ {a b}, B a → B b → mix (mix a b) b = a)
include mixes

theorem cbcEncrypt_blocks (keeps : ∀ {b}, B b → B (E b)) {chain : β} (started : B chain)
    {blocks : List β} (all : ∀ b ∈ blocks, B b) : ∀ b ∈ cbcEncrypt E mix chain blocks, B b := by
  induction blocks generalizing chain with
  | nil => intro b absent; cases absent
  | cons block blocks ih =>
    obtain ⟨first,rest⟩ := List.forall_mem_cons.mp all
    have cipher := keeps (mixes first started)
    exact List.forall_mem_cons.mpr ⟨cipher,ih cipher rest⟩

theorem cbcDecrypt_blocks (keeps : ∀ {b}, B b → B (D b)) {chain : β} (started : B chain)
    {blocks : List β} (all : ∀ b ∈ blocks, B b) : ∀ b ∈ cbcDecrypt D mix chain blocks, B b := by
  induction blocks generalizing chain with
  | nil => intro b absent; cases absent
  | cons block blocks ih =>
    obtain ⟨first,rest⟩ := List.forall_mem_cons.mp all
    exact List.forall_mem_cons.mpr ⟨mixes (keeps first) started,ih first rest⟩

include unmix

theorem cbcDecrypt_cbcEncrypt (keeps : ∀ {b}, B b → B (E b)) (undo : ∀ {b}, B b → D (E b) = b)
    {chain : β} (started : B chain) {blocks : List β} (all : ∀ b ∈ blocks, B b) :
    cbcDecrypt D mix chain (cbcEncrypt E mix chain blocks) = blocks := by
  induction blocks generalizing chain with
  | nil => rfl
  | cons block blocks ih =>
    obtain ⟨first,rest⟩ := List.forall_mem_cons.mp all
    have mixed := mixes first started
    rw [cbcEncrypt,cbcDecrypt,undo mixed,unmix first started,ih (keeps mixed) rest]

omit mixes in
theorem cbcEncrypt_cbcDecrypt (keeps : ∀ {b}, B b → B (D b)) (undo : ∀ {b}, B b → E (D b) = b)
    {chain : β} (started : B chain) {blocks : List β} (all : ∀ b ∈ blocks, B b) :
    cbcEncrypt E mix chain (cbcDecrypt D mix chain blocks) = blocks := by
  induction blocks generalizing chain with
  | nil => rfl
  | cons block blocks ih =>
    obtain ⟨first,rest⟩ := List.forall_mem_cons.mp all
    rw [cbcDecrypt,cbcEncrypt,unmix (keeps first) started,undo first,ih first rest]

end Inverse

end MoCodes.Lib.BlockModes
