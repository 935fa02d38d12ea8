import Mathlib.Tactic.Common
import Mathlib.Logic.Function.Iterate

/-! Stream ciphers over any alphabet: a stepping generator, the stream it puts out and
the masking of a text with it. Two masks of one text agree exactly where their keys do,
so a generator that is started anew every few symbols differs from the continuous one
as soon as its stream does not repeat. -/
namespace MoCodes.Lib.KeyStream

variable {σ τ κ α β : Type}

/-- A step puts out one symbol and reaches the next state. -/
def stream (step : σ → κ × σ) : Nat → σ → List κ
  | 0,_ => []
  | n+1,state => (step state).1 :: stream step n (step state).2

def symbol (step : σ → κ × σ) (start : σ) (n : Nat) : κ :=
  (step ((fun state => (step state).2)^[n] start)).1

def mask (combine : α → κ → β) (key : Nat → κ) (text : List α) : List β :=
  text.mapIdx fun n letter => combine letter (key n)

/-- The key of a generator that starts anew every `size` symbols. -/
def restart (size : Nat) (key : Nat → κ) (n : Nat) : κ := key (n % size)

theorem symbol_zero (step : σ → κ × σ) (start : σ) : symbol step start 0 = (step start).1 := rfl

theorem symbol_succ (step : σ → κ × σ) (start : σ) (n : Nat) :
    symbol step start (n+1) = symbol step (step start).2 n := rfl

section Masks

variable {combine : α → κ → β} {key other : Nat → κ}

@[simp] theorem mask_length (text : List α) : (mask combine key text).length = text.length := by
  simp [mask]

theorem mask_append (front back : List α) :
    mask combine key (front++back) =
      mask combine key front ++ mask combine (fun n => key (n+front.length)) back := by
  simp [mask,List.mapIdx_append]

theorem mask_congr {text : List α} (same : ∀ n, n < text.length → key n = other n) :
    mask combine key text = mask combine other text := by
  apply List.ext_getElem
  · simp
  · intro n first _
    have inside : n < text.length := by simpa using first
    simp [mask,same n inside]

/-- The stream laid under a text of its length is the mask with its symbols. -/
theorem zipWith_stream (step : σ → κ × σ) (start : σ) (text : List α) :
    List.zipWith combine text (stream step text.length start) =
      mask combine (symbol step start) text := by
  induction text generalizing start with
  | nil => rfl
  | cons letter text ih =>
    have tail := ih (step start).2
    simp only [mask,List.length_cons,stream,List.zipWith_cons_cons,List.mapIdx_cons] at tail ⊢
    rw [tail]
    rfl

variable (inj : ∀ letter, Function.Injective (combine letter))
include inj

/-- Masks tell keys apart at every position of the text. -/
theorem mask_eq_iff (text : List α) :
    mask combine key text = mask combine other text ↔ ∀ n, n < text.length → key n = other n := by
  constructor
  · intro same n inside
    have entry := congrArg (fun list => list[n]?) same
    simp only [mask,List.getElem?_mapIdx,List.getElem?_eq_getElem inside,Option.map_some,
      Option.some.injEq] at entry
    exact inj _ entry
  · exact mask_congr

end Masks

section Restart

variable {combine : α → κ → β} {key : Nat → κ} {size : Nat}

theorem restart_lt {n : Nat} (inside : n < size) : restart size key n = key n := by
  rw [restart,Nat.mod_eq_of_lt inside]

theorem restart_add_size (n : Nat) : restart size key (n+size) = restart size key n := by
  simp [restart]

/-- The first block is masked with the stream from its start, the text after it as a
text of its own. -/
theorem mask_restart (text : List α) :
    mask combine (restart size key) text =
      mask combine key (text.take size) ++ mask combine (restart size key) (text.drop size) := by
  have first : mask combine (restart size key) (text.take size) = mask combine key (text.take size) :=
    mask_congr fun _ inside => restart_lt (Nat.lt_of_lt_of_le inside (List.length_take_le size text))
  rw [← first]
  rcases Nat.lt_or_ge text.length size with short | long
  · rw [List.take_of_length_le (Nat.le_of_lt short),List.drop_eq_nil_of_le (Nat.le_of_lt short)]
    simp [mask]
  · have full : (text.take size).length = size := List.length_take_of_le long
    conv_lhs => rw [← List.take_append_drop size text,mask_append,full]
    congr 1
    exact mask_congr fun n _ => restart_add_size n

end Restart

theorem mask_mask {combine : α → κ → α} (undo : ∀ letter key, combine (combine letter key) key = letter)
    (key : Nat → κ) (text : List α) : mask combine key (mask combine key text) = text := by
  apply List.ext_getElem
  · simp
  · intro n _ _
    simp [mask,undo]

/-- Generators that keep related states and put out the same symbol have one key. -/
theorem symbol_related {step : σ → κ × σ} {step' : τ → κ × τ} (R : σ → τ → Prop)
    (output : ∀ s t, R s t → (step s).1 = (step' t).1)
    (keep : ∀ s t, R s t → R (step s).2 (step' t).2) {s : σ} {t : τ} (start : R s t) (n : Nat) :
    symbol step s n = symbol step' t n := by
  induction n generalizing s t with
  | zero => exact output s t start
  | succ n ih =>
    rw [symbol_succ,symbol_succ]
    exact ih (keep s t start)

end MoCodes.Lib.KeyStream
