import Mathlib.Data.List.Basic
import Mathlib.Tactic.Common

/-! Texts cut into blocks of one size. A loop that turns block `i` of a text into block
`i` of the result is the concatenation over its blocks, and facts about it follow by
induction on the number of blocks. -/
namespace MoCodes.Lib.Blocks

variable {α β γ : Type} {size : Nat}

def blockAt (size : Nat) (text : List α) (i : Nat) : List α := (text.drop (i*size)).take size

theorem getD_blockAt (text : List α) (i : Nat) {k : Nat} (inside : k < size) (d : α) :
    (blockAt size text i).getD k d = text.getD (i*size+k) d := by
  simp only [blockAt,List.getD_eq_getElem?_getD,List.getElem?_take,List.getElem?_drop,if_pos inside]

/-- `for i < count`, every pass writing what `f` makes of block `i`. -/
def mapBlocks (size count : Nat) (f : List α → List β) (text : List α) : List β :=
  (List.range count).flatMap fun i => f (blockAt size text i)

theorem blockAt_length {text : List α} {i : Nat} (inside : (i+1)*size ≤ text.length) :
    (blockAt size text i).length = size := by
  rw [Nat.succ_mul] at inside
  rw [blockAt,List.length_take,List.length_drop]
  omega

theorem flatMap_blocks {text : List α} {count : Nat} {pass : Nat → List β} {f : List α → List β}
    (same : ∀ i, i < count → pass i = f (blockAt size text i)) :
    (List.range count).flatMap pass = mapBlocks size count f text :=
  List.flatMap_congr fun i inside => same i (List.mem_range.mp inside)

section First

variable {first : List α} (full : first.length = size) (rest : List α)
include full

theorem blockAt_zero : blockAt size (first++rest) 0 = first := by
  rw [blockAt,Nat.zero_mul,List.drop_zero,List.take_left' full]

theorem blockAt_succ (i : Nat) : blockAt size (first++rest) (i+1) = blockAt size rest i := by
  rw [blockAt,blockAt,Nat.succ_mul,Nat.add_comm,← List.drop_drop,List.drop_left' full]

theorem mapBlocks_succ (count : Nat) (f : List α → List β) :
    mapBlocks size (count+1) f (first++rest) = f first ++ mapBlocks size count f rest := by
  simp only [mapBlocks,List.range_succ_eq_map,List.flatMap_cons,List.flatMap_map,
    blockAt_zero full,blockAt_succ full]

end First

@[simp] theorem mapBlocks_zero (f : List α → List β) (text : List α) :
    mapBlocks size 0 f text = [] := rfl

/-- Blocks one behind the other count on. -/
theorem range_blocks (size count : Nat) :
    ((List.range count).flatMap fun i => (List.range size).map (i*size+·)) = List.range (count*size) := by
  induction count with
  | zero => rw [Nat.zero_mul,List.range_zero,List.flatMap_nil]
  | succ count ih =>
    rw [List.range_succ,List.flatMap_append,ih,List.flatMap_singleton,Nat.succ_mul,List.range_add]

/-- A text of whole blocks is nothing, or a block and a text of whole blocks. -/
theorem blocks_induction {P : Nat → List α → Prop} (nothing : P 0 [])
    (block : ∀ count first rest, first.length = size → rest.length = count*size → P count rest →
      P (count+1) (first++rest))
    (count : Nat) (text : List α) (whole : text.length = count*size) : P count text := by
  induction count generalizing text with
  | zero =>
    have none : text = [] := List.length_eq_zero_iff.mp (by omega)
    exact none ▸ nothing
  | succ count ih =>
    have full : (text.take size).length = size := by
      rw [List.length_take,whole,Nat.succ_mul]
      omega
    have left : (text.drop size).length = count*size := by
      rw [List.length_drop,whole,Nat.succ_mul]
      omega
    have split := block count (text.take size) (text.drop size) full left (ih _ left)
    rwa [List.take_append_drop] at split

theorem mapBlocks_append (f : List α → List β) (more : Nat) (back : List α) {count : Nat}
    {front : List α} (whole : front.length = count*size) :
    mapBlocks size (count+more) f (front++back) =
      mapBlocks size count f front ++ mapBlocks size more f back := by
  refine blocks_induction (P := fun count front => mapBlocks size (count+more) f (front++back) =
    mapBlocks size count f front ++ mapBlocks size more f back) ?_ ?_ count front whole
  · simp
  · intro count first rest full _ ih
    have shifted : count+1+more = (count+more)+1 := by omega
    rw [shifted,List.append_assoc,mapBlocks_succ full,mapBlocks_succ full,ih,List.append_assoc]

theorem blocks_split (positive : 0 < size) (text : List α) :
    ∃ count front last, text = front++last ∧ front.length = count*size ∧ last.length < size := by
  have cut := Nat.div_add_mod text.length size
  rw [Nat.mul_comm] at cut
  refine ⟨text.length/size,text.take (text.length/size*size),text.drop (text.length/size*size),
    (List.take_append_drop _ _).symm,?_,?_⟩
  · rw [List.length_take]
    omega
  · have below := Nat.mod_lt text.length positive
    rw [List.length_drop]
    omega

theorem blocks_split_last (positive : 0 < size) {text : List α} (some : text ≠ []) :
    ∃ count front last, text = front++last ∧ front.length = count*size ∧ last ≠ [] ∧
      last.length ≤ size := by
  have long := List.length_pos_of_ne_nil some
  have cut := Nat.div_add_mod (text.length-1) size
  rw [Nat.mul_comm] at cut
  have below := Nat.mod_lt (text.length-1) positive
  refine ⟨(text.length-1)/size,text.take ((text.length-1)/size*size),
    text.drop ((text.length-1)/size*size),(List.take_append_drop _ _).symm,?_,?_,?_⟩
  · rw [List.length_take]
    omega
  · apply List.ne_nil_of_length_pos
    rw [List.length_drop]
    omega
  · rw [List.length_drop]
    omega

/-- A text that is not empty is one last block, or a block before such a text. -/
theorem last_induction {P : List α → Prop} (positive : 0 < size)
    (short : ∀ last, last ≠ [] → last.length ≤ size → P last)
    (block : ∀ first rest, first.length = size → rest ≠ [] → P rest → P (first++rest))
    {text : List α} (some : text ≠ []) : P text := by
  obtain ⟨count,front,last,rfl,whole,more,bound⟩ := blocks_split_last positive some
  refine blocks_induction (P := fun _ front => P (front++last)) ?_ ?_ count front whole
  · exact short last more bound
  · intro count first rest full _ ih
    rw [List.append_assoc]
    exact block first (rest++last) full (by simp [more]) ih

/-- What reading the text `size` at a time returns until nothing is left. -/
def chunks (size : Nat) (text : List α) : List (List α) :=
  (List.range ((text.length+size-1)/size)).map (blockAt size text)

theorem chunks_nil (positive : 0 < size) : chunks size ([] : List α) = [] := by
  have none : (0+size-1)/size = 0 := Nat.div_eq_of_lt (by omega)
  rw [chunks,List.length_nil,none]
  rfl

theorem chunks_last {last : List α} (some : last ≠ []) (short : last.length ≤ size) :
    chunks size last = [last] := by
  have long := List.length_pos_of_ne_nil some
  have one : (last.length+size-1)/size = 1 := by
    rw [Nat.div_eq_iff (by omega)]
    omega
  rw [chunks,one]
  simp [blockAt,List.take_of_length_le short]

theorem chunks_block {first : List α} (full : first.length = size) (positive : 0 < size)
    (rest : List α) : chunks size (first++rest) = first::chunks size rest := by
  have more : ((first++rest).length+size-1)/size = (rest.length+size-1)/size+1 := by
    have shifted : (first++rest).length+size-1 = rest.length+size-1+size := by
      rw [List.length_append,full]
      omega
    rw [shifted,Nat.add_div_right _ positive]
  rw [chunks,more,List.range_succ_eq_map,List.map_cons,List.map_map,blockAt_zero full]
  simp only [chunks,Function.comp_def,blockAt_succ full,Nat.succ_eq_add_one]

theorem chunks_flatten (positive : 0 < size) (text : List α) : (chunks size text).flatten = text := by
  rcases eq_or_ne text [] with rfl | some
  · rw [chunks_nil positive]
    rfl
  · refine last_induction (P := fun text => (chunks size text).flatten = text) positive ?_ ?_ some
    · intro last more short
      rw [chunks_last more short]
      exact List.append_nil last
    · intro first rest full _ ih
      rw [chunks_block full positive,List.flatten_cons,ih]

theorem mapBlocks_length {width : Nat} {f : List α → List β}
    (keeps : ∀ block, block.length = size → (f block).length = width) {count : Nat} {text : List α}
    (whole : text.length = count*size) : (mapBlocks size count f text).length = count*width := by
  refine blocks_induction (P := fun count text => (mapBlocks size count f text).length = count*width)
    ?_ ?_ count text whole
  · simp
  · intro count first rest full _ ih
    rw [mapBlocks_succ full,List.length_append,keeps first full,ih,Nat.succ_mul,Nat.add_comm]

theorem mapBlocks_inverse {width : Nat} {f : List α → List β} {g : List β → List α}
    (keeps : ∀ block, block.length = size → (f block).length = width)
    (undo : ∀ block, block.length = size → g (f block) = block) {count : Nat} {text : List α}
    (whole : text.length = count*size) :
    mapBlocks width count g (mapBlocks size count f text) = text := by
  refine blocks_induction
    (P := fun count text => mapBlocks width count g (mapBlocks size count f text) = text)
    ?_ ?_ count text whole
  · rfl
  · intro count first rest full _ ih
    rw [mapBlocks_succ full,mapBlocks_succ (keeps first full),undo first full,ih]

/-- The first `count` blocks as a list. -/
def cut (size count : Nat) (text : List α) : List (List α) := (List.range count).map (blockAt size text)

@[simp] theorem cut_length (count : Nat) (text : List α) : (cut size count text).length = count := by
  simp [cut]

theorem cut_succ {first : List α} (full : first.length = size) (count : Nat) (rest : List α) :
    cut size (count+1) (first++rest) = first::cut size count rest := by
  rw [cut,List.range_succ_eq_map,List.map_cons,List.map_map,blockAt_zero full]
  simp only [cut,Function.comp_def,blockAt_succ full,Nat.succ_eq_add_one]

theorem cut_append (more : Nat) (back : List α) {count : Nat} {front : List α}
    (whole : front.length = count*size) :
    cut size (count+more) (front++back) = cut size count front ++ cut size more back := by
  refine blocks_induction (P := fun count front => cut size (count+more) (front++back) =
    cut size count front ++ cut size more back) ?_ ?_ count front whole
  · simp [cut]
  · intro count first rest full _ ih
    have shifted : count+1+more = (count+more)+1 := by omega
    rw [shifted,List.append_assoc,cut_succ full,cut_succ full,ih,List.cons_append]

theorem cut_full {count : Nat} {text : List α} (inside : count*size ≤ text.length) :
    ∀ block ∈ cut size count text, block.length = size := by
  intro block member
  obtain ⟨i,bound,rfl⟩ := List.mem_map.mp member
  exact blockAt_length (Nat.le_trans (Nat.mul_le_mul_right size (List.mem_range.mp bound)) inside)

/-- Blocks that were put together are cut apart again, whatever follows them. -/
theorem cut_flatten {blocks : List (List α)} (full : ∀ block ∈ blocks, block.length = size)
    (rest : List α) : cut size blocks.length (blocks.flatten++rest) = blocks := by
  induction blocks with
  | nil => rfl
  | cons block blocks ih =>
    obtain ⟨first,others⟩ := List.forall_mem_cons.mp full
    rw [List.flatten_cons,List.append_assoc,List.length_cons,cut_succ first,ih others]

theorem flatten_cut {count : Nat} {text : List α} (whole : text.length = count*size) :
    (cut size count text).flatten = text := by
  refine blocks_induction (P := fun count text => (cut size count text).flatten = text)
    ?_ ?_ count text whole
  · rfl
  · intro count first rest full _ ih
    rw [cut_succ full,List.flatten_cons,ih]

theorem flatten_full_length {blocks : List (List α)} (full : ∀ block ∈ blocks, block.length = size) :
    blocks.flatten.length = blocks.length*size := by
  induction blocks with
  | nil => simp
  | cons block blocks ih =>
    obtain ⟨first,others⟩ := List.forall_mem_cons.mp full
    rw [List.flatten_cons,List.length_append,ih others,first,List.length_cons,Nat.succ_mul,Nat.add_comm]

end MoCodes.Lib.Blocks
