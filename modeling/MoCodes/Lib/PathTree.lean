import Mathlib.Data.List.Induction

/-! Trees of directories with symbolic links, over any type of names: what the steps of a path lead to, and the
path that remains of them when it is only its text that is looked at. -/
namespace MoCodes.Lib.PathTree

variable {ν : Type}

inductive Step (ν : Type) where
  | here
  | up
  | name (name : ν)
  deriving DecidableEq

structure Route (ν : Type) where
  absolute : Bool
  steps : List (Step ν)

/-- Where a route begins for one who is at `spot`. -/
def Route.start (route : Route ν) (spot : List ν) : List ν := if route.absolute then [] else spot

inductive Node (ν : Type) where
  | dir
  | file (inode : Nat)
  | link (target : Route ν)

/-- What a path stands for; the last name of a path may be a new one. -/
inductive Place (ν : Type) where
  | dir (place : List ν)
  | file (inode : Nat)
  | absent (place : List ν) (name : ν)
  deriving DecidableEq

variable [DecidableEq ν]

/-- Every entry under the names on the way to it; the root has none. -/
def lookup (entries : List (List ν × Node ν)) (place : List ν) : Option (Node ν) :=
  if place = [] then some .dir else (entries.find? fun entry => entry.1 = place).map Prod.snd

theorem lookup_entry {entries : List (List ν × Node ν)} {place : List ν} {node : Node ν}
    (here : lookup entries place = some node) : place = [] ∧ node = .dir ∨ (place,node) ∈ entries := by
  rw [lookup] at here
  split at here
  · rename_i root
    exact Or.inl ⟨root,(Option.some.inj here).symm⟩
  · obtain ⟨⟨key,entry⟩,found,rfl⟩ := Option.map_eq_some_iff.mp here
    obtain rfl : key = place := by simpa using List.find?_some found
    exact Or.inr (List.mem_of_find?_eq_some found)

/-- What has an entry is in a directory. -/
structure LinkTree (ν : Type) [DecidableEq ν] where
  entries : List (List ν × Node ν)
  closed : ∀ place name, lookup entries (place ++ [name]) ≠ none → lookup entries place = some .dir

namespace LinkTree

variable (tree : LinkTree ν)

def node (place : List ν) : Option (Node ν) := lookup tree.entries place

/-- Steps from a directory; `follow` goes on behind a link. -/
def walk (follow : List ν → List (Step ν) → Option (Place ν)) : List ν → List (Step ν) → Option (Place ν)
  | spot,[] => some (.dir spot)
  | spot,.here :: rest => walk follow spot rest
  | spot,.up :: rest => walk follow spot.dropLast rest
  | spot,.name name :: rest =>
    match tree.node (spot ++ [name]) with
    | some .dir => walk follow (spot ++ [name]) rest
    | some (.file inode) => if rest = [] then some (.file inode) else none
    | some (.link target) => follow (target.start spot) (target.steps ++ rest)
    | none => if rest = [] then some (.absent spot name) else none

/-- Over so many links at most. -/
def resolve : Nat → List ν → List (Step ν) → Option (Place ν)
  | 0 => tree.walk fun _ _ => none
  | links+1 => tree.walk (resolve links)

/-- Over no link. -/
def direct (spot : List ν) (steps : List (Step ν)) : Option (Place ν) := tree.resolve 0 spot steps

/-- What remains of a path when a step up takes the last name away, `isDir` being asked before that and at
the end. -/
def logical (isDir : List ν → Bool) : List ν → List (Step ν) → Option (List ν)
  | names,[] => if isDir names then some names else none
  | names,.here :: rest => logical isDir names rest
  | names,.up :: rest => if isDir names then logical isDir names.dropLast rest else none
  | names,.name name :: rest => logical isDir (names ++ [name]) rest

theorem node_root : tree.node [] = some .dir := rfl

variable {tree} {spot place : List ν} {name : ν} {steps front rest : List (Step ν)} {result : Place ν}

theorem node_parent {node : Node ν} (here : tree.node (place ++ [name]) = some node) : tree.node place = some .dir := by
  have entered : lookup tree.entries (place ++ [name]) ≠ none := by
    intro none
    rw [LinkTree.node,none] at here
    cases here
  exact tree.closed place name entered

theorem node_front {back : List ν} {node : Node ν} (here : tree.node (place ++ back) = some node) (more : back ≠ []) :
    tree.node place = some .dir := by
  induction back using List.reverseRecOn generalizing node with
  | nil => exact absurd rfl more
  | append_singleton back last ih =>
    rw [← List.append_assoc] at here
    cases back with
    | nil => exact node_parent (by rwa [List.append_nil] at here)
    | cons next back => exact ih (node_parent here) (List.cons_ne_nil _ _)

theorem node_entry {node : Node ν} (here : tree.node place = some node) :
    place = [] ∧ node = .dir ∨ (place,node) ∈ tree.entries := lookup_entry here

theorem node_mem {node : Node ν} (here : tree.node (place ++ [name]) = some node) :
    name ∈ tree.entries.flatMap Prod.fst := by
  rcases node_entry here with ⟨root,_⟩ | among
  · exact absurd root (List.concat_ne_nil _ _)
  · exact List.mem_flatMap.mpr ⟨_,among,List.mem_append_right _ List.mem_cons_self⟩

theorem node_dropLast (here : tree.node place = some .dir) : tree.node place.dropLast = some .dir := by
  induction place using List.reverseRecOn with
  | nil => rfl
  | append_singleton place last =>
    rw [List.dropLast_concat]
    exact node_parent here

section Walks

variable {follow : List ν → List (Step ν) → Option (Place ν)}

theorem walk_dir (here : tree.node (spot ++ [name]) = some .dir) :
    tree.walk follow spot (.name name :: rest) = tree.walk follow (spot ++ [name]) rest := by
  rw [walk,here]

theorem walk_link {target : Route ν} (here : tree.node (spot ++ [name]) = some (.link target)) :
    tree.walk follow spot (.name name :: rest) = follow (target.start spot) (target.steps ++ rest) := by
  rw [walk,here]

theorem walk_file {inode : Nat} (here : tree.node (spot ++ [name]) = some (.file inode)) :
    tree.walk follow spot [.name name] = some (.file inode) := by
  rw [walk,here]
  exact if_pos rfl

theorem walk_absent (here : tree.node (spot ++ [name]) = none) :
    tree.walk follow spot [.name name] = some (.absent spot name) := by
  rw [walk,here]
  exact if_pos rfl

theorem walk_name (reached : tree.walk follow spot (.name name :: rest) = some result) :
    (tree.node (spot ++ [name]) = some .dir ∧ tree.walk follow (spot ++ [name]) rest = some result) ∨
      (∃ target, tree.node (spot ++ [name]) = some (.link target) ∧
        follow (target.start spot) (target.steps ++ rest) = some result) ∨
      (∃ inode, tree.node (spot ++ [name]) = some (.file inode) ∧ rest = [] ∧ result = .file inode) ∨
      (tree.node (spot ++ [name]) = none ∧ rest = [] ∧ result = .absent spot name) := by
  rw [walk] at reached
  cases here : tree.node (spot ++ [name]) with
  | none =>
    rw [here] at reached
    obtain ⟨none,same⟩ := Option.ite_none_right_eq_some.mp reached
    exact Or.inr (Or.inr (Or.inr ⟨rfl,none,(Option.some.inj same).symm⟩))
  | some node =>
    rw [here] at reached
    cases node with
    | dir => exact Or.inl ⟨rfl,reached⟩
    | link target => exact Or.inr (Or.inl ⟨target,rfl,reached⟩)
    | file inode =>
      obtain ⟨none,same⟩ := Option.ite_none_right_eq_some.mp reached
      exact Or.inr (Or.inr (Or.inl ⟨inode,rfl,none,(Option.some.inj same).symm⟩))

theorem walk_append_dir (onward : ∀ spot steps place, follow spot steps = some (.dir place) →
      (∀ other, tree.walk other place rest = some result) → follow spot (steps ++ rest) = some result) {place : List ν}
    (reached : tree.walk follow spot front = some (.dir place)) (plain : ∀ other, tree.walk other place rest = some result) :
    tree.walk follow spot (front ++ rest) = some result := by
  induction front generalizing spot with
  | nil =>
    obtain rfl := Place.dir.inj (Option.some.inj reached)
    exact plain follow
  | cons step front ih =>
    cases step with
    | here => exact ih reached
    | up => exact ih reached
    | name name =>
      rw [List.cons_append]
      rcases walk_name reached with ⟨here,reached⟩ | ⟨target,here,reached⟩ | ⟨_,_,_,other⟩ | ⟨_,_,other⟩
      · rw [walk_dir here]
        exact ih reached
      · rw [walk_link here,← List.append_assoc]
        exact onward _ _ _ reached plain
      · cases other
      · cases other

/-- What the front of a path leads to, if the whole path leads anywhere. -/
theorem walk_front (onward : ∀ spot steps rest, (follow spot (steps ++ rest)).isSome → (follow spot steps).isSome)
    (whole : (tree.walk follow spot (front ++ rest)).isSome) : (tree.walk follow spot front).isSome := by
  induction front generalizing spot with
  | nil => rfl
  | cons step front ih =>
    cases step with
    | here => exact ih whole
    | up => exact ih whole
    | name name =>
      obtain ⟨result,reached⟩ := Option.isSome_iff_exists.mp whole
      rcases walk_name reached with ⟨here,reached⟩ | ⟨target,here,reached⟩ | ⟨inode,here,last,_⟩ | ⟨here,last,_⟩
      · rw [walk_dir here]
        exact ih (Option.isSome_iff_exists.mpr ⟨result,reached⟩)
      · rw [walk_link here]
        refine onward _ _ rest (Option.isSome_iff_exists.mpr ⟨result,?_⟩)
        rw [List.append_assoc]
        exact reached
      · rw [(List.append_eq_nil_iff.mp last).1,walk_file here]
        rfl
      · rw [(List.append_eq_nil_iff.mp last).1,walk_absent here]
        rfl

theorem walk_direct (reached : tree.direct spot steps = some result) : tree.walk follow spot steps = some result := by
  rw [direct,resolve] at reached
  induction steps generalizing spot with
  | nil => exact reached
  | cons step steps ih =>
    cases step with
    | here => exact ih reached
    | up => exact ih reached
    | name name =>
      rcases walk_name reached with ⟨here,reached⟩ | ⟨_,_,none⟩ | ⟨inode,here,rfl,rfl⟩ | ⟨here,rfl,rfl⟩
      · rw [walk_dir here]
        exact ih reached
      · cases none
      · exact walk_file here
      · exact walk_absent here

end Walks

theorem resolve_direct (links : Nat) (reached : tree.direct spot steps = some result) :
    tree.resolve links spot steps = some result := by
  cases links with
  | zero => exact reached
  | succ links => exact walk_direct reached

theorem resolve_append {links : Nat} {place : List ν} (reached : tree.resolve links spot front = some (.dir place))
    (plain : tree.direct place rest = some result) : tree.resolve links spot (front ++ rest) = some result := by
  induction links generalizing spot front place with
  | zero => exact walk_append_dir (fun _ _ _ none _ => by cases none) reached fun _ => walk_direct plain
  | succ links ih => exact walk_append_dir (fun _ _ _ dir always => ih dir (always _)) reached fun _ => walk_direct plain

/-- A front over no link only says where the rest begins. -/
theorem walk_direct_append {follow : List ν → List (Step ν) → Option (Place ν)}
    (reached : tree.direct spot front = some (.dir place)) (rest : List (Step ν)) :
    tree.walk follow spot (front ++ rest) = tree.walk follow place rest := by
  rw [direct,resolve] at reached
  induction front generalizing spot with
  | nil =>
    obtain rfl := Place.dir.inj (Option.some.inj reached)
    rfl
  | cons step front ih =>
    cases step with
    | here => exact ih reached
    | up => exact ih reached
    | name name =>
      rw [List.cons_append]
      rcases walk_name reached with ⟨here,reached⟩ | ⟨_,_,none⟩ | ⟨_,_,_,other⟩ | ⟨_,_,other⟩
      · rw [walk_dir here]
        exact ih reached
      · cases none
      · cases other
      · cases other

theorem resolve_direct_append (links : Nat) (reached : tree.direct spot front = some (.dir place)) (rest : List (Step ν)) :
    tree.resolve links spot (front ++ rest) = tree.resolve links place rest := by
  cases links with
  | zero => exact walk_direct_append reached rest
  | succ links => exact walk_direct_append reached rest

theorem resolve_nil (links : Nat) (spot : List ν) : tree.resolve links spot [] = some (.dir spot) := by
  cases links <;> rfl

theorem resolve_here (links : Nat) (spot : List ν) (rest : List (Step ν)) :
    tree.resolve links spot (.here :: rest) = tree.resolve links spot rest := by
  cases links <;> rfl

theorem resolve_absent (links : Nat) (here : tree.node (spot ++ [name]) = none) :
    tree.resolve links spot [.name name] = some (.absent spot name) := by
  cases links with
  | zero => exact walk_absent here
  | succ links => exact walk_absent here

theorem resolve_file (links : Nat) {inode : Nat} (here : tree.node (spot ++ [name]) = some (.file inode)) :
    tree.resolve links spot [.name name] = some (.file inode) := by
  cases links with
  | zero => exact walk_file here
  | succ links => exact walk_file here

theorem resolve_front {links : Nat} (whole : (tree.resolve links spot (front ++ rest)).isSome) :
    (tree.resolve links spot front).isSome := by
  induction links generalizing spot front rest with
  | zero => exact walk_front (fun _ _ _ none => by cases none) whole
  | succ links ih => exact walk_front (fun _ _ _ => ih) whole

/-- What is reached is in the tree. -/
def Sound (tree : LinkTree ν) : Place ν → Prop
  | .dir place => tree.node place = some .dir
  | .file inode => ∃ place name, tree.node (place ++ [name]) = some (.file inode)
  | .absent place name => tree.node place = some .dir ∧ tree.node (place ++ [name]) = none

theorem walk_sound {follow : List ν → List (Step ν) → Option (Place ν)}
    (sound : ∀ spot steps result, tree.node spot = some .dir → follow spot steps = some result → tree.Sound result)
    (start : tree.node spot = some .dir) (reached : tree.walk follow spot steps = some result) : tree.Sound result := by
  induction steps generalizing spot with
  | nil =>
    obtain rfl := Option.some.inj reached
    exact start
  | cons step steps ih =>
    cases step with
    | here => exact ih start reached
    | up => exact ih (node_dropLast start) reached
    | name name =>
      rcases walk_name reached with ⟨here,reached⟩ | ⟨target,_,reached⟩ | ⟨inode,here,_,rfl⟩ | ⟨here,_,rfl⟩
      · exact ih here reached
      · refine sound _ _ _ ?_ reached
        rw [Route.start]
        split
        · exact tree.node_root
        · exact start
      · exact ⟨spot,name,here⟩
      · exact ⟨start,here⟩

theorem resolve_sound {links : Nat} (start : tree.node spot = some .dir) (reached : tree.resolve links spot steps = some result) :
    tree.Sound result := by
  induction links generalizing spot steps result with
  | zero => exact walk_sound (fun _ _ _ _ none => by cases none) start reached
  | succ links ih => exact walk_sound (fun _ _ _ => ih) start reached

section Names

variable (good : ν → Prop) (targets : ∀ place target, tree.node place = some (.link target) →
  ∀ name, .name name ∈ target.steps → good name)
include targets

theorem walk_new {follow : List ν → List (Step ν) → Option (Place ν)}
    (onward : ∀ spot steps, (∀ name, .name name ∈ steps → good name) → ∀ place name,
      follow spot steps = some (.absent place name) → good name)
    (among : ∀ name, .name name ∈ steps → good name) {name : ν}
    (reached : tree.walk follow spot steps = some (.absent place name)) : good name := by
  induction steps generalizing spot with
  | nil => cases reached
  | cons step steps ih =>
    have later : ∀ name, .name name ∈ steps → good name := fun name inside => among name (List.mem_cons_of_mem _ inside)
    cases step with
    | here => exact ih later reached
    | up => exact ih later reached
    | name first =>
      rcases walk_name reached with ⟨_,reached⟩ | ⟨target,here,reached⟩ | ⟨_,_,_,other⟩ | ⟨_,_,same⟩
      · exact ih later reached
      · refine onward _ _ (fun name inside => ?_) _ _ reached
        rcases List.mem_append.mp inside with first | behind
        · exact targets _ target here name first
        · exact later name behind
      · cases other
      · obtain ⟨_,rfl⟩ := Place.absent.inj same
        exact among _ List.mem_cons_self

/-- A new name comes from the path or from a link. -/
theorem resolve_new {links : Nat} (among : ∀ name, .name name ∈ steps → good name) {name : ν}
    (reached : tree.resolve links spot steps = some (.absent place name)) : good name := by
  induction links generalizing spot steps place name with
  | zero => exact walk_new good targets (fun _ _ _ _ _ none => by cases none) among reached
  | succ links ih => exact walk_new good targets (fun _ _ inside _ _ => ih inside) among reached

end Names

/-- Where no link leads anywhere, all that is reached is reached without one. -/
theorem direct_of_resolve {links : Nat}
    (idle : ∀ place name target, tree.node (place ++ [name]) = some (.link target) →
      tree.resolve links place [.name name] = none)
    (reached : tree.resolve links spot steps = some result) : tree.direct spot steps = some result := by
  cases links with
  | zero => exact reached
  | succ links =>
    rw [direct,resolve]
    rw [resolve] at reached
    induction steps generalizing spot with
    | nil => exact reached
    | cons step steps ih =>
      cases step with
      | here => exact ih reached
      | up => exact ih reached
      | name name =>
        rcases walk_name reached with ⟨here,reached⟩ | ⟨target,here,reached⟩ | ⟨inode,here,rfl,rfl⟩ | ⟨here,rfl,rfl⟩
        · rw [walk_dir here]
          exact ih reached
        · have leads : (tree.resolve links (target.start spot) (target.steps ++ [])).isSome := by
            rw [List.append_nil]
            exact resolve_front (Option.isSome_iff_exists.mpr ⟨result,reached⟩)
          have nowhere := idle spot name target here
          rw [resolve,walk_link here] at nowhere
          rw [nowhere] at leads
          cases leads
        · exact walk_file here
        · exact walk_absent here

theorem direct_names {names : List ν} (here : tree.node (spot ++ names) = some .dir) :
    tree.direct spot (names.map .name) = some (.dir (spot ++ names)) := by
  induction names generalizing spot with
  | nil =>
    rw [List.append_nil]
    rfl
  | cons name names ih =>
    rw [List.append_cons] at here ⊢
    have next : tree.node (spot ++ [name]) = some .dir := by
      by_cases none : names = []
      · rw [none,List.append_nil] at here
        exact here
      · exact node_front here none
    have onward := ih here
    rw [direct,resolve] at onward ⊢
    rw [List.map_cons,walk_dir next]
    exact onward

theorem direct_names_dir {names : List ν} (reached : tree.direct spot (names.map .name) = some (.dir place)) :
    place = spot ++ names := by
  induction names generalizing spot with
  | nil =>
    rw [List.append_nil]
    exact (Place.dir.inj (Option.some.inj reached)).symm
  | cons name names ih =>
    rw [direct,resolve,List.map_cons] at reached
    rw [List.append_cons]
    rcases walk_name reached with ⟨_,reached⟩ | ⟨_,_,none⟩ | ⟨_,_,_,other⟩ | ⟨_,_,other⟩
    · exact ih reached
    · cases none
    · cases other
    · cases other

theorem direct_append (more : rest ≠ []) (reached : tree.direct spot (front ++ rest) = some result) :
    ∃ place, tree.direct spot front = some (.dir place) ∧ tree.direct place rest = some result := by
  induction front generalizing spot with
  | nil => exact ⟨spot,rfl,reached⟩
  | cons step front ih =>
    have behind : front ++ rest ≠ [] := fun none => more (List.append_eq_nil_iff.mp none).2
    rw [direct,resolve] at reached
    cases step with
    | here => exact ih reached
    | up => exact ih reached
    | name name =>
      rw [List.cons_append] at reached
      rw [direct,resolve]
      rcases walk_name reached with ⟨here,reached⟩ | ⟨_,_,none⟩ | ⟨_,_,last,_⟩ | ⟨_,last,_⟩
      · rw [walk_dir here]
        exact ih reached
      · cases none
      · exact absurd last behind
      · exact absurd last behind

theorem direct_passes (reached : tree.direct spot steps = some (.dir place)) (among : .name name ∈ steps) :
    ∃ front, tree.node (front ++ [name]) = some .dir := by
  obtain ⟨front,rest,rfl⟩ := List.append_of_mem among
  obtain ⟨here,_,onward⟩ := direct_append (List.cons_ne_nil _ _) reached
  rcases walk_name onward with ⟨dir,_⟩ | ⟨_,_,none⟩ | ⟨_,_,_,other⟩ | ⟨_,_,other⟩
  · exact ⟨here,dir⟩
  · cases none
  · cases other
  · cases other

section Logical

variable {isDir : List ν → Bool}

/-- Over no link the text of a path does not mislead. -/
theorem logical_direct (dirs : ∀ place, tree.node place = some .dir → isDir place = true) (start : tree.node spot = some .dir)
    (reached : tree.direct spot steps = some (.dir place)) : logical isDir spot steps = some place := by
  induction steps generalizing spot with
  | nil =>
    obtain rfl := Place.dir.inj (Option.some.inj reached)
    rw [logical,dirs _ start]
    rfl
  | cons step steps ih =>
    rw [direct,resolve] at reached
    cases step with
    | here => exact ih start reached
    | up =>
      rw [logical,dirs _ start]
      exact ih (node_dropLast start) reached
    | name name =>
      rw [logical]
      rcases walk_name reached with ⟨here,reached⟩ | ⟨_,_,none⟩ | ⟨_,_,_,other⟩ | ⟨_,_,other⟩
      · exact ih here reached
      · cases none
      · cases other
      · cases other

omit [DecidableEq ν] in
theorem logical_names (names : List ν) (rest : List (Step ν)) :
    logical isDir spot (names.map .name ++ rest) = logical isDir (spot ++ names) rest := by
  induction names generalizing spot with
  | nil =>
    rw [List.append_nil]
    rfl
  | cons name names ih =>
    rw [List.map_cons,List.cons_append,logical,ih,List.append_assoc,List.singleton_append]

end Logical

end LinkTree

end MoCodes.Lib.PathTree
