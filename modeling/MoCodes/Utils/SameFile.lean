import MoCodes.Lib.PathTree
import MoCodes.Lib.Spans
import MoCodes.Utils.PwdRead

/-! Whether moUtils_File_getFilepathSameState of file.c tells files apart: a tree with symbolic links, paths as
the system resolves them, and the shell, which goes by the text of a path. -/
namespace MoCodes.Utils.SameFile
open Lib.PathTree Lib.Spans Utils.File Utils.PwdRead

abbrev Name := List Char

/-- What stands between the slashes. -/
def pieces : Path → List Name
  | [] => [[]]
  | char :: path =>
    if char = '/' then [] :: pieces path
    else match pieces path with
      | [] => [[char]]
      | piece :: more => (char :: piece) :: more

def stepOf (piece : Name) : Step Name :=
  if piece = [] ∨ piece = ['.'] then .here else if piece = ['.','.'] then .up else .name piece

def isAbsolute (path : Path) : Bool := path.head? = some '/'

def route (path : Path) : Route Name := ⟨isAbsolute path,(pieces path).map stepOf⟩

def IsName (name : Name) : Prop := '/' ∉ name ∧ stepOf name = .name name

instance decidableIsName (name : Name) : Decidable (IsName name) := inferInstanceAs (Decidable (_ ∧ _))

/-- The NUL, and what means something to a shell. -/
def special : List Char := [0,9,10,32,34,35,36,37,38,39,40,41,42,59,60,61,62,63,91,92,96,124,126].map Char.ofNat

instance decidableLiteral (path : Path) : Decidable (∀ char ∈ path, char ∉ special) := List.decidableBAll _ _

def slashes (names : List Name) : Path := names.flatMap ('/' :: ·)

def pathOf (names : List Name) : Path := if names = [] then ['/'] else slashes names

/-- The line of `pwd`; POSIX lets a shell keep two slashes that a path begins with. -/
def pwdLine (two : Bool) (names : List Name) : Path := (if two then ['/'] else []) ++ pathOf names ++ ['\n']

def twoSlashes (path : Path) : Bool := path.take 2 = ['/','/'] ∧ (path.drop 2).head? ≠ some '/'

def leadsToDir (place : Option (Place Name)) : Bool :=
  match place with
  | some (.dir _) => true
  | _ => false

/-- What is printed by a shell that stays where it is if it cannot go. -/
def shell (tree : LinkTree Name) (maxLinks : Nat) (PWD : List Name) (keepsTwo : Bool) (dir : Path) : Path :=
  if dir.head? = some '-' then pwdLine false PWD
  else match LinkTree.logical (fun names => leadsToDir (tree.resolve maxLinks [] (names.map .name))) ((route dir).start PWD)
      (route dir).steps with
    | some names => pwdLine (keepsTwo && twoSlashes dir) names
    | none => pwdLine false PWD

/-- A tree, in which `maxLinks` links are followed at most, and a process in it. `PWD` is the path its shell
starts with, and `printed` what comes of `cd dir;pwd`: the shell goes where the text of the path leads, if all
of it is there, and stays if the path looks like an option. -/
structure System where
  tree : LinkTree Name
  maxLinks : Nat
  cwd : List Name
  PWD : List Name
  keepsTwo : Bool
  printed : Path → Path
  named : ∀ place name node, tree.node (place ++ [name]) = some node → IsName name
  texts : ∀ place target, tree.node place = some (.link target) → ∃ text, target = route text
  literal : ∀ place name node, tree.node (place ++ [name]) = some node → (∀ inode, node ≠ .file inode) →
    ∀ char ∈ name, char ∉ special
  there : tree.resolve maxLinks [] (PWD.map .name) = some (.dir cwd)
  logical : ∀ dir names, dir ≠ [] → (∀ char ∈ dir, char ∉ special) → dir.head? ≠ some '-' →
    LinkTree.logical (fun names => leadsToDir (tree.resolve maxLinks [] (names.map .name))) ((route dir).start PWD)
      (route dir).steps = some names → printed dir = pwdLine (keepsTwo && twoSlashes dir) names
  option : ∀ dir, dir.head? = some '-' → '/' ∈ dir → (∀ char ∈ dir, char ∉ special) → printed dir = pwdLine false PWD

namespace System

/-- A process at the root, with such a shell. -/
def atRoot (tree : LinkTree Name) (maxLinks : Nat) (keepsTwo : Bool)
    (named : ∀ name ∈ tree.entries.flatMap Prod.fst, IsName name ∧ ∀ char ∈ name, char ∉ special)
    (texts : ∀ place target, tree.node place = some (.link target) → ∃ text, target = route text) : System where
  tree := tree
  maxLinks := maxLinks
  cwd := []
  PWD := []
  keepsTwo := keepsTwo
  printed := shell tree maxLinks [] keepsTwo
  named _ name _ here := (named name (LinkTree.node_mem here)).1
  texts := texts
  literal _ name _ here _ := (named name (LinkTree.node_mem here)).2
  there := LinkTree.resolve_nil _ _
  logical dir names _ _ plain goes := by rw [shell,if_neg plain,goes]
  option dir dash _ _ := by rw [shell,if_pos dash]

variable (system : System)

def follow (path : Path) : Option (Place Name) :=
  system.tree.resolve system.maxLinks ((route path).start system.cwd) (route path).steps

/-- The file that a path stands for, there or yet to be made. -/
def denote (path : Path) : Option (Place Name) :=
  match system.follow path with
  | some (.dir _) => none
  | other => other

/-- What the path routines ask. -/
def world (entryOf : Path → Nat) (canRead canWrite : Path → Bool) : World where
  entryOf := entryOf
  canRead := canRead
  canWrite := canWrite
  isDir path := leadsToDir (system.follow path)
  pwd := system.printed

def dirpath (path : Path) : Path := (getDirAndFilename path).1

/-- Paths that stand for a file are told to be the same exactly if the file is, and nothing is read or written
outside a block for it. -/
structure Exact (world : World) : Prop where
  inside : ∀ path, system.denote path ≠ none →
    (PwdRead.getAbsDirPath (world.isDir (dirpath path)) (some (world.pwd (dirpath path)))).isSome
  same : ∀ pSrcFilepath pDstFilepath src dst, system.denote pSrcFilepath = some src → system.denote pDstFilepath = some dst →
    getFilepathSameState world pSrcFilepath pDstFilepath = (errOk,if src = dst then .same else .diff)

/-- No link leads anywhere, no file has two names, no directory beside the process looks like an option, and
what whole blocks leave of the paths of directories tells these apart. -/
structure Clean : Prop where
  one : system.keepsTwo = false
  idle : ∀ place name target, system.tree.node (place ++ [name]) = some (.link target) →
    system.tree.resolve system.maxLinks place [.name name] = none
  single : ∀ place other inode, system.tree.node place = some (.file inode) → system.tree.node other = some (.file inode) →
    place = other
  options : ∀ name, system.tree.node (system.cwd ++ [name]) = some .dir → name.head? ≠ some '-'
  left : ∀ place, system.tree.node place = some .dir → ∃ rest, LeftFrom 0 (pathOf place) rest
  apart : ∀ place other rest, system.tree.node place = some .dir → system.tree.node other = some .dir →
    LeftFrom 0 (pathOf place) rest → LeftFrom 0 (pathOf other) rest → place = other

/-- With its newline, every path of a directory or a link fits a block. -/
def Short : Prop :=
  ∀ place node, system.tree.node place = some node → (∀ inode, node ≠ .file inode) → (pathOf place).length ≤ 254

end System

section Texts

variable {name : Name} {path front : Path}

theorem pieces_cons (char : Char) (path : Path) : ∃ piece more, pieces path = piece :: more ∧
    pieces (char :: path) = if char = '/' then [] :: piece :: more else (char :: piece) :: more := by
  have some : ∃ piece more, pieces path = piece :: more := by
    cases path with
    | nil => exact ⟨[],[],rfl⟩
    | cons next path =>
      rw [pieces]
      split
      · exact ⟨_,_,rfl⟩
      · split
        · exact ⟨_,_,rfl⟩
        · exact ⟨_,_,rfl⟩
  obtain ⟨piece,more,split⟩ := some
  refine ⟨piece,more,split,?_⟩
  rw [pieces,split]

theorem pieces_append (front path : Path) : pieces (front ++ '/' :: path) = pieces front ++ pieces path := by
  induction front with
  | nil => rfl
  | cons char front ih =>
    obtain ⟨piece,more,split,whole⟩ := pieces_cons char front
    obtain ⟨first,rest,splitAll,wholeAll⟩ := pieces_cons char (front ++ '/' :: path)
    rw [ih,split,List.cons_append] at splitAll
    obtain ⟨rfl,rfl⟩ := List.cons.inj splitAll
    rw [List.cons_append,wholeAll,whole]
    split <;> rfl

theorem pieces_plain (plain : '/' ∉ name) : pieces name = [name] := by
  induction name with
  | nil => rfl
  | cons char name ih =>
    obtain ⟨other,rest⟩ := not_or.mp (List.mem_cons.not.mp plain)
    rw [pieces,if_neg (Ne.symm other),ih rest]

theorem isAbsolute_plain (plain : '/' ∉ name) : isAbsolute name = false := by
  cases name with
  | nil => rfl
  | cons char name =>
    have other : char ≠ '/' := fun same => plain (same ▸ List.mem_cons_self)
    simpa [isAbsolute] using other

theorem mem_pieces {piece : Name} (among : piece ∈ pieces path) : '/' ∉ piece := by
  induction path generalizing piece with
  | nil =>
    obtain rfl := List.mem_singleton.mp among
    exact List.not_mem_nil
  | cons char path ih =>
    obtain ⟨first,more,split,whole⟩ := pieces_cons char path
    rw [whole] at among
    rw [split] at ih
    by_cases slash : char = '/'
    · rw [if_pos slash] at among
      rcases List.mem_cons.mp among with rfl | later
      · exact List.not_mem_nil
      · exact ih later
    · rw [if_neg slash] at among
      rcases List.mem_cons.mp among with rfl | later
      · rw [List.mem_cons,not_or]
        exact ⟨Ne.symm slash,ih List.mem_cons_self⟩
      · exact ih (List.mem_cons_of_mem _ later)

theorem mem_path {char : Char} (among : char ∈ path) : char = '/' ∨ ∃ piece ∈ pieces path, char ∈ piece := by
  induction path with
  | nil => cases among
  | cons next path ih =>
    obtain ⟨first,more,split,whole⟩ := pieces_cons next path
    rw [split] at ih
    rw [whole]
    rcases List.mem_cons.mp among with rfl | later
    · by_cases slash : char = '/'
      · exact Or.inl slash
      · rw [if_neg slash]
        exact Or.inr ⟨_,List.mem_cons_self,List.mem_cons_self⟩
    · rcases ih later with slash | ⟨piece,inside,here⟩
      · exact Or.inl slash
      · right
        split
        · exact ⟨piece,List.mem_cons_of_mem _ inside,here⟩
        · rcases List.mem_cons.mp inside with rfl | behind
          · exact ⟨_,List.mem_cons_self,List.mem_cons_of_mem _ here⟩
          · exact ⟨piece,List.mem_cons_of_mem _ behind,here⟩

/-- A path is cut behind its last slash, or is a name beside the process. -/
theorem getDirAndFilename_slash (plain : '/' ∉ name) : getDirAndFilename (front ++ '/' :: name) = (front ++ ['/'],name) := by
  have slash : '/' ∈ front ++ '/' :: name := List.mem_append_right _ List.mem_cons_self
  rw [getDirAndFilename,if_pos slash,List.append_cons,rdropWhile_sep plain,rtakeWhile_sep plain]

theorem getDirAndFilename_plain (plain : '/' ∉ name) : getDirAndFilename name = (['.','/'],name) := if_neg plain

theorem last_slash (slash : '/' ∈ path) : ∃ front name, path = front ++ '/' :: name ∧ '/' ∉ name := by
  induction path using List.reverseRecOn with
  | nil => cases slash
  | append_singleton path char ih =>
    by_cases last : char = '/'
    · exact ⟨path,[],by rw [last],List.not_mem_nil⟩
    · rcases List.mem_append.mp slash with before | here
      · obtain ⟨front,name,rfl,plain⟩ := ih before
        refine ⟨front,name ++ [char],by rw [List.append_assoc,List.cons_append],?_⟩
        rw [List.mem_append,not_or]
        exact ⟨plain,fun here => last (List.mem_singleton.mp here).symm⟩
      · exact absurd (List.mem_singleton.mp here).symm last

theorem dirpath_slash (path : Path) : '/' ∈ System.dirpath path := by
  rw [System.dirpath]
  by_cases slash : '/' ∈ path
  · obtain ⟨front,name,rfl,plain⟩ := last_slash slash
    rw [getDirAndFilename_slash plain]
    exact List.mem_append_right _ List.mem_cons_self
  · rw [getDirAndFilename_plain slash]
    exact List.mem_cons_of_mem _ List.mem_cons_self

theorem reported {world : World} {pSrcFilepath pDstFilepath pSrcAbsFilepath pDstAbsFilepath : Path}
    (text : pSrcFilepath ≠ pDstFilepath) (src : getAbsFilePath world pSrcFilepath = some pSrcAbsFilepath)
    (dst : getAbsFilePath world pDstFilepath = some pDstAbsFilepath) :
    getFilepathSameState world pSrcFilepath pDstFilepath =
      (errOk,if pSrcAbsFilepath = pDstAbsFilepath then .same else .diff) := by
  rw [getFilepathSameState,if_neg text,src,dst]
  dsimp only
  split <;> rfl

/-- Different paths of one file must come to one absolute path. -/
theorem reported_same {world : World} {pSrcFilepath pDstFilepath pSrcAbsFilepath pDstAbsFilepath : Path}
    (same : getFilepathSameState world pSrcFilepath pDstFilepath = (errOk,.same))
    (text : pSrcFilepath ≠ pDstFilepath) (src : getAbsFilePath world pSrcFilepath = some pSrcAbsFilepath)
    (dst : getAbsFilePath world pDstFilepath = some pDstAbsFilepath) : pSrcAbsFilepath = pDstAbsFilepath := by
  rw [reported text src dst] at same
  by_contra apart
  rw [if_neg apart] at same
  cases same

/-- The text behind the last slash and what is before it can be told from the whole. -/
theorem append_slash_inj {other : Path} {last : Name} (plain : '/' ∉ name) (also : '/' ∉ last)
    (same : front ++ '/' :: name = other ++ '/' :: last) : front = other ∧ name = last := by
  have cut := congrArg getDirAndFilename same
  rw [getDirAndFilename_slash plain,getDirAndFilename_slash also] at cut
  obtain ⟨before,rfl⟩ := Prod.mk.inj cut
  exact ⟨List.append_cancel_right before,rfl⟩

theorem stepOf_name {piece : Name} (step : stepOf piece = .name name) : piece = name := by
  rw [stepOf] at step
  split at step
  · cases step
  · split at step
    · cases step
    · exact Step.name.inj step

theorem route_names (among : .name name ∈ (route path).steps) : name ∈ pieces path ∧ IsName name := by
  obtain ⟨piece,inside,step⟩ := List.mem_map.mp among
  obtain rfl := stepOf_name step
  exact ⟨inside,mem_pieces inside,step⟩

theorem IsName.ne_nil (isName : IsName name) : name ≠ [] := by
  rintro rfl
  cases isName.2

variable {names : List Name}

theorem slashes_concat (names : List Name) (name : Name) : slashes (names ++ [name]) = slashes names ++ '/' :: name := by
  rw [slashes,List.flatMap_append,List.flatMap_singleton]
  rfl

theorem pieces_slashes (plain : ∀ name ∈ names, '/' ∉ name) (path : Path) :
    pieces (slashes names ++ '/' :: path) = [] :: (names ++ pieces path) := by
  induction names using List.reverseRecOn generalizing path with
  | nil => exact pieces_append [] path
  | append_singleton names name ih =>
    obtain ⟨others,here⟩ := List.forall_mem_append.mp plain
    rw [slashes_concat,List.append_assoc,List.cons_append,ih others,pieces_append,
      pieces_plain (here name List.mem_cons_self),List.append_assoc]

theorem isAbsolute_slashes (names : List Name) (path : Path) : isAbsolute (slashes names ++ '/' :: path) = true := by
  cases names with
  | nil => rfl
  | cons name names => rfl

theorem stepOf_names (proper : ∀ name ∈ names, IsName name) : names.map stepOf = names.map .name :=
  List.map_congr_left fun name among => (proper name among).2

/-- The path of a file in a directory that is told from the root. -/
def textOf (names : List Name) (name : Name) : Path := slashes names ++ '/' :: name

theorem route_textOf (proper : ∀ name ∈ names, IsName name) (isName : IsName name) :
    route (textOf names name) = ⟨true,.here :: (names.map .name ++ [.name name])⟩ := by
  have last : pieces name = [name] := pieces_plain isName.1
  have here : stepOf [] = .here := rfl
  rw [route,textOf,isAbsolute_slashes,pieces_slashes (fun name among => (proper name among).1),last,List.map_cons,
    List.map_append,stepOf_names proper,List.map_singleton,isName.2,here]

theorem route_dir (proper : ∀ name ∈ names, IsName name) :
    route (slashes names ++ ['/']) = ⟨true,.here :: (names.map .name ++ [.here])⟩ := by
  have here : stepOf [] = .here := rfl
  rw [route,isAbsolute_slashes,pieces_slashes (fun name among => (proper name among).1),List.map_cons,
    List.map_append,stepOf_names proper,here]
  rfl

theorem pieces_pathOf (proper : ∀ name ∈ names, IsName name) : (pieces (pathOf names)).filter (· ≠ []) = names := by
  have all : ∀ name ∈ names, decide (name ≠ []) = true := fun name among => decide_eq_true (proper name among).ne_nil
  rw [pathOf]
  split
  case isTrue none =>
    rw [none]
    decide
  case isFalse some =>
    obtain ⟨front,last,rfl⟩ := (List.eq_nil_or_concat' names).resolve_left some
    obtain ⟨others,here⟩ := List.forall_mem_append.mp proper
    rw [slashes_concat,pieces_slashes (fun name among => (others name among).1),
      pieces_plain (here last List.mem_cons_self).1,List.filter_cons_of_neg (by simp),List.filter_eq_self.mpr all]

theorem pathOf_injective {others : List Name} (proper : ∀ name ∈ names, IsName name) (also : ∀ name ∈ others, IsName name)
    (same : pathOf names = pathOf others) : names = others := by
  rw [← pieces_pathOf proper,same,pieces_pathOf also]

end Texts

namespace System

variable {system : System} {place : List Name} {name : Name}

theorem names_of_node {node : Node Name} (here : system.tree.node place = some node) : ∀ name ∈ place, IsName name := by
  intro name among
  obtain ⟨front,back,rfl⟩ := List.append_of_mem among
  rw [List.append_cons] at here
  by_cases last : back = []
  · rw [last,List.append_nil] at here
    exact system.named front name node here
  · exact system.named front name .dir (LinkTree.node_front here last)

theorem literal_of_node {node : Node Name} (here : system.tree.node place = some node) (noFile : ∀ inode, node ≠ .file inode) :
    ∀ name ∈ place, ∀ char ∈ name, char ∉ special := by
  intro name among
  obtain ⟨front,back,rfl⟩ := List.append_of_mem among
  rw [List.append_cons] at here
  by_cases last : back = []
  · rw [last,List.append_nil] at here
    exact system.literal front name node here noFile
  · exact system.literal front name .dir (LinkTree.node_front here last) fun _ other => by cases other

theorem mem_slashes {names : List Name} {char : Char} (among : char ∈ slashes names) :
    char = '/' ∨ ∃ name ∈ names, char ∈ name := by
  obtain ⟨name,inside,here⟩ := List.mem_flatMap.mp among
  rcases List.mem_cons.mp here with slash | later
  · exact Or.inl slash
  · exact Or.inr ⟨name,inside,later⟩

theorem mem_pathOf {names : List Name} {char : Char} (among : char ∈ pathOf names) :
    char = '/' ∨ ∃ name ∈ names, char ∈ name := by
  rw [pathOf] at among
  split at among
  · exact Or.inl (List.mem_singleton.mp among)
  · exact mem_slashes among

theorem cwd_dir (system : System) : system.tree.node system.cwd = some .dir := LinkTree.resolve_sound system.tree.node_root system.there

/-- The line of a directory has no NUL before its newline. -/
theorem pathOf_plain {node : Node Name} (here : system.tree.node place = some node) (noFile : ∀ inode, node ≠ .file inode) :
    nul ∉ pathOf place := by
  intro zero
  rcases mem_pathOf zero with slash | ⟨name,among,inside⟩
  · exact absurd slash (by decide)
  · exact literal_of_node here noFile name among nul inside (by decide)

section Forward

variable (clean : system.Clean)
include clean

theorem start_direct {path : Path} {result : Place Name} (reached : system.follow path = some result) :
    system.tree.direct ((route path).start system.cwd) (route path).steps = some result := by
  apply LinkTree.direct_of_resolve clean.idle
  exact reached

theorem PWD_eq : system.PWD = system.cwd := by
  have direct := LinkTree.direct_of_resolve clean.idle system.there
  exact (LinkTree.direct_names_dir direct).symm

omit clean in
theorem denote_some {path : Path} {result : Place Name} (stands : system.denote path = some result) :
    system.follow path = some result ∧ ∀ place, result ≠ .dir place := by
  rw [denote] at stands
  split at stands
  · cases stands
  · rename_i other
    refine ⟨stands,?_⟩
    rintro place rfl
    exact other place stands

omit clean in
/-- The steps to the directory of a path, and the one behind it. -/
theorem dirpath_steps (path : Path) : ∃ front name, (getDirAndFilename path).2 = name ∧ '/' ∉ name ∧
    (route (dirpath path)).steps = front ++ [.here] ∧ (route (dirpath path)).start system.cwd = (route path).start system.cwd ∧
    ∀ spot, system.tree.direct spot (route path).steps = system.tree.direct spot (front ++ [stepOf name]) := by
  by_cases slash : '/' ∈ path
  · obtain ⟨front,name,rfl,plain⟩ := last_slash slash
    have absolute : isAbsolute (front ++ ['/']) = isAbsolute (front ++ '/' :: name) := by
      cases front with
      | nil => rfl
      | cons char front => rfl
    have steps : ∀ last, (route (front ++ '/' :: last)).steps = (pieces front).map stepOf ++ (pieces last).map stepOf := by
      intro last
      rw [route,pieces_append,List.map_append]
    refine ⟨(pieces front).map stepOf,name,?_⟩
    rw [dirpath,getDirAndFilename_slash plain]
    refine ⟨rfl,plain,steps [],?_,fun spot => ?_⟩
    · rw [Route.start,Route.start,route,route,absolute]
    · rw [steps,pieces_plain plain]
      rfl
  · refine ⟨[.here],path,?_⟩
    rw [dirpath,getDirAndFilename_plain slash]
    refine ⟨rfl,slash,rfl,?_,fun spot => ?_⟩
    · rw [Route.start,Route.start,route,route,isAbsolute_plain slash]
      rfl
    · rw [route,pieces_plain slash]
      rfl

theorem denote_cases {path : Path} {result : Place Name} (stands : system.denote path = some result) :
    ∃ place, system.tree.node place = some .dir ∧ '/' ∉ (getDirAndFilename path).2 ∧
      system.tree.direct ((route (dirpath path)).start system.cwd) (route (dirpath path)).steps = some (.dir place) ∧
      ((∃ inode, system.tree.node (place ++ [(getDirAndFilename path).2]) = some (.file inode) ∧ result = .file inode) ∨
        system.tree.node (place ++ [(getDirAndFilename path).2]) = none ∧ result = .absent place (getDirAndFilename path).2) := by
  obtain ⟨reached,noDir⟩ := denote_some stands
  have direct := start_direct clean reached
  obtain ⟨front,name,rfl,plain,steps,start,same⟩ := @dirpath_steps system path
  rw [same] at direct
  obtain ⟨place,there,last⟩ := LinkTree.direct_append (List.cons_ne_nil _ _) direct
  have whole : system.tree.direct ((route (dirpath path)).start system.cwd) (route (dirpath path)).steps = some (.dir place) := by
    rw [steps,start]
    exact LinkTree.resolve_append there rfl
  have isDir : system.tree.node place = some .dir := by
    have begins : system.tree.node ((route path).start system.cwd) = some .dir := by
      rw [Route.start]
      split
      · exact system.tree.node_root
      · exact system.cwd_dir
    exact LinkTree.resolve_sound begins there
  refine ⟨place,isDir,plain,whole,?_⟩
  cases step : stepOf (getDirAndFilename path).2 with
  | here =>
    rw [step] at last
    exact absurd (Option.some.inj last).symm (noDir _)
  | up =>
    rw [step] at last
    exact absurd (Option.some.inj last).symm (noDir _)
  | name name =>
    rw [step] at last
    rw [stepOf_name step]
    rcases LinkTree.walk_name last with ⟨_,dir⟩ | ⟨_,_,none⟩ | ⟨inode,here,_,same⟩ | ⟨here,_,same⟩
    · exact absurd (Option.some.inj dir).symm (noDir _)
    · cases none
    · exact Or.inl ⟨inode,here,same⟩
    · exact Or.inr ⟨here,same⟩

/-- On the way to a directory there is nothing that a shell takes for something else. -/
theorem printed_eq {dir : Path} {place : List Name} (slash : '/' ∈ dir)
    (direct : system.tree.direct ((route dir).start system.cwd) (route dir).steps = some (.dir place)) :
    system.printed dir = pathOf place ++ ['\n'] := by
  have literal : ∀ char ∈ dir, char ∉ special := by
    intro char among
    rcases mem_path among with rfl | ⟨piece,inside,here⟩
    · decide
    · cases step : stepOf piece with
      | here =>
        rw [stepOf] at step
        split at step
        · rename_i dot
          rcases dot with rfl | rfl
          · cases here
          · obtain rfl := List.mem_singleton.mp here
            decide
        · split at step <;> cases step
      | up =>
        rw [stepOf] at step
        split at step
        · cases step
        · split at step
          · rename_i dots
            rw [dots] at here
            obtain rfl : char = '.' := by simpa using here
            decide
          · cases step
      | name name =>
        obtain rfl := stepOf_name step
        have named : .name piece ∈ (route dir).steps := List.mem_map.mpr ⟨piece,inside,step⟩
        obtain ⟨front,passed⟩ := LinkTree.direct_passes direct named
        exact system.literal front piece .dir passed (fun _ other => by cases other) char here
  have plain : dir.head? ≠ some '-' := by
    intro dash
    cases dir with
    | nil => cases dash
    | cons char dir =>
      obtain rfl := Option.some.inj dash
      obtain ⟨piece,more,_,whole⟩ := pieces_cons '-' dir
      have name : stepOf ('-' :: piece) = .name ('-' :: piece) := by simp [stepOf]
      rw [if_neg (by decide)] at whole
      rw [route,whole,List.map_cons,name] at direct
      rcases LinkTree.walk_name direct with ⟨beside,_⟩ | ⟨_,_,none⟩ | ⟨_,_,_,other⟩ | ⟨_,_,other⟩
      · exact clean.options _ beside rfl
      · cases none
      · cases other
      · cases other
  have start : system.tree.node ((route dir).start system.cwd) = some .dir := by
    rw [Route.start]
    split
    · exact system.tree.node_root
    · exact system.cwd_dir
  have goes := system.logical dir place (List.ne_nil_of_mem slash) literal plain (by
    rw [PWD_eq clean]
    apply LinkTree.logical_direct ?_ start direct
    intro other here
    have reached := @LinkTree.direct_names _ _ system.tree [] other here
    rw [LinkTree.resolve_direct _ reached]
    rfl)
  rw [goes,clean.one,pwdLine]
  rfl

variable (entryOf : Path → Nat) (canRead canWrite : Path → Bool)

theorem absFilePath_eq {path : Path} {result : Place Name} (stands : system.denote path = some result) :
    ∃ place rest, system.tree.node place = some .dir ∧ LeftFrom 0 (pathOf place) rest ∧
      '/' ∉ (getDirAndFilename path).2 ∧
      getAbsFilePath (system.world entryOf canRead canWrite) path = some (rest ++ '/' :: (getDirAndFilename path).2) ∧
      (PwdRead.getAbsDirPath (leadsToDir (system.follow (dirpath path))) (some (system.printed (dirpath path)))).isSome ∧
      ((∃ inode, system.tree.node (place ++ [(getDirAndFilename path).2]) = some (.file inode) ∧ result = .file inode) ∨
        system.tree.node (place ++ [(getDirAndFilename path).2]) = none ∧ result = .absent place (getDirAndFilename path).2) := by
  obtain ⟨place,isDir,plain,direct,entry⟩ := denote_cases clean stands
  have printed := printed_eq clean (dirpath_slash path) direct
  have found : leadsToDir (system.follow (dirpath path)) = true := by
    rw [follow,LinkTree.resolve_direct _ direct]
    rfl
  obtain ⟨rest,left⟩ := clean.left place isDir
  have noNul := pathOf_plain isDir fun _ other => by cases other
  have read := (readBlocks_line_iff noNul 0 rest).mpr left
  have line : nul ∉ pathOf place ++ ['\n'] := by
    rw [List.mem_append,not_or]
    exact ⟨noNul,by decide⟩
  refine ⟨place,rest,isDir,left,plain,?_,?_,entry⟩
  · have asked : (system.world entryOf canRead canWrite).isDir (dirpath path) = true := found
    have told : (system.world entryOf canRead canWrite).pwd (dirpath path) = pathOf place ++ ['\n'] := printed
    rw [dirpath] at asked told
    rw [getAbsFilePath,File.getAbsDirPath,asked,told,readBlocks_readPwd _ _ line rest read]
    rfl
  · rw [found,printed,PwdRead.getAbsDirPath,read]
    rfl

theorem exact_of_clean : system.Exact (system.world entryOf canRead canWrite) := by
  constructor
  · intro path stands
    obtain ⟨result,stands⟩ := Option.ne_none_iff_exists'.mp stands
    obtain ⟨_,_,_,_,_,_,inside,_⟩ := absFilePath_eq clean entryOf canRead canWrite stands
    exact inside
  · intro pSrcFilepath pDstFilepath src dst first second
    rw [getFilepathSameState]
    by_cases text : pSrcFilepath = pDstFilepath
    · rw [text,second] at first
      rw [if_pos text,if_pos (Option.some.inj first).symm]
    obtain ⟨place,rest,isDir,left,plain,made,_,entry⟩ := absFilePath_eq clean entryOf canRead canWrite first
    obtain ⟨other,behind,alsoDir,also,alsoPlain,alsoMade,_,alsoEntry⟩ := absFilePath_eq clean entryOf canRead canWrite second
    rw [if_neg text,made,alsoMade]
    dsimp only
    generalize (getDirAndFilename pSrcFilepath).2 = name at *
    generalize (getDirAndFilename pDstFilepath).2 = last at *
    have told : rest ++ '/' :: name = behind ++ '/' :: last ↔ place = other ∧ name = last := by
      constructor
      · intro same
        obtain ⟨rfl,rfl⟩ := append_slash_inj plain alsoPlain same
        exact ⟨clean.apart place other rest isDir alsoDir left also,rfl⟩
      · rintro ⟨rfl,rfl⟩
        rw [leftFrom_unique left also]
    have meant : src = dst ↔ place = other ∧ name = last := by
      constructor
      · intro same
        rcases entry with ⟨inode,here,rfl⟩ | ⟨_,rfl⟩
        · rcases alsoEntry with ⟨_,there,rfl⟩ | ⟨_,rfl⟩
          · obtain rfl := Place.file.inj same
            obtain ⟨rfl,entry⟩ := List.append_inj' (clean.single _ _ _ here there) rfl
            exact ⟨rfl,List.singleton_inj.mp entry⟩
          · cases same
        · rcases alsoEntry with ⟨_,_,rfl⟩ | ⟨_,rfl⟩
          · cases same
          · exact Place.absent.inj same
      · rintro ⟨rfl,rfl⟩
        rcases entry with ⟨inode,here,rfl⟩ | ⟨here,rfl⟩
        · rcases alsoEntry with ⟨_,there,rfl⟩ | ⟨there,_⟩
          · rw [here] at there
            cases there
            rfl
          · rw [here] at there
            cases there
        · rcases alsoEntry with ⟨_,there,_⟩ | ⟨_,rfl⟩
          · rw [here] at there
            cases there
          · rfl
    by_cases same : place = other ∧ name = last
    · rw [if_pos (told.mpr same),if_pos (meant.mpr same)]
    · rw [if_neg fun text => same (told.mp text),if_neg fun file => same (meant.mp file)]

end Forward

section Backward

theorem fresh_name (system : System) : ∃ name, IsName name ∧ ∀ place, system.tree.node (place ++ [name]) = none := by
  let name : Name := 'a' :: List.replicate (system.tree.entries.flatMap Prod.fst).flatten.length 'a'
  have plain : '/' ∉ name := fun slash => absurd (List.eq_of_mem_replicate (n := _+1) slash) (by decide)
  refine ⟨name,⟨plain,by simp [name,stepOf]⟩,fun place => ?_⟩
  cases here : system.tree.node (place ++ [name]) with
  | none => rfl
  | some node =>
    have among := (List.sublist_flatten_of_mem (LinkTree.node_mem here)).length_le
    simp only [name,List.length_cons,List.length_replicate] at among
    omega

/-- A way from the root that a shell can go: over names that it leaves alone, to a directory. -/
structure Way (system : System) (names : List Name) : Prop where
  proper : ∀ name ∈ names, IsName name
  literal : ∀ name ∈ names, ∀ char ∈ name, char ∉ special
  leads : leadsToDir (system.tree.resolve system.maxLinks [] (names.map .name)) = true
  fits : (pathOf names).length ≤ 254

theorem twoSlashes_dir {names : List Name} (proper : ∀ name ∈ names, IsName name) : twoSlashes (slashes names ++ ['/']) = false := by
  cases names with
  | nil => rfl
  | cons name names =>
    obtain ⟨here,_⟩ := List.forall_mem_cons.mp proper
    cases name with
    | nil => exact absurd rfl here.ne_nil
    | cons char name =>
      have other : char ≠ '/' := fun same => here.1 (same ▸ List.mem_cons_self)
      simp [twoSlashes,slashes,other]

variable {names : List Name}

theorem Way.printed (way : system.Way names) : system.printed (slashes names ++ ['/']) = pathOf names ++ ['\n'] := by
  have steps := route_dir way.proper
  have literal : ∀ char ∈ slashes names ++ ['/'], char ∉ special := by
    intro char among
    rcases List.mem_append.mp among with inside | last
    · rcases mem_slashes inside with rfl | ⟨name,there,here⟩
      · decide
      · exact way.literal name there char here
    · rw [List.mem_singleton.mp last]
      decide
  have head : (slashes names ++ ['/']).head? ≠ some '-' := by
    cases names with
    | nil => exact fun dash => absurd (Option.some.inj dash) (by decide)
    | cons name names => exact fun dash => absurd (Option.some.inj dash) (by decide)
  have goes := system.logical (slashes names ++ ['/']) names (List.concat_ne_nil _ _) literal head (by
    rw [steps]
    change LinkTree.logical _ [] (names.map .name ++ [.here]) = some names
    rw [LinkTree.logical_names,List.nil_append,LinkTree.logical,LinkTree.logical,way.leads]
    rfl)
  rw [goes,twoSlashes_dir way.proper,Bool.and_false,pwdLine]
  rfl

theorem Way.isDir (way : system.Way names) : leadsToDir (system.follow (slashes names ++ ['/'])) = true := by
  have leads := way.leads
  rw [follow,route_dir way.proper]
  change leadsToDir (system.tree.resolve system.maxLinks [] (.here :: (names.map .name ++ [.here]))) = true
  rw [LinkTree.resolve_here]
  cases reached : system.tree.resolve system.maxLinks [] (names.map .name) with
  | none =>
    rw [reached] at leads
    cases leads
  | some result =>
    rw [reached] at leads
    cases result with
    | dir place =>
      rw [LinkTree.resolve_append reached rfl]
      rfl
    | file inode => cases leads
    | absent place name => cases leads

variable (entryOf : Path → Nat) (canRead canWrite : Path → Bool)

theorem Way.absFilePath (way : system.Way names) {name : Name} (plain : '/' ∉ name) :
    getAbsFilePath (system.world entryOf canRead canWrite) (textOf names name) = some (pathOf names ++ '/' :: name) := by
  have asked : (system.world entryOf canRead canWrite).isDir (slashes names ++ ['/']) = true := way.isDir
  have told : (system.world entryOf canRead canWrite).pwd (slashes names ++ ['/']) = pathOf names ++ ['\n'] := way.printed
  have short : ¬256*(0+1) ≤ (pathOf names ++ ['\n']).length := by
    have fits := way.fits
    rw [List.length_append,List.length_singleton]
    omega
  have read : readPwd (pathOf names ++ ['\n']) 0 = pathOf names := by
    rw [readPwd,if_neg short,List.length_append,List.length_singleton,Nat.add_sub_cancel,List.take_left]
  rw [getAbsFilePath,textOf,getDirAndFilename_slash plain]
  dsimp only
  rw [File.getAbsDirPath,asked,told,read]
  rfl

variable {entryOf canRead canWrite}

/-- Two files on such ways are the same only if their ways and names are. -/
theorem Exact.told (exact : system.Exact (system.world entryOf canRead canWrite)) {others : List Name}
    (way : system.Way names) (also : system.Way others) {name last : Name} (isName : IsName name) (isLast : IsName last)
    {result : Place Name} (first : system.denote (textOf names name) = some result)
    (second : system.denote (textOf others last) = some result) : names = others ∧ name = last := by
  have same := exact.same _ _ _ _ first second
  rw [if_pos rfl] at same
  by_cases text : textOf names name = textOf others last
  · obtain ⟨front,entry⟩ := append_slash_inj isName.1 isLast.1 text
    have split := congrArg (fun path => pieces (path ++ ['/'])) front
    rw [pieces_slashes fun name among => (way.proper name among).1,
      pieces_slashes fun name among => (also.proper name among).1] at split
    exact ⟨List.append_cancel_right (List.cons.inj split).2,entry⟩
  · have equal := reported_same same text (way.absFilePath _ _ _ isName.1) (also.absFilePath _ _ _ isLast.1)
    obtain ⟨front,rfl⟩ := append_slash_inj isName.1 isLast.1 equal
    exact ⟨pathOf_injective way.proper also.proper front,rfl⟩

theorem follow_textOf (proper : ∀ name ∈ names, IsName name) {name : Name} (isName : IsName name) :
    system.follow (textOf names name) = system.tree.resolve system.maxLinks [] (names.map .name ++ [.name name]) := by
  rw [follow,route_textOf proper isName]
  exact LinkTree.resolve_here _ _ _

theorem denote_of_follow {path : Path} {result : Place Name} (reached : system.follow path = some result)
    (noDir : ∀ place, result ≠ .dir place) : system.denote path = some result := by
  rw [denote,reached]
  cases result with
  | dir place => exact absurd rfl (noDir place)
  | file inode => rfl
  | absent place name => rfl

theorem Short.way (short : system.Short) {place : List Name} (here : system.tree.node place = some .dir) : system.Way place := by
  have noFile : ∀ inode, Node.dir ≠ (Node.file inode : Node Name) := fun _ other => by cases other
  have reached := @LinkTree.direct_names _ _ system.tree [] place here
  refine ⟨names_of_node here,literal_of_node here noFile,?_,short place .dir here noFile⟩
  rw [LinkTree.resolve_direct _ reached]
  rfl

theorem denote_entry {place : List Name} {name : Name} {result : Place Name} (here : system.tree.node place = some .dir)
    (isName : IsName name) (reached : system.tree.resolve system.maxLinks place [.name name] = some result)
    (noDir : ∀ other, result ≠ .dir other) : system.denote (textOf place name) = some result := by
  apply denote_of_follow _ noDir
  rw [follow_textOf (names_of_node here) isName,
    LinkTree.resolve_direct_append _ (@LinkTree.direct_names _ _ system.tree [] place here)]
  exact reached

theorem targets_named {name : Name} (place : List Name) (target : Route Name) (here : system.tree.node place = some (.link target))
    (among : .name name ∈ target.steps) : IsName name := by
  obtain ⟨text,rfl⟩ := system.texts place target here
  exact (route_names among).2

variable (exact : system.Exact (system.world entryOf canRead canWrite)) (short : system.Short)
include exact

theorem Exact.one : system.keepsTwo = false := by
  by_contra keeps
  rw [Bool.not_eq_false] at keeps
  obtain ⟨fresh,isFresh,absent⟩ := system.fresh_name
  have root : system.Way [] := by
    refine ⟨List.forall_mem_nil _,List.forall_mem_nil _,?_,by decide⟩
    rw [List.map_nil,LinkTree.resolve_nil]
    rfl
  have steps : ∀ name, '/' ∉ name → route (['/'] ++ '/' :: name) = ⟨true,[.here,.here,stepOf name]⟩ := by
    intro name plain
    rw [route,pieces_append,pieces_plain plain]
    rfl
  have dir : route ['/','/'] = ⟨true,[.here,.here,.here]⟩ := steps [] List.not_mem_nil
  have printed : system.printed ['/','/'] = ['/','/','\n'] := by
    have goes := system.logical ['/','/'] [] (List.cons_ne_nil _ _) (by decide) (by decide) (by
      rw [dir]
      change (if leadsToDir (system.tree.resolve system.maxLinks [] []) then some [] else none) = _
      rw [LinkTree.resolve_nil]
      rfl)
    rw [goes,keeps]
    rfl
  have twice : getAbsFilePath (system.world entryOf canRead canWrite) (['/'] ++ '/' :: fresh) = some (['/','/'] ++ '/' :: fresh) := by
    have asked : (system.world entryOf canRead canWrite).isDir (['/'] ++ ['/']) = true := by
      change leadsToDir (system.tree.resolve system.maxLinks ((route ['/','/']).start system.cwd) (route ['/','/']).steps) = true
      rw [dir,LinkTree.resolve_here,LinkTree.resolve_here,LinkTree.resolve_here,LinkTree.resolve_nil]
      rfl
    have told : (system.world entryOf canRead canWrite).pwd (['/'] ++ ['/']) = ['/','/','\n'] := printed
    have read : readPwd ['/','/','\n'] 0 = ['/','/'] := by
      rw [readPwd,if_neg (by decide)]
      rfl
    rw [getAbsFilePath,getDirAndFilename_slash isFresh.1]
    dsimp only
    rw [File.getAbsDirPath,asked,told,read]
    rfl
  have first : system.denote (['/'] ++ '/' :: fresh) = some (.absent [] fresh) := by
    apply denote_of_follow _ fun _ same => by cases same
    rw [follow,steps fresh isFresh.1,isFresh.2]
    change system.tree.resolve system.maxLinks [] [.here,.here,.name fresh] = _
    rw [LinkTree.resolve_here,LinkTree.resolve_here,LinkTree.resolve_absent _ (absent [])]
  have second : system.denote (textOf [] fresh) = some (.absent [] fresh) :=
    denote_entry system.tree.node_root isFresh (LinkTree.resolve_absent _ (absent [])) fun _ same => by cases same
  have same := exact.same _ _ _ _ first second
  have longer : ['/'] ++ '/' :: fresh ≠ textOf [] fresh := by
    intro equal
    have lengths := congrArg List.length equal
    simp [textOf,slashes] at lengths
  rw [if_pos rfl] at same
  have equal := reported_same same longer twice (root.absFilePath _ _ _ isFresh.1)
  have lengths := congrArg List.length equal
  simp [pathOf] at lengths

theorem Exact.options {name : Name} (beside : system.tree.node (system.cwd ++ [name]) = some .dir) :
    name.head? ≠ some '-' := by
  intro dash
  obtain ⟨fresh,isFresh,absent⟩ := system.fresh_name
  have isName := system.named _ _ _ beside
  have relative : ∀ rest, isAbsolute (name ++ rest) = false := by
    intro rest
    cases name with
    | nil => cases dash
    | cons char name =>
      obtain rfl := Option.some.inj dash
      rfl
  have goes : system.printed (name ++ ['/']) = pwdLine false system.PWD := by
    apply system.option
    · cases name with
      | nil => cases dash
      | cons char name => exact dash
    · exact List.mem_append_right _ List.mem_cons_self
    · intro char among
      rcases List.mem_append.mp among with inside | last
      · exact system.literal _ _ _ beside (fun _ other => by cases other) char inside
      · rw [List.mem_singleton.mp last]
        decide
  have stays : system.printed ['.','/'] = pwdLine false system.PWD := by
    have dot := system.logical ['.','/'] system.PWD (List.cons_ne_nil _ _) (by decide) (by decide) (by
      change (if leadsToDir (system.tree.resolve system.maxLinks [] (system.PWD.map .name)) then some system.PWD else none) = _
      rw [system.there]
      rfl)
    rw [dot]
    have single : twoSlashes ['.','/'] = false := by decide
    rw [single,Bool.and_false]
  have front : ∀ last, '/' ∉ last → route (name ++ '/' :: last) = ⟨false,[.name name,stepOf last]⟩ := by
    intro last plain
    rw [route,relative,pieces_append,pieces_plain isName.1,pieces_plain plain,← isName.2]
    rfl
  have inside : system.tree.resolve system.maxLinks system.cwd [.name name] = some (.dir (system.cwd ++ [name])) :=
    LinkTree.resolve_direct _ (@LinkTree.direct_names _ _ system.tree system.cwd [name] beside)
  have first : system.denote (name ++ '/' :: fresh) = some (.absent (system.cwd ++ [name]) fresh) := by
    apply denote_of_follow _ fun _ same => by cases same
    rw [follow,front fresh isFresh.1,isFresh.2]
    exact LinkTree.resolve_append inside (LinkTree.resolve_absent 0 (absent _))
  have second : system.denote fresh = some (.absent system.cwd fresh) := by
    apply denote_of_follow _ fun _ same => by cases same
    rw [follow,route,isAbsolute_plain isFresh.1,pieces_plain isFresh.1,List.map_singleton,isFresh.2]
    exact LinkTree.resolve_absent _ (absent _)
  have text : name ++ '/' :: fresh ≠ fresh := by
    intro equal
    have lengths := congrArg List.length equal
    rw [List.length_append,List.length_cons] at lengths
    omega
  have away : getAbsFilePath (system.world entryOf canRead canWrite) (name ++ '/' :: fresh) =
      some (readPwd (pwdLine false system.PWD) 0 ++ '/' :: fresh) := by
    have asked : (system.world entryOf canRead canWrite).isDir (name ++ ['/']) = true := by
      change leadsToDir (system.follow (name ++ ['/'])) = true
      rw [follow,front [] List.not_mem_nil]
      have here : system.tree.resolve system.maxLinks system.cwd ([.name name] ++ [.here]) = some (.dir (system.cwd ++ [name])) :=
        LinkTree.resolve_append inside rfl
      exact congrArg leadsToDir here
    have told : (system.world entryOf canRead canWrite).pwd (name ++ ['/']) = pwdLine false system.PWD := goes
    rw [getAbsFilePath,getDirAndFilename_slash isFresh.1]
    dsimp only
    rw [File.getAbsDirPath,asked,told]
    rfl
  have home : getAbsFilePath (system.world entryOf canRead canWrite) fresh =
      some (readPwd (pwdLine false system.PWD) 0 ++ '/' :: fresh) := by
    have asked : (system.world entryOf canRead canWrite).isDir ['.','/'] = true := by
      change leadsToDir (system.tree.resolve system.maxLinks system.cwd [.here,.here]) = true
      rw [LinkTree.resolve_here,LinkTree.resolve_here,LinkTree.resolve_nil]
      rfl
    have told : (system.world entryOf canRead canWrite).pwd ['.','/'] = pwdLine false system.PWD := stays
    rw [getAbsFilePath,getDirAndFilename_plain isFresh.1]
    dsimp only
    rw [File.getAbsDirPath,asked,told]
    rfl
  have apart := exact.same _ _ _ _ first second
  rw [reported text away home,if_pos rfl,if_neg] at apart
  · cases apart
  · intro same
    have lengths := congrArg List.length (Place.absent.inj same).1
    rw [List.length_append,List.length_singleton] at lengths
    omega

include short

theorem Exact.idle {place : List Name} {name : Name} {target : Route Name}
    (here : system.tree.node (place ++ [name]) = some (.link target)) :
    system.tree.resolve system.maxLinks place [.name name] = none := by
  have isDir := LinkTree.node_parent here
  have isName := system.named place name _ here
  have way := short.way isDir
  cases reached : system.tree.resolve system.maxLinks place [.name name] with
  | none => rfl
  | some result =>
    exfalso
    have sound := LinkTree.resolve_sound isDir reached
    cases result with
    | dir other =>
      obtain ⟨fresh,isFresh,absent⟩ := system.fresh_name
      have noFile : ∀ inode, Node.link target ≠ (Node.file inode : Node Name) := fun _ other => by cases other
      have leads : system.tree.resolve system.maxLinks [] ((place ++ [name]).map .name) = some (.dir other) := by
        rw [List.map_append,LinkTree.resolve_direct_append _ (@LinkTree.direct_names _ _ system.tree [] place isDir)]
        exact reached
      have through : system.Way (place ++ [name]) := by
        refine ⟨names_of_node here,literal_of_node here noFile,?_,short _ _ here noFile⟩
        rw [leads]
        rfl
      have first : system.denote (textOf (place ++ [name]) fresh) = some (.absent other fresh) := by
        apply denote_of_follow _ fun _ same => by cases same
        rw [follow_textOf through.proper isFresh]
        exact LinkTree.resolve_append leads (LinkTree.resolve_absent 0 (absent other))
      have second : system.denote (textOf other fresh) = some (.absent other fresh) :=
        denote_entry sound isFresh (LinkTree.resolve_absent _ (absent other)) fun _ same => by cases same
      obtain ⟨same,_⟩ := exact.told through (short.way sound) isFresh isFresh first second
      rw [same,sound] at here
      cases here
    | file inode =>
      obtain ⟨other,last,there⟩ := sound
      have isLast := system.named other last _ there
      have otherDir := LinkTree.node_parent there
      have first := denote_entry isDir isName reached fun _ same => by cases same
      have second := denote_entry otherDir isLast (LinkTree.resolve_file system.maxLinks there) fun _ same => by cases same
      obtain ⟨rfl,rfl⟩ := exact.told way (short.way otherDir) isName isLast first second
      rw [here] at there
      cases there
    | absent other last =>
      obtain ⟨otherDir,none⟩ := sound
      have isLast : IsName last := by
        refine LinkTree.resolve_new IsName (fun place target here name among => targets_named place target here among) ?_ reached
        intro other among
        obtain rfl := Step.name.inj (List.mem_singleton.mp among)
        exact isName
      have first := denote_entry isDir isName reached fun _ same => by cases same
      have second := denote_entry otherDir isLast (LinkTree.resolve_absent system.maxLinks none) fun _ same => by cases same
      obtain ⟨rfl,rfl⟩ := exact.told way (short.way otherDir) isName isLast first second
      rw [here] at none
      cases none

theorem Exact.single {place other : List Name} {inode : Nat} (here : system.tree.node place = some (.file inode))
    (there : system.tree.node other = some (.file inode)) : place = other := by
  have entry : ∀ place, system.tree.node place = some (.file inode) → ∃ front name, place = front ++ [name] := by
    intro place here
    rcases List.eq_nil_or_concat' place with rfl | some
    · cases here
    · exact some
  obtain ⟨front,name,rfl⟩ := entry place here
  obtain ⟨back,last,rfl⟩ := entry other there
  have isName := system.named front name _ here
  have isLast := system.named back last _ there
  have first := denote_entry (LinkTree.node_parent here) isName (LinkTree.resolve_file system.maxLinks here) fun _ same => by cases same
  have second := denote_entry (LinkTree.node_parent there) isLast (LinkTree.resolve_file system.maxLinks there) fun _ same => by cases same
  obtain ⟨rfl,rfl⟩ := exact.told (short.way (LinkTree.node_parent here)) (short.way (LinkTree.node_parent there)) isName isLast first second
  rfl

theorem clean_of_exact : system.Clean where
  one := exact.one
  idle _ _ _ here := exact.idle short here
  single _ _ _ here there := exact.single short here there
  options _ beside := exact.options beside
  left place here := by
    have fits := (short.way here).fits
    exact ⟨_,(leftFrom_short (by rw [unitSize]; omega)).mpr rfl⟩
  apart place other rest here there left also := by
    have fits := (short.way here).fits
    have alsoFits := (short.way there).fits
    rw [leftFrom_short (by rw [unitSize]; omega)] at left also
    exact pathOf_injective (names_of_node here) (names_of_node there) (left.symm.trans also)

end Backward

end System

end MoCodes.Utils.SameFile
