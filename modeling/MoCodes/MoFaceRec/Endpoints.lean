import MoCodes.Lib.Pattern
import MoCodes.MoCloud.Proto
import Mathlib.Data.List.Induction
import Mathlib.Data.List.TakeWhile

/-! The endpoints of httpServer.c: a list that `httpSerAddEndpoint` extends or updates, and the search of
`ev_handler` for the one of a request. -/
namespace MoCodes.MoFaceRec.Endpoints
open MoCloud Lib.Pattern

structure HSEpNode where
  cMethod : Text
  cURL : Text
  stRegex : List (Atom UInt8)
  pApiFunc : UInt64
  pCheckFunc : UInt64

/-- The operators of extended regular expressions other than the anchors. -/
def operators : Text := text ".[\\()*+?\x7b|"

instance decidableLiteral (url : Text) : Decidable (∀ char ∈ url, char ∉ operators ++ text "^$") := List.decidableBAll _ _

def atomOf (char : UInt8) : Option (Atom UInt8) :=
  if char ∈ operators then none
  else if char ∈ text "^" then some .start
  else if char ∈ text "$" then some .stop
  else some (.char char)

/-- `regcomp` of an expression without operators. -/
def regcomp (urlRegular : Text) : Option (List (Atom UInt8)) := urlRegular.mapM atomOf

/-- The loop over the list, which ends at the node that it updates. -/
def updateNode (method url : Text) (apiFunc : UInt64) : List HSEpNode → Option (List HSEpNode)
  | [] => none
  | cur :: rest =>
    if method = cur.cMethod ∧ url = cur.cURL then some ({cur with pApiFunc := apiFunc} :: rest)
    else (updateNode method url apiFunc rest).map (cur :: ·)

/-- The return value and the list. Addresses are numbers, NULL is 0. -/
def httpSerAddEndpoint (gHSEpList : List HSEpNode) (method url : Text) (apiFunc checkFunc : UInt64) :
    Int × List HSEpNode :=
  if apiFunc = 0 then (0 - 1,gHSEpList)
  else match updateNode method url apiFunc gHSEpList with
    | some updated => (0,updated)
    | none =>
      match regcomp (text "^" ++ url ++ text "$") with
      | none => (0 - 1,gHSEpList)
      | some stRegex => (0,gHSEpList ++ [⟨method.take 7,url.take 127,stRegex,apiFunc,checkFunc⟩])

def slash : UInt8 := 47

/-- What is left of a full url is the path behind the host. -/
def getPureUrl (url : Text) : Text :=
  if text "http://" <+: url then
    match (url.drop 7).dropWhile (· != slash) with
    | [] => url
    | purePos => purePos
  else url

/-- The callbacks of the first endpoint that is found. -/
def dispatch (gHSEpList : List HSEpNode) (method uri : Text) : Option (UInt64 × UInt64) :=
  (gHSEpList.find? fun cur => method = cur.cMethod && found cur.stRegex (getPureUrl uri)).map
    fun cur => (cur.pApiFunc,cur.pCheckFunc)

/-- A call that succeeds: nothing in the url means anything but itself. -/
structure Registration where
  method : Text
  url : Text
  apiFunc : UInt64
  checkFunc : UInt64
  short : method.length ≤ 7
  fits : url.length ≤ 253
  literal : ∀ char ∈ url, char ∉ operators ++ text "^$"
  given : apiFunc ≠ 0

namespace Registration

def node (reg : Registration) : HSEpNode :=
  ⟨reg.method,reg.url.take 127,.start :: (reg.url.map .char ++ [.stop]),reg.apiFunc,reg.checkFunc⟩

theorem atomOf_literal {char : UInt8} (literal : char ∉ operators ++ text "^$") : atomOf char = some (.char char) := by
  have parts : text "^$" = text "^" ++ text "$" := by decide
  rw [parts,List.mem_append,List.mem_append] at literal
  simp only [not_or] at literal
  rw [atomOf,if_neg literal.1,if_neg literal.2.1,if_neg literal.2.2]

theorem mapM_literal {url : Text} (literal : ∀ char ∈ url, char ∉ operators ++ text "^$") :
    url.mapM atomOf = some (url.map .char) := by
  induction url with
  | nil => rfl
  | cons char url ih =>
    rw [List.mapM_cons,atomOf_literal (literal char List.mem_cons_self),
      ih fun other among => literal other (List.mem_cons_of_mem _ among)]
    rfl

theorem regcomp_url (reg : Registration) :
    regcomp (text "^" ++ reg.url ++ text "$") = some (.start :: (reg.url.map .char ++ [.stop])) := by
  have front : (text "^").mapM atomOf = some [.start] := by decide
  have back : (text "$").mapM atomOf = some [.stop] := by decide
  rw [regcomp,List.mapM_append,List.mapM_append,front,back,mapM_literal reg.literal]
  rfl

theorem urlRegular_fits (reg : Registration) : (text "^" ++ reg.url ++ text "$").length+1 ≤ 256 := by
  have fits := reg.fits
  simp [text]
  omega

end Registration

def add (gHSEpList : List HSEpNode) (reg : Registration) : List HSEpNode :=
  (httpSerAddEndpoint gHSEpList reg.method reg.url reg.apiFunc reg.checkFunc).2

def run (history : List Registration) : List HSEpNode := history.foldl add []

def HSEpNode.withApi (node : HSEpNode) (apiFunc : UInt64) : HSEpNode := {node with pApiFunc := apiFunc}

/-- Where the loop ends at the end of the list, the new node is put there. -/
def addTo (reg : Registration) : List HSEpNode → List HSEpNode
  | [] => [reg.node]
  | cur :: rest =>
    if reg.method = cur.cMethod ∧ reg.url = cur.cURL then cur.withApi reg.apiFunc :: rest
    else cur :: addTo reg rest

theorem updateNode_addTo (reg : Registration) (gHSEpList : List HSEpNode) :
    (updateNode reg.method reg.url reg.apiFunc gHSEpList).getD (gHSEpList ++ [reg.node]) = addTo reg gHSEpList := by
  induction gHSEpList with
  | nil => rfl
  | cons cur rest ih =>
    rw [updateNode,addTo,← ih]
    split
    · rfl
    · cases updateNode reg.method reg.url reg.apiFunc rest <;> rfl

theorem httpSerAddEndpoint_addTo (gHSEpList : List HSEpNode) (reg : Registration) :
    httpSerAddEndpoint gHSEpList reg.method reg.url reg.apiFunc reg.checkFunc = (0,addTo reg gHSEpList) := by
  rw [httpSerAddEndpoint,if_neg reg.given,reg.regcomp_url,← updateNode_addTo]
  cases updateNode reg.method reg.url reg.apiFunc gHSEpList with
  | some updated => rfl
  | none =>
    rw [List.take_of_length_le reg.short]
    rfl

theorem run_concat (history : List Registration) (reg : Registration) :
    run (history ++ [reg]) = addTo reg (run history) := by
  rw [run,List.foldl_append,List.foldl_cons,List.foldl_nil,add,httpSerAddEndpoint_addTo]
  rfl

/-- A node is as a registration has made it, but for the API callback. -/
def Made (node : HSEpNode) : Prop := ∃ (reg : Registration) (apiFunc : UInt64), node = reg.node.withApi apiFunc

theorem addTo_made {reg : Registration} {gHSEpList : List HSEpNode} (made : ∀ node ∈ gHSEpList, Made node) :
    ∀ node ∈ addTo reg gHSEpList, Made node := by
  induction gHSEpList with
  | nil =>
    intro node among
    obtain rfl := List.mem_singleton.mp among
    exact ⟨reg,reg.apiFunc,rfl⟩
  | cons cur rest ih =>
    intro node among
    rw [addTo] at among
    split at among
    · rcases List.mem_cons.mp among with rfl | later
      · obtain ⟨earlier,apiFunc,rfl⟩ := made cur List.mem_cons_self
        exact ⟨earlier,reg.apiFunc,rfl⟩
      · exact made node (List.mem_cons_of_mem _ later)
    · rcases List.mem_cons.mp among with rfl | later
      · exact made node List.mem_cons_self
      · exact ih (fun other inside => made other (List.mem_cons_of_mem _ inside)) node later

theorem run_made (history : List Registration) : ∀ node ∈ run history, Made node := by
  induction history using List.reverseRecOn with
  | nil => exact fun node none => absurd none List.not_mem_nil
  | append_singleton history reg ih =>
    rw [run_concat]
    exact addTo_made ih

section Group

variable (method stored : Text)

def HSEpNode.inGroup (node : HSEpNode) : Bool := node.cMethod = method ∧ node.cURL = stored

/-- The registrations that are stored alike, as a url is cut to 127 characters. -/
def Registration.inGroup (reg : Registration) : Bool := reg.method = method ∧ reg.url.take 127 = stored

variable {method stored}

theorem inGroup_same {cur : HSEpNode} {reg : Registration} (made : Made cur)
    (same : reg.method = cur.cMethod ∧ reg.url = cur.cURL) : cur.inGroup method stored = reg.inGroup method stored := by
  obtain ⟨earlier,apiFunc,rfl⟩ := made
  have cut : reg.url.take 127 = reg.url := by
    rw [same.2]
    exact List.take_of_length_le (List.length_take_le 127 earlier.url)
  rw [HSEpNode.inGroup,Registration.inGroup,cut,same.1,same.2]

theorem addTo_filter {gHSEpList : List HSEpNode} (made : ∀ node ∈ gHSEpList, Made node) (reg : Registration) :
    (addTo reg gHSEpList).filter (·.inGroup method stored) =
      if reg.inGroup method stored then addTo reg (gHSEpList.filter (·.inGroup method stored))
      else gHSEpList.filter (·.inGroup method stored) := by
  induction gHSEpList with
  | nil =>
    have alike : reg.node.inGroup method stored = reg.inGroup method stored := rfl
    rw [addTo,List.filter_cons,List.filter_nil,alike]
    rfl
  | cons cur rest ih =>
    have rest' := ih fun other among => made other (List.mem_cons_of_mem _ among)
    by_cases same : reg.method = cur.cMethod ∧ reg.url = cur.cURL
    · have alike : cur.inGroup method stored = reg.inGroup method stored := inGroup_same (made cur List.mem_cons_self) same
      have kept : (cur.withApi reg.apiFunc).inGroup method stored = reg.inGroup method stored := alike
      rw [addTo,if_pos same,List.filter_cons,List.filter_cons,kept,alike]
      split
      · rw [addTo,if_pos same]
      · rfl
    · rw [addTo,if_neg same,List.filter_cons,List.filter_cons,rest']
      split
      · rw [addTo,if_neg same]
        split <;> rfl
      · rfl

theorem run_filter (history : List Registration) :
    (run history).filter (·.inGroup method stored) = run (history.filter (·.inGroup method stored)) := by
  induction history using List.reverseRecOn with
  | nil => rfl
  | append_singleton history reg ih =>
    rw [run_concat,addTo_filter (run_made history),ih,List.filter_append,List.filter_cons,List.filter_nil]
    split
    · rw [run_concat]
    · rw [List.append_nil]

def Registration.long (reg : Registration) : Bool := 127 < reg.url.length

/-- The API callback that a first node has in the end: the other registrations that find it are those
of what is stored in it. -/
def lastApi (first : Registration) (rest : List Registration) : UInt64 :=
  ((rest.filter fun reg => !reg.long).getLast?.map Registration.apiFunc).getD first.apiFunc

theorem addTo_long {reg : Registration} (long : reg.long) {gHSEpList : List HSEpNode}
    (made : ∀ node ∈ gHSEpList, Made node) : addTo reg gHSEpList = gHSEpList ++ [reg.node] := by
  induction gHSEpList with
  | nil => rfl
  | cons cur rest ih =>
    have other : ¬(reg.method = cur.cMethod ∧ reg.url = cur.cURL) := by
      intro same
      obtain ⟨earlier,apiFunc,rfl⟩ := made cur List.mem_cons_self
      have short : (earlier.url.take 127).length ≤ 127 := List.length_take_le 127 _
      rw [Registration.long,same.2] at long
      exact absurd short (Nat.not_le.mpr (of_decide_eq_true long))
    rw [addTo,if_neg other,ih fun node among => made node (List.mem_cons_of_mem _ among)]
    rfl

theorem run_group {first : Registration} {rest : List Registration}
    (all : ∀ reg ∈ first :: rest, reg.inGroup method stored) :
    run (first :: rest) = first.node.withApi (lastApi first rest) ::
      (rest.filter Registration.long).map Registration.node := by
  induction rest using List.reverseRecOn with
  | nil =>
    rw [← List.nil_append [first],run_concat]
    rfl
  | append_singleton rest reg ih =>
    have rest' := ih fun other among => all other (by simp at among ⊢; tauto)
    rw [← List.cons_append,run_concat]
    cases long : reg.long with
    | true =>
      rw [addTo_long long (run_made _),rest']
      simp [lastApi,long]
    | false =>
      have front := of_decide_eq_true (all first List.mem_cons_self)
      have here := of_decide_eq_true (all reg (by simp))
      have whole : reg.url.take 127 = reg.url :=
        List.take_of_length_le (Nat.not_lt.mp (of_decide_eq_false long))
      have same : reg.method = first.method ∧ reg.url = first.url.take 127 :=
        ⟨here.1.trans front.1.symm,whole.symm.trans (here.2.trans front.2.symm)⟩
      rw [rest',addTo]
      refine (if_pos same).trans ?_
      simp [lastApi,long,HSEpNode.withApi]

end Group

section Served

variable (history : List Registration) (method url : Text)

def Registration.callbacks (reg : Registration) : UInt64 × UInt64 := (reg.apiFunc,reg.checkFunc)

/-- What a request gets: the node of the first registration in its group if it is of the url itself,
and else the first one of a long url. -/
def served : Option (UInt64 × UInt64) :=
  match history.filter (·.inGroup method (url.take 127)) with
  | [] => none
  | first :: rest =>
    if first.url = url then some (lastApi first rest,first.checkFunc)
    else ((rest.filter Registration.long).find? (·.url = url)).map Registration.callbacks

theorem found_withApi (reg : Registration) (apiFunc : UInt64) :
    found (reg.node.withApi apiFunc).stRegex url = decide (reg.url = url) := by
  rw [Bool.eq_iff_iff,decide_eq_true_eq]
  exact (found_word reg.url url).trans eq_comm

theorem find_group {gHSEpList : List HSEpNode} (made : ∀ node ∈ gHSEpList, Made node) :
    gHSEpList.find? (fun cur => method = cur.cMethod && found cur.stRegex url) =
      (gHSEpList.filter (·.inGroup method (url.take 127))).find? (fun cur => found cur.stRegex url) := by
  rw [List.find?_filter,← List.head?_filter,← List.head?_filter]
  refine congrArg List.head? (List.filter_congr fun node among => ?_)
  obtain ⟨reg,apiFunc,rfl⟩ := made node among
  rw [found_withApi]
  by_cases own : reg.url = url
  · have cut : (reg.node.withApi apiFunc).cURL = url.take 127 := congrArg (List.take 127) own
    simp [HSEpNode.inGroup,own,cut,eq_comm]
  · simp [own]

theorem dispatch_served (uri : Text) :
    dispatch (run history) method uri = served history method (getPureUrl uri) := by
  rw [dispatch,find_group method (getPureUrl uri) (run_made history),run_filter,served]
  generalize getPureUrl uri = url
  have grouped : ∀ reg ∈ history.filter (·.inGroup method (url.take 127)), reg.inGroup method (url.take 127) :=
    fun reg among => (List.mem_filter.mp among).2
  cases split : history.filter (·.inGroup method (url.take 127)) with
  | nil => rfl
  | cons first rest =>
    dsimp only
    rw [run_group (split ▸ grouped),List.find?_cons,found_withApi]
    by_cases own : first.url = url
    · rw [if_pos own,decide_eq_true own]
      rfl
    · have others : ((fun cur => found cur.stRegex url) ∘ Registration.node) = fun reg => decide (reg.url = url) :=
        funext fun reg => found_withApi url reg reg.apiFunc
      rw [if_neg own,decide_eq_false own,List.find?_map,others,Option.map_map]
      rfl

def Registration.isOf (reg : Registration) : Bool := reg.method = method ∧ reg.url = url

/-- The registrations of a method and url. -/
def registrations : List Registration := history.filter (·.isOf method url)

/-- Every request gets the callbacks that were registered last for its method and url, or none. -/
def Dispatches : Prop :=
  ∀ method uri, dispatch (run history) method uri =
    (registrations history method (getPureUrl uri)).getLast?.map Registration.callbacks

/-- The registrations of a url that requests can have agree as far as the code needs it. -/
structure Agree : Prop where
  check : ∀ first last, (registrations history method url).head? = some first →
    (registrations history method url).getLast? = some last → first.checkFunc = last.checkFunc
  api : 127 < url.length → ∀ first last, (registrations history method url).head? = some first →
    (registrations history method url).getLast? = some last → first.apiFunc = last.apiFunc
  own : url.length = 127 → registrations history method url ≠ [] →
    ∀ leader, history.find? (fun reg => reg.method = method ∧ url <+: reg.url) = some leader → leader.url = url

variable {history method url}

section First

variable {first : Registration} {rest : List Registration}
  (split : history.filter (·.inGroup method (url.take 127)) = first :: rest)

include split

theorem registrations_group : registrations history method url = (first :: rest).filter (·.url = url) := by
  rw [← split,List.filter_filter]
  refine List.filter_congr fun reg _ => ?_
  by_cases own : reg.url = url
  · simp [Registration.isOf,Registration.inGroup,own]
  · simp [Registration.isOf,own]

theorem grouped {reg : Registration} (among : reg ∈ first :: rest) :
    reg.method = method ∧ reg.url.take 127 = url.take 127 := by
  rw [← split] at among
  exact of_decide_eq_true (List.mem_filter.mp among).2

/-- The node of the first one has the last API callback of what is stored in it. -/
theorem served_first (own : first.url = url) : served history method url = some (lastApi first rest,first.checkFunc) := by
  rw [served,split]
  exact if_pos own

theorem served_short (other : first.url ≠ url) (short : url.length ≤ 127) : served history method url = none := by
  rw [served,split]
  refine (if_neg other).trans ?_
  rw [Option.map_eq_none_iff,List.find?_eq_none]
  intro reg among
  have long := of_decide_eq_true (List.mem_filter.mp among).2
  rw [decide_eq_true_eq]
  rintro rfl
  exact absurd short (Nat.not_le.mpr long)

theorem served_long (other : first.url ≠ url) (long : 127 < url.length) :
    served history method url = (registrations history method url).head?.map Registration.callbacks := by
  rw [served,split]
  refine (if_neg other).trans ?_
  have same : rest.find? (fun reg => reg.long ∧ decide (reg.url = url)) = rest.find? (fun reg => reg.url = url) := by
    refine congrArg (List.find? · rest) (funext fun reg => ?_)
    by_cases own : reg.url = url
    · simp [Registration.long,own,long]
    · simp [own]
  rw [registrations_group split,List.head?_filter,List.find?_cons_of_neg (by simpa using other),List.find?_filter,same]

theorem registrations_first (own : first.url = url) :
    registrations history method url = first :: rest.filter (·.url = url) := by
  rw [registrations_group split,List.filter_cons_of_pos (by simpa using own)]

theorem short_iff (short : url.length ≤ 127) {reg : Registration} (among : reg ∈ first :: rest) :
    (!reg.long) = decide (reg.url = url) := by
  have same := (grouped split among).2
  rw [List.take_of_length_le short] at same
  rw [Bool.eq_iff_iff]
  simp only [Registration.long,Bool.not_eq_true',decide_eq_false_iff_not,Nat.not_lt,decide_eq_true_eq]
  constructor
  · intro fits
    rwa [List.take_of_length_le fits] at same
  · rintro rfl
    exact short

theorem lastApi_short (short : url.length ≤ 127) (own : first.url = url) {last : Registration}
    (final : (registrations history method url).getLast? = some last) : lastApi first rest = last.apiFunc := by
  have same : rest.filter (fun reg => !reg.long) = rest.filter (·.url = url) :=
    List.filter_congr fun reg among => short_iff split short (List.mem_cons_of_mem _ among)
  rw [registrations_first split own,List.getLast?_cons] at final
  rw [lastApi,same,← Option.some.inj final]
  cases (rest.filter (·.url = url)).getLast? <;> rfl

theorem leader_first (full : url.length = 127) :
    history.find? (fun reg => reg.method = method ∧ url <+: reg.url) = some first := by
  have front := congrArg List.head? split
  rw [List.head?_filter,List.take_of_length_le (Nat.le_of_eq full),List.head?_cons] at front
  rw [← front]
  refine congrArg (List.find? · history) (funext fun reg => ?_)
  have front : url <+: reg.url ↔ reg.url.take 127 = url := by
    rw [List.prefix_iff_eq_take,full,eq_comm]
  simp only [Registration.inGroup,front]

end First

theorem getPureUrl_full {url : Text} (full : text "http://" <+: url) (inside : slash ∈ url.drop 7) :
    ∃ rest, getPureUrl url = slash :: rest ∧ (slash :: rest).length < url.length := by
  rw [getPureUrl,if_pos full]
  cases pure : (url.drop 7).dropWhile (· != slash) with
  | nil =>
    have all := List.dropWhile_eq_nil_iff.mp pure slash inside
    simp at all
  | cons char rest =>
    have stops := List.head_dropWhile_not (· != slash) (l := url.drop 7) (by rw [pure]; simp)
    simp only [pure,List.head_cons,bne_eq_false_iff_eq] at stops
    have size := (List.dropWhile_suffix (· != slash) (l := url.drop 7)).length_le
    have long := full.length_le
    rw [pure,List.length_drop] at size
    have seven : (text "http://").length = 7 := by decide
    exact ⟨rest,by rw [stops],by rw [← stops]; omega⟩

theorem getPureUrl_eq_iff (url : Text) : getPureUrl url = url ↔ ¬(text "http://" <+: url ∧ slash ∈ url.drop 7) := by
  constructor
  · intro pure ⟨full,inside⟩
    obtain ⟨rest,equal,shorter⟩ := getPureUrl_full full inside
    rw [← equal,pure] at shorter
    exact Nat.lt_irrefl _ shorter
  · intro none
    rw [getPureUrl]
    split
    case isTrue full =>
      have all : (url.drop 7).dropWhile (· != slash) = [] := by
        refine List.dropWhile_eq_nil_iff.mpr fun char among => ?_
        rw [bne_iff_ne]
        rintro rfl
        exact none ⟨full,among⟩
      rw [all]
    case isFalse => rfl

theorem getPureUrl_again (uri : Text) : getPureUrl (getPureUrl uri) = getPureUrl uri := by
  by_cases full : text "http://" <+: uri ∧ slash ∈ uri.drop 7
  · obtain ⟨rest,equal,_⟩ := getPureUrl_full full.1 full.2
    rw [equal,getPureUrl_eq_iff]
    intro ⟨again,_⟩
    obtain ⟨behind,split⟩ := again
    exact absurd (List.cons.inj split).1 (by decide)
  · rw [(getPureUrl_eq_iff uri).mpr full,(getPureUrl_eq_iff uri).mpr full]

theorem getPureUrl_take {url : Text} (pure : getPureUrl url = url) (count : Nat) :
    getPureUrl (url.take count) = url.take count := by
  rw [getPureUrl_eq_iff] at pure ⊢
  intro ⟨full,inside⟩
  refine pure ⟨full.trans (List.take_prefix _ _),?_⟩
  rw [List.drop_take] at inside
  exact List.mem_of_mem_take inside

theorem served_nil (unregistered : registrations history method url = []) : served history method url = none := by
  cases split : history.filter (·.inGroup method (url.take 127)) with
  | nil =>
    rw [served,split]
  | cons first rest =>
    have other : first.url ≠ url := by
      intro own
      rw [registrations_first split own] at unregistered
      exact List.cons_ne_nil _ _ unregistered
    rcases Nat.lt_or_ge 127 url.length with long | short
    · rw [served_long split other long,unregistered]
      rfl
    · exact served_short split other short

theorem agree_nil (unregistered : registrations history method url = []) : Agree history method url := by
  refine ⟨fun first last head _ => ?_,fun _ first last head _ => ?_,fun _ registered => absurd unregistered registered⟩
  · rw [unregistered] at head
    cases head
  · rw [unregistered] at head
    cases head

/-- A long url that is the first of its group has its node to itself where the stored text is registered
nowhere else, and nothing but its own first registration counts. -/
theorem served_head {first : Registration} {rest : List Registration}
    (split : history.filter (·.inGroup method (url.take 127)) = first :: rest)
    (long : 127 < url.length) (stored : Agree history method (url.take 127)) :
    served history method url = (registrations history method url).head?.map Registration.callbacks := by
  by_cases own : first.url = url
  · have full : (url.take 127).length = 127 := List.length_take_of_le (Nat.le_of_lt long)
    have again : (url.take 127).take 127 = url.take 127 := by rw [List.take_take,Nat.min_self]
    have alone : rest.filter (fun reg => !reg.long) = [] := by
      refine List.filter_eq_nil_iff.mpr fun reg among short => ?_
      obtain ⟨sameMethod,sameStored⟩ := grouped split (List.mem_cons_of_mem _ among)
      have whole : reg.url.take 127 = reg.url := by
        simp only [Registration.long,Bool.not_eq_true',decide_eq_false_iff_not,Nat.not_lt] at short
        exact List.take_of_length_le short
      have here : reg ∈ history := by
        have inside : reg ∈ first :: rest := List.mem_cons_of_mem _ among
        rw [← split] at inside
        exact (List.mem_filter.mp inside).1
      have registered : registrations history method (url.take 127) ≠ [] :=
        List.ne_nil_of_mem (List.mem_filter.mpr ⟨here,decide_eq_true ⟨sameMethod,whole.symm.trans sameStored⟩⟩)
      have leads := @leader_first history method _ _ _ (again.symm ▸ split) full
      have cut := stored.own full registered first leads
      rw [← cut,own] at full
      exact absurd full (Nat.ne_of_gt long)
    rw [served_first split own,lastApi,alone,registrations_first split own]
    rfl
  · exact served_long split own long

section Last

variable {first last : Registration} {rest : List Registration}
  (split : history.filter (·.inGroup method (url.take 127)) = first :: rest)
  (final : (registrations history method url).getLast? = some last)

include split final

theorem served_short_iff (short : url.length ≤ 127) :
    served history method url = some last.callbacks ↔ Agree history method url := by
  constructor
  · intro dispatched
    have own : first.url = url := by
      by_contra other
      rw [served_short split other short] at dispatched
      cases dispatched
    rw [served_first split own] at dispatched
    have same : first.checkFunc = last.checkFunc := congrArg Prod.snd (Option.some.inj dispatched)
    refine ⟨fun begins ends head tail => ?_,fun long => absurd short (Nat.not_le.mpr long),fun full _ leader leads => ?_⟩
    · rw [registrations_first split own] at head
      rw [final] at tail
      rw [← Option.some.inj head,← Option.some.inj tail,same]
    · rw [leader_first split full] at leads
      rw [← Option.some.inj leads,own]
  · intro agree
    have own : first.url = url := by
      rcases Nat.lt_or_eq_of_le short with less | full
      · have same := (grouped split List.mem_cons_self).2
        rw [List.take_of_length_le short] at same
        have size := congrArg List.length same
        rw [List.length_take] at size
        rwa [List.take_of_length_le (by omega)] at same
      · have registered : registrations history method url ≠ [] := by
          intro none
          rw [none] at final
          cases final
        exact agree.own full registered first (leader_first split full)
    have head : (registrations history method url).head? = some first := by
      rw [registrations_first split own,List.head?_cons]
    rw [served_first split own,lastApi_short split short own final,agree.check first last head final]
    rfl

theorem served_long_iff (long : 127 < url.length) (stored : Agree history method (url.take 127)) :
    served history method url = some last.callbacks ↔ Agree history method url := by
  rw [served_head split long stored]
  constructor
  · intro dispatched
    have same : ∀ begins ends, (registrations history method url).head? = some begins →
        (registrations history method url).getLast? = some ends → begins.callbacks = ends.callbacks := by
      intro begins ends head tail
      rw [head] at dispatched
      rw [final] at tail
      rw [← Option.some.inj tail]
      exact Option.some.inj dispatched
    refine ⟨fun begins ends head tail => ?_,fun _ begins ends head tail => ?_,fun full => absurd full (Nat.ne_of_gt long)⟩
    · exact congrArg Prod.snd (same begins ends head tail)
    · exact congrArg Prod.fst (same begins ends head tail)
  · intro agree
    cases head : (registrations history method url).head? with
    | none =>
      rw [List.head?_eq_none_iff.mp head] at final
      cases final
    | some begins =>
      have api := agree.api long begins last head final
      have check := agree.check begins last head final
      simp [Registration.callbacks,api,check]

end Last

theorem served_iff (stored : 127 < url.length → Agree history method (url.take 127)) :
    served history method url = (registrations history method url).getLast?.map Registration.callbacks ↔
      Agree history method url := by
  cases final : (registrations history method url).getLast? with
  | none =>
    have unregistered := List.getLast?_eq_none_iff.mp final
    exact iff_of_true (served_nil unregistered) (agree_nil unregistered)
  | some last =>
    cases split : history.filter (·.inGroup method (url.take 127)) with
    | nil =>
      have among := List.mem_filter.mp (List.mem_of_getLast? final)
      obtain ⟨sameMethod,sameUrl⟩ := of_decide_eq_true among.2
      have inside : last ∈ history.filter (·.inGroup method (url.take 127)) :=
        List.mem_filter.mpr ⟨among.1,decide_eq_true ⟨sameMethod,congrArg (List.take 127) sameUrl⟩⟩
      rw [split] at inside
      exact absurd inside List.not_mem_nil
    | cons first rest =>
      rcases Nat.lt_or_ge 127 url.length with long | short
      · exact served_long_iff split final long (stored long)
      · exact served_short_iff split final short

/-- What is registered again must bring its check callback along, and a url that is not stored whole must
have one API callback and not come before the text that is stored of it. -/
theorem dispatches_iff (history : List Registration) :
    Dispatches history ↔ ∀ method url, getPureUrl url = url → Agree history method url := by
  constructor
  · intro dispatches
    have lookedUp : ∀ method url, getPureUrl url = url → served history method url =
        (registrations history method url).getLast?.map Registration.callbacks := by
      intro method url pure
      have dispatched := dispatches method url
      rwa [dispatch_served,pure] at dispatched
    have short : ∀ method url, getPureUrl url = url → url.length ≤ 127 → Agree history method url := by
      intro method url pure short
      exact (served_iff fun long => absurd short (Nat.not_le.mpr long)).mp (lookedUp method url pure)
    intro method url pure
    refine (served_iff fun _ => ?_).mp (lookedUp method url pure)
    exact short method _ (getPureUrl_take pure 127) (List.length_take_le 127 url)
  · intro agree method uri
    have pure := getPureUrl_again uri
    rw [dispatch_served]
    refine (served_iff fun _ => ?_).mpr (agree method _ pure)
    exact agree method _ (getPureUrl_take pure 127)

end Served

def captures (apiFunc checkFunc : UInt64) (given : apiFunc ≠ 0) : Registration :=
  ⟨text "POST",text "/capture",apiFunc,checkFunc,by decide,by decide,by decide,given⟩

/-- Registered again, a url keeps the check callback it had. -/
theorem captures_again :
    let history := [captures 1 10 (by decide),captures 2 20 (by decide)]
    dispatch (run history) (text "POST") (text "/capture") = some (2,10) ∧ ¬Dispatches history := by
  intro history
  have found : dispatch (run history) (text "POST") (text "/capture") = some (2,10) := by decide
  refine ⟨found,fun dispatches => ?_⟩
  have last := dispatches (text "POST") (text "/capture")
  rw [found] at last
  exact absurd last (by decide)

end MoCodes.MoFaceRec.Endpoints
