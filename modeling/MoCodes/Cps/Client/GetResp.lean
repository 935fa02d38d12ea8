import MoCodes.Cps.CpsUtils

/-! getRespFromServer of moCpsClient.c on a control socket that does not block. Each of
its three reads meets its own answers; `sent` are the bytes the server sends from the
response on. The body is accepted when its `readn` is no error, whatever number of bytes
that has got. -/
namespace MoCodes.Cps.Client
open MoCodes.Lib.Transfer MoCodes.Utils.Search MoCodes.Cps.CpsUtils

def ctrlResponseBasicSize : Nat := 32

def crmmMaxSize : Nat := 2*1024*1024

/-- pBody points to `bodyLen` bytes of the response memory. -/
structure CtrlResponse where
  basicInfo : List UInt8
  pBody : Option (List UInt8)
  deriving DecidableEq

structure CtrlSock where
  basic : Nat → Answer
  left : Nat → Answer
  body : Nat → Answer
  sent : Bytes

def basicCmdId (basicInfo : List UInt8) : Nat := field basicInfo 16 4

def basicBodyLen (basicInfo : List UInt8) : Int := toInt (field basicInfo 24 4)

def bytesFrom (buf : Bytes) (len : Nat) : List UInt8 := (List.range len).map buf

/-- The memmove of the mark to the front. -/
def moveMark (buf : Bytes) (pos : Nat) : Bytes :=
  fun i => if i < ctrlResponseBasicSize-pos then buf (i+pos) else buf i

def behindKept (buf rest : Bytes) (pos : Nat) : Bytes :=
  fun i => if i < ctrlResponseBasicSize-pos then buf i else rest (i-(ctrlResponseBasicSize-pos))

/-- What is missing is read behind what was kept. -/
def readLeft (sock : CtrlSock) (pos : Nat) (cipher : Incoming) (fuel : Nat) : Option (Int × Incoming) := do
  let moved := moveMark cipher.buf pos
  let (readLen,rest) ← CpsUtils.readn sock.left sock.sent pos
    ⟨fun i => moved (ctrlResponseBasicSize-pos+i),cipher.taken⟩ fuel
  return (readLen,⟨behindKept moved rest.buf pos,rest.taken⟩)

/-- `given` are the sizes that malloc gives memory for, which may hold any `junk`. -/
def readBody (algo : CryptAlgo) (given : Nat → Bool) (junk : Bytes) (sock : CtrlSock) (taken : Nat)
    (resp : CtrlResponse) (fuel : Nat) : Option (Int × CtrlResponse) :=
  let bodyLen := basicBodyLen resp.basicInfo
  if bodyLen = 0 then some (0,{resp with pBody := none})
  else if crmmMaxSize ≤ bodyLen then some (-10,resp)
  else if given (UInt64.ofInt bodyLen).toNat = false then some (-11,resp)
  else do
    let (ret,bodyCipher) ← CpsUtils.readn sock.body sock.sent bodyLen ⟨junk,taken⟩ fuel
    if ret < 0 then return (-12,resp)
    else if algo.known = false then return (-13,resp)
    else return (0,{resp with pBody := some (bytesFrom bodyCipher.buf bodyLen.toNat)})

def checkBasic (algo : CryptAlgo) (given : Nat → Bool) (junk : Bytes) (sock : CtrlSock) (cmdId : CmdId)
    (cipher : Incoming) (resp : CtrlResponse) (fuel : Nat) : Option (Int × CtrlResponse) :=
  let plain := bytesFrom cipher.buf ctrlResponseBasicSize
  if algo.known = false then some (-7,resp)
  else if CmdId.ofWire (basicCmdId plain) ≠ some cmdId then some (-8,resp)
  else if checkCrc (plain.take 28) ≠ 0 then some (-9,resp)
  else readBody algo given junk sock cipher.taken {resp with basicInfo := plain} fuel

/-- The branch for a mark that is not at the front. -/
def leftAndCheck (algo : CryptAlgo) (given : Nat → Bool) (junk : Bytes) (sock : CtrlSock) (cmdId : CmdId) (pos : Int)
    (cipher : Incoming) (resp : CtrlResponse) (fuel : Nat) : Option (Int × CtrlResponse) := do
  let (readLen,cipher) ← readLeft sock pos.toNat cipher fuel
  if readLen ≠ pos then return (-7,resp)
  else checkBasic algo given junk sock cmdId cipher resp fuel

def getRespFromServer (algo : CryptAlgo) (given : Nat → Bool) (junk : Bytes) (sock : CtrlSock) (cmdId : CmdId)
    (select : Int) (resp : CtrlResponse) (fuel : Nat) : Option (Int × CtrlResponse) :=
  if select < 0 then some (-3,resp)
  else if select = 0 then some (-4,resp)
  else do
    let (readLen,cipher) ← CpsUtils.readn sock.basic sock.sent ctrlResponseBasicSize ⟨fun _ => 0,0⟩ fuel
    if readLen ≠ ctrlResponseBasicSize then return (-5,resp)
    else
      let pos := findMark (bytesFrom cipher.buf ctrlResponseBasicSize) markServer
      if pos < 0 then return (-6,resp)
      else if pos ≠ 0 then leftAndCheck algo given junk sock cmdId pos cipher resp fuel
      else checkBasic algo given junk sock cmdId cipher resp fuel

section Response

def respPos (sent : Bytes) : Int := findMark (bytesFrom sent ctrlResponseBasicSize) markServer

/-- The 32 bytes from the mark on. -/
def respBasic (sent : Bytes) : List UInt8 :=
  bytesFrom (fun i => sent ((respPos sent).toNat+i)) ctrlResponseBasicSize

def respBody (sent : Bytes) : List UInt8 :=
  bytesFrom (fun i => sent ((respPos sent).toNat+ctrlResponseBasicSize+i)) (basicBodyLen (respBasic sent)).toNat

/-- The response and the calls are such that the body is to be read. -/
structure BodyDue (algo : CryptAlgo) (given : Nat → Bool) (sock : CtrlSock) (cmdId : CmdId) (select : Int) : Prop where
  select : 0 < select
  basic : Delivers sock.basic ctrlResponseBasicSize
  mark : 0 ≤ respPos sock.sent
  left : Delivers sock.left (respPos sock.sent).toNat
  known : algo.known = true
  cmd : CmdId.ofWire (basicCmdId (respBasic sock.sent)) = some cmdId
  some : 0 < basicBodyLen (respBasic sock.sent)
  small : basicBodyLen (respBasic sock.sent) < crmmMaxSize
  given : given (basicBodyLen (respBasic sock.sent)).toNat = true

structure BodyRight (sent : Bytes) (resp : CtrlResponse) : Prop where
  basic : resp.basicInfo = respBasic sent
  body : resp.pBody = if basicBodyLen (respBasic sent) = 0 then none else some (respBody sent)

end Response

section Basic

variable {sock : CtrlSock} {fuel : Nat}

theorem bytesFrom_congr {buf other : Bytes} {len : Nat} (same : ∀ i < len, buf i = other i) :
    bytesFrom buf len = bytesFrom other len :=
  List.map_congr_left fun i member => same i (List.mem_range.mp member)

/-- The buffer behind the first read. -/
def basicCipher (sent : Bytes) : Incoming :=
  fill sent 0 ctrlResponseBasicSize ⟨fun _ => 0,0⟩

theorem basicCipher_buf (sent : Bytes) {i : Nat} (inside : i < ctrlResponseBasicSize) :
    (basicCipher sent).buf i = sent i := by
  rw [basicCipher,fill_whole]
  simp [inside]

theorem basicCipher_taken (sent : Bytes) : (basicCipher sent).taken = ctrlResponseBasicSize := by
  rw [basicCipher,fill_whole]
  simp

/-- The buffer behind the read of what was missing. -/
def leftCipher (sent : Bytes) (pos : Nat) : Incoming :=
  let moved := moveMark (basicCipher sent).buf pos
  let rest := fill sent 0 pos ⟨fun i => moved (ctrlResponseBasicSize-pos+i),(basicCipher sent).taken⟩
  ⟨behindKept moved rest.buf pos,rest.taken⟩

theorem leftCipher_buf (sent : Bytes) {pos i : Nat} (inside : pos ≤ ctrlResponseBasicSize)
    (bound : i < ctrlResponseBasicSize) : (leftCipher sent pos).buf i = sent (pos+i) := by
  simp only [leftCipher,behindKept,moveMark]
  by_cases front : i < ctrlResponseBasicSize-pos
  · rw [if_pos front,if_pos front,basicCipher_buf sent (by omega),Nat.add_comm]
  · have place : i-(ctrlResponseBasicSize-pos) < pos := by omega
    have there : ctrlResponseBasicSize+(i-(ctrlResponseBasicSize-pos)) = pos+i := by omega
    rw [if_neg front,fill_whole,basicCipher_taken]
    simp only [if_pos place,there]

theorem leftCipher_taken (sent : Bytes) (pos : Nat) :
    (leftCipher sent pos).taken = pos+ctrlResponseBasicSize := by
  simp only [leftCipher,fill_whole,basicCipher_taken,Nat.add_comm]

theorem readLeft_len {pos : Nat} {result : Int × Incoming}
    (ok : readLeft sock pos (basicCipher sock.sent) fuel = some result) (all : result.1 = pos) :
    Delivers sock.left pos ∧ result.2 = leftCipher sock.sent pos := by
  obtain ⟨⟨readLen,rest⟩,read,same⟩ := Option.bind_eq_some_iff.mp ok
  cases same
  obtain ⟨delivers,whole⟩ := readn_len read all
  exact ⟨delivers,by simp only at whole; rw [whole]; rfl⟩

theorem respPos_le (sent : Bytes) : (respPos sent).toNat ≤ ctrlResponseBasicSize := by
  have size : (bytesFrom sent ctrlResponseBasicSize).length = ctrlResponseBasicSize := by simp [bytesFrom]
  have inside : (respPos sent).toNat+markServer.length ≤ _ :=
    findMark_inside (by decide) (by rw [size]; decide) (by rw [size]; decide)
  omega

theorem basicCipher_mark (sent : Bytes) :
    findMark (bytesFrom (basicCipher sent).buf ctrlResponseBasicSize) markServer = respPos sent := by
  rw [respPos,bytesFrom_congr fun i inside => basicCipher_buf sent inside]

/-- The bytes that are checked are those from the mark on, wherever it was found. -/
structure Header (sent : Bytes) (cipher : Incoming) : Prop where
  bytes : bytesFrom cipher.buf ctrlResponseBasicSize = respBasic sent
  taken : cipher.taken = (respPos sent).toNat+ctrlResponseBasicSize

theorem header_basic {sent : Bytes} (front : respPos sent = 0) : Header sent (basicCipher sent) where
  bytes := bytesFrom_congr fun i inside => by rw [basicCipher_buf sent inside,front]; simp
  taken := by rw [basicCipher_taken,front]; simp

theorem header_left (sent : Bytes) : Header sent (leftCipher sent (respPos sent).toNat) where
  bytes := bytesFrom_congr fun _ inside => leftCipher_buf sent (respPos_le sent) inside
  taken := leftCipher_taken sent _

variable {algo : CryptAlgo} {given : Nat → Bool} {junk : Bytes} {cmdId : CmdId} {select : Int}
  {resp after : CtrlResponse}

theorem getRespFromServer_header (ok : getRespFromServer algo given junk sock cmdId select resp fuel = some (0,after)) :
    0 < select ∧ Delivers sock.basic ctrlResponseBasicSize ∧ 0 ≤ respPos sock.sent ∧
      Delivers sock.left (respPos sock.sent).toNat ∧
      ∃ cipher, Header sock.sent cipher ∧ checkBasic algo given junk sock cmdId cipher resp fuel = some (0,after) := by
  unfold getRespFromServer at ok
  split at ok
  · cases ok
  split at ok
  · cases ok
  obtain ⟨⟨readLen,cipher⟩,read,ok⟩ := Option.bind_eq_some_iff.mp ok
  simp only at ok
  split at ok
  · cases ok
  next all =>
  obtain ⟨basic,whole⟩ := readn_len read (not_ne_iff.mp all)
  have same : cipher = basicCipher sock.sent := whole
  rw [same,basicCipher_mark] at ok
  split at ok
  · cases ok
  next mark =>
  split at ok
  · obtain ⟨⟨leftLen,moved⟩,read,ok⟩ := Option.bind_eq_some_iff.mp ok
    simp only at ok
    split at ok
    · cases ok
    next all =>
    have len : leftLen = ((respPos sock.sent).toNat : Int) := by omega
    obtain ⟨left,whole⟩ := readLeft_len read len
    simp only at whole
    exact ⟨by omega,basic,by omega,left,_,header_left sock.sent,whole ▸ ok⟩
  · next front =>
    have zero := not_ne_iff.mp front
    have nothing : Delivers sock.left (respPos sock.sent).toNat := by
      rw [zero]
      exact ⟨0,fun j inside => absurd inside (Nat.not_lt_zero j),Nat.zero_le _⟩
    exact ⟨by omega,basic,by omega,nothing,_,header_basic zero,ok⟩

theorem readLeft_delivers {pos : Nat} (left : Delivers sock.left pos) :
    ∃ fuel, ∀ more, readLeft sock pos (basicCipher sock.sent) (fuel+more) =
      some ((pos : Int),leftCipher sock.sent pos) := by
  obtain ⟨fuel,read⟩ := readn_delivers sock.sent
    ⟨fun i => moveMark (basicCipher sock.sent).buf pos (ctrlResponseBasicSize-pos+i),(basicCipher sock.sent).taken⟩ left
  refine ⟨fuel,fun more => ?_⟩
  rw [readLeft,readn_mono more read]
  rfl

/-- With the header complete, all further depends on its checks and on the body. -/
theorem getRespFromServer_checkBasic (algo : CryptAlgo) (given : Nat → Bool) (junk : Bytes) (cmdId : CmdId)
    (resp : CtrlResponse) (readable : 0 < select)
    (basic : Delivers sock.basic ctrlResponseBasicSize) (mark : 0 ≤ respPos sock.sent)
    (left : Delivers sock.left (respPos sock.sent).toNat) :
    ∃ cipher fuel, Header sock.sent cipher ∧ ∀ more,
      getRespFromServer algo given junk sock cmdId select resp (fuel+more) =
        checkBasic algo given junk sock cmdId cipher resp (fuel+more) := by
  obtain ⟨first,read⟩ := readn_delivers sock.sent ⟨fun _ => 0,0⟩ basic
  have enter : ∀ more, getRespFromServer algo given junk sock cmdId select resp (first+more) =
      if respPos sock.sent ≠ 0 then
        leftAndCheck algo given junk sock cmdId (respPos sock.sent) (basicCipher sock.sent) resp (first+more)
      else checkBasic algo given junk sock cmdId (basicCipher sock.sent) resp (first+more) := by
    intro more
    rw [getRespFromServer,if_neg (by omega),if_neg (by omega),readn_mono more read]
    simp only [Option.bind_eq_bind,Option.bind_some,ne_eq,not_true_eq_false,if_false]
    rw [show fill sock.sent 0 ctrlResponseBasicSize ⟨fun _ => 0,0⟩ = basicCipher sock.sent from rfl,
      basicCipher_mark,if_neg (by omega)]
  by_cases front : respPos sock.sent = 0
  · exact ⟨_,first,header_basic front,fun more => by rw [enter,if_neg (not_not.mpr front)]⟩
  · obtain ⟨second,moved⟩ := readLeft_delivers left
    refine ⟨_,first+second,header_left sock.sent,fun more => ?_⟩
    have whole : ((respPos sock.sent).toNat : Int) = respPos sock.sent := Int.toNat_of_nonneg mark
    have order : first+second+more = first+(second+more) := Nat.add_assoc _ _ _
    have other : first+(second+more) = second+(first+more) := Nat.add_left_comm _ _ _
    rw [order,enter,if_pos front,leftAndCheck,other,moved]
    simp only [Option.bind_eq_bind,Option.bind_some,whole,ne_eq,not_true_eq_false,if_false]

end Basic

section Body

variable {algo : CryptAlgo} {given : Nat → Bool} {junk : Bytes} {sock : CtrlSock} {cmdId : CmdId} {select : Int}
  {resp after : CtrlResponse} {cipher : Incoming} {taken fuel : Nat}

theorem checkBasic_header (header : Header sock.sent cipher)
    (ok : checkBasic algo given junk sock cmdId cipher resp fuel = some (0,after)) :
    algo.known = true ∧ CmdId.ofWire (basicCmdId (respBasic sock.sent)) = some cmdId ∧
      readBody algo given junk sock cipher.taken {resp with basicInfo := respBasic sock.sent} fuel =
        some (0,after) := by
  simp only [checkBasic,header.bytes] at ok
  split at ok
  · cases ok
  next known =>
  split at ok
  · cases ok
  next cmd =>
  exact ⟨by simpa using known,not_ne_iff.mp cmd,ok⟩

theorem checkBasic_passes (header : Header sock.sent cipher) (known : algo.known = true)
    (cmd : CmdId.ofWire (basicCmdId (respBasic sock.sent)) = some cmdId) :
    checkBasic algo given junk sock cmdId cipher resp fuel =
      readBody algo given junk sock cipher.taken {resp with basicInfo := respBasic sock.sent} fuel := by
  simp only [checkBasic,header.bytes]
  rw [if_neg (by simp [known]),if_neg (by simp [cmd]),if_neg (by simp [checkCrc])]

theorem size_negative {bodyLen : Int} (lower : -2^31 ≤ bodyLen) (negative : bodyLen < 0) :
    2^63 ≤ (UInt64.ofInt bodyLen).toNat := by
  rw [UInt64.ofInt,UInt64.toNat_ofNat']
  omega

theorem size_toNat {bodyLen : Int} (positive : 0 ≤ bodyLen) (small : bodyLen < crmmMaxSize) :
    (UInt64.ofInt bodyLen).toNat = bodyLen.toNat := by
  unfold crmmMaxSize at small
  rw [UInt64.ofInt,UInt64.toNat_ofNat']
  omega

theorem basicBodyLen_lower (basicInfo : List UInt8) : -2^31 ≤ basicBodyLen basicInfo := by
  unfold basicBodyLen toInt
  split <;> omega

/-- A body that is accepted has been asked for, and no error ended its read. -/
theorem readBody_accepted (limited : ∀ size, 2^63 ≤ size → given size = false)
    (ok : readBody algo given junk sock taken resp fuel = some (0,after)) :
    basicBodyLen resp.basicInfo = 0 ∧ after = {resp with pBody := none} ∨
      0 < basicBodyLen resp.basicInfo ∧ basicBodyLen resp.basicInfo < crmmMaxSize ∧
        given (basicBodyLen resp.basicInfo).toNat = true ∧
        ∃ result, CpsUtils.readn sock.body sock.sent (basicBodyLen resp.basicInfo) ⟨junk,taken⟩ fuel = some result ∧
          0 ≤ result.1 ∧
          after = {resp with pBody := some (bytesFrom result.2.buf (basicBodyLen resp.basicInfo).toNat)} := by
  have lower := basicBodyLen_lower resp.basicInfo
  simp only [readBody] at ok
  split at ok
  · next none =>
    cases ok
    exact .inl ⟨none,rfl⟩
  next some =>
  split at ok
  · cases ok
  next large =>
  split at ok
  · cases ok
  next refused =>
  have positive : 0 < basicBodyLen resp.basicInfo := by
    by_contra negative
    exact refused (limited _ (size_negative lower (by omega)))
  rw [size_toNat positive.le (not_le.mp large)] at refused
  obtain ⟨result,read,ok⟩ := Option.bind_eq_some_iff.mp ok
  split at ok
  · cases ok
  next error =>
  split at ok
  · cases ok
  cases ok
  exact .inr ⟨positive,not_le.mp large,by simpa using refused,result,read,not_lt.mp error,rfl⟩

theorem readBody_read (resp : CtrlResponse) {result : Int × Incoming} (positive : 0 < basicBodyLen resp.basicInfo)
    (small : basicBodyLen resp.basicInfo < crmmMaxSize) (given' : given (basicBodyLen resp.basicInfo).toNat = true)
    (known : algo.known = true)
    (read : CpsUtils.readn sock.body sock.sent (basicBodyLen resp.basicInfo) ⟨junk,taken⟩ fuel = some result)
    (accepted : 0 ≤ result.1) :
    readBody algo given junk sock taken resp fuel =
      some (0,{resp with pBody := some (bytesFrom result.2.buf (basicBodyLen resp.basicInfo).toNat)}) := by
  simp only [readBody]
  rw [if_neg (by omega),if_neg (by omega),size_toNat positive.le small,if_neg (by simp [given']),read]
  simp only [Option.bind_eq_bind,Option.bind_some,if_neg (not_lt.mpr accepted),known]
  rfl

end Body

section Claim

variable {algo : CryptAlgo} {given : Nat → Bool} {sock : CtrlSock} {cmdId : CmdId} {select : Int}
  {resp after : CtrlResponse} {junk : Bytes}

theorem respBody_fill (sent : Bytes) {cipher : Incoming} (header : Header sent cipher) (len : Nat) :
    bytesFrom (fill sent 0 len ⟨junk,cipher.taken⟩).buf len =
      bytesFrom (fun i => sent ((respPos sent).toNat+ctrlResponseBasicSize+i)) len := by
  rw [fill_whole,header.taken]
  apply bytesFrom_congr
  intro i inside
  exact if_pos inside

theorem body_whole {fuel : Nat} (limited : ∀ size, 2^63 ≤ size → given size = false)
    (unbroken : BodyDue algo given sock cmdId select →
      ¬ Breaks sock.body (basicBodyLen (respBasic sock.sent)).toNat)
    (ok : getRespFromServer algo given junk sock cmdId select resp fuel = some (0,after)) :
    BodyRight sock.sent after := by
  obtain ⟨readable,basic,mark,left,cipher,header,checked⟩ := getRespFromServer_header ok
  obtain ⟨known,cmd,accepted⟩ := checkBasic_header header checked
  rcases readBody_accepted limited accepted with ⟨none,rfl⟩ | ⟨some,small,room,result,read,positive,rfl⟩
  · exact ⟨rfl,(if_pos none).symm⟩
  · refine ⟨rfl,?_⟩
    simp only at read some ⊢
    rw [if_neg (by omega)]
    have whole : ((basicBodyLen (respBasic sock.sent)).toNat : Int) = basicBodyLen (respBasic sock.sent) :=
      Int.toNat_of_nonneg some.le
    rw [← whole] at read
    rcases readn_nonneg read positive with ⟨_,rfl⟩ | ⟨breaks,_⟩
    · rw [respBody_fill sock.sent header,respBody]
    · exact absurd breaks (unbroken ⟨readable,basic,mark,left,known,cmd,some,small,room⟩)

/-- A body cut off by a read that would wait is accepted, with memory that nothing was read to. -/
theorem body_broken (resp : CtrlResponse) (due : BodyDue algo given sock cmdId select)
    (breaks : Breaks sock.body (basicBodyLen (respBasic sock.sent)).toNat) :
    ∃ junk fuel after, getRespFromServer algo given junk sock cmdId select resp fuel = some (0,after) ∧
      ¬ BodyRight sock.sent after := by
  obtain ⟨cipher,first,header,enter⟩ :=
    getRespFromServer_checkBasic algo given (fun i => sock.sent ((respPos sock.sent).toNat+ctrlResponseBasicSize+i)+1)
      cmdId resp due.select due.basic due.mark due.left
  obtain ⟨second,n,short,read⟩ := readn_breaks sock.sent
    ⟨fun i => sock.sent ((respPos sock.sent).toNat+ctrlResponseBasicSize+i)+1,cipher.taken⟩ breaks
  have whole : ((basicBodyLen (respBasic sock.sent)).toNat : Int) = basicBodyLen (respBasic sock.sent) :=
    Int.toNat_of_nonneg due.some.le
  rw [whole] at read
  have accepted := readBody_read ⟨respBasic sock.sent,resp.pBody⟩ due.some due.small due.given due.known
    (readn_mono first read) (Int.natCast_nonneg n)
  have ok := enter second
  rw [checkBasic_passes header due.known due.cmd,Nat.add_comm first second,accepted] at ok
  refine ⟨_,_,_,ok,fun right => ?_⟩
  have body := right.body
  rw [if_neg due.some.ne',respBody] at body
  have entry := congrArg (·[n]?) (Option.some.inj body)
  simp [bytesFrom,short,fill] at entry

/-- The body is the one the server sent, whatever the memory held, exactly when no read of it
has to wait before it is complete. -/
theorem getRespFromServer_body_iff (limited : ∀ size, 2^63 ≤ size → given size = false) (sock : CtrlSock)
    (cmdId : CmdId) (select : Int) (resp : CtrlResponse) :
    (∀ junk fuel after, getRespFromServer algo given junk sock cmdId select resp fuel = some (0,after) →
        BodyRight sock.sent after) ↔
      (BodyDue algo given sock cmdId select → ¬ Breaks sock.body (basicBodyLen (respBasic sock.sent)).toNat) := by
  constructor
  · intro right due breaks
    obtain ⟨junk,fuel,after,ok,wrong⟩ := body_broken resp due breaks
    exact wrong (right junk fuel after ok)
  · intro unbroken junk fuel after ok
    exact body_whole limited unbroken ok

/-- A response to getFileinfo with two bytes behind it. -/
def fileinfoBasic : List UInt8 := markServer ++ [0,0,0,0,4,0,0,0,0,0,0,0,2,0,0,0,0,0,0,0]

def fileinfoSock (body : Nat → Answer) : CtrlSock where
  basic _ := .moved 20
  left _ := .moved 1
  body := body
  sent := bytesOf (fileinfoBasic ++ [7,9])

def someGiven (size : Nat) : Bool := size < 2^31

theorem someGiven_limited (size : Nat) (large : 2^63 ≤ size) : someGiven size = false := by
  simp only [someGiven,decide_eq_false_iff_not]
  omega

/-- The second byte has not come yet when the first one is read. -/
theorem getRespFromServer_cut_short :
    getRespFromServer .rc4 someGiven (fun _ => 0) (fileinfoSock fun k => if k = 0 then .moved 1 else .again)
      .getFileinfo 1 ⟨[],none⟩ 3 = some (0,⟨fileinfoBasic,some [7,0]⟩) ∧
    respBody (bytesOf (fileinfoBasic ++ [7,9])) = [7,9] ∧
    ¬ BodyRight (bytesOf (fileinfoBasic ++ [7,9])) ⟨fileinfoBasic,some [7,0]⟩ := by
  have sent : respBody (bytesOf (fileinfoBasic ++ [7,9])) = [7,9] := by decide +kernel
  refine ⟨by decide +kernel,sent,fun right => ?_⟩
  have body := right.body
  rw [sent] at body
  revert body
  decide +kernel

theorem getRespFromServer_interrupted :
    (∀ junk fuel after, getRespFromServer .rc4 someGiven junk
        (fileinfoSock fun k => if k = 0 then .interrupted else .moved 1) .getFileinfo 1 ⟨[],none⟩ fuel = some (0,after) →
      BodyRight (bytesOf (fileinfoBasic ++ [7,9])) after) ∧
    getRespFromServer .rc4 someGiven (fun _ => 0) (fileinfoSock fun k => if k = 0 then .interrupted else .moved 1)
      .getFileinfo 1 ⟨[],none⟩ 4 = some (0,⟨fileinfoBasic,some [7,9]⟩) := by
  refine ⟨(getRespFromServer_body_iff someGiven_limited
    (fileinfoSock fun k => if k = 0 then .interrupted else .moved 1) .getFileinfo 1 ⟨[],none⟩).mpr ?_,by decide +kernel⟩
  rintro - ⟨k,-,-,waits⟩
  simp only [fileinfoSock] at waits
  split at waits <;> cases waits

end Claim

end MoCodes.Cps.Client
