import MoCodes.MoCloud.Proto
import MoCodes.Lib.Layout

/-! How the client and the server agree on a key, moCloudClientLib.c and cliCtrl.cpp, on the
bytes they exchange. Nothing is encrypted yet, and the checksum is left as it is. -/
namespace MoCodes.MoCloud.KeyAgree
open MoCodes.Lib.Layout

inductive CryptAlgo where
  | idle | des | des3 | rc4 | rsa | max
  deriving DecidableEq,Repr

def CryptAlgo.toWire : CryptAlgo → Nat
  | .idle => 0
  | .des => 1
  | .des3 => 2
  | .rc4 => 3
  | .rsa => 4
  | .max => 5

def markMaxLen : Nat := 16

/-- The size of the union MOCLOUD_CRYPT_KEY_INFO; `rc4Key` is its largest member. -/
def cryptKeySize : Nat := 256

/-- MOCLOUD_CRYPT_INFO, whose key bytes are all those of the union. -/
structure CryptInfo where
  cryptAlgoNo : CryptAlgo
  cryptKey : List UInt8
  keyLen : Int32
  size : cryptKey.length = cryptKeySize

def CryptInfo.bytes (info : CryptInfo) : List UInt8 :=
  writeLE 4 info.cryptAlgoNo.toWire ++ (info.cryptKey ++ writeInt 4 info.keyLen.toInt)

def cryptInfoSize : Nat := 264

def keyAgreeRequestSize : Nat := 24

/-- `sizeof(MOCLOUD_KEYAGREE_RESPONSE)`, whose `info` lies at `infoOffset`. -/
def keyAgreeResponseSize : Nat := 292

def infoOffset : Nat := 24

/-- `sizeof(MOCLOUD_CTRL_RESPONSE)`. -/
def ctrlResponseSize : Nat := 48

/-- One turn of a loop that waits for a message with `select` and `readn`. -/
inductive Attempt where
  | selectFailed
  | timeout
  | noMemory
  | readn (got : List UInt8)
  deriving DecidableEq

/-- What a loop returns, the message if it has one, and all it has read. -/
structure Got where
  ret : Int
  message : Option (List UInt8)
  read : List UInt8
  deriving DecidableEq

def ctrlCmdTimeout : Nat := 3

/-- The mark, the command and the checksum of a message; moCloudUtilsCheck_crcCheckValue is a stub
that always returns 0. -/
def isKeyAgree (mark message : List UInt8) : Bool :=
  isText message mark && readLE (slice message markMaxLen 4) == CmdId.keyAgree.toWire

namespace Server

/-- What the calls of `CliCtrl::doKeyAgree` answer; `taken` is how much the socket takes. -/
structure Answers where
  attempts : Nat → Attempt
  malloc : Bool
  taken : Nat

/-- `mCryptInfo` is what is stored when `doKeyAgree` returns. -/
structure Agreed where
  ret : Int
  mCryptInfo : CryptInfo
  read : List UInt8
  sent : List UInt8

/-- The rest of the three attempts, of which `i` is the next. -/
def getReqLoop (attempts : Nat → Attempt) : Nat → Nat → Int → List UInt8 → Got
  | 0,_,ret,read => ⟨ret,none,read⟩
  | left+1,i,_,read =>
    match attempts i with
    | .selectFailed => getReqLoop attempts left (i+1) (-2) read
    | .timeout => getReqLoop attempts left (i+1) (-2) read
    | .noMemory => ⟨-3,none,read⟩
    | .readn got =>
      if got.length ≠ keyAgreeRequestSize then getReqLoop attempts left (i+1) (-4) (read ++ got)
      else if isKeyAgree markClient got then ⟨0,some got,read ++ got⟩
      else getReqLoop attempts left (i+1) (-6) (read ++ got)

def getKeyAgreeReqFromCli (attempts : Nat → Attempt) : Got := getReqLoop attempts 3 0 0 []

/-- The response in memory; its checksum stays 0. -/
def response (cryptInfo : CryptInfo) : List UInt8 :=
  padded markMaxLen markServer ++
    (writeLE 4 CmdId.keyAgree.toWire ++ (writeInt 4 0 ++ (cryptInfo.bytes ++ writeLE 4 0)))

def sendKeyAgreeResp (answers : Answers) (cryptInfo : CryptInfo) : Int × List UInt8 :=
  if !answers.malloc then (-1,[])
  else if answers.taken < keyAgreeResponseSize then (-3,(response cryptInfo).take answers.taken)
  else (0,response cryptInfo)

/-- `cryptInfo` is what `getCryptInfo4Cli` has chosen. -/
def doKeyAgree (answers : Answers) (mCryptInfo cryptInfo : CryptInfo) : Agreed :=
  let got := getKeyAgreeReqFromCli answers.attempts
  if got.ret < 0 then ⟨-1,mCryptInfo,got.read,[]⟩
  else
    let (ret,sent) := sendKeyAgreeResp answers cryptInfo
    if ret < 0 then ⟨-2,mCryptInfo,got.read,sent⟩ else ⟨0,cryptInfo,got.read,sent⟩

/-- `desKey` is all of the union that is written. -/
def getCryptInfo4Cli (unset : List UInt8) (size : unset.length = cryptKeySize-8) : CryptInfo where
  cryptAlgoNo := .des
  cryptKey := [1,2,3,4,5,6,7,8] ++ unset
  keyLen := 8
  size := by rw [List.length_append,size]; rfl

end Server

namespace Client

/-- `malloc` is for the request and for the response. -/
structure Answers where
  mallocReq : Bool
  taken : Nat
  mallocResp : Bool
  attempts : Nat → Attempt

/-- `gCryptInfo` is the memory of the global variable when `doKeyAgree` returns. -/
structure Agreed where
  ret : Int
  gCryptInfo : List UInt8
  read : List UInt8
  sent : List UInt8

def request : List UInt8 :=
  padded markMaxLen markClient ++ (writeLE 4 CmdId.keyAgree.toWire ++ writeLE 4 0)

/-- The loop of `getKeyAgreeResp`, with `left` of the three counts still to go. -/
def getRespLoop (attempts : Nat → Attempt) : Nat → Nat → List UInt8 → Got
  | 0,_,read => ⟨-4,none,read⟩
  | left+1,i,read =>
    match attempts i with
    | .selectFailed => ⟨-4,none,read⟩
    | .timeout => getRespLoop attempts left (i+1) read
    | .noMemory => getRespLoop attempts left (i+1) read
    | .readn got =>
      if got.length ≠ keyAgreeResponseSize then getRespLoop attempts left (i+1) (read ++ got)
      else if isKeyAgree markServer got then ⟨0,some got,read ++ got⟩
      else getRespLoop attempts left (i+1) (read ++ got)

def getKeyAgreeResp (answers : Answers) : Got :=
  if !answers.mallocResp then ⟨-3,none,[]⟩ else getRespLoop answers.attempts ctrlCmdTimeout 0 []

/-- `memcpy(pResp, &tmp, sizeof(MOCLOUD_CTRL_RESPONSE))` into a response that was all zeros. -/
def pResp (tmp : List UInt8) : List UInt8 :=
  tmp.take ctrlResponseSize ++ List.replicate (keyAgreeResponseSize-ctrlResponseSize) 0

def doKeyAgree (answers : Answers) (gCryptInfo : List UInt8) : Agreed :=
  if !answers.mallocReq then ⟨-2,gCryptInfo,[],[]⟩
  else if answers.taken < keyAgreeRequestSize then ⟨-3,gCryptInfo,[],request.take answers.taken⟩
  else
    let got := getKeyAgreeResp answers
    match got.message with
    | none => ⟨-3,gCryptInfo,got.read,request⟩
    | some tmp => ⟨0,slice (pResp tmp) infoOffset cryptInfoSize,got.read,request⟩

end Client

/-- The memory holds the algorithm, the key bytes and the key length. -/
def Holds (memory : List UInt8) (info : CryptInfo) : Prop :=
  readLE (slice memory 0 4) = info.cryptAlgoNo.toWire ∧ slice memory 4 cryptKeySize = info.cryptKey ∧
    readInt (slice memory 260 4) = info.keyLen.toInt

instance (memory : List UInt8) (info : CryptInfo) : Decidable (Holds memory info) :=
  inferInstanceAs (Decidable (_ ∧ _ ∧ _))

namespace Server

variable (cryptInfo : CryptInfo) {answers : Answers} {mCryptInfo : CryptInfo}

theorem response_length : (response cryptInfo).length = keyAgreeResponseSize := by
  simp [response,CryptInfo.bytes,cryptInfo.size,markMaxLen,cryptKeySize,keyAgreeResponseSize]

theorem response_take : (response cryptInfo).take ctrlResponseSize =
    (padded markMaxLen markServer ++ (writeLE 4 CmdId.keyAgree.toWire ++ writeInt 4 0)) ++
      (writeLE 4 cryptInfo.cryptAlgoNo.toWire ++ cryptInfo.cryptKey.take 20) := by
  have front : (padded markMaxLen markServer ++ (writeLE 4 CmdId.keyAgree.toWire ++ writeInt 4 0)).length =
      infoOffset := by simp [markMaxLen,infoOffset]
  have whole : response cryptInfo =
      (padded markMaxLen markServer ++ (writeLE 4 CmdId.keyAgree.toWire ++ writeInt 4 0)) ++
        (writeLE 4 cryptInfo.cryptAlgoNo.toWire ++
          (cryptInfo.cryptKey ++ (writeInt 4 cryptInfo.keyLen.toInt ++ writeLE 4 0))) := by
    simp [response,CryptInfo.bytes]
  have size := cryptInfo.size
  rw [whole,show ctrlResponseSize = infoOffset+24 from rfl,← front,List.take_length_add_append,
    show (24 : Nat) = (writeLE 4 cryptInfo.cryptAlgoNo.toWire).length+20 by rw [writeLE_length],
    List.take_length_add_append,List.take_append_of_le_length (by rw [size]; decide)]

theorem doKeyAgree_sent (ok : (doKeyAgree answers mCryptInfo cryptInfo).ret = 0) :
    (doKeyAgree answers mCryptInfo cryptInfo).mCryptInfo = cryptInfo ∧
      (doKeyAgree answers mCryptInfo cryptInfo).sent = response cryptInfo := by
  by_cases asked : (getKeyAgreeReqFromCli answers.attempts).ret < 0
  · simp [doKeyAgree,asked] at ok
  cases memory : answers.malloc with
  | false => simp [doKeyAgree,asked,sendKeyAgreeResp,memory] at ok
  | true =>
    by_cases short : answers.taken < keyAgreeResponseSize
    · simp [doKeyAgree,asked,sendKeyAgreeResp,memory,short] at ok
    · simp [doKeyAgree,asked,sendKeyAgreeResp,memory,short]

end Server

namespace Client

variable {answers : Answers} {gCryptInfo : List UInt8}

theorem getResp_message {attempts : Nat → Attempt} {left i : Nat} {read tmp : List UInt8}
    (taken : (getRespLoop attempts left i read).message = some tmp) :
    tmp.length = keyAgreeResponseSize ∧ tmp <:+ (getRespLoop attempts left i read).read := by
  induction left generalizing i read with
  | zero => cases taken
  | succ left ih =>
    rw [getRespLoop] at taken ⊢
    split at taken
    · cases taken
    · exact ih taken
    · exact ih taken
    · rename_i got _
      by_cases short : got.length ≠ keyAgreeResponseSize
      · rw [if_pos short] at taken ⊢
        exact ih taken
      · rw [if_neg short] at taken ⊢
        by_cases right : isKeyAgree markServer got
        · rw [if_pos right] at taken ⊢
          obtain rfl := Option.some.inj taken
          exact ⟨not_not.mp short,List.suffix_append _ _⟩
        · rw [if_neg right] at taken ⊢
          exact ih taken

theorem doKeyAgree_stored (ok : (doKeyAgree answers gCryptInfo).ret = 0) :
    ∃ tmp, tmp.length = keyAgreeResponseSize ∧ tmp <:+ (doKeyAgree answers gCryptInfo).read ∧
      (doKeyAgree answers gCryptInfo).gCryptInfo = slice (pResp tmp) infoOffset cryptInfoSize := by
  rw [doKeyAgree] at ok ⊢
  by_cases memory : (!answers.mallocReq) = true
  · simp [memory] at ok
  by_cases short : answers.taken < keyAgreeRequestSize
  · simp [memory,short] at ok
  rw [if_neg memory,if_neg short] at ok ⊢
  dsimp only at ok ⊢
  split at ok
  · simp at ok
  · rename_i tmp taken
    have got := taken
    rw [getKeyAgreeResp] at taken
    split at taken
    · cases taken
    · rename_i room
      obtain ⟨size,last⟩ := getResp_message taken
      refine ⟨tmp,size,?_,?_⟩
      · rw [getKeyAgreeResp,if_neg room]
        exact last
      · rfl

end Client

/-- `stored` keeps the algorithm, and of the key bytes and the key length what lies in front of
the size of the shorter structure. -/
theorem stored_eq (cryptInfo : CryptInfo) :
    slice (Client.pResp (Server.response cryptInfo)) infoOffset cryptInfoSize =
      writeLE 4 cryptInfo.cryptAlgoNo.toWire ++
        ((cryptInfo.cryptKey.take 20 ++ List.replicate 236 0) ++ List.replicate 4 0) := by
  have front : (padded markMaxLen markServer ++ (writeLE 4 CmdId.keyAgree.toWire ++ writeInt 4 0)).length =
      infoOffset := by simp [markMaxLen,infoOffset]
  have kept : (cryptInfo.cryptKey.take 20).length = 20 := by
    rw [List.length_take,cryptInfo.size]
    rfl
  have zeros : List.replicate (keyAgreeResponseSize-ctrlResponseSize) (0 : UInt8) =
      List.replicate 236 0 ++ (List.replicate 4 0 ++ List.replicate 4 0) := by
    rw [List.replicate_append_replicate,List.replicate_append_replicate]
    rfl
  have whole : Client.pResp (Server.response cryptInfo) =
      (padded markMaxLen markServer ++ (writeLE 4 CmdId.keyAgree.toWire ++ writeInt 4 0)) ++
        ((writeLE 4 cryptInfo.cryptAlgoNo.toWire ++
          ((cryptInfo.cryptKey.take 20 ++ List.replicate 236 0) ++ List.replicate 4 0)) ++
            List.replicate 4 0) := by
    rw [Client.pResp,Server.response_take,zeros]
    simp only [List.append_assoc]
  rw [whole,slice_part front]
  simp only [List.length_append,writeLE_length,kept,List.length_replicate]
  rfl

theorem holds_stored (cryptInfo : CryptInfo) :
    Holds (slice (Client.pResp (Server.response cryptInfo)) infoOffset cryptInfoSize) cryptInfo ↔
      cryptInfo.keyLen = 0 ∧ cryptInfo.cryptKey.drop 20 = List.replicate 236 0 := by
  have kept : (cryptInfo.cryptKey.take 20 ++ List.replicate 236 0).length = cryptKeySize := by
    rw [List.length_append,List.length_take,cryptInfo.size,List.length_replicate]
    rfl
  have algo : slice (slice (Client.pResp (Server.response cryptInfo)) infoOffset cryptInfoSize) 0 4 =
      writeLE 4 cryptInfo.cryptAlgoNo.toWire := by
    rw [stored_eq,slice,List.drop_zero,List.take_left' (writeLE_length _ _)]
  have key : slice (slice (Client.pResp (Server.response cryptInfo)) infoOffset cryptInfoSize) 4 cryptKeySize =
      cryptInfo.cryptKey.take 20 ++ List.replicate 236 0 := by
    rw [stored_eq,slice_part (writeLE_length _ _) kept]
  have len : slice (slice (Client.pResp (Server.response cryptInfo)) infoOffset cryptInfoSize) 260 4 =
      List.replicate 4 0 := by
    rw [stored_eq,← List.append_assoc,slice,List.drop_left',List.take_of_length_le (by simp)]
    rw [List.length_append,writeLE_length,kept]
    rfl
  have wire : cryptInfo.cryptAlgoNo.toWire % 256^4 = cryptInfo.cryptAlgoNo.toWire := by
    cases cryptInfo.cryptAlgoNo <;> rfl
  have zero : readInt (List.replicate 4 0) = 0 := by
    simp [readInt,readLE,List.replicate,Int.bmod_def]
  have none : (0 : Int32).toInt = 0 := rfl
  rw [Holds,algo,key,len,readLE_writeLE,wire,zero]
  constructor
  · rintro ⟨_,same,absent⟩
    refine ⟨Int32.toInt_inj.mp (absent.symm.trans none.symm),?_⟩
    have parts := same.trans (List.take_append_drop 20 cryptInfo.cryptKey).symm
    exact (List.append_cancel_left parts).symm
  · rintro ⟨absent,same⟩
    refine ⟨rfl,?_,by rw [absent,none]⟩
    rw [← same,List.take_append_drop]

section Exchange

variable (cryptInfo mCryptInfo : CryptInfo)

theorem response_right : isKeyAgree markServer (Server.response cryptInfo) = true := by
  have command : slice (Server.response cryptInfo) markMaxLen 4 = writeLE 4 CmdId.keyAgree.toWire :=
    slice_part (padded_length _ _) (writeLE_length _ _)
  rw [isKeyAgree,Server.response,isText_padded (by decide),← Server.response,command]
  rfl

/-- The answers when the first message that comes is the whole response. -/
def clientAnswers : Client.Answers := ⟨true,keyAgreeRequestSize,true,fun _ => .readn (Server.response cryptInfo)⟩

def serverAnswers : Server.Answers := ⟨fun _ => .readn Client.request,true,keyAgreeResponseSize⟩

theorem client_takes (gCryptInfo : List UInt8) : Client.doKeyAgree (clientAnswers cryptInfo) gCryptInfo =
    ⟨0,slice (Client.pResp (Server.response cryptInfo)) infoOffset cryptInfoSize,
      Server.response cryptInfo,Client.request⟩ := by
  have size : (Server.response cryptInfo).length = keyAgreeResponseSize := Server.response_length cryptInfo
  simp [Client.doKeyAgree,Client.getKeyAgreeResp,clientAnswers,ctrlCmdTimeout,Client.getRespLoop,size,
    response_right]

theorem server_sends : Server.doKeyAgree serverAnswers mCryptInfo cryptInfo =
    ⟨0,cryptInfo,Client.request,Server.response cryptInfo⟩ := by
  have asked : Server.getKeyAgreeReqFromCli serverAnswers.attempts = ⟨0,some Client.request,Client.request⟩ := rfl
  rw [Server.doKeyAgree,asked]
  simp [Server.sendKeyAgreeResp,serverAnswers]

end Exchange

/-- Both sides agree on a key whose length is 0 and whose bytes from the twentieth on are 0. -/
theorem keyAgree_agree_iff (client : Client.Answers) (server : Server.Answers) (gCryptInfo : List UInt8)
    (mCryptInfo cryptInfo : CryptInfo)
    (clientOk : (Client.doKeyAgree client gCryptInfo).ret = 0)
    (serverOk : (Server.doKeyAgree server mCryptInfo cryptInfo).ret = 0)
    (channel : (Client.doKeyAgree client gCryptInfo).read <+:
      (Server.doKeyAgree server mCryptInfo cryptInfo).sent) :
    Holds (Client.doKeyAgree client gCryptInfo).gCryptInfo
        (Server.doKeyAgree server mCryptInfo cryptInfo).mCryptInfo ↔
      cryptInfo.keyLen = 0 ∧ cryptInfo.cryptKey.drop 20 = List.replicate 236 0 := by
  obtain ⟨kept,sent⟩ := Server.doKeyAgree_sent cryptInfo serverOk
  obtain ⟨tmp,size,last,stored⟩ := Client.doKeyAgree_stored clientOk
  have all := Server.response_length cryptInfo
  rw [sent] at channel
  have bound := channel.length_le
  have inside := last.length_le
  have read : (Client.doKeyAgree client gCryptInfo).read = Server.response cryptInfo :=
    channel.eq_of_length (by omega)
  have taken : tmp = Server.response cryptInfo := by
    rw [← read]
    exact last.eq_of_length (by rw [read]; omega)
  rw [kept,stored,taken]
  exact holds_stored cryptInfo

def noKey : CryptInfo := ⟨.idle,List.replicate cryptKeySize 0,0,List.length_replicate⟩

def desKey : CryptInfo := Server.getCryptInfo4Cli (List.replicate (cryptKeySize-8) 0) List.length_replicate

theorem keyAgree_agree_noKey :
    Holds (Client.doKeyAgree (clientAnswers noKey) []).gCryptInfo
      (Server.doKeyAgree serverAnswers desKey noKey).mCryptInfo := by
  refine (keyAgree_agree_iff (clientAnswers noKey) serverAnswers [] desKey noKey ?_ ?_ ?_).mpr ⟨rfl,rfl⟩
  · rw [client_takes]
  · rw [server_sends]
  · rewrite [client_takes,server_sends]
    exact List.prefix_rfl

theorem keyAgree_desKey_differs :
    ∃ client server gCryptInfo mCryptInfo, (Client.doKeyAgree client gCryptInfo).ret = 0 ∧
      (Server.doKeyAgree server mCryptInfo desKey).ret = 0 ∧
      (Client.doKeyAgree client gCryptInfo).read = (Server.doKeyAgree server mCryptInfo desKey).sent ∧
      ¬ Holds (Client.doKeyAgree client gCryptInfo).gCryptInfo
        (Server.doKeyAgree server mCryptInfo desKey).mCryptInfo := by
  refine ⟨clientAnswers desKey,serverAnswers,[],noKey,?_⟩
  rw [client_takes,server_sends]
  refine ⟨rfl,rfl,rfl,fun held => ?_⟩
  have length := ((holds_stored desKey).mp held).1
  exact absurd length (by decide)

end MoCodes.MoCloud.KeyAgree
