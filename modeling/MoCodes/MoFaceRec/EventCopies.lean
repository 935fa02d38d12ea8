import MoCodes.MoFaceRec.Endpoints
import MoCodes.MoCloud.PrintInt
import MoCodes.Lib.Layout

/-! What `ev_handler` of httpServer.c copies out of a message, into variables that are zero before. Once a
byte outside a buffer is used, there is no result. -/
namespace MoCodes.MoFaceRec.EventCopies
open MoCloud Lib.Layout Lib.Pattern Endpoints

/-- `struct http_message`. The library lets no NUL into the head of a request. -/
structure HttpMessage where
  uri : Text
  method : Text
  query_string : Text
  headers : List (Text × Text)
  printable : 0 ∉ uri ++ method ++ query_string ++ headers.flatMap Prod.snd

def lower (char : UInt8) : UInt8 := if 65 ≤ char ∧ char ≤ 90 then char+32 else char

def mg_get_http_header (hm : HttpMessage) (name : Text) : Option Text :=
  (hm.headers.find? fun header => header.1.map lower = name.map lower).map Prod.snd

def zeros (size : Nat) : List UInt8 := List.replicate size 0

def memcpy (dest : List UInt8) (bytes : Text) : Option (List UInt8) :=
  if dest.length < bytes.length then none else some (bytes ++ dest.drop bytes.length)

/-- `buffer[offset] = byte`. -/
def store (buffer : List UInt8) (offset : Nat) (byte : UInt8) : Option (List UInt8) :=
  if offset < buffer.length then some (buffer.set offset byte) else none

def strlen (buffer : List UInt8) : Option Nat := if 0 ∈ buffer then some (MoCloud.cString buffer).length else none

/-- `strchr` from an offset on, where it looks for its character. -/
def strchr (buffer : List UInt8) (start : Nat) (char : UInt8) : Option (Option Nat) :=
  let front := (buffer.drop start).takeWhile fun next => next ≠ char ∧ next ≠ 0
  match buffer[start+front.length]? with
  | none => none
  | some stop => some (if stop = char then some (start+front.length) else none)

/-- The return value and the url. -/
def getPureUrl (url : List UInt8) : Option (Int × List UInt8) :=
  if text "http://" <+: url then
    match strchr url 7 slash with
    | none => none
    | some none => some (-2,url)
    | some (some pPurePos) => do
      let len := (← strlen url)-pPurePos
      let url ← memcpy url (slice url pPurePos len)
      some (0,← store url len 0)
  else some (0,url)

def inet_ntoa (sin_addr : BitVec 32) : Text :=
  digitText (sin_addr.toNat%256) ++ text "." ++ digitText (sin_addr.toNat/256%256) ++ text "." ++
    digitText (sin_addr.toNat/65536%256) ++ text "." ++ digitText (sin_addr.toNat/16777216)

/-- The strings of `struct work_request`. -/
structure WorkRequest where
  cToken : List UInt8
  cRemoteIp : List UInt8
  url : List UInt8
  method : List UInt8
  query : List UInt8

/-- A message with the address that it comes from. -/
inductive Event where
  | websocketHandshake (hm : HttpMessage)
  | httpRequest (hm : HttpMessage) (sin_addr : BitVec 32)

inductive Copied where
  | handshake (cURL : List UInt8)
  | request (req : WorkRequest)

def tokenOf (hm : HttpMessage) : Option Text :=
  (mg_get_http_header hm (text "Authorization")).or (mg_get_http_header hm (text "authorization"))

def copyUrl (uri : Text) : Option (List UInt8) := do
  let url ← memcpy (zeros 256) uri
  let (_,url) ← getPureUrl url
  some url

def copyToken (hm : HttpMessage) : Option (List UInt8) :=
  match tokenOf hm with
  | some hdr => memcpy (zeros 512) hdr
  | none => some (zeros 512)

/-- Without the header it is the address of the connection, with its NUL. -/
def copyRemoteIp (hm : HttpMessage) (sin_addr : BitVec 32) : Option (List UInt8) :=
  match mg_get_http_header hm (text "X-Real_IP") with
  | some hdr => memcpy (zeros 32) hdr
  | none => memcpy (zeros 32) (inet_ntoa sin_addr ++ [0])

def ev_handler : Event → Option Copied
  | .websocketHandshake hm => (memcpy (zeros 256) hm.uri).map .handshake
  | .httpRequest hm sin_addr => do
    let url ← copyUrl hm.uri
    let method ← memcpy (zeros 8) hm.method
    let query ← memcpy (zeros 128) hm.query_string
    let cToken ← copyToken hm
    let cRemoteIp ← copyRemoteIp hm sin_addr
    some (.request ⟨cToken,cRemoteIp,url,method,query⟩)

/-- The search over the endpoints, by the strings of the request. -/
def callbacks (gHSEpList : List HSEpNode) (req : WorkRequest) : Option (UInt64 × UInt64) :=
  (gHSEpList.find? fun cur => MoCloud.cString req.method = cur.cMethod && found cur.stRegex (MoCloud.cString req.url)).map
    fun cur => (cur.pApiFunc,cur.pCheckFunc)

/-- Each string that is copied ends in its buffer. -/
def Copied.Terminated : Copied → Prop
  | .handshake cURL => 0 ∈ cURL
  | .request req => 0 ∈ req.url ∧ 0 ∈ req.method ∧ 0 ∈ req.query ∧ 0 ∈ req.cToken ∧ 0 ∈ req.cRemoteIp

def Bounded (event : Event) : Prop := ∃ copied, ev_handler event = some copied ∧ copied.Terminated

/-- Room for each text and its NUL. -/
def Fits : Event → Prop
  | .websocketHandshake hm => hm.uri.length < 256
  | .httpRequest hm _ => hm.uri.length < 256 ∧ hm.method.length < 8 ∧ hm.query_string.length < 128 ∧
      (∀ hdr ∈ mg_get_http_header hm (text "Authorization"), hdr.length < 512) ∧
      ∀ hdr ∈ mg_get_http_header hm (text "X-Real_IP"), hdr.length < 32

section Buffers

variable {bytes : Text} {size : Nat}

/-- A text at the front of a buffer that is 0 behind it, its NUL being there. -/
def holding (bytes : Text) (behind : List UInt8) : List UInt8 := bytes ++ 0 :: behind

theorem cString_holding (plain : 0 ∉ bytes) (behind : List UInt8) : MoCloud.cString (holding bytes behind) = bytes := by
  have kept : ∀ char ∈ bytes, (char != 0) = true := fun char among => bne_iff_ne.mpr fun zero => plain (zero ▸ among)
  rw [MoCloud.cString,holding,List.takeWhile_append_of_pos kept,List.takeWhile_cons_of_neg (by decide),List.append_nil]

theorem mem_holding (bytes : Text) (behind : List UInt8) : 0 ∈ holding bytes behind :=
  List.mem_append_right _ List.mem_cons_self

theorem memcpy_short (short : bytes.length < size) :
    memcpy (zeros size) bytes = some (holding bytes (zeros (size-bytes.length-1))) := by
  have left : size-bytes.length = (size-bytes.length-1)+1 := by omega
  rw [memcpy,zeros,List.length_replicate,if_neg (by omega),List.drop_replicate,left,List.replicate_succ]
  rfl

theorem memcpy_room {dest : List UInt8} (room : bytes.length ≤ dest.length) :
    memcpy dest bytes = some (bytes ++ dest.drop bytes.length) := if_neg (Nat.not_lt.mpr room)

theorem store_behind {behind : List UInt8} (more : behind ≠ []) :
    store (bytes ++ behind) bytes.length 0 = some (holding bytes behind.tail) := by
  have positive := List.length_pos_iff.mpr more
  rw [store,List.length_append,if_pos (by omega),List.set_append_right _ _ le_rfl,Nat.sub_self]
  cases behind with
  | nil => exact absurd rfl more
  | cons next behind => rfl

theorem memcpy_full (full : bytes.length = size) : memcpy (zeros size) bytes = some bytes := by
  rw [memcpy,zeros,List.length_replicate,if_neg (by omega),List.drop_replicate,full,Nat.sub_self,List.replicate_zero,
    List.append_nil]

theorem memcpy_terminated_iff (plain : 0 ∉ bytes) :
    (∃ buffer, memcpy (zeros size) bytes = some buffer ∧ 0 ∈ buffer) ↔ bytes.length < size := by
  rcases lt_trichotomy bytes.length size with short | full | long
  · exact iff_of_true ⟨_,memcpy_short short,mem_holding _ _⟩ short
  · refine iff_of_false ?_ (by omega)
    rintro ⟨buffer,copied,zero⟩
    rw [memcpy_full full] at copied
    obtain rfl := Option.some.inj copied
    exact plain zero
  · refine iff_of_false ?_ (by omega)
    rintro ⟨buffer,copied,_⟩
    rw [memcpy,zeros,List.length_replicate,if_pos long] at copied
    cases copied

end Buffers

section PureUrl

variable {uri : Text}

theorem getPureUrl_full {url : List UInt8} {result : Int × List UInt8} (full : 0 ∉ url) (pure : getPureUrl url = some result) :
    0 ∉ result.2 := by
  have endless : strlen url = none := if_neg full
  rw [getPureUrl] at pure
  split at pure
  · split at pure
    · cases pure
    · obtain rfl := Option.some.inj pure
      exact full
    · rw [endless] at pure
      cases pure
  · obtain rfl := Option.some.inj pure
    exact full

theorem prefix_holding {front : Text} (plain : 0 ∉ front) (behind : List UInt8) :
    front <+: holding uri behind ↔ front <+: uri := by
  constructor
  · intro leads
    rcases List.prefix_or_prefix_of_prefix leads (List.prefix_append uri (0 :: behind)) with inside | ⟨rest,rfl⟩
    · exact inside
    · cases rest with
      | nil =>
        rw [List.append_nil]
      | cons next rest =>
        obtain ⟨rfl,_⟩ := List.cons_prefix_cons.mp ((List.prefix_append_right_inj uri).mp leads)
        exact absurd (List.mem_append_right _ List.mem_cons_self) plain
  · exact fun leads => leads.trans (List.prefix_append uri _)

theorem strchr_holding (plain : 0 ∉ uri) (behind : List UInt8) {start : Nat} (inside : start ≤ uri.length) :
    strchr (holding uri behind) start slash =
      some (if (uri.drop start).dropWhile (· != slash) = [] then none
        else some (start+((uri.drop start).takeWhile (· != slash)).length)) := by
  have split := List.takeWhile_append_dropWhile (p := (· != slash)) (l := uri.drop start)
  have passed : ∀ next ∈ (uri.drop start).takeWhile (· != slash), decide (next ≠ slash ∧ next ≠ 0) = true := by
    intro next among
    have other := List.mem_takeWhile_imp among
    have inside := List.mem_of_mem_drop ((List.takeWhile_prefix _).subset among)
    exact decide_eq_true ⟨bne_iff_ne.mp other,fun zero => plain (zero ▸ inside)⟩
  have stops := @List.dropWhile_get_zero_not _ (· != slash) (uri.drop start)
  generalize (uri.drop start).takeWhile (· != slash) = before at *
  generalize (uri.drop start).dropWhile (· != slash) = path at *
  have buffer : (holding uri behind).drop start = before ++ (path ++ 0 :: behind) := by
    rw [holding,List.drop_append_of_le_length inside,← split,List.append_assoc]
  have stop : ∃ next more, path ++ 0 :: behind = next :: more ∧ (next ≠ slash ∧ next ≠ 0 → False) ∧
      (next = slash ↔ path ≠ []) := by
    cases path with
    | nil => exact ⟨0,behind,rfl,fun both => both.2 rfl,by decide⟩
    | cons next more =>
      have same : next = slash := by simpa using stops (Nat.succ_pos _)
      exact ⟨next,more ++ 0 :: behind,rfl,fun both => both.1 same,by simp [same]⟩
  obtain ⟨next,more,whole,ends,same⟩ := stop
  have here : (holding uri behind)[start+before.length]? = some next := by
    rw [← List.getElem?_drop,buffer,whole,List.getElem?_append_right le_rfl,Nat.sub_self]
    rfl
  have front : ((holding uri behind).drop start).takeWhile (fun next => next ≠ slash ∧ next ≠ 0) = before := by
    rw [buffer,whole,List.takeWhile_append_of_pos passed,List.takeWhile_cons_of_neg (by simpa using ends),
      List.append_nil]
  rw [strchr,front,here]
  dsimp only
  by_cases none : path = []
  · rw [if_pos none,if_neg fun slash => same.mp slash none]
  · rw [if_neg none,if_pos (same.mpr none)]

/-- In its buffer a url becomes what the search for an endpoint takes it for. -/
theorem getPureUrl_holding (plain : 0 ∉ uri) (behind : List UInt8) :
    ∃ ret rest, getPureUrl (holding uri behind) = some (ret,holding (Endpoints.getPureUrl uri) rest) := by
  have scheme : 0 ∉ text "http://" := by decide
  rw [getPureUrl,Endpoints.getPureUrl]
  by_cases leads : text "http://" <+: uri
  case neg => 
    rw [if_neg fun both => leads ((prefix_holding scheme behind).mp both),if_neg leads]
    exact ⟨0,behind,rfl⟩
  have seven : 7 ≤ uri.length := leads.length_le
  rw [if_pos ((prefix_holding scheme behind).mpr leads),if_pos leads,strchr_holding plain behind seven]
  cases purePos : (uri.drop 7).dropWhile (· != slash) with
  | nil => exact ⟨-2,behind,rfl⟩
  | cons next path =>
    have split := List.takeWhile_append_dropWhile (p := (· != slash)) (l := uri.drop 7)
    rw [purePos] at split
    generalize (uri.drop 7).takeWhile (· != slash) = before at *
    have whole : uri = uri.take 7 ++ before ++ next :: path := by
      rw [List.append_assoc,split,List.take_append_drop]
    have size := congrArg List.length whole
    rw [List.length_append,List.length_append,List.length_take_of_le seven] at size
    have length : strlen (holding uri behind) = some uri.length := by
      rw [strlen,if_pos (mem_holding _ _),cString_holding plain]
    have len : uri.length-(7+before.length) = (next :: path).length := by omega
    rw [if_neg (List.cons_ne_nil _ _)]
    have part : slice (holding uri behind) (7+before.length) (next :: path).length = next :: path := by
      have front : (uri.take 7 ++ before).length = 7+before.length := by
        rw [List.length_append,List.length_take_of_le seven]
      rw [holding,whole,List.append_assoc]
      exact slice_part front rfl
    have room : (next :: path).length < (holding uri behind).length := by
      simp only [holding,List.length_append,List.length_cons] at size ⊢
      omega
    have more : (holding uri behind).drop (next :: path).length ≠ [] := by
      rw [Ne,List.drop_eq_nil_iff]
      omega
    refine ⟨0,((holding uri behind).drop (next :: path).length).tail,?_⟩
    dsimp only
    rw [length]
    change ((memcpy (holding uri behind) (slice (holding uri behind) (7+before.length) (uri.length-(7+before.length)))).bind
      fun url => (store url (uri.length-(7+before.length)) 0).bind fun url => some (0,url)) = _
    rw [len,part,memcpy_room (Nat.le_of_lt room),Option.bind_some,store_behind more]
    rfl

end PureUrl

section Copies

theorem printable_parts (hm : HttpMessage) : 0 ∉ hm.uri ∧ 0 ∉ hm.method ∧ 0 ∉ hm.query_string ∧
    ∀ name, ∀ hdr ∈ mg_get_http_header hm name, 0 ∉ hdr := by
  have printable := hm.printable
  simp only [List.mem_append,not_or] at printable
  obtain ⟨⟨⟨uri,method⟩,query⟩,values⟩ := printable
  refine ⟨uri,method,query,fun name hdr found zero => values ?_⟩
  obtain ⟨header,first,rfl⟩ := Option.map_eq_some_iff.mp found
  exact List.mem_flatMap.mpr ⟨header,List.mem_of_find?_eq_some first,zero⟩

/-- The second spelling finds what the first one does. -/
theorem tokenOf_eq (hm : HttpMessage) : tokenOf hm = mg_get_http_header hm (text "Authorization") := by
  have same : (text "authorization").map lower = (text "Authorization").map lower := by decide
  rw [tokenOf,mg_get_http_header,mg_get_http_header,same,Option.or_self]

theorem copyUrl_short {uri : Text} (plain : 0 ∉ uri) (short : uri.length < 256) :
    ∃ rest, copyUrl uri = some (holding (Endpoints.getPureUrl uri) rest) := by
  obtain ⟨ret,rest,pure⟩ := getPureUrl_holding plain (zeros (256-uri.length-1))
  refine ⟨rest,?_⟩
  rw [copyUrl,memcpy_short short]
  exact congrArg (Option.bind · fun result => some result.2) pure

theorem copyUrl_iff {uri : Text} (plain : 0 ∉ uri) : (∃ url, copyUrl uri = some url ∧ 0 ∈ url) ↔ uri.length < 256 := by
  constructor
  · rintro ⟨url,copied,zero⟩
    rw [copyUrl] at copied
    simp only [Option.bind_eq_bind,Option.bind_eq_some_iff] at copied
    obtain ⟨buffer,first,result,pure,same⟩ := copied
    obtain rfl := Option.some.inj same
    refine (memcpy_terminated_iff plain).mp ⟨buffer,first,?_⟩
    by_contra full
    exact getPureUrl_full full pure zero
  · intro short
    obtain ⟨rest,copied⟩ := copyUrl_short plain short
    exact ⟨_,copied,mem_holding _ _⟩

theorem copyToken_iff (hm : HttpMessage) : (∃ cToken, copyToken hm = some cToken ∧ 0 ∈ cToken) ↔
    ∀ hdr ∈ mg_get_http_header hm (text "Authorization"), hdr.length < 512 := by
  have plain := (printable_parts hm).2.2.2 (text "Authorization")
  rw [copyToken,tokenOf_eq]
  cases header : mg_get_http_header hm (text "Authorization") with
  | none => exact iff_of_true ⟨_,rfl,List.mem_replicate.mpr ⟨by decide,rfl⟩⟩ fun _ none => by cases none
  | some hdr =>
    rw [memcpy_terminated_iff (plain hdr header)]
    exact ⟨fun short other same => Option.some.inj same ▸ short,fun all => all hdr rfl⟩

theorem digitText_byte : ∀ value < 256, (digitText value).length ≤ 3 := by decide +kernel

theorem inet_ntoa_length (sin_addr : BitVec 32) : (inet_ntoa sin_addr).length ≤ 15 := by
  have size := sin_addr.isLt
  have first := digitText_byte (sin_addr.toNat%256) (Nat.mod_lt _ (by decide))
  have second := digitText_byte (sin_addr.toNat/256%256) (Nat.mod_lt _ (by decide))
  have third := digitText_byte (sin_addr.toNat/65536%256) (Nat.mod_lt _ (by decide))
  have fourth := digitText_byte (sin_addr.toNat/16777216) (by omega)
  have dot : (text ".").length = 1 := rfl
  simp only [inet_ntoa,List.length_append,dot]
  omega

theorem copyRemoteIp_iff (hm : HttpMessage) (sin_addr : BitVec 32) :
    (∃ cRemoteIp, copyRemoteIp hm sin_addr = some cRemoteIp ∧ 0 ∈ cRemoteIp) ↔
      ∀ hdr ∈ mg_get_http_header hm (text "X-Real_IP"), hdr.length < 32 := by
  have plain := (printable_parts hm).2.2.2 (text "X-Real_IP")
  rw [copyRemoteIp]
  cases header : mg_get_http_header hm (text "X-Real_IP") with
  | none =>
    have length := inet_ntoa_length sin_addr
    have room : (inet_ntoa sin_addr ++ [0]).length < 32 := by
      rw [List.length_append,List.length_singleton]
      omega
    exact iff_of_true ⟨_,memcpy_short room,mem_holding _ _⟩ fun _ none => by cases none
  | some hdr =>
    rw [memcpy_terminated_iff (plain hdr header)]
    exact ⟨fun short other same => Option.some.inj same ▸ short,fun all => all hdr rfl⟩

theorem request_iff (hm : HttpMessage) (sin_addr : BitVec 32) : Bounded (.httpRequest hm sin_addr) ↔
    (∃ url, copyUrl hm.uri = some url ∧ 0 ∈ url) ∧ (∃ method, memcpy (zeros 8) hm.method = some method ∧ 0 ∈ method) ∧
      (∃ query, memcpy (zeros 128) hm.query_string = some query ∧ 0 ∈ query) ∧
      (∃ cToken, copyToken hm = some cToken ∧ 0 ∈ cToken) ∧
      ∃ cRemoteIp, copyRemoteIp hm sin_addr = some cRemoteIp ∧ 0 ∈ cRemoteIp := by
  constructor
  · rintro ⟨copied,handled,ends⟩
    rw [ev_handler] at handled
    simp only [Option.bind_eq_bind,Option.bind_eq_some_iff] at handled
    obtain ⟨url,urlCopied,method,methodCopied,query,queryCopied,cToken,tokenCopied,cRemoteIp,ipCopied,handled⟩ := handled
    obtain rfl := Option.some.inj handled
    obtain ⟨urlEnds,methodEnds,queryEnds,tokenEnds,ipEnds⟩ := ends
    exact ⟨⟨url,urlCopied,urlEnds⟩,⟨method,methodCopied,methodEnds⟩,⟨query,queryCopied,queryEnds⟩,
      ⟨cToken,tokenCopied,tokenEnds⟩,⟨cRemoteIp,ipCopied,ipEnds⟩⟩
  · rintro ⟨⟨url,urlCopied,urlEnds⟩,⟨method,methodCopied,methodEnds⟩,⟨query,queryCopied,queryEnds⟩,
      ⟨cToken,tokenCopied,tokenEnds⟩,⟨cRemoteIp,ipCopied,ipEnds⟩⟩
    refine ⟨.request ⟨cToken,cRemoteIp,url,method,query⟩,?_,urlEnds,methodEnds,queryEnds,tokenEnds,ipEnds⟩
    rw [ev_handler,urlCopied,methodCopied,queryCopied,tokenCopied,ipCopied]
    rfl

theorem event_bounded_iff (event : Event) : Bounded event ↔ Fits event := by
  cases event with
  | websocketHandshake hm =>
    rw [Fits,← memcpy_terminated_iff (printable_parts hm).1]
    constructor
    · rintro ⟨copied,handled,ends⟩
      rw [ev_handler,Option.map_eq_some_iff] at handled
      obtain ⟨cURL,first,rfl⟩ := handled
      exact ⟨cURL,first,ends⟩
    · rintro ⟨cURL,first,ends⟩
      refine ⟨.handshake cURL,?_,ends⟩
      rw [ev_handler,first]
      rfl
  | httpRequest hm sin_addr =>
    obtain ⟨uri,method,query,_⟩ := printable_parts hm
    rw [request_iff,copyUrl_iff uri,memcpy_terminated_iff method,memcpy_terminated_iff query,copyToken_iff,copyRemoteIp_iff]
    rfl

theorem pure_plain {uri : Text} (plain : 0 ∉ uri) : 0 ∉ Endpoints.getPureUrl uri := by
  rw [Endpoints.getPureUrl]
  split
  · split
    · exact plain
    · exact fun zero => plain (List.mem_of_mem_drop ((List.dropWhile_suffix _).subset zero))
  · exact plain

/-- Where all is in bounds, the request finds the endpoint of its method and uri. -/
theorem callbacks_dispatch (gHSEpList : List HSEpNode) (hm : HttpMessage) (sin_addr : BitVec 32) {req : WorkRequest}
    (fits : Fits (.httpRequest hm sin_addr)) (handled : ev_handler (.httpRequest hm sin_addr) = some (.request req)) :
    callbacks gHSEpList req = dispatch gHSEpList hm.method hm.uri := by
  obtain ⟨short,methodShort,_⟩ := fits
  obtain ⟨uri,method,_⟩ := printable_parts hm
  obtain ⟨rest,pure⟩ := copyUrl_short uri short
  rw [ev_handler,pure,memcpy_short methodShort] at handled
  simp only [Option.bind_eq_bind,Option.bind_eq_some_iff] at handled
  obtain ⟨_,same,_,copied,query,_,cToken,_,cRemoteIp,_,handled⟩ := handled
  obtain rfl := Option.some.inj same
  obtain rfl := Option.some.inj copied
  obtain rfl := Copied.request.inj (Option.some.inj handled)
  rw [callbacks,cString_holding method,cString_holding (pure_plain uri)]
  rfl

end Copies

/-- A message whose uri fills `req.url` and goes on. -/
def longUri : HttpMessage := ⟨text "/" ++ List.replicate 299 97,text "GET",[],[],by decide +kernel⟩

theorem longUri_outside : ev_handler (.httpRequest longUri 0) = none := by
  have long : (zeros 256).length < longUri.uri.length := by decide +kernel
  rw [ev_handler,copyUrl,memcpy,if_pos long]
  rfl

end MoCodes.MoFaceRec.EventCopies
