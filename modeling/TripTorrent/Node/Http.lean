import TripTorrent.Codec.Outcome
import TripTorrent.Codec.Words
import TripTorrent.Node.Runtime

/-!
# Requests of the local interface

A node and its client speak a small part of HTTP over a loopback connection. The client writes a
request line, four headers and a body; the node collects what the connection yields, in pieces of
any size, until the headers have ended and the body has the length they give. Only requests that
would change something need the token, which the client sends with every request.

The two were written separately. They agree when the token passes through a header unchanged
(`client_server_agree_iff`), and that is more than a configuration is checked for: the node cuts
headers at every line break and drops white space at the end of a value.
-/

namespace TripTorrent

open Codec

/-! ## The node's side -/

def apiMaxRequest : ℕ := 1024 * 1024

def apiMaxTarget : ℕ := 2048

structure HttpRequest where
  method : String
  target : String
  authorization : Option String
  body : List UInt8
deriving DecidableEq

inductive HttpError where
  /-- A read that failed. -/
  | io (text : String)
  | closedBeforeHeaders
  | tooLarge
  | notUtf8
  | missingRequestLine
  | missingMethod
  | missingTarget
  | missingVersion
  | invalidRequestLine
  | malformedHeader
  | duplicateContentLength
  | invalidContentLength
  | duplicateAuthorization
  | lengthOverflow
  | closedBeforeBody
  | trailingBytes
deriving DecidableEq

def HttpError.message : HttpError → String
  | .io text => text
  | .closedBeforeHeaders => "client closed before sending headers"
  | .tooLarge => "API request is too large"
  | .notUtf8 => "HTTP headers are not UTF-8"
  | .missingRequestLine => "missing HTTP request line"
  | .missingMethod => "missing HTTP method"
  | .missingTarget => "missing HTTP target"
  | .missingVersion => "missing HTTP version"
  | .invalidRequestLine => "invalid HTTP request line"
  | .malformedHeader => "malformed HTTP header"
  | .duplicateContentLength => "duplicate Content-Length header"
  | .invalidContentLength => "invalid Content-Length"
  | .duplicateAuthorization => "duplicate Authorization header"
  | .lengthOverflow => "HTTP request length overflow"
  | .closedBeforeBody => "client closed before sending request body"
  | .trailingBytes => "trailing or pipelined request bytes are not accepted"

/-- What successive reads from a connection return. Nothing is read from one that is closed, as is a
connection that has no more reads to give. -/
abbrev Reads := List (Except String (List UInt8))

def findSubslice (haystack needle : List UInt8) : Option ℕ :=
  (List.range (haystack.length + 1 - needle.length)).find? fun i ↦
    haystack.extract i (i + needle.length) = needle

/-- What ends the headers. -/
def headerTerminator : List UInt8 := ['\r'.toUInt8, '\n'.toUInt8, '\r'.toUInt8, '\n'.toUInt8]

/-- Read until the headers have ended. Returns all bytes so far, where the headers end among them,
and the reads to come. -/
def readHeaders (bytes : List UInt8) : Reads → Except HttpError (List UInt8 × ℕ × Reads)
  | [] => .error .closedBeforeHeaders
  | .error text :: _ => .error (.io text)
  | .ok read :: reads =>
    if read = [] then .error .closedBeforeHeaders
    else if apiMaxRequest < (bytes ++ read).length then .error .tooLarge
    else
      match findSubslice (bytes ++ read) headerTerminator with
      | some index => .ok (bytes ++ read, index + 4, reads)
      | none => readHeaders (bytes ++ read) reads

/-- Read until there are as many bytes as asked for. -/
def readBody (requestEnd : ℕ) (bytes : List UInt8) : Reads → Except HttpError (List UInt8)
  | [] => if bytes.length < requestEnd then .error .closedBeforeBody else .ok bytes
  | .error text :: _ => if bytes.length < requestEnd then .error (.io text) else .ok bytes
  | .ok read :: reads =>
    if bytes.length < requestEnd then
      if read = [] then .error .closedBeforeBody else readBody requestEnd (bytes ++ read) reads
    else .ok bytes

/-- The method and the target. -/
def requestLine (line : List Char) : Except HttpError (String × String) :=
  match words line with
  | [] => .error .missingMethod
  | [_] => .error .missingTarget
  | [_, _] => .error .missingVersion
  | method :: target :: version :: rest =>
    if version ≠ "HTTP/1.1".toList ∨ rest ≠ [] ∨
        apiMaxTarget < (String.ofList target).utf8ByteSize then
      .error .invalidRequestLine
    else .ok (String.ofList method, String.ofList target)

/-- What is kept of the headers. -/
structure HeaderFields where
  contentLength : ℕ
  sawContentLength : Bool
  authorization : Option String

def eqIgnoreAsciiCase (a b : List Char) : Bool := a.map Char.toLower = b.map Char.toLower

def headerField (fields : HeaderFields) (line : List Char) : Except HttpError HeaderFields :=
  match splitOnce ':' line with
  | none => .error .malformedHeader
  | some (name, value) =>
    if eqIgnoreAsciiCase name "content-length".toList then
      if fields.sawContentLength then .error .duplicateContentLength
      else
        match parseUnsigned (2 ^ 64) (utf8 (String.ofList (trim value))) with
        | none => .error .invalidContentLength
        | some contentLength => .ok { fields with contentLength, sawContentLength := true }
    else if eqIgnoreAsciiCase name "authorization".toList then
      if fields.authorization.isSome then .error .duplicateAuthorization
      else .ok { fields with authorization := some (String.ofList (trim value)) }
    else .ok fields

def parseHeaders (headers : String) : Except HttpError (String × String × HeaderFields) :=
  match splitPair '\r' '\n' headers.toList with
  | [] => .error .missingRequestLine
  | line :: lines => do
    let (method, target) ← requestLine line
    let fields ← (lines.filter (· ≠ [])).foldlM headerField ⟨0, false, none⟩
    return (method, target, fields)

def readRequest (reads : Reads) : Except HttpError HttpRequest := do
  let (bytes, headerEnd, reads) ← readHeaders [] reads
  match ofUtf8? (bytes.take headerEnd) with
  | none => .error .notUtf8
  | some headers =>
    let (method, target, fields) ← parseHeaders headers
    let requestEnd := headerEnd + fields.contentLength
    if 2 ^ 64 ≤ requestEnd then .error .lengthOverflow
    else if apiMaxRequest < requestEnd ∨ requestEnd < bytes.length then .error .tooLarge
    else
      let bytes ← readBody requestEnd bytes reads
      if bytes.length ≠ requestEnd then .error .trailingBytes
      else
        return { method, target, authorization := fields.authorization
                 body := bytes.extract headerEnd requestEnd }

/-- Requests that need the token. -/
def HttpRequest.mutating (request : HttpRequest) : Bool :=
  request.method = "POST" || request.method = "DELETE"

/-- The value of the header that the token is sent in. -/
def bearer (apiToken : String) : String := "Bearer " ++ apiToken

/-- `handle_connection` goes on to route the request. -/
def HttpRequest.authorized (request : HttpRequest) (apiToken : String) : Bool :=
  !(request.mutating && request.authorization != some (bearer apiToken))

/-! ## The client's side -/

/-- The text of a socket address. -/
structure SocketAddr where
  text : String
  chars : ∀ c ∈ text.toList, c.isAlphanum ∨ c ∈ ['.', ':', '[', ']', '%']
  size_le : text.utf8ByteSize ≤ 58

structure LocalApiConnection where
  apiListen : SocketAddr
  apiToken : String

namespace LocalApiConnection

variable (connection : LocalApiConnection) (method target : String)

/-- The text in front of a body of the given length. -/
def requestHead (length : ℕ) : String :=
  method ++ " " ++ target ++ " HTTP/1.1\r\nHost: " ++ connection.apiListen.text ++
    "\r\nAuthorization: Bearer " ++ connection.apiToken ++
    "\r\nContent-Length: " ++ toString length ++ "\r\nConnection: close\r\n\r\n"

/-- The bytes that a request writes. -/
def request (encoded : List UInt8) : List UInt8 :=
  utf8 (connection.requestHead method target encoded.length) ++ encoded

/-- The lines of the head behind the first one. -/
def headerLines (length : ℕ) : List (List Char) :=
  ["Host".toList ++ ':' :: ' ' :: connection.apiListen.text.toList,
    "Authorization".toList ++ ':' :: ' ' :: (bearer connection.apiToken).toList,
    "Content-Length".toList ++ ':' :: ' ' :: (toString length).toList,
    "Connection".toList ++ ':' :: ' ' :: "close".toList]

/-- The lines of the head. -/
def requestLines (length : ℕ) : List (List Char) :=
  (method.toList ++ ' ' :: (target.toList ++ ' ' :: "HTTP/1.1".toList)) ::
    connection.headerLines length

theorem toList_requestHead (length : ℕ) :
    (connection.requestHead method target length).toList =
      block '\r' '\n' (connection.requestLines method target length) := by
  simp [requestHead, requestLines, headerLines, block, bearer]

/-- The size of a request. -/
theorem length_request (encoded : List UInt8) :
    (connection.request method target encoded).length =
      method.utf8ByteSize + target.utf8ByteSize + connection.apiListen.text.utf8ByteSize +
        connection.apiToken.utf8ByteSize + (decimal encoded.length).length + 83 +
        encoded.length := by
  have hhost : " HTTP/1.1\r\nHost: ".utf8ByteSize = 17 := by decide
  have hauthorization : "\r\nAuthorization: Bearer ".utf8ByteSize = 24 := by decide
  have hlength : "\r\nContent-Length: ".utf8ByteSize = 18 := by decide
  have hclose : "\r\nConnection: close\r\n\r\n".utf8ByteSize = 23 := by decide
  rw [request, List.length_append, length_utf8, requestHead, ← utf8_toString, length_utf8]
  simp only [String.utf8ByteSize_append]
  rw [hhost, hauthorization, hlength, hclose]
  change _ + 1 + _ + _ + _ + _ + _ + _ + _ + _ + _ = _
  omega

theorem request_ne_nil (encoded : List UInt8) :
    connection.request method target encoded ≠ [] := by
  rw [Ne, ← List.length_eq_zero_iff, length_request]
  omega

end LocalApiConnection

/-! ## Finding the end of the headers -/

section Reading

variable {haystack needle head body : List UInt8} {i : ℕ}

theorem window_eq_iff (h : i < haystack.length + 1 - needle.length) :
    haystack.extract i (i + needle.length) = needle ↔ Occurs haystack i needle := by
  refine ⟨fun heq ↦ ?_, Occurs.extract_eq⟩
  have hoccurs := (occurs_extract (l := haystack) (Nat.le_add_right i needle.length) (by omega)).1
  rwa [heq] at hoccurs

theorem findSubslice_eq_some_iff (hne : needle ≠ []) :
    findSubslice haystack needle = some i ↔
      Occurs haystack i needle ∧ ∀ j < i, ¬Occurs haystack j needle := by
  simp only [findSubslice, List.find?_range_eq_some, List.mem_range, decide_eq_true_iff,
    Bool.not_eq_true', decide_eq_false_iff_not]
  constructor
  · rintro ⟨heq, hi, hfirst⟩
    refine ⟨(window_eq_iff hi).mp heq, fun j hj hoccurs ↦ ?_⟩
    exact hfirst j hj ((window_eq_iff (hj.trans hi)).mpr hoccurs)
  · rintro ⟨hoccurs, hfirst⟩
    have hi : i < haystack.length + 1 - needle.length := by
      have hle := hoccurs.length_le hne
      omega
    refine ⟨(window_eq_iff hi).mpr hoccurs, hi, fun j hj heq ↦ ?_⟩
    exact hfirst j hj ((window_eq_iff (hj.trans hi)).mp heq)

theorem findSubslice_eq_none_iff (hne : needle ≠ []) :
    findSubslice haystack needle = none ↔ ∀ i, ¬Occurs haystack i needle := by
  simp only [findSubslice, List.find?_range_eq_none, Bool.not_eq_true', decide_eq_false_iff_not]
  constructor
  · intro h i hoccurs
    have hi : i < haystack.length + 1 - needle.length := by
      have hle := hoccurs.length_le hne
      omega
    exact h i hi ((window_eq_iff hi).mpr hoccurs)
  · intro h i hi heq
    exact h i ((window_eq_iff hi).mp heq)

/-! ## Reading a request -/

/-- The headers end where these bytes end, and not before. -/
structure Terminated (head : List UInt8) : Prop where
  le_length : 4 ≤ head.length
  occurs_iff : ∀ i, Occurs head i headerTerminator ↔ i + 4 = head.length

theorem occurs_terminator_iff {seen rest : List UInt8} (hhead : Terminated head)
    (hseen : seen ++ rest = head ++ body) (hi : i + 4 ≤ head.length) :
    Occurs seen i headerTerminator ↔ i + 4 ≤ seen.length ∧ i + 4 = head.length := by
  have hne : headerTerminator ≠ [] := List.cons_ne_nil _ _
  rw [occurs_iff_append (b := rest) hne, hseen, and_comm, ← hhead.occurs_iff i,
    occurs_iff_append (l := head) (b := body) hne]
  exact and_congr_right fun _ ↦ (and_iff_left hi).symm

theorem findSubslice_eq_none {seen rest : List UInt8} (hhead : Terminated head)
    (hseen : seen ++ rest = head ++ body) (hlt : seen.length < head.length) :
    findSubslice seen headerTerminator = none := by
  have hne : headerTerminator ≠ [] := List.cons_ne_nil _ _
  rw [findSubslice_eq_none_iff hne]
  intro i hoccurs
  have hi : i + 4 ≤ seen.length := hoccurs.length_le hne
  have heq := ((occurs_terminator_iff hhead hseen (by omega)).mp hoccurs).2
  omega

theorem findSubslice_eq_some {seen rest : List UInt8} (hhead : Terminated head)
    (hseen : seen ++ rest = head ++ body) (hle : head.length ≤ seen.length)
    (hi : i + 4 = head.length) : findSubslice seen headerTerminator = some i := by
  have hne : headerTerminator ≠ [] := List.cons_ne_nil _ _
  rw [findSubslice_eq_some_iff hne]
  refine ⟨(occurs_terminator_iff hhead hseen hi.le).mpr ⟨by omega, hi⟩, fun j hj hoccurs ↦ ?_⟩
  have heq := ((occurs_terminator_iff hhead hseen (by omega)).mp hoccurs).2
  omega

variable {bytes : List UInt8} {reads : List (List UInt8)}

/-- **The headers are read to their end and the rest is kept**, however the bytes arrive. -/
theorem exists_readHeaders_eq (hhead : Terminated head)
    (hlimit : (head ++ body).length ≤ apiMaxRequest) (hreads : ∀ read ∈ reads, read ≠ [])
    (hlt : bytes.length < head.length) (hbytes : bytes ++ reads.flatten = head ++ body)
    (later : Reads) :
    ∃ (seen : List UInt8) (rest : List (List UInt8)), readHeaders bytes (reads.map .ok ++ later) =
        .ok (seen, head.length, rest.map .ok ++ later) ∧
      seen ++ rest.flatten = head ++ body ∧ head.length ≤ seen.length ∧
      ∀ read ∈ rest, read ≠ [] := by
  -- the induction is on the reads; `bytes` are those that earlier ones have returned
  induction reads generalizing bytes with
  | nil =>
    have hlength := congrArg List.length hbytes
    simp only [List.flatten_nil, List.append_nil, List.length_append] at hlength
    omega
  | cons read reads ih =>
    obtain ⟨hread, hrest⟩ := List.forall_mem_cons.mp hreads
    rw [List.flatten_cons, ← List.append_assoc] at hbytes
    have hsmall : ¬apiMaxRequest < (bytes ++ read).length := by
      rw [← hbytes, List.length_append] at hlimit
      omega
    rw [List.map_cons, List.cons_append, readHeaders, if_neg hread, if_neg hsmall]
    rcases lt_or_ge (bytes ++ read).length head.length with hlt' | hge
    · rw [findSubslice_eq_none hhead hbytes hlt']
      exact ih hrest hlt' hbytes
    · have hindex : head.length - 4 + 4 = head.length := Nat.sub_add_cancel hhead.le_length
      rw [findSubslice_eq_some hhead hbytes hge hindex]
      dsimp only
      rw [hindex]
      exact ⟨bytes ++ read, reads, rfl, hbytes, hge, hrest⟩

theorem readBody_of_le {requestEnd : ℕ} (h : requestEnd ≤ bytes.length) (reads : Reads) :
    readBody requestEnd bytes reads = .ok bytes := by
  rcases reads with _ | ⟨_ | read, reads⟩ <;> exact if_neg (Nat.not_lt.mpr h)

/-- The body is read to its end. -/
theorem readBody_eq (hreads : ∀ read ∈ reads, read ≠ []) (bytes : List UInt8) (later : Reads) :
    readBody (bytes ++ reads.flatten).length bytes (reads.map .ok ++ later) =
      .ok (bytes ++ reads.flatten) := by
  induction reads generalizing bytes with
  | nil =>
    rw [List.flatten_nil, List.append_nil]
    exact readBody_of_le le_rfl _
  | cons read reads ih =>
    obtain ⟨hread, hrest⟩ := List.forall_mem_cons.mp hreads
    have hmore : bytes.length < (bytes ++ (read :: reads).flatten).length := by
      have hpos := List.length_pos_iff.mpr hread
      rw [List.flatten_cons, List.length_append, List.length_append]
      omega
    rw [List.map_cons, List.cons_append, readBody, if_pos hmore, if_neg hread, List.flatten_cons,
      ← List.append_assoc]
    exact ih hrest _

/-- **A request is read as it was sent**, when its headers can be read and give the length of its
body. -/
theorem readRequest_eq {headers method target : String} {fields : HeaderFields}
    (hheaders : Terminated (utf8 headers))
    (hparse : parseHeaders headers = .ok (method, target, fields))
    (hlength : fields.contentLength = body.length)
    (hlimit : (utf8 headers ++ body).length ≤ apiMaxRequest) (hreads : ∀ read ∈ reads, read ≠ [])
    (hflatten : reads.flatten = utf8 headers ++ body) (later : Reads) :
    readRequest (reads.map .ok ++ later) = .ok ⟨method, target, fields.authorization, body⟩ := by
  have hpos : ([] : List UInt8).length < (utf8 headers).length :=
    (Nat.succ_pos 3).trans_le hheaders.le_length
  obtain ⟨seen, rest, hread, hseen, hle, hrest⟩ :=
    exists_readHeaders_eq hheaders hlimit hreads hpos hflatten later
  have htake : seen.take (utf8 headers).length = utf8 headers := by
    rw [← List.take_append_of_le_length hle, hseen, List.take_left]
  have hwhole : (utf8 headers ++ body).length = (utf8 headers).length + body.length :=
    List.length_append
  have hsmall : ¬2 ^ 64 ≤ (utf8 headers).length + body.length := by
    rw [apiMaxRequest] at hlimit
    omega
  have hroom : ¬(apiMaxRequest < (utf8 headers).length + body.length ∨
      (utf8 headers).length + body.length < seen.length) := by
    have hsum : seen.length + rest.flatten.length = (utf8 headers).length + body.length := by
      rw [← List.length_append, hseen, hwhole]
    omega
  have hbody := readBody_eq hrest seen later
  rw [hseen, hwhole] at hbody
  rw [readRequest]
  refine Outcome.bind_eq_ok_iff.mpr ⟨_, hread, ?_⟩
  dsimp only
  rw [ofUtf8?_eq_some_iff.mpr htake]
  refine Outcome.bind_eq_ok_iff.mpr ⟨_, hparse, ?_⟩
  dsimp only
  rw [hlength, if_neg hsmall, if_neg hroom]
  refine Outcome.bind_eq_ok_iff.mpr ⟨_, hbody, ?_⟩
  rw [hwhole, if_neg (not_not.mpr rfl), List.extract, List.drop_left, Nat.add_sub_cancel_left,
    List.take_length]
  rfl

end Reading

/-! ## Reading the headers of the client -/

section Client

variable {connection : LocalApiConnection} {method target : String} {fields : HeaderFields}
  {name value : List Char} {length : ℕ}

theorem requestLine_eq (hmethod : Word method.toList) (htarget : Word target.toList)
    (hsize : target.utf8ByteSize ≤ apiMaxTarget) :
    requestLine (method.toList ++ ' ' :: (target.toList ++ ' ' :: "HTTP/1.1".toList)) =
      .ok (method, target) := by
  rw [requestLine, words_append hmethod (by decide), words_append htarget (by decide),
    words_word (by decide)]
  dsimp only
  rw [String.ofList_toList, String.ofList_toList, if_neg]
  simpa using hsize

theorem headerField_other (hname : ':' ∉ name)
    (hlength : eqIgnoreAsciiCase name "content-length".toList = false)
    (hauthorization : eqIgnoreAsciiCase name "authorization".toList = false) :
    headerField fields (name ++ ':' :: value) = .ok fields := by
  rw [headerField, splitOnce_append hname]
  dsimp only
  rw [hlength, hauthorization]
  rfl

theorem headerField_authorization (h : fields.authorization = none) :
    headerField fields ("Authorization".toList ++ ':' :: value) =
      .ok { fields with authorization := some (String.ofList (trim value)) } := by
  rw [headerField, splitOnce_append (by decide)]
  dsimp only
  rw [h]
  rfl

theorem isWhitespace_of_mem_toString {c : Char} (h : c ∈ (toString length).toList) :
    isWhitespace c = false := by
  rw [Nat.toString_eq_ofList_toDigits, String.toList_ofList] at h
  have hdigit := lt_of_mem_toDigits h
  simp [isWhitespace]
  omega

theorem headerField_contentLength (h : fields.sawContentLength = false) (hlt : length < 2 ^ 64) :
    headerField fields ("Content-Length".toList ++ ':' :: ' ' :: (toString length).toList) =
      .ok { fields with contentLength := length, sawContentLength := true } := by
  have htrim : trim (' ' :: (toString length).toList) = (toString length).toList :=
    trim_space_cons (fun c hc ↦ isWhitespace_of_mem_toString (List.mem_of_mem_head? hc))
      (fun c hc ↦ isWhitespace_of_mem_toString (List.mem_of_mem_getLast? hc))
  rw [headerField, splitOnce_append (by decide)]
  dsimp only
  rw [h, htrim, String.ofList_toList, utf8_toString, parseUnsigned_decimal, if_pos hlt]
  rfl

theorem SocketAddr.notMem (address : SocketAddr) : '\r' ∉ address.text.toList := by
  intro hmem
  have hchars := address.chars _ hmem
  revert hchars
  decide

/-- A token without line breaks leaves the lines of the head apart. -/
theorem lines_requestLines (hmethod : Word method.toList) (htarget : Word target.toList)
    (htoken : PairFree '\r' '\n' connection.apiToken.toList) (length : ℕ) :
    Lines '\r' '\n' (connection.requestLines method target length) := by
  have hcr : isWhitespace '\r' = true := by decide
  simp only [Lines, LocalApiConnection.requestLines, LocalApiConnection.headerLines,
    List.forall_mem_cons]
  refine ⟨⟨by simp, pairFree_of_notMem ?_⟩, ⟨by simp, pairFree_of_notMem ?_⟩,
    ⟨by simp, ?_⟩, ⟨by simp, pairFree_of_notMem ?_⟩, ⟨by decide, by decide⟩, by simp⟩
  · simp [hmethod.notMem hcr, htarget.notMem hcr]
  · simp [connection.apiListen.notMem]
  · rw [bearer, String.toList_append, ← List.cons_append, ← List.cons_append, ← List.append_assoc]
    exact htoken.append (by decide)
  · have hdigits : '\r' ∉ (toString length).toList := fun hmem ↦
      Bool.eq_false_iff.mp (isWhitespace_of_mem_toString hmem) hcr
    rw [List.mem_append, not_or]
    exact ⟨by decide, by simpa using hdigits⟩

theorem foldlM_headerLines (hlength : length < 2 ^ 64) :
    (connection.headerLines length).foldlM headerField ⟨0, false, none⟩ =
      .ok ⟨length, true,
        some (String.ofList (trim (' ' :: (bearer connection.apiToken).toList)))⟩ := by
  have hhost (value : List Char) (fields : HeaderFields) :
      headerField fields ("Host".toList ++ ':' :: value) = .ok fields :=
    headerField_other (by decide) (by decide) (by decide)
  have hclose (value : List Char) (fields : HeaderFields) :
      headerField fields ("Connection".toList ++ ':' :: value) = .ok fields :=
    headerField_other (by decide) (by decide) (by decide)
  rw [LocalApiConnection.headerLines, List.foldlM_cons]
  refine Outcome.bind_eq_ok_iff.mpr ⟨_, hhost _ _, ?_⟩
  rw [List.foldlM_cons]
  refine Outcome.bind_eq_ok_iff.mpr ⟨_, headerField_authorization rfl, ?_⟩
  rw [List.foldlM_cons]
  refine Outcome.bind_eq_ok_iff.mpr ⟨_, headerField_contentLength rfl hlength, ?_⟩
  rw [List.foldlM_cons]
  exact Outcome.bind_eq_ok_iff.mpr ⟨_, hclose _ _, rfl⟩

/-- What the headers of the client are read as. -/
theorem parseHeaders_requestHead (hmethod : Word method.toList) (htarget : Word target.toList)
    (hsize : target.utf8ByteSize ≤ apiMaxTarget)
    (htoken : PairFree '\r' '\n' connection.apiToken.toList) (hlength : length < 2 ^ 64) :
    parseHeaders (connection.requestHead method target length) =
      .ok (method, target, ⟨length, true,
        some (String.ofList (trim (' ' :: (bearer connection.apiToken).toList)))⟩) := by
  have hlines := lines_requestLines hmethod htarget htoken length
  have hheaders : Lines '\r' '\n' (connection.headerLines length) :=
    (List.forall_mem_cons.mp hlines).2
  rw [parseHeaders, connection.toList_requestHead, splitPair_block (by decide) hlines,
    LocalApiConnection.requestLines, List.cons_append]
  dsimp only
  rw [requestLine_eq hmethod htarget hsize, hheaders.filter_append, foldlM_headerLines hlength]
  rfl

/-- The head of a request ends with its headers. -/
theorem terminated_requestHead (hmethod : Word method.toList) (htarget : Word target.toList)
    (htoken : PairFree '\r' '\n' connection.apiToken.toList) :
    Terminated (utf8 (connection.requestHead method target length)) := by
  have hlines := (lines_requestLines hmethod htarget htoken length).utf8 (by decide) (by decide)
  rw [← String.ofList_toList (s := connection.requestHead method target length), utf8_ofList,
    connection.toList_requestHead, utf8_block (by decide) (by decide)]
  constructor
  · exact (suffix_block (List.cons_ne_nil _ _)).length_le
  · exact fun i ↦ occurs_block_iff (by decide) hlines (List.cons_ne_nil _ _)

variable {body : List UInt8} {reads : List (List UInt8)}

/-- **The node reads what the client has written**, if the token has no line break in it. The value
of the header with the token is trimmed. -/
theorem readRequest_request (hmethod : Word method.toList) (htarget : Word target.toList)
    (hsize : target.utf8ByteSize ≤ apiMaxTarget)
    (htoken : PairFree '\r' '\n' connection.apiToken.toList)
    (hlimit : (connection.request method target body).length ≤ apiMaxRequest)
    (hreads : ∀ read ∈ reads, read ≠ [])
    (hflatten : reads.flatten = connection.request method target body) (later : Reads) :
    readRequest (reads.map .ok ++ later) =
      .ok ⟨method, target,
        some (String.ofList (trim (' ' :: (bearer connection.apiToken).toList))), body⟩ := by
  have hlength : body.length < 2 ^ 64 := by
    rw [LocalApiConnection.request, List.length_append, apiMaxRequest] at hlimit
    omega
  exact readRequest_eq (terminated_requestHead hmethod htarget htoken)
    (parseHeaders_requestHead hmethod htarget hsize htoken hlength) rfl hlimit hreads hflatten later

end Client

/-! ## Which tokens pass -/

/-- A text that is found unchanged behind the name of a header: it has no line break in it, and no
white space at its end. -/
def HeaderSafe (text : String) : Prop :=
  PairFree '\r' '\n' text.toList ∧ ∀ c ∈ text.toList.getLast?, isWhitespace c = false

/-- What has been read of the headers is safe. -/
def HeaderFields.Safe (fields : HeaderFields) : Prop :=
  ∀ value, fields.authorization = some value → HeaderSafe value

theorem headerField_safe {fields fields' : HeaderFields} {line : List Char}
    (hline : PairFree '\r' '\n' line) (hsafe : fields.Safe)
    (h : headerField fields line = .ok fields') : fields'.Safe := by
  rw [headerField] at h
  split at h
  · cases h
  rename_i name value hsplit
  split_ifs at h
  · split at h
    · cases h
    · exact Except.ok.inj h ▸ hsafe
  · intro text htext
    rw [← Except.ok.inj h] at htext
    rw [← Option.some.inj htext, HeaderSafe, String.toList_ofList]
    exact ⟨hline.of_isInfix ((isInfix_trim value).trans (infix_of_splitOnce hsplit)),
      fun c hc ↦ isWhitespace_getLast_trim hc⟩
  · exact Except.ok.inj h ▸ hsafe

theorem parseHeaders_safe {headers method target : String} {fields : HeaderFields}
    (h : parseHeaders headers = .ok (method, target, fields)) : fields.Safe := by
  rw [parseHeaders] at h
  split at h
  · cases h
  rename_i line lines hsplit
  obtain ⟨⟨method, target⟩, -, h⟩ := Outcome.bind_eq_ok_iff.mp h
  obtain ⟨fields', hfold, h⟩ := Outcome.bind_eq_ok_iff.mp h
  obtain rfl : fields' = fields := (Prod.mk.inj (Prod.mk.inj (Except.ok.inj h)).2).2
  refine Outcome.foldlM_keeps (fun fields fields' line hline ↦ headerField_safe ?_)
    (fun value hvalue ↦ by cases hvalue) hfold
  refine pairFree_of_mem_splitPair (l := headers.toList) ?_
  rw [hsplit]
  exact List.mem_cons_of_mem _ (List.mem_of_mem_filter hline)

/-- **Every value of the header that is read is safe**, whatever was sent. -/
theorem readRequest_safe {reads : Reads} {request : HttpRequest} {value : String}
    (h : readRequest reads = .ok request) (hvalue : request.authorization = some value) :
    HeaderSafe value := by
  obtain ⟨⟨bytes, headerEnd, reads⟩, -, h⟩ := Outcome.bind_eq_ok_iff.mp h
  dsimp only at h
  split at h
  · cases h
  obtain ⟨⟨method, target, fields⟩, hparse, h⟩ := Outcome.bind_eq_ok_iff.mp h
  dsimp only at h
  split_ifs at h
  obtain ⟨bytes, -, h⟩ := Outcome.bind_eq_ok_iff.mp h
  split_ifs at h
  rw [← Except.ok.inj h] at hvalue
  exact parseHeaders_safe hparse value hvalue

section Token

variable {token : String}

theorem headerSafe_bearer_iff (h : token ≠ "") : HeaderSafe (bearer token) ↔ HeaderSafe token := by
  have hne : token.toList ≠ [] := fun hnil ↦ h (String.toList_eq_nil_iff.mp hnil)
  rw [HeaderSafe, HeaderSafe, bearer, String.toList_append, List.getLast?_append_of_ne_nil _ hne]
  refine and_congr_left fun _ ↦ ⟨fun hfree ↦ ?_, fun hfree ↦ hfree.append (by decide)⟩
  exact hfree.of_isInfix (List.suffix_append _ _).isInfix

theorem trim_bearer (h : HeaderSafe (bearer token)) :
    trim (' ' :: (bearer token).toList) = (bearer token).toList := by
  refine trim_space_cons (fun c hc ↦ ?_) h.2
  rw [bearer, String.toList_append] at hc
  obtain rfl : 'B' = c := Option.some.inj hc
  decide

end Token

/-! ## Agreement -/

/-- The connection that `api_request` makes. -/
def NodeConfig.connection (config : NodeConfig) (apiListen : SocketAddr) : LocalApiConnection :=
  ⟨apiListen, config.apiToken⟩

/-- The node reads every request of its client as it was meant and accepts it, however the bytes are
split into reads and whatever may follow. -/
def ClientAgrees (config : NodeConfig) (apiListen : SocketAddr) : Prop :=
  ∀ (method target : String) (body : List UInt8) (reads : List (List UInt8)) (later : Reads),
    Word method.toList → Word target.toList → target.utf8ByteSize ≤ apiMaxTarget →
    ((config.connection apiListen).request method target body).length ≤ apiMaxRequest →
    (∀ read ∈ reads, read ≠ [] ∧ read.length ≤ 4096) →
    reads.flatten = (config.connection apiListen).request method target body →
    ∃ request, readRequest (reads.map .ok ++ later) = .ok request ∧ request.method = method ∧
      request.target = target ∧ request.body = body ∧ request.authorized config.apiToken = true

section Agreement

variable {config : NodeConfig} {apiListen : SocketAddr}

/-- What the node reads of a request with a token that passes. -/
theorem readRequest_of_headerSafe {method target : String} {body : List UInt8}
    {reads : List (List UInt8)} (hne : config.apiToken ≠ "") (hsafe : HeaderSafe config.apiToken)
    (hmethod : Word method.toList) (htarget : Word target.toList)
    (hsize : target.utf8ByteSize ≤ apiMaxTarget)
    (hlimit : ((config.connection apiListen).request method target body).length ≤ apiMaxRequest)
    (hreads : ∀ read ∈ reads, read ≠ [])
    (hflatten : reads.flatten = (config.connection apiListen).request method target body)
    (later : Reads) :
    readRequest (reads.map .ok ++ later) =
      .ok ⟨method, target, some (bearer config.apiToken), body⟩ := by
  have hbearer := trim_bearer ((headerSafe_bearer_iff hne).mpr hsafe)
  rw [readRequest_request hmethod htarget hsize hsafe.1 hlimit hreads hflatten later,
    NodeConfig.connection, hbearer, String.ofList_toList]

theorem agrees_of_headerSafe (hne : config.apiToken ≠ "") (hsafe : HeaderSafe config.apiToken) :
    ClientAgrees config apiListen := by
  intro method target body reads later hmethod htarget hsize hlimit hreads hflatten
  refine ⟨_, readRequest_of_headerSafe hne hsafe hmethod htarget hsize hlimit
    (fun read hread ↦ (hreads read hread).1) hflatten later, rfl, rfl, rfl, ?_⟩
  simp [HttpRequest.authorized]

theorem size_apiToken (h : config.validate = .ok ()) :
    32 ≤ config.apiToken.utf8ByteSize ∧ config.apiToken.utf8ByteSize ≤ 512 := by
  rw [NodeConfig.validate] at h
  split_ifs at h
  omega

theorem apiToken_ne_empty (h : config.validate = .ok ()) : config.apiToken ≠ "" := by
  intro hempty
  have hsize := (size_apiToken h).1
  rw [hempty] at hsize
  exact absurd hsize (by decide)

/-- The request to shut down is short enough to be sent. -/
theorem length_shutdown_le (h : config.validate = .ok ()) :
    ((config.connection apiListen).request "POST" "/v1/shutdown" []).length ≤ apiMaxRequest := by
  have hlisten := apiListen.size_le
  have htoken := (size_apiToken h).2
  have hpath : "POST".utf8ByteSize + "/v1/shutdown".utf8ByteSize = 16 := by decide
  have hdecimal : (decimal ([] : List UInt8).length).length = 1 := by decide
  rw [LocalApiConnection.length_request, hpath, hdecimal, NodeConfig.connection, List.length_nil,
    apiMaxRequest]
  dsimp only
  omega

/-- **A node and its client agree exactly if the token passes through a header unchanged.** -/
theorem client_server_agree_iff (hvalid : config.validate = .ok ()) (apiListen : SocketAddr) :
    ClientAgrees config apiListen ↔ HeaderSafe config.apiToken := by
  refine ⟨fun hagrees ↦ ?_, agrees_of_headerSafe (apiToken_ne_empty hvalid)⟩
  -- a request that needs the token, read byte by byte
  obtain ⟨request, hread, hmethod, -, -, hauthorized⟩ := hagrees "POST" "/v1/shutdown" []
    (List.map (fun byte ↦ [byte]) _) [] (by decide) (by decide) (by decide)
    (length_shutdown_le hvalid) (by simp)
    ((List.flatMap_def ..).symm.trans (List.flatMap_singleton' _))
  rw [← headerSafe_bearer_iff (apiToken_ne_empty hvalid)]
  refine readRequest_safe hread ?_
  simpa [HttpRequest.authorized, HttpRequest.mutating, hmethod] using hauthorized

end Agreement

/-- The configuration that `node init` makes, with the random bytes of its token. -/
def NodeConfig.initialized (tokenBytes : List.Vector UInt8 32) : NodeConfig where
  apiLoopback := true
  apiToken := String.ofList (hexEncode tokenBytes.toList)
  bootstrap := none
  maxConcurrentTransfers := 4
  logLevel := "info"

/-- The default of `api_listen`. -/
def SocketAddr.default : SocketAddr := ⟨"127.0.0.1:7331", by simp, by decide⟩

/-- **With a generated token a node and its client agree.** -/
theorem agrees_initialized (tokenBytes : List.Vector UInt8 32) (apiListen : SocketAddr) :
    (NodeConfig.initialized tokenBytes).validate = .ok () ∧
      ClientAgrees (.initialized tokenBytes) apiListen := by
  have hascii : ∀ c ∈ hexEncode tokenBytes.toList, c.toNat < 128 :=
    forall_mem_hexEncode (by decide) _
  have hblack : ∀ c ∈ hexEncode tokenBytes.toList, isWhitespace c = false :=
    forall_mem_hexEncode (by decide) _
  have hsize : (NodeConfig.initialized tokenBytes).apiToken.utf8ByteSize = 64 := by
    rw [NodeConfig.initialized, ← length_utf8, utf8_ofList, utf8_of_ascii hascii, List.length_map,
      length_hexEncode, tokenBytes.toList_length]
  have hvalid : (NodeConfig.initialized tokenBytes).validate = .ok () := by
    rw [NodeConfig.validate, hsize]
    rfl
  refine ⟨hvalid, agrees_of_headerSafe (apiToken_ne_empty hvalid) ⟨?_, fun c hc ↦ ?_⟩⟩
  · rw [NodeConfig.initialized, String.toList_ofList]
    exact pairFree_of_notMem fun hmem ↦ absurd (hblack _ hmem) (by decide)
  · rw [NodeConfig.initialized, String.toList_ofList] at hc
    exact hblack c (List.mem_of_mem_getLast? hc)

/-- A configuration whose token has been chosen by hand. -/
def chosenConfig (apiToken : String) : NodeConfig :=
  { NodeConfig.initialized (List.Vector.replicate 32 0) with apiToken }

theorem client_server_agree_chosen :
    (chosenConfig "0123456789abcdef0123456789abcdef").validate = .ok () ∧
      ClientAgrees (chosenConfig "0123456789abcdef0123456789abcdef") .default :=
  ⟨by decide +kernel, (client_server_agree_iff (by decide +kernel) _).mpr
    ⟨by decide +kernel, by simp [chosenConfig, isWhitespace]⟩⟩

/-- A configuration whose token ends in a space. -/
def spacedConfig : NodeConfig := chosenConfig "0123456789abcdef0123456789abcde "

/-- The node does not accept a token that ends in a space, though its configuration is valid. -/
theorem spaced_token_refused :
    spacedConfig.validate = .ok () ∧
      readRequest [.ok ((spacedConfig.connection .default).request "POST" "/v1/shutdown" [])] =
        .ok ⟨"POST", "/v1/shutdown", some "Bearer 0123456789abcdef0123456789abcde", []⟩ ∧
      HttpRequest.authorized ⟨"POST", "/v1/shutdown",
        some "Bearer 0123456789abcdef0123456789abcde", []⟩ spacedConfig.apiToken = false := by
  have hvalid : spacedConfig.validate = .ok () := by decide +kernel
  have htrim : trim (' ' :: (bearer spacedConfig.apiToken).toList) =
      "Bearer 0123456789abcdef0123456789abcde".toList := by decide +kernel
  refine ⟨hvalid, ?_, by decide +kernel⟩
  refine (readRequest_request (by decide) (by decide) (by decide) (by decide +kernel)
    (length_shutdown_le hvalid)
    (List.forall_mem_singleton.mpr (LocalApiConnection.request_ne_nil _ _ _ _))
    List.flatten_singleton []).trans ?_
  rw [NodeConfig.connection, htrim, String.ofList_toList]

end TripTorrent
