import TripTorrent.Node.Http

/-!
# The local interface of a node

What a node does with a connection: it reads one request, decides whether the request is accepted,
finds the function for its method and path, and replies. The decision looks at the method alone,
while the functions are found by method and path, so it has to be seen that every function with an
effect is behind a method that needs the token.

All that a request can do to a node is said once, in `handleConnection_cases`: nothing, or the
verification that a listing starts with, or, if it carries the token, one of the actions a node is
built from. What a request without the token cannot do (`unauthenticated_cannot_act`) and that
requests add nothing to the runs of a node (`handleConnection_next`) are read off from there.

Requests that start, pause or resume a transfer are answered when their thread has finished.
Deserialization of bodies is a parameter. The counters of `/v1/status` that nothing else depends on
are left out.
-/

namespace TripTorrent

open Codec
open Std (ExtTreeMap)
open Storage (Disk)

/-! ## Replies -/

def apiMaxError : ℕ := 1024

/-- The characters that begin before the byte with the given number. -/
def takeBytes : ℕ → List Char → List Char
  | _, [] => []
  | 0, _ => []
  | n + 1, c :: text => c :: takeBytes (n + 1 - c.utf8Size) text

/-- The message that is put into an error. -/
def bounded (message : String) : String :=
  if apiMaxError < message.utf8ByteSize then String.ofList (takeBytes apiMaxError message.toList)
  else message

theorem takeBytes_zero (text : List Char) : takeBytes 0 text = [] := by
  cases text <;> rfl

/-- Only the last character may reach beyond the limit. -/
theorem size_takeBytes_le (n : ℕ) (text : List Char) :
    (String.ofList (takeBytes n text)).utf8ByteSize ≤ n + 3 := by
  induction text generalizing n with
  | nil => exact Nat.zero_le _
  | cons c text ih =>
    cases n with
    | zero => exact Nat.zero_le _
    | succ n =>
      have hfour := c.utf8Size_le_four
      have hrest := ih (n + 1 - c.utf8Size)
      rw [← length_utf8, utf8_ofList] at hrest ⊢
      rw [takeBytes, List.flatMap_cons, List.length_append, String.length_utf8EncodeChar]
      rcases lt_or_ge c.utf8Size (n + 1) with hlt | hge
      · omega
      · rw [Nat.sub_eq_zero_of_le hge, takeBytes_zero, List.flatMap_nil, List.length_nil]
        omega

/-- A message is cut behind the character that reaches the limit. -/
theorem size_bounded_le (message : String) :
    (bounded message).utf8ByteSize ≤ apiMaxError + 3 := by
  rw [bounded]
  split_ifs with hlong
  · exact size_takeBytes_le _ _
  · omega

inductive ApiReply where
  /-- The text of a message is not always known. -/
  | error (status : ℕ) (code : String) (message : Option String)
  | health
  | status (storedContent sharedContent activeDownloads : ℕ)
  | node (bootstrap : Option String)
  | content (records : List ContentRecord)
  | contentAdded (record : ContentRecord)
  | contentRemoved (contentId : String) (deletedManagedBytes : Bool)
  | transfers (records : List TransferRecord)
  | transfer (record : TransferRecord)
  | transferAccepted (id : ℕ) (status : String)
  | diagnostics (bootstrap : Option String) (providerWorkers : ℕ)
  | networkPrivacy
  | stopping

def ApiReply.statusCode : ApiReply → ℕ
  | .error code .. => code
  | .contentAdded _ => 201
  | .transferAccepted .. | .stopping => 202
  | _ => 200

def errorJson (status : ℕ) (code : String) (message : Option String) : ApiReply :=
  .error status code (message.map bounded)

inductive ApiAnswer where
  | now (reply : ApiReply)
  /-- The reply names the transfer that a thread has started. -/
  | started (thread : ℕ)
  /-- The reply is sent when a thread has succeeded. -/
  | succeeded (thread : ℕ) (reply : ApiReply)

inductive ApiError where
  | invalidAddJson
  | invalidFetchJson
  | malformedQuery
  | unexpectedQuery
  | invalidDeleteBytes
  | invalidTransferId
  | node (error : NodeError)

def ApiError.message : ApiError → Option String
  | .invalidAddJson => some "invalid content-add JSON"
  | .invalidFetchJson => some "invalid fetch JSON"
  | .malformedQuery => some "malformed query parameter"
  | .unexpectedQuery => some "unknown or duplicate query parameter"
  | .invalidDeleteBytes => some "invalid delete_bytes value"
  | .invalidTransferId => some "invalid transfer ID"
  | .node error => error.message

/-! ## Routes -/

inductive Route where
  | health
  | status
  | node
  | listContent
  | addContent
  | fetch
  | listTransfers
  | diagnostics
  | networkPrivacy
  | shutdown
  | deleteContent
  | pause
  | resume
  | transfer
  | unknown
deriving DecidableEq

def startsWith (text pattern : String) : Bool := pattern.toList.isPrefixOf text.toList

def endsWith (text pattern : String) : Bool := pattern.toList.isSuffixOf text.toList

/-- An arm of `route_request_inner`: a method and the paths it is for. -/
structure Arm where
  method : String
  accepts : String → Bool
  route : Route

/-- The first arm that fits is taken. -/
def arms : List Arm :=
  [⟨"GET", (· = "/v1/health"), .health⟩,
    ⟨"GET", (· = "/v1/status"), .status⟩,
    ⟨"GET", (· = "/v1/node"), .node⟩,
    ⟨"GET", (· = "/v1/content"), .listContent⟩,
    ⟨"POST", (· = "/v1/content"), .addContent⟩,
    ⟨"POST", (· = "/v1/fetches"), .fetch⟩,
    ⟨"GET", (· = "/v1/transfers"), .listTransfers⟩,
    ⟨"GET", (· = "/v1/diagnostics"), .diagnostics⟩,
    ⟨"GET", (· = "/v1/network-privacy"), .networkPrivacy⟩,
    ⟨"POST", (· = "/v1/shutdown"), .shutdown⟩,
    ⟨"DELETE", (startsWith · "/v1/content/"), .deleteContent⟩,
    ⟨"POST", fun path ↦ startsWith path "/v1/transfers/" && endsWith path "/pause", .pause⟩,
    ⟨"POST", fun path ↦ startsWith path "/v1/transfers/" && endsWith path "/resume", .resume⟩,
    ⟨"GET", (startsWith · "/v1/transfers/"), .transfer⟩]

def route (method path : String) : Route :=
  match arms.find? fun arm ↦ arm.method = method && arm.accepts path with
  | some arm => arm.route
  | none => .unknown

/-- The path and the query of a target. -/
def splitTarget (target : String) : String × String :=
  match splitOnce '?' target.toList with
  | some (path, query) => (String.ofList path, String.ofList query)
  | none => (target, "")

/-- Every repetition of the pattern at the beginning is removed. -/
def trimStartMatches (pattern text : List Char) : List Char :=
  let trim (text : List Char) := if pattern.isPrefixOf text then text.drop pattern.length else text
  -- each round but an idle one removes a character
  trim^[text.length] text

def trimEndMatches (pattern text : List Char) : List Char :=
  (trimStartMatches pattern.reverse text.reverse).reverse

/-- A transfer is addressed by a signed number. -/
def parseTransferId (text : List Char) : Option ℤ :=
  parseSigned (2 ^ 63) (utf8 (String.ofList text))

def transferActionId (path action : String) : Option ℤ :=
  parseTransferId
    (trimEndMatches action.toList (trimStartMatches "/v1/transfers/".toList path.toList))

def queryParameter (deleteBytes : Option Bool) (parameter : List Char) :
    Except ApiError (Option Bool) :=
  match splitOnce '=' parameter with
  | none => .error .malformedQuery
  | some (name, value) =>
    if name ≠ "delete_bytes".toList ∨ deleteBytes.isSome then .error .unexpectedQuery
    else if value = "true".toList then .ok (some true)
    else if value = "false".toList then .ok (some false)
    else .error .invalidDeleteBytes

def parseQuery (query : String) : Except ApiError Bool := do
  let parameters := (query.toList.splitOnP (· = '&')).filter (· ≠ [])
  return (← parameters.foldlM queryParameter none).getD false

/-! ## Requests -/

/-- The bodies that are read as JSON: a path or an identifier, and `shared` if it is there. -/
structure Json where
  add : List UInt8 → Option (String × Option Bool)
  fetch : List UInt8 → Option (String × Option Bool)

/-- A call of the store that fails, after some rows have been verified. -/
structure Fault where
  verified : ℕ
  text : String

namespace NodeRuntime

variable (json : Json) (b : Backend) (sources : Disk String) (s : NodeRuntime)
  (fault : Option Fault)

/-- A request that only reads from the store. -/
def reading (reply : ApiReply) : Except ApiError ApiAnswer :=
  match fault with
  | some fault => .error (.node (.fault fault.text))
  | none => .ok (.now reply)

/-- `counts`, and what else is reported. -/
def status : ApiReply :=
  let rows := s.sharing.library.rows.toList
  .status rows.length (rows.countP fun x ↦ x.2.shared && x.2.integrity = .ok) s.activeDownloads

def listContent : NodeRuntime × Except ApiError ApiAnswer :=
  match fault with
  | none =>
    match s.sharing.listContent b with
    | (sharing, .error error) => ({ s with sharing }, .error (.node (.library error)))
    | (sharing, .ok records) => ({ s with sharing }, .ok (.now (.content records)))
  | some fault =>
    let rows := s.sharing.library.rows.toList.filter fun x ↦ x.2.complete
    match s.sharing.library.verifyRows b (rows.take fault.verified) with
    | (library, .error error) =>
      ({ s with sharing.library := library }, .error (.node (.library error)))
    | (library, .ok ()) =>
      ({ s with sharing.library := library }, .error (.node (.fault fault.text)))

def addContentRequest (body : List UInt8) : NodeRuntime × Except ApiError ApiAnswer :=
  match json.add body with
  | none => (s, .error .invalidAddJson)
  | some (path, shared) =>
    match s.sharing.addContent b sources path (shared.getD true) with
    | (sharing, .error error) => ({ s with sharing }, .error (.node (.library error)))
    | (sharing, .ok record) => ({ s with sharing }, .ok (.now (.contentAdded record)))

def fetchRequest (body : List UInt8) : NodeRuntime × Except ApiError ApiAnswer :=
  match json.fetch body with
  | none => (s, .error .invalidFetchJson)
  | some (contentId, shared) =>
    match ContentId.fromStr contentId with
    | .error error => (s, .error (.node (.parseId error)))
    | .ok contentId =>
      (s.call (.startFetch contentId (shared.getD true)), .ok (.started s.threads.length))

def deleteContentRequest (path query : String) : NodeRuntime × Except ApiError ApiAnswer :=
  let contentId := String.ofList (trimStartMatches "/v1/content/".toList path.toList)
  match parseQuery query with
  | .error error => (s, .error error)
  | .ok deleteBytes =>
    match s.sharing.removeContent contentId deleteBytes with
    | (sharing, .error error) => ({ s with sharing }, .error (.node (.library error)))
    | (sharing, .ok ()) =>
      ({ s with sharing }, .ok (.now (.contentRemoved contentId deleteBytes)))

/-- No transfer has a negative number. -/
def pauseRequest (path : String) : NodeRuntime × Except ApiError ApiAnswer :=
  match transferActionId path "/pause" with
  | none => (s, .error .invalidTransferId)
  | some (.negSucc _) => (s, .error (.node .unknownTransfer))
  | some (.ofNat id) =>
    (s.call (.pauseTransfer id), .ok (.succeeded s.threads.length (.transferAccepted id "pausing")))

/-- The limit is checked before the transfer is looked for. -/
def resumeRequest (path : String) : NodeRuntime × Except ApiError ApiAnswer :=
  match transferActionId path "/resume" with
  | none => (s, .error .invalidTransferId)
  | some (.negSucc _) =>
    if s.config.maxConcurrentTransfers ≤ s.activeDownloads then (s, .error (.node .limitReached))
    else (s, .error (.node .unknownTransfer))
  | some (.ofNat id) =>
    (s.call (.resumeTransfer id),
      .ok (.succeeded s.threads.length (.transferAccepted id "running")))

def transferRequest (path : String) : Except ApiError ApiAnswer :=
  match parseTransferId (trimStartMatches "/v1/transfers/".toList path.toList) with
  | none => .error .invalidTransferId
  | some id =>
    reading fault
      (match id with
      | .negSucc _ => errorJson 404 "not_found" (some "unknown transfer")
      | .ofNat id =>
        match s.transfers.getTransfer id with
        | none => errorJson 404 "not_found" (some "unknown transfer")
        | some record => .transfer record)

def routeRequestInner (request : HttpRequest) : NodeRuntime × Except ApiError ApiAnswer :=
  let (path, query) := splitTarget request.target
  match route request.method path with
  | .health => (s, .ok (.now .health))
  | .status => (s, reading fault s.status)
  | .node => (s, .ok (.now (.node s.config.bootstrap)))
  | .listContent => s.listContent b fault
  | .addContent => s.addContentRequest json b sources request.body
  | .fetch => s.fetchRequest json request.body
  | .listTransfers => (s, reading fault (.transfers (s.transfers.rows.toList.map Prod.snd)))
  | .diagnostics =>
    (s, .ok (.now (.diagnostics s.config.bootstrap s.sharing.providers.size)))
  | .networkPrivacy => (s, .ok (.now .networkPrivacy))
  | .shutdown => (s.call .shutdown, .ok (.now .stopping))
  | .deleteContent => s.deleteContentRequest path query
  | .pause => s.pauseRequest path
  | .resume => s.resumeRequest path
  | .transfer => (s, s.transferRequest fault path)
  | .unknown => (s, .ok (.now (errorJson 404 "not_found" (some "unknown API route"))))

def routeRequest (request : HttpRequest) : NodeRuntime × ApiAnswer :=
  match s.routeRequestInner json b sources fault request with
  | (t, .ok answer) => (t, answer)
  | (t, .error error) => (t, .now (errorJson 400 "invalid_operation" error.message))

/-- One connection, from a loopback address or not. -/
def handleConnection (loopback : Bool) (reads : Reads) : NodeRuntime × ApiAnswer :=
  if ¬loopback then
    (s, .now (errorJson 403 "forbidden" (some "loopback clients only")))
  else
    match readRequest reads with
    | .error error => (s, .now (errorJson 400 "malformed_request" (some error.message)))
    | .ok request =>
      if ¬request.authorized s.config.apiToken then
        (s, .now (errorJson 401 "unauthorized" (some "valid bearer token required")))
      else s.routeRequest json b sources fault request

end NodeRuntime

/-! ## What a request can do -/

/-- The functions behind these routes have effects. -/
def Route.acts : Route → Bool
  | .addContent | .fetch | .shutdown | .deleteContent | .pause | .resume => true
  | _ => false

/-- They are behind methods that need the token, in exactly this spelling. -/
theorem method_of_acts {method path : String} (h : (route method path).acts = true) :
    method = "POST" ∨ method = "DELETE" := by
  have harms : ∀ arm ∈ arms, arm.route.acts = true →
      arm.method = "POST" ∨ arm.method = "DELETE" := by
    simp [arms, Route.acts]
  rw [route] at h
  split at h
  · rename_i arm hfind
    have hfits := List.find?_some hfind
    rw [Bool.and_eq_true, decide_eq_true_iff] at hfits
    exact hfits.1 ▸ harms arm (List.mem_of_find?_eq_some hfind) h
  · cases h

namespace NodeRuntime

variable {json : Json} {b : Backend} {sources : Disk String} {s t : NodeRuntime}
  {fault : Option Fault} {loopback : Bool} {reads : Reads}

/-- What a request with the token may do to a node: nothing, or one of the node's own actions. -/
def Acts (b : Backend) (s t : NodeRuntime) : Prop :=
  t = s ∨ (∃ call, t = s.call call) ∨ ∃ action, s.content b action = some t

theorem acts_addContentRequest (body : List UInt8) :
    s.Acts b (s.addContentRequest json b sources body).1 := by
  rw [addContentRequest]
  split
  · exact .inl rfl
  rename_i path shared _
  refine .inr (.inr ⟨.addContent sources path (shared.getD true), ?_⟩)
  rcases h : s.sharing.addContent b sources path (shared.getD true) with ⟨sharing, error | record⟩
  · simp [content, Sharing.Action.isRequest, Sharing.next, h]
  · simp [content, Sharing.Action.isRequest, Sharing.next, h]

theorem acts_fetchRequest (body : List UInt8) : s.Acts b (s.fetchRequest json body).1 := by
  rw [fetchRequest]
  split
  · exact .inl rfl
  split
  · exact .inl rfl
  · exact .inr (.inl ⟨.startFetch _ _, rfl⟩)

theorem acts_deleteContentRequest (path query : String) :
    s.Acts b (s.deleteContentRequest path query).1 := by
  rw [deleteContentRequest]
  generalize String.ofList (trimStartMatches "/v1/content/".toList path.toList) = contentId
  split
  · exact .inl rfl
  rename_i deleteBytes _
  refine .inr (.inr ⟨.removeContent contentId deleteBytes, ?_⟩)
  rcases h : s.sharing.removeContent contentId deleteBytes with ⟨sharing, error | ok⟩
  · simp [content, Sharing.Action.isRequest, Sharing.next, h]
  · simp [content, Sharing.Action.isRequest, Sharing.next, h]

theorem acts_pauseRequest (path : String) : s.Acts b (s.pauseRequest path).1 := by
  rw [pauseRequest]
  split
  · exact .inl rfl
  · exact .inl rfl
  · exact .inr (.inl ⟨.pauseTransfer _, rfl⟩)

theorem acts_resumeRequest (path : String) : s.Acts b (s.resumeRequest path).1 := by
  rw [resumeRequest]
  split
  · exact .inl rfl
  · split_ifs <;> exact .inl rfl
  · exact .inr (.inl ⟨.resumeTransfer _, rfl⟩)

variable (json b sources s fault) in
theorem routeRequest_cases (request : HttpRequest) :
    (s.routeRequest json b sources fault request).1 = s ∨
      (s.routeRequest json b sources fault request).1 = (s.listContent b fault).1 ∨
      (request.mutating = true ∧ s.Acts b (s.routeRequest json b sources fault request).1) := by
  have hinner : (s.routeRequest json b sources fault request).1 =
      (s.routeRequestInner json b sources fault request).1 := by
    rw [routeRequest]
    split
    all_goals
      rename_i heq
      rw [heq]
  have hmutating : (route request.method (splitTarget request.target).1).acts = true →
      request.mutating = true := by
    simpa [HttpRequest.mutating] using method_of_acts
  rw [hinner, routeRequestInner]
  dsimp only
  generalize route request.method (splitTarget request.target).1 = route at hmutating ⊢
  cases route with
  | listContent => exact .inr (.inl rfl)
  | addContent => exact .inr (.inr ⟨hmutating rfl, acts_addContentRequest _⟩)
  | fetch => exact .inr (.inr ⟨hmutating rfl, acts_fetchRequest _⟩)
  | shutdown => exact .inr (.inr ⟨hmutating rfl, .inr (.inl ⟨.shutdown, rfl⟩)⟩)
  | deleteContent => exact .inr (.inr ⟨hmutating rfl, acts_deleteContentRequest _ _⟩)
  | pause => exact .inr (.inr ⟨hmutating rfl, acts_pauseRequest _⟩)
  | resume => exact .inr (.inr ⟨hmutating rfl, acts_resumeRequest _⟩)
  | _ => exact .inl rfl

variable (json b sources s fault loopback reads) in
/-- **What a connection can do to a node**: nothing, or what a listing does, or, if a request with
the token is read from it, one of the node's own actions. -/
theorem handleConnection_cases :
    (s.handleConnection json b sources fault loopback reads).1 = s ∨
      (s.handleConnection json b sources fault loopback reads).1 = (s.listContent b fault).1 ∨
      ∃ request, readRequest reads = .ok request ∧
        request.authorization = some (bearer s.config.apiToken) ∧
        s.Acts b (s.handleConnection json b sources fault loopback reads).1 := by
  rw [handleConnection]
  split_ifs
  swap
  · exact .inl rfl
  split
  · exact .inl rfl
  rename_i request hread
  split_ifs with hauthorized
  swap
  · exact .inl rfl
  rcases routeRequest_cases json b sources s fault request with
    hsame | hlist | ⟨hmutating, hacts⟩
  · exact .inl hsame
  · exact .inr (.inl hlist)
  · refine .inr (.inr ⟨request, hread, ?_, hacts⟩)
    simpa [HttpRequest.authorized, hmutating] using hauthorized

/-- A listing changes what verification records, and nothing else. -/
theorem exists_listContent_eq :
    ∃ rows, Library.SameContent rows s.sharing.library.rows ∧
      (s.listContent b fault).1 = { s with sharing.library.rows := rows } := by
  cases fault with
  | none =>
    obtain ⟨rows, hsame, heq⟩ :=
      Library.exists_listContent_eq (b := b) (s := s.sharing.library)
    refine ⟨rows, hsame, ?_⟩
    rcases hlist : s.sharing.library.listContent b with ⟨library, error | records⟩
    all_goals
      rw [hlist] at heq
      obtain rfl := heq
      simp only [listContent, Sharing.listContent, hlist]
  | some fault =>
    obtain ⟨rows, hsame, heq⟩ := Library.exists_verifyRows_eq (b := b) (s := s.sharing.library)
      ((s.sharing.library.rows.toList.filter fun x ↦ x.2.complete).take fault.verified)
    refine ⟨rows, hsame, ?_⟩
    simp only [listContent]
    split
    all_goals
      rename_i hverify
      rw [hverify] at heq
      obtain rfl := heq
      rfl

/-- **A request without the token cannot act.** Whatever is read from a connection, if it is not a
request with the token, then all it can change are the two columns that verification sets. -/
theorem unauthenticated_cannot_act
    (h : ∀ request, readRequest reads = .ok request →
      request.authorization ≠ some (bearer s.config.apiToken)) :
    ∃ rows, Library.SameContent rows s.sharing.library.rows ∧
      (s.handleConnection json b sources fault loopback reads).1 =
        { s with sharing.library.rows := rows } := by
  rcases handleConnection_cases json b sources s fault loopback reads with
    hsame | hlist | ⟨request, hread, hbearer, -⟩
  · exact ⟨_, fun _ ↦ rfl, hsame⟩
  · rw [hlist]
    exact exists_listContent_eq
  · exact absurd hbearer (h request hread)

/-- A node that has just been set up. -/
def quietNode : NodeRuntime :=
  .recover (chosenConfig "0123456789abcdef0123456789abcdef") ⟨⟨∅, fun _ ↦ none⟩, none, ∅, []⟩ .empty

/-- A client that has another token asks the node to shut down. -/
def strangerReads : Reads :=
  [.ok (((chosenConfig "ffffffffffffffffffffffffffffffff").connection .default).request "POST"
    "/v1/shutdown" [])]

theorem unauthenticated_cannot_act_stranger :
    readRequest strangerReads =
        .ok ⟨"POST", "/v1/shutdown", some "Bearer ffffffffffffffffffffffffffffffff", []⟩ ∧
      ∃ rows, Library.SameContent rows quietNode.sharing.library.rows ∧
        (quietNode.handleConnection ⟨fun _ ↦ none, fun _ ↦ none⟩ (.postcard Vectors.payloadHash)
          (fun _ ↦ none) none true strangerReads).1 =
            { quietNode with sharing.library.rows := rows } := by
  have hvalid : (chosenConfig "ffffffffffffffffffffffffffffffff").validate = .ok () := by
    decide +kernel
  have hread : readRequest strangerReads =
      .ok ⟨"POST", "/v1/shutdown", some "Bearer ffffffffffffffffffffffffffffffff", []⟩ := by
    have hsafe : HeaderSafe (chosenConfig "ffffffffffffffffffffffffffffffff").apiToken :=
      ⟨by decide +kernel, by simp [chosenConfig, isWhitespace]⟩
    exact (readRequest_of_headerSafe (apiToken_ne_empty hvalid) hsafe (by decide) (by decide)
      (by decide) (length_shutdown_le hvalid)
      (List.forall_mem_singleton.mpr (LocalApiConnection.request_ne_nil _ _ _ _))
      List.flatten_singleton []).trans rfl
  refine ⟨hread, unauthenticated_cannot_act fun request hrequest ↦ ?_⟩
  rw [← Except.ok.inj (hread.symm.trans hrequest)]
  decide +kernel

/-- **Requests add nothing to the runs of a node**: what a connection does to a node that serves
requests, the node could have done by itself. -/
theorem handleConnection_next (hserving : s.serving = true) :
    (s.handleConnection json b sources none loopback reads).1 = s ∨
      ∃ action, Node.next b (.up s) action =
        some (.up (s.handleConnection json b sources none loopback reads).1) := by
  rcases handleConnection_cases json b sources s none loopback reads with
    hsame | hlist | ⟨request, -, -, hsame | ⟨call, hcall⟩ | ⟨action, haction⟩⟩
  · exact .inl hsame
  · refine .inr ⟨.content .listContent, ?_⟩
    rw [hlist, Node.next, content, if_pos (by decide), Sharing.next, Option.map_some]
    simp only [listContent]
    split
    all_goals
      rename_i h
      rw [h]
      rfl
  · exact .inl hsame
  · refine .inr ⟨.call call, ?_⟩
    rw [Node.next, if_pos hserving, hcall]
  · refine .inr ⟨.content action, ?_⟩
    rw [Node.next, haction, Option.map_some]

/-- **What the client asks for is what the node does**, if the token passes through a header
unchanged. -/
theorem handleConnection_request {apiListen : SocketAddr} {method target : String}
    {body : List UInt8} {pieces : List (List UInt8)} (hne : s.config.apiToken ≠ "")
    (hsafe : HeaderSafe s.config.apiToken) (hmethod : Word method.toList)
    (htarget : Word target.toList) (hsize : target.utf8ByteSize ≤ apiMaxTarget)
    (hlimit : ((s.config.connection apiListen).request method target body).length ≤ apiMaxRequest)
    (hpieces : ∀ piece ∈ pieces, piece ≠ [])
    (hflatten : pieces.flatten = (s.config.connection apiListen).request method target body)
    (later : Reads) :
    s.handleConnection json b sources fault true (pieces.map .ok ++ later) =
      s.routeRequest json b sources fault
        ⟨method, target, some (bearer s.config.apiToken), body⟩ := by
  rw [handleConnection, if_neg (by decide), readRequest_of_headerSafe hne hsafe hmethod htarget
    hsize hlimit hpieces hflatten later]
  simp [HttpRequest.authorized]

end NodeRuntime

end TripTorrent
