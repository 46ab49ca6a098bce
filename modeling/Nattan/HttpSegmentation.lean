/-
This file says how `http_parser` delivers a message that arrives in pieces and proves
exactly when two ways of cutting a message leave the same `HttpParser`.

A message is a list of elements in the order of its bytes. The spans of an element are
determined by the cuts: `textSpans` for an element that ends at a delimiter, `bodySpans`
for a counted one. The folds over the callbacks are computed element by element, and what
remains of a cut message is collected in three readings: the last piece of the url, the
last piece of the reason phrase, and for every name the last value written to it.
-/

import Nattan.HttpParser

namespace Nattan

/-! ### Elements and their spans -/

/-- The elements that end at a delimiter. -/
inductive TextKind where
  | url
  | status
  | field
  | value
  deriving DecidableEq, Repr

/-- The callbacks without a span. -/
inductive Notice where
  | messageBegin
  | headersComplete (info : HeadersInfo)
  | messageComplete
  deriving DecidableEq, Repr

/-- A part of a message: bytes without a callback, an element with its delimiter, a piece of the
body, or a notice between two bytes. -/
inductive Element where
  | silent (bytes : List UInt8)
  | text (kind : TextKind) (bytes : List UInt8) (delimiter : UInt8)
  | body (bytes : List UInt8)
  | notice (notice : Notice)
  deriving DecidableEq, Repr

def Notice.callback : Notice → Callback
  | messageBegin => .messageBegin
  | headersComplete info => .headersComplete info
  | messageComplete => .messageComplete

def TextKind.callback : TextKind → List UInt8 → Callback
  | url => .url
  | status => .status
  | field => .headerField
  | value => .headerValue

def Element.bytes : Element → List UInt8
  | silent bytes => bytes
  | text _ bytes delimiter => bytes ++ [delimiter]
  | body bytes => bytes
  | notice _ => []

/-- Leave out the next bytes of the input. -/
def skipBytes : Nat → List (List UInt8) → List (List UInt8)
  | _, [] => []
  | count, chunk :: rest =>
    if count ≤ chunk.length then chunk.drop count :: rest
    else skipBytes (count - chunk.length) rest

/-- The spans in which an element is delivered, and the input behind its delimiter. -/
def textSpans : List UInt8 → List (List UInt8) → List (List UInt8) × List (List UInt8)
  | _, [] => ([], [])
  | bytes, chunk :: rest =>
    if chunk = [] then textSpans bytes rest
    else if bytes.length < chunk.length then ([bytes], chunk.drop (bytes.length + 1) :: rest)
    else
      let (spans, left) := textSpans (bytes.drop chunk.length) rest
      (bytes.take chunk.length :: spans, left)

/-- The spans in which a piece of the body is delivered, and the input behind it. -/
def bodySpans : List UInt8 → List (List UInt8) → List (List UInt8) × List (List UInt8)
  | _, [] => ([], [])
  | bytes, chunk :: rest =>
    if chunk = [] then bodySpans bytes rest
    else if bytes.length ≤ chunk.length then ([bytes], chunk.drop bytes.length :: rest)
    else
      let (spans, left) := bodySpans (bytes.drop chunk.length) rest
      (bytes.take chunk.length :: spans, left)

/-- The elements of a message that arrives in the given chunks, each with its spans. -/
def deliveries : List Element → List (List UInt8) → List (Element × List (List UInt8))
  | [], _ => []
  | .silent bytes :: rest, chunks =>
    (.silent bytes, []) :: deliveries rest (skipBytes bytes.length chunks)
  | .text kind bytes delimiter :: rest, chunks =>
    (.text kind bytes delimiter, (textSpans bytes chunks).1) ::
      deliveries rest (textSpans bytes chunks).2
  | .body bytes :: rest, chunks =>
    (.body bytes, (bodySpans bytes chunks).1) :: deliveries rest (bodySpans bytes chunks).2
  | .notice notice :: rest, chunks => (.notice notice, []) :: deliveries rest chunks

/-- The notices of a message. -/
def notices : List Element → List Notice
  | [] => []
  | .notice notice :: rest => notice :: notices rest
  | .silent _ :: rest => notices rest
  | .text _ _ _ :: rest => notices rest
  | .body _ :: rest => notices rest

/-- The pieces of the body, put together. -/
def bodies : List Element → List UInt8
  | [] => []
  | .body bytes :: rest => bytes ++ bodies rest
  | .silent _ :: rest => bodies rest
  | .text _ _ _ :: rest => bodies rest
  | .notice _ :: rest => bodies rest

/-- The callbacks of one element. -/
def elementCallbacks : Element × List (List UInt8) → List Callback
  | (.silent _, _) => []
  | (.text kind _ _, spans) => spans.map kind.callback
  | (.body _, spans) => spans.map Callback.body
  | (.notice notice, _) => [notice.callback]

/-- The callbacks that `http_parser` fires for a message in chunks. -/
def deliver (message : List Element) (chunks : List (List UInt8)) : List Callback :=
  (deliveries message chunks).flatMap elementCallbacks

/-- The callbacks that the library fires over consecutive calls. -/
def HttpParserLibrary.emit (library : HttpParserLibrary) :
    library.State → List (List UInt8) → List Callback
  | _, [] => []
  | state, chunk :: rest =>
    let (next, callbacks, _) := library.execute false state chunk
    callbacks ++ library.emit next rest

/-- The state of the library after consecutive calls. -/
def HttpParserLibrary.after (library : HttpParserLibrary) :
    library.State → List (List UInt8) → library.State
  | state, [] => state
  | state, chunk :: rest => library.after (library.execute false state chunk).1 rest

/-- The library delivers a message in these chunks as it is documented to. -/
def Delivers (library : HttpParserLibrary) (type : HttpParserType) (message : List Element)
    (chunks : List (List UInt8)) : Prop :=
  library.emit (library.init type) chunks = deliver message chunks

/-- The chunks are the bytes of the message, cut into consecutive non-empty calls. -/
structure Cuts (message : List Element) (chunks : List (List UInt8)) : Prop where
  whole : chunks.flatten = message.flatMap Element.bytes
  nonempty : ∀ chunk ∈ chunks, chunk ≠ []

/-- Pieces that are not empty hold a byte, if there are any. -/
theorem eq_nil_of_flatten {chunks : List (List UInt8)} (nonempty : ∀ chunk ∈ chunks, chunk ≠ [])
    (nothing : chunks.flatten = []) : chunks = [] := by
  refine List.eq_nil_iff_forall_not_mem.mpr fun chunk member => ?_
  exact nonempty chunk member (List.flatten_eq_nil_iff.mp nothing chunk member)

/-! ### What is left of a cut message -/

/-- The last non-empty span, empty when there is none. -/
def lastNonempty : List (List UInt8) → List UInt8
  | [] => []
  | span :: rest => if lastNonempty rest = [] then span else lastNonempty rest

/-- The last piece of the last element of a kind. -/
def lastPiece (kind : TextKind) :
    List UInt8 → List (Element × List (List UInt8)) → List UInt8
  | piece, [] => piece
  | piece, (.text other _ _, spans) :: rest =>
    lastPiece kind (if other = kind then spans.getLastD piece else piece) rest
  | piece, (.silent _, _) :: rest => lastPiece kind piece rest
  | piece, (.body _, _) :: rest => lastPiece kind piece rest
  | piece, (.notice _, _) :: rest => lastPiece kind piece rest

/-- The last piece of each header name with the last non-empty piece of the value behind it. -/
def headerPieces : List UInt8 → List (Element × List (List UInt8)) →
    List (List UInt8 × List UInt8)
  | _, [] => []
  | key, (.text .field _ _, spans) :: rest => headerPieces (spans.getLastD key) rest
  | key, (.text .value _ _, spans) :: rest => (key, lastNonempty spans) :: headerPieces key rest
  | key, (.text .url _ _, _) :: rest => headerPieces key rest
  | key, (.text .status _ _, _) :: rest => headerPieces key rest
  | key, (.silent _, _) :: rest => headerPieces key rest
  | key, (.body _, _) :: rest => headerPieces key rest
  | key, (.notice _, _) :: rest => headerPieces key rest

/-- The last non-empty value behind a name, among pairs of which the last one counts. -/
def lastValue (name : List UInt8) : List (List UInt8 × List UInt8) → Option (List UInt8)
  | [] => none
  | (key, value) :: rest =>
    (lastValue name rest).or (if key = name ∧ key ≠ [] ∧ value ≠ [] then some value else none)

/-- Two cuttings leave the same pieces: of the url, of the reason phrase, and of the value of
every header name. -/
structure SamePieces (message : List Element) (first second : List (List UInt8)) : Prop where
  url : lastPiece .url [] (deliveries message first) =
    lastPiece .url [] (deliveries message second)
  status : lastPiece .status [] (deliveries message first) =
    lastPiece .status [] (deliveries message second)
  headers : ∀ name, lastValue name (headerPieces [] (deliveries message first)) =
    lastValue name (headerPieces [] (deliveries message second))

/-! ### The effect of the callbacks, element by element -/

/-- What the callbacks of one element do to the message. -/
def HttpMessage.after (message : HttpMessage) : Element × List (List UInt8) → HttpMessage
  | (.silent _, _) => message
  | (.text .url _ _, spans) =>
    { message with header := { message.header with
        uri := spans.getLastD message.header.uri } }
  | (.text .status _ _, spans) =>
    { message with header := { message.header with
        status_desc := spans.getLastD message.header.status_desc } }
  | (.text .field _ _, spans) => { message with fHeaderKey := spans.getLastD message.fHeaderKey }
  | (.text .value _ _, spans) =>
    { message with header := { message.header with
        fHeaders := setHeader message.header.fHeaders message.fHeaderKey (lastNonempty spans) } }
  | (.body _, spans) => { message with body := message.body ++ spans.flatten }
  | (.notice notice, _) => message.on notice.callback

/-- What only the callbacks without a span write. -/
structure Progress where
  type : HttpParserType
  version : HttpVersion
  method : Option Int
  status_code : Option Int
  keepalive : Bool
  headersCompleted : Bool
  eof : Bool

def HttpMessage.progress (message : HttpMessage) : Progress where
  type := message.header.type
  version := message.header.version
  method := message.header.method
  status_code := message.header.status_code
  keepalive := message.bKeepalive
  headersCompleted := message.bHeadersCompleted
  eof := message.bEndOfMessage

def Progress.on (progress : Progress) : Notice → Progress
  | .messageBegin => progress
  | .headersComplete info =>
    { progress with
      method := if progress.type = .request then some info.method else progress.method
      status_code := if progress.type = .request then progress.status_code
        else some info.status_code
      version := if 0 < info.http_major ∧ 0 < info.http_minor then progress.version else .http10
      keepalive := info.shouldKeepAlive
      headersCompleted := true }
  | .messageComplete => { progress with eof := true }

section Effects

/-- Storing the spans of a value one after the other stores the last non-empty one. -/
theorem foldl_setHeader (spans : List (List UInt8)) (key : List UInt8)
    (fHeaders : List UInt8 → Option (List UInt8)) :
    spans.foldl (fun fHeaders span => setHeader fHeaders key span) fHeaders =
      setHeader fHeaders key (lastNonempty spans) := by
  induction spans generalizing fHeaders with
  | nil => simp [setHeader, lastNonempty]
  | cons span rest inductionHypothesis =>
    rw [List.foldl_cons, inductionHypothesis, lastNonempty]
    by_cases nothing : lastNonempty rest = []
    · rw [if_pos nothing, nothing, setHeader, if_pos (Or.inr rfl)]
    · rw [if_neg nothing]
      by_cases noKey : key = []
      · simp [setHeader, noKey]
      · by_cases empty : span = []
        · simp [setHeader, empty]
        · simp [setHeader, noKey, empty, nothing]

/-- When the spans of an element each replace what is stored, the last one remains. -/
theorem foldl_replace {callback : List UInt8 → Callback} (get : HttpMessage → List UInt8)
    (set : HttpMessage → List UInt8 → HttpMessage)
    (replaces : ∀ message span, message.on (callback span) = set message span)
    (get_set : ∀ message span, get (set message span) = span)
    (set_set : ∀ message first second, set (set message first) second = set message second)
    (set_get : ∀ message, set message (get message) = message)
    (spans : List (List UInt8)) (message : HttpMessage) :
    (spans.map callback).foldl HttpMessage.on message =
      set message (spans.getLastD (get message)) := by
  induction spans generalizing message with
  | nil => exact (set_get message).symm
  | cons span rest inductionHypothesis =>
    rw [List.map_cons, List.foldl_cons, replaces, inductionHypothesis, get_set, set_set,
      List.getLastD_cons]

/-- The spans of a value are stored one after the other under the current name. -/
theorem foldl_headerValue (spans : List (List UInt8)) (message : HttpMessage) :
    (spans.map Callback.headerValue).foldl HttpMessage.on message =
      { message with header := { message.header with
          fHeaders := setHeader message.header.fHeaders message.fHeaderKey
            (lastNonempty spans) } } := by
  rw [← foldl_setHeader]
  induction spans generalizing message with
  | nil => rfl
  | cons span rest inductionHypothesis =>
    rw [List.map_cons, List.foldl_cons, inductionHypothesis, List.foldl_cons]
    rfl

/-- The spans of a body are appended. -/
theorem foldl_body (spans : List (List UInt8)) (message : HttpMessage) :
    (spans.map Callback.body).foldl HttpMessage.on message =
      { message with body := message.body ++ spans.flatten } := by
  induction spans generalizing message with
  | nil => simp
  | cons span rest inductionHypothesis =>
    rw [List.map_cons, List.foldl_cons, inductionHypothesis, List.flatten_cons]
    simp [HttpMessage.on]

theorem foldl_elementCallbacks (message : HttpMessage) (delivery : Element × List (List UInt8)) :
    (elementCallbacks delivery).foldl HttpMessage.on message = message.after delivery := by
  obtain ⟨element, spans⟩ := delivery
  cases element with
  | silent bytes => rfl
  | notice notice => rfl
  | body bytes => exact foldl_body spans message
  | text kind bytes delimiter =>
    cases kind with
    | url =>
      exact foldl_replace (fun message => message.header.uri)
        (fun message span => { message with header := { message.header with uri := span } })
        (fun _ _ => rfl) (fun _ _ => rfl) (fun _ _ _ => rfl) (fun _ => rfl) spans message
    | status =>
      exact foldl_replace (fun message => message.header.status_desc)
        (fun message span => { message with header := { message.header with status_desc := span } })
        (fun _ _ => rfl) (fun _ _ => rfl) (fun _ _ _ => rfl) (fun _ => rfl) spans message
    | field =>
      exact foldl_replace (fun message => message.fHeaderKey)
        (fun message span => { message with fHeaderKey := span })
        (fun _ _ => rfl) (fun _ _ => rfl) (fun _ _ _ => rfl) (fun _ => rfl) spans message
    | value => exact foldl_headerValue spans message

/-- All callbacks of a message, element by element. -/
theorem foldl_callbacks (deliveries : List (Element × List (List UInt8))) (message : HttpMessage) :
    (deliveries.flatMap elementCallbacks).foldl HttpMessage.on message =
      deliveries.foldl HttpMessage.after message := by
  induction deliveries generalizing message with
  | nil => rfl
  | cons delivery rest inductionHypothesis =>
    rw [List.flatMap_cons, List.foldl_append, foldl_elementCallbacks, inductionHypothesis]
    rfl

variable (deliveries : List (Element × List (List UInt8))) (message : HttpMessage)

/-- A member of the message after all elements is what is read from the elements, when reading
them goes along with their effects. -/
theorem get_foldl_after {Value : Type} (get : HttpMessage → Value)
    (read : HttpMessage → List (Element × List (List UInt8)) → Value)
    (nil : ∀ message, read message [] = get message)
    (cons : ∀ message element spans rest,
      read message ((element, spans) :: rest) = read (message.after (element, spans)) rest) :
    get (deliveries.foldl HttpMessage.after message) = read message deliveries := by
  induction deliveries generalizing message with
  | nil => exact (nil message).symm
  | cons delivery rest inductionHypothesis =>
    rw [List.foldl_cons, inductionHypothesis]
    exact (cons message delivery.1 delivery.2 rest).symm

theorem uri_foldl_after :
    (deliveries.foldl HttpMessage.after message).header.uri =
      lastPiece .url message.header.uri deliveries := by
  refine get_foldl_after deliveries message (fun message => message.header.uri)
    (fun message rest => lastPiece .url message.header.uri rest) (fun _ => rfl) ?_
  intro message element spans rest
  cases element with
  | silent bytes => rfl
  | body bytes => rfl
  | notice notice => cases notice <;> rfl
  | text kind bytes delimiter => cases kind <;> rfl

theorem status_foldl_after :
    (deliveries.foldl HttpMessage.after message).header.status_desc =
      lastPiece .status message.header.status_desc deliveries := by
  refine get_foldl_after deliveries message (fun message => message.header.status_desc)
    (fun message rest => lastPiece .status message.header.status_desc rest) (fun _ => rfl) ?_
  intro message element spans rest
  cases element with
  | silent bytes => rfl
  | body bytes => rfl
  | notice notice => cases notice <;> rfl
  | text kind bytes delimiter => cases kind <;> rfl

theorem headers_foldl_after :
    (deliveries.foldl HttpMessage.after message).header.fHeaders =
      (headerPieces message.fHeaderKey deliveries).foldl
        (fun fHeaders pieces => setHeader fHeaders pieces.1 pieces.2) message.header.fHeaders := by
  refine get_foldl_after deliveries message (fun message => message.header.fHeaders)
    (fun message rest => (headerPieces message.fHeaderKey rest).foldl
      (fun fHeaders pieces => setHeader fHeaders pieces.1 pieces.2) message.header.fHeaders)
    (fun _ => rfl) ?_
  intro message element spans rest
  cases element with
  | silent bytes => rfl
  | body bytes => rfl
  | notice notice => cases notice <;> rfl
  | text kind bytes delimiter => cases kind <;> rfl

theorem progress_foldl_after :
    (deliveries.foldl HttpMessage.after message).progress =
      (notices (deliveries.map Prod.fst)).foldl Progress.on message.progress := by
  refine get_foldl_after deliveries message HttpMessage.progress
    (fun message rest => (notices (rest.map Prod.fst)).foldl Progress.on message.progress)
    (fun _ => rfl) ?_
  intro message element spans rest
  cases element with
  | silent bytes => rfl
  | body bytes => rfl
  | notice notice => cases notice <;> rfl
  | text kind bytes delimiter => cases kind <;> rfl

end Effects

theorem map_fst_deliveries (message : List Element) (chunks : List (List UInt8)) :
    (deliveries message chunks).map Prod.fst = message := by
  induction message generalizing chunks with
  | nil => rfl
  | cons element rest inductionHypothesis =>
    cases element <;> exact congrArg (List.cons _) (inductionHypothesis _)

/-- The notices come through as they are, however the message is cut. -/
theorem progress_foldl_deliveries (elements : List Element) (chunks : List (List UInt8))
    (message : HttpMessage) :
    ((deliveries elements chunks).foldl HttpMessage.after message).progress =
      (notices elements).foldl Progress.on message.progress := by
  rw [progress_foldl_after, map_fst_deliveries]

/-- The map built from name and value pieces has for each name its last value. -/
theorem foldl_setHeader_apply (pieces : List (List UInt8 × List UInt8))
    (fHeaders : List UInt8 → Option (List UInt8)) (name : List UInt8) :
    pieces.foldl (fun fHeaders pieces => setHeader fHeaders pieces.1 pieces.2) fHeaders name =
      (lastValue name pieces).or (fHeaders name) := by
  induction pieces generalizing fHeaders with
  | nil => rfl
  | cons piece rest inductionHypothesis =>
    obtain ⟨key, value⟩ := piece
    rw [List.foldl_cons, inductionHypothesis, lastValue, Option.or_assoc]
    congr 1
    by_cases empty : key = [] ∨ value = []
    · rw [setHeader, if_pos empty, if_neg (fun all => empty.elim all.2.1 all.2.2)]
      rfl
    · rw [setHeader, if_neg empty]
      rw [not_or] at empty
      by_cases same : name = key
      · rw [same, Function.update_self, if_pos ⟨rfl, empty⟩]
        rfl
      · rw [Function.update_of_ne same, if_neg (fun all => same all.1.symm)]
        rfl

/-! ### What does not depend on the cuts -/

section Cuts

theorem length_skipBytes (count : Nat) (chunks : List (List UInt8))
    (enough : count ≤ chunks.flatten.length) :
    (skipBytes count chunks).flatten.length = chunks.flatten.length - count := by
  induction chunks generalizing count with
  | nil => simp [skipBytes]
  | cons chunk rest inductionHypothesis =>
    rw [List.flatten_cons, List.length_append] at enough ⊢
    rw [skipBytes]
    split
    · rw [List.flatten_cons, List.length_append, List.length_drop]
      omega
    · rw [inductionHypothesis _ (by omega)]
      omega

theorem length_textSpans (bytes : List UInt8) (chunks : List (List UInt8))
    (enough : bytes.length < chunks.flatten.length) :
    (textSpans bytes chunks).2.flatten.length = chunks.flatten.length - (bytes.length + 1) := by
  induction chunks generalizing bytes with
  | nil => cases enough
  | cons chunk rest inductionHypothesis =>
    rw [List.flatten_cons, List.length_append] at enough ⊢
    rw [textSpans]
    split
    · rename_i empty
      rw [empty] at enough ⊢
      rw [List.length_nil] at enough ⊢
      rw [inductionHypothesis _ (by omega)]
      omega
    · split
      · rw [List.flatten_cons, List.length_append, List.length_drop]
        omega
      · show (textSpans (bytes.drop chunk.length) rest).2.flatten.length = _
        rw [inductionHypothesis _ (by rw [List.length_drop]; omega), List.length_drop]
        omega

/-- The spans of a piece of the body make it up. -/
theorem bodySpans_spec (bytes : List UInt8) (chunks : List (List UInt8))
    (enough : bytes.length ≤ chunks.flatten.length) :
    (bodySpans bytes chunks).1.flatten = bytes ∧
      (bodySpans bytes chunks).2.flatten.length = chunks.flatten.length - bytes.length := by
  induction chunks generalizing bytes with
  | nil =>
    have empty : bytes = [] := List.length_eq_zero_iff.mp (Nat.le_zero.mp enough)
    rw [empty]
    exact ⟨rfl, rfl⟩
  | cons chunk rest inductionHypothesis =>
    rw [List.flatten_cons, List.length_append] at enough ⊢
    rw [bodySpans]
    split
    · rename_i empty
      rw [empty] at enough ⊢
      rw [List.length_nil, Nat.zero_add] at enough ⊢
      exact inductionHypothesis bytes enough
    · split
      · refine ⟨by simp, ?_⟩
        rw [List.flatten_cons, List.length_append, List.length_drop]
        omega
      · obtain ⟨whole, left⟩ := inductionHypothesis (bytes.drop chunk.length)
          (by rw [List.length_drop]; omega)
        refine ⟨?_, ?_⟩
        · show (bytes.take chunk.length :: (bodySpans (bytes.drop chunk.length) rest).1).flatten = _
          rw [List.flatten_cons, whole, List.take_append_drop]
        · show (bodySpans (bytes.drop chunk.length) rest).2.flatten.length = _
          rw [left, List.length_drop]
          omega

end Cuts

/-- The bodies of a message arrive whole, however its bytes are cut. -/
theorem body_foldl_deliveries (elements : List Element) (message : HttpMessage)
    {chunks : List (List UInt8)}
    (enough : (elements.flatMap Element.bytes).length ≤ chunks.flatten.length) :
    ((deliveries elements chunks).foldl HttpMessage.after message).body =
      message.body ++ bodies elements := by
  induction elements generalizing message chunks with
  | nil => exact (List.append_nil _).symm
  | cons element rest inductionHypothesis =>
    rw [List.flatMap_cons, List.length_append] at enough
    cases element with
    | silent bytes =>
      rw [Element.bytes] at enough
      refine inductionHypothesis message ?_
      rw [length_skipBytes _ _ (by omega)]
      omega
    | text kind bytes delimiter =>
      rw [Element.bytes, List.length_append, List.length_singleton] at enough
      refine (inductionHypothesis _ ?_).trans ?_
      · rw [length_textSpans _ _ (by omega)]
        omega
      · cases kind <;> rfl
    | body bytes =>
      rw [Element.bytes] at enough
      obtain ⟨whole, left⟩ := bodySpans_spec bytes chunks (by omega)
      refine (inductionHypothesis _ ?_).trans ?_
      · rw [left]
        omega
      · show message.body ++ (bodySpans bytes chunks).1.flatten ++ _ = _
        rw [whole, List.append_assoc]
        rfl
    | notice notice =>
      rw [Element.bytes, List.length_nil] at enough
      refine (inductionHypothesis _ (by omega)).trans ?_
      cases notice <;> rfl

/-! ### Runs of `parse()` -/

section Runs

variable {library : HttpParserLibrary}

/-- The callbacks do not touch what the library asks `on_headers_complete` for. -/
theorem foldl_on_type (callbacks : List Callback) (message : HttpMessage) :
    (callbacks.foldl HttpMessage.on message).header.type = message.header.type ∧
      (callbacks.foldl HttpMessage.on message).bHeadRequest = message.bHeadRequest := by
  induction callbacks generalizing message with
  | nil => exact ⟨rfl, rfl⟩
  | cons callback rest inductionHypothesis =>
    rw [List.foldl_cons]
    obtain ⟨type, headRequest⟩ := inductionHypothesis (message.on callback)
    rw [type, headRequest]
    cases callback <;> exact ⟨rfl, rfl⟩

theorem skipsBody_foldl_on (parser : HttpParser library) (callbacks : List Callback)
    (fParser : library.State) :
    HttpParser.skipsBody { parser with
      toHttpMessage := callbacks.foldl HttpMessage.on parser.toHttpMessage, fParser } =
      parser.skipsBody := by
  obtain ⟨type, headRequest⟩ := foldl_on_type callbacks parser.toHttpMessage
  rw [HttpParser.skipsBody, HttpParser.skipsBody, type, headRequest]

/-- One call of a started parser. -/
theorem parse_of_inited (parser : HttpParser library) (started : parser.bInited = true)
    (whole : parser.skipsBody = false) (chunk : List UInt8) :
    parser.parse chunk =
      ({ parser with
          toHttpMessage := (library.execute false parser.fParser chunk).2.1.foldl HttpMessage.on
            parser.toHttpMessage
          fParser := (library.execute false parser.fParser chunk).1 },
        Buffer.toInt (library.execute false parser.fParser chunk).2.2) := by
  simp only [HttpParser.parse, started, if_true, whole]

/-- A started parser over consecutive calls: the callbacks of the library, in order. -/
theorem parseAll_of_inited (parser : HttpParser library) (started : parser.bInited = true)
    (whole : parser.skipsBody = false) (chunks : List (List UInt8)) :
    parser.parseAll chunks =
      { parser with
        toHttpMessage := (library.emit parser.fParser chunks).foldl HttpMessage.on
          parser.toHttpMessage
        fParser := library.after parser.fParser chunks } := by
  induction chunks generalizing parser with
  | nil => rfl
  | cons chunk rest inductionHypothesis =>
    show (parser.parse chunk).1.parseAll rest = _
    rw [parse_of_inited parser started whole]
    refine Eq.trans (inductionHypothesis _ ?_ ?_) ?_
    · exact started
    · exact (skipsBody_foldl_on parser _ _).trans whole
    · rw [HttpParserLibrary.emit, HttpParserLibrary.after, List.foldl_append]

/-- The first call starts the parser. -/
theorem parse_of_fresh {parser : HttpParser library} (fresh : parser.Fresh) (chunk : List UInt8) :
    parser.parse chunk = parser.init.parse chunk := by
  rw [HttpParser.parse, fresh.bInited, if_neg Bool.false_ne_true]
  rfl

theorem skipsBody_init {parser : HttpParser library} (fresh : parser.Fresh) :
    parser.init.skipsBody = false := by
  show (decide (parser.header.type = .response) && parser.bHeadRequest) = false
  rw [fresh.bHeadRequest, Bool.and_false]

/-- Starting a fresh parser leaves the message as it is. -/
theorem toHttpMessage_init {parser : HttpParser library} (fresh : parser.Fresh) :
    parser.init.toHttpMessage = parser.toHttpMessage := by
  obtain ⟨⟨header, body, bEndOfMessage, bHeadRequest, bKeepalive, bHeadersCompleted, fHeaderKey⟩,
    bInited, fParser⟩ := parser
  obtain ⟨-, -, ended, completed, keepalive⟩ := fresh
  cases ended
  cases completed
  cases keepalive
  rfl

theorem parseAll_cons_of_fresh {parser : HttpParser library} (fresh : parser.Fresh)
    (chunk : List UInt8) (rest : List (List UInt8)) :
    parser.parseAll (chunk :: rest) =
      { parser.init with
        toHttpMessage := (library.emit (library.init parser.header.type) (chunk :: rest)).foldl
          HttpMessage.on parser.init.toHttpMessage
        fParser := library.after (library.init parser.header.type) (chunk :: rest) } := by
  show (parser.parse chunk).1.parseAll rest = _
  rw [parse_of_fresh fresh]
  exact parseAll_of_inited parser.init rfl (skipsBody_init fresh) (chunk :: rest)

/-- What consecutive calls leave in a fresh parser. -/
theorem toHttpMessage_parseAll {parser : HttpParser library} (fresh : parser.Fresh)
    (chunks : List (List UInt8)) :
    (parser.parseAll chunks).toHttpMessage =
      (library.emit (library.init parser.header.type) chunks).foldl HttpMessage.on
        parser.toHttpMessage := by
  cases chunks with
  | nil => rfl
  | cons chunk rest => rw [parseAll_cons_of_fresh fresh, toHttpMessage_init fresh]

end Runs

/-! ### Segmentation -/

/-- Two cuttings of a message leave the same url, reason phrase, headers, body and flags exactly
when they leave the same pieces of the elements that are overwritten. -/
theorem observe_parseAll_eq_iff (library : HttpParserLibrary) (type : HttpParserType)
    (message : List Element) (first second : List (List UInt8))
    (firstCuts : Cuts message first) (secondCuts : Cuts message second)
    (firstDelivered : Delivers library type message first)
    (secondDelivered : Delivers library type message second) :
    ((HttpParser.new library type).parseAll first).observe =
        ((HttpParser.new library type).parseAll second).observe ↔
      SamePieces message first second := by
  have progress := (progress_foldl_deliveries message first (HttpMessage.new type)).trans
    (progress_foldl_deliveries message second (HttpMessage.new type)).symm
  have body := (body_foldl_deliveries message (HttpMessage.new type)
      (Nat.le_of_eq (congrArg List.length firstCuts.whole.symm))).trans
    (body_foldl_deliveries message (HttpMessage.new type)
      (Nat.le_of_eq (congrArg List.length secondCuts.whole.symm))).symm
  have keepalive : HttpMessage.bKeepalive _ = HttpMessage.bKeepalive _ :=
    congrArg Progress.keepalive progress
  have headersCompleted : HttpMessage.bHeadersCompleted _ = HttpMessage.bHeadersCompleted _ :=
    congrArg Progress.headersCompleted progress
  have eof : HttpMessage.bEndOfMessage _ = HttpMessage.bEndOfMessage _ :=
    congrArg Progress.eof progress
  rw [toHttpMessage_parseAll (HttpParser.fresh_new type),
    toHttpMessage_parseAll (HttpParser.fresh_new type),
    show library.emit (library.init (HttpParser.new library type).header.type) first = _
      from firstDelivered,
    show library.emit (library.init (HttpParser.new library type).header.type) second = _
      from secondDelivered, deliver, deliver, foldl_callbacks, foldl_callbacks]
  show (List.foldl HttpMessage.after (HttpMessage.new type) _).observe =
    (List.foldl HttpMessage.after (HttpMessage.new type) _).observe ↔ _
  simp only [HttpMessage.observe, HttpMessage.Observation.mk.injEq, uri_foldl_after,
    status_foldl_after, headers_foldl_after, body, keepalive, headersCompleted, eof, and_true,
    funext_iff, foldl_setHeader_apply]
  constructor
  · rintro ⟨url, status, headers⟩
    exact ⟨url, status, by simpa [HttpMessage.new, HttpHeader.new] using headers⟩
  · rintro ⟨url, status, headers⟩
    exact ⟨url, status, by simpa [HttpMessage.new, HttpHeader.new] using headers⟩

/-- The element is not one that ends at a delimiter, or it is delivered in one piece. -/
def inOnePiece : Element × List (List UInt8) → Bool
  | (.text _ bytes _, spans) => spans = [bytes]
  | (.silent _, _) => true
  | (.body _, _) => true
  | (.notice _, _) => true

/-- No cut falls inside an element that ends at a delimiter, or right behind one. -/
def Uncut (message : List Element) (chunks : List (List UInt8)) : Prop :=
  ∀ delivery ∈ deliveries message chunks, inOnePiece delivery = true

/-- The elements of a message in one piece. -/
def wholeDeliveries (message : List Element) : List (Element × List (List UInt8)) :=
  message.map fun
    | .text kind bytes delimiter => (.text kind bytes delimiter, [bytes])
    | element => (element, [])

theorem pieces_of_uncut {message : List Element} {chunks : List (List UInt8)}
    (uncut : Uncut message chunks) :
    (∀ kind piece, lastPiece kind piece (deliveries message chunks) =
        lastPiece kind piece (wholeDeliveries message)) ∧
      ∀ key, headerPieces key (deliveries message chunks) =
        headerPieces key (wholeDeliveries message) := by
  induction message generalizing chunks with
  | nil => exact ⟨fun _ _ => rfl, fun _ => rfl⟩
  | cons element rest inductionHypothesis =>
    cases element with
    | silent bytes =>
      exact inductionHypothesis fun delivery member =>
        uncut delivery (List.mem_cons_of_mem _ member)
    | body bytes =>
      exact inductionHypothesis fun delivery member =>
        uncut delivery (List.mem_cons_of_mem _ member)
    | notice notice =>
      exact inductionHypothesis fun delivery member =>
        uncut delivery (List.mem_cons_of_mem _ member)
    | text kind bytes delimiter =>
      have one : (textSpans bytes chunks).1 = [bytes] :=
        of_decide_eq_true (uncut _ List.mem_cons_self)
      obtain ⟨pieces, headers⟩ := inductionHypothesis fun delivery member =>
        uncut delivery (List.mem_cons_of_mem _ member)
      refine ⟨fun other piece => ?_, fun key => ?_⟩
      · rw [deliveries, one]
        exact pieces other _
      · rw [deliveries, one]
        cases kind with
        | url => exact headers key
        | status => exact headers key
        | field => exact headers bytes
        | value => exact congrArg (List.cons (key, lastNonempty [bytes])) (headers key)

/-- Cuts in the body and between the elements are harmless. -/
theorem samePieces_of_uncut {message : List Element} {first second : List (List UInt8)}
    (firstUncut : Uncut message first) (secondUncut : Uncut message second) :
    SamePieces message first second := by
  obtain ⟨firstPieces, firstHeaders⟩ := pieces_of_uncut firstUncut
  obtain ⟨secondPieces, secondHeaders⟩ := pieces_of_uncut secondUncut
  refine ⟨?_, ?_, fun name => ?_⟩
  · rw [firstPieces, secondPieces]
  · rw [firstPieces, secondPieces]
  · rw [firstHeaders, secondHeaders]

/-! ### A library that follows one message -/

/-- One call of a parser that has the given elements in front of it. -/
def executeScript : List Element → List UInt8 → List Element × List Callback
  | [], _ => ([], [])
  | .silent bytes :: rest, chunk =>
    if bytes.length ≤ chunk.length then executeScript rest (chunk.drop bytes.length)
    else (.silent (bytes.drop chunk.length) :: rest, [])
  | .text kind bytes delimiter :: rest, chunk =>
    if chunk = [] then (.text kind bytes delimiter :: rest, [])
    else if bytes.length < chunk.length then
      let (left, callbacks) := executeScript rest (chunk.drop (bytes.length + 1))
      (left, kind.callback bytes :: callbacks)
    else
      (.text kind (bytes.drop chunk.length) delimiter :: rest,
        [kind.callback (bytes.take chunk.length)])
  | .body bytes :: rest, chunk =>
    if chunk = [] then (.body bytes :: rest, [])
    else if bytes.length ≤ chunk.length then
      let (left, callbacks) := executeScript rest (chunk.drop bytes.length)
      (left, .body bytes :: callbacks)
    else (.body (bytes.drop chunk.length) :: rest, [.body (bytes.take chunk.length)])
  | .notice notice :: rest, chunk =>
    let (left, callbacks) := executeScript rest chunk
    (left, notice.callback :: callbacks)

/-- The library whose input is the given message. -/
def scriptLibrary (message : List Element) : HttpParserLibrary where
  State := List Element
  init _ := message
  execute _ state chunk :=
    ((executeScript state chunk).1, (executeScript state chunk).2, chunk.length)

/-- `POST /u HTTP/1.1`, `Content-Length: 3` and the body `xyz`. -/
def postRequest : List Element :=
  [.notice .messageBegin, .silent [80, 79, 83, 84, 32], .text .url [47, 117] 32,
    .silent [72, 84, 84, 80, 47, 49, 46, 49, 13, 10],
    .text .field [67, 111, 110, 116, 101, 110, 116, 45, 76, 101, 110, 103, 116, 104] 58,
    .silent [32], .text .value [51] 13, .silent [10, 13, 10],
    .notice (.headersComplete ⟨3, 0, 1, 1, true⟩), .body [120, 121, 122],
    .notice .messageComplete]

/-- The bytes of the request, cut before the given offsets. -/
def cutRequest (offsets : List Nat) : List (List UInt8) :=
  let whole := postRequest.flatMap Element.bytes
  List.zipWith (fun start stop => slice whole start (stop - start)) (0 :: offsets)
    (offsets ++ [whole.length])

/-- The request in one call, and cut in its method and in its body. -/
theorem observe_postRequest_eq :
    Cuts postRequest (cutRequest []) ∧ Cuts postRequest (cutRequest [2, 40]) ∧
      ((HttpParser.new (scriptLibrary postRequest) .request).parseAll (cutRequest [])).observe =
        ((HttpParser.new (scriptLibrary postRequest) .request).parseAll
          (cutRequest [2, 40])).observe := by
  have whole : Cuts postRequest (cutRequest []) := ⟨by decide +kernel, by decide +kernel⟩
  have cut : Cuts postRequest (cutRequest [2, 40]) := ⟨by decide +kernel, by decide +kernel⟩
  refine ⟨whole, cut, ?_⟩
  refine (observe_parseAll_eq_iff (scriptLibrary postRequest) .request postRequest _ _ whole cut
    (show _ = _ by decide +kernel) (show _ = _ by decide +kernel)).mpr ?_
  exact samePieces_of_uncut (by unfold Uncut; decide +kernel) (by unfold Uncut; decide +kernel)

/-- Cut behind the first byte of its url, the request has lost that byte. -/
theorem observe_postRequest_ne :
    ¬ ∀ (library : HttpParserLibrary) (type : HttpParserType) (message : List Element)
      (first second : List (List UInt8)), Cuts message first → Cuts message second →
      Delivers library type message first → Delivers library type message second →
      ((HttpParser.new library type).parseAll first).observe =
        ((HttpParser.new library type).parseAll second).observe := by
  intro independent
  have same := independent (scriptLibrary postRequest) .request postRequest (cutRequest [])
    (cutRequest [6]) ⟨by decide +kernel, by decide +kernel⟩ ⟨by decide +kernel, by decide +kernel⟩
    (show _ = _ by decide +kernel) (show _ = _ by decide +kernel)
  have uri := congrArg HttpMessage.Observation.uri same
  exact absurd uri (by decide +kernel)

end Nattan
