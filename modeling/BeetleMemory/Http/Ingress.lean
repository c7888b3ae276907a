import BeetleMemory.Graph.Text
import BeetleMemory.Lib.Lines

/-! Reading one HTTP request from a stream of bytes: a bounded head, then the authorization, then
a body of the declared length. A stream is the list of its bytes, and each function returns what it
has left unread. Failures of the transport are left out.
-/

namespace BeetleMemory.Http

open BeetleMemory.Graph (isAsciiAlphanumeric isAsciiDigit toAsciiLowercase)
open LongTerm (trim)
open Lines (splitLines)
open Store (Bytes)

/-! ## Limits, heads and errors -/

inductive EntryHttpIngressErrorKind where
  | invalidRequest
  | payloadTooLarge
  | unauthorized
  | forbidden
  | io
deriving DecidableEq, Repr

structure EntryHttpIngressError where
  kind : EntryHttpIngressErrorKind
  message : String
deriving DecidableEq, Repr

def EntryHttpIngressError.invalidRequest (message : String) : EntryHttpIngressError :=
  ⟨.invalidRequest, message⟩

def EntryHttpIngressError.payloadTooLarge (message : String) : EntryHttpIngressError :=
  ⟨.payloadTooLarge, message⟩

open EntryHttpIngressError (invalidRequest payloadTooLarge)

structure EntryHttpIngressLimits where
  headerMaxBytes : Nat
  bodyMaxBytes : Nat
deriving DecidableEq, Repr

def EntryHttpIngressLimits.new (headerMaxBytes bodyMaxBytes : Nat)
    : Except EntryHttpIngressError EntryHttpIngressLimits :=
  if headerMaxBytes < 4 then
    .error (invalidRequest "HTTP header budget must fit the header terminator")
  else .ok { headerMaxBytes, bodyMaxBytes }

/-- The headers are listed in the order of the head, with lower case names. -/
structure EntryHttpRequestHead where
  method : String
  target : String
  headers : List (String × String)
  contentLength : Nat
deriving DecidableEq, Repr

def getHeader (headers : List (String × String)) (name : String) : Option String :=
  (headers.find? (·.1 = name)).map (·.2)

def EntryHttpRequestHead.header (self : EntryHttpRequestHead) (name : String) : Option String :=
  getHeader self.headers (toAsciiLowercase name)

/-- A request with the decision of the authorization. -/
structure EntryAuthorizedHttpRequest (α : Type) where
  head : EntryHttpRequestHead
  body : Bytes
  auth : α
deriving DecidableEq

/-! ## Lines of the head -/

def isTokenChar (c : Char) : Bool :=
  isAsciiAlphanumeric c || "!#$%&'*+-.^_`|~".toList.contains c

def isHttpToken (value : List Char) : Bool :=
  !value.isEmpty && value.all isTokenChar

/-- The parts before and after the first occurrence of a character. -/
def splitOnce (separator : Char) : List Char → Option (List Char × List Char)
  | [] => none
  | c :: rest =>
      if c = separator then some ([], rest)
      else (splitOnce separator rest).map fun parts => (c :: parts.1, parts.2)

def parseContentLength (value : String) : Except EntryHttpIngressError Nat :=
  if value.isEmpty || !value.toList.all isAsciiDigit then
    .error (invalidRequest "invalid HTTP content-length")
  else
    let number := value.toList.foldl (fun number digit => 10 * number + (digit.toNat - 48)) 0
    if number < 2 ^ 64 then .ok number
    else .error (invalidRequest "invalid HTTP content-length")

/-- One line behind the request line. -/
def insertHeader (headers : List (String × String)) (line : List Char)
    : Except EntryHttpIngressError (List (String × String)) :=
  if line.isEmpty then .ok headers
  else if line.head? = some ' ' || line.head? = some '\t' then
    .error (invalidRequest "folded HTTP headers are forbidden")
  else
    match splitOnce ':' line with
    | none => .error (invalidRequest "malformed HTTP header")
    | some (name, value) =>
        if !isHttpToken name then .error (invalidRequest "invalid HTTP header name")
        else
          let name := toAsciiLowercase (String.ofList name)
          if (getHeader headers name).isSome then
            .error (invalidRequest ("duplicate HTTP header: " ++ name))
          else .ok (headers ++ [(name, trim (String.ofList value))])

def parseRequestLine (line : List Char) : Except EntryHttpIngressError (String × String) :=
  match line.splitOn ' ' with
  | [] => .error (invalidRequest "invalid HTTP method")
  | method :: rest =>
      if !isHttpToken method then .error (invalidRequest "invalid HTTP method")
      else
        match rest with
        | [] => .error (invalidRequest "missing HTTP request target")
        | target :: rest =>
            if target.isEmpty then .error (invalidRequest "missing HTTP request target")
            else if rest ≠ ["HTTP/1.1".toList] then
              .error (invalidRequest "request line must use exact HTTP/1.1 framing")
            else .ok (String.ofList method, String.ofList target)

def contentLengthOf (headers : List (String × String)) : Except EntryHttpIngressError Nat :=
  match getHeader headers "content-length" with
  | none => .ok 0
  | some value => parseContentLength value

/-! ## Heads and requests -/

/-- The end of a head. -/
def headEnd : Bytes := [13, 10, 13, 10]

/-- The bytes of the head, read one by one, and what is left unread. -/
def readHeadBytes (headerMaxBytes : Nat) (bytes : Bytes)
    : Bytes → Except EntryHttpIngressError Bytes × Bytes
  | [] =>
      if headEnd.isSuffixOf bytes then (.ok bytes, [])
      else if bytes.length = headerMaxBytes then
        (.error (payloadTooLarge "HTTP headers exceed runtime adapter budget"), [])
      else (.error (invalidRequest "unexpected EOF while reading HTTP headers"), [])
  | byte :: rest =>
      if headEnd.isSuffixOf bytes then (.ok bytes, byte :: rest)
      else if bytes.length = headerMaxBytes then
        (.error (payloadTooLarge "HTTP headers exceed runtime adapter budget"), byte :: rest)
      else readHeadBytes headerMaxBytes (bytes ++ [byte]) rest

/-- What is said about bytes that are not UTF-8. -/
structure Utf8Report where
  message : Bytes → String

variable (utf8 : Utf8Report)

/-- The head in these bytes. -/
def parseHead (limits : EntryHttpIngressLimits) (bytes : Bytes)
    : Except EntryHttpIngressError EntryHttpRequestHead := do
  let text ← match String.fromUTF8? bytes.toByteArray with
    | some text => .ok text.toList
    | none => .error (invalidRequest (utf8.message bytes))
  let lines := splitLines .strict text
  let (method, target) ← parseRequestLine (lines.headD [])
  let headers ← lines.tail.foldlM insertHeader []
  if (getHeader headers "transfer-encoding").isSome then
    .error (invalidRequest "HTTP transfer-encoding is forbidden; content-length is required")
  else if (getHeader headers "host").all (·.isEmpty) then
    .error (invalidRequest "HTTP/1.1 Host header is required")
  else
    let contentLength ← contentLengthOf headers
    if limits.bodyMaxBytes < contentLength then
      .error (payloadTooLarge "HTTP body exceeds runtime adapter budget")
    else .ok { method, target, headers, contentLength }

/-- Bounded head, authorization, then bounded body. -/
def readAuthorizedHttpRequest {α : Type} (limits : EntryHttpIngressLimits)
    (authorize : EntryHttpRequestHead → Except EntryHttpIngressError α) (stream : Bytes)
    : Except EntryHttpIngressError (EntryAuthorizedHttpRequest α) × Bytes :=
  match readHeadBytes limits.headerMaxBytes [] stream with
  | (.error error, rest) => (.error error, rest)
  | (.ok bytes, rest) =>
      match parseHead utf8 limits bytes with
      | .error error => (.error error, rest)
      | .ok head =>
          match authorize head with
          | .error error => (.error error, rest)
          | .ok auth =>
              if rest.length < head.contentLength then
                (.error (invalidRequest "truncated HTTP body: failed to fill whole buffer"), [])
              else
                (.ok { head, body := rest.take head.contentLength, auth },
                  rest.drop head.contentLength)

end BeetleMemory.Http
