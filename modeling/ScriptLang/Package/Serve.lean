import ScriptLang.Package.Run

/-!
# Serving requests

How the servers of the three packages answer requests. The head of an answer is gathered line by
line and sent when it is complete; what goes wrong after that is too late to be seen in the status.
-/

namespace ScriptLang.Package

open ScriptLang.Action ScriptLang.Library ScriptLang.Http

inductive Service where
  | hosting | site | http
deriving DecidableEq

/-- Prints a line of the server's log; only the http package keeps one. -/
def logRequest (service : Service) (message : String) : Routine Unit :=
  match service with
  | .http => printLine ("[HTTP] 127.0.0.1 - " ++ message)
  | _ => pure ()

def modifyExchange (f : Exchange → Exchange) : Routine Unit :=
  modify fun w => { w with exchange := f w.exchange }

def headLine (line : String) : Routine Unit := do
  let bytes ← ofExcept (narrow (line ++ "\r\n"))
  modifyExchange fun e => { e with pending := e.pending ++ bytes }

/-- The whole number that a status is written as. -/
def statusNumber (status : Value) : Routine Int :=
  match status.num? with
  | some (.whole n) => return n
  | some (.real x) => ofExcept (wholeOfFloat x)
  | none => typeFault ("%d format: a real number is required, not " ++ status.typeName)

def statusPhrase (status : Value) : String :=
  match status.num? with
  | some (.whole n) => phrase n
  | some (.real x) => if Number.isWhole x then phrase ((Number.truncate x).getD 0) else ""
  | none => ""

/-- What comes before the first line of a head: the request is logged, and the status is checked. -/
def checkStatus (service : Service) (r : Request) (status : Value) : Routine Int := do
  logRequest service ("\"" ++ r.line ++ "\" " ++ (← text status) ++ " -")
  hashable status
  statusNumber status

/-- Starts the head of an answer, with the usual words for the status or others. -/
def startAnswer (service : Service) (r : Request) (status : Value) (words : Option String) :
    Routine Unit := do
  let number ← checkStatus service r status
  headLine (s!"HTTP/1.0 {number} " ++ words.getD (statusPhrase status))
  headLine "Server: ZenLang"
  headLine ("Date: " ++ (Moment.ofClock (← get).clock).text)

def addHeader (name : Value) (value : String) : Routine Unit := do
  headLine ((← text name) ++ ": " ++ value)
  match name with
  | .text _ | .bytes _ => pure ()
  | v => noAttribute v "lower"

def sendHead : Routine Unit :=
  modifyExchange fun e => { e with sent := e.sent ++ e.pending ++ [13, 10], pending := [] }

def sendBody (s : String) : Routine Unit :=
  modifyExchange fun e => { e with sent := e.sent ++ s.toUTF8.toList }

def answerWith (service : Service) (r : Request) (status : Int) (contentType : String × String)
    (body : String) : Routine Unit := do
  startAnswer service r (.int status) none
  addHeader (.text contentType.1) contentType.2
  sendHead
  sendBody body

def refuse (service : Service) (r : Request) (status : Int) (message : String) : Routine Unit := do
  modifyExchange fun e => { e with refused := true }
  logRequest service (s!"code {status}, message " ++ message)
  startAnswer service r (.int status) (some message)
  addHeader (.text "Connection") "close"
  sendHead
  sendBody message

/-- The path of a request; several slashes in front count as one. -/
def requestPath (r : Request) : String :=
  let path := asSeen r.path
  if path.startsWith "//" then "/" ++ String.ofList (path.toList.dropWhile (· == '/')) else path

/-- The values of query parameters by name, in the order of the names. -/
def groupQuery (query : String) : List (String × List String) :=
  (Url.readQuery query).foldl
    (fun acc f => putField f.1 ((acc.lookup f.1).getD [] ++ [f.2]) acc) []

/-- The headers of a request as an object; of headers with one name the first counts. -/
def headersObject (r : Request) : Routine Value :=
  newObject (r.allHeaders.foldl
    (fun (acc : Entries) h => acc.put (.text h.1) (.text ((r.header? h.1).getD h.2))) [])

def parsedPath (r : Request) : Routine Url.Parts :=
  match Url.parse (requestPath r) with
  | .ok p => return p
  | .error e => valueFault e.message

/-- The body of a request, as long as the header says; none when it says nothing or zero. -/
def requestBody (r : Request) : Routine (Option String) := do
  let length ←
    match r.header? "Content-Length" with
    | some s => ofExcept (wholeOfText s)
    | none => pure 0
  if 0 < length then
    some <$> decodeText ((r.body.getD "").toUTF8.toList.take length.toNat).toByteArray
  else return none

def textArray (xs : List String) : Routine Value :=
  arrayOf (xs.map .text)

/-- Answers with the page that the callback makes. -/
def answerHosting (call : Caller) (r : Request) : Action Unit := do
  let callback := (← get).hostingCallback
  if ← truthy callback then
    let content ← call callback []
    startAnswer .hosting r (.int 200) none
    addHeader (.text "Content-type") "text/html"
    sendHead
    match content with
    | .text s => sendBody s
    | v => noAttribute v "encode"
  else answerWith .hosting r 200 ("Content-type", "text/html") "Hello from ZenLang!"

/-- The names of a path between its slashes. -/
def segments (path : String) : List String :=
  Text.split "/" (String.ofList (Text.trimBy (· == '/') path.toList))

/-- Whether a path fits a pattern, in which names with a colon in front stand for any. -/
def fitsRoute (path route : String) : Bool :=
  let ps := segments path
  let rs := segments route
  ps.length == rs.length && (ps.zip rs).all fun (p, r) => r.startsWith ":" || p == r

/-- What the first pattern that a path fits is registered with; null when it fits none. -/
def dynamicRoute (path : String) : Entries → Routine Value
  | [] => return .null
  | (route, handler) :: rest => do
      if ← contains route (.text ":") then
        match route with
        | .text s => if fitsRoute path s then return handler else dynamicRoute path rest
        | v => noAttribute v "strip"
      else dynamicRoute path rest

/-- What a path is registered with: the path itself, or else a pattern. -/
def routeFor (path : String) : Routine Value := do
  let routes := (← get).site.routes
  let exact := (routes.field? path).getD .null
  if ← truthy exact then return exact else
    let found ← dynamicRoute path routes
    return if ← truthy found then found else exact

/-- The parameters of a query as an object. -/
def queryObject (query : String) : Routine Value := do
  objectOf (← (groupQuery query).mapM fun f => do return (f.1, ← textArray f.2))

/-- The data that came with a request to a site: a document, or else a form. -/
def postedData (r : Request) : Routine Value := do
  match ← requestBody r with
  | none => objectOf []
  | some body => onFault (readJson body) fun _ => queryObject body

def requestData (r : Request) : Routine Value :=
  if r.method == "POST" then postedData r else objectOf []

/-- Runs a function and answers with its result, or with the status 500 if it fails. -/
def answerBy (call : Caller) (r : Request) (handler : Value) : Action Unit :=
  recover (do
    let result ← call handler []
    startAnswer .site r (.int 200) none
    addHeader (.text "Content-type") "text/html; charset=utf-8"
    sendHead
    sendBody (← text result)) fun s => do
      refuse .site r 500 ("Error: " ++ s.message (← get) ++ "\n\n")

/-- Makes the request known to the program, and answers it with what is registered for its path. -/
def answerRequest (call : Caller) (r : Request) (path : String) (query data : Value) :
    Action Unit := do
  let request ← objectOf [("method", .text r.method), ("path", .text path), ("query", query),
    ("data", data), ("headers", ← headersObject r)]
  modifySite fun s => { s with request }
  let handler ← routeFor path
  if ← truthy handler then answerBy call r handler else refuse .site r 404 "Not Found"

def answerSite (call : Caller) (r : Request) : Action Unit := do
  let parts ← parsedPath r
  let query ← queryObject parts.query
  let data ← requestData r
  answerRequest call r parts.path query data

/-- The value at a key of what a router has returned, or another value. -/
def answerField (call : Caller) (response : Value) (key : String) (other : Value) :
    Action Value := do
  match response with
  | .object l => fieldOr l (.text key) other
  | v =>
      match ← v.member? "get" with
      | some f => call f [.text key, other]
      | none => noAttribute v "get"

/-- The arguments of a router. A function that is not written in the program is a method of the
handler, which it gets too. -/
def routerArguments (router request : Value) : List Value :=
  match router with
  | .native (.make _) => [request]
  | .native _ | .derived _ => [.handle .handler, request]
  | _ => [request]

/-- The status, the headers and the body of what the router returns. -/
def answerParts (call : Caller) (router request : Value) : Action (Value × Value × Value) := do
  let response ← call router (routerArguments router request)
  let status ← answerField call response "status" (.int 200)
  let headers ← answerField call response "headers" (← objectOf [])
  return (status, headers, ← answerField call response "body" (.text ""))

/-- Adds the headers that a router gave to the head, and the type of the content if it is not among
them. -/
def headerLines (headers : Value) : Action Unit := do
  match headers with
  | .object l => (← entries l).forM fun h => do addHeader h.1 (← text h.2)
  | v => noAttribute v "items"
  unless ← contains headers (.text "Content-Type") do
    addHeader (.text "Content-Type") "text/html; charset=utf-8"

/-- Runs the router and writes the answer that it returns. -/
def respond (call : Caller) (r : Request) (router request : Value) : Action Unit := do
  let (status, headers, body) ← answerParts call router request
  startAnswer .http r status none
  headerLines headers
  sendHead
  sendBody (← text body)

/-- The request as the router gets it. -/
def httpRequest (r : Request) : Action Value := do
  let parts ← parsedPath r
  let query ← objectOf (← (groupQuery parts.query).mapM fun f => do
    match f.2 with
    | [v] => return (f.1, .text v)
    | vs => return (f.1, ← textArray vs))
  let body ← if r.method == "POST" || r.method == "PUT" then requestBody r else pure none
  objectOf [("method", .text r.method), ("path", .text parts.path), ("query", query),
    ("headers", ← headersObject r), ("body", body.elim .null .text)]

/-- Answers a request, with an answer of its own if there is no router or if that fails. -/
def answerRouted (call : Caller) (r : Request) (router request : Value) : Action Unit := do
  if ← truthy router then
    recover (respond call r router request) fun s => do
      answerWith .http r 500 ("Content-Type", "text/plain")
        ("Internal Server Error: " ++ s.message (← get))
  else answerWith .http r 404 ("Content-Type", "text/plain") "No router configured"

def answerHttp (call : Caller) (r : Request) : Action Unit := do
  let request ← httpRequest r
  answerRouted call r (← get).http.router request

def Service.methods : Service → List String
  | .hosting => ["GET"]
  | .site => ["GET", "POST"]
  | .http => ["GET", "POST", "PUT", "DELETE"]

/-- Serves a request: writes the answer to a fresh exchange. -/
def serve (call : Caller) (service : Service) (r : Request) : Action Unit := do
  modifyExchange fun _ => {}
  if (Text.fields Text.isBlank r.line.toList).length ≠ 3 then
    refuse service r 400 ("Bad request syntax (" ++ Text.quoted r.line ++ ")")
  else if !service.methods.contains r.method then
    refuse service r 501 ("Unsupported method (" ++ Text.quoted (asSeen r.method) ++ ")")
  else
    match service with
    | .hosting => answerHosting call r
    | .site => answerSite call r
    | .http => answerHttp call r

end ScriptLang.Package
