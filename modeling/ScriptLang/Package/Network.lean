import ScriptLang.Files.Document
import ScriptLang.Format.Base64
import ScriptLang.Format.Url
import ScriptLang.Library.Numbers
import ScriptLang.Package.System

/-!
# Requests to other computers

Addresses and query strings, and requests. Only addresses that carry their own content or name a
file of this computer can be answered; a request to any other computer finds nobody there.
-/

namespace ScriptLang.Package

open ScriptLang.Action ScriptLang.Library ScriptLang.Text

structure Reply where
  body : List UInt8
  headers : List (String × String)

/-- A request: the address without and with its fragment, and its parts. -/
structure NetRequest where
  fullUrl : String
  scheme : String
  host : Option String
  selector : String

/-- A failure to open an address. -/
def openFault {α : Type} (reason : String) : Routine α :=
  fail (.other .system ("<urlopen error " ++ reason ++ ">"))

/-- An address without blanks and brackets around it. -/
def unwrapped (s : String) : String :=
  let s := trim s
  let s :=
    if s.startsWith "<" && s.endsWith ">" then
      trim (String.ofList ((s.toList.drop 1).dropLast))
    else s
  if s.startsWith "URL:" then trim (String.ofList (s.toList.drop 4)) else s

/-- Cuts off what follows the last number sign. -/
def cutFragment (cs : List Char) : List Char × Option (List Char) :=
  let tail := (cs.reverse.takeWhile (· ≠ '#')).reverse
  if tail.length = cs.length then (cs, none)
  else (cs.take (cs.length - tail.length - 1), some tail)

/-- Cuts off the scheme: what stands before the first colon, if no slash comes first. -/
def cutType (cs : List Char) : Option (List Char × List Char) :=
  let scheme := cs.takeWhile fun c => c ≠ '/' && c ≠ ':'
  match cs.drop scheme.length with
  | ':' :: rest => if scheme.isEmpty then none else some (scheme, rest)
  | _ => none

/-- The host behind two slashes, if any, and what is asked of it. -/
def cutHost (cs : List Char) : Option (List Char) × List Char :=
  match cs with
  | '/' :: '/' :: rest =>
      let host := rest.takeWhile fun c => c ≠ '/' && c ≠ '#' && c ≠ '?'
      let path := rest.drop host.length
      let path :=
        match path with
        | [] => []
        | '/' :: _ => path
        | _ => '/' :: path
      (some host, path)
  | _ => (none, cs)

def requestFor (address : String) : Routine NetRequest := do
  let (body, fragment) := cutFragment (unwrapped address).toList
  let fullUrl := String.ofList (body ++
    match fragment with
    | some (c :: cs) => '#' :: c :: cs
    | _ => [])
  match cutType body with
  | none => valueFault ("unknown url type: " ++ quoted fullUrl)
  | some (scheme, rest) =>
      let (host, selector) := cutHost rest
      match Url.parse fullUrl with
      | .error e => valueFault e.message
      | .ok _ => pure ()
      return {
        fullUrl, scheme := lower (String.ofList scheme)
        host := host.map fun h => Url.decode (String.ofList h)
        selector := String.ofList selector }

def carriedContent (url : String) : Routine Reply := do
  let afterScheme := ((Url.cutAt ':' url.toList).map (·.2)).getD []
  match Url.cutAt ',' afterScheme with
  | none => valueFault "not enough values to unpack (expected 2, got 1)"
  | some (mediaType, content) =>
      let bytes := Url.unescape (String.ofList content).toUTF8.toList
      let mark := ";base64".toList
      let encoded := mark.isSuffixOf mediaType
      let bytes ←
        if encoded then
          match Base64.read bytes with
          | .ok bs => pure bs
          | .error e => valueFault e.message
        else pure bytes
      let mediaType :=
        if encoded then mediaType.take (mediaType.length - mark.length) else mediaType
      let mediaType :=
        if mediaType.isEmpty then "text/plain;charset=US-ASCII" else String.ofList mediaType
      return {
        body := bytes
        headers := [("Content-type",
            String.ofList (mediaType.toList.dropWhile fun c => c == ' ' || c == '\t')),
          ("Content-length", toString bytes.length)] }

def localContent (r : NetRequest) : Routine Reply := do
  let path := Url.decode r.selector
  let w ← get
  match w.files.read w.cwd path with
  | .error e => openFault (e.fault path).message
  | .ok content =>
      if (r.host.getD "").isEmpty || r.host == some "localhost" then
        return {
          body := content.toList
          headers := [("Content-type", "text/plain"), ("Content-length", toString content.size)] }
      else openFault "file not on local host"

/-- The first character that may not stand in the line of a request, if any. -/
def controlIn (s : String) : Option Char :=
  s.toList.find? fun c => c.toNat ≤ 32 || c.toNat = 127

def refuseControls (s : String) : Routine Unit :=
  match controlIn s with
  | some c =>
      valueFault ("URL can't contain control characters. " ++ quoted s ++ " (found at least "
        ++ quoted (String.singleton c) ++ ")")
  | none => pure ()

/-- The host without its port, which must be a number. -/
def hostWithoutPort (host : String) : Routine String := do
  let cs := host.toList
  let tail := (cs.reverse.takeWhile fun c => c ≠ ':' && c ≠ ']').reverse
  let head := cs.take (cs.length - tail.length)
  let name ←
    if head.getLast? == some ':' then
      let port := String.ofList tail
      if !tail.isEmpty && !(wholeOfText port).isOk then
        valueFault ("nonnumeric port: '" ++ port ++ "'")
      pure head.dropLast
    else pure cs
  return String.ofList <|
    match name with
    | '[' :: rest => if name.getLast? == some ']' then rest.dropLast else name
    | _ => name

def askHost (r : NetRequest) : Routine Reply := do
  match r.host with
  | none | some "" => openFault "no host given"
  | some host =>
      refuseControls (← hostWithoutPort host)
      refuseControls r.selector
      openFault "[Errno 111] Connection refused"

def sendRequest (r : NetRequest) : Routine Reply :=
  match r.scheme with
  | "data" => carriedContent r.fullUrl
  | "file" => localContent r
  | "http" | "https" => askHost r
  | "ftp" =>
      if (r.host.getD "").isEmpty then openFault "ftp error: no host given"
      else openFault "[Errno 111] Connection refused"
  | scheme => openFault ("unknown url type: " ++ scheme)

def openAddress (v : Value) : Routine Reply := do
  match v with
  | .text s => sendRequest (← requestFor s)
  | .function _ | .derived _ | .instance _ | .class _ | .package _ | .handle _ =>
      noAttribute v "type"
  | .native (.make _) | .native _ => noAttribute v "type"
  | v => noAttribute v "timeout"

def bodyText (r : Reply) : Routine String :=
  match decodeUtf8 r.body with
  | .ok s => return s
  | .error e => fail (.other .decoding e.message)

/-- Refuses data that cannot be sent: objects that have no document. -/
def refuseUnsendable (data : Value) : Routine Unit := do
  if let .object _ := data then discard <| jsonText .line data

/-- Sends data to an address and gives the text of the answer. -/
def sendData (url data : Value) : Routine String := do
  refuseUnsendable data
  bodyText (← sendRequest (← requestFor (← text url)))

/-- Adds headers to a request: their names have to be texts. -/
def addHeaders (headers : Value) : Routine Unit := do
  match headers with
  | .object l =>
      (← entries l).forM fun e =>
        match e.1 with
        | .text _ => pure ()
        | v => noAttribute v "capitalize"
  | v => noAttribute v "items"

/-- Sends any kind of request and gives the text of the answer. -/
def sendAny (method url data headers : Value) : Routine String := do
  refuseUnsendable data
  match method with
  | .text _ | .bytes _ => pure ()
  | v => noAttribute v "upper"
  let r ← requestFor (← text url)
  if ← truthy headers then addHeaders headers
  bodyText (← sendRequest r)

/-- Tries until an attempt succeeds, at most so many times, and waits between two attempts. `last`
is the message of the last failure. -/
def retrying (attempt : Routine Value) (delay : Value) :
    Nat → String → Routine (Except String Value)
  | 0, last => return .error last
  | n + 1, _ => do
      let r ← onFault (Except.ok <$> attempt) fun f => return .error f.message
      match r with
      | .ok v => return .ok v
      | .error last =>
          if n ≠ 0 then discard <| sleep delay
          retrying attempt delay n last

/-- The first success of at most so many attempts, or a failure that tells the last one. -/
def retried (attempt : Routine Value) (retries delay : Value) : Routine Value := do
  let attempts ← ofExcept retries.integer
  match ← retrying attempt delay attempts.toNat "None" with
  | .ok v => return v
  | .error last =>
      runtimeFault ("Network error after " ++ (← text retries) ++ " attempts: " ++ last)

/-- The text found at an address. -/
def fetch (v : Value) : Routine Value := do
  return .text (← bodyText (← openAddress v))

/-- The text that a URL function works on, and whether it came as bytes, as its results then do too.
Nothing stands for an empty text. -/
def addressText? (v : Value) : Routine (String × Bool) := do
  match v with
  | .text s => return (s, false)
  | .bytes b =>
      match b.findIdx? (128 ≤ ·) with
      | none => return (String.ofList (bytesAsChars b), true)
      | some i =>
          fail (.other .decoding ("'ascii' codec can't decode byte 0x"
            ++ String.ofList (hex 2 (b.getD i 0).toNat) ++
            s!" in position {i}: ordinal not in range(128)"))
  | v => if ← truthy v then noAttribute v "decode" else return ("", true)

/-- A result of a URL function. -/
def asGiven (asBytes : Bool) (s : String) : Value :=
  if asBytes then .bytes s.toUTF8.toList else .text s

def parseUrl (v : Value) : Routine Value := do
  let (url, asBytes) ← addressText? v
  match Url.parse url with
  | .error e => valueFault e.message
  | .ok p =>
      let give := asGiven asBytes
      objectOf [("scheme", give p.scheme), ("host", give p.host), ("path", give p.path),
        ("params", give p.params), ("query", give p.query), ("fragment", give p.fragment)]

/-- The fields of a query string; of fields with one name the last counts. -/
def urlDecode (v : Value) : Routine Value := do
  let (query, asBytes) ← addressText? v
  let give := asGiven asBytes
  newObject ((Url.readQuery query).foldl
    (fun (acc : Entries) f => acc.put (give f.1) (give f.2)) [])

/-- A name or a value of a query string. -/
def encodeField (v : Value) : Routine String := do
  match v with
  | .bytes b => return Url.encodeBytes b
  | v => return Url.encode (← text v)

def twoOf (xs : List Value) : Routine (Value × Value) :=
  match xs with
  | [a, b] => return (a, b)
  | xs =>
      if xs.length < 2 then
        valueFault s!"not enough values to unpack (expected 2, got {xs.length})"
      else valueFault "too many values to unpack (expected 2)"

def pairOf (v : Value) : Routine (Value × Value) := do
  match v with
  | .text _ | .bytes _ | .tuple _ | .array _ | .object _ => twoOf (← iterate v)
  | v => typeFault ("cannot unpack non-iterable " ++ v.typeName ++ " object")

/-- The refusal of what a query string cannot be made of. -/
def refuseFields : Routine (List (Value × Value)) :=
  typeFault "not a valid non-string sequence or mapping object"

def fieldPairs (xs : List Value) : Routine (List (Value × Value)) :=
  match xs with
  | [] => return []
  | .tuple x :: rest => (.tuple x :: rest).mapM pairOf
  | _ => refuseFields

/-- The names and values that a query string is made of. -/
def queryFields (params : Value) : Routine (List (Value × Value)) := do
  match params with
  | .object l => entries l
  | .array _ | .tuple _ | .text _ | .bytes _ => fieldPairs (← iterate params)
  | _ => refuseFields

def urlEncode (params : Value) : Routine String := do
  let fields ← (← queryFields params).mapM fun (k, v) => do
    return (← encodeField k, ← encodeField v)
  return Url.writeQuery fields

def runNetwork (f : NetworkFn) (args : List Value) : Routine Value := do
  let a := args.getD 0 .null
  let b := args.getD 1 .null
  let c := args.getD 2 .null
  match f with
  | .get => reporting "Network" (fetch a)
  | .post | .put | .patch => reporting "Network" do return .text (← sendData a b)
  | .request =>
      reporting "Network" do return .text (← sendAny a b c (args.getD 3 .null))
  | .delete => reporting "Network" do return .text (← sendData a .null)
  | .download =>
      reporting "Download" do
        let r ← openAddress a
        writeBytes (← openPath b) r.body.toByteArray
        return .bool true
  | .getJSON => reporting "Network" do readJson (← bodyText (← openAddress a))
  | .postJSON =>
      reporting "Network" do
        discard <| jsonText .line b
        readJson (← sendData a .null)
  | .getHeaders =>
      reporting "Network" do
        objectOf ((← openAddress a).headers.map fun h => (h.1, .text h.2))
  | .getStatus =>
      onFault (do
        discard <| openAddress a
        return .null) fun _ => return .int 0
  | .isOnline => return .bool false
  | .uploadFile =>
      reporting "Upload" do
        discard <| readBytes (← openPath b)
        fail (.other .unbound "name 'os' is not defined")
  | .urlEncode => return .text (← urlEncode a)
  | .urlDecode => urlDecode a
  | .parseURL => parseUrl a
  | .buildURL =>
      if ← truthy b then
        let query ← urlEncode b
        return .text ((← text a) ++ "?" ++ query)
      else return a
  | .ping => return .bool false
  | .fetchWithRetry => retried (fetch a) b c
  | .getIP => return .text ""
  | .getUserAgent => return .text "ZenLang/1.0"
  | .setUserAgent => return .bool true

end ScriptLang.Package
