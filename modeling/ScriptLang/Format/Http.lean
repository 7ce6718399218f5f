import ScriptLang.Fault
import ScriptLang.Text.Utf8

/-!
# Messages of the hypertext protocol

Requests and answers. The head of an answer is a status line and header lines in the first 256
characters, and an empty line divides it from the body.
-/

namespace ScriptLang.Http

open ScriptLang.Text

/-- A request; `body` is none when none is announced. -/
structure Request where
  method : String
  path : String
  headers : List (String × String) := []
  body : Option String := none

/-- An answer that is being written: the part of the head that is not sent yet, and what is. -/
structure Exchange where
  pending : List UInt8 := []
  sent : List UInt8 := []
  /-- the server itself has refused the request -/
  refused : Bool := false

def phrases : List (Nat × String) :=
  [(100, "Continue"), (101, "Switching Protocols"), (102, "Processing"), (103, "Early Hints"),
   (200, "OK"), (201, "Created"), (202, "Accepted"), (203, "Non-Authoritative Information"),
   (204, "No Content"), (205, "Reset Content"), (206, "Partial Content"), (207, "Multi-Status"),
   (208, "Already Reported"), (226, "IM Used"), (300, "Multiple Choices"),
   (301, "Moved Permanently"), (302, "Found"), (303, "See Other"), (304, "Not Modified"),
   (305, "Use Proxy"), (307, "Temporary Redirect"), (308, "Permanent Redirect"),
   (400, "Bad Request"), (401, "Unauthorized"), (402, "Payment Required"), (403, "Forbidden"),
   (404, "Not Found"), (405, "Method Not Allowed"), (406, "Not Acceptable"),
   (407, "Proxy Authentication Required"), (408, "Request Timeout"), (409, "Conflict"),
   (410, "Gone"), (411, "Length Required"), (412, "Precondition Failed"),
   (413, "Request Entity Too Large"), (414, "Request-URI Too Long"),
   (415, "Unsupported Media Type"), (416, "Requested Range Not Satisfiable"),
   (417, "Expectation Failed"), (418, "I'm a Teapot"), (421, "Misdirected Request"),
   (422, "Unprocessable Entity"), (423, "Locked"), (424, "Failed Dependency"),
   (425, "Too Early"), (426, "Upgrade Required"), (428, "Precondition Required"),
   (429, "Too Many Requests"), (431, "Request Header Fields Too Large"),
   (451, "Unavailable For Legal Reasons"), (500, "Internal Server Error"),
   (501, "Not Implemented"), (502, "Bad Gateway"), (503, "Service Unavailable"),
   (504, "Gateway Timeout"), (505, "HTTP Version Not Supported"),
   (506, "Variant Also Negotiates"), (507, "Insufficient Storage"), (508, "Loop Detected"),
   (510, "Not Extended"), (511, "Network Authentication Required")]

def phrase (status : Int) : String :=
  ((phrases.find? fun p => (p.1 : Int) == status).map (·.2)).getD ""

/-- A character that one byte cannot stand for, as messages show it. -/
def shownWide (c : Char) : String :=
  String.ofList <|
    if c.toNat < 0x10000 then '\\' :: 'u' :: hex 4 c.toNat else '\\' :: 'U' :: hex 8 c.toNat

/-- The wording of a failure to write the characters from `start` on with one byte each. -/
def wideMessage (start : Nat) (run : List Char) : String :=
  let what :=
    match run with
    | [c] => s!"character '" ++ shownWide c ++ s!"' in position {start}"
    | cs => s!"characters in position {start}-{start + cs.length - 1}"
  "'latin-1' codec can't encode " ++ what ++ ": ordinal not in range(256)"

/-- A text with one byte for each character. -/
def narrow (s : String) : Except Fault (List UInt8) :=
  let cs := s.toList
  let fits (c : Char) : Bool := c.toNat < 256
  match cs.dropWhile fits with
  | [] => .ok (cs.map fun c => c.toNat.toUInt8)
  | rest =>
      .error (.other .encoding
        (wideMessage (cs.length - rest.length) (rest.takeWhile fun c => !fits c)))

def widened (bytes : List UInt8) : String :=
  String.ofList (bytes.map fun b => Char.ofNat b.toNat)

/-- A text as the other side sees it that takes every byte for a character. -/
def asSeen (s : String) : String :=
  widened s.toUTF8.toList

def headerValue (s : String) : String :=
  String.ofList (s.toList.dropWhile fun c => c == ' ' || c == '\t')

/-- The headers of a request; the length of the body comes last. -/
def Request.allHeaders (r : Request) : List (String × String) :=
  let own := r.headers.map fun h => (asSeen h.1, headerValue (asSeen h.2))
  match r.body with
  | some b => own ++ [("Content-Length", toString b.utf8ByteSize)]
  | none => own

def lowerName (s : String) : String :=
  s.map Char.toLower

/-- The first header with a name, whatever the case of its letters. -/
def Request.header? (r : Request) (name : String) : Option String :=
  (r.allHeaders.find? fun h => lowerName h.1 == lowerName name).map (·.2)

def Request.line (r : Request) : String :=
  asSeen (r.method ++ " " ++ r.path ++ " HTTP/1.1")

/-- An answer as a client reads it; each header line is cut into a name and a value. -/
structure Answer where
  status : String
  headers : List (List String)
  body : List UInt8

/-- Cuts bytes at the first empty line. -/
def cutHead : List UInt8 → List UInt8 × List UInt8
  | 13 :: 10 :: 13 :: 10 :: rest => ([], rest)
  | b :: rest =>
      let (head, body) := cutHead rest
      (b :: head, body)
  | [] => ([], [])

/-- The name and the value of a header line; a line without a colon is one part. -/
def readHeader (line : String) : List String :=
  match line.splitOn ": " with
  | name :: value :: rest => [name, String.intercalate ": " (value :: rest)]
  | parts => parts

/-- The answer in the bytes that a server has sent; none when it has sent nothing. -/
def readAnswer (sent : List UInt8) : Option Answer :=
  let (head, body) := cutHead sent
  match (widened head).splitOn "\r\n" with
  | status :: lines =>
      if sent.isEmpty then none
      else some {
        status := (status.splitOn " ").getD 1 ""
        headers := lines.map readHeader, body }
  | [] => none

end ScriptLang.Http
