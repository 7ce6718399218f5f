import ScriptLang.Format.Json
import ScriptLang.Text.Case
import ScriptLang.Text.Search
import ScriptLang.Text.Utf8

/-!
# Addresses

The parts of a URL, percent-encoding, and query strings.
-/

namespace ScriptLang.Url

open ScriptLang.Text

/-- Bytes that stand for themselves in a query string. -/
def isUnreserved (b : UInt8) : Bool :=
  let c := Char.ofNat b.toNat
  c.isAlphanum || c == '_' || c == '.' || c == '-' || c == '~'

def encodeByte (b : UInt8) : List Char :=
  if isUnreserved b then [Char.ofNat b.toNat]
  else if b = 32 then ['+']
  else '%' :: (hex 2 b.toNat).map Char.toUpper

def encodeBytes (bytes : List UInt8) : String :=
  String.ofList (bytes.flatMap encodeByte)

def encode (s : String) : String :=
  encodeBytes s.toUTF8.toList

def hexDigit (b : UInt8) : Option Nat :=
  Json.hexValue (Char.ofNat b.toNat)

/-- Bytes with percent signs and two digits read as bytes; other percent signs stay. -/
def unescape : List UInt8 → List UInt8
  | [] => []
  | [a] => [a]
  | [a, b] => [a, b]
  | a :: b :: c :: rest =>
      if a = 37 then
        match hexDigit b, hexDigit c with
        | some x, some y => (16 * x + y).toUInt8 :: unescape rest
        | _, _ => a :: unescape (b :: c :: rest)
      else a :: unescape (b :: c :: rest)

/-- Splits characters into runs of ASCII and single others, the flag telling which. -/
def runs : List Char → List (Bool × List Char)
  | [] => []
  | c :: cs =>
      let ascii := c.toNat < 128
      match runs cs with
      | (true, run) :: rest =>
          if ascii then (true, c :: run) :: rest else (false, [c]) :: (true, run) :: rest
      | rest => (ascii, [c]) :: rest

/-- A text with its escapes read, run by run of ASCII; bytes that are no text are replaced. -/
def decode (s : String) : String :=
  String.join ((runs s.toList).map fun (ascii, run) =>
    let t := String.ofList run
    if ascii then decodeUtf8Lossy (unescape t.toUTF8.toList) else t)

def decodePart (s : String) : String :=
  decode (replaceAll "+" " " s)

/-- The names and values of a query string; those without a value are left out. -/
def readQuery (s : String) : List (String × String) :=
  (split "&" s).filterMap fun part =>
    match splitAtMost ['='] 1 part.toList with
    | [name, value] =>
        if value.isEmpty then none
        else some (decodePart (String.ofList name), decodePart (String.ofList value))
    | _ => none

/-- A query string for names and values that are encoded already. -/
def writeQuery (fields : List (String × String)) : String :=
  String.intercalate "&" (fields.map fun f => f.1 ++ "=" ++ f.2)

structure Parts where
  scheme : String
  host : String
  path : String
  params : String
  query : String
  fragment : String
deriving DecidableEq, Repr

inductive UrlError where
  | brackets
  | notAddress (host : String)
  | futureAddress
  | shortAddress
  | expandingHost (host : String)
deriving DecidableEq, Repr

def UrlError.message : UrlError → String
  | .brackets => "Invalid IPv6 URL"
  | .notAddress host => quoted host ++ " does not appear to be an IPv4 or IPv6 address"
  | .futureAddress => "IPvFuture address is invalid"
  | .shortAddress => "An IPv4 address cannot be in brackets"
  | .expandingHost host =>
      "netloc '" ++ host ++ "' contains invalid characters under NFKC normalization"

def isIpv4 (s : String) : Bool :=
  let parts := split "." s
  parts.length == 4 && parts.all fun p =>
    let ds := p.toList
    !ds.isEmpty && ds.length ≤ 3 && ds.all Char.isDigit && (ds.length == 1 || ds.head? != some '0')
      && (p.toNat?.getD 256) ≤ 255

def isHexGroup (s : String) : Bool :=
  !s.isEmpty && s.length ≤ 4 && s.toList.all fun c => (Json.hexValue c).isSome

/-- Whether groups make an address: eight of them, or fewer around one gap. -/
def areGroups (parts : List String) : Bool :=
  let n := parts.length
  if n < 3 || 9 < n then false
  else
    let gaps := (List.range n).filter fun i => 0 < i && i + 1 < n && parts.getD i "" == ""
    let atStart := parts.head? == some ""
    let atEnd := parts.getLast? == some ""
    match gaps with
    | [] => n == 8 && parts.all isHexGroup
    | [i] =>
        let high := if atStart then i - 1 else i
        let low := if atEnd then n - i - 2 else n - i - 1
        (!atStart || high == 0) && (!atEnd || low == 0) && high + low < 8
          && ((parts.take i).drop (i - high)).all isHexGroup
          && ((parts.drop (i + 1)).take low).all isHexGroup
    | _ => false

/-- Whether a text is an address of groups, maybe with a zone behind a percent sign. -/
def isIpv6 (s : String) : Bool :=
  let (address, zoneFits) :=
    match split "%" s with
    | [a] => (a, true)
    | [a, zone] => (a, !zone.isEmpty)
    | _ => ("", false)
  let parts := split ":" address
  let last := (parts.getLast?).getD ""
  zoneFits &&
    if last.toList.contains '.' then
      isIpv4 last && 3 ≤ parts.length && areGroups (parts.dropLast ++ ["0", "0"])
    else areGroups parts

/-- Checks what stands between the brackets of a host. -/
def checkBracketed (host : String) : Except UrlError Unit :=
  match host.toList with
  | 'v' :: rest =>
      let digits := rest.takeWhile fun c => (Json.hexValue c).isSome
      match rest.drop digits.length with
      | '.' :: _ :: _ => if digits.isEmpty then .error .futureAddress else .ok ()
      | _ => .error .futureAddress
  | _ =>
      if isIpv4 host then .error .shortAddress
      else if isIpv6 host then .ok ()
      else .error (.notAddress host)

/-- Characters that look like one that divides a URL. -/
def expanding : List Nat :=
  [0x2047, 0x2048, 0x2049, 0x2100, 0x2101, 0x2105, 0x2106, 0x2a74, 0xfe13, 0xfe16, 0xfe55, 0xfe56,
   0xfe5f, 0xfe6b, 0xff03, 0xff0f, 0xff1a, 0xff1f, 0xff20]

def checkHost (host : String) : Except UrlError Unit := do
  let cs := host.toList
  let opened := cs.contains '['
  let closed := cs.contains ']'
  if opened != closed then throw .brackets
  if opened && closed then
    checkBracketed (String.ofList (((cs.dropWhile (· ≠ '[')).drop 1).takeWhile (· ≠ ']')))

/-- Checks that no character of a host looks like one that divides a URL. -/
def checkExpanding (host : String) : Except UrlError Unit :=
  if host.toList.any fun c => expanding.contains c.toNat then .error (.expandingHost host)
  else .ok ()

/-- Cuts at the first of a character; nothing when there is none. -/
def cutAt (c : Char) (cs : List Char) : Option (List Char × List Char) :=
  match cs.dropWhile (· ≠ c) with
  | [] => none
  | _ :: rest => some (cs.takeWhile (· ≠ c), rest)

def isScheme (cs : List Char) : Bool :=
  (cs.head?.any Char.isAlpha) && cs.all fun c => c.isAlphanum || c == '+' || c == '-' || c == '.'

/-- The scheme and the rest; the scheme is empty when there is none. -/
def cutScheme (cs : List Char) : String × List Char :=
  match cutAt ':' cs with
  | some (s, rest) => if isScheme s then (lower (String.ofList s), rest) else ("", cs)
  | none => ("", cs)

def schemesWithParams : List String :=
  ["", "ftp", "hdl", "prospero", "http", "imap", "https", "shttp", "rtsp", "rtsps", "rtspu", "sip",
   "sips", "mms", "sftp", "tel"]

/-- Cuts the parameters off the last name of a path. -/
def cutParams (path : List Char) : List Char × List Char :=
  let name := (path.reverse.takeWhile (· ≠ '/')).reverse
  match cutAt ';' name with
  | some (before, after) => (path.take (path.length - name.length) ++ before, after)
  | none => (path, [])

/-- A URL without what is no part of it: blanks and control characters in front, and line ends and
tabs anywhere. -/
def cleaned (url : String) : List Char :=
  (url.toList.dropWhile (·.toNat ≤ 32)).filter fun c => c ≠ '\t' && c ≠ '\r' && c ≠ '\n'

def parse (url : String) : Except UrlError Parts := do
  let (scheme, rest) := cutScheme (cleaned url)
  let (host, rest) :=
    match rest with
    | '/' :: '/' :: more =>
        let host := more.takeWhile fun c => c ≠ '/' && c ≠ '?' && c ≠ '#'
        (String.ofList host, more.drop host.length)
    | _ => ("", rest)
  checkHost host
  let (rest, fragment) := (cutAt '#' rest).getD (rest, [])
  let (path, query) := (cutAt '?' rest).getD (rest, [])
  checkExpanding host
  let (path, params) := if schemesWithParams.contains scheme then cutParams path else (path, [])
  return {
    scheme, host, path := String.ofList path, params := String.ofList params
    query := String.ofList query, fragment := String.ofList fragment }

end ScriptLang.Url
