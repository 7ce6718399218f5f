import ScriptLang.Format.Html
import ScriptLang.Package.Hosting
import ScriptLang.Package.Network

/-!
# Web sites

Routes and the request that is being answered, HTML from values, and templates.
-/

namespace ScriptLang.Package

open ScriptLang.Action ScriptLang.Library

def modifySite (f : SiteState → SiteState) : Routine Unit :=
  modify fun w => { w with site := f w.site }

def startSite (port : Value) : Routine Value := do
  let id ← openListener port
  printLine ("ZenWeb server running on http://localhost:" ++ (← text port))
  printLine "Press Ctrl+C to stop"
  serveForever port
  return .handle (.listener id)

def stopSite (server : Value) : Routine Value := do
  if ← truthy server then
    match server with
    | .handle (.listener _) => return .null
    | v => noAttribute v "shutdown"
  else return .null

/-- Registers what answers requests for a path. -/
def addRoute (path handler : Value) : Routine Value := do
  hashable path
  modifySite fun s => { s with routes := s.routes.put path handler }
  return handler

/-- The value at a key of something that has to be an object, or another value. -/
def lookupOr (v key other : Value) : Routine Value := do
  match v with
  | .object l => fieldOr l key other
  | v => noAttribute v "get"

/-- A part of the request that is being answered; none when there is no request. -/
def requestPart? (name : String) : Routine (Option Value) := do
  let request := (← get).site.request
  if ← truthy request then
    if ← contains request (.text name) then return some (← getItem request (.text name))
    else return none
  else return none

def queryValue (key other : Value) : Routine Value := do
  match ← requestPart? "query" with
  | none => return other
  | some query =>
      let values ← lookupOr query key (← arrayOf [other])
      if ← truthy values then getItem values (.int 0) else return other

def dataValue (key other : Value) : Routine Value := do
  match ← requestPart? "data" with
  | none => return other
  | some data => lookupOr data key other

def requestField (name other : String) : Routine Value := do
  let request := (← get).site.request
  if ← truthy request then lookupOr request (.text name) (.text other) else return .text other

/-- The names and texts of the entries of an object. -/
def textFields (v : Value) : Routine (List (String × String)) := do
  match v with
  | .object l => (← entries l).mapM fun e => do return (← text e.1, ← text e.2)
  | v => noAttribute v "items"

def tag (name : String) (content attributes : Value) : Routine Value := do
  let attributes ← if ← truthy attributes then textFields attributes else pure []
  let content ← if ← truthy content then some <$> text content else pure none
  return .text (Html.element name attributes content)

/-- An element with attributes of its own, which are set in the object given for attributes. -/
def tagWith (name : String) (own : List (String × Value)) (content attributes : Value) :
    Routine Value := do
  let attributes ←
    match attributes with
    | .null => objectOf []
    | v => pure v
  own.forM fun a => setItem attributes (.text a.1) a.2
  tag name content attributes

def listTag (name : String) (items attributes : Value) : Routine Value := do
  let items ← (← iterate items).mapM text
  tag name (.text (Html.listItems items)) attributes

def tableTag (headers rows attributes : Value) : Routine Value := do
  let headers ← (← iterate headers).mapM text
  let rows ← (← iterate rows).mapM fun row => do (← iterate row).mapM text
  tag "table" (.text (Html.tableContent headers rows)) attributes

/-- Fills in a template: for one key after the other, its name in double braces is replaced. -/
def fillTemplate (content : Value) : List (String × String) → Routine Value
  | [] => return content
  | (key, value) :: rest =>
      match content with
      | .text s =>
          fillTemplate (.text (Text.replaceAll ("\x7b\x7b" ++ key ++ "\x7d\x7d") value s)) rest
      | v => noAttribute v "replace"

def render (name data : Value) : Routine Value := do
  hashable name
  match (← get).site.templates.get? name with
  | none => return .text ("Template '" ++ (← text name) ++ "' not found")
  | some content =>
      if ← truthy data then fillTemplate content (← textFields data) else return content

def runSite (f : SiteFn) (args : List Value) : Routine Value := do
  let a := args.getD 0 .null
  let b := args.getD 1 .null
  let c := args.getD 2 .null
  match f with
  | .start => startSite a
  | .stop => stopSite a
  | .route | .get | .post => addRoute a b
  | .request => return (← get).site.request
  | .getQuery => queryValue a b
  | .getData => dataValue a b
  | .getPath => requestField "path" "/"
  | .getMethod => requestField "method" "GET"
  | .html => return .text (Html.document (← text a))
  | .tag =>
      let attributes ← if ← truthy c then textFields c else pure []
      let content ← if ← truthy b then some <$> text b else pure none
      return .text (Html.element (← text a) attributes content)
  | .div => tag "div" a b
  | .p => tag "p" a b
  | .h1 => tag "h1" a b
  | .h2 => tag "h2" a b
  | .h3 => tag "h3" a b
  | .button => tag "button" a b
  | .a => tagWith "a" [("href", a)] b c
  | .img => tagWith "img" [("src", a), ("alt", b)] (.text "") c
  | .input => tagWith "input" [("type", a), ("name", b)] (.text "") c
  | .form => tagWith "form" [("action", a), ("method", b)] c (args.getD 3 .null)
  | .ul => listTag "ul" a b
  | .ol => listTag "ol" a b
  | .table => tableTag a b c
  | .style => return .text (Html.enclosed "style" (← text a))
  | .css =>
      let properties ← textFields b
      return .text (Html.styleRule (← text a) properties)
  | .script => return .text (Html.enclosed "script" (← text a))
  | .template =>
      hashable a
      modifySite fun s => { s with templates := s.templates.put a b }
      return .null
  | .render => render a b
  | .json_response => return .text (← jsonText .line a)
  | .redirect =>
      return .text ("<script>window.location.href='" ++ (← text a) ++ "';</script>")
  | .static =>
      hashable a
      modifySite fun s => { s with assets := s.assets.put a b }
      return .null
  | .page => return .text (Html.page (← text a) (← text b) (← text c))
  | .card => return .text (Html.card (← text a) (← text b))
  | .navbar =>
      let links ← (← iterate a).mapM fun v => do
        let (label, url) ← pairOf v
        return (← text label, ← text url)
      return .text (Html.navigation links)

end ScriptLang.Package
