/-!
# HTML

Elements, style rules and whole pages as text. Contents and attributes are put in as they are.
-/

namespace ScriptLang.Html

/-- An element; one without content closes itself. -/
def element (name : String) (attributes : List (String × String)) (content : Option String) :
    String :=
  let attributes :=
    if attributes.isEmpty then ""
    else " " ++ String.intercalate " " (attributes.map fun a => a.1 ++ "=\"" ++ a.2 ++ "\"")
  match content with
  | some s => "<" ++ name ++ attributes ++ ">" ++ s ++ "</" ++ name ++ ">"
  | none => "<" ++ name ++ attributes ++ " />"

def enclosed (name content : String) : String :=
  element name [] (some content)

def listItems (items : List String) : String :=
  String.join (items.map (enclosed "li"))

def tableContent (headers : List String) (rows : List (List String)) : String :=
  let heading := enclosed "tr" (String.join (headers.map (enclosed "th")))
  let body := rows.map fun row => enclosed "tr" (String.join (row.map (enclosed "td")))
  enclosed "thead" heading ++ enclosed "tbody" (String.join body)

def styleRule (selector : String) (properties : List (String × String)) : String :=
  selector ++ " \x7b "
    ++ String.intercalate "; " (properties.map fun p => p.1 ++ ": " ++ p.2) ++ " \x7d"

def lines (parts : List String) : String :=
  String.intercalate "\n" parts

def documentHead (title : String) : List String :=
  ["<!DOCTYPE html>", "<html>", "<head>", "    <meta charset=\"UTF-8\">",
   "    <meta name=\"viewport\" content=\"width=device-width, initial-scale=1.0\">",
   "    <title>" ++ title ++ "</title>"]

def document (content : String) : String :=
  lines (documentHead "ZenWeb App" ++ ["</head>", "<body>", content, "</body>", "</html>"])

def page (title content styles : String) : String :=
  lines (documentHead title ++
    ["    <style>", "        body \x7b", "            font-family: Arial, sans-serif;",
     "            max-width: 1200px;", "            margin: 0 auto;", "            padding: 20px;",
     "            background: #f5f5f5;", "        \x7d", "        .container \x7b",
     "            background: white;", "            padding: 30px;",
     "            border-radius: 8px;", "            box-shadow: 0 2px 4px rgba(0,0,0,0.1);",
     "        \x7d", "        h1 \x7b color: #333; \x7d", "        " ++ styles, "    </style>",
     "</head>", "<body>", "    <div class=\"container\">", "        " ++ content, "    </div>",
     "</body>", "</html>"])

def card (title content : String) : String :=
  lines ["", "    <div class=\"card\">", "        <h3>" ++ title ++ "</h3>",
    "        <div class=\"card-content\">" ++ content ++ "</div>", "    </div>", "    "]

/-- A bar of links, each with a label and an address. -/
def navigation (links : List (String × String)) : String :=
  lines ["", "    <nav class=\"navbar\">",
    "        " ++ String.join (links.map fun l => "<a href=\"" ++ l.2 ++ "\">" ++ l.1 ++ "</a>"),
    "    </nav>", "    <style>", "        .navbar \x7b", "            background: #333;",
    "            padding: 15px;", "            margin: -30px -30px 30px -30px;",
    "            border-radius: 8px 8px 0 0;", "        \x7d", "        .navbar a \x7b",
    "            color: white;", "            text-decoration: none;",
    "            padding: 10px 20px;", "            margin: 0 5px;",
    "            border-radius: 4px;", "        \x7d", "        .navbar a:hover \x7b",
    "            background: #555;", "        \x7d", "    </style>", "    "]

end ScriptLang.Html
