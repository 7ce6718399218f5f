import ScriptLang.Program

/-!
# Functions of the language and its packages

The names and parameters of every function that a program can call without defining it. A call
with the wrong number of arguments is refused before the function runs.
-/

namespace ScriptLang

/-- A parameter and the value it has when no argument is given for it. -/
structure Param where
  name : String
  default : Option Literal := none

/-- The parameters of a function; `variadic` ones take any number of arguments. -/
structure Signature where
  params : List Param
  variadic : Bool := false

/-- Parameters that need arguments, and parameters that have defaults. -/
def takes (required : List String) (optional : List (String × Literal)) : Signature :=
  { params := required.map (fun n => { name := n })
      ++ optional.map (fun p => { name := p.1, default := some p.2 }) }

def anyNumber : Signature :=
  { params := [], variadic := true }

/-- Functions for the functions every program has. -/
inductive CoreFn where
  | str | int | float | bool | type | isNumber | isString | isArray | isObject | isBool | isNull |
    length | push | pop | shift | unshift | slice | indexOf | includes | reverse | sort | join |
    filter | map | upper | lower | trim | split | replace | startsWith | endsWith | substring |
    charAt | repeat | sum | avg | min | max | keys | values | hasKey | range | print | input |
    flatten | chunk | zip | unique | compact | difference | intersection | union | capitalize |
    titleCase | count | padStart | padEnd | truncate | slugify | contains | merge | pick | omit |
    entries | fromEntries | clamp | lerp | random | randomInt | round | abs | sign | sleep |
    timestamp | formatNumber | parseJSON | toJSON | deepCopy | isEmpty | isEqual | clone | forEach |
    reduce | every | some | find | findIndex | groupBy | sortBy | take | drop | takeWhile |
    dropWhile | partition | pluck | countBy | sample | shuffle | times | debounce | throttle |
    memoize | curry | compose | pipe | noop | identity | constant | negate | once
deriving DecidableEq

/-- The names a program calls the functions by, in their order. -/
def CoreFn.names : List String :=
  ["str", "int", "float", "bool", "type", "isNumber", "isString", "isArray", "isObject", "isBool",
   "isNull", "length", "push", "pop", "shift", "unshift", "slice", "indexOf", "includes",
   "reverse", "sort", "join", "filter", "map", "upper", "lower", "trim", "split", "replace",
   "startsWith", "endsWith", "substring", "charAt", "repeat", "sum", "avg", "min", "max", "keys",
   "values", "hasKey", "range", "print", "input", "flatten", "chunk", "zip", "unique", "compact",
   "difference", "intersection", "union", "capitalize", "titleCase", "count", "padStart",
   "padEnd", "truncate", "slugify", "contains", "merge", "pick", "omit", "entries", "fromEntries",
   "clamp", "lerp", "random", "randomInt", "round", "abs", "sign", "sleep", "timestamp",
   "formatNumber", "parseJSON", "toJSON", "deepCopy", "isEmpty", "isEqual", "clone", "forEach",
   "reduce", "every", "some", "find", "findIndex", "groupBy", "sortBy", "take", "drop",
   "takeWhile", "dropWhile", "partition", "pluck", "countBy", "sample", "shuffle", "times",
   "debounce", "throttle", "memoize", "curry", "compose", "pipe", "noop", "identity", "constant",
   "negate", "once"]

def CoreFn.all : List CoreFn :=
  (List.range names.length).map ofNat

def CoreFn.name (f : CoreFn) : String :=
  names.getD f.ctorIdx ""

/-- The parameters of the function. -/
def CoreFn.signature : CoreFn → Signature
  | .str | .int | .float | .bool | .type | .isNumber | .isString | .isArray | .isObject | .isBool |
    .isNull | .isEmpty | .constant => takes ["value"] []
  | .length | .pop | .shift | .sort | .sum | .avg | .min | .max | .unique | .compact | .shuffle =>
    takes ["arr"] []
  | .push | .unshift | .indexOf | .includes => takes ["arr", "value"] []
  | .slice => takes ["arr", "start"] [("end", .null)]
  | .reverse | .upper | .lower | .trim | .capitalize | .titleCase | .slugify | .parseJSON => takes
    ["text"] []
  | .join => takes ["arr"] [("separator", .text "")]
  | .filter | .map | .forEach | .every | .some | .find | .findIndex | .takeWhile | .dropWhile |
    .partition => takes ["arr", "func"] []
  | .split => takes ["text"] [("separator", .text " ")]
  | .replace => takes ["text", "old", "new"] []
  | .startsWith => takes ["text", "prefix"] []
  | .endsWith => takes ["text", "suffix"] []
  | .substring => takes ["text", "start"] [("end", .null)]
  | .charAt => takes ["text", "index"] []
  | .repeat => takes ["text", "count"] []
  | .keys | .values | .entries | .toJSON | .deepCopy | .clone => takes ["obj"] []
  | .hasKey => takes ["obj", "key"] []
  | .range => takes ["start"] [("end", .null), ("step", .whole 1)]
  | .print | .zip | .compose | .pipe => anyNumber
  | .input => takes [] [("prompt", .text "")]
  | .flatten => takes ["arr"] [("depth", .null)]
  | .chunk => takes ["arr", "size"] []
  | .difference | .intersection | .union => takes ["arr1", "arr2"] []
  | .count | .contains => takes ["text", "substring"] []
  | .padStart | .padEnd => takes ["text", "length"] [("char", .text " ")]
  | .truncate => takes ["text", "length"] [("suffix", .text "...")]
  | .merge => takes ["obj1", "obj2"] []
  | .pick | .omit => takes ["obj", "keys_list"] []
  | .fromEntries => takes ["entries_list"] []
  | .clamp => takes ["value", "min_val", "max_val"] []
  | .lerp => takes ["start", "end", "t"] []
  | .random => takes [] [("min_val", .whole 0), ("max_val", .whole 1)]
  | .randomInt => takes ["min_val", "max_val"] []
  | .round => takes ["num"] [("decimals", .whole 0)]
  | .abs | .sign => takes ["num"] []
  | .sleep => takes ["seconds"] []
  | .timestamp | .noop => takes [] []
  | .formatNumber => takes ["num"] [("decimals", .whole 2)]
  | .isEqual => takes ["a", "b"] []
  | .reduce => takes ["arr", "func"] [("initial", .null)]
  | .groupBy | .sortBy | .countBy => takes ["arr", "key_func"] []
  | .take | .drop => takes ["arr", "n"] []
  | .pluck => takes ["arr", "key"] []
  | .sample => takes ["arr"] [("n", .whole 1)]
  | .times => takes ["n", "func"] []
  | .debounce => takes ["func", "delay"] []
  | .throttle => takes ["func", "limit"] []
  | .memoize | .negate | .once => takes ["func"] []
  | .curry => takes ["func"] [("arity", .null)]
  | .identity => takes ["x"] []

inductive OutputFn where
  | console | input | log | error | warn
deriving DecidableEq

def OutputFn.names : List String :=
  ["console", "input", "log", "error", "warn"]

def OutputFn.all : List OutputFn :=
  (List.range names.length).map ofNat

def OutputFn.name (f : OutputFn) : String :=
  names.getD f.ctorIdx ""

def OutputFn.signature : OutputFn → Signature
  | .console | .log | .error | .warn => anyNumber
  | .input => takes [] [("prompt", .text "")]

inductive PromptFn where
  | console | number | text | yesno | choice | password
deriving DecidableEq

def PromptFn.names : List String :=
  ["console", "number", "text", "yesno", "choice", "password"]

def PromptFn.all : List PromptFn :=
  (List.range names.length).map ofNat

def PromptFn.name (f : PromptFn) : String :=
  names.getD f.ctorIdx ""

def PromptFn.signature : PromptFn → Signature
  | .console | .number | .text | .yesno => takes [] [("prompt", .text "")]
  | .choice => takes ["prompt", "options"] []
  | .password => takes [] [("prompt", .text "Enter password: ")]

inductive ClockFn where
  | now | sleep | date | timestamp
deriving DecidableEq

def ClockFn.names : List String :=
  ["now", "sleep", "date", "timestamp"]

def ClockFn.all : List ClockFn :=
  (List.range names.length).map ofNat

def ClockFn.name (f : ClockFn) : String :=
  names.getD f.ctorIdx ""

def ClockFn.signature : ClockFn → Signature
  | .now | .date | .timestamp => takes [] []
  | .sleep => takes ["seconds"] []

inductive SystemFn where
  | exec | exit | args | env | setenv | platform | version
deriving DecidableEq

def SystemFn.names : List String :=
  ["exec", "exit", "args", "env", "setenv", "platform", "version"]

def SystemFn.all : List SystemFn :=
  (List.range names.length).map ofNat

def SystemFn.name (f : SystemFn) : String :=
  names.getD f.ctorIdx ""

def SystemFn.signature : SystemFn → Signature
  | .exec => takes ["command"] []
  | .exit => takes [] [("code", .whole 0)]
  | .args | .platform | .version => takes [] []
  | .env => takes ["key"] []
  | .setenv => takes ["key", "value"] []

inductive MathFn where
  | abs | sqrt | pow | floor | ceil | round | sin | cos | tan | random | randint | max | min
deriving DecidableEq

def MathFn.names : List String :=
  ["abs", "sqrt", "pow", "floor", "ceil", "round", "sin", "cos", "tan", "random", "randint",
   "max", "min"]

def MathFn.all : List MathFn :=
  (List.range names.length).map ofNat

def MathFn.name (f : MathFn) : String :=
  names.getD f.ctorIdx ""

def MathFn.signature : MathFn → Signature
  | .abs | .sqrt | .floor | .ceil | .round | .sin | .cos | .tan => takes ["x"] []
  | .pow => takes ["x", "y"] []
  | .random => takes [] []
  | .randint => takes ["a", "b"] []
  | .max | .min => anyNumber

inductive HostingFn where
  | server | response
deriving DecidableEq

def HostingFn.names : List String :=
  ["server", "response"]

def HostingFn.all : List HostingFn :=
  (List.range names.length).map ofNat

def HostingFn.name (f : HostingFn) : String :=
  names.getD f.ctorIdx ""

def HostingFn.signature : HostingFn → Signature
  | .server => takes ["port"] [("callback", .null)]
  | .response => takes ["content"] []

inductive DatabaseFn where
  | connect | createTable | insert | select | update | delete | count | save | load | query | hash |
    generateId | timestamp | now | hasMany | belongsTo | sum_field | avg_field | max_field |
    min_field | migrate | backup | restore
deriving DecidableEq

def DatabaseFn.names : List String :=
  ["connect", "createTable", "insert", "select", "update", "delete", "count", "save", "load",
   "query", "hash", "generateId", "timestamp", "now", "hasMany", "belongsTo", "sum_field",
   "avg_field", "max_field", "min_field", "migrate", "backup", "restore"]

def DatabaseFn.all : List DatabaseFn :=
  (List.range names.length).map ofNat

def DatabaseFn.name (f : DatabaseFn) : String :=
  names.getD f.ctorIdx ""

def DatabaseFn.signature : DatabaseFn → Signature
  | .connect => takes ["db_name"] []
  | .createTable => takes ["table_name"] [("schema", .null)]
  | .insert => takes ["table_name", "record"] []
  | .select => takes ["table_name"] [("where", .null), ("limit", .null)]
  | .update => takes ["table_name", "where", "updates"] []
  | .delete => takes ["table_name", "where"] []
  | .count => takes ["table_name"] [("where", .null)]
  | .save | .load | .generateId | .timestamp | .now => takes [] []
  | .query => takes ["table_name"] []
  | .hash => takes ["text"] []
  | .hasMany => takes ["table", "foreign_key", "local_id"] []
  | .belongsTo => takes ["table", "foreign_key", "foreign_id"] []
  | .sum_field | .avg_field | .max_field | .min_field => takes ["table_name", "field"] [("where",
    .null)]
  | .migrate => takes ["table_name"] [("add_fields", .null), ("remove_fields", .null)]
  | .backup | .restore => takes ["filename"] []

inductive TerminalFn where
  | clear | title | header | separator | box | progress | spinner | menu | table | saveData |
    loadData | validate | pause | confirm | timestamp | log | error | success | warning | info |
    colorize | createApp
deriving DecidableEq

def TerminalFn.names : List String :=
  ["clear", "title", "header", "separator", "box", "progress", "spinner", "menu", "table",
   "saveData", "loadData", "validate", "pause", "confirm", "timestamp", "log", "error", "success",
   "warning", "info", "colorize", "createApp"]

def TerminalFn.all : List TerminalFn :=
  (List.range names.length).map ofNat

def TerminalFn.name (f : TerminalFn) : String :=
  names.getD f.ctorIdx ""

def TerminalFn.signature : TerminalFn → Signature
  | .clear | .timestamp => takes [] []
  | .title | .header | .box => takes ["text"] []
  | .separator => takes [] [("char", .text "-"), ("length", .whole 50)]
  | .progress => takes ["current", "total"] [("prefix", .text "Progress:"), ("length", .whole 40)]
  | .spinner => takes [] [("message", .text "Loading"), ("duration", .whole 2)]
  | .menu => takes ["title_text", "options"] []
  | .table => takes ["headers", "rows"] []
  | .saveData => takes ["filename", "data"] []
  | .loadData => takes ["filename"] []
  | .validate => takes ["value", "rules"] []
  | .pause => takes [] [("message", .text "Press Enter to continue...")]
  | .confirm | .error | .success | .warning | .info => takes ["message"] []
  | .log => takes ["message"] [("level", .text "INFO")]
  | .colorize => takes ["text", "color"] []
  | .createApp => takes ["name"] [("version", .text "1.0.0")]

inductive HttpFn where
  | create_server | get_server | start_server | setRouter | start
deriving DecidableEq

def HttpFn.names : List String :=
  ["create_server", "get_server", "start_server", "setRouter", "start"]

def HttpFn.all : List HttpFn :=
  (List.range names.length).map ofNat

def HttpFn.name (f : HttpFn) : String :=
  names.getD f.ctorIdx ""

def HttpFn.signature : HttpFn → Signature
  | .create_server | .start_server | .start => takes [] [("host", .text "localhost"), ("port",
    .whole 8080)]
  | .get_server => takes [] []
  | .setRouter => takes ["callback"] []

inductive SiteFn where
  | start | stop | route | get | post | request | getQuery | getData | getPath | getMethod | html |
    tag | div | p | h1 | h2 | h3 | a | img | button | input | form | ul | ol | table | style | css |
    script | template | render | json_response | redirect | static | page | card | navbar
deriving DecidableEq

def SiteFn.names : List String :=
  ["start", "stop", "route", "get", "post", "request", "getQuery", "getData", "getPath",
   "getMethod", "html", "tag", "div", "p", "h1", "h2", "h3", "a", "img", "button", "input",
   "form", "ul", "ol", "table", "style", "css", "script", "template", "render", "json_response",
   "redirect", "static", "page", "card", "navbar"]

def SiteFn.all : List SiteFn :=
  (List.range names.length).map ofNat

def SiteFn.name (f : SiteFn) : String :=
  names.getD f.ctorIdx ""

def SiteFn.signature : SiteFn → Signature
  | .start => takes [] [("port", .whole 8080)]
  | .stop => takes ["server"] []
  | .route | .get | .post => takes ["path", "handler"] []
  | .request | .getPath | .getMethod => takes [] []
  | .getQuery | .getData => takes ["key"] [("default", .null)]
  | .html => takes ["content"] []
  | .tag => takes ["name"] [("content", .text ""), ("attrs", .null)]
  | .div | .p | .h1 | .h2 | .h3 | .button => takes [] [("content", .text ""), ("attrs", .null)]
  | .a => takes ["href"] [("content", .text ""), ("attrs", .null)]
  | .img => takes ["src"] [("alt", .text ""), ("attrs", .null)]
  | .input => takes [] [("type", .text "text"), ("name", .text ""), ("attrs", .null)]
  | .form => takes ["action"] [("method", .text "POST"), ("content", .text ""), ("attrs", .null)]
  | .ul | .ol => takes ["items"] [("attrs", .null)]
  | .table => takes ["headers", "rows"] [("attrs", .null)]
  | .style => takes ["css"] []
  | .css => takes ["selector", "properties"] []
  | .script => takes ["js"] []
  | .template => takes ["name", "content"] []
  | .render => takes ["name"] [("data", .null)]
  | .json_response => takes ["data"] []
  | .redirect => takes ["url"] []
  | .static => takes ["path", "content"] []
  | .page => takes ["title", "content"] [("styles", .text "")]
  | .card => takes ["title", "content"] [("attrs", .null)]
  | .navbar => takes ["items"] []

inductive NetworkFn where
  | get | post | request | download | getJSON | postJSON | getHeaders | getStatus | isOnline | put |
    delete | patch | uploadFile | urlEncode | urlDecode | parseURL | buildURL | ping |
    fetchWithRetry | getIP | getUserAgent | setUserAgent
deriving DecidableEq

def NetworkFn.names : List String :=
  ["get", "post", "request", "download", "getJSON", "postJSON", "getHeaders", "getStatus",
   "isOnline", "put", "delete", "patch", "uploadFile", "urlEncode", "urlDecode", "parseURL",
   "buildURL", "ping", "fetchWithRetry", "getIP", "getUserAgent", "setUserAgent"]

def NetworkFn.all : List NetworkFn :=
  (List.range names.length).map ofNat

def NetworkFn.name (f : NetworkFn) : String :=
  names.getD f.ctorIdx ""

def NetworkFn.signature : NetworkFn → Signature
  | .get | .getJSON | .getHeaders | .getStatus | .delete | .parseURL => takes ["url"] []
  | .post | .postJSON | .put | .patch => takes ["url", "data"] []
  | .request => takes ["method", "url"] [("data", .null), ("headers", .null)]
  | .download => takes ["url", "filepath"] []
  | .isOnline | .getIP | .getUserAgent => takes [] []
  | .uploadFile => takes ["url", "filepath"] [("field_name", .text "file")]
  | .urlEncode => takes ["params"] []
  | .urlDecode => takes ["query_string"] []
  | .buildURL => takes ["base", "params"] []
  | .ping => takes ["host"] [("timeout", .whole 2)]
  | .fetchWithRetry => takes ["url"] [("retries", .whole 3), ("delay", .whole 1)]
  | .setUserAgent => takes ["user_agent"] []

inductive FilesFn where
  | read | write | append | exists | delete | readJSON | writeJSON | listdir | mkdir | copy | move |
    size | extension | basename | dirname | join | absolute | isFile | isDir | readLines |
    writeLines | search | walk | chmod | stat | readBinary | writeBinary | rmdir | copyDir |
    tempFile | tempDir | cwd | chdir | home | readCSV | writeCSV | hash | compress | extract | watch
deriving DecidableEq

def FilesFn.names : List String :=
  ["read", "write", "append", "exists", "delete", "readJSON", "writeJSON", "listdir", "mkdir",
   "copy", "move", "size", "extension", "basename", "dirname", "join", "absolute", "isFile",
   "isDir", "readLines", "writeLines", "search", "walk", "chmod", "stat", "readBinary",
   "writeBinary", "rmdir", "copyDir", "tempFile", "tempDir", "cwd", "chdir", "home", "readCSV",
   "writeCSV", "hash", "compress", "extract", "watch"]

def FilesFn.all : List FilesFn :=
  (List.range names.length).map ofNat

def FilesFn.name (f : FilesFn) : String :=
  names.getD f.ctorIdx ""

def FilesFn.signature : FilesFn → Signature
  | .read | .exists | .delete | .readJSON | .size | .extension | .basename | .dirname | .absolute |
    .readLines | .stat | .readBinary | .readCSV => takes ["filepath"] []
  | .write | .append => takes ["filepath", "content"] []
  | .writeJSON | .writeBinary => takes ["filepath", "data"] []
  | .listdir => takes [] [("path", .text ".")]
  | .mkdir | .isFile | .isDir | .rmdir | .chdir => takes ["path"] []
  | .copy | .move | .copyDir | .compress => takes ["source", "destination"] []
  | .join => anyNumber
  | .writeLines => takes ["filepath", "lines"] []
  | .search => takes ["directory", "pattern"] []
  | .walk => takes ["directory"] []
  | .chmod => takes ["filepath", "mode"] []
  | .tempFile | .tempDir | .cwd | .home => takes [] []
  | .writeCSV => takes ["filepath", "data"] [("headers", .null)]
  | .hash => takes ["filepath"] [("algorithm", .text "sha256")]
  | .extract => takes ["zipfile", "destination"] []
  | .watch => takes ["filepath", "callback"] [("interval", .whole 1)]

inductive GuiFn where
  | createWindow | setTitle | setSize | setResizable | addButton | addLabel | addTextBox |
    addTextArea | addCheckbox | addListBox | setText | getText | setEnabled | setVisible | onClick |
    showMessage | showError | showWarning | askYesNo | askOkCancel | openFileDialog | saveFileDialog
    | addListItem | clearList | getSelectedItem | isChecked | setChecked | show | close |
    setBackgroundColor | setForegroundColor | setFont
deriving DecidableEq

def GuiFn.names : List String :=
  ["createWindow", "setTitle", "setSize", "setResizable", "addButton", "addLabel", "addTextBox",
   "addTextArea", "addCheckbox", "addListBox", "setText", "getText", "setEnabled", "setVisible",
   "onClick", "showMessage", "showError", "showWarning", "askYesNo", "askOkCancel",
   "openFileDialog", "saveFileDialog", "addListItem", "clearList", "getSelectedItem", "isChecked",
   "setChecked", "show", "close", "setBackgroundColor", "setForegroundColor", "setFont"]

def GuiFn.all : List GuiFn :=
  (List.range names.length).map ofNat

def GuiFn.name (f : GuiFn) : String :=
  names.getD f.ctorIdx ""

def GuiFn.signature : GuiFn → Signature
  | .createWindow => takes ["title"] [("width", .whole 800), ("height", .whole 600)]
  | .setTitle => takes ["window_id", "title"] []
  | .setSize => takes ["window_id", "width", "height"] []
  | .setResizable => takes ["window_id", "resizable"] []
  | .addButton | .addLabel => takes ["text", "x", "y"] [("width", .whole 100), ("height", .whole
    30)]
  | .addTextBox => takes ["x", "y"] [("width", .whole 200), ("height", .whole 30)]
  | .addTextArea => takes ["x", "y"] [("width", .whole 300), ("height", .whole 200)]
  | .addCheckbox => takes ["text", "x", "y"] []
  | .addListBox => takes ["x", "y"] [("width", .whole 200), ("height", .whole 150)]
  | .setText => takes ["widget_id", "text"] []
  | .getText | .clearList | .getSelectedItem | .isChecked => takes ["widget_id"] []
  | .setEnabled => takes ["widget_id", "enabled"] []
  | .setVisible => takes ["widget_id", "visible"] []
  | .onClick => takes ["widget_id", "callback"] []
  | .showMessage | .showError | .showWarning | .askYesNo | .askOkCancel => takes ["title",
    "message"] []
  | .openFileDialog => takes [] [("title", .text "Open File")]
  | .saveFileDialog => takes [] [("title", .text "Save File")]
  | .addListItem => takes ["widget_id", "item"] []
  | .setChecked => takes ["widget_id", "checked"] []
  | .show | .close => takes [] [("window_id", .null)]
  | .setBackgroundColor | .setForegroundColor => takes ["widget_id", "color"] []
  | .setFont => takes ["widget_id", "font_name", "size"] []

/-- The packages a program can include. -/
inductive Package where
  | output | network | files | hosting | system | math | clock | prompt | terminal | site
  | database | gui | http
deriving DecidableEq

def Package.all : List Package :=
  [.output, .network, .files, .hosting, .system, .math, .clock, .prompt, .terminal, .site,
   .database, .gui, .http]

def Package.name : Package → String
  | .output => "zenout"
  | .network => "net"
  | .files => "fs"
  | .hosting => "web"
  | .system => "sys"
  | .math => "math"
  | .clock => "time"
  | .prompt => "zenin"
  | .terminal => "zenwares"
  | .site => "zenweb"
  | .database => "zendb"
  | .gui => "zengui"
  | .http => "http"

/-- The name under which the package shows itself. -/
def Package.shownName : Package → String
  | .http => "zenhttp"
  | p => p.name

def Package.ofName? (s : String) : Option Package :=
  Package.all.find? fun p => p.name == s

/-- The kinds of object that packages make and programs hold. -/
inductive Maker where
  | database | query | app | server | palette | hostingHandler | siteHandler | httpHandler
deriving DecidableEq

def Maker.name : Maker → String
  | .database => "ZenDB"
  | .query => "Query"
  | .app => "App"
  | .server => "ZenHTTPServer"
  | .palette => "colors"
  | .hostingHandler => "ZenHTTPHandler"
  | .siteHandler => "ZenWebHandler"
  | .httpHandler => "ZenHTTPHandler"

def Maker.package : Maker → Package
  | .database | .query => .database
  | .app | .palette => .terminal
  | .server | .httpHandler => .http
  | .hostingHandler => .hosting
  | .siteHandler => .site

/-- A function that programs can call without defining it. -/
inductive Native where
  | core (f : CoreFn)
  | output (f : OutputFn)
  | prompt (f : PromptFn)
  | clock (f : ClockFn)
  | system (f : SystemFn)
  | math (f : MathFn)
  | hosting (f : HostingFn)
  | database (f : DatabaseFn)
  | terminal (f : TerminalFn)
  | http (f : HttpFn)
  | site (f : SiteFn)
  | network (f : NetworkFn)
  | files (f : FilesFn)
  | gui (f : GuiFn)
  | make (m : Maker)
deriving DecidableEq

def Native.name : Native → String
  | .core f => f.name
  | .output f => f.name
  | .prompt f => f.name
  | .clock f => f.name
  | .system f => f.name
  | .math f => f.name
  | .hosting f => f.name
  | .database f => f.name
  | .terminal f => f.name
  | .http f => f.name
  | .site f => f.name
  | .network f => f.name
  | .files f => f.name
  | .gui f => f.name
  | .make m => m.name

def Native.signature : Native → Signature
  | .core f => f.signature
  | .output f => f.signature
  | .prompt f => f.signature
  | .clock f => f.signature
  | .system f => f.signature
  | .math f => f.signature
  | .hosting f => f.signature
  | .database f => f.signature
  | .terminal f => f.signature
  | .http f => f.signature
  | .site f => f.signature
  | .network f => f.signature
  | .files f => f.signature
  | .gui f => f.signature
  | .make .database => takes ["name"] []
  | .make .query => takes ["table_name"] []
  | .make .app => takes ["name"] [("version", .text "1.0.0")]
  | .make .server => takes [] [("host", .text "localhost"), ("port", .whole 8080)]
  | .make .palette => takes [] []
  | .make _ => anyNumber

def Package.function? (p : Package) (name : String) : Option Native :=
  match p with
  | .output => (OutputFn.all.find? (·.name == name)).map .output
  | .prompt => (PromptFn.all.find? (·.name == name)).map .prompt
  | .clock => (ClockFn.all.find? (·.name == name)).map .clock
  | .system => (SystemFn.all.find? (·.name == name)).map .system
  | .math => (MathFn.all.find? (·.name == name)).map .math
  | .hosting => (HostingFn.all.find? (·.name == name)).map .hosting
  | .database => (DatabaseFn.all.find? (·.name == name)).map .database
  | .terminal => (TerminalFn.all.find? (·.name == name)).map .terminal
  | .http => (HttpFn.all.find? (·.name == name)).map .http
  | .site => (SiteFn.all.find? (·.name == name)).map .site
  | .network => (NetworkFn.all.find? (·.name == name)).map .network
  | .files => (FilesFn.all.find? (·.name == name)).map .files
  | .gui => (GuiFn.all.find? (·.name == name)).map .gui

end ScriptLang
