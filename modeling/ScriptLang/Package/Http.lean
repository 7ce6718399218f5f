import ScriptLang.Package.Hosting

/-!
# Servers with a router

A server that hands every request to one router of the program. There is one current server, and one
router for all servers.
-/

namespace ScriptLang.Package

open ScriptLang.Action

def serverAt (id : Nat) : Routine HttpServer := do
  return (← get).http.servers.getD id { host := .null, port := .null }

def modifyServer (id : Nat) (f : HttpServer → HttpServer) : Routine Unit :=
  modify fun w => { w with http := { w.http with servers := w.http.servers.modify id f } }

def newServer (host port : Value) : Routine Nat :=
  modifyGet fun w =>
    (w.http.servers.size,
      { w with http := { w.http with servers := w.http.servers.push { host, port } } })

def useServer (id : Nat) : Routine Unit :=
  modify fun w => { w with http := { w.http with current := some id } }

def createServer (host port : Value) : Routine Nat := do
  let id ← newServer host port
  useServer id
  return id

def setRouter (callback : Value) : Routine Unit :=
  modify fun w => { w with http := { w.http with router := callback } }

def serverAddress (s : HttpServer) : Routine String := do
  return "http://" ++ (← text s.host) ++ ":" ++ (← text s.port)

/-- Stops a server; one that never ran stays as it is. -/
def stopServer (id : Nat) : Routine Unit := do
  if (← serverAt id).listener.isSome then
    modifyServer id fun s => { s with running := false }
    printLine "[HTTP] Server stopped"

/-- Starts a server, unless it is running, and serves until the user interrupts. -/
def startServer (id : Nat) : Routine Unit := do
  let s ← serverAt id
  if s.running then printLine ("[HTTP] Server already running on " ++ (← serverAddress s))
  else
    tryCatch (do
      let listener ← openListener s.port
      modifyServer id fun s => { s with listener := some listener, running := true }
      printLine ("[HTTP] Server started on " ++ (← serverAddress s))
      printLine "[HTTP] Press Ctrl+C to stop"
      serveForever s.port) fun
      | .interrupt => do
          printLine "\n[HTTP] Server stopped by user"
          stopServer id
      | .exit v => throw (.exit v)
      | .foreign name => throw (.foreign name)
      | .fault f => do
          printLine ("[HTTP] Error starting server: " ++ f.message)
          modifyServer id fun s => { s with running := false }

/-- Starts a server aside, unless it is running. -/
def startAside (id : Nat) : Routine Unit := do
  let s ← serverAt id
  if s.running then printLine ("[HTTP] Server already running on " ++ (← serverAddress s))
  else
    startServer id
    printLine ("[HTTP] Server running in background on " ++ (← serverAddress s))

/-- The current server; a new one when there is none. -/
def currentServer (host port : Value) : Routine Nat := do
  match (← get).http.current with
  | some id => return id
  | none => createServer host port

def runHttp (f : HttpFn) (args : List Value) : Routine Value := do
  let a := args.getD 0 .null
  let b := args.getD 1 .null
  match f with
  | .create_server => return .handle (.server (← createServer a b))
  | .get_server =>
      return ((← get).http.current).elim .null fun id => .handle (.server id)
  | .start_server =>
      startServer (← createServer a b)
      return .null
  | .setRouter =>
      discard <| currentServer (.text "localhost") (.int 8080)
      setRouter a
      return .null
  | .start =>
      startServer (← currentServer a b)
      return .null

def serverMethods : List (String × Signature) :=
  [("set_router", takes ["self", "callback"] []), ("start", takes ["self"] []),
   ("start_background", takes ["self"] []), ("stop", takes ["self"] []),
   ("is_running", takes ["self"] [])]

def serverMember? (id : Nat) (name : String) : Routine (Option Value) := do
  let s ← serverAt id
  match name with
  | "host" => return some s.host
  | "port" => return some s.port
  | "server" => return some (s.listener.elim .null fun l => .handle (.listener l))
  | "thread" => return some .null
  | "running" => return some (.bool s.running)
  | _ => return (serverMethods.lookup name).map fun _ => .bound (.handle (.server id)) name

def callServer (id : Nat) (name : String) (args : List Value) : Routine Value := do
  let signature := (serverMethods.lookup name).getD anyNumber
  let args ← ofExcept (signature.bind ("ZenHTTPServer." ++ name) (.handle (.server id) :: args))
  match name with
  | "set_router" =>
      setRouter (args.getD 1 .null)
      return .null
  | "start" =>
      startServer id
      return .null
  | "start_background" =>
      startAside id
      return .null
  | "stop" =>
      stopServer id
      return .null
  | _ => return .bool (← serverAt id).running

end ScriptLang.Package
