import ScriptLang.Call

/-!
# A page served to every visitor

A server with one callback that makes the page. Servers listen on ports; one port is taken, and on
another the user stops the server as soon as it serves.
-/

namespace ScriptLang.Package

open ScriptLang.Action

/-- Listens on a port, unless another program does: the number of the listener. -/
def openListener (port : Value) : Routine Nat := do
  if ← equal port (.int (← get).takenPort) then
    fail (.other .system "[Errno 98] Address already in use")
  else modifyGet fun w => (w.listeners, { w with listeners := w.listeners + 1 })

/-- Serves until the user stops the server; without that, nothing is seen of it. -/
def serveForever (port : Value) : Routine Unit := do
  if ← equal port (.int (← get).interruptedPort) then throw .interrupt

/-- Starts a server for the page that a callback makes. -/
def startHosting (port callback : Value) : Routine Value := do
  if callback.isCallable then modify fun w => { w with hostingCallback := callback }
  let id ← openListener port
  printLine ("ZenLang web server running on http://localhost:" ++ (← text port))
  serveForever port
  return .handle (.listener id)

def runHosting (f : HostingFn) (args : List Value) : Routine Value := do
  let a := args.getD 0 .null
  match f with
  | .server => startHosting a (args.getD 1 .null)
  | .response => return .text (← text a)

end ScriptLang.Package
