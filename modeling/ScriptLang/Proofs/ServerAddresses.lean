import ScriptLang.Proofs.Connections
import ScriptLang.Proofs.SharedRecords

/-!
# Where a server is started

The http package has one current server, and a server keeps the address it was made with. `start`
makes a server only when there is none, so the address it is called with counts only then.

`keptAddress` and `keptRouter` read the address of the current server and the router off the calls
made so far. `Tracks` relates them to the state of the package; every call keeps it
(`ServerCall.tracks`), so it holds after every history (`Reached.tracks`). What an attempt to serve
at an address prints and leaves behind is said by `launch`.
-/

namespace ScriptLang

/-! ## Texts and equality -/

theorem Setting.quote_congr {s s' : Setting} (hheap : s'.heap = s.heap)
    (hdir : s'.installDir = s.installDir) (d : Nat) : s'.quote d = s.quote d := by
  induction d with
  | zero => rfl
  | succ d ih =>
    funext seen v
    unfold Setting.quote
    simp only [ih, hheap, hdir]

theorem Setting.text_congr {s s' : Setting} (hheap : s'.heap = s.heap)
    (hdir : s'.installDir = s.installDir) (v : Value) : s'.text v = s.text v := by
  unfold Setting.text
  rw [Setting.quote_congr hheap hdir]

theorem Action.equal_int (v : Value) (n : Int) (s : Setting) :
    Action.equal v (.int n) s = .ok (v.sameKey (.int n)) s := by
  cases v <;> rfl

namespace Package

open ScriptLang.Action

/-! ## Addresses and routers that are kept -/

/-- A call of a function of the http package, or of a method of one of its servers. -/
inductive ServerCall where
  | function (f : HttpFn) (args : List Value)
  | method (id : Nat) (name : String) (args : List Value)

namespace ServerCall

def run : ServerCall → Routine Value
  | .function f args => runHttp f args
  | .method id name args => callServer id name args

/-- The address in the arguments of a call. -/
def address (args : List Value) : Address :=
  ⟨args.getD 0 .null, args.getD 1 .null⟩

/-- The address of the current server after a call. -/
def keptAddress (kept : Option Address) : ServerCall → Option Address
  | .function .create_server args | .function .start_server args => some (address args)
  | .function .setRouter _ => some (kept.getD ⟨.text "localhost", .int 8080⟩)
  | .function .start args => some (kept.getD (address args))
  | .function .get_server _ | .method .. => kept

/-- The router after a call. -/
def keptRouter (kept : Value) : ServerCall → Value
  | .function .setRouter args => args.getD 0 .null
  | .method _ "set_router" [callback] => callback
  | _ => kept

end ServerCall

/-- The address of the current server, if there is one, after a history of calls. -/
def keptAddress (history : List ServerCall) : Option Address :=
  history.foldl ServerCall.keptAddress none

/-- The router after a history of calls. -/
def keptRouter (history : List ServerCall) : Value :=
  history.foldl ServerCall.keptRouter .null

/-- The settings that a history of calls leads to, whatever is done in between that leaves the
package alone. A call may also have failed. -/
inductive Reached : List ServerCall → Setting → Prop
  | start {s : Setting} : s.http = {} → Reached [] s
  | call {history : List ServerCall} {s : Setting} (c : ServerCall) :
      Reached history s → Reached (history ++ [c]) (c.run.final s)
  | other {history : List ServerCall} {s s' : Setting} :
      Reached history s → s'.http = s.http → Reached history s'

/-! ## Histories -/

/-- The current server is at the kept address, and there is none if no address is kept. -/
structure Tracks (address : Option Address) (router : Value) (o : Outline) : Prop where
  router : o.router = router
  address : o.current.map (fun id => o.addresses[id]?) = address.map some

/-- The setting after a server was made for an address. -/
def made (host port : Value) (s : Setting) : Setting :=
  { s with http := { s.http with
      servers := s.http.servers.push { host, port }, current := some s.http.servers.size } }

theorem createServer_eq (host port : Value) (s : Setting) :
    createServer host port s = .ok s.http.servers.size (made host port s) :=
  rfl

section

variable {kept : Option Address} {router : Value} {s : Setting}

theorem Tracks.made (h : Tracks kept router (outline s)) (host port : Value) :
    Tracks (some ⟨host, port⟩) router (outline (made host port s)) := by
  refine ⟨h.router, ?_⟩
  show some ((s.http.servers.push { host, port }).map addressOf)[s.http.servers.size]? = _
  rw [Array.getElem?_map, Array.getElem?_push_size]
  rfl

theorem Tracks.currentServer (h : Tracks kept router (outline s)) (host port : Value) :
    ∃ id s', currentServer host port s = .ok id s' ∧ s'.http.current = some id ∧
      (s' = s ∨ s' = Package.made host port s) ∧
      Tracks (some (kept.getD ⟨host, port⟩)) router (outline s') := by
  have hget : (get : Routine Setting) s = .ok s s := rfl
  have haddress := h.address
  change s.http.current.map _ = _ at haddress
  cases hcurrent : s.http.current with
  | none =>
    rw [hcurrent] at haddress
    have hkept : kept = none := Option.map_eq_none_iff.1 haddress.symm
    refine ⟨s.http.servers.size, Package.made host port s, ?_, rfl, .inr rfl, ?_⟩
    · refine (bind_ok hget).trans ?_
      simp only [hcurrent]
      exact createServer_eq host port s
    · rw [hkept]
      exact h.made host port
  | some id =>
    refine ⟨id, s, ?_, hcurrent, .inl rfl, h.router, ?_⟩
    · refine (bind_ok hget).trans ?_
      simp only [hcurrent]
      rfl
    · cases hkept : kept with
      | none =>
        rw [hkept, hcurrent] at haddress
        cases haddress
      | some a =>
        rw [hkept] at haddress
        exact haddress

theorem Tracks.attends {α : Type} {x : Routine α} (h : Tracks kept router (outline s))
    (hx : Attends x) : Tracks kept router (outline (x.final s)) := by
  have hsame : outline (x.final s) = outline s :=
    (Prod.mk.inj (Prod.mk.inj (hx.final_routine trivial)).2).2
  rwa [hsame]

/-- A method of a server keeps the address, and sets the router if it is the one for that. -/
theorem Tracks.method (h : Tracks kept router (outline s)) (id : Nat) (name : String)
    (args : List Value) :
    Tracks kept ((ServerCall.method id name args).keptRouter router)
      (outline ((callServer id name args).final s)) := by
  by_cases hname : name = "set_router"
  · subst hname
    match args with
    | [callback] => exact ⟨rfl, h.address⟩
    | [] => exact h
    | _ :: _ :: _ => exact h
  · have hrouter : (ServerCall.method id name args).keptRouter router = router := by
      unfold ServerCall.keptRouter
      split <;> simp_all
    rw [hrouter]
    refine h.attends ((Attends.of_still (.ofExcept _)).bind fun args _ => ?_)
    split
    · exact absurd rfl hname
    · exact (startServer_attends id).give
    · exact (startAside_attends id).give
    · exact (stopServer_attends id).give
    · exact (Attends.of_still (serverAt_still id)).give

theorem ServerCall.tracks (h : Tracks kept router (outline s)) (c : ServerCall) :
    Tracks (c.keptAddress kept) (c.keptRouter router) (outline (c.run.final s)) := by
  cases c with
  | method id name args => exact h.method id name args
  | function f args =>
    have started (id : Nat) : Attends (do startServer id; return Value.null) :=
      (startServer_attends id).give
    cases f with
    | create_server => exact h.made _ _
    | get_server => exact h
    | start_server =>
      have hfinal : (ServerCall.function .start_server args).run.final s =
          Routine.final (do startServer s.http.servers.size; return Value.null) _ :=
        Routine.final_bind (createServer_eq (args.getD 0 .null) (args.getD 1 .null) s)
      rw [hfinal]
      exact (h.made _ _).attends (started _)
    | setRouter =>
      obtain ⟨id, s', hcurrent, -, -, htracks⟩ := h.currentServer (.text "localhost") (.int 8080)
      have hdiscard : (discard (currentServer (.text "localhost") (.int 8080)) : Routine Unit) s =
          .ok () s' := by
        show EStateM.map _ _ _ = _
        rw [EStateM.map, hcurrent]
      have hfinal : (ServerCall.function .setRouter args).run.final s =
          Routine.final (do setRouter (args.getD 0 .null); return Value.null) s' :=
        Routine.final_bind hdiscard
      rw [hfinal]
      exact ⟨rfl, htracks.address⟩
    | start =>
      obtain ⟨id, s', hcurrent, -, -, htracks⟩ := h.currentServer (args.getD 0 .null)
        (args.getD 1 .null)
      have hfinal : (ServerCall.function .start args).run.final s =
          Routine.final (do startServer id; return Value.null) s' :=
        Routine.final_bind hcurrent
      rw [hfinal]
      exact htracks.attends (started id)

end

/-- After a history of calls, the current server and the router are those that the calls tell. -/
theorem Reached.tracks {history : List ServerCall} {s : Setting} (h : Reached history s) :
    Tracks (keptAddress history) (keptRouter history) (outline s) := by
  induction h with
  | start hs =>
    refine ⟨?_, ?_⟩
    · show (outline _).router = Value.null
      rw [outline, hs]
    · show (outline _).current.map _ = none
      rw [outline, hs]
      rfl
  | call c _ ih =>
    rw [keptAddress, keptRouter, List.foldl_append, List.foldl_append]
    exact c.tracks ih
  | other _ hs ih =>
    rwa [outline, hs]

/-! ## Starting a server -/

/-- The text of an address. -/
def Address.text (s : Setting) (a : Address) : Except Fault String := do
  return "http://" ++ (← s.text a.host) ++ ":" ++ (← s.text a.port)

/-- How an attempt to serve ends. -/
structure Launch where
  /-- what is printed -/
  printed : String
  /-- whether the port was taken -/
  opened : Bool
  /-- whether the server runs in the end -/
  running : Bool

/-- An attempt to serve at an address: it needs a free port and an address that can be announced,
and goes on until the user interrupts. -/
def launch (s : Setting) (a : Address) : Launch :=
  if a.port.sameKey (.int s.takenPort) then
    ⟨"[HTTP] Error starting server: [Errno 98] Address already in use\n", false, false⟩
  else
    match a.text s with
    | .error f => ⟨"[HTTP] Error starting server: " ++ f.message ++ "\n", true, false⟩
    | .ok t =>
        let announced := "[HTTP] Server started on " ++ t ++ "\n" ++ "[HTTP] Press Ctrl+C to stop\n"
        if a.port.sameKey (.int s.interruptedPort) then
          ⟨announced ++ "\n[HTTP] Server stopped by user\n" ++ "[HTTP] Server stopped\n",
            true, false⟩
        else ⟨announced, true, true⟩

/-- The setting at a stage of the attempt of a server. -/
def staged (id : Nat) (s : Setting) (l : Launch) : Setting :=
  { s with
    out := s.out ++ l.printed
    listeners := if l.opened then s.listeners + 1 else s.listeners
    http := { s.http with servers := s.http.servers.modify id fun v =>
      { v with listener := if l.opened then some s.listeners else v.listener, running :=
        l.running } } }

/-- The address is read in the setting as it is, and fails with the text of its first part that
fails. -/
theorem serverAddress_eq (v : HttpServer) (s : Setting) :
    serverAddress v s =
      match (addressOf v).text s with
      | .ok t => .ok t s
      | .error f => .error (.fault f) s := by
  have htext (w : Value) : text w s =
      match s.text w with
      | .ok t => .ok t s
      | .error f => .error (.fault f) s := by
    show Action.ofExcept (s.text w) s = _
    cases s.text w <;> rfl
  unfold serverAddress Address.text addressOf
  simp only [bind, EStateM.bind, htext]
  cases s.text v.host with
  | error f => rfl
  | ok host =>
    simp only [htext]
    cases s.text v.port <;> rfl

theorem openListener_eq (port : Value) (s : Setting) :
    openListener port s =
      if port.sameKey (.int s.takenPort) then
        .error (.fault (.other .system "[Errno 98] Address already in use")) s
      else .ok s.listeners { s with listeners := s.listeners + 1 } := by
  refine (bind_ok rfl).trans ((bind_ok (equal_int port s.takenPort s)).trans ?_)
  split <;> rfl

theorem serveForever_eq (port : Value) (s : Setting) :
    serveForever port s =
      if port.sameKey (.int s.interruptedPort) then .error .interrupt s else .ok () s := by
  refine (bind_ok rfl).trans ((bind_ok (equal_int port s.interruptedPort s)).trans ?_)
  split <;> rfl

theorem modify_modify (servers : Array HttpServer) (id : Nat) (f g : HttpServer → HttpServer) :
    (servers.modify id f).modify id g = servers.modify id fun v => g (f v) := by
  refine Array.ext (by simp) fun i h h' => ?_
  rw [Array.getElem_modify, Array.getElem_modify, Array.getElem_modify]
  split <;> rfl

/-! The stages of an attempt -/

section

variable (id : Nat) (s : Setting) (printed : String) (opened running : Bool)

theorem text_staged (l : Launch) (a : Address) : a.text (staged id s l) = a.text s := by
  have hheap : (staged id s l).heap = s.heap := rfl
  have hdir : (staged id s l).installDir = s.installDir := rfl
  unfold Address.text
  simp only [Setting.text_congr hheap hdir]

theorem listen_staged :
    modifyServer id (fun v => { v with listener := some s.listeners, running := true })
      { s with listeners := s.listeners + 1 } = .ok () (staged id s ⟨"", true, true⟩) := by
  have hout : s.out ++ "" = s.out := String.append_empty
  unfold staged
  rw [hout]
  rfl

theorem printLine_staged (line : String) :
    printLine line (staged id s ⟨printed, opened, running⟩) =
      .ok () (staged id s ⟨printed ++ (line ++ "\n"), opened, running⟩) := by
  unfold staged
  rw [← String.append_assoc]
  rfl

theorem halt_staged :
    modifyServer id (fun v => { v with running := false })
      (staged id s ⟨printed, opened, running⟩) = .ok () (staged id s ⟨printed, opened, false⟩) := by
  have hhalt := modify_modify s.http.servers id
    (fun v =>
      { v with listener := if opened then some s.listeners else v.listener, running := running })
    fun v => { v with running := false }
  exact congrArg (fun servers => EStateM.Result.ok () { s with
    out := s.out ++ printed
    listeners := if opened then s.listeners + 1 else s.listeners
    http := { s.http with servers } }) hhalt

theorem stopServer_staged {v : HttpServer} (hv : s.http.servers[id]? = some v) :
    stopServer id (staged id s ⟨printed, true, running⟩) =
      .ok () (staged id s ⟨printed ++ ("[HTTP] Server stopped" ++ "\n"), true, false⟩) := by
  have hat : serverAt id (staged id s ⟨printed, true, running⟩) =
      .ok { v with listener := some s.listeners, running := running }
      (staged id s ⟨printed, true, running⟩) := by
    show EStateM.Result.ok (Array.getD (s.http.servers.modify id _) id _) _ = _
    rw [Array.getD_eq_getD_getElem?, Array.getElem?_modify, if_pos rfl, hv]
    rfl
  refine (bind_ok hat).trans ?_
  exact (bind_ok (halt_staged id s printed true running)).trans
    (printLine_staged id s printed true false _)

end

theorem startServer_idle {id : Nat} {s : Setting} {v : HttpServer}
    (hv : s.http.servers[id]? = some v) (hidle : v.running = false) :
    startServer id s = .ok () (staged id s (launch s (addressOf v))) := by
  have hat : serverAt id s = .ok v s := by
    show EStateM.Result.ok _ _ = _
    rw [Array.getD_eq_getD_getElem?, hv]
    rfl
  have hport : v.port = (addressOf v).port := rfl
  have hstops (l : Launch) : (staged id s l).interruptedPort = s.interruptedPort := rfl
  refine (bind_ok hat).trans ?_
  rw [if_neg (by simp [hidle])]
  show EStateM.tryCatch _ _ s = _
  unfold EStateM.tryCatch
  simp only [bind, EStateM.bind, hport, openListener_eq, launch]
  by_cases htaken : (addressOf v).port.sameKey (.int s.takenPort) = true
  · -- The port is taken: the server is left as it was.
    simp only [if_pos htaken]
    rfl
  simp only [if_neg htaken, listen_staged, serverAddress_eq, text_staged]
  cases (addressOf v).text s with
  | error f =>
    -- The address cannot be announced: the port stays open, and the server does not run.
    exact (bind_ok (printLine_staged id s _ _ _ _)).trans (halt_staged id s _ _ _)
  | ok t =>
    simp only [printLine_staged, serveForever_eq, hstops]
    by_cases hstop : (addressOf v).port.sameKey (.int s.interruptedPort) = true
    · simp only [if_pos hstop]
      refine (bind_ok (printLine_staged id s _ _ _ _)).trans
        ((stopServer_staged id s _ true hv).trans ?_)
      rw [String.empty_append]
      rfl
    · simp only [if_neg hstop]
      rw [String.empty_append]
      rfl

theorem launch_made (host port : Value) (s : Setting) (a : Address) :
    launch (made host port s) a = launch s a := by
  have hheap : (made host port s).heap = s.heap := rfl
  have hdir : (made host port s).installDir = s.installDir := rfl
  unfold launch Address.text
  simp only [Setting.text_congr hheap hdir]
  rfl

/-- Whether starting serves at the address it is given depends on the calls before: `start` serves
at the address of the current server, and at the given one only if there is none or that has the
same. The server is then the current one, with the router that was set before, and it runs unless
the attempt at its address fails. -/
theorem start_serves_where_kept {history : List ServerCall} {s : Setting}
    (hreached : Reached history s) (hidle : ∀ v ∈ s.http.servers, v.running = false)
    (host port : Value) :
    ∃ id v s', runHttp .start [host, port] s = .ok .null s' ∧
      s'.http.current = some id ∧ s'.http.servers[id]? = some v ∧
      addressOf v = (keptAddress history).getD ⟨host, port⟩ ∧
      (addressOf v = ⟨host, port⟩ ↔ ∀ a ∈ keptAddress history, a = ⟨host, port⟩) ∧
      s'.http.router = keptRouter history ∧
      s'.out = s.out ++ (launch s (addressOf v)).printed ∧
      s'.listeners = (if (launch s (addressOf v)).opened then s.listeners + 1 else s.listeners) ∧
      v.running = (launch s (addressOf v)).running := by
  obtain ⟨id, s₁, hrun, hcurrent, hmade, htracks⟩ := hreached.tracks.currentServer host port
  obtain ⟨hidle₁, hlaunch, hout, hlisteners⟩ : (∀ v ∈ s₁.http.servers, v.running = false) ∧
      (∀ a, launch s₁ a = launch s a) ∧ s₁.out = s.out ∧ s₁.listeners = s.listeners := by
    rcases hmade with rfl | rfl
    · exact ⟨hidle, fun _ => rfl, rfl, rfl⟩
    · refine ⟨fun v hv => ?_, launch_made host port s, rfl, rfl⟩
      rcases Array.mem_push.1 hv with hv | rfl
      · exact hidle v hv
      · rfl
  obtain ⟨v, hv, hkept⟩ : ∃ v, s₁.http.servers[id]? = some v ∧
      addressOf v = (keptAddress history).getD ⟨host, port⟩ := by
    have haddress := htracks.address
    change s₁.http.current.map (fun id => (s₁.http.servers.map addressOf)[id]?) =
      some (some _) at haddress
    rw [hcurrent, Option.map_some, Array.getElem?_map] at haddress
    exact Option.map_eq_some_iff.1 (Option.some.inj haddress)
  have hstart := startServer_idle hv (hidle₁ v (Array.mem_of_getElem? hv))
  rw [hlaunch] at hstart
  refine ⟨id, { v with
      listener := if (launch s (addressOf v)).opened then some s₁.listeners else v.listener
      running := (launch s (addressOf v)).running },
    staged id s₁ (launch s (addressOf v)), (bind_ok hrun).trans (bind_ok hstart),
    hcurrent, ?_, hkept, ?_, htracks.router, ?_, ?_, rfl⟩
  · show (s₁.http.servers.modify id _)[id]? = _
    rw [Array.getElem?_modify, if_pos rfl, hv]
    rfl
  · show addressOf v = _ ↔ _
    rw [hkept]
    cases keptAddress history with
    | none => exact ⟨fun _ => nofun, fun _ => rfl⟩
    | some a => exact ⟨fun h b hb => (Option.some.inj hb).symm.trans h, fun h => h a rfl⟩
  · exact congrArg (· ++ _) hout
  · show (if _ then s₁.listeners + 1 else s₁.listeners) = _
    rw [hlisteners]
    rfl

theorem idle_singleton {v : HttpServer} (h : v.running = false) :
    ∀ w ∈ #[v], w.running = false := by
  intro w hw
  rwa [List.mem_singleton.1 (List.mem_toArray.1 hw)]

/-- A server that was told to listen elsewhere and was stopped listens again where it was made
for. -/
theorem restarted_where_made :
    ∃ s, Reached [.function .create_server [.text "127.0.0.1", .int 5000],
        .function .start [.text "0.0.0.0", .int 3000], .method 0 "stop" []] s ∧
      (∀ v ∈ s.http.servers, v.running = false) ∧
      ∃ id v s', runHttp .start [.text "0.0.0.0", .int 3000] s = .ok .null s' ∧
        s'.http.current = some id ∧ s'.http.servers[id]? = some v ∧
        addressOf v = ⟨.text "127.0.0.1", .int 5000⟩ ∧ v.running = true := by
  have hreached := Reached.call (.method 0 "stop" [])
    (.call (.function .start [.text "0.0.0.0", .int 3000])
    (.call (.function .create_server [.text "127.0.0.1", .int 5000]) (.start (s := {}) rfl)))
  have hidle := idle_singleton (v := ⟨.text "127.0.0.1", .int 5000, some 0, false⟩) rfl
  obtain ⟨id, v, s', hrun, hcurrent, hv, hkept, -, -, -, -, hrunning⟩ :=
    start_serves_where_kept hreached hidle (.text "0.0.0.0") (.int 3000)
  refine ⟨_, hreached, hidle, id, v, s', hrun, hcurrent, hv, hkept, ?_⟩
  rw [hrunning, hkept]
  rfl

/-- After the router is set, a server that is told to listen at one address listens at another. -/
theorem started_elsewhere :
    ∃ s s' v, Reached [.function .setRouter [.null]] s ∧ (∀ v ∈ s.http.servers, v.running = false) ∧
      runHttp .start [.text "0.0.0.0", .int 3000] s = .ok .null s' ∧
      s'.out = "[HTTP] Server started on http://localhost:8080\n[HTTP] Press Ctrl+C to stop\n" ∧
      s'.http.current = some 0 ∧ s'.http.servers[0]? = some v ∧
      addressOf v = ⟨.text "localhost", .int 8080⟩ := by
  have hset := Reached.call (.function .setRouter [.null]) (.start (s := {}) rfl)
  have hstart := (hset.call (.function .start [.text "0.0.0.0", .int 3000])).tracks.address
  obtain ⟨v, hv, haddress⟩ :=
    Option.map_eq_some_iff.1 (Array.getElem?_map.symm.trans (Option.some.inj hstart))
  have hidle := idle_singleton (v := { host := .text "localhost", port := .int 8080 }) rfl
  exact ⟨_, _, v, hset, hidle, rfl, rfl, rfl, hv, haddress⟩

end Package

end ScriptLang
