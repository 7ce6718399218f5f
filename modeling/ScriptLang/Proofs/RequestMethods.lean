import ScriptLang.Proofs.Routing

/-!
# Methods of requests to a site

The functions `route`, `get` and `post` of a site register in one table, in which only the path
counts. `reached` finds the registration for a path in the history of all registrations. It is the
function that the site runs (`handler_reached`), and what one more registration changes is said by
`reached_concat_self` and `reached_concat_other`.
-/

namespace ScriptLang.Package

open ScriptLang.Action

/-! ## Registrations with the function that made them -/

/-- A function of the site package that registers, and what it was called with. -/
structure Registration where
  function : SiteFn
  path : String
  handler : Value

/-- The functions that register. -/
def registering : List SiteFn :=
  [.route, .get, .post]

/-- A history of registrations of functions, and a setting that it leads to. What else is done
leaves the routes as they are. -/
inductive RegisteredBy : List Registration → Setting → Prop where
  | start {s : Setting} (hroutes : s.site.routes = []) : RegisteredBy [] s
  | register {history : List Registration} {s s' : Setting} {g : Registration} {v : Value}
      (h : RegisteredBy history s) (hfunction : g.function ∈ registering)
      (hhandler : g.handler.isCallable = true)
      (hrun : runSite g.function [.text g.path, g.handler] s = .ok v s') :
      RegisteredBy (history ++ [g]) s'
  | other {history : List Registration} {s s' : Setting} (h : RegisteredBy history s)
      (hroutes : s'.site.routes = s.site.routes) : RegisteredBy history s'

/-- A history without the functions that registered. -/
def pathsOf (history : List Registration) : List (String × Value) :=
  history.map fun g => (g.path, g.handler)

variable {history : List Registration} {path : String} {g : Registration}

/-- Of a registration the site keeps the path and the handler, and not which function was called. -/
theorem RegisteredBy.registered {s : Setting} (h : RegisteredBy history s) :
    Registered (pathsOf history) s := by
  induction h with
  | start hroutes => exact .start hroutes
  | register _ hfunction hhandler hrun ih =>
    rw [pathsOf, List.map_append]
    exact ih.register hfunction hhandler hrun
  | other _ hroutes ih => exact ih.other hroutes

/-! ## The registration that a request reaches -/

/-- The last registration of a path. -/
def latestFor (history : List Registration) (path : String) : Option Registration :=
  history.reverse.find? fun g => g.path = path

/-- The registration that counts for a path: its own last one, or else the last one of the pattern
that was registered first of those that it fits. -/
def reached (history : List Registration) (path : String) : Option Registration :=
  latestFor history path <|> (firstFit path (history.map (·.path))).bind (latestFor history)

theorem handler_latestFor (history : List Registration) (path : String) :
    (latestFor history path).map (·.handler) = latest (pathsOf history) path := by
  unfold latestFor latest pathsOf
  rw [← List.map_reverse]
  induction history.reverse with
  | nil => rfl
  | cons g gs ih =>
    rw [List.map_cons, List.lookup_cons]
    by_cases hpath : g.path = path
    · rw [List.find?_cons_of_pos (by simpa using hpath), hpath, beq_self_eq_true]
      rfl
    · rw [List.find?_cons_of_neg (by simpa using hpath), ih, beq_eq_false_iff_ne.2 (Ne.symm hpath)]

theorem handler_reached (history : List Registration) (path : String) :
    (reached history path).map (·.handler) = dispatched (pathsOf history) path := by
  have hpaths : (pathsOf history).map (·.1) = history.map (·.path) := by
    rw [pathsOf, List.map_map]
    rfl
  rw [reached, dispatched, hpaths, ← handler_latestFor]
  cases latestFor history path with
  | some g => rfl
  | none =>
    cases firstFit path (history.map (·.path)) with
    | none => rfl
    | some route => exact handler_latestFor history route

theorem path_latestFor (h : latestFor history path = some g) : g ∈ history ∧ g.path = path := by
  have hmem := List.mem_of_find?_eq_some h
  have hpath := List.find?_some h
  exact ⟨List.mem_reverse.1 hmem, by simpa using hpath⟩

/-- The registration that counts for a path was made for this path or for a pattern that it fits. -/
theorem path_reached (h : reached history path = some g) :
    g ∈ history ∧ (g.path = path ∨ ':' ∈ g.path.toList ∧ Fits path g.path) := by
  rw [reached, Option.orElse_eq_some] at h
  rcases h with hexact | ⟨-, hpattern⟩
  · obtain ⟨hmem, hpath⟩ := path_latestFor hexact
    exact ⟨hmem, .inl hpath⟩
  · obtain ⟨route, hroute, hlatest⟩ := Option.bind_eq_some_iff.1 hpattern
    obtain ⟨hmem, rfl⟩ := path_latestFor hlatest
    have hfits := List.find?_some hroute
    exact ⟨hmem, .inr (by simpa using hfits)⟩

/-! ## One more registration -/

theorem latestFor_concat (history : List Registration) (g : Registration) (path : String) :
    latestFor (history ++ [g]) path = if g.path = path then some g else latestFor history path := by
  rw [latestFor, List.reverse_append, List.reverse_singleton, List.singleton_append]
  split
  · next hpath => exact List.find?_cons_of_pos (by simpa using hpath)
  · next hpath => exact List.find?_cons_of_neg (by simpa using hpath)

theorem reached_concat_self (history : List Registration) (g : Registration) :
    reached (history ++ [g]) g.path = some g := by
  rw [reached, latestFor_concat, if_pos rfl]
  rfl

theorem reached_concat_other (hpath : path ≠ g.path) (hknown : ∃ g' ∈ history, g'.path = path) :
    reached (history ++ [g]) path = reached history path := by
  obtain ⟨g', hmem, hg'⟩ := hknown
  have hsome : (latestFor history path).isSome = true := by
    rw [latestFor, List.find?_isSome]
    exact ⟨g', List.mem_reverse.2 hmem, by simpa using hg'⟩
  obtain ⟨found, hfound⟩ := Option.isSome_iff_exists.1 hsome
  rw [reached, reached, latestFor_concat, if_neg (Ne.symm hpath), hfound]
  rfl

/-! ## Requests -/

/-- A site does not tell methods apart. For every history of registrations and every request that it
can answer, it runs the handler of the registration that the path reaches, which was made for this
path or for a pattern that it fits, and answers with the status 404 if there is none. Neither the
method of the request nor the function that registered counts. And whichever function registers a
path once more, this is what every request for the path runs from then on, while other registered
paths keep theirs. -/
theorem methods_share_routes {history : List Registration} {w : World}
    (h : RegisteredBy history w.toSetting) :
    (∀ (call : Caller) (r : Http.Request) (parts : Url.Parts), Acceptable r parts →
      ∃ w', Prepared r parts.path w w' ∧ serve call .site r w =
        match reached history parts.path with
        | some g => answerBy call r g.handler w'
        | none => .ok () { w' with exchange := { sent := notFound w.clock, refused := true } }) ∧
    (∀ path g, reached history path = some g →
      g ∈ history ∧ (g.path = path ∨ ':' ∈ g.path.toList ∧ Fits path g.path)) ∧
    ∀ g : Registration, g.function ∈ registering → g.handler.isCallable = true →
      ∃ v s', runSite g.function [.text g.path, g.handler] w.toSetting = .ok v s' ∧
        RegisteredBy (history ++ [g]) s' ∧ reached (history ++ [g]) g.path = some g ∧
        ∀ path, path ≠ g.path → (∃ g' ∈ history, g'.path = path) →
          reached (history ++ [g]) path = reached history path := by
  refine ⟨?_, fun path g => path_reached, ?_⟩
  · intro call r parts hr
    obtain ⟨w', hprepared, hserve⟩ := serve_eq call hr h.registered
    refine ⟨w', hprepared, ?_⟩
    rw [hserve, ← handler_reached]
    cases reached history parts.path <;> rfl
  · intro g hfunction hhandler
    have hrun := runSite_register hfunction g.path g.handler w.toSetting
    exact ⟨_, _, hrun, h.register hfunction hhandler hrun, reached_concat_self history g,
      fun path hpath hknown => reached_concat_other hpath hknown⟩

/-- Whether a request has a line of three words and asks for a path. -/
def asksFor (r : Http.Request) (path : String) : Bool :=
  (Text.fields Text.isBlank r.line.toList).length == 3 &&
    match Url.parse (requestPath r) with
    | .ok parts => parts.path == path
    | .error _ => false

theorem acceptable_of_asksFor {r : Http.Request} (path : String) (hasks : asksFor r path = true)
    (hmethod : r.method ∈ ["GET", "POST"]) (hbody : ReadableBody r) :
    ∃ parts, Acceptable r parts ∧ parts.path = path := by
  obtain ⟨hline, htarget⟩ := Bool.and_eq_true_iff.1 hasks
  split at htarget
  · next parts hparts =>
    exact ⟨parts, ⟨beq_iff_eq.1 hline, hmethod, hparts, fun _ => hbody⟩, beq_iff_eq.1 htarget⟩
  · cases htarget

/-- A site where one path was registered for `get` and then, with another function, for `post`. -/
theorem getThenPost_registered : ∃ w : World,
    RegisteredBy [⟨.get, "/a", .function 0⟩, ⟨.post, "/a", .function 1⟩] w.toSetting := by
  have hstart : RegisteredBy [] ({} : Setting) := .start rfl
  have hget := hstart.register (g := ⟨.get, "/a", .function 0⟩) (by decide) rfl
    (runSite_register (by decide) "/a" (.function 0) _)
  have hpost := hget.register (g := ⟨.post, "/a", .function 1⟩) (by decide) rfl
    (runSite_register (by decide) "/a" (.function 1) _)
  exact ⟨{ toSetting := _ }, hpost⟩

/-- The function that was registered for `post` answers a request of the method GET. -/
theorem getThenPost_answers : ∃ w : World,
    RegisteredBy [⟨.get, "/a", .function 0⟩, ⟨.post, "/a", .function 1⟩] w.toSetting ∧
    ∀ call, ∃ w', serve call .site { method := "GET", path := "/a" } w =
      answerBy call { method := "GET", path := "/a" } (.function 1) w' := by
  obtain ⟨w, hw⟩ := getThenPost_registered
  obtain ⟨parts, hr, hpath⟩ := acceptable_of_asksFor
    (r := { method := "GET", path := "/a" }) "/a" (by decide +kernel) (by decide) nofun
  refine ⟨w, hw, fun call => ?_⟩
  obtain ⟨w', -, hserve⟩ := (methods_share_routes hw).1 call _ parts hr
  rw [hpath] at hserve
  exact ⟨w', hserve⟩

/-- A function that was registered for `get` alone answers a posted request. -/
theorem get_answers_posted : ∃ w : World,
    RegisteredBy [⟨.get, "/a", .function 0⟩] w.toSetting ∧
    ∀ call, ∃ w', serve call .site { method := "POST", path := "/a" } w =
      answerBy call { method := "POST", path := "/a" } (.function 0) w' := by
  have hstart : RegisteredBy [] ({} : Setting) := .start rfl
  have hget := hstart.register (g := ⟨.get, "/a", .function 0⟩) (by decide) rfl
    (runSite_register (by decide) "/a" (.function 0) _)
  obtain ⟨parts, hr, hpath⟩ := acceptable_of_asksFor
    (r := { method := "POST", path := "/a" }) "/a" (by decide +kernel) (by decide) nofun
  refine ⟨{ toSetting := _ }, hget, fun call => ?_⟩
  obtain ⟨w', -, hserve⟩ := serve_eq (w := { toSetting := _ }) call hr hget.registered
  rw [hpath] at hserve
  exact ⟨w', hserve⟩

end ScriptLang.Package
