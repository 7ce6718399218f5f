import ScriptLang.Package.Serve
import ScriptLang.Proofs.Splitting
import ScriptLang.Proofs.Tables

/-!
# Routes of a site

What a site runs for a request follows from the history of its registrations alone. The table of
routes keeps a path at the place of its first registration and the function of its last one
(`lookup_routesOf`, `find?_routesOf`), and a search in the table is a search in the history
(`routeFor_ok`).
-/

namespace ScriptLang

open ScriptLang.Action ScriptLang.Library

variable {r : Http.Request} {history : List (String × Value)} {s : Setting} {path : String}

/-! ## Computations that only make values -/

/-- Values were made, and nothing else has changed. -/
structure World.Grows (w w' : World) : Prop where
  code : w'.code = w.code
  setting : w.toSetting.Grows w'.toSetting

/-- Routines that make values, change nothing else, and do not halt. -/
def making : Policy Halt Setting where
  inv _ := True
  rel := Setting.Grows
  halts _ := False
  refl := .refl
  trans := .trans

/-- Actions that make values, change nothing else, and do not end early. -/
def makingActions : Policy Signal World where
  inv _ := True
  rel := World.Grows
  halts _ := False
  refl _ := ⟨rfl, .refl _⟩
  trans h₁ h₂ := ⟨h₂.code.trans h₁.code, h₁.setting.trans h₂.setting⟩

variable {α : Type} {x : Routine α} {Q : α → Prop}

theorem Policy.Ensures.exists_ok {ε σ : Type} {P : Policy ε σ} {x : EStateM ε σ α}
    (h : P.Ensures x Q) (hhalts : ∀ e, ¬ P.halts e) {s : σ} (hs : P.inv s) :
    ∃ a s', x s = .ok a s' ∧ P.rel s s' := by
  rcases h.cases hs with ⟨e, _, -, -, he⟩ | ⟨a, s', hrun, hrel, -⟩
  · exact absurd he (hhalts e)
  · exact ⟨a, s', hrun, hrel⟩

theorem making_ok (h : making.Ensures x Q) (s : Setting) : ∃ a s', x s = .ok a s' ∧ s.Grows s' :=
  h.exists_ok (fun _ => id) trivial

theorem making_of_ok (h : ∀ s, ∃ a s', x s = .ok a s' ∧ s.Grows s') :
    making.Ensures x fun _ => True := by
  refine ⟨fun s _ => ?_⟩
  obtain ⟨a, s', hrun, hgrows⟩ := h s
  rw [hrun]
  exact ⟨trivial, hgrows, trivial⟩

theorem making_perform (h : making.Ensures x Q) :
    makingActions.Ensures (liftM x : Action α) fun _ => True := by
  refine ⟨fun w _ => ?_⟩
  obtain ⟨a, s, hrun, hgrows⟩ := making_ok h w.toSetting
  rw [Routine.perform_ok hrun]
  exact ⟨trivial, ⟨rfl, hgrows⟩, trivial⟩

theorem making_alloc (c : Cell) : making.Ensures (alloc c) fun _ => True :=
  making_of_ok fun s => ⟨_, _, rfl, .push s c⟩

theorem making_objectOf (fields : List (String × Value)) :
    making.Ensures (objectOf fields) fun _ => True :=
  (making_alloc _).map fun _ _ => trivial

namespace Package

/-! ## Patterns -/

/-- A path fits a pattern: it has as many names as the pattern, and has the same name wherever the
pattern has one without a colon in front. -/
def Fits (path route : String) : Prop :=
  List.Forall₂ (fun name part => part.startsWith ":" = true ∨ name = part) (segments path)
    (segments route)

theorem fitsRoute_iff {route : String} : fitsRoute path route = true ↔ Fits path route := by
  rw [Fits, List.forall₂_iff_zip, fitsRoute]
  simp only [Bool.and_eq_true, beq_iff_eq, List.all_eq_true, Bool.or_eq_true, Prod.forall]

instance : DecidableRel Fits := fun _ _ => decidable_of_iff _ fitsRoute_iff

/-- A path that a pattern becomes when each name with a colon in front is replaced by one that is
not empty. -/
def Filled (route path : String) : Prop :=
  List.Forall₂ (fun name part => if part.startsWith ":" = true then name ≠ "" else name = part)
    (Text.split "/" path) (Text.split "/" route)

theorem ofList_eq_empty {cs : List Char} : String.ofList cs = "" ↔ cs = [] := by
  rw [← String.toList_inj, String.toList_ofList]
  rfl

theorem segments_eq (path : String) :
    segments path = ((Text.trimBy (· == '/') path.toList).splitOn '/').map String.ofList := by
  rw [segments]
  exact (Text.split_char '/' _).trans (by rw [String.toList_ofList])

theorem Filled.fits {route : String} (h : Filled route path) : Fits path route := by
  have hcolon : ∀ part : String, part.startsWith ":" = true → part ≠ "" := by
    rintro part hpart rfl
    revert hpart
    decide +kernel
  have hpath : Text.split "/" path = (path.toList.splitOn '/').map String.ofList :=
    Text.split_char '/' path
  have hroute : Text.split "/" route = (route.toList.splitOn '/').map String.ofList :=
    Text.split_char '/' route
  rw [Filled, hpath, hroute, List.forall₂_map_left_iff, List.forall₂_map_right_iff] at h
  rw [Fits, segments_eq, segments_eq, List.forall₂_map_left_iff, List.forall₂_map_right_iff]
  -- an empty name stands for an empty name only, so the same names go at the ends of both
  refine (Text.forall₂_splitOn_trimBy (fun name part hname => ?_) h).imp fun name part hname => ?_
  · rw [← ofList_eq_empty, ← ofList_eq_empty]
    split at hname
    · next hpart => exact iff_of_false hname (hcolon _ hpart)
    · rw [hname]
  · split at hname
    · next hpart => exact .inl hpart
    · exact .inr hname

/-! ## The table of routes -/

/-- The routes after paths were registered one after the other. -/
def routesOf (history : List (String × Value)) : List (String × Value) :=
  history.foldl (fun fs f => putField f.1 f.2 fs) []

/-- What a path was registered with last. -/
def latest (history : List (String × Value)) (path : String) : Option Value :=
  history.reverse.lookup path

/-- The first pattern that a path fits. -/
def firstFit (path : String) (routes : List String) : Option String :=
  routes.find? fun route => ':' ∈ route.toList ∧ Fits path route

/-- What a site runs for a path: what the path itself was registered with last, or else the pattern
that was registered first of those that it fits. -/
def dispatched (history : List (String × Value)) (path : String) : Option Value :=
  latest history path <|> (firstFit path (history.map (·.1))).bind (latest history)

theorem routesOf_concat (history : List (String × Value)) (r : String × Value) :
    routesOf (history ++ [r]) = putField r.1 r.2 (routesOf history) := by
  rw [routesOf, List.foldl_append]
  rfl

theorem lookup_routesOf (history : List (String × Value)) (path : String) :
    (routesOf history).lookup path = latest history path := by
  induction history using List.reverseRecOn with
  | nil => rfl
  | append_singleton history r ih =>
    rw [routesOf_concat, lookup_putField, latest, List.reverse_append, List.reverse_singleton,
      List.singleton_append, lookup_cons_eq_ite, ih]
    rfl

theorem mem_names_routesOf : path ∈ (routesOf history).map (·.1) ↔ path ∈ history.map (·.1) := by
  induction history using List.reverseRecOn with
  | nil => rfl
  | append_singleton history r ih =>
    rw [routesOf_concat, names_putField, List.map_append, List.mem_append, ← ih]
    split
    · next hold => simpa using fun heq : path = r.1 => by simpa [heq] using hold
    · simp

theorem find?_routesOf (history : List (String × Value)) (q : String → Bool) :
    ((routesOf history).map (·.1)).find? q = (history.map (·.1)).find? q := by
  induction history using List.reverseRecOn with
  | nil => rfl
  | append_singleton history r ih =>
    rw [routesOf_concat, names_putField, List.map_append, List.find?_append]
    split
    · next hold =>
      -- a path that is registered again comes after itself
      rw [ih]
      cases hfirst : (history.map (·.1)).find? q with
      | some first => rfl
      | none =>
        have hnot := List.find?_eq_none.1 hfirst r.1 (mem_names_routesOf.1 hold)
        simp [hnot]
    · rw [List.find?_append, ih]
      rfl

/-- Routes as the site keeps them. -/
def entriesOf (routes : List (String × Value)) : Entries :=
  routes.map fun f => (.text f.1, f.2)

theorem put_entriesOf (routes : List (String × Value)) (path : String) (v : Value) :
    (entriesOf routes).put (.text path) v = entriesOf (putField path v routes) := by
  induction routes with
  | nil => rfl
  | cons f routes ih =>
    have hsame : (Value.text f.1).sameKey (.text path) = true ↔ f.1 = path := by
      rw [Value.sameKey_text]
      simp
    rw [entriesOf, List.map_cons, Entries.put, putField]
    by_cases hf : f.1 = path
    · rw [if_pos (hsame.2 hf), if_pos hf, entriesOf, List.map_cons, hf]
    · rw [if_neg (mt hsame.1 hf), if_neg hf, entriesOf, List.map_cons]
      congr 1

theorem field?_entriesOf (routes : List (String × Value)) (path : String) :
    (entriesOf routes).field? path = routes.lookup path := by
  induction routes with
  | nil => rfl
  | cons f routes ih =>
    have hsame : (Value.text f.1).sameKey (.text path) = true ↔ path = f.1 := by
      rw [Value.sameKey_text]
      simp [eq_comm]
    rw [lookup_cons_eq_ite, ← ih]
    show (if (Value.text f.1).sameKey (.text path) = true then some f.2 else _) = _
    simp only [hsame]
    rfl

/-! ## The search -/

/-- In the table, the search for a pattern finds what its path is registered with. -/
theorem dynamicRoute_ok (path : String) (routes : List (String × Value)) (s : Setting) :
    dynamicRoute path (entriesOf routes) s =
      .ok (((firstFit path (routes.map (·.1))).bind fun route => routes.lookup route).getD .null)
        s := by
  induction routes with
  | nil => rfl
  | cons f routes ih =>
    have hcontains : contains (.text f.1) (.text ":") s = .ok (decide (':' ∈ f.1.toList)) s := by
      show EStateM.Result.ok (Text.contains (String.ofList [':']) f.1) s = _
      rw [Bool.eq_iff_iff.2 (Text.contains_char.trans decide_eq_true_iff.symm)]
    -- a route is passed over if it has no colon, or if the path does not fit it
    have hskip : ∀ hmiss : ¬ (':' ∈ f.1.toList ∧ Fits path f.1),
        ((firstFit path ((f :: routes).map (·.1))).bind fun route => (f :: routes).lookup route) =
          (firstFit path (routes.map (·.1))).bind fun route => routes.lookup route := by
      intro hmiss
      rw [firstFit, List.map_cons, List.find?_cons_of_neg (by simpa using hmiss), ← firstFit]
      cases hfound : firstFit path (routes.map (·.1)) with
      | none => rfl
      | some route =>
        have hfits := List.find?_some hfound
        have hne : route ≠ f.1 := by
          rintro rfl
          exact hmiss (by simpa using hfits)
        rw [Option.bind_some, Option.bind_some, lookup_cons_eq_ite, if_neg hne]
    refine (bind_ok hcontains).trans ?_
    by_cases hcolon : ':' ∈ f.1.toList
    · rw [if_pos (by simpa using hcolon)]
      by_cases hfits : Fits path f.1
      · show (if fitsRoute path f.1 then pure f.2 else dynamicRoute path (entriesOf routes) :
          Routine Value) s = _
        rw [if_pos (fitsRoute_iff.2 hfits), firstFit, List.map_cons,
          List.find?_cons_of_pos (by simp [hcolon, hfits]), Option.bind_some, lookup_cons_eq_ite,
          if_pos rfl]
        rfl
      · show (if fitsRoute path f.1 then pure f.2 else dynamicRoute path (entriesOf routes) :
          Routine Value) s = _
        rw [if_neg (mt fitsRoute_iff.1 hfits), hskip fun h => hfits h.2]
        exact ih
    · rw [if_neg (by simpa using hcolon), hskip fun h => hcolon h.1]
      exact ih

theorem truthy_of_isCallable {v : Value} (h : v.isCallable = true) (s : Setting) :
    truthy v s = .ok true s := by
  cases v <;> first | rfl | cases h

/-- Only functions were registered. -/
def Functions (history : List (String × Value)) : Prop :=
  ∀ r ∈ history, r.2.isCallable = true

theorem Functions.latest (h : Functions history)
    {v : Value} (hv : latest history path = some v) : v.isCallable = true := by
  obtain ⟨r, hr, rfl⟩ := exists_mem_of_lookup hv
  exact h r (List.mem_reverse.1 hr)

theorem Functions.dispatched (h : Functions history)
    {v : Value} (hv : dispatched history path = some v) : v.isCallable = true := by
  rw [Package.dispatched, Option.orElse_eq_some] at hv
  rcases hv with hexact | ⟨-, hpattern⟩
  · exact h.latest hexact
  · obtain ⟨route, -, hroute⟩ := Option.bind_eq_some_iff.1 hpattern
    exact h.latest hroute

/-- The search in the table of routes is the search in the history. -/
theorem routeFor_ok (h : Functions history)
    (hroutes : s.site.routes = entriesOf (routesOf history)) (path : String) :
    routeFor path s = .ok ((dispatched history path).getD .null) s := by
  have hfield : s.site.routes.field? path = latest history path := by
    rw [hroutes, field?_entriesOf, lookup_routesOf]
  have hsearch := dynamicRoute_ok path (routesOf history) s
  simp only [lookup_routesOf] at hsearch
  rw [firstFit, find?_routesOf, ← firstFit, ← hroutes] at hsearch
  unfold routeFor
  refine (bind_ok rfl).trans ?_
  rw [hfield]
  cases hexact : latest history path with
  | some v =>
    refine (bind_ok (truthy_of_isCallable (h.latest hexact) s)).trans ?_
    rw [dispatched, hexact]
    rfl
  | none =>
    refine (bind_ok (a := false) rfl).trans ((bind_ok hsearch).trans ?_)
    have hdispatched : dispatched history path =
        (firstFit path (history.map (·.1))).bind (latest history) := by
      rw [dispatched, hexact]
      rfl
    rw [← hdispatched]
    cases hfound : dispatched history path with
    | none => rfl
    | some v => exact (bind_ok (truthy_of_isCallable (h.dispatched hfound) s)).trans rfl

/-! ## Registrations -/

/-- A history of registrations of functions, and a setting that it leads to. What else is done
leaves the routes as they are. -/
inductive Registered : List (String × Value) → Setting → Prop where
  | start {s : Setting} (hroutes : s.site.routes = []) : Registered [] s
  | register {history : List (String × Value)} {s s' : Setting} {f : SiteFn} {path : String}
      {handler v : Value} (h : Registered history s) (hf : f ∈ [SiteFn.route, .get, .post])
      (hhandler : handler.isCallable = true)
      (hrun : runSite f [.text path, handler] s = .ok v s') :
      Registered (history ++ [(path, handler)]) s'
  | other {history : List (String × Value)} {s s' : Setting} (h : Registered history s)
      (hroutes : s'.site.routes = s.site.routes) : Registered history s'

theorem runSite_register {f : SiteFn} (hf : f ∈ [SiteFn.route, .get, .post]) (path : String)
    (handler : Value) (s : Setting) : runSite f [.text path, handler] s =
      .ok handler { s with site :=
        { s.site with routes := s.site.routes.put (.text path) handler } } := by
  simp only [List.mem_cons, List.not_mem_nil, or_false] at hf
  rcases hf with rfl | rfl | rfl <;> rfl

theorem Registered.routes (h : Registered history s) :
    s.site.routes = entriesOf (routesOf history) ∧ Functions history := by
  induction h with
  | start hroutes => exact ⟨hroutes, nofun⟩
  | @register history s s' f path handler v _ hf hhandler hrun ih =>
    rw [runSite_register hf] at hrun
    cases hrun
    constructor
    · show s.site.routes.put (.text path) handler = _
      rw [ih.1, put_entriesOf, routesOf_concat]
    · intro r hr
      rcases List.mem_append.1 hr with hold | hnew
      · exact ih.2 r hold
      · rw [List.mem_singleton.1 hnew]
        exact hhandler
  | other _ hroutes ih => exact ⟨hroutes.trans ih.1, ih.2⟩

/-! ## The answer where there is no route -/

/-- A text in which one byte can stand for each character. -/
def Narrow (s : String) : Prop :=
  ∀ c ∈ s.toList, c.toNat < 256

/-- The bytes of a line of a head. -/
def lineBytes (line : String) : List UInt8 :=
  (line ++ "\r\n").toList.map fun c => c.toNat.toUInt8

theorem Narrow.append {s t : String} (hs : Narrow s) (ht : Narrow t) : Narrow (s ++ t) := by
  intro c hc
  rw [String.toList_append] at hc
  exact (List.mem_append.1 hc).elim (hs c) (ht c)

theorem narrow_digits (n : Nat) : Narrow (Nat.repr n) := by
  intro c hc
  rw [Nat.toList_repr] at hc
  have hdigit := toNat_of_isDigit (Nat.isDigit_of_mem_toDigits (by decide) (by decide) hc)
  omega

theorem narrow_whole (n : Int) : Narrow (toString n) := by
  cases n with
  | ofNat n => exact narrow_digits n
  | negSucc n => exact Narrow.append (s := "-") (by simp [Narrow]) (narrow_digits (n + 1))

theorem narrow_twoDigits (n : Nat) : Narrow (twoDigits n) := by
  rw [twoDigits]
  split
  · exact Narrow.append (s := "0") (by simp [Narrow]) (narrow_digits n)
  · exact narrow_digits n

theorem narrow_moment (m : Moment) : Narrow m.text := by
  have hdash : Narrow "-" := by simp [Narrow]
  have hblank : Narrow " " := by simp [Narrow]
  have hcolon : Narrow ":" := by simp [Narrow]
  have hyear : Narrow s!"{m.year}-" := (narrow_whole m.year).append hdash
  have hmonth := (hyear.append (narrow_twoDigits m.month)).append hdash
  have hday := (hmonth.append (narrow_twoDigits m.day)).append hblank
  have hhour := (hday.append (narrow_twoDigits m.hour)).append hcolon
  have hminute := (hhour.append (narrow_twoDigits m.minute)).append hcolon
  exact hminute.append (narrow_twoDigits m.second)

theorem headLine_ok {line : String} (h : Narrow line) (s : Setting) :
    headLine line s = .ok () { s with exchange :=
      { s.exchange with pending := s.exchange.pending ++ lineBytes line } } := by
  have hline : Narrow (line ++ "\r\n") := h.append (by simp [Narrow])
  have hfit : (line ++ "\r\n").toList.dropWhile (fun c => decide (c.toNat < 256)) = [] := by
    rw [List.dropWhile_eq_nil_iff]
    intro c hc
    exact decide_eq_true (hline c hc)
  have hnarrow : Http.narrow (line ++ "\r\n") = .ok (lineBytes line) := by
    unfold Http.narrow
    dsimp only
    rw [hfit]
    rfl
  show (Action.ofExcept (Http.narrow (line ++ "\r\n")) >>= fun bytes =>
    modifyExchange fun e => { e with pending := e.pending ++ bytes }) s = _
  rw [hnarrow]
  rfl

/-- The lines that every head starts with. -/
def headStart (line : String) (clock : Float) : List UInt8 :=
  lineBytes line ++ lineBytes "Server: ZenLang" ++ lineBytes
    ("Date: " ++ (Moment.ofClock clock).text)

/-- Lines for the head of the answer are gathered. -/
def gathering (s : Setting) (lines : List UInt8) : Setting :=
  { s with exchange := { s.exchange with pending := s.exchange.pending ++ lines } }

theorem headStart_ok {line : String} (h : Narrow line) (s : Setting) : (do
      headLine line
      headLine "Server: ZenLang"
      headLine ("Date: " ++ (Moment.ofClock (← get).clock).text) : Routine Unit) s =
    .ok () (gathering s (headStart line s.clock)) := by
  have hserver : Narrow "Server: ZenLang" := by simp [Narrow]
  have hdate : Narrow ("Date: " ++ (Moment.ofClock s.clock).text) :=
    Narrow.append (by simp [Narrow]) (narrow_moment _)
  refine (bind_ok (headLine_ok h _)).trans ((bind_ok (headLine_ok hserver _)).trans ?_)
  refine (bind_ok rfl).trans ((headLine_ok hdate _).trans ?_)
  simp only [gathering, headStart, List.append_assoc]

theorem addHeader_ok {name value : String} (h : Narrow (name ++ ": " ++ value)) (s : Setting) :
    addHeader (.text name) value s = .ok () (gathering s (lineBytes (name ++ ": " ++ value))) :=
  (bind_ok rfl).trans ((bind_ok (headLine_ok h _)).trans rfl)

/-- The answer where no function is registered for a path. -/
def notFound (clock : Float) : List UInt8 :=
  lineBytes "HTTP/1.0 404 Not Found" ++ lineBytes "Server: ZenLang" ++
    lineBytes ("Date: " ++ (Moment.ofClock clock).text) ++ lineBytes "Connection: close" ++
    [13, 10] ++
    "Not Found".toUTF8.toList

theorem refuse_notFound (r : Http.Request) (hexchange : s.exchange = {}) :
    refuse .site r 404 "Not Found" s =
      .ok () { s with exchange := { sent := notFound s.clock, refused := true } } := by
  have hstatus : Narrow "HTTP/1.0 404 Not Found" := by simp [Narrow]
  have hclose : Narrow ("Connection" ++ ": " ++ "close") := by simp [Narrow]
  have hcheck (s : Setting) : checkStatus .site r (.int 404) s = .ok 404 s :=
    (bind_ok rfl).trans ((bind_ok rfl).trans rfl)
  have hstart : startAnswer .site r (.int 404) (some "Not Found") { s with exchange :=
    { refused := true } } = _ := (bind_ok (hcheck _)).trans (headStart_ok hstatus _)
  unfold refuse
  refine (bind_ok rfl).trans ((bind_ok rfl).trans ?_)
  simp only [hexchange]
  refine (bind_ok hstart).trans ((bind_ok (addHeader_ok hclose _)).trans ?_)
  rfl

/-! ## The request -/

theorem making_textArray (xs : List String) : making.Ensures (textArray xs) fun _ => True :=
  (making_alloc _).map fun _ _ => trivial

theorem making_headersObject (r : Http.Request) : making.Ensures (headersObject r) fun _ => True :=
  (making_alloc _).map fun _ _ => trivial

/-- The body of a request can be read: the length that is announced is a number, and as many bytes
are a text. -/
def ReadableBody (r : Http.Request) : Prop :=
  ∀ length, r.header? "Content-Length" = some length → ∃ n, wholeOfText length = .ok n ∧
    (0 < n → ∃ body, Text.decodeUtf8
      ((r.body.getD "").toUTF8.toList.take n.toNat).toByteArray.toList = .ok body)

theorem requestBody_ok (h : ReadableBody r) (s : Setting) :
    ∃ body, requestBody r s = .ok body s := by
  unfold requestBody
  cases hlength : r.header? "Content-Length" with
  | none => exact ⟨none, rfl⟩
  | some length =>
    obtain ⟨n, hn, hbody⟩ := h length hlength
    dsimp only
    rw [hn]
    by_cases hpositive : 0 < n
    · obtain ⟨body, hdecode⟩ := hbody hpositive
      refine ⟨some body, (bind_ok rfl).trans ?_⟩
      rw [if_pos hpositive]
      show EStateM.map some (decodeText _) s = _
      unfold EStateM.map decodeText
      rw [hdecode]
      rfl
    · refine ⟨none, (bind_ok rfl).trans ?_⟩
      rw [if_neg hpositive]
      rfl

theorem making_queryObject (query : String) : making.Ensures (queryObject query) fun _ => True :=
  (Policy.Ensures.mapM (S := fun _ => True) fun f _ => (making_textArray f.2).give).seq <|
    making_objectOf _

theorem making_postedData (h : ReadableBody r) : making.Ensures (postedData r) fun _ => True := by
  refine making_of_ok fun s => ?_
  obtain ⟨body, hbody⟩ := requestBody_ok h s
  cases body with
  | none => exact ⟨_, _, (bind_ok hbody).trans rfl, .push s _⟩
  | some body =>
    rcases readJson_cases body s with ⟨f, hfault⟩ | ⟨j, v, s', -, hrun, hgrows, -⟩
    · -- what is no document is read as a form
      obtain ⟨v, s', hrun, hgrows⟩ := making_ok (making_queryObject body) s
      exact ⟨v, s', (bind_ok hbody).trans ((onFault_fault hfault).trans hrun), hgrows⟩
    · exact ⟨v, s', (bind_ok hbody).trans (onFault_ok hrun), hgrows⟩

theorem making_requestData (h : r.method = "POST" → ReadableBody r) :
    making.Ensures (requestData r) fun _ => True := by
  rw [requestData]
  split
  · next hpost => exact making_postedData (h (beq_iff_eq.1 hpost))
  · exact making_objectOf []

/-- What a site does before it runs a function or refuses a request: a new answer is begun, and the
request is made known to the program. -/
structure Prepared (r : Http.Request) (path : String) (w w' : World) : Prop where
  code : w'.code = w.code
  grows : Setting.Grows { w.toSetting with exchange := {} } { w'.toSetting with site := w.site }
  request : ∃ l query data headers, w'.site = { w.site with request := .object l } ∧
    w'.heap.cells[l]? = some (.object [(.text "method", .text r.method), (.text "path", .text path),
      (.text "query", query), (.text "data", data), (.text "headers", headers)])

/-- A request that a site can answer: its line has three words, its method is one that sites answer,
its target has a path, and the body that it posts can be read. -/
structure Acceptable (r : Http.Request) (parts : Url.Parts) : Prop where
  line : (Text.fields Text.isBlank r.line.toList).length = 3
  method : r.method ∈ ["GET", "POST"]
  target : Url.parse (requestPath r) = .ok parts
  body : r.method = "POST" → ReadableBody r

/-- What a site runs for a request, once it is made known to the program. -/
theorem answerRequest_eq (call : Caller) (r : Http.Request) {w : World}
    (hroutes : w.site.routes = entriesOf (routesOf history)) (hfunctions : Functions history)
    (hexchange : w.exchange = {}) (path : String) (query data : Value) :
    ∃ w', Prepared r path w w' ∧ answerRequest call r path query data w =
      match dispatched history path with
      | some handler => answerBy call r handler w'
      | none => .ok () { w' with exchange := { sent := notFound w.clock, refused := true } } := by
  obtain ⟨headers, s₁, hheaders, hgrows⟩ := making_ok (making_headersObject r) w.toSetting
  let request : Entries := [(.text "method", .text r.method), (.text "path", .text path),
    (.text "query", query), (.text "data", data), (.text "headers", headers)]
  let s₂ : Setting :=
    { s₁ with heap := { s₁.heap with cells := s₁.heap.cells.push (.object request) } }
  let s₃ : Setting :=
    { s₂ with site := { s₂.site with request := .object s₁.heap.cells.size } }
  have hgrows₂ : w.toSetting.Grows s₂ := hgrows.trans (.push s₁ _)
  have hrest : s₂ = { w.toSetting with heap := s₂.heap, nans := s₂.nans } := hgrows₂.rest
  have hsite : s₂.site = w.site := by rw [hrest]
  have hclock : s₃.clock = w.clock := by
    show s₂.clock = _
    rw [hrest]
  have hexchange₃ : s₃.exchange = {} := by
    show s₂.exchange = _
    rw [hrest, ← hexchange]
  have hobject : objectOf [("method", .text r.method), ("path", .text path), ("query", query),
      ("data", data), ("headers", headers)] s₁ = .ok (.object s₁.heap.cells.size) s₂ := rfl
  have hknown : modifySite (fun s => { s with request := .object s₁.heap.cells.size }) s₂ =
      .ok () s₃ := rfl
  have hroute := routeFor_ok hfunctions (s := s₃) (by rw [← hroutes, ← hsite]) path
  refine ⟨{ s₃ with code := w.code }, ⟨rfl, ?_, ?_⟩, ?_⟩
  · rw [← hexchange]
    show Setting.Grows w.toSetting { s₂ with site := w.site }
    rw [← hsite]
    exact hgrows₂
  · refine ⟨s₁.heap.cells.size, query, data, headers, ?_, ?_⟩
    · rw [← hsite]
    · show (s₁.heap.cells.push (.object request))[s₁.heap.cells.size]? = _
      simp [request]
  · refine (bind_ok (Routine.perform_ok hheaders)).trans ?_
    refine (bind_ok (Routine.perform_ok hobject)).trans ?_
    refine (bind_ok (Routine.perform_ok hknown)).trans ?_
    refine (bind_ok (Routine.perform_ok hroute)).trans ?_
    cases hdispatched : dispatched history path with
    | none =>
      have hnull : truthy .null s₃ = .ok false s₃ := rfl
      refine (bind_ok (Routine.perform_ok hnull)).trans ?_
      rw [← hclock]
      exact Routine.perform_ok (refuse_notFound r hexchange₃)
    | some handler =>
      have htruthy := truthy_of_isCallable (hfunctions.dispatched hdispatched) s₃
      exact (bind_ok (Routine.perform_ok htruthy)).trans rfl

theorem Acceptable.parsedPath_ok {parts : Url.Parts} (hr : Acceptable r parts)
    (s : Setting) : parsedPath r s = .ok parts s := by
  unfold parsedPath
  rw [hr.target]
  rfl

/-- A request that a site can answer goes to what its path is registered with. -/
theorem serve_eq (call : Caller) {parts : Url.Parts} (hr : Acceptable r parts)
    {w : World} (h : Registered history w.toSetting) :
    ∃ w', Prepared r parts.path w w' ∧ serve call .site r w =
      match dispatched history parts.path with
      | some handler => answerBy call r handler w'
      | none => .ok () { w' with exchange := { sent := notFound w.clock, refused := true } } := by
  obtain ⟨hroutes, hfunctions⟩ := h.routes
  let w₀ : World := { w with exchange := {} }
  have hparts := hr.parsedPath_ok w₀.toSetting
  obtain ⟨query, w₁, hquery, hgrows₁⟩ :=
    (making_perform (making_queryObject parts.query)).exists_ok (fun _ => id) (s := w₀) trivial
  obtain ⟨data, w₂, hdata, hgrows₂⟩ :=
    (making_perform (making_requestData hr.body)).exists_ok (fun _ => id) (s := w₁) trivial
  have hgrows : World.Grows w₀ w₂ := makingActions.trans hgrows₁ hgrows₂
  have hrest := hgrows.setting.rest
  have hsite : w₂.site = w.site := by rw [hrest]
  have hexchange : w₂.exchange = {} := by rw [hrest]
  obtain ⟨w', hprepared, hanswer⟩ := answerRequest_eq call r (hsite ▸ hroutes) hfunctions hexchange
    parts.path query data
  have hclock : w₂.clock = w.clock := by rw [hrest]
  refine ⟨w', ⟨hprepared.code.trans hgrows.code, ?_, hsite ▸ hprepared.request⟩, ?_⟩
  · have hlast := hprepared.grows
    rw [← hexchange, hsite] at hlast
    exact hgrows.setting.trans hlast
  · have hmethod : (!Service.site.methods.contains r.method) = false := by
      rcases List.mem_cons.1 hr.method with hget | hpost
      · rw [hget]
        rfl
      · rw [List.mem_singleton.1 hpost]
        rfl
    have hbegin : modifyExchange (fun _ => {}) w.toSetting = .ok () w₀.toSetting := rfl
    refine (bind_ok (Routine.perform_ok hbegin)).trans ?_
    rw [if_neg (not_not.2 hr.line), if_neg (by rw [hmethod]; exact Bool.false_ne_true)]
    show answerSite call r w₀ = _
    rw [answerSite, ← hclock, ← hanswer]
    refine (bind_ok (Routine.perform_ok hparts)).trans ?_
    exact (bind_ok hquery).trans (bind_ok hdata)

/-- For every history of registrations and every request that a site can answer, the site runs what
the request's path was registered with last. If it was not registered, the site runs what the first
pattern that it fits was registered with last. If it fits none, no function runs and the status is
404. And a path that a pattern becomes, when names that are not empty are put for those with a
colon, fits it. -/
theorem requests_reach_their_routes {history : List (String × Value)} {w : World}
    (h : Registered history w.toSetting) :
    (∀ (call : Caller) (r : Http.Request) (parts : Url.Parts), Acceptable r parts →
      ∃ w', Prepared r parts.path w w' ∧ serve call .site r w =
        match dispatched history parts.path with
        | some handler => answerBy call r handler w'
        | none => .ok () { w' with exchange := { sent := notFound w.clock, refused := true } }) ∧
    ∀ route path, Filled route path → Fits path route := by
  constructor
  · intro call r parts hr
    exact serve_eq call hr h
  · intro route path hfilled
    exact hfilled.fits

/-- A pattern that is registered twice, and a path that fits it. -/
def threeRoutes : List (String × Value) :=
  [("/u/:id", .function 0), ("/u/me", .function 1), ("/u/:id", .function 2)]

theorem threeRoutes_registered : ∃ w : World, Registered threeRoutes w.toSetting := by
  have hstart : Registered [] ({} : Setting) := .start rfl
  have hfirst := hstart.register (f := .route) (by decide) rfl
    (runSite_register (by decide) "/u/:id" (.function 0) _)
  have hsecond := hfirst.register (f := .get) (by decide) rfl
    (runSite_register (by decide) "/u/me" (.function 1) _)
  have hthird := hsecond.register (f := .post) (by decide) rfl
    (runSite_register (by decide) "/u/:id" (.function 2) _)
  exact ⟨{ toSetting := _ }, hthird⟩

theorem threeRoutes_reached : ∃ w : World, Registered threeRoutes w.toSetting ∧
    dispatched threeRoutes "/u/me" = some (.function 1) ∧ dispatched threeRoutes "/v" = none ∧
    ∀ call, ∃ w', serve call .site { method := "GET", path := "/u/5" } w =
      answerBy call { method := "GET", path := "/u/5" } (.function 2) w' := by
  obtain ⟨w, hw⟩ := threeRoutes_registered
  have hmissed : firstFit "/v" (threeRoutes.map (·.1)) = none := by decide +kernel
  have hfitted : firstFit "/u/5" (threeRoutes.map (·.1)) = some "/u/:id" := by decide +kernel
  refine ⟨w, hw, rfl, by rw [dispatched, hmissed]; rfl, fun call => ?_⟩
  have htarget : (Url.parse (requestPath { method := "GET", path := "/u/5" })).toOption.map
      (·.path) = some "/u/5" := by decide +kernel
  cases hparts : Url.parse (requestPath { method := "GET", path := "/u/5" }) with
  | ok parts =>
    rw [hparts] at htarget
    have hpath : parts.path = "/u/5" := Option.some.inj htarget
    obtain ⟨w', -, hserve⟩ := (requests_reach_their_routes hw).1 call _ parts
      ⟨by decide +kernel, by decide, hparts, by simp⟩
    rw [hpath, dispatched, hfitted] at hserve
    exact ⟨w', hserve⟩
  | error =>
    rw [hparts] at htarget
    cases htarget

/-- A site with one route. -/
def oneRoute : World where
  site := { routes := [(.text "/a", .function 0)] }

/-- A posted request whose length is no number. -/
def withoutLength : Http.Request where
  method := "POST"
  path := "/a"
  headers := [("Content-Length", "abc")]
  body := some "x"

/-- A request whose announced length is no number fails, and what its path is registered with does
not run. -/
theorem withoutLength_fails : Registered [("/a", .function 0)] oneRoute.toSetting ∧
    dispatched [("/a", .function 0)] "/a" = some (.function 0) ∧
    ∃ e w', serve (fun _ _ => pure (.text "ok")) .site withoutLength oneRoute =
      .error (.fault e) w' := by
  have hstart : Registered [] ({} : Setting) := .start rfl
  have hroute := hstart.register (f := .post) (by decide) rfl
    (runSite_register (by decide) "/a" (.function 0) _)
  have hfails : fails Signal.isFault
      (serve (fun _ _ => pure (.text "ok")) .site withoutLength oneRoute) = true := by
      decide +kernel
  obtain ⟨s, w', hrun, hfault⟩ := exists_of_fails hfails
  cases s with
  | fault e => exact ⟨hroute, rfl, e, w', hrun⟩
  | _ => cases hfault

end Package

end ScriptLang
