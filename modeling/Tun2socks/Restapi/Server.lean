import Tun2socks.Go.Url
import Tun2socks.Tunnel.System

/-!
# Tun2socks.Restapi.Server

The way of a request through `restapi/server.go`: the route, the check of the token, the route
below a mounted router, and what the handler does to the tunnel.

`authenticator` stands before every handler that `Start` registers, the mounted ones included:
below `/connections` a request is turned down before its route is looked for. With a token set it
looks at one of two places, the query of a websocket upgrade or the `Authorization` header
(`Request.Carries`). A request that is turned down there has no effect on the tunnel: a run with
such requests is the run without them (`unauthorized_changes_nothing`).

How `chi` matches a path against the patterns that are registered is a parameter, `Chi`.
-/

namespace Tun2socks.Restapi

open Tun2socks.Go Tun2socks.Tunnel

/-- `r.Method`. -/
inductive Method
  | get
  | delete
  /-- any other -/
  | other
  deriving DecidableEq

/-- What the server looks at in a request. -/
structure Request where
  method : Method
  /-- the path, and below a mounted router what its pattern leaves of it -/
  path : List Byte
  /-- `websocket.IsWebSocketUpgrade(r)` -/
  upgrade : Bool
  /-- `r.URL.Query().Get("token")` -/
  token : List Byte
  /-- `r.Header.Get("Authorization")` -/
  authorization : List Byte

/-! ### The token -/

/-- `ErrUnauthorized`. -/
def errUnauthorized : Error := .new "Unauthorized"

/-- The byte that `splitSpace` cuts at. -/
def space : Byte := 0x20

/-- `strings.SplitN(s, " ", 2)`. -/
def splitSpace (s : List Byte) : List (List Byte) :=
  match cut space s with
  | none => [s]
  | some (a, b) => [a, b]

/-- `authenticator(token)(next)`: the error that is rendered, or what `next` does. -/
def authenticator {α : Type} (token : List Byte) (next : Request → α) (r : Request) :
    Except Error α :=
  if token = [] then .ok (next r)
  else if r.upgrade = true ∧ r.token ≠ [] then
    if r.token ≠ token then .error errUnauthorized else .ok (next r)
  else
    let text := splitSpace r.authorization
    let hasInvalidHeader : Bool := text.getD 0 [] ≠ ascii "Bearer"
    let hasInvalidToken : Bool := text.length ≠ 2 ∨ text.getD 1 [] ≠ token
    if hasInvalidHeader ∨ hasInvalidToken then .error errUnauthorized else .ok (next r)

/-- The request names the token where the server looks for it. -/
def Request.Carries (token : List Byte) (r : Request) : Prop :=
  if r.upgrade = true ∧ r.token ≠ [] then r.token = token
  else r.authorization = ascii "Bearer " ++ token

instance (token : List Byte) (r : Request) : Decidable (r.Carries token) :=
  inferInstanceAs (Decidable (if r.upgrade = true ∧ r.token ≠ [] then r.token = token
    else r.authorization = ascii "Bearer " ++ token))

/-- The header is the word `Bearer`, one space and the token, which may have spaces itself. -/
theorem splitSpace_iff (token s : List Byte) :
    ((splitSpace s).getD 0 [] = ascii "Bearer" ∧ (splitSpace s).length = 2 ∧
      (splitSpace s).getD 1 [] = token) ↔ s = ascii "Bearer " ++ token := by
  have hspace : space ∉ ascii "Bearer" := by decide
  have hword : ascii "Bearer " ++ token = ascii "Bearer" ++ space :: token := rfl
  rw [hword]
  constructor
  · intro ⟨hhead, hlen, htoken⟩
    unfold splitSpace at hhead hlen htoken
    cases hcut : cut space s with
    | none => simp [hcut] at hlen
    | some p =>
      obtain ⟨a, b⟩ := p
      rw [hcut] at hhead htoken
      obtain ⟨rfl, -⟩ := cut_eq_some.mp hcut
      rw [← show a = ascii "Bearer" from hhead, ← show b = token from htoken]
  · rintro rfl
    rw [splitSpace, cut_eq_some.mpr ⟨rfl, hspace⟩]
    exact ⟨rfl, rfl, rfl⟩

/-- `authenticator` lets through who carries the token, and everybody if there is none. -/
theorem authenticator_eq {α : Type} (token : List Byte) (next : Request → α) (r : Request) :
    authenticator token next r =
      if token = [] ∨ r.Carries token then .ok (next r) else .error errUnauthorized := by
  unfold authenticator
  by_cases htoken : token = []
  · simp [htoken]
  by_cases hquery : r.upgrade = true ∧ r.token ≠ []
  · have hcarries : r.Carries token ↔ r.token = token := by rw [Request.Carries, if_pos hquery]
    by_cases heq : r.token = token
    · simp [htoken, hquery, hcarries, heq]
    · simp [htoken, hquery, hcarries, heq]
  · have hcarries : r.Carries token ↔ r.authorization = ascii "Bearer " ++ token := by
      rw [Request.Carries, if_neg hquery]
    rw [← splitSpace_iff] at hcarries
    rw [if_neg htoken, if_neg hquery]
    dsimp only
    simp only [decide_eq_true_eq]
    by_cases hheader : r.Carries token
    · obtain ⟨hhead, hlen, hrest⟩ := hcarries.mp hheader
      exact (if_neg (by simp only [hhead, hlen, hrest]; simp)).trans (if_pos (.inr hheader)).symm
    · refine (if_pos ?_).trans (if_neg (not_or.mpr ⟨htoken, hheader⟩)).symm
      by_contra hnot
      rw [not_or, not_or, not_not, not_not, not_not] at hnot
      exact hheader (hcarries.mpr hnot)

/-! ### The routes -/

/-- A handler that answers a request, with the values of its pattern. -/
inductive Handler
  | hello
  | traffic
  | version
  | getConnections
  | closeAllConnections
  | closeConnection (id : List Byte)
  | getNetStats
  deriving DecidableEq

/-- What is registered with a router: by `Get` or `Delete`, or by `Mount`, which takes every
method. -/
structure Route (α : Type) where
  method : Option Method
  pattern : String
  handler : α

/-- A route that a request has matched, with what it leaves of the path and `chi.URLParam`. -/
structure Match (α : Type) where
  handler : α
  path : List Byte
  param : String → List Byte

/-- A `chi` router: the route that a method and a path match among those registered. -/
structure Chi where
  find : {α : Type} → List (Route α) → Method → List Byte → Option (Match α)

/-- What `Start` registers: a handler, or a router of its own. -/
inductive Endpoint
  | handler (handler : Handler)
  | router (routes : List (Route ((String → List Byte) → Handler)))

/-- `connectionRouter()`. -/
def connectionRouter : List (Route ((String → List Byte) → Handler)) :=
  [⟨some .get, "/", fun _ => .getConnections⟩,
    ⟨some .delete, "/", fun _ => .closeAllConnections⟩,
    ⟨some .delete, "/{id}", fun param => .closeConnection (param "id")⟩]

/-- `_endpoints`. -/
def endpoints : List (String × Endpoint) :=
  [("/connections", .router connectionRouter), ("/netstats", .handler .getNetStats)]

/-- The routes of `Start`, each behind `authenticator`. -/
def routes : List (Route Endpoint) :=
  [⟨some .get, "/", .handler .hello⟩, ⟨some .get, "/traffic", .handler .traffic⟩,
    ⟨some .get, "/version", .handler .version⟩] ++
    endpoints.map fun e => ⟨none, e.1, e.2⟩

/-- The answer of the server, in place of a handler. -/
inductive Refusal
  /-- no such route, or not with this method -/
  | noRoute
  | rendered (err : Error)

/-- `ServeHTTP` of what is registered. -/
def Endpoint.serve (chi : Chi) : Endpoint → Request → Except Refusal Handler
  | .handler h, _ => .ok h
  | .router below, r =>
    match chi.find below r.method r.path with
    | none => .error .noRoute
    | some found => .ok (found.handler found.param)

/-- The handler that a request gets to. -/
def serve (chi : Chi) (token : List Byte) (r : Request) : Except Refusal Handler :=
  match chi.find routes r.method r.path with
  | none => .error .noRoute
  | some found =>
    match authenticator token (found.handler.serve chi) { r with path := found.path } with
    | .error err => .error (.rendered err)
    | .ok answer => answer

/-- What a handler asks of the tunnel: to close the connection with an id, or all of them. -/
def Handler.closes : Handler → Option (Option (List Byte))
  | .closeAllConnections => some none
  | .closeConnection id => some (some id)
  | .hello | .traffic | .version | .getConnections | .getNetStats => none

/-- Nobody gets to a handler without the token. -/
theorem serve_ok {chi : Chi} {token : List Byte} {r : Request} {handler : Handler}
    (h : serve chi token r = .ok handler) : token = [] ∨ r.Carries token := by
  unfold serve at h
  split at h
  · cases h
  · by_contra hnot
    rw [authenticator_eq, if_neg (by exact hnot)] at h
    cases h

/-! ### The tunnel -/

section Tunnel

variable {ι ρ G : Type} [Fintype ι] [DecidableEq ι] [DecidableEq ρ] [AddCommGroupWithOne G]
  {uuid : ι → List Byte}

/-- The request whose step it is, if it is not one of the sessions or of the manager. -/
def ofRequest : Goroutines.Action ι Act (Other ρ (List Byte)) → Option ρ
  | .other (.request r _) | .other (.visit r _) | .other (.snapshot r) | .other (.close r) => some r
  | .other .tick | .proc .. => none

/-- A request is begun by the handler that `req` has got it to. -/
def Served (chi : Chi) (token : List Byte) (req : ρ → Request)
    (acts : List (Goroutines.Action ι Act (Other ρ (List Byte)))) : Prop :=
  ∀ r id, .other (.request r id) ∈ acts →
    ∃ handler, serve chi token (req r) = .ok handler ∧ handler.closes = some id

/-- The sessions do not touch the requests. -/
theorem rest_effect (i : ι) (e : Option Effect) (g : Shared ι ρ (List Byte) G) :
    ((tunnel uuid).apply i e g).rest = g.rest := by
  rcases e with _ | e
  · rfl
  · cases e <;> rfl

/-- Nor does one request touch another. -/
theorem rest_other {g : Shared ι ρ (List Byte) G} {r : ρ} {b : Other ρ (List Byte)}
    (hb : ofRequest (.other b : Goroutines.Action ι Act _) ≠ some r) :
    (Shared.other uuid b g).rest r = g.rest r := by
  have hne : ∀ {r'}, some r' ≠ some r → ∀ (g : Shared ι ρ (List Byte) G) rest,
      (g.request r' rest).rest r = g.rest r := by
    intro r' h g rest
    exact Shared.rest_request_of_ne (fun heq => h (by rw [heq])) g rest
  cases b with
  | tick => rfl
  | request r' id =>
    simp only [Shared.other]
    split
    · exact hne hb _ _
    · rfl
  | visit r' key =>
    simp only [Shared.other]
    split
    · split
      · rfl
      · exact hne hb _ _
    · rfl
  | snapshot r' =>
    simp only [Shared.other]
    split
    · split
      · exact hne hb _ _
      · rfl
    · rfl
  | close r' =>
    simp only [Shared.other]
    split
    · exact hne hb _ _
    · exact hne hb _ _
    · exact hne hb _ _
    · rfl

variable {s : Goroutines.State ι (Tunnel.Session G) (Shared ι ρ (List Byte) G)}
  {a : Goroutines.Action ι Act (Other ρ (List Byte))} {r : ρ}

theorem rest_step (h : ofRequest a ≠ some r) :
    ((tunnel uuid).step s a).shared.rest r = s.shared.rest r := by
  cases a with
  | proc i a => exact congrFun (rest_effect i _ s.shared) r
  | other b => exact rest_other h

/-- A step of a request that has not begun does nothing. -/
theorem step_ofRequest (h : s.shared.rest r = .idle) (hof : ofRequest a = some r)
    (ha : ∀ id, a ≠ .other (.request r id)) : (tunnel uuid).step s a = s := by
  cases a with
  | proc i a => cases hof
  | other b =>
    cases b with
    | tick => cases hof
    | request r' id =>
      obtain rfl := Option.some.inj hof
      exact absurd rfl (ha id)
    | visit r' key =>
      obtain rfl := Option.some.inj hof
      simp [Goroutines.step, tunnel, Shared.other, h]
    | snapshot r' =>
      obtain rfl := Option.some.inj hof
      simp [Goroutines.step, tunnel, Shared.other, h]
    | close r' =>
      obtain rfl := Option.some.inj hof
      simp [Goroutines.step, tunnel, Shared.other, h]

/-- The steps of requests that never begin can be left out. -/
theorem run_filter (begins : ρ → Bool)
    (acts : List (Goroutines.Action ι Act (Other ρ (List Byte))))
    (ha : ∀ r id, .other (.request r id) ∈ acts → begins r = true)
    (h : ∀ r, begins r = false → s.shared.rest r = .idle) :
    (tunnel uuid).run s acts =
      (tunnel uuid).run s (acts.filter fun a => (ofRequest a).all begins) := by
  induction acts generalizing s with
  | nil => rfl
  | cons a acts ih =>
    replace ih := fun {s'} => ih (s := s') fun r id hmem => ha r id (List.mem_cons_of_mem a hmem)
    rw [Goroutines.run_cons]
    cases hkeep : (ofRequest a).all begins with
    | true =>
      rw [List.filter_cons_of_pos (by exact hkeep), Goroutines.run_cons]
      refine ih fun r hr => ?_
      rw [rest_step ?_]
      · exact h r hr
      · intro hof
        simp [hof, hr] at hkeep
    | false =>
      obtain ⟨r, hof, hr⟩ : ∃ r, ofRequest a = some r ∧ begins r = false := by
        cases hof : ofRequest a with
        | none => simp [hof] at hkeep
        | some r => exact ⟨r, rfl, by simpa [hof] using hkeep⟩
      have hne : ∀ id, a ≠ .other (.request r id) := by
        rintro id rfl
        simp [ha r id List.mem_cons_self] at hr
      rw [List.filter_cons_of_neg (by simp [hkeep]), step_ofRequest (h r hr) hof hne, ih h]

variable (network : ι → Network) (dst : ι → String)

/-- **Without the token nobody touches the tunnel.** However `chi` routes, if the server has a
token, every run leaves the sessions, the manager and the list of connections as they are without
the requests that do not carry it. -/
theorem unauthorized_changes_nothing
    (acts : List (Goroutines.Action ι Act (Other ρ (List Byte)))) {chi : Chi}
    {token : List Byte} (htoken : token ≠ []) {req : ρ → Request}
    (hserved : Served chi token req acts) :
    tunnelRun ρ (List Byte) G uuid network dst acts =
      tunnelRun ρ (List Byte) G uuid network dst
        (acts.filter fun a => (ofRequest a).all fun r => (req r).Carries token) := by
  refine run_filter _ acts (fun r id hmem => ?_) fun _ _ => rfl
  obtain ⟨handler, hok, -⟩ := hserved r id hmem
  exact decide_eq_true ((serve_ok hok).resolve_left htoken)

/-- A router for patterns without parameters: the first route that fits. -/
def Chi.plain : Chi where
  find routes method path := routes.findSome? fun route =>
    match route.method with
    | some m =>
      if m = method ∧ ascii route.pattern = path then some ⟨route.handler, path, fun _ => []⟩
      else none
    | none =>
      if (ascii route.pattern).isPrefixOf path then
        let rest := path.drop route.pattern.length
        some ⟨route.handler, if rest = [] then ascii "/" else rest, fun _ => []⟩
      else none

/-- One session, and two requests to close everything, the first of them without the token. -/
theorem unauthorized_changes_nothing_two :
    let req : Bool → Request := fun b =>
      ⟨.delete, ascii "/connections", false, [], if b then ascii "Bearer key" else ascii "Bearer"⟩
    let session : List (Goroutines.Action Unit Act (Other Bool (List Byte))) :=
      [.proc () (.dial none), .proc () .handler]
    let acts := session ++ [.other (.visit false []), .other (.request true none),
      .other (.close false)]
    Served .plain (ascii "key") req acts ∧
      tunnelRun Bool (List Byte) (BitVec 64) (fun _ => []) (fun _ => .tcp)
        (fun _ => "192.0.2.1:80") acts =
      tunnelRun Bool (List Byte) (BitVec 64) (fun _ => []) (fun _ => .tcp)
        (fun _ => "192.0.2.1:80") (session ++ [.other (.request true none)]) := by
  intro req session acts
  have hserved : Served .plain (ascii "key") req acts := by
    intro r id hmem
    obtain ⟨rfl, rfl⟩ : r = true ∧ id = none := by simpa [acts, session] using hmem
    exact ⟨.closeAllConnections, rfl, rfl⟩
  exact ⟨hserved, unauthorized_changes_nothing (fun _ => .tcp) (fun _ => "192.0.2.1:80") acts
    (by decide) hserved⟩

end Tunnel

end Tun2socks.Restapi
