import AgentTree.AsciiJson
import AgentTree.HTTPRequests
import AgentTree.Metrics
import AgentTree.Pool

/-!
The HTTP server of `api.py` as a whole: request threads that run `_dispatch` interleaved with each other, with the
thread of `serve` and with signal handlers.  A write to a connection may fail; what the control plane answers is a
parameter.
-/

namespace AgentTree.Api

open Concurrent

/-- Everything a run of the server takes from outside. -/
structure Site (ι : Type) where
  platform : Platform
  settings : ServerSettings
  /-- The digest that hides a tenant's name in the counters. -/
  digest : String → String
  request : ι → Request
  requestId : ι → String
  answer : ι → Except PyError Json
  uptime : ι → Nat

/-- What `wfile` carries. -/
inductive Chunk : Type
  | head (status : Nat) (headers : List (String × String))
  | body (bytes : Bytes)

/-- What is known about one request: its connection, its calls of the control plane, and its entry in the counters. -/
structure Desk where
  wire : List Chunk
  calls : List ControlCall
  inside : Bool
  counted : Option Nat

def Desk.empty : Desk := ⟨[], [], false, none⟩

structure Server (ι : Type) where
  http : HTTPState ι Bool
  metrics : Metrics
  desks : ι → Desk

/-- A thread; only `serve` has something to return. -/
abbrev Handler (ι : Type) := Prog (Server ι) Fault

def headers (contentType : String) (length : Nat) (requestId : String) : List (String × String) := [
  ("Content-Type", contentType), ("Content-Length", toString length), ("Cache-Control", "no-store"),
  ("X-Content-Type-Options", "nosniff"), ("X-Frame-Options", "DENY"), ("Referrer-Policy", "no-referrer"),
  ("X-Request-ID", requestId), ("Connection", "close")]

/-- `json.dumps` of an error reply. -/
def APIError.payload (error : APIError) (requestId : String) : Json := .obj [
  ("error", .obj [("code", .str error.code), ("message", .str error.message)]), ("request_id", .str requestId)]

/-- `200 if payload.get("ready") else 503`; the flag of `readiness` is a bool. -/
def readyStatus : Json → Except Fault Nat
  | .obj members => .ok (if members.lookup "ready" = some (.bool true) then 200 else 503)
  | _ => .error (.raised (.other "AttributeError" "get"))

def replyStatus (call : ControlCall) (payload : Json) : Except Fault Nat :=
  match call with
  | .readiness => readyStatus payload
  | _ => .ok 200

namespace Site

variable {ι : Type} (site : Site ι)

/-- The path and the query of a request, where it has them. -/
def parts (i : ι) : Except PyError (String × String) := site.platform.urlsplit (site.request i).path

/-- The route that is counted for a request. -/
def routed (i : ι) : String × List (String × String) :=
  match site.parts i with
  | .ok (path, _) => matchRoute path
  | .error _ => unmatched

def incoming (i : ι) : Incoming := ⟨(site.request i).method, (site.routed i).1⟩

def start : Server ι where
  http := .start site.settings.maxWorkers site.settings.maxOperationalWorkers
  metrics := .new
  desks _ := .empty

/-- An entry of `http_requests_total`. -/
def increment (i : ι) (status : Nat) : Metrics.Increment :=
  ⟨"http_requests_total", .ofList [
    ("method", (site.request i).method), ("route", (site.routed i).1), ("status", toString status)], 1⟩

def key (i : ι) (status : Nat) : MetricKey := (site.increment i status).key site.digest

section Programs

variable [DecidableEq ι]

def atDesk (i : ι) (change : Desk → Desk) (server : Server ι) : Server ι :=
  { server with desks := Function.update server.desks i (change (server.desks i)) }

def update (i : ι) (change : Desk → Desk) : Handler ι Unit := .act (atDesk i change) fun _ => .done (.ok ())

/-- A call of Python's library that may raise. -/
def mayRaise : Handler ι Unit :=
  .hazard (.done (.ok ())) fun
    | .raised error => .done (.error (.raised error))
    | .api _ => .done (.ok ())

def write (i : ι) (chunk : Chunk) : Handler ι Unit := do
  mayRaise
  update i fun desk => { desk with wire := desk.wire ++ [chunk] }

def send (i : ι) (status : Nat) (contentType : String) (body : Bytes) : Handler ι Nat := do
  write i (.head status (headers contentType body.length (site.requestId i)))
  write i (.body body)
  return status

def json (i : ι) (status : Nat) (payload : Json) : Handler ι Nat :=
  site.send i status "application/json" payload.dumps

def text (i : ι) (status : Nat) (payload : String) : Handler ι Nat :=
  site.send i status "text/plain; version=0.0.4" (utf8 payload)

def error (i : ι) (error : APIError) : Handler ι Unit := do
  let _ ← site.json i error.status (error.payload (site.requestId i))

/-- A section of `admit_request` or `release_admission`, and where the request stands after it. -/
def runSection (i : ι) : Handler ι RequestPhase :=
  .atomic fun server =>
    let http := server.http.advance site.incoming i
    .ok (http.requests i, { server with http })

/-- `admit_request`: the sections that are left, up to a rejection. -/
def admitRequest (i : ι) : (sections : Nat) → Handler ι (Option String)
  | 0 => return none
  | sections + 1 => do
      match ← site.runSection i with
      | .rejected code => return some code
      | .raised error => throw (.raised error)
      | _ => admitRequest i sections

/-- `release_admission`. -/
def releaseAdmission (i : ι) : Handler ι Unit := do
  match ← site.runSection i with
  | .raised error => throw (.raised error)
  | .returning =>
      match ← site.runSection i with
      | .raised error => throw (.raised error)
      | _ => return ()
  | _ => return ()

/-- A call of the control plane. -/
def control (i : ι) (call : ControlCall) : Handler ι Json := do
  update i fun desk => { desk with calls := desk.calls ++ [call], inside := true }
  update i fun desk => { desk with inside := false }
  .ofExcept (raisedBy (site.answer i))

def respond (i : ι) : Target → Handler ι Nat
  | .metrics => do
      let exposed ← Prog.atomic fun server => .ok (server.metrics.render (site.uptime i), server)
      site.text i 200 exposed
  | .control call => do
      let payload ← site.control i call
      let status ← .ofExcept (replyStatus call payload)
      site.json i status payload

/-- The status that a request is counted with, and what its except clause raised. -/
abbrev Outcome := Nat × Option Fault

/-- The body of `_dispatch` under its except clauses. -/
def guarded (i : ι) (body : Handler ι Nat) : Handler ι Outcome :=
  (do
    let status ← body
    return (status, none)).tryCatch fun fault =>
      let answer := failure site.platform fault
      (do
        site.error i answer
        return (answer.status, none)).tryCatch fun raised => return (answer.status, some raised)

def count (i : ι) (status : Nat) : Handler ι Unit :=
  .atomic fun server => do
    let call := site.increment i status
    let metrics ← raisedBy (Metrics.increment site.digest server.metrics call.name call.value call.labels)
    return ((), { atDesk i (fun desk => { desk with counted := some status }) server with metrics })

/-- The finally clause of `_dispatch`, and the exception that goes on after it. -/
def conclude (i : ι) (admitted : Bool) (outcome : Outcome) : Handler ι (Option Bool) := do
  (if admitted then site.releaseAdmission i else .done (.ok ()))
  site.count i outcome.1
  match outcome.2 with
  | some raised => throw raised
  | none => return none

def rejection (code : String) : APIError :=
  ⟨503, code, if code = "draining" then "server is draining"
    else if code = "operational_overloaded" then "operational concurrency limit reached"
    else "worker concurrency limit reached"⟩

/-- `_dispatch`: an exception of `urlsplit` or of `admit_request` is answered without an admission. -/
def dispatch (i : ι) : Handler ι (Option Bool) := do
  match site.parts i with
  | .error error => site.conclude i false (← site.guarded i (throw (.raised error)))
  | .ok (_, query) =>
      let (route, parameters) := site.routed i
      let entered ← (do
        let rejected ← site.admitRequest i 3
        return Except.ok rejected).tryCatch fun fault => return .error fault
      match entered with
      | .error fault => site.conclude i false (← site.guarded i (throw fault))
      | .ok (some code) =>
          site.conclude i false (← site.guarded i do
            site.error i (rejection code)
            return 503)
      | .ok none =>
          site.conclude i true (← site.guarded i do
            let reached ← .ofExcept (target site.platform site.settings (site.request i) query route parameters)
            site.respond i reached)

end Programs

end Site

/-! The thread of `serve`. -/

/-- What the end of `serve` goes through. -/
structure Shutdown where
  /-- `control.begin_draining`, where there is one. -/
  beginDraining : Option (Except PyError Unit)
  /-- How `serve_forever` ends. -/
  served : Except PyError Unit
  shutdownTimeout : ℚ
  /-- Whether the time was over, at each time the first wait was woken before its last look. -/
  wakes : List Bool
  cancelActive : Option (Except PyError Unit)
  remaining : ℚ
  wakesAfter : List Bool

namespace Site

variable {ι : Type} [DecidableEq ι]

/-- A look of `wait_for_drain` at the count. -/
def look (w : Bool) (change : HTTPState ι Bool → HTTPState ι Bool) : Handler ι DrainCall :=
  .atomic fun server =>
    let http := change server.http
    .ok (http.drains w, { server with http })

/-- The looks that a waiting call takes; at the last one its time is over. -/
def awake (w : Bool) : List Bool → Handler ι Bool
  | [] => do
      match ← look w fun http => http.wakeDrain w true with
      | .returned drained => return drained
      | .raised error => throw (.raised error)
      | _ => return false
  | expired :: later => do
      match ← look w fun http => http.wakeDrain w expired with
      | .returned drained => return drained
      | .raised error => throw (.raised error)
      | _ => awake w later

def waitForDrain (w : Bool) (timeout : ℚ) (wakes : List Bool) : Handler ι Bool := do
  match ← look w fun http => http.callDrain w timeout with
  | .returned drained => return drained
  | .raised error => throw (.raised error)
  | _ => awake w wakes

/-- The call of `begin_draining` at the end of `serve`. -/
def shutGate (control : Option (Except PyError Unit)) : Handler ι Bool :=
  .atomic fun server =>
    let begun := server.http.server.beginDraining control
    (raisedBy begun.1).map fun changed => (changed, { server with http := { server.http with server := begun.2 } })

def cancel : Option (Except PyError Unit) → Handler ι Unit
  | some report => Prog.ofExcept (raisedBy report)
  | none => .done (.ok ())

/-- What still runs is cancelled, and waited for once more. -/
def forceDrain (shutdown : Shutdown) : Handler ι Bool := do
  cancel shutdown.cancelActive
  waitForDrain true shutdown.remaining shutdown.wakesAfter

/-- The finally clause of `serve`; the exception of `serve_forever` goes on after it. -/
def serve (shutdown : Shutdown) : Handler ι (Option Bool) := do
  let _ ← shutGate shutdown.beginDraining
  let graceful ← waitForDrain false shutdown.shutdownTimeout shutdown.wakes
  let _ ← (if graceful then .done (.ok true) else forceDrain shutdown)
  Prog.ofExcept (raisedBy shutdown.served)
  return some graceful

end Site

/-- What happens beside the threads: a signal handler drains the server, and the control plane counts. -/
inductive Beside {ι : Type} (digest : String → String) : Server ι → Server ι → Prop
  | signal {server} (control : Option (Except PyError Unit)) : Beside digest server
      { server with http := { server.http with server := (server.http.server.beginDraining control).2 } }
  | counted {server metrics} (call : Metrics.Increment) : call.name ≠ "http_requests_total" →
      Metrics.increment digest server.metrics call.name call.value call.labels = .ok metrics →
      Beside digest server { server with metrics }

/-- A process of the server; nothing survives it. -/
def Site.service {ι : Type} [DecidableEq ι] (site : Site ι) (shutdown : Shutdown) :
    Service (Option ι) (Server ι) Fault (Option Bool) where
  call
    | some i => site.dispatch i
    | none => Site.serve shutdown
  surroundings := Beside site.digest
  recovery _ _ := False

/-! What a section does to the request that runs it, and to nothing else. -/

section Sections

variable {ι : Type} [DecidableEq ι] {incoming : ι → Incoming} {state : HTTPState ι Bool}

theorem advance_eq (incoming : ι → Incoming) (state : HTTPState ι Bool) (i : ι) : ∃ server phase, state.advance incoming i =
    { state with server, requests := Function.update state.requests i phase } := by
  unfold HTTPState.advance
  cases stands : state.requests i with
  | arriving => dsimp only; split <;> exact ⟨_, _, rfl⟩
  | gated => dsimp only; split <;> exact ⟨_, _, rfl⟩
  | permitted => dsimp only; split <;> exact ⟨_, _, rfl⟩
  | admitted => dsimp only; split <;> exact ⟨_, _, rfl⟩
  | returning => dsimp only; split <;> exact ⟨_, _, rfl⟩
  | released => exact ⟨state.server, state.requests i, by simp⟩
  | rejected code => exact ⟨state.server, state.requests i, by simp⟩
  | raised error => exact ⟨state.server, state.requests i, by simp⟩

theorem advance_drains (i : ι) : (state.advance incoming i).drains = state.drains := by
  obtain ⟨server, phase, same⟩ := advance_eq incoming state i
  rw [same]

theorem advance_other {i j : ι} (other : j ≠ i) : (state.advance incoming i).requests j = state.requests j := by
  obtain ⟨server, phase, same⟩ := advance_eq incoming state i
  rw [same]
  exact Function.update_of_ne other _ _

/-- Where a request stands with this many sections of `admit_request` before it. -/
def ahead : Nat → RequestPhase
  | 0 => .admitted
  | 1 => .permitted
  | 2 => .gated
  | _ => .arriving

theorem advance_entering {permits : Bool → Nat} {i : ι} {sections : Nat} (few : sections < 3)
    (balanced : state.Balanced incoming permits) (stands : state.requests i = ahead (sections + 1)) :
    (state.advance incoming i).requests i = ahead sections ∨
      ∃ code, (state.advance incoming i).requests i = .rejected code := by
  have calm := (balanced.advance i).calm i
  obtain rfl | rfl | rfl : sections = 0 ∨ sections = 1 ∨ sections = 2 := by omega
  all_goals
    revert calm
    simp only [HTTPState.advance, stands, ahead]
    split <;> simp

theorem advance_admitted {permits : Bool → Nat} {i : ι} (balanced : state.Balanced incoming permits)
    (stands : state.requests i = .admitted) :
    (state.advance incoming i).requests i = .released ∨ (state.advance incoming i).requests i = .returning := by
  have calm := (balanced.advance i).calm i
  revert calm
  simp only [HTTPState.advance, stands]
  split
  next => cases (incoming i).operational <;> simp
  next => simp

theorem advance_returning {permits : Bool → Nat} {i : ι} (balanced : state.Balanced incoming permits)
    (stands : state.requests i = .returning) : (state.advance incoming i).requests i = .released := by
  have calm := (balanced.advance i).calm i
  revert calm
  simp only [HTTPState.advance, stands]
  split <;> simp

end Sections

/-! The contract of the threads. -/

def Unfinished (wire : List Chunk) : Prop := ∀ chunk ∈ wire, ∃ status fields, chunk = .head status fields

/-- One whole reply, after any number of heads whose bodies were not sent. -/
def Replied (wire : List Chunk) (status : Nat) (requestId : String) : Prop :=
  ∃ before contentType body, Unfinished before ∧
    wire = before ++ [.head status (headers contentType body.length requestId), .body body]

/-- A request stands at a phase, with this desk. -/
def Here {ι : Type} (i : ι) (phase : RequestPhase) (desk : Desk) (server : Server ι) : Prop :=
  server.http.requests i = phase ∧ server.desks i = desk

namespace Site

variable {ι : Type} (site : Site ι)

/-- The request asks for the call, and whoever sent it may make it. -/
def Permitted (i : ι) (call : ControlCall) : Prop :=
  ∃ path query, site.parts i = .ok (path, query) ∧ Authorised site.platform site.settings (site.request i) path call

def Counted (key : MetricKey) (i : ι) (desk : Desk) : Prop :=
  ∃ status, desk.counted = some status ∧ site.key i status = key

section Contract

variable [DecidableEq ι]

structure Inv (server : Server ι) : Prop where
  reached : HTTPState.Run site.incoming
    (.start site.settings.maxWorkers site.settings.maxOperationalWorkers) server.http
  inside : ∀ i, (server.desks i).inside = true → server.http.requests i = .admitted
  once : ∀ i call, call ∈ (server.desks i).calls → (server.desks i).calls = [call] ∧ site.Permitted i call
  counted : ∀ key : MetricKey, (ofLex key).1 = "http_requests_total" →
    Numbers server.desks (site.Counted key) (server.metrics.count key)

def rely : Option ι → Server ι → Server ι → Prop
  | some i, s, t => HTTPState.Run site.incoming s.http t.http ∧ Here i (s.http.requests i) (s.desks i) t
  | none, s, t => HTTPState.Run site.incoming s.http t.http ∧ t.http.drains = s.http.drains

def guar : Option ι → Server ι → Server ι → Prop
  | some i, s, t => HTTPState.Run site.incoming s.http t.http ∧ t.http.drains = s.http.drains ∧
      ∀ j, j ≠ i → Here j (s.http.requests j) (s.desks j) t
  | none, s, t => HTTPState.Run site.incoming s.http t.http ∧ ∀ j, Here j (s.http.requests j) (s.desks j) t

/-- The request is out of the server, is counted once, and has got one whole reply or its connection has failed. -/
def Concluded (i : ι) (result : Except Fault (Option Bool)) (phase : RequestPhase) (desk : Desk) : Prop :=
  (phase = .released ∨ phase = .arriving ∨ ∃ code, phase = .rejected code) ∧ desk.inside = false ∧
  ∃ status, desk.counted = some status ∧
    match result with
    | .ok graceful => graceful = none ∧ Replied desk.wire status (site.requestId i)
    | .error _ => Unfinished desk.wire

/-- Nothing unreleased is left, now or later. -/
def Drained (server : Server ι) : Prop :=
  ∀ later, HTTPState.Run site.incoming server.http later →
    ∀ i, ¬ HTTPState.Unreleased site.incoming i (later.requests i)

def pre : Option ι → Server ι → Prop
  | some i, server => Here i .arriving .empty server
  | none, server => ∀ w, server.http.drains w = .idle

def post : Option ι → Except Fault (Option Bool) → Server ι → Prop
  | some i, result, server => site.Concluded i result (server.http.requests i) (server.desks i)
  | none, result, server => ∀ graceful, result = .ok (some graceful) →
      server.http.server.draining = true ∧ (graceful = true → site.Drained server)

variable {site}

theorem rely_refl (i : Option ι) (s : Server ι) : site.rely i s s := by
  cases i with
  | none => exact ⟨.refl, rfl⟩
  | some i => exact ⟨.refl, rfl, rfl⟩

theorem rely_trans (i : Option ι) {s t u : Server ι} (first : site.rely i s t) (second : site.rely i t u) :
    site.rely i s u := by
  cases i with
  | none => exact ⟨first.1.trans second.1, second.2.trans first.2⟩
  | some i => exact ⟨first.1.trans second.1, second.2.1.trans first.2.1, second.2.2.trans first.2.2⟩

theorem compatible {i j : Option ι} {s t : Server ι} (other : i ≠ j) (promised : site.guar i s t) :
    site.rely j s t := by
  cases i with
  | none =>
      cases j with
      | none => exact absurd rfl other
      | some j => exact ⟨promised.1, promised.2 j⟩
  | some i =>
      cases j with
      | none => exact ⟨promised.1, promised.2.1⟩
      | some j => exact ⟨promised.1, promised.2.2 j fun same => other (by rw [same])⟩

def contract (site : Site ι) (i : Option ι) : Contract (Server ι) :=
  ⟨site.Inv, site.rely i, site.guar i, rely_refl i, rely_trans i⟩

theorem Inv.balanced {server : Server ι} (inv : site.Inv server) : server.http.Balanced site.incoming
    fun operational => if operational then site.settings.maxOperationalWorkers else site.settings.maxWorkers :=
  (HTTPState.balanced_start _ _).run inv.reached

end Contract

end Site

/-! What a request thread does to its own phase and desk, whatever the others do. -/

namespace Site

variable {ι α β : Type} [DecidableEq ι] {site : Site ι} {i : ι} {phase : RequestPhase} {desk : Desk}

/-- A triple about the phase and the desk of one request. -/
def Triple (site : Site ι) (i : ι) (p : Handler ι α) (phase : RequestPhase) (desk : Desk)
    (post : Except Fault α → RequestPhase → Desk → Prop) : Prop :=
  ∀ server, site.Inv server → Here i phase desk server →
    p.wp (site.contract (some i)) (fun result t => post result (t.http.requests i) (t.desks i)) server

variable {p : Handler ι α} {post m : Except Fault α → RequestPhase → Desk → Prop}

theorem Here.relied {s t : Server ι} (here : Here i phase desk s) (moved : site.rely (some i) s t) :
    Here i phase desk t :=
  ⟨moved.2.1.trans here.1, moved.2.2.trans here.2⟩

theorem triple_done {result : Except Fault α} (exit : post result phase desk) :
    site.Triple i (.done result) phase desk post := by
  intro server _ here
  refine Prog.wp_done fun t _ moved => ?_
  obtain ⟨phase, desk⟩ := Here.relied here moved
  rwa [phase, desk]

theorem triple_bind {rest : α → Handler ι β} {post : Except Fault β → RequestPhase → Desk → Prop}
    (first : site.Triple i p phase desk m)
    (later : ∀ value phase desk, m (.ok value) phase desk → site.Triple i (rest value) phase desk post)
    (raised : ∀ fault phase desk, m (.error fault) phase desk → post (.error fault) phase desk) :
    site.Triple i (p.bind rest) phase desk post := by
  intro server inv here
  refine Prog.wp_bind inv (Prog.wp_mono ?_ (first server inv here))
  intro result t invT reached
  cases result with
  | ok value => exact later value _ _ reached t invT ⟨rfl, rfl⟩
  | error fault => exact raised fault _ _ reached

theorem triple_tryCatch {handler : Fault → Handler ι α} (body : site.Triple i p phase desk m)
    (returns : ∀ value phase desk, m (.ok value) phase desk → post (.ok value) phase desk)
    (handles : ∀ fault phase desk, m (.error fault) phase desk → site.Triple i (handler fault) phase desk post) :
    site.Triple i (p.tryCatch handler) phase desk post := by
  intro server inv here
  refine Prog.wp_tryCatch inv (Prog.wp_mono ?_ (body server inv here))
  intro result t invT reached
  cases result with
  | ok value => exact returns value _ _ reached
  | error fault => exact handles fault _ _ reached t invT ⟨rfl, rfl⟩

theorem triple_mono (weaken : ∀ result phase desk, m result phase desk → post result phase desk)
    (holds : site.Triple i p phase desk m) : site.Triple i p phase desk post := by
  intro server inv here
  exact Prog.wp_mono (fun result t _ => weaken result _ _) (holds server inv here)

/-- A change of the own desk that leaves the counters alone. -/
theorem triple_update {change : Desk → Desk} {post : Except Fault Unit → RequestPhase → Desk → Prop}
    (inside : (desk.inside = true → phase = .admitted) → (change desk).inside = true → phase = .admitted)
    (calls : (∀ call ∈ desk.calls, desk.calls = [call] ∧ site.Permitted i call) →
      ∀ call ∈ (change desk).calls, (change desk).calls = [call] ∧ site.Permitted i call)
    (counted : (change desk).counted = desk.counted) (exit : post (.ok ()) phase (change desk)) :
    site.Triple i (update i change) phase desk post := by
  intro server inv here t invT moved
  obtain ⟨rfl, rfl⟩ := Here.relied here moved
  refine ⟨⟨invT.reached, ?_, ?_, ?_⟩, ⟨.refl, rfl, ?_⟩, ?_⟩
  · intro j within
    by_cases same : j = i
    · subst same
      exact inside (invT.inside j) (by simpa [atDesk] using within)
    · exact invT.inside j (by simpa [atDesk, same] using within)
  · intro j call made
    by_cases same : j = i
    · subst same
      simpa [atDesk] using calls (invT.once j) call (by simpa [atDesk] using made)
    · simpa [atDesk, same] using invT.once j call (by simpa [atDesk, same] using made)
  · intro key named
    exact (invT.counted key named).stays (by simp [Counted, counted])
  · intro j other
    exact ⟨rfl, Function.update_of_ne other _ _⟩
  · refine Prog.wp_done fun u _ later => ?_
    obtain ⟨phase, desk⟩ := Here.relied ⟨rfl, rfl⟩ later
    rw [phase, desk]
    simpa [atDesk] using exit

/-- One section; the request stands at one of the phases it can lead to. -/
theorem triple_section {post : Except Fault RequestPhase → RequestPhase → Desk → Prop}
    (outside : desk.inside = false)
    (exit : ∀ server, site.Inv server → server.http.requests i = phase →
      post (.ok ((server.http.advance site.incoming i).requests i)) ((server.http.advance site.incoming i).requests i)
        desk) :
    site.Triple i (site.runSection i) phase desk post := by
  intro server inv here
  refine Prog.wp_atomic_total fun t invT moved => ?_
  obtain ⟨phase, rfl⟩ := Here.relied here moved
  have step : HTTPState.Step site.incoming t.http (t.http.advance site.incoming i) := .request i
  refine ⟨_, _, rfl, ⟨invT.reached.tail step, ?_, invT.once, invT.counted⟩,
    ⟨.single step, advance_drains i, fun j other => ⟨advance_other other, rfl⟩⟩, ?_⟩
  · intro j within
    by_cases same : j = i
    · subst same
      simp [outside] at within
    · exact (advance_other same).trans (invT.inside j within)
  · intro u _ later
    obtain ⟨there, kept⟩ := Here.relied ⟨rfl, rfl⟩ later
    rw [there, kept]
    exact exit t invT phase

/-! What the parts of `_dispatch` do. -/

/-- Nothing whole is on the connection yet. -/
def Open (desk : Desk) : Prop := desk.inside = false ∧ desk.counted = none ∧ Unfinished desk.wire

/-- A body of `_dispatch` has sent its reply, or has raised before it had. -/
def Handled (site : Site ι) (i : ι) (before : RequestPhase) (result : Except Fault Nat) (phase : RequestPhase)
    (desk : Desk) : Prop :=
  phase = before ∧ desk.inside = false ∧ desk.counted = none ∧
    match result with
    | .ok status => Replied desk.wire status (site.requestId i)
    | .error _ => Unfinished desk.wire

/-- The reply that goes with the status, or an exception of the reply of the except clause. -/
def Answered (site : Site ι) (i : ι) (outcome : Outcome) (desk : Desk) : Prop :=
  desk.inside = false ∧ desk.counted = none ∧
    match outcome.2 with
    | none => Replied desk.wire outcome.1 (site.requestId i)
    | some _ => Unfinished desk.wire

theorem triple_mayRaise {post : Except Fault Unit → RequestPhase → Desk → Prop}
    (returns : post (.ok ()) phase desk) (raises : ∀ fault, post (.error fault) phase desk) :
    site.Triple i mayRaise phase desk post := by
  intro server inv here
  refine ⟨triple_done returns server inv here, fun fault => ?_⟩
  cases fault with
  | raised error => exact triple_done (raises _) server inv here
  | api error => exact triple_done returns server inv here

theorem triple_write {chunk : Chunk} {post : Except Fault Unit → RequestPhase → Desk → Prop}
    (returns : post (.ok ()) phase { desk with wire := desk.wire ++ [chunk] })
    (raises : ∀ fault, post (.error fault) phase desk) : site.Triple i (write i chunk) phase desk post := by
  refine triple_bind (m := fun result phase' desk' => phase' = phase ∧ desk' = desk) ?_ ?_ ?_
  · exact triple_mayRaise ⟨rfl, rfl⟩ fun _ => ⟨rfl, rfl⟩
  · rintro _ _ _ ⟨rfl, rfl⟩
    exact triple_update id id rfl returns
  · rintro fault _ _ ⟨rfl, rfl⟩
    exact raises fault

theorem Unfinished.append_head {wire : List Chunk} (unfinished : Unfinished wire) (status : Nat)
    (fields : List (String × String)) : Unfinished (wire ++ [.head status fields]) := by
  intro chunk member
  rcases List.mem_append.mp member with before | last
  · exact unfinished chunk before
  · exact ⟨status, fields, List.mem_singleton.mp last⟩

theorem triple_send (opened : Open desk) (status : Nat) (contentType : String) (body : Bytes) :
    site.Triple i (site.send i status contentType body) phase desk fun result phase' desk' =>
      site.Handled i phase result phase' desk' ∧ ∀ value, result = .ok value → value = status := by
  obtain ⟨outside, uncounted, unfinished⟩ := opened
  refine triple_bind (m := fun result phase' desk' => phase' = phase ∧ ∃ wire, desk' = { desk with wire } ∧
    match result with
    | .ok () => wire = desk.wire ++ [.head status (headers contentType body.length (site.requestId i))]
    | .error _ => wire = desk.wire) ?_ ?_ ?_
  · exact triple_write ⟨rfl, _, rfl, rfl⟩ fun _ => ⟨rfl, _, rfl, rfl⟩
  · rintro _ phase _ ⟨rfl, _, rfl, rfl⟩
    refine triple_bind (m := fun result phase' desk' => phase' = phase ∧
      site.Handled i phase (result.map fun _ => status) phase' desk') ?_ ?_ ?_
    · refine triple_write ⟨rfl, rfl, outside, uncounted, _, _, _, unfinished, List.append_assoc _ _ _⟩ fun _ => ?_
      exact ⟨rfl, rfl, outside, uncounted, Unfinished.append_head unfinished _ _⟩
    · rintro _ _ _ ⟨rfl, handled⟩
      exact triple_done ⟨handled, fun value same => (Except.ok.inj same).symm⟩
    · rintro fault _ _ ⟨rfl, handled⟩
      exact ⟨handled, by simp⟩
  · rintro fault _ _ ⟨rfl, _, rfl, rfl⟩
    exact ⟨⟨rfl, outside, uncounted, unfinished⟩, by simp⟩

theorem triple_json (opened : Open desk) (status : Nat) (payload : Json) :
    site.Triple i (site.json i status payload) phase desk (site.Handled i phase) := by
  have sent : site.Triple i (site.send i status "application/json" payload.dumps) phase desk _ :=
    triple_send opened _ _ _
  exact triple_mono (fun _ _ _ both => both.1) sent

theorem triple_text (opened : Open desk) (status : Nat) (payload : String) :
    site.Triple i (site.text i status payload) phase desk (site.Handled i phase) := by
  have sent : site.Triple i (site.send i status "text/plain; version=0.0.4" (utf8 payload)) phase desk _ :=
    triple_send opened _ _ _
  exact triple_mono (fun _ _ _ both => both.1) sent

theorem triple_error (opened : Open desk) (error : APIError) :
    site.Triple i (site.error i error) phase desk fun result phase' desk' =>
      site.Handled i phase (result.map fun _ => error.status) phase' desk' := by
  refine triple_bind (triple_send opened _ _ _) ?_ ?_
  · rintro value phase' desk' ⟨handled, same⟩
    obtain rfl := same value rfl
    exact triple_done handled
  · rintro fault phase' desk' ⟨handled, -⟩
    exact handled

theorem triple_admitRequest {sections : Nat} (few : sections ≤ 3) (outside : desk.inside = false) :
    site.Triple i (site.admitRequest i sections) (ahead sections) desk fun result phase desk' =>
      desk' = desk ∧ ((result = .ok none ∧ phase = .admitted) ∨
        ∃ code, result = .ok (some code) ∧ phase = .rejected code) := by
  induction sections with
  | zero => exact triple_done ⟨rfl, .inl ⟨rfl, rfl⟩⟩
  | succ sections ih =>
      refine triple_bind (m := fun result phase desk' => desk' = desk ∧ result = .ok phase ∧
        (phase = ahead sections ∨ ∃ code, phase = .rejected code)) ?_ ?_ ?_
      · exact triple_section outside fun server inv stands =>
          ⟨rfl, rfl, advance_entering (by omega) inv.balanced stands⟩
      · rintro phase _ desk' ⟨rfl, same, reached⟩
        obtain rfl := Except.ok.inj same
        rcases reached with rfl | ⟨code, rfl⟩
        · have next := ih (by omega)
          obtain rfl | rfl | rfl : sections = 0 ∨ sections = 1 ∨ sections = 2 := by omega
          all_goals exact next
        · exact triple_done ⟨rfl, .inr ⟨code, rfl, rfl⟩⟩
      · rintro fault phase desk' ⟨_, same, _⟩
        simp at same

theorem triple_releaseAdmission (outside : desk.inside = false) :
    site.Triple i (site.releaseAdmission i) .admitted desk fun result phase desk' =>
      desk' = desk ∧ result = .ok () ∧ phase = .released := by
  refine triple_bind (m := fun result phase desk' => desk' = desk ∧ result = .ok phase ∧
    (phase = .released ∨ phase = .returning)) ?_ ?_ ?_
  · exact triple_section outside fun server inv stands => ⟨rfl, rfl, advance_admitted inv.balanced stands⟩
  · rintro phase _ desk' ⟨rfl, same, rfl | rfl⟩ <;> obtain rfl := Except.ok.inj same
    · exact triple_done ⟨rfl, rfl, rfl⟩
    · refine triple_bind (m := fun result phase desk'' => desk'' = desk' ∧ result = .ok phase ∧
        phase = .released) ?_ ?_ ?_
      · exact triple_section outside fun server inv stands => ⟨rfl, rfl, advance_returning inv.balanced stands⟩
      · rintro phase _ _ ⟨rfl, same, rfl⟩
        obtain rfl := Except.ok.inj same
        exact triple_done ⟨rfl, rfl, rfl⟩
      · rintro fault phase _ ⟨_, same, _⟩
        simp at same
  · rintro fault phase desk' ⟨_, same, _⟩
    simp at same

/-- One call of the control plane, by a request that has made none. -/
theorem triple_control {call : ControlCall} (fresh : desk.calls = []) (permitted : site.Permitted i call)
    (opened : Open desk) : site.Triple i (site.control i call) .admitted desk fun _ phase desk' =>
      phase = .admitted ∧ Open desk' := by
  obtain ⟨outside, uncounted, unfinished⟩ := opened
  refine triple_bind (m := fun result phase desk' => result = .ok () ∧ phase = .admitted ∧
    desk' = { desk with calls := [call], inside := true }) ?_ ?_ ?_
  · refine triple_update (fun _ _ => rfl) (fun _ made member => ?_) rfl ⟨rfl, rfl, by simp [fresh]⟩
    obtain rfl : made = call := by simpa [fresh] using member
    exact ⟨by simp [fresh], permitted⟩
  · rintro _ _ _ ⟨-, rfl, rfl⟩
    refine triple_bind (m := fun result phase desk' => result = .ok () ∧ phase = .admitted ∧ Open desk') ?_ ?_ ?_
    · exact triple_update (by simp) id rfl ⟨rfl, rfl, rfl, uncounted, unfinished⟩
    · rintro _ _ _ ⟨-, rfl, opened⟩
      exact triple_done ⟨rfl, opened⟩
    · rintro fault _ _ ⟨same, -⟩
      simp at same
  · rintro fault _ _ ⟨same, -⟩
    simp at same

theorem triple_respond {reached : Target} (fresh : desk.calls = []) (opened : Open desk)
    (permitted : ∀ call, reached = .control call → site.Permitted i call) :
    site.Triple i (site.respond i reached) .admitted desk (site.Handled i .admitted) := by
  cases reached with
  | metrics =>
      refine triple_bind (m := fun result phase desk' => (∃ exposed, result = .ok exposed) ∧ phase = .admitted ∧
        desk' = desk) ?_ ?_ ?_
      · intro server inv here
        refine Prog.wp_atomic_total fun t invT moved => ?_
        refine ⟨_, _, rfl, invT, ⟨.refl, rfl, fun _ _ => ⟨rfl, rfl⟩⟩, fun u _ later => ?_⟩
        obtain ⟨phase, kept⟩ := Here.relied (Here.relied here moved) later
        exact ⟨⟨_, rfl⟩, phase, kept⟩
      · rintro exposed _ _ ⟨-, rfl, rfl⟩
        exact triple_text opened 200 exposed
      · rintro fault _ _ ⟨⟨_, same⟩, -⟩
        simp at same
  | control call =>
      refine triple_bind (triple_control fresh (permitted call rfl) opened) ?_ ?_
      · rintro payload _ desk' ⟨rfl, opened⟩
        refine triple_bind (m := fun _ phase desk'' => phase = .admitted ∧ desk'' = desk') ?_ ?_ ?_
        · exact triple_done ⟨rfl, rfl⟩
        · rintro status _ desk' ⟨rfl, rfl⟩
          exact triple_json opened status payload
        · rintro fault _ _ ⟨rfl, rfl⟩
          exact ⟨rfl, opened⟩
      · rintro fault _ _ ⟨rfl, opened⟩
        exact ⟨rfl, opened⟩

theorem triple_guarded {body : Handler ι Nat} (handled : site.Triple i body phase desk (site.Handled i phase)) :
    site.Triple i (site.guarded i body) phase desk fun result phase' desk' =>
      phase' = phase ∧ ∃ outcome, result = .ok outcome ∧ site.Answered i outcome desk' := by
  refine triple_tryCatch (m := fun result phase' desk' => site.Handled i phase (result.map Prod.fst) phase' desk' ∧
    ∀ outcome, result = .ok outcome → outcome.2 = none) ?_ ?_ ?_
  · refine triple_bind handled ?_ ?_
    · rintro status _ desk' ⟨rfl, sent⟩
      exact triple_done ⟨⟨rfl, sent⟩, fun outcome same => (Except.ok.inj same) ▸ rfl⟩
    · rintro fault _ desk' ⟨rfl, unsent⟩
      exact ⟨⟨rfl, unsent⟩, by simp⟩
  · rintro ⟨status, raised⟩ phase' desk' ⟨⟨same, outside, uncounted, replied⟩, quiet⟩
    obtain rfl : raised = none := quiet _ rfl
    exact ⟨same, _, rfl, outside, uncounted, replied⟩
  · rintro fault phase desk' ⟨⟨rfl, opened⟩, -⟩
    refine triple_tryCatch (m := fun result phase' desk'' => site.Handled i phase
      (result.map fun _ => (failure site.platform fault).status) phase' desk'' ∧
      ∀ outcome, result = .ok outcome → outcome = ((failure site.platform fault).status, none)) ?_ ?_ ?_
    · refine triple_bind (triple_error opened _) ?_ ?_
      · rintro _ _ desk'' ⟨rfl, replied⟩
        exact triple_done ⟨⟨rfl, replied⟩, fun outcome same => (Except.ok.inj same).symm⟩
      · rintro raised _ desk'' ⟨rfl, unsent⟩
        exact ⟨⟨rfl, unsent⟩, by simp⟩
    · rintro outcome _ desk'' ⟨⟨rfl, replied⟩, same⟩
      obtain rfl := same outcome rfl
      exact ⟨rfl, _, rfl, replied⟩
    · rintro raised _ desk'' ⟨⟨rfl, unsent⟩, -⟩
      exact triple_done ⟨rfl, _, rfl, unsent⟩

theorem triple_count (uncounted : desk.counted = none) (status : Nat) :
    site.Triple i (site.count i status) phase desk fun result phase' desk' =>
      result = .ok () ∧ phase' = phase ∧ desk' = { desk with counted := some status } := by
  intro server inv here
  refine Prog.wp_atomic_total fun t invT moved => ?_
  obtain ⟨rfl, rfl⟩ := Here.relied here moved
  have counts : raisedBy (Metrics.increment site.digest t.metrics (site.increment i status).name
      (site.increment i status).value (site.increment i status).labels) =
        .ok (t.metrics.add (site.key i status) 1) := by
    rw [Metrics.increment_call]
    rfl
  refine ⟨(), { atDesk i (fun desk => { desk with counted := some status }) t with
    metrics := t.metrics.add (site.key i status) 1 }, ?_, ⟨invT.reached, ?_, ?_, ?_⟩, ⟨.refl, rfl, ?_⟩, ?_⟩
  · simp [counts, bind, Except.bind, pure, Except.pure]
  · intro j within
    by_cases same : j = i
    · subst same
      exact invT.inside j (by simpa [atDesk] using within)
    · exact invT.inside j (by simpa [atDesk, same] using within)
  · intro j call made
    by_cases same : j = i
    · subst same
      simpa [atDesk] using invT.once j call (by simpa [atDesk] using made)
    · simpa [atDesk, same] using invT.once j call (by simpa [atDesk, same] using made)
  · intro key named
    have before := invT.counted key named
    have away : ¬ site.Counted key i (t.desks i) := by simp [Counted, uncounted]
    rw [Metrics.count_add]
    by_cases same : site.key i status = key
    · rw [if_pos same]
      exact before.arrives away ⟨status, rfl, same⟩
    · rw [if_neg same]
      exact before.stays (iff_of_false away (by simp [Counted, same]))
  · intro j other
    exact ⟨rfl, Function.update_of_ne other _ _⟩
  · intro u _ later
    obtain ⟨there, kept⟩ := Here.relied ⟨rfl, rfl⟩ later
    refine ⟨rfl, there, ?_⟩
    rw [kept]
    simp [atDesk]

theorem triple_conclude {admitted : Bool} {outcome : Outcome} (answered : site.Answered i outcome desk)
    (inside : admitted = true → phase = .admitted)
    (outside : admitted = false → phase = .arriving ∨ ∃ code, phase = .rejected code) :
    site.Triple i (site.conclude i admitted outcome) phase desk (site.Concluded i) := by
  obtain ⟨left, uncounted, replied⟩ := answered
  refine triple_bind (m := fun result phase' desk' => result = .ok () ∧ desk' = desk ∧
    (phase' = .released ∨ phase' = .arriving ∨ ∃ code, phase' = .rejected code)) ?_ ?_ ?_
  · cases admitted with
    | true =>
        obtain rfl := inside rfl
        exact triple_mono (fun _ _ _ all => ⟨all.2.1, all.1, .inl all.2.2⟩) (triple_releaseAdmission left)
    | false => exact triple_done ⟨rfl, rfl, .inr (outside rfl)⟩
  · rintro _ phase desk ⟨-, rfl, out⟩
    refine triple_bind (triple_count uncounted outcome.1) ?_ ?_
    · rintro _ _ _ ⟨-, rfl, rfl⟩
      obtain ⟨status, raised⟩ := outcome
      cases raised with
      | none => exact triple_done ⟨out, left, status, rfl, rfl, replied⟩
      | some fault => exact triple_done ⟨out, left, status, rfl, replied⟩
    · rintro fault _ _ ⟨same, -⟩
      simp at same
  · rintro fault _ _ ⟨same, -⟩
    simp at same

theorem triple_dispatch : site.Triple i (site.dispatch i) .arriving .empty (site.Concluded i) := by
  have opened : Open .empty := ⟨rfl, rfl, fun chunk member => absurd member (List.not_mem_nil)⟩
  unfold dispatch
  split
  next error unsplit =>
    have answers : site.Triple i (site.guarded i (.done (.error (.raised error)))) .arriving .empty _ :=
      triple_guarded (triple_done ⟨rfl, opened⟩)
    refine triple_bind answers ?_ ?_
    · rintro outcome _ desk ⟨rfl, _, same, answered⟩
      obtain rfl := Except.ok.inj same
      exact triple_conclude answered (by simp) fun _ => .inl rfl
    · rintro fault _ desk ⟨_, _, same, _⟩
      simp at same
  next path query split =>
    refine triple_bind (m := fun result phase desk => desk = .empty ∧ ((result = .ok (.ok none) ∧ phase = .admitted) ∨
      ∃ code, result = .ok (.ok (some code)) ∧ phase = .rejected code)) ?_ ?_ ?_
    · refine triple_tryCatch (m := fun result phase desk => desk = .empty ∧
        ((result = .ok (.ok none) ∧ phase = .admitted) ∨
          ∃ code, result = .ok (.ok (some code)) ∧ phase = .rejected code)) ?_ ?_ ?_
      · refine triple_bind (triple_admitRequest le_rfl rfl) ?_ ?_
        · rintro rejected _ _ ⟨rfl, ⟨same, rfl⟩ | ⟨code, same, rfl⟩⟩
          · obtain rfl := Except.ok.inj same
            exact triple_done ⟨rfl, .inl ⟨rfl, rfl⟩⟩
          · obtain rfl := Except.ok.inj same
            exact triple_done ⟨rfl, .inr ⟨code, rfl, rfl⟩⟩
        · rintro fault _ _ ⟨_, ⟨same, _⟩ | ⟨_, same, _⟩⟩ <;> simp at same
      · exact fun _ _ _ entered => entered
      · rintro fault _ _ ⟨_, ⟨same, _⟩ | ⟨_, same, _⟩⟩ <;> simp at same
    · rintro entered phase _ ⟨rfl, ⟨same, rfl⟩ | ⟨code, same, rfl⟩⟩
      · obtain rfl := Except.ok.inj same
        have works : site.Triple i (do
            let reached ← Prog.ofExcept
              (target site.platform site.settings (site.request i) query (site.routed i).1 (site.routed i).2)
            site.respond i reached) .admitted .empty (site.Handled i .admitted) := by
          refine triple_bind (m := fun result phase desk => phase = .admitted ∧ desk = .empty ∧
            result = target site.platform site.settings (site.request i) query (site.routed i).1
              (site.routed i).2) ?_ ?_ ?_
          · exact triple_done ⟨rfl, rfl, rfl⟩
          · rintro reached _ _ ⟨rfl, rfl, same⟩
            refine triple_respond rfl opened fun call called => ⟨path, query, split, ?_⟩
            have matched : matchRoute path = site.routed i := by simp [routed, split]
            have calls : target site.platform site.settings (site.request i) query (site.routed i).1
                (site.routed i).2 = .ok (.control call) := by rw [← same, called]
            exact target_authorised matched calls
          · rintro fault _ _ ⟨rfl, rfl, -⟩
            exact ⟨rfl, opened⟩
        refine triple_bind (triple_guarded works) ?_ ?_
        · rintro outcome _ desk ⟨rfl, _, same, answered⟩
          obtain rfl := Except.ok.inj same
          exact triple_conclude answered (fun _ => rfl) (by simp)
        · rintro fault _ desk ⟨_, _, same, _⟩
          simp at same
      · obtain rfl := Except.ok.inj same
        have rejects : site.Triple i (do
            site.error i (rejection code)
            return 503) (.rejected code) .empty (site.Handled i (.rejected code)) := by
          refine triple_bind (triple_error opened _) ?_ ?_
          · rintro _ _ desk ⟨rfl, replied⟩
            exact triple_done ⟨rfl, replied⟩
          · rintro fault _ desk ⟨rfl, unsent⟩
            exact ⟨rfl, unsent⟩
        refine triple_bind (triple_guarded rejects) ?_ ?_
        · rintro outcome _ desk ⟨rfl, _, same, answered⟩
          obtain rfl := Except.ok.inj same
          exact triple_conclude answered (by simp) fun _ => .inr ⟨code, rfl⟩
        · rintro fault _ desk ⟨_, _, same, _⟩
          simp at same
    · rintro fault _ _ ⟨_, ⟨same, _⟩ | ⟨_, same, _⟩⟩ <;> simp at same

end Site

end AgentTree.Api
