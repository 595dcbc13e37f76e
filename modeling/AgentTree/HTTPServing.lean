import AgentTree.HTTPService

/-!
Runs of the HTTP server: what the thread of `serve` returns, and what holds of every request in every order of the
steps of all threads.
-/

namespace AgentTree.Api

open Concurrent

namespace Site

variable {ι : Type} [DecidableEq ι] {site : Site ι}

/-! The thread of `serve`. -/

theorem draining_relied {s t : Server ι} (moved : HTTPState.Run site.incoming s.http t.http)
    (draining : s.http.server.draining = true) : t.http.server.draining = true :=
  (HTTPState.run_shut draining moved).1

theorem Drained.relied {s t : Server ι} (drained : site.Drained s)
    (moved : HTTPState.Run site.incoming s.http t.http) : site.Drained t :=
  fun later onward => drained later (moved.trans onward)

/-- The drain gate is shut, and where the wait has seen an empty count, nothing is left. -/
def Shut (site : Site ι) (graceful : Bool) (server : Server ι) : Prop :=
  server.http.server.draining = true ∧ (graceful = true → site.Drained server)

theorem Shut.relied {graceful : Bool} {s t : Server ι} (shut : site.Shut graceful s)
    (moved : HTTPState.Run site.incoming s.http t.http) : site.Shut graceful t :=
  ⟨draining_relied moved shut.1, fun drains => (shut.2 drains).relied moved⟩

theorem shut_of_look {t u : Server ι} {after : HTTPState ι Bool} {w : Bool} (inv : site.Inv t)
    (draining : t.http.server.draining = true) (step : HTTPState.Step site.incoming t.http after)
    (pending : t.http.drains w ≠ .returned true) (drained : after.drains w = .returned true)
    (moved : HTTPState.Run site.incoming after u.http) : site.Shut true u := by
  obtain ⟨idle, same, _⟩ := HTTPState.step_drained step pending drained
  refine ⟨(HTTPState.run_shut (by rwa [same]) moved).1, fun _ later onward i => ?_⟩
  exact (inv.balanced.step step).drained (by rwa [same]) (by rwa [same]) (moved.trans onward) i

/-- A look takes one step of the drain call and no request moves. -/
theorem wp_look {w : Bool} {change : HTTPState ι Bool → HTTPState ι Bool}
    {post : Except Fault DrainCall → Server ι → Prop} {s : Server ι}
    (step : ∀ http : HTTPState ι Bool, http.drains = s.http.drains → HTTPState.Step site.incoming http (change http))
    (unmoved : ∀ http, (change http).requests = http.requests)
    (exit : ∀ t u : Server ι, site.Inv t → HTTPState.Run site.incoming s.http t.http →
      t.http.drains = s.http.drains → site.Inv u → HTTPState.Run site.incoming (change t.http) u.http →
      u.http.drains = (change t.http).drains → post (.ok ((change t.http).drains w)) u) :
    (look w change).wp (site.contract none) post s := by
  refine Prog.wp_atomic_total fun t invT moved => ?_
  have taken := step t.http moved.2
  refine ⟨_, _, rfl, ⟨invT.reached.tail taken, ?_, invT.once, invT.counted⟩, ⟨.single taken, fun j => ?_⟩, ?_⟩
  · intro j within
    exact (congrFun (unmoved t.http) j).trans (invT.inside j within)
  · exact ⟨congrFun (unmoved t.http) j, rfl⟩
  · intro u invU later
    exact exit t u invT moved.1 moved.2 invU later.1 later.2

/-- How a wait ends; the calls of `wait_for_drain` other than its own stay as they were. -/
def Waited (site : Site ι) (w : Bool) (drains : Bool → DrainCall) (result : Except Fault Bool) (server : Server ι) :
    Prop :=
  server.http.server.draining = true ∧
  ∀ drained, result = .ok drained → site.Shut drained server ∧ ∀ v, v ≠ w → server.http.drains v = drains v

theorem wp_returned {w drained : Bool} {drains : Bool → DrainCall} {u : Server ι} (shut : site.Shut drained u)
    (others : ∀ v, v ≠ w → u.http.drains v = drains v) :
    (Prog.done (.ok drained) : Handler ι Bool).wp (site.contract none) (site.Waited w drains) u := by
  refine Prog.wp_done fun v _ later => ⟨draining_relied later.1 shut.1, fun other same => ?_⟩
  obtain rfl := Except.ok.inj same
  exact ⟨shut.relied later.1, fun w' other => (congrFun later.2 w').trans (others w' other)⟩

theorem wake_step {w : Bool} (expired : Bool) {s : Server ι} (waiting : s.http.drains w = .waiting)
    (http : HTTPState ι Bool) (same : http.drains = s.http.drains) :
    HTTPState.Step site.incoming http (http.wakeDrain w expired) :=
  .wakeDrain w expired (by rw [same, waiting])

omit [DecidableEq ι] in
theorem wake_cases (http : HTTPState ι Bool) (w expired : Bool) :
    (http.wakeDrain w expired).drains w = .returned true ∨
    (http.wakeDrain w expired).drains w = .returned false ∨
    ((http.wakeDrain w expired).drains w = .waiting ∧ expired = false) := by
  simp only [HTTPState.wakeDrain, Function.update_self]
  split
  · exact .inl rfl
  · cases expired <;> simp

omit [DecidableEq ι] in
theorem wake_other {http : HTTPState ι Bool} {w v expired : Bool} (other : v ≠ w) :
    (http.wakeDrain w expired).drains v = http.drains v :=
  Function.update_of_ne other _ _

/-- Whenever a waiting call returns, it returns what the count says. -/
theorem wp_awake {w : Bool} (wakes : List Bool) {s : Server ι} {drains : Bool → DrainCall} (inv : site.Inv s)
    (draining : s.http.server.draining = true) (waiting : s.http.drains w = .waiting)
    (others : ∀ v, v ≠ w → s.http.drains v = drains v) :
    (awake w wakes).wp (site.contract none) (site.Waited w drains) s := by
  induction wakes generalizing s with
  | nil =>
      refine Prog.wp_bind inv (wp_look (wake_step true waiting) (fun _ => rfl) ?_)
      intro t u invT before same invU later kept
      have shut := draining_relied before draining
      have stay : ∀ v, v ≠ w → u.http.drains v = drains v := fun v other => by
        rw [kept, wake_other other, same, others v other]
      rcases wake_cases t.http w true with returned | returned | ⟨_, impossible⟩
      · simp only [returned]
        have pending : t.http.drains w ≠ .returned true := by rw [same, waiting]; simp
        exact wp_returned (shut_of_look invT shut (wake_step true waiting t.http same) pending returned later) stay
      · simp only [returned]
        exact wp_returned ⟨(HTTPState.run_shut shut (.head (wake_step true waiting t.http same) later)).1, by simp⟩ stay
      · simp at impossible
  | cons expired rest ih =>
      refine Prog.wp_bind inv (wp_look (wake_step expired waiting) (fun _ => rfl) ?_)
      intro t u invT before same invU later kept
      have shut := draining_relied before draining
      have still := (HTTPState.run_shut shut (.head (wake_step expired waiting t.http same) later)).1
      have stay : ∀ v, v ≠ w → u.http.drains v = drains v := fun v other => by
        rw [kept, wake_other other, same, others v other]
      rcases wake_cases t.http w expired with returned | returned | ⟨waits, _⟩
      · simp only [returned]
        have pending : t.http.drains w ≠ .returned true := by rw [same, waiting]; simp
        exact wp_returned (shut_of_look invT shut (wake_step expired waiting t.http same) pending returned later) stay
      · simp only [returned]
        exact wp_returned ⟨still, by simp⟩ stay
      · simp only [waits]
        exact ih invU still (by rw [kept, waits]) stay

theorem wp_waitForDrain {w : Bool} (timeout : ℚ) (wakes : List Bool) {s : Server ι} {drains : Bool → DrainCall}
    (inv : site.Inv s) (draining : s.http.server.draining = true) (idle : s.http.drains w = .idle)
    (others : ∀ v, v ≠ w → s.http.drains v = drains v) :
    (waitForDrain w timeout wakes).wp (site.contract none) (site.Waited w drains) s := by
  have calls : ∀ http : HTTPState ι Bool, http.drains = s.http.drains →
      HTTPState.Step site.incoming http (http.callDrain w timeout) :=
    fun http same => .callDrain w timeout (by rw [same, idle])
  refine Prog.wp_bind inv (wp_look calls (fun _ => rfl) ?_)
  intro t u invT before same invU later kept
  have shut := draining_relied before draining
  have still := (HTTPState.run_shut shut (.head (calls t.http same) later)).1
  have stay : ∀ v, v ≠ w → u.http.drains v = drains v := fun v other => by
    rw [kept, ← others v other, ← same]
    exact Function.update_of_ne other _ _
  have looked : (∃ error, (t.http.callDrain w timeout).drains w = .raised error) ∨
      (t.http.callDrain w timeout).drains w = .returned true ∨
      (t.http.callDrain w timeout).drains w = .waiting := by
    simp only [HTTPState.callDrain, Function.update_self]
    split
    · exact .inl ⟨_, rfl⟩
    · split <;> simp
  rcases looked with ⟨error, raised⟩ | returned | waits
  · simp only [raised]
    exact Prog.wp_done fun _ _ later => ⟨draining_relied later.1 still, fun drained same => by simp at same⟩
  · simp only [returned]
    have pending : t.http.drains w ≠ .returned true := by rw [same, idle]; simp
    exact wp_returned (shut_of_look invT shut (calls t.http same) pending returned later) stay
  · simp only [waits]
    exact wp_awake wakes invU still (by rw [kept, waits]) stay

theorem beginDraining_step (http : HTTPState ι Bool) (control : Option (Except PyError Unit)) :
    HTTPState.Step site.incoming http { http with server := (http.server.beginDraining control).2 } :=
  .beginDraining control

theorem beginDraining_shuts {server : HTTPServer} {control : Option (Except PyError Unit)} {changed : Bool}
    (begun : (server.beginDraining control).1 = .ok changed) :
    (server.beginDraining control).2.draining = true := by
  revert begun
  unfold HTTPServer.beginDraining
  split
  next draining => exact fun _ => draining
  next =>
    split
    · simp
    · simp

theorem wp_shutGate (control : Option (Except PyError Unit)) {s : Server ι} :
    (shutGate control).wp (site.contract none) (fun result t => (∃ changed, result = .ok changed) →
      t.http.server.draining = true ∧ t.http.drains = s.http.drains) s := by
  refine Prog.wp_atomic ?_ ?_
  · intro t changed u invT moved ran
    have step : HTTPState.Step site.incoming t.http _ := beginDraining_step t.http control
    cases begun : (t.http.server.beginDraining control).1 with
    | error error => simp [raisedBy, Except.map, Except.mapError, begun] at ran
    | ok same =>
        simp only [begun, raisedBy, Except.map, Except.mapError, Except.ok.injEq, Prod.mk.injEq] at ran
        obtain ⟨rfl, rfl⟩ := ran
        refine ⟨⟨invT.reached.tail step, invT.inside, invT.once, invT.counted⟩,
          ⟨.single step, fun j => ⟨rfl, rfl⟩⟩, fun v _ later _ => ?_⟩
        exact ⟨draining_relied later.1 (beginDraining_shuts begun), later.2.trans moved.2⟩
  · intro t error _ _ _
    exact ⟨⟨.refl, fun j => ⟨rfl, rfl⟩⟩, fun _ _ _ ok => by simp at ok⟩

theorem wp_forceDrain (shutdown : Shutdown) {s : Server ι} (inv : site.Inv s)
    (draining : s.http.server.draining = true) (idle : s.http.drains true = .idle) :
    (forceDrain shutdown).wp (site.contract none) (fun _ t => t.http.server.draining = true) s := by
  have shut : ∀ {t u : Server ι}, site.rely none t u → t.http.server.draining = true →
      u.http.server.draining = true := fun moved => draining_relied moved.1
  have cancels : (cancel shutdown.cancelActive).wp (site.contract none)
      (fun _ t => t.http.server.draining = true ∧ t.http.drains true = .idle) s := by
    cases shutdown.cancelActive with
    | none => exact Prog.wp_done fun t _ moved => ⟨shut moved draining, by rw [moved.2, idle]⟩
    | some report => exact Prog.wp_done fun t _ moved => ⟨shut moved draining, by rw [moved.2, idle]⟩
  refine Prog.wp_bind inv (Prog.wp_mono ?_ cancels)
  rintro result t invT ⟨draining, idle⟩
  cases result with
  | error fault => exact draining
  | ok _ =>
      have waits : (waitForDrain true shutdown.remaining shutdown.wakesAfter).wp (site.contract none)
          (site.Waited true t.http.drains) t := wp_waitForDrain _ _ invT draining idle fun v _ => rfl
      exact Prog.wp_mono (fun _ _ _ waited => waited.1) waits

theorem wp_serve (shutdown : Shutdown) {s : Server ι} (inv : site.Inv s) (ready : ∀ w, s.http.drains w = .idle) :
    (serve shutdown).wp (site.contract none) (site.post none) s := by
  refine Prog.wp_bind inv (Prog.wp_mono ?_ (wp_shutGate shutdown.beginDraining))
  intro result t invT gate
  cases result with
  | error fault => exact fun _ same => by simp at same
  | ok changed =>
    obtain ⟨draining, kept⟩ := gate ⟨_, rfl⟩
    have waits : (waitForDrain false shutdown.shutdownTimeout shutdown.wakes).wp (site.contract none)
        (site.Waited false s.http.drains) t :=
      wp_waitForDrain _ _ invT draining (by rw [kept, ready]) fun v _ => by rw [kept]
    refine Prog.wp_bind invT (Prog.wp_mono ?_ waits)
    intro result u invU waited
    cases result with
    | error fault => exact fun _ same => by simp at same
    | ok graceful =>
      obtain ⟨shut, idle⟩ := waited.2 graceful rfl
      have last : ∀ v, site.Inv v → site.Shut graceful v →
          (Prog.bind (Prog.ofExcept (raisedBy shutdown.served)) fun _ => Prog.done (.ok (some graceful)) :
            Handler ι (Option Bool)).wp (site.contract none) (site.post none) v := by
        intro v invV shut
        refine Prog.wp_bind invV (Prog.wp_done fun x invX later => ?_)
        cases served : raisedBy shutdown.served with
        | error fault => exact fun _ same => by simp at same
        | ok _ =>
            refine Prog.wp_done fun y _ onward graceful' same => ?_
            obtain rfl := Option.some.inj (Except.ok.inj same)
            exact (shut.relied later.1).relied onward.1
      cases graceful with
      | true =>
          refine Prog.wp_bind invU (Prog.wp_done fun v invV later => ?_)
          exact last v invV (shut.relied later.1)
      | false =>
          refine Prog.wp_bind invU (Prog.wp_mono ?_ (wp_forceDrain shutdown invU shut.1 ?_))
          · intro result v invV shut
            cases result with
            | error fault => exact fun _ same => by simp at same
            | ok _ => exact last v invV ⟨shut, by simp⟩
          · rw [idle true (by simp), ready]

/-! Every thread keeps its contract. -/

theorem Inv.start (site : Site ι) : site.Inv site.start where
  reached := .refl
  inside i within := by simp [Site.start, Desk.empty] at within
  once i call made := by simp [Site.start, Desk.empty] at made
  counted key _ := by
    have nobody : ∀ i, ¬ site.Counted key i (site.start.desks i) := by simp [Counted, Site.start, Desk.empty]
    have none : site.start.metrics.count key = 0 := rfl
    rw [none]
    exact numbers_zero nobody

theorem beside_kept {s t : Server ι} (inv : site.Inv s) (moved : Beside site.digest s t) :
    site.Inv t ∧ HTTPState.Run site.incoming s.http t.http ∧ t.http.requests = s.http.requests ∧
      t.http.drains = s.http.drains ∧ t.desks = s.desks := by
  cases moved with
  | signal control =>
      have step : HTTPState.Step site.incoming s.http _ := beginDraining_step s.http control
      exact ⟨⟨inv.reached.tail step, inv.inside, inv.once, inv.counted⟩, .single step, rfl, rfl, rfl⟩
  | counted call named added =>
      rw [Metrics.increment_call] at added
      obtain rfl := Except.ok.inj added
      refine ⟨⟨inv.reached, inv.inside, inv.once, fun key counts => ?_⟩, .refl, rfl, rfl, rfl⟩
      have other : call.key site.digest ≠ key := by
        rintro rfl
        exact named counts
      rw [Metrics.count_add, if_neg other]
      exact inv.counted key counts

def verified (site : Site ι) (shutdown : Shutdown) : (site.service shutdown).Verified where
  inv := site.Inv
  rely := site.rely
  guar := site.guar
  pre := pre
  post := site.post
  dead _ _ := False
  rely_refl := rely_refl
  rely_trans := rely_trans
  compatible other _ _ promised := compatible other promised
  pre_stable {i _ _} _ _ moved ready := by
    cases i with
    | none => exact fun w => (congrFun moved.2 w).trans (ready w)
    | some i => exact Here.relied ready moved
  post_stable {i result _ t} _ _ moved exit := by
    cases i with
    | none => exact fun graceful same => (Shut.relied (exit graceful same) moved.1)
    | some i =>
        change site.Concluded i result (t.http.requests i) (t.desks i)
        rwa [moved.2.1, moved.2.2]
  dead_stable _ _ _ dead := dead
  surroundings_kept inv moved := by
    obtain ⟨kept, run, requests, drains, desks⟩ := beside_kept inv moved
    refine ⟨kept, fun i => ?_⟩
    cases i with
    | none => exact ⟨run, drains⟩
    | some i => exact ⟨run, congrFun requests i, congrFun desks i⟩
  recovery_kept _ moved := moved.elim
  calls_kept {i _} inv ready := by
    cases i with
    | none => exact wp_serve shutdown inv ready
    | some i => exact triple_dispatch _ inv ready

end Site

/-! A site where everything answers. -/

namespace SiteSample

theorem silent_number (text : String) (never : False) : ∃ parts : Json.NumberParts, parts.Valid ∧
    (parts.fraction ≠ [] ∨ parts.exponent ≠ []) ∧ parts.text = utf8 text := never.elim

theorem silent_back (text : String) (never : False) : "" = text := never.elim

/-- Nobody sends a float. -/
def floats : Floats where
  finite _ := False
  read _ := ""
  number := silent_number
  back := silent_back

def platform : Platform where
  urlsplit path := .ok (path, "")
  parseQs _ := .ok []
  int := String.toInt?
  sha256Hex _ := ""
  floats := floats
  text _ := "raised"

/-- One request for the champion of a family, on a server for development with one worker. -/
def site : Site Nat where
  platform := platform
  settings := ⟨false, [], 1000, 1, 1⟩
  digest := id
  request _ := ⟨"GET", "/v1/audit", none, none, none, "text/plain", fun _ => .ok []⟩
  requestId _ := "request"
  answer _ := .ok (.obj [])
  uptime _ := 0

def shutdown : Shutdown := ⟨none, .ok (), 30, [], none, 5, []⟩

def service : Service (Option Nat) (Server Nat) Fault (Option Bool) := site.service shutdown

def asks : List (Service.Move (Option Nat) (Server Nat)) :=
  [.spawn (some 0), .act (some 0), .act (some 0), .act (some 0), .act (some 0)]

def stops : List (Service.Move (Option Nat) (Server Nat)) := [.spawn none, .act none, .act none]

theorem asked : ∃ config, service.Reachable (.start site.start) config ∧
    decide ((config.state.desks 0).inside = true ∧ (config.state.desks 0).calls.length = 1) = true := by
  refine service.play_exists asks (.start site.start) _ ?_ ?_
  · simp [asks]
  · decide +kernel

theorem stopped : ∃ config, service.Reachable (.start site.start) config ∧
    decide (config.result none = some (.ok (some true))) = true := by
  refine service.play_exists stops (.start site.start) _ ?_ ?_
  · simp [stops]
  · decide +kernel

end SiteSample

namespace Site

variable {ι : Type} [DecidableEq ι] {site : Site ι}

/-! Every run. -/

section Runs

variable {shutdown : Shutdown} {config later : Config (Option ι) (Server ι) Fault (Option Bool)}

theorem sound (run : (site.service shutdown).Reachable (.start site.start) config) :
    (site.verified shutdown).Sound config := by
  refine (site.verified shutdown).sound_run (Inv.start site) (fun i => ?_) run
  cases i with
  | none => exact fun _ => rfl
  | some i => exact ⟨rfl, rfl⟩

theorem guar_run {i : Option ι} {s t : Server ι} (promised : site.guar i s t) :
    HTTPState.Run site.incoming s.http t.http := by
  cases i with
  | none => exact promised.1
  | some i => exact promised.1

/-- The admission and the drain move by their own steps only. -/
theorem http_run (sound : (site.verified shutdown).Sound config)
    (onward : (site.service shutdown).Reachable config later) :
    (site.verified shutdown).Sound later ∧ HTTPState.Run site.incoming config.state.http later.state.http := by
  induction onward with
  | refl => exact ⟨sound, .refl⟩
  | tail _ step ih =>
      obtain ⟨before, moved⟩ := ih
      refine ⟨(site.verified shutdown).sound_step before step, moved.trans ?_⟩
      rcases (site.verified shutdown).step_guar before step with same | ⟨i, promised⟩ | beside | recovered
      · rw [same]
      · exact guar_run promised
      · exact (beside_kept before.1 beside).2.1
      · exact recovered.elim

/-- How many requests of a kind may be inside the control plane at once. -/
def limit (site : Site ι) (operational : Bool) : Nat :=
  if operational then site.settings.maxOperationalWorkers else site.settings.maxWorkers

theorem Inv.bounded {server : Server ι} (inv : site.Inv server) (operational : Bool) :
    {i | (server.desks i).inside = true ∧ (site.incoming i).operational = operational}.encard ≤
      site.limit operational := by
  have held := inv.balanced.held operational
  have most : (server.http.server.semaphore operational).taken ≤ site.limit operational := by
    have initial := inv.balanced.initial operational
    unfold BoundedSemaphore.taken limit
    omega
  have inside : {i | (server.desks i).inside = true ∧ (site.incoming i).operational = operational} ⊆
      {i | HTTPState.Holds site.incoming operational i (server.http.requests i)} :=
    fun i member => ⟨member.2, .inr (inv.inside i member.1)⟩
  refine (Set.encard_le_encard inside).trans ?_
  rw [held]
  exact_mod_cast most

omit [DecidableEq ι] in
theorem Concluded.outside {i : ι} {result : Except Fault (Option Bool)} {state : HTTPState ι Bool} {desk : Desk}
    (concluded : site.Concluded i result (state.requests i) desk) : ¬ state.InFlight i := by
  rcases concluded.1 with stands | stands | ⟨code, stands⟩ <;> simp [HTTPState.InFlight, stands]

/-- Once `serve` has returned, no work request is admitted any more; where it has returned True, none is inside the
control plane or holds its admission, then or later. -/
theorem serve_drained (run : (site.service shutdown).Reachable (.start site.start) config) {graceful : Bool}
    (returned : config.result none = some (.ok (some graceful)))
    (onward : (site.service shutdown).Reachable config later) {i : ι}
    (work : (site.incoming i).operational = false) :
    (later.state.http.Admitted i → config.state.http.Admitted i) ∧
    (graceful = true → (later.state.desks i).inside = false ∧
      later.state.http.requests i ≠ .admitted ∧ later.state.http.requests i ≠ .returning) := by
  have holds := sound run
  obtain ⟨draining, drained⟩ := (site.verified shutdown).returned holds returned graceful rfl
  obtain ⟨after, moved⟩ := http_run holds onward
  refine ⟨(HTTPState.run_shut draining moved).2 i work, fun empty => ?_⟩
  have gone := drained empty later.state.http moved i
  have out : later.state.http.requests i ≠ .admitted := fun stands => gone ⟨work, .inl stands⟩
  refine ⟨?_, out, fun stands => gone ⟨work, .inr stands⟩⟩
  cases inside : (later.state.desks i).inside with
  | false => rfl
  | true => exact absurd (after.1.inside i inside) out

theorem serve_drained_sample : ∃ config : Config (Option Nat) (Server Nat) Fault (Option Bool),
    SiteSample.service.Reachable (.start SiteSample.site.start) config ∧ config.result none = some (.ok (some true)) ∧
      ∀ later, SiteSample.service.Reachable config later → (later.state.desks 0).inside = false := by
  obtain ⟨config, run, checked⟩ := SiteSample.stopped
  have returned := of_decide_eq_true checked
  exact ⟨config, run, returned, fun later onward => ((serve_drained run returned onward (i := 0) (by decide)).2 rfl).1⟩

end Runs

end Site

end AgentTree.Api
