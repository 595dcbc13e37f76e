import AgentTree.Json
import Mathlib.Data.List.Induction
import Mathlib.Data.Rat.Defs

/-!
`EvidenceRunner._collect_bounded`: what a worker writes on its two pipes, kept up to one cap for both, with the
deadline of the run and the deadline after a kill.
-/

namespace AgentTree.Evidence

inductive Stream : Type
  | stdout
  | stderr
  deriving DecidableEq

inductive Termination : Type
  | timeout
  | outputLimit
  deriving DecidableEq

/-- One ready pipe: what `os.read` returns, if it does not block, and the clock after it. -/
structure Arrival where
  stream : Stream
  read : Option Bytes
  clock : ℚ

/-- One turn of the loop: the clock, and the pipes that `select` reports. -/
structure Turn where
  now : ℚ
  arrivals : List Arrival

/-- The variables of the loop, and what has been read, which the source does not keep. -/
structure Capture where
  registered : List Stream
  stdout : Bytes
  stderr : Bytes
  totalSeen : Nat
  termination : Option Termination
  killDeadline : Option ℚ
  reads : List (Stream × Bytes)
  deriving DecidableEq

def Capture.start : Capture := ⟨[.stdout, .stderr], [], [], 0, none, none, []⟩

def Capture.extend (capture : Capture) (chunk : Bytes) : Stream → Capture
  | .stdout => { capture with stdout := capture.stdout ++ chunk }
  | .stderr => { capture with stderr := capture.stderr ++ chunk }

/-- A chunk is counted, and kept as far as there is room. -/
def Capture.see (cap : Nat) (capture : Capture) (stream : Stream) (chunk : Bytes) : Capture :=
  let room := cap - (capture.stdout.length + capture.stderr.length)
  let kept := if room = 0 then capture else capture.extend (chunk.take room) stream
  { kept with totalSeen := capture.totalSeen + chunk.length, reads := capture.reads ++ [(stream, chunk)] }

/-- The body of the loop over the ready pipes. -/
def Capture.receive (cap : Nat) (capture : Capture) (arrival : Arrival) : Capture :=
  match arrival.read with
  | none => capture
  | some [] => { capture with registered := capture.registered.erase arrival.stream }
  | some (byte :: rest) =>
      let seen := capture.see cap arrival.stream (byte :: rest)
      if cap < seen.totalSeen ∧ seen.termination = none then
        { seen with termination := some .outputLimit, killDeadline := some (arrival.clock + 2) }
      else seen

/-- The check of the deadline at the start of a turn. -/
def Capture.expire (deadline : ℚ) (capture : Capture) (now : ℚ) : Capture :=
  if capture.termination = none ∧ deadline ≤ now then
    { capture with termination := some .timeout, killDeadline := some (now + 2) }
  else capture

def Capture.overdue (capture : Capture) (now : ℚ) : Bool := capture.killDeadline.any (· ≤ now)

/-- A turn that is not the last one. -/
def Capture.turn (cap : Nat) (deadline : ℚ) (capture : Capture) (turn : Turn) : Capture :=
  turn.arrivals.foldl (Capture.receive cap) (capture.expire deadline turn.now)

/-- The loop, which ends when both pipes are closed or the workers outlive the kill; `none` if it does not end in
these turns. -/
def collect (cap : Nat) (deadline : ℚ) : List Turn → Capture → Option Capture
  | [], capture => if capture.registered = [] then some capture else none
  | turn :: turns, capture =>
      if capture.registered = [] then some capture
      else
        let expired := capture.expire deadline turn.now
        if expired.overdue turn.now then some expired
        else collect cap deadline turns (capture.turn cap deadline turn)

/-- What was read from a pipe. -/
def Capture.readFrom (capture : Capture) (stream : Stream) : Bytes :=
  (capture.reads.filter (·.1 = stream)).flatMap (·.2)

def Capture.buffer (capture : Capture) : Stream → Bytes
  | .stdout => capture.stdout
  | .stderr => capture.stderr

/-- The bytes that were read from both pipes. -/
def Capture.total (capture : Capture) : Nat := (capture.reads.map (·.2.length)).sum

/-- The buffers are what was read, up to the cap, and a worker over the cap is stopped. -/
structure Capture.Exact (cap : Nat) (capture : Capture) : Prop where
  counted : capture.totalSeen = capture.total
  faithful : ∀ stream, capture.buffer stream <+: capture.readFrom stream
  bounded : capture.stdout.length + capture.stderr.length = min cap capture.total
  stopped : cap < capture.total → capture.termination ≠ none
  limited : capture.termination = some .outputLimit → cap < capture.total

section Capture

variable {cap : Nat} {deadline : ℚ} {capture : Capture}

theorem total_eq (capture : Capture) :
    capture.total = (capture.readFrom .stdout).length + (capture.readFrom .stderr).length := by
  unfold Capture.total Capture.readFrom
  induction capture.reads with
  | nil => rfl
  | cons read rest ih =>
      obtain ⟨stream, chunk⟩ := read
      cases stream <;> simp_all <;> omega

/-- Below the cap, nothing has been dropped. -/
theorem Capture.Exact.complete (exact : capture.Exact cap) (below : capture.total ≤ cap) (stream : Stream) :
    capture.buffer stream = capture.readFrom stream := by
  have out := (exact.faithful .stdout).length_le
  have err := (exact.faithful .stderr).length_le
  have sum := exact.bounded
  rw [min_eq_right below, total_eq] at sum
  simp only [Capture.buffer] at out err
  refine (exact.faithful stream).eq_of_length ?_
  cases stream <;> simp only [Capture.buffer] <;> omega

theorem start_exact : Capture.start.Exact cap := by
  constructor
  · rfl
  · intro stream
    cases stream <;> exact List.prefix_refl _
  · simp [Capture.start, Capture.total]
  · simp [Capture.start, Capture.total]
  · simp [Capture.start]

theorem expire_exact (exact : capture.Exact cap) (now : ℚ) : (capture.expire deadline now).Exact cap := by
  unfold Capture.expire
  split
  next =>
    exact { counted := exact.counted, faithful := exact.faithful, bounded := exact.bounded
            stopped := by simp, limited := by simp }
  next => exact exact

theorem see_reads (capture : Capture) (stream : Stream) (chunk : Bytes) :
    (capture.see cap stream chunk).reads = capture.reads ++ [(stream, chunk)] := rfl

theorem see_total (cap : Nat) (capture : Capture) (stream : Stream) (chunk : Bytes) :
    (capture.see cap stream chunk).total = capture.total + chunk.length := by
  simp [Capture.total, see_reads]

theorem see_readFrom (capture : Capture) (stream other : Stream) (chunk : Bytes) :
    (capture.see cap stream chunk).readFrom other = capture.readFrom other ++ if stream = other then chunk else [] := by
  unfold Capture.readFrom
  by_cases same : stream = other <;> simp [see_reads, same]

@[simp] theorem see_termination (cap : Nat) (capture : Capture) (stream : Stream) (chunk : Bytes) :
    (capture.see cap stream chunk).termination = capture.termination := by
  by_cases full : cap - (capture.stdout.length + capture.stderr.length) = 0
  · simp [Capture.see, full]
  · cases stream <;> simp [Capture.see, Capture.extend, full]

/-- Without room, the buffers remain. -/
theorem see_full (stream : Stream) (chunk : Bytes) (full : cap ≤ capture.stdout.length + capture.stderr.length)
    (other : Stream) : (capture.see cap stream chunk).buffer other = capture.buffer other := by
  have room : cap - (capture.stdout.length + capture.stderr.length) = 0 := by omega
  cases other <;> simp [Capture.see, Capture.buffer, room]

/-- With room, the buffer of the pipe takes what fits of the chunk. -/
theorem see_room (stream : Stream) (chunk : Bytes) (room : capture.stdout.length + capture.stderr.length < cap)
    (other : Stream) : (capture.see cap stream chunk).buffer other = capture.buffer other ++
      if stream = other then chunk.take (cap - (capture.stdout.length + capture.stderr.length)) else [] := by
  have room : cap - (capture.stdout.length + capture.stderr.length) ≠ 0 := by omega
  cases stream <;> cases other <;> simp [Capture.see, Capture.extend, Capture.buffer, room]

/-- A chunk fills what is left of the cap. -/
theorem see_faithful (exact : capture.Exact cap) (stream : Stream) (chunk : Bytes) (other : Stream) :
    (capture.see cap stream chunk).buffer other <+: (capture.see cap stream chunk).readFrom other := by
  rw [see_readFrom]
  by_cases full : cap ≤ capture.stdout.length + capture.stderr.length
  · rw [see_full stream chunk full]
    exact (exact.faithful other).trans (List.prefix_append _ _)
  · have below : capture.total ≤ cap := by
      have := exact.bounded
      omega
    have room : capture.stdout.length + capture.stderr.length < cap := by omega
    rw [see_room stream chunk room, exact.complete below]
    refine (List.prefix_append_right_inj _).mpr ?_
    split
    next => exact List.take_prefix _ _
    next => exact List.prefix_refl _

theorem see_bounded (exact : capture.Exact cap) (stream : Stream) (chunk : Bytes) :
    (capture.see cap stream chunk).stdout.length + (capture.see cap stream chunk).stderr.length =
      min cap (capture.see cap stream chunk).total := by
  have bounded := exact.bounded
  rw [see_total]
  by_cases full : cap ≤ capture.stdout.length + capture.stderr.length
  · have out := see_full stream chunk full .stdout
    have err := see_full stream chunk full .stderr
    simp only [Capture.buffer] at out err
    rw [out, err]
    omega
  · have room : capture.stdout.length + capture.stderr.length < cap := by omega
    have out := see_room stream chunk room .stdout
    have err := see_room stream chunk room .stderr
    simp only [Capture.buffer] at out err
    rw [out, err]
    cases stream <;> simp <;> omega

theorem receive_exact (exact : capture.Exact cap) (arrival : Arrival) : (capture.receive cap arrival).Exact cap := by
  unfold Capture.receive
  split
  next => exact exact
  next =>
    exact { counted := exact.counted, faithful := exact.faithful, bounded := exact.bounded
            stopped := exact.stopped, limited := exact.limited }
  next byte rest _ =>
    have counted : (capture.see cap arrival.stream (byte :: rest)).totalSeen =
        (capture.see cap arrival.stream (byte :: rest)).total := by
      rw [see_total, ← exact.counted]
      rfl
    have faithful := see_faithful exact arrival.stream (byte :: rest)
    have bounded := see_bounded exact arrival.stream (byte :: rest)
    have termination := see_termination cap capture arrival.stream (byte :: rest)
    have total := see_total cap capture arrival.stream (byte :: rest)
    generalize capture.see cap arrival.stream (byte :: rest) = seen at *
    by_cases exceeds : cap < seen.totalSeen ∧ seen.termination = none
    · rw [if_pos exceeds]
      exact { counted := counted, faithful := faithful, bounded := bounded
              stopped := by simp, limited := fun _ => counted ▸ exceeds.1 }
    · rw [if_neg exceeds]
      refine { counted := counted, faithful := faithful, bounded := bounded, stopped := ?_, limited := ?_ }
      · intro above running
        exact exceeds ⟨counted ▸ above, running⟩
      · intro limit
        have := exact.limited (termination ▸ limit)
        omega

theorem turn_exact (exact : capture.Exact cap) (turn : Turn) : (capture.turn cap deadline turn).Exact cap :=
  List.foldlRecOn turn.arrivals (Capture.receive cap) (expire_exact exact turn.now)
    fun _ exact arrival _ => receive_exact exact arrival

/-- The capture is exact whenever the loop is interrupted. -/
theorem turns_exact (exact : capture.Exact cap) (turns : List Turn) :
    (turns.foldl (Capture.turn cap deadline) capture).Exact cap :=
  List.foldlRecOn turns (Capture.turn cap deadline) exact fun _ exact turn _ => turn_exact exact turn

/-- The loop ends after some turns, or at the start of the one after. -/
theorem collect_turns {turns : List Turn} {result : Capture} (ended : collect cap deadline turns capture = some result) :
    ∃ front back, turns = front ++ back ∧
      (result = front.foldl (Capture.turn cap deadline) capture ∨
        ∃ turn rest, back = turn :: rest ∧
          result = (front.foldl (Capture.turn cap deadline) capture).expire deadline turn.now) := by
  induction turns generalizing capture with
  | nil =>
      simp only [collect, Option.ite_none_right_eq_some, Option.some.injEq] at ended
      exact ⟨[], [], rfl, .inl ended.2.symm⟩
  | cons turn turns ih =>
      simp only [collect] at ended
      split at ended
      next => exact ⟨[], turn :: turns, rfl, .inl (Option.some.inj ended).symm⟩
      next =>
        split at ended
        next => exact ⟨[], turn :: turns, rfl, .inr ⟨turn, turns, rfl, (Option.some.inj ended).symm⟩⟩
        next =>
          obtain ⟨front, back, rfl, reached⟩ := ih ended
          exact ⟨turn :: front, back, rfl, reached⟩

theorem collect_exact {turns : List Turn} {result : Capture} (exact : capture.Exact cap)
    (ended : collect cap deadline turns capture = some result) : result.Exact cap := by
  obtain ⟨front, back, _, rfl | ⟨turn, _, _, rfl⟩⟩ := collect_turns ended
  · exact turns_exact exact front
  · exact expire_exact (turns_exact exact front) turn.now

/-! The timeout. -/

theorem receive_timeout {arrival : Arrival} (timeout : (capture.receive cap arrival).termination = some .timeout) :
    capture.termination = some .timeout := by
  unfold Capture.receive at timeout
  split at timeout
  next => exact timeout
  next => exact timeout
  next byte rest _ =>
    dsimp only at timeout
    split at timeout
    next => simp at timeout
    next => rwa [see_termination] at timeout

theorem receives_timeout {arrivals : List Arrival}
    (timeout : (arrivals.foldl (Capture.receive cap) capture).termination = some .timeout) :
    capture.termination = some .timeout := by
  induction arrivals generalizing capture with
  | nil => exact timeout
  | cons arrival rest ih => exact receive_timeout (ih timeout)

theorem expire_timeout {now : ℚ} (timeout : (capture.expire deadline now).termination = some .timeout) :
    capture.termination = some .timeout ∨ capture.termination = none ∧ deadline ≤ now := by
  unfold Capture.expire at timeout
  split at timeout
  next late => exact .inr late
  next => exact .inl timeout

theorem turn_timeout {turn : Turn} (timeout : (capture.turn cap deadline turn).termination = some .timeout) :
    capture.termination = some .timeout ∨ capture.termination = none ∧ deadline ≤ turn.now := by
  exact expire_timeout (receives_timeout timeout)

theorem receive_reads (capture : Capture) (arrival : Arrival) :
    capture.reads <+: (capture.receive cap arrival).reads := by
  unfold Capture.receive
  split
  next => exact List.prefix_refl _
  next => exact List.prefix_refl _
  next byte rest _ =>
    dsimp only
    split <;> exact List.prefix_append _ _

theorem expire_reads (capture : Capture) (now : ℚ) : capture.reads <+: (capture.expire deadline now).reads := by
  unfold Capture.expire
  split <;> exact List.prefix_refl _

theorem turn_reads (capture : Capture) (turn : Turn) :
    capture.reads <+: (capture.turn cap deadline turn).reads := by
  exact List.foldlRecOn turn.arrivals (Capture.receive cap)
    (motive := fun seen => capture.reads <+: seen.reads) (expire_reads capture turn.now)
    fun seen (before : capture.reads <+: seen.reads) arrival _ => before.trans (receive_reads seen arrival)

/-- The timeout came while the process was running and within the cap. -/
def Expired (cap : Nat) (deadline : ℚ) (start : Capture) (turns : List Turn) (result : Capture) : Prop :=
  ∃ front turn back, turns = front ++ turn :: back ∧ deadline ≤ turn.now ∧
    let capture := front.foldl (Capture.turn cap deadline) start
    capture.termination = none ∧ capture.total ≤ cap ∧ capture.reads <+: result.reads

theorem Capture.Exact.within (exact : capture.Exact cap) (running : capture.termination = none) :
    capture.total ≤ cap :=
  Nat.le_of_not_lt fun above => exact.stopped above running

theorem turns_expired {turns : List Turn} (exact : capture.Exact cap) (running : capture.termination = none)
    (timeout : (turns.foldl (Capture.turn cap deadline) capture).termination = some .timeout) :
    Expired cap deadline capture turns (turns.foldl (Capture.turn cap deadline) capture) := by
  induction turns using List.reverseRec with
  | nil => simp [running] at timeout
  | append_singleton turns turn ih =>
      rw [List.foldl_append, List.foldl_cons, List.foldl_nil] at timeout ⊢
      rcases turn_timeout timeout with earlier | ⟨still, late⟩
      · obtain ⟨front, first, back, rfl, late, active, within, reads⟩ := ih earlier
        exact ⟨front, first, back ++ [turn], by simp, late, active, within, reads.trans (turn_reads _ turn)⟩
      · exact ⟨turns, turn, [], rfl, late, still, (turns_exact exact turns).within still, turn_reads _ turn⟩

theorem collect_expired {turns : List Turn} {result : Capture} (exact : capture.Exact cap)
    (running : capture.termination = none) (ended : collect cap deadline turns capture = some result)
    (timeout : result.termination = some .timeout) : Expired cap deadline capture turns result := by
  obtain ⟨front, back, rfl, rfl | ⟨turn, rest, rfl, rfl⟩⟩ := collect_turns ended
  · obtain ⟨early, turn, late, rfl, passed, active, within, reads⟩ := turns_expired exact running timeout
    exact ⟨early, turn, late ++ back, by simp, passed, active, within, reads⟩
  · rcases expire_timeout timeout with earlier | ⟨still, late⟩
    · obtain ⟨early, first, late, rfl, passed, active, within, reads⟩ := turns_expired exact running earlier
      exact ⟨early, first, late ++ turn :: rest, by simp, passed, active, within,
        reads.trans (expire_reads _ turn.now)⟩
    · exact ⟨front, turn, rest, rfl, late, still, (turns_exact exact front).within still, expire_reads _ turn.now⟩

end Capture

end AgentTree.Evidence
