import AgentTree.AppendLog
import AgentTree.StoreOps

/-!
Event streams and the audit cursor: `append_event` in blocks of any nesting, which may roll
back, and readers that page through the committed events of a tenant.
-/

namespace AgentTree

open Outcome Relational Transactional

/-- One call of `append_event`, with its clock reading and the identifier it draws. -/
structure AppendCall where
  now : Int
  uuid : String
  tenantId : String
  streamId : String
  eventType : String
  payload : Json
  eventId : Option String
  expectedStreamVersion : Option Int
  occurredAt : Option Int

def AppendCall.run (store : Store) (call : AppendCall) (db : Db) : Except PyError EventRow × Db :=
  transact (store.appendEvent call.now call.uuid call.tenantId call.streamId call.eventType call.payload
    call.eventId call.expectedStreamVersion call.occurredAt) (fun row _ => .ok row) db

/-- A `list_events` reader of one tenant, which goes on after the last sequence that it saw. -/
structure EventReader where
  afterSequence : Nat
  events : List EventRow

def EventReader.start : EventReader := ⟨0, []⟩

/-- One page; a call that raises leaves the reader where it is. -/
def EventReader.page (tenantId : String) (limit : Int) (db : Db) (reader : EventReader) : EventReader :=
  match listEvents tenantId none reader.afterSequence limit db with
  | .ok rows => ⟨advanced EventRow.sequence reader.afterSequence rows, reader.events ++ rows⟩
  | .error _ => reader

/-- A statement of the writers, or a page of the reader, which sees what is committed. -/
inductive AuditStep : Type
  | write (command : Command AppendCall)
  | page

structure Audit where
  session : Session Db
  reader : EventReader

namespace Audit

def start : Audit := ⟨.start .empty, .start⟩

variable (store : Store) (tenantId : String) (limit : Int)

def step (audit : Audit) : AuditStep → Audit
  | .write command => { audit with session := audit.session.step (fun call db => (call.run store db).2) command }
  | .page => { audit with reader := audit.reader.page tenantId limit audit.session.committed }

def play (audit : Audit) (steps : List AuditStep) : Audit := steps.foldl (step store tenantId limit) audit

end Audit

/-! The streams of a database. -/

/-- The events of a stream, in the order of the table. -/
def Db.stream (db : Db) (tenantId streamId : String) : List EventRow :=
  db.events.rows.filter fun row => row.tenantId = tenantId && row.streamId = streamId

def Db.tenantEvents (db : Db) (tenantId : String) : List EventRow :=
  db.events.rows.filter fun row => row.tenantId = tenantId

/-- Sequences rise along the table, and the versions of each stream are 1 to n in that order. -/
structure Db.Streamed (db : Db) : Prop where
  ascending : Ascending EventRow.sequence db.events.rows
  positive : ∀ row ∈ db.events.rows, 0 < row.sequence
  versions : ∀ tenantId streamId, (db.stream tenantId streamId).map EventRow.streamVersion =
    List.range' 1 (db.stream tenantId streamId).length

/-- Nothing that is there is changed or overtaken. -/
structure Extends (before after : Db) : Prop where
  rows : ∃ more, after.events.rows = before.events.rows ++ more

variable {store : Store} {db after : Db} {row : EventRow}

theorem streamed_empty : Db.empty.Streamed where
  ascending := List.Pairwise.nil
  positive row member := by simp [Db.empty, Table.empty] at member
  versions tenantId streamId := rfl

theorem le_foldl_max {ρ : Type} (f : ρ → Nat) (rows : List ρ) (start : Nat) :
    start ≤ rows.foldl (fun top row => max top (f row)) start ∧
      ∀ row ∈ rows, f row ≤ rows.foldl (fun top row => max top (f row)) start := by
  induction rows generalizing start with
  | nil => simp
  | cons first rest ih =>
      obtain ⟨above, all⟩ := ih (max start (f first))
      refine ⟨(Nat.le_max_left _ _).trans above, fun row member => ?_⟩
      rcases List.mem_cons.mp member with rfl | later
      · exact (Nat.le_max_right _ _).trans above
      · exact all row later

theorem Db.Streamed.tenant (streamed : db.Streamed) (tenantId : String) :
    Ascending EventRow.sequence (db.tenantEvents tenantId) := streamed.ascending.filter _

theorem lt_nextSequence (member : row ∈ db.events.rows) : row.sequence < db.nextSequence :=
  Nat.lt_succ_of_le ((le_foldl_max EventRow.sequence db.events.rows 0).2 row member)

theorem foldl_max_range' (n start top : Nat) (low : top ≤ start) :
    (List.range' (start + 1) n).foldl max top = if n = 0 then top else start + n := by
  induction n generalizing start top with
  | zero => rfl
  | succ n ih =>
      rw [List.range'_succ, List.foldl_cons, Nat.max_eq_right (by omega), ih (start + 1) (start + 1) (Nat.le_refl _)]
      split <;> simp <;> omega

/-- The highest version of a stream is the number of its events. -/
theorem Db.Streamed.streamVersion (streamed : db.Streamed) (tenantId streamId : String) :
    db.streamVersion tenantId streamId = (db.stream tenantId streamId).length := by
  have mapped : db.streamVersion tenantId streamId =
      ((db.stream tenantId streamId).map EventRow.streamVersion).foldl max 0 := by
    simp [Db.streamVersion, Db.stream, List.foldl_map]
  rw [mapped, streamed.versions, foldl_max_range' _ 0 0 (Nat.le_refl 0)]
  split <;> omega

theorem Extends.refl (db : Db) : Extends db db := ⟨[], by simp⟩

theorem Extends.trans {later : Db} (first : Extends db after) (second : Extends after later) :
    Extends db later := by
  obtain ⟨⟨one, grown⟩⟩ := first
  obtain ⟨⟨two, again⟩⟩ := second
  exact ⟨one ++ two, by rw [again, grown, List.append_assoc]⟩

/-- What a call of `append_event` that succeeds has found and written. -/
theorem AppendCall.run_ok {call : AppendCall} (ran : (call.run store db).1 = .ok row) :
    (call.run store db).2.events.rows = db.events.rows ++ [row] ∧ row.sequence = db.nextSequence ∧
      row.streamVersion = db.streamVersion row.tenantId row.streamId + 1 ∧
      ∀ expected, call.expectedStreamVersion = some expected → (row.streamVersion : Int) = expected + 1 := by
  unfold AppendCall.run transact at ran ⊢
  split at ran
  next written after appended =>
    obtain rfl : written = row := Except.ok.inj ran
    dsimp only
    simp only [Store.appendEvent, bind_eq_ok, pure_eq_ok, orRaise_eq_ok, ensure_eq_ok, Prod.mk.injEq] at appended
    obtain ⟨_, _, json, text, _, _, _, met, _, _, _, _, events, inserted, rfl, rfl⟩ := appended
    refine ⟨(Table.insert_eq_some.mp inserted).2, rfl, rfl, fun expected wanted => ?_⟩
    simp only [wanted, Option.all_some, decide_eq_true_eq] at met
    simp [met]
  next => simp at ran

theorem AppendCall.run_error {call : AppendCall} {error : PyError} (ran : (call.run store db).1 = .error error) :
    (call.run store db).2 = db :=
  transact_raises (fun _ _ _ => ⟨_, rfl⟩) ran

/-- A new event with the next sequence and the next version of its stream. -/
theorem Db.Streamed.appended (streamed : db.Streamed) (grown : after.events.rows = db.events.rows ++ [row])
    (sequence : row.sequence = db.nextSequence)
    (version : row.streamVersion = db.streamVersion row.tenantId row.streamId + 1) : after.Streamed where
  ascending := by
    rw [grown]
    refine List.pairwise_append.mpr ⟨streamed.ascending, by simp, fun earlier member later last => ?_⟩
    rw [List.mem_singleton.mp last, sequence]
    exact lt_nextSequence member
  positive other member := by
    rw [grown] at member
    rcases List.mem_append.mp member with early | last
    · exact streamed.positive other early
    · rw [List.mem_singleton.mp last, sequence]
      exact Nat.succ_pos _
  versions tenantId streamId := by
    have split : after.stream tenantId streamId = db.stream tenantId streamId ++
        [row].filter (fun other => other.tenantId = tenantId && other.streamId = streamId) := by
      simp [Db.stream, grown]
    by_cases mine : row.tenantId = tenantId ∧ row.streamId = streamId
    · obtain ⟨rfl, rfl⟩ := mine
      have kept : [row].filter (fun other => other.tenantId = row.tenantId && other.streamId = row.streamId) =
          [row] := by simp
      rw [split, kept, List.map_append, streamed.versions, List.map_singleton, version, streamed.streamVersion,
        List.length_append, List.length_singleton, List.range'_concat]
      simp [Nat.add_comm]
    · have dropped : [row].filter (fun other => other.tenantId = tenantId && other.streamId = streamId) = [] := by
        simpa using mine
      rw [split, dropped, List.append_nil, streamed.versions]

theorem AppendCall.run_kept (store : Store) (call : AppendCall) (db : Db) (streamed : db.Streamed) :
    (call.run store db).2.Streamed ∧ Extends db (call.run store db).2 := by
  cases ran : (call.run store db).1 with
  | ok row =>
      obtain ⟨grown, sequence, version, _⟩ := AppendCall.run_ok ran
      exact ⟨streamed.appended grown sequence version, ⟨[row], grown⟩⟩
  | error error =>
      rw [AppendCall.run_error ran]
      exact ⟨streamed, .refl db⟩

/-! The reader. -/

/-- The reader has seen exactly the events of its tenant up to its cursor. -/
structure EventReader.Caught (tenantId : String) (db : Db) (reader : EventReader) : Prop where
  events : reader.events = seen EventRow.sequence reader.afterSequence (db.tenantEvents tenantId)
  known : reader.afterSequence = 0 ∨ ∃ row ∈ db.events.rows, row.sequence = reader.afterSequence

variable {tenantId : String} {limit : Int} {reader : EventReader}

/-- New events are behind every cursor. -/
theorem EventReader.Caught.extends (caught : reader.Caught tenantId db) (grown : Extends db after)
    (streamed : after.Streamed) : reader.Caught tenantId after := by
  obtain ⟨more, rows⟩ := grown.rows
  have fresh : ∀ entry ∈ more, reader.afterSequence < entry.sequence := by
    intro entry member
    rcases caught.known with zero | ⟨row, there, same⟩
    · rw [zero]
      exact streamed.positive entry (rows ▸ List.mem_append_right _ member)
    · rw [← same]
      exact (List.pairwise_append.mp (rows ▸ streamed.ascending)).2.2 row there entry member
  refine ⟨?_, ?_⟩
  · have split : after.tenantEvents tenantId = db.tenantEvents tenantId ++
        more.filter fun row => row.tenantId = tenantId := by
      simp [Db.tenantEvents, rows]
    rw [split, caught.events, seen_of_grown fun entry member => fresh entry (List.mem_filter.mp member).1]
  · rcases caught.known with zero | ⟨row, there, same⟩
    · exact .inl zero
    · exact .inr ⟨row, rows ▸ List.mem_append_left _ there, same⟩

theorem listEvents_ok {afterSequence : Nat} {rows : List EventRow} (streamed : db.Streamed)
    (ran : listEvents tenantId none afterSequence limit db = .ok rows) :
    0 < limit.toNat ∧
      rows = (unseen EventRow.sequence afterSequence (db.tenantEvents tenantId)).take limit.toNat := by
  simp only [listEvents, bind_eq_ok, pure_eq_ok] at ran
  obtain ⟨_, _, _, bounded, _, _, rfl⟩ := ran
  simp only [positiveLimit, positiveInt, bind_eq_ok, ensure_eq_ok, decide_eq_true_eq] at bounded
  obtain ⟨_, positive, _⟩ := bounded
  have behind : (db.events.rows.filter fun row => row.tenantId = tenantId &&
      (afterSequence : Int) < row.sequence && (none : Option String).all (· = row.streamId)) =
      unseen EventRow.sequence afterSequence (db.tenantEvents tenantId) := by
    simp [unseen, Db.tenantEvents, List.filter_filter, Bool.and_comm]
  have sorted := ((streamed.tenant tenantId).filter fun row => afterSequence < row.sequence).sorted
  refine ⟨by omega, ?_⟩
  rw [behind]
  exact congrArg (List.take limit.toNat) sorted

theorem EventReader.Caught.page (caught : reader.Caught tenantId db) (streamed : db.Streamed) :
    (reader.page tenantId limit db).Caught tenantId db := by
  unfold EventReader.page
  split
  next rows ran =>
    obtain ⟨_, rfl⟩ := listEvents_ok streamed ran
    refine ⟨?_, ?_⟩
    · rw [caught.events]
      exact (seen_page (streamed.tenant tenantId) limit.toNat).symm
    · cases last : ((unseen EventRow.sequence reader.afterSequence (db.tenantEvents tenantId)).take
          limit.toNat).getLast? with
      | none => simpa [advanced, last] using caught.known
      | some row =>
          have member := List.mem_of_mem_take (List.mem_of_getLast? last)
          refine .inr ⟨row, (List.mem_filter.mp (List.mem_filter.mp member).1).1, ?_⟩
          simp [advanced, last]
  next => exact caught

theorem EventReader.Caught.exhausted (caught : reader.Caught tenantId db) (streamed : db.Streamed)
    (empty : listEvents tenantId none reader.afterSequence limit db = .ok []) :
    reader.events = db.tenantEvents tenantId := by
  obtain ⟨positive, none⟩ := listEvents_ok streamed empty
  have nothing : unseen EventRow.sequence reader.afterSequence (db.tenantEvents tenantId) = [] := by
    rcases List.take_eq_nil_iff.mp none.symm with zero | nothing
    · omega
    · exact nothing
  have whole : seen EventRow.sequence reader.afterSequence (db.tenantEvents tenantId) ++ _ = _ :=
    seen_append_unseen (streamed.tenant tenantId)
  rwa [nothing, List.append_nil, ← caught.events] at whole

/-- As many events of its stream stand before an event as its version tells. -/
theorem Db.Streamed.preceding (streamed : db.Streamed) (member : row ∈ db.events.rows) :
    ((db.stream row.tenantId row.streamId).filter fun other => other.sequence < row.sequence).length + 1 =
      row.streamVersion := by
  have here : row ∈ db.stream row.tenantId row.streamId := by simp [Db.stream, member]
  obtain ⟨before, behind, split⟩ := List.append_of_mem here
  have ascending : Ascending EventRow.sequence (db.stream row.tenantId row.streamId) := streamed.ascending.filter _
  have versions := streamed.versions row.tenantId row.streamId
  rw [split] at ascending versions ⊢
  obtain ⟨_, rest, apart⟩ := List.pairwise_append.mp ascending
  have earlier : before.filter (fun other => other.sequence < row.sequence) = before :=
    List.filter_eq_self.mpr fun other held => by simpa using apart other held row (by simp)
  have later : (row :: behind).filter (fun other => other.sequence < row.sequence) = [] := by
    refine List.filter_eq_nil_iff.mpr fun other held => ?_
    rcases List.mem_cons.mp held with rfl | after
    · simp
    · have above := (List.pairwise_cons.mp rest).1 other after
      simp only [decide_eq_true_eq, Nat.not_lt]
      omega
  rw [List.filter_append, earlier, later, List.append_nil]
  have place := congrArg (·[before.length]?) versions
  simp at place
  omega

/-! Runs. -/

structure Audit.Sound (tenantId : String) (audit : Audit) : Prop where
  session : audit.session.Sound Db.Streamed Extends
  reader : audit.reader.Caught tenantId audit.session.committed

theorem Audit.Sound.start (tenantId : String) : Audit.start.Sound tenantId where
  session := Session.Sound.start streamed_empty
  reader := ⟨by simp [Audit.start, EventReader.start, seen, Db.tenantEvents, Session.start, Session.committed,
    Db.empty, Table.empty], .inl rfl⟩

theorem Audit.Sound.step {audit : Audit} (sound : audit.Sound tenantId) (step : AuditStep) :
    (audit.step store tenantId limit step).Sound tenantId := by
  cases step with
  | write command =>
      have next := sound.session.step Extends.refl Extends.trans (AppendCall.run_kept store) command
      exact ⟨next.1, sound.reader.extends next.2 next.1.committed⟩
  | page => exact ⟨sound.session, sound.reader.page sound.session.committed⟩

theorem Audit.Sound.play {audit : Audit} (sound : audit.Sound tenantId) (steps : List AuditStep) :
    (audit.play store tenantId limit steps).Sound tenantId := by
  induction steps generalizing audit with
  | nil => exact sound
  | cons first rest ih => exact ih (sound.step first)

namespace SampleEvents

def plain : Store := ⟨fun _ => "", none, 0⟩

def append (uuid : String) (expected : Option Int) : AuditStep :=
  .write (.call ⟨100, uuid, "acme", "runs", "decided", .null, none, expected, none⟩)

def steps : List AuditStep :=
  [append "a" (some 0), .page, .write .enter, append "b" none, .write .rollback,
    .write .enter, append "c" (some 1), .write .leave, .page]

end SampleEvents

end AgentTree
