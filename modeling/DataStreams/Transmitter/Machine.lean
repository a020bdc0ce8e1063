import DataStreams.Transmitter.Queue

/-! The transmitter as a state machine: one action is one step of one loop, and a list of
actions is a schedule. -/
namespace DataStreams.Transmitter
open Function List

/-- The durations are in nanoseconds. -/
structure Config where
  donID : ℕ
  servers : List ServerURL
  transmitConcurrency : ℕ
  transmitQueueMaxSize : ℕ
  reaperMaxAge : ℕ
  sha256 : Bytes → ℕ
  heap : MinMaxHeap

def Config.commitCap (cfg : Config) : ℕ := 1000 * cfg.servers.length

/-- The transmissions a commit loop gathers before it transmits them at once. -/
def Config.buff (cfg : Config) : ℕ := cfg.commitCap / 10

def defaultMaxTransmitQueueSize : ℕ := 300000

def Config.maxRows (cfg : Config) : ℕ :=
  if cfg.transmitQueueMaxSize = 0 then defaultMaxTransmitQueueSize else cfg.transmitQueueMaxSize

/-- A row of the table, which the nodes of all DONs share. It is inserted at a time in
microseconds. -/
structure Row where
  donID : ℕ
  transmission : Transmission
  insertedAt : ℕ
  deriving DecidableEq

/-- A transmission whose hash has a row already is ignored. -/
def insertRows (cfg : Config) (now : ℕ) (db : List Row) (ts : List Transmission) : List Row :=
  ts.foldl (fun db t =>
    if db.any (fun row => row.transmission.hash cfg.sha256 = t.hash cfg.sha256) then db
    else db ++ [⟨cfg.donID,t,now⟩]) db

def deleteRow (cfg : Config) (db : List Row) (h : ℕ) : List Row :=
  db.filter (fun row => row.transmission.hash cfg.sha256 ≠ h)

/-- The row is not past the maximal age, which 0 disables. -/
def Config.inAge (cfg : Config) (now : ℕ) (row : Row) : Bool :=
  cfg.reaperMaxAge = 0 || now ≤ row.insertedAt + cfg.reaperMaxAge / 1000

def Config.selects (cfg : Config) (now : ℕ) (url : ServerURL) (row : Row) : Bool :=
  row.donID = cfg.donID && row.transmission.serverURL = url && cfg.inAge now row

/-- Descending in the sequence number, and then in the time of the insert. -/
def Row.Before (a b : Row) : Prop :=
  b.transmission.seqNr < a.transmission.seqNr ∨
    (b.transmission.seqNr = a.transmission.seqNr ∧ b.insertedAt ≤ a.insertedAt)

instance : DecidableRel Row.Before := fun _ _ => inferInstanceAs (Decidable (_ ∨ _))
instance : Std.Total Row.Before := ⟨fun a b => by unfold Row.Before; omega⟩
instance : IsTrans Row Row.Before := ⟨fun a b c => by unfold Row.Before; omega⟩

def Config.load (cfg : Config) (now : ℕ) (db : List Row) (url : ServerURL) : List Transmission :=
  (((db.filter (cfg.selects now url)).insertionSort Row.Before).take cfg.maxRows).map Row.transmission

section Table
variable {cfg : Config} {now : ℕ} {db : List Row} {ts : List Transmission} {t : Transmission} {url : ServerURL}
lemma subset_insertRows : ∀ row ∈ db, row ∈ insertRows cfg now db ts := by
  induction ts generalizing db with
  | nil => exact fun _ h => h
  | cons t ts ih =>
    intro row hrow
    refine ih row ?_
    dsimp only
    split_ifs
    · exact hrow
    · exact mem_append_left _ hrow

lemma mem_of_mem_insertRows {row : Row} (h : row ∈ insertRows cfg now db ts) :
    row ∈ db ∨ row.donID = cfg.donID ∧ row.transmission ∈ ts := by
  induction ts generalizing db with
  | nil => exact .inl h
  | cons u ts ih =>
    rcases ih h with hdb | hts
    · dsimp only at hdb
      split_ifs at hdb
      · exact .inl hdb
      · rcases mem_append.1 hdb with hdb | hu
        · exact .inl hdb
        · rw [mem_singleton.1 hu]
          exact .inr ⟨rfl,mem_cons_self⟩
    · exact .inr ⟨hts.1,mem_cons_of_mem _ hts.2⟩

/-- Every transmission has a row with its hash after the insert. -/
lemma exists_row_of_mem (h : t ∈ ts) :
    ∃ row ∈ insertRows cfg now db ts, row.transmission.hash cfg.sha256 = t.hash cfg.sha256 := by
  induction ts generalizing db with
  | nil => exact absurd h not_mem_nil
  | cons u ts ih =>
    rcases mem_cons.1 h with rfl | h
    · by_cases hany : db.any (fun row => row.transmission.hash cfg.sha256 = t.hash cfg.sha256)
      · obtain ⟨row,hrow,heq⟩ := any_eq_true.1 hany
        exact ⟨row,subset_insertRows row hrow,of_decide_eq_true heq⟩
      · refine ⟨⟨cfg.donID,t,now⟩,?_,rfl⟩
        rw [insertRows,foldl_cons,if_neg hany]
        exact subset_insertRows _ (by simp)
    · exact ih h

lemma length_load : (cfg.load now db url).length = min cfg.maxRows (db.filter (cfg.selects now url)).length := by
  rw [Config.load,length_map,length_take,length_insertionSort]

lemma mem_of_mem_load (h : t ∈ cfg.load now db url) : ∃ row ∈ db, row.transmission = t := by
  obtain ⟨row,hrow,rfl⟩ := mem_map.1 h
  exact ⟨row,mem_of_mem_filter ((mem_insertionSort _).1 (mem_of_mem_take hrow)),rfl⟩

/-- All rows are loaded if there are no more than are kept. -/
lemma mem_load {row : Row} (h : (db.filter (cfg.selects now url)).length ≤ cfg.maxRows) (hrow : row ∈ db)
    (hselects : cfg.selects now url row = true) : row.transmission ∈ cfg.load now db url := by
  rw [Config.load,take_of_length_le ((length_insertionSort _ _).trans_le h)]
  exact mem_map_of_mem ((mem_insertionSort _).2 (mem_filter.2 ⟨hrow,hselects⟩))

end Table

/-- Where a commit loop is: at its select, at the context check of `transmit`, at the insert
or pushing. The flag says that it returns after that. -/
inductive CommitStage
  | selecting (transmissions : List Transmission)
  | calling (transmissions : List Transmission) (last : Bool)
  | inserting (transmissions : List Transmission) (last : Bool)
  | pushing (transmissions : List Transmission) (last : Bool)
  | returned
  deriving DecidableEq

structure CommitLoop where
  stage : CommitStage
  ctxDone : Bool
  deriving DecidableEq

inductive TransmitStage
  | popping
  | sending (t : Transmission)
  | waiting
  | returned
  deriving DecidableEq

structure TransmitLoop where
  stage : TransmitStage
  ctxDone : Bool
  deriving DecidableEq

inductive Phase
  | running
  | closing
  | stopping
  | closed
  deriving DecidableEq

/-- The fields from `sent` on record what has happened. -/
structure State where
  phase : Phase
  commitCh : List Transmission
  commitLoops : ℕ → CommitLoop
  queues : ServerURL → TransmitQueue
  transmitLoops : ServerURL → ℕ → TransmitLoop
  db : List Row
  deleteQueue : List ℕ
  sent : List Transmission
  accepted : List Transmission
  committed : List Transmission
  answered : List Transmission
  dropped : List Transmission

/-- Loads the rows of a server into its queue, which refuses more than it may hold. -/
def Config.initQueue (cfg : Config) (now : ℕ) (db : List Row) (url : ServerURL) : Except String (List Transmission) :=
  let rows := cfg.load now db url
  if rows.length > cfg.transmitQueueMaxSize then
    .error s!"transmit queue is too small to hold {rows.length} transmissions"
  else .ok rows

/-- After a Start that succeeded with the given table. -/
def State.started (cfg : Config) (now : ℕ) (db : List Row) : State where
  phase := .running
  commitCh := []
  commitLoops _ := ⟨.selecting [],false⟩
  queues url := ⟨(cfg.initQueue now db url).toOption.getD [],false⟩
  transmitLoops _ _ := ⟨.popping,false⟩
  db := db
  deleteQueue := []
  sent := []
  accepted := []
  committed := db.map Row.transmission
  answered := []
  dropped := []

/-- Start fails if a queue is too small for the rows of its server. -/
def start (cfg : Config) (now : ℕ) (db : List Row) : Option State :=
  if ∀ url ∈ cfg.servers, (cfg.initQueue now db url).toOption.isSome then some (State.started cfg now db) else none

namespace State
def setCommit (s : State) (i : ℕ) (stage : CommitStage) : State :=
  { s with commitLoops := update s.commitLoops i { s.commitLoops i with stage := stage } }

def setTransmit (s : State) (url : ServerURL) (j : ℕ) (stage : TransmitStage) : State :=
  { s with
    transmitLoops := update s.transmitLoops url
      (update (s.transmitLoops url) j { s.transmitLoops url j with stage := stage }) }

def asyncDelete (cfg : Config) (s : State) (ts : List Transmission) : State :=
  { s with deleteQueue := s.deleteQueue ++ ts.map (Transmission.hash cfg.sha256) }

def pushTo (cfg : Config) (s : State) (url : ServerURL) (t : Transmission) : Option State :=
  ((s.queues url).push cfg.heap cfg.transmitQueueMaxSize t).map (fun (q,dropped) =>
    asyncDelete cfg { s with queues := update s.queues url q, dropped := s.dropped ++ dropped } dropped)

end State

inductive Action
  | send (t : Transmission)
  | accept (t : Transmission)
  | receive (i : ℕ)
  | tick (i : ℕ)
  | cancelCommit (i : ℕ)
  | done (i : ℕ)
  | check (i : ℕ)
  | insert (i now : ℕ)
  | push (i : ℕ)
  | pop (url : ServerURL) (j : ℕ)
  | skip (url : ServerURL) (j : ℕ)
  | answer (url : ServerURL) (j : ℕ)
  | fail (url : ServerURL) (j : ℕ)
  | resume (url : ServerURL) (j : ℕ)
  | quit (url : ServerURL) (j : ℕ)
  | cancelTransmit (url : ServerURL) (j : ℕ)
  | flush (h : ℕ)
  | forget (h : ℕ)
  | closeQueue (url : ServerURL)
  | stop
  | finish

variable (cfg : Config)

variable (s : State)
/-- A case of the select in Transmit: the channel takes the transmission. -/
def send (t : Transmission) : Option State :=
  if s.phase = .running ∧ t.serverURL ∈ cfg.servers ∧ s.commitCh.length < cfg.commitCap then
    some { s with commitCh := s.commitCh ++ [t], sent := s.sent ++ [t] }
  else none

/-- Transmit returns nil: the channel has taken the report for every server. -/
def accept (t : Transmission) : Option State :=
  if s.phase = .running ∧ ∀ url ∈ cfg.servers, t.sentTo url ∈ s.sent then
    some { s with accepted := s.accepted ++ cfg.servers.map t.sentTo }
  else none

variable (i : ℕ)
def receive : Option State :=
  match (s.commitLoops i).stage,s.commitCh with
  | .selecting ts,t :: rest =>
    let ts := ts ++ [t]
    some ({ s with commitCh := rest }.setCommit i (if ts.length ≥ cfg.buff then .calling ts false else .selecting ts))
  | _,_ => none

def tick : Option State :=
  match (s.commitLoops i).stage with
  | .selecting ts => some (if ts = [] then s else s.setCommit i (.calling ts false))
  | _ => none

/-- The context is done: only a full buffer is still transmitted. -/
def done : Option State :=
  match (s.commitLoops i).stage with
  | .selecting ts =>
    if (s.commitLoops i).ctxDone then
      some (s.setCommit i (if ts.length ≥ cfg.buff then .calling ts true else .returned))
    else none
  | _ => none

/-- `transmit` does nothing if its context is already cancelled. The last call has a
context of its own. -/
def check : Option State :=
  match (s.commitLoops i).stage with
  | .calling ts last =>
    some (s.setCommit i (if (s.commitLoops i).ctxDone ∧ last = false then .selecting [] else .inserting ts last))
  | _ => none

def insert (now : ℕ) : Option State :=
  match (s.commitLoops i).stage with
  | .inserting ts last =>
    some ({ s with db := insertRows cfg now s.db ts, committed := s.committed ++ ts }.setCommit i (.pushing ts last))
  | _ => none

def afterTransmit (last : Bool) : CommitStage := if last then .returned else .selecting []

/-- A closed queue ends the call. -/
def push : Option State :=
  match (s.commitLoops i).stage with
  | .pushing [] last => some (s.setCommit i (afterTransmit last))
  | .pushing (t :: rest) last =>
    match s.pushTo cfg t.serverURL t with
    | none => some (s.setCommit i (afterTransmit last))
    | some s' => some (s'.setCommit i (.pushing rest last))
  | _ => none

def pop (s : State) (url : ServerURL) (j : ℕ) : Option State :=
  if (s.transmitLoops url j).stage = .popping then
    if (s.queues url).closed then some (s.setTransmit url j .returned)
    else (cfg.heap.pop (s.queues url).pq).map (fun (t,rest) =>
      { s with queues := update s.queues url { s.queues url with pq := rest } }.setTransmit url j (.sending t))
  else none

variable (url : ServerURL)
/-- Capability triggers are not sent. -/
def skip (j : ℕ) : Option State :=
  match (s.transmitLoops url j).stage with
  | .sending t =>
    if t.reportFormat = .capabilityTrigger then
      some ((s.asyncDelete cfg [t]).setTransmit url j .popping)
    else none
  | _ => none

/-- The server answers. A loop whose context is done returns before it deletes the row. -/
def answer (j : ℕ) : Option State :=
  match (s.transmitLoops url j).stage with
  | .sending t =>
    if t.packs then
      let s' := { s with answered := s.answered ++ [t] }
      some (if (s.transmitLoops url j).ctxDone then s'.setTransmit url j .returned
        else (s'.asyncDelete cfg [t]).setTransmit url j .popping)
    else none
  | _ => none

/-- The call fails: the transmission goes back on the queue. -/
def fail (j : ℕ) : Option State :=
  match (s.transmitLoops url j).stage with
  | .sending t =>
    if t.reportFormat = .capabilityTrigger then none
    else if (s.transmitLoops url j).ctxDone then some (s.setTransmit url j .returned)
    else
      match s.pushTo cfg url t with
      | none => some (s.setTransmit url j .returned)
      | some s' => some (s'.setTransmit url j .waiting)
  | _ => none

/-- The wait after a failure ends, or the stop channel ends it. -/
def leaveWait (j : ℕ) (stage : TransmitStage) : Option State :=
  if (s.transmitLoops url j).stage = .waiting then some (s.setTransmit url j stage) else none

def closeQueue : Option State :=
  if s.phase = .running ∨ s.phase = .closing then
    some { s with phase := .closing, queues := update s.queues url { s.queues url with closed := true } }
  else none

/-- The stop channel is closed once all queues are. -/
def stop : Option State :=
  if (s.phase = .running ∨ s.phase = .closing) ∧ ∀ url ∈ cfg.servers, (s.queues url).closed = true then
    some { s with phase := .stopping }
  else none

def State.stopped : Bool := s.phase = .stopping || s.phase = .closed

/-- The stop reaches the context of a loop. -/
def cancelCommit : Option State :=
  if s.stopped then
    some { s with commitLoops := update s.commitLoops i { s.commitLoops i with ctxDone := true } }
  else none

def cancelTransmit (j : ℕ) : Option State :=
  if s.stopped then
    some { s with
      transmitLoops := update s.transmitLoops url
        (update (s.transmitLoops url) j { s.transmitLoops url j with ctxDone := true }) }
  else none

/-- Close returns when every loop has. -/
def finish : Option State :=
  if s.phase = .stopping ∧ (∀ i ∈ List.range cfg.servers.length, (s.commitLoops i).stage = .returned) ∧
      ∀ url ∈ cfg.servers, ∀ j ∈ List.range cfg.transmitConcurrency, (s.transmitLoops url j).stage = .returned then
    some { s with phase := .closed }
  else none

/-- The persistence manager deletes the row of a queued hash. -/
def flush (h : ℕ) : Option State :=
  if s.phase ≠ .closed ∧ h ∈ s.deleteQueue then
    some { s with db := deleteRow cfg s.db h, deleteQueue := s.deleteQueue.erase h }
  else none

/-- It gives a hash up: the queue was full, or it ran out of time. -/
def forget (h : ℕ) : Option State :=
  if h ∈ s.deleteQueue then some { s with deleteQueue := s.deleteQueue.erase h } else none

def step : Action → Option State
  | .send t => send cfg s t
  | .accept t => accept cfg s t
  | .receive i => if i < cfg.servers.length then receive cfg s i else none
  | .tick i => if i < cfg.servers.length then tick s i else none
  | .cancelCommit i => cancelCommit s i
  | .done i => if i < cfg.servers.length then done cfg s i else none
  | .check i => if i < cfg.servers.length then check s i else none
  | .insert i now => if i < cfg.servers.length then insert cfg s i now else none
  | .push i => if i < cfg.servers.length then push cfg s i else none
  | .pop url j => if url ∈ cfg.servers ∧ j < cfg.transmitConcurrency then pop cfg s url j else none
  | .skip url j => if url ∈ cfg.servers ∧ j < cfg.transmitConcurrency then skip cfg s url j else none
  | .answer url j => if url ∈ cfg.servers ∧ j < cfg.transmitConcurrency then answer cfg s url j else none
  | .fail url j => if url ∈ cfg.servers ∧ j < cfg.transmitConcurrency then fail cfg s url j else none
  | .resume url j => leaveWait s url j .popping
  | .quit url j => if s.stopped then leaveWait s url j .returned else none
  | .cancelTransmit url j => cancelTransmit s url j
  | .flush h => flush cfg s h
  | .forget h => forget s h
  | .closeQueue url => if url ∈ cfg.servers then closeQueue s url else none
  | .stop => stop cfg s
  | .finish => finish cfg s

def schedule (actions : List Action) : Option State := actions.foldlM (step cfg) s

end DataStreams.Transmitter
