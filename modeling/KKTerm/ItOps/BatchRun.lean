import KKTerm.ItOps.Runner
import KKTerm.Library.Runs
import Mathlib.Algebra.BigOperators.Group.Finset.Basic

/-!
# The worker pool of a batch run

Workers take host indices from a shared queue, execute them, and store a report
for each. Every index is always in exactly one place: in the queue, with one
worker, skipped after a cancel, or reported.
-/

namespace ItOps

open List

inductive Transport where
  | ssh
  | winrm
  | psexec
  | auto

/-- A host as far as the runner reads it. -/
structure ResolvedHost where
  hostId : Option (List Char)
  connectionId : List Char
  name : List Char
  host : List Char
  transport : Transport

inductive RunEvent where
  | hostStarted (runId connectionId : List Char)
  | hostOutput (runId connectionId chunk : List Char)
  | hostFinished (runId connectionId : List Char) (ok : Bool) (exitCode : Option Int)
      (output : List Char) (durationMs : Nat) (error : Option String)

structure HostReport where
  hostId : Option (List Char)
  connectionId : List Char
  name : List Char
  host : List Char
  transport : Transport
  ok : Bool
  exitCode : Option Int
  bytesOut : Nat
  durationMs : Nat
  output : List Char
  error : Option String

structure RunReport where
  ok : Nat
  failed : Nat
  total : Nat
  hosts : List HostReport

def maxStoredOutput : Nat := 256 * 1024

/-- The octets that a text takes. -/
def byteLength (text : List Char) : Nat :=
  (text.map Char.utf8Size).sum

/-- The longest beginning that takes at most `size` octets. -/
def truncate : Nat → List Char → List Char
  | _, [] => []
  | size, c :: text => if c.utf8Size ≤ size then c :: truncate (size - c.utf8Size) text else []

def capOutput (output : List Char) : List Char :=
  if byteLength output ≤ maxStoredOutput then output
  else truncate maxStoredOutput output ++ "\n…[output truncated]".toList

def ResolvedHost.report (host : ResolvedHost) (outcome : ExecOutcome) (durationMs : Nat) :
    HostReport where
  hostId := host.hostId
  connectionId := host.connectionId
  name := host.name
  host := host.host
  transport := host.transport
  ok := outcome.ok
  exitCode := outcome.exitCode
  bytesOut := byteLength outcome.output
  durationMs := durationMs
  output := capOutput outcome.output
  error := outcome.error

/-- The loop of a worker, cut where other threads can come in between. -/
inductive Worker where
  | idle
  | received (index : Nat)
  | starting (index : Nat)
  | started (index : Nat)
  | executing (index : Nat)
  | returned (index : Nat) (outcome : ExecOutcome) (durationMs : Nat)
  | announced (index : Nat) (outcome : ExecOutcome) (durationMs : Nat)
  | done

/-- What is recorded of a host: its events, and the call of the transport. -/
inductive Mark where
  | started
  | executed
  | output (chunk : List Char)
  | finished (outcome : ExecOutcome) (durationMs : Nat)

namespace Mark

def isExecuted : Mark → Bool
  | executed => true
  | _ => false

def isFinished : Mark → Bool
  | finished .. => true
  | _ => false

def toEvent (runId connectionId : List Char) : Mark → Option RunEvent
  | started => some (.hostStarted runId connectionId)
  | executed => none
  | output chunk => some (.hostOutput runId connectionId chunk)
  | finished outcome durationMs =>
    some (.hostFinished runId connectionId outcome.ok outcome.exitCode outcome.output durationMs
      outcome.error)

end Mark

structure Batch where
  queue : List Nat
  cancel : Bool
  workerCount : Nat
  /-- There are no workers from `workerCount` on. -/
  workers : Nat → Worker
  results : List (Option HostReport)
  log : List (Nat × Mark)

namespace Batch

def new (hosts : List ResolvedHost) (concurrency : Nat) : Batch :=
  let workerCount := min (max concurrency 1) (max hosts.length 1)
  { queue := List.range hosts.length
    cancel := false
    workerCount
    workers := fun w => if w < workerCount then .idle else .done
    results := List.replicate hosts.length none
    log := [] }

inductive Action where
  | recv (w : Nat)
  /-- A relaxed load need not see a flag that has just been set. -/
  | check (w : Nat) (seen : Bool)
  | start (w : Nat)
  | exec (w : Nat)
  | chunk (w : Nat) (text : List Char)
  | finish (w : Nat) (outcome : ExecOutcome) (durationMs : Nat)
  | announce (w : Nat)
  | store (w : Nat)
  | cancel

def put (b : Batch) (w : Nat) (x : Worker) : Batch :=
  { b with workers := Function.update b.workers w x }

def advance (b : Batch) (w index : Nat) (x : Worker) (marks : List Mark) : Batch :=
  { b.put w x with log := b.log ++ marks.map (fun mark => (index, mark)) }

def step (hosts : List ResolvedHost) (b : Batch) : Action → Option Batch
  | .recv w =>
    match b.workers w, b.queue with
    | .idle, index :: queue => some { b.put w (.received index) with queue }
    | .idle, [] => some (b.put w .done)
    | _, _ => none
  | .check w seen =>
    match b.workers w with
    | .received index =>
      if seen then if b.cancel then some (b.put w .idle) else none
      else some (b.advance w index (.starting index) [])
    | _ => none
  | .start w =>
    match b.workers w with
    | .starting index =>
      if index < hosts.length then some (b.advance w index (.started index) [.started]) else none
    | _ => none
  | .exec w =>
    match b.workers w with
    | .started index => some (b.advance w index (.executing index) [.executed])
    | _ => none
  | .chunk w text =>
    match b.workers w with
    | .executing index => some (b.advance w index (.executing index) [.output text])
    | _ => none
  | .finish w outcome durationMs =>
    match b.workers w with
    | .executing index => some (b.advance w index (.returned index outcome durationMs) [])
    | _ => none
  | .announce w =>
    match b.workers w with
    | .returned index outcome durationMs =>
      some (b.advance w index (.announced index outcome durationMs) [.finished outcome durationMs])
    | _ => none
  | .store w =>
    match b.workers w with
    | .announced index outcome durationMs =>
      let report := hosts[index]?.map (fun host => host.report outcome durationMs)
      some { b.put w .idle with results := b.results.set index report }
    | _ => none
  | .cancel => some { b with cancel := true }

def Finished (b : Batch) : Prop :=
  ∀ w, b.workers w = .done

def report (b : Batch) : RunReport :=
  let hosts := b.results.filterMap id
  { ok := hosts.countP (·.ok), failed := hosts.countP (!·.ok), total := b.results.length, hosts }

def marks (b : Batch) (index : Nat) : List Mark :=
  b.log.filterMap (fun entry => if entry.1 = index then some entry.2 else none)

def executions (b : Batch) (index : Nat) : Nat :=
  (b.marks index).countP Mark.isExecuted

def events (b : Batch) (hosts : List ResolvedHost) (runId : List Char) (index : Nat) :
    List RunEvent :=
  (b.marks index).filterMap (fun mark => hosts[index]?.bind (fun host =>
    mark.toEvent runId host.connectionId))

/-- The hosts whose execution has begun and is not yet announced as finished. -/
def inFlight (b : Batch) : List Nat :=
  (List.range b.results.length).filter
    (fun index => 0 < b.executions index ∧ (b.marks index).countP Mark.isFinished = 0)

/-- The indices that were executed, in the order of the input. -/
def executed (b : Batch) : List Nat :=
  (List.range b.results.length).filter (fun index => 0 < b.executions index)

end Batch

namespace Worker

/-- The steps that a worker still has before it leaves, as far as they are known. -/
def weight : Worker → Nat
  | done => 0
  | idle => 1
  | announced .. => 2
  | returned .. => 3
  | executing _ => 4
  | started _ => 5
  | starting _ => 6
  | received _ => 7

def job : Worker → Option Nat
  | received index | starting index | started index | executing index => some index
  | returned index _ _ | announced index _ _ => some index
  | idle | done => none

end Worker

/-- The record of a host between the call of the transport and its end. -/
def Mark.underway (chunks : List (List Char)) : List Mark :=
  .started :: .executed :: chunks.map .output

/-- The record of a host that is through. -/
def Mark.whole (chunks : List (List Char)) (outcome : ExecOutcome) (durationMs : Nat) : List Mark :=
  underway chunks ++ [.finished outcome durationMs]

/-- The record of the host that a worker holds. -/
def Worker.Logs : Worker → List Mark → Prop
  | idle, _ | done, _ => False
  | received _, marks | starting _, marks => marks = []
  | started _, marks => marks = [.started]
  | executing _, marks | returned _ _ _, marks => ∃ chunks, marks = Mark.underway chunks
  | announced _ outcome durationMs, marks => ∃ chunks, marks = Mark.whole chunks outcome durationMs

namespace Batch

inductive Placed (hosts : List ResolvedHost) (b : Batch) (index : Nat) : Prop where
  | queued (member : index ∈ b.queue) (free : ∀ w, (b.workers w).job ≠ some index)
      (blank : b.marks index = []) (open_ : b.results[index]? = some none)
  | held (w : Nat) (job : (b.workers w).job = some index) (out : index ∉ b.queue)
      (only : ∀ other, (b.workers other).job = some index → other = w)
      (logs : (b.workers w).Logs (b.marks index)) (open_ : b.results[index]? = some none)
  | skipped (out : index ∉ b.queue) (free : ∀ w, (b.workers w).job ≠ some index)
      (canceled : b.cancel = true) (blank : b.marks index = [])
      (open_ : b.results[index]? = some none)
  | reported (out : index ∉ b.queue) (free : ∀ w, (b.workers w).job ≠ some index)
      (chunks : List (List Char)) (outcome : ExecOutcome) (durationMs : Nat)
      (through : b.marks index = Mark.whole chunks outcome durationMs)
      (stored : b.results[index]? = some (hosts[index]?.map (·.report outcome durationMs)))

structure Sound (hosts : List ResolvedHost) (b : Batch) : Prop where
  size : b.results.length = hosts.length
  placed : ∀ index, index < hosts.length → Placed hosts b index
  distinct : b.queue.Nodup
  queue_lt : ∀ index ∈ b.queue, index < hosts.length
  job_lt : ∀ w index, (b.workers w).job = some index → index < hosts.length
  log_lt : ∀ entry ∈ b.log, entry.1 < hosts.length
  beyond : ∀ w, b.workerCount ≤ w → b.workers w = .done
  drained : ∀ w, w < b.workerCount → b.workers w = .done → b.queue = []
  positive : 0 < b.workerCount

variable {hosts : List ResolvedHost} {b b' : Batch} {index w : Nat}

lemma marks_append (more : List (Nat × Mark)) (log : b'.log = b.log ++ more) :
    b'.marks index =
      b.marks index ++ more.filterMap (fun e => if e.1 = index then some e.2 else none) := by
  rw [marks, log, filterMap_append]
  rfl

lemma marks_advance_same (x : Worker) (new : List Mark) :
    (b.advance w index x new).marks index = b.marks index ++ new := by
  have log : (b.advance w index x new).log = b.log ++ new.map (fun mark => (index, mark)) := rfl
  rw [marks_append _ log, filterMap_map]
  simp

lemma marks_advance_other {other : Nat} (differ : other ≠ index) (x : Worker)
    (new : List Mark) : (b.advance w index x new).marks other = b.marks other := by
  have log : (b.advance w index x new).log = b.log ++ new.map (fun mark => (index, mark)) := rfl
  rw [marks_append _ log, filterMap_map]
  simp [differ.symm]

/-- An index keeps its place while nothing about it changes. -/
lemma Placed.frame (p : Placed hosts b index) (queue : index ∈ b'.queue ↔ index ∈ b.queue)
    (workers : ∀ w, ((b.workers w).job = some index ∨ (b'.workers w).job = some index) →
      b'.workers w = b.workers w)
    (marks : b'.marks index = b.marks index) (results : b'.results[index]? = b.results[index]?)
    (cancel : b.cancel = true → b'.cancel = true) : Placed hosts b' index := by
  have jobs : ∀ w, (b'.workers w).job = some index → (b.workers w).job = some index :=
    fun w held => workers w (.inr held) ▸ held
  cases p with
  | queued member free blank open_ =>
    exact .queued (queue.mpr member) (fun w held => free w (jobs w held)) (marks.trans blank)
      (results.trans open_)
  | held w job out only logs open_ =>
    have same := workers w (.inl job)
    refine .held w (same ▸ job) (fun member => out (queue.mp member))
      (fun other held => only other (jobs other held)) ?_ (results.trans open_)
    rw [same, marks]
    exact logs
  | skipped out free canceled blank open_ =>
    exact .skipped (fun member => out (queue.mp member)) (fun w held => free w (jobs w held))
      (cancel canceled) (marks.trans blank) (results.trans open_)
  | reported out free chunks outcome durationMs through stored =>
    exact .reported (fun member => out (queue.mp member)) (fun w held => free w (jobs w held))
      chunks outcome durationMs (marks.trans through) (results.trans stored)

lemma Sound.held (s : Sound hosts b) (job : (b.workers w).job = some index) :
    index ∉ b.queue ∧ (∀ other, (b.workers other).job = some index → other = w) ∧
      (b.workers w).Logs (b.marks index) ∧ b.results[index]? = some none := by
  cases s.placed index (s.job_lt w index job) with
  | queued _ free => exact absurd job (free w)
  | held v _ out only logs open_ =>
    obtain rfl := only w job
    exact ⟨out, only, logs, open_⟩
  | skipped _ free => exact absurd job (free w)
  | reported _ free => exact absurd job (free w)

lemma put_same (x : Worker) : (b.put w x).workers w = x := by
  simp [put]

lemma put_other {other : Nat} (differ : other ≠ w) (x : Worker) :
    (b.put w x).workers other = b.workers other := by
  simp [put, differ]

/-- A worker that goes from one host, or none, to one host, or none, leaves the
other hosts where they are. -/
lemma put_frame {x : Worker} {other : Nat} (before : (b.workers w).job ≠ some other)
    (after : x.job ≠ some other) :
    ∀ v, ((b.workers v).job = some other ∨ ((b.put w x).workers v).job = some other) →
      (b.put w x).workers v = b.workers v := by
  intro v held
  by_cases same : v = w
  · subst same
    rw [put_same] at held
    exact held.elim (fun h => absurd h before) (fun h => absurd h after)
  · exact put_other same x

/-- How a worker goes on with its host, and what it records. -/
inductive Goes (index : Nat) : Worker → Worker → List Mark → Prop where
  | check : Goes index (.received index) (.starting index) []
  | start : Goes index (.starting index) (.started index) [.started]
  | exec : Goes index (.started index) (.executing index) [.executed]
  | chunk (text : List Char) : Goes index (.executing index) (.executing index) [.output text]
  | finish (outcome : ExecOutcome) (durationMs : Nat) :
    Goes index (.executing index) (.returned index outcome durationMs) []
  | announce (outcome : ExecOutcome) (durationMs : Nat) :
    Goes index (.returned index outcome durationMs) (.announced index outcome durationMs)
      [.finished outcome durationMs]

lemma Goes.logs {x y : Worker} {new marks : List Mark} (goes : Goes index x y new)
    (logs : x.Logs marks) : y.Logs (marks ++ new) := by
  cases goes with
  | check => exact (append_nil _).trans logs
  | start => exact congrArg (· ++ [Mark.started]) logs
  | exec => exact ⟨[], congrArg (· ++ [Mark.executed]) logs⟩
  | chunk text =>
    obtain ⟨chunks, rfl⟩ := logs
    exact ⟨chunks ++ [text], by simp [Mark.underway]⟩
  | finish outcome durationMs =>
    obtain ⟨chunks, rfl⟩ := logs
    exact ⟨chunks, append_nil _⟩
  | announce outcome durationMs =>
    obtain ⟨chunks, rfl⟩ := logs
    exact ⟨chunks, rfl⟩

lemma Goes.jobs {x y : Worker} {new : List Mark} (goes : Goes index x y new) :
    x.job = some index ∧ y.job = some index := by
  cases goes <;> exact ⟨rfl, rfl⟩

inductive Did (hosts : List ResolvedHost) (b : Batch) : Batch → Prop where
  | take (w index : Nat) (queue : List Nat) (idle : b.workers w = .idle)
      (head : b.queue = index :: queue) : Did hosts b { b.put w (.received index) with queue }
  | leave (w : Nat) (idle : b.workers w = .idle) (empty : b.queue = []) :
    Did hosts b (b.put w .done)
  | skip (w index : Nat) (received : b.workers w = .received index) (canceled : b.cancel = true) :
    Did hosts b (b.put w .idle)
  | advance (w index : Nat) (y : Worker) (new : List Mark)
      (goes : Goes index (b.workers w) y new) : Did hosts b (b.advance w index y new)
  | store (w index : Nat) (outcome : ExecOutcome) (durationMs : Nat)
      (announced : b.workers w = .announced index outcome durationMs) :
    Did hosts b
      { b.put w .idle with
        results := b.results.set index (hosts[index]?.map (·.report outcome durationMs)) }
  | cancel : Did hosts b { b with cancel := true }

lemma step_did {a : Action} (h : step hosts b a = some b') : Did hosts b b' := by
  cases a with
  | recv w =>
    simp only [step] at h
    split at h
    · rename_i index queue idle head
      cases h
      exact .take w index queue idle head
    · rename_i idle empty
      cases h
      exact .leave w idle empty
    · cases h
  | check w seen =>
    simp only [step] at h
    split at h
    · rename_i index received
      split at h
      · split at h
        · rename_i canceled
          cases h
          exact .skip w index received canceled
        · cases h
      · cases h
        exact .advance w index _ _ (received ▸ .check)
    · cases h
  | start w =>
    simp only [step] at h
    split at h
    · rename_i index starting
      split at h
      · cases h
        exact .advance w index _ _ (starting ▸ .start)
      · cases h
    · cases h
  | exec w =>
    simp only [step] at h
    split at h
    · rename_i index started
      cases h
      exact .advance w index _ _ (started ▸ .exec)
    · cases h
  | chunk w text =>
    simp only [step] at h
    split at h
    · rename_i index executing
      cases h
      exact .advance w index _ _ (by rw [executing]; exact .chunk text)
    · cases h
  | finish w outcome durationMs =>
    simp only [step] at h
    split at h
    · rename_i index executing
      cases h
      exact .advance w index _ _ (executing ▸ .finish outcome durationMs)
    · cases h
  | announce w =>
    simp only [step] at h
    split at h
    · rename_i index outcome durationMs returned
      cases h
      exact .advance w index _ _ (returned ▸ .announce outcome durationMs)
    · cases h
  | store w =>
    simp only [step] at h
    split at h
    · rename_i index outcome durationMs announced
      cases h
      exact .store w index outcome durationMs announced
    · cases h
  | cancel =>
    cases h
    exact .cancel

section
variable (s : Sound hosts b)
include s

/-- A worker that is not done comes with an id of the pool. -/
lemma Sound.lt_of_busy (busy : b.workers w ≠ .done) : w < b.workerCount :=
  Nat.lt_of_not_le (fun beyond => busy (s.beyond w beyond))

lemma Sound.put_beyond (busy : b.workers w ≠ .done) (x : Worker) :
    ∀ v, b.workerCount ≤ v → (b.put w x).workers v = .done := by
  intro v beyond
  have differ : v ≠ w := fun same => busy (s.beyond w (same ▸ beyond))
  rw [put_other differ]
  exact s.beyond v beyond

lemma Sound.put_job_lt {x : Worker} (small : ∀ index, x.job = some index → index < hosts.length) :
    ∀ v index, ((b.put w x).workers v).job = some index → index < hosts.length := by
  intro v index held
  by_cases same : v = w
  · subst same
    rw [put_same] at held
    exact small index held
  · rw [put_other same] at held
    exact s.job_lt v index held

lemma Sound.put_drained {x : Worker} {queue : List Nat}
    (left : x = .done → queue = []) (fewer : b.queue = [] → queue = []) :
    ∀ v, v < b.workerCount → (b.put w x).workers v = .done → queue = [] := by
  intro v inside gone
  by_cases same : v = w
  · subst same
    rw [put_same] at gone
    exact left gone
  · rw [put_other same] at gone
    exact fewer (s.drained v inside gone)

lemma Sound.take {queue : List Nat} (idle : b.workers w = .idle)
    (head : b.queue = index :: queue) : Sound hosts { b.put w (.received index) with queue } := by
  have member : index ∈ b.queue := head ▸ mem_cons_self
  have busy : b.workers w ≠ .done := by rw [idle]; nofun
  obtain ⟨fresh, distinct⟩ := nodup_cons.mp (head ▸ s.distinct)
  refine ⟨s.size, ?_, distinct, ?_, ?_, s.log_lt, s.put_beyond busy _, ?_, s.positive⟩
  · intro other small
    by_cases same : other = index
    · subst same
      cases s.placed other small with
      | queued _ free blank open_ =>
        refine .held w ?_ fresh ?_ ?_ open_
        · exact congrArg Worker.job (put_same (b := b) (.received other))
        · intro v held
          by_contra differ
          have old : ((b.put w (.received other)).workers v).job = some other := held
          rw [put_other differ] at old
          exact free v old
        · have logs : ((b.put w (.received other)).workers w).Logs (b.marks other) := by
            rw [put_same]
            exact blank
          exact logs
      | held _ _ out | skipped out | reported out => exact absurd member out
    · refine (s.placed other small).frame ?_ (put_frame ?_ ?_) rfl rfl id
      · rw [head, mem_cons]
        exact ⟨.inr, fun h => h.resolve_left same⟩
      · rw [idle]
        nofun
      · exact fun held => same (Option.some.inj held).symm
  · exact fun other h => s.queue_lt other (head ▸ mem_cons_of_mem index h)
  · refine s.put_job_lt (fun other held => ?_)
    cases held
    exact s.queue_lt index member
  · refine s.put_drained nofun (fun empty => ?_)
    rw [empty] at head
    cases head

lemma Sound.leave (idle : b.workers w = .idle) (empty : b.queue = []) :
    Sound hosts (b.put w .done) := by
  have busy : b.workers w ≠ .done := by rw [idle]; nofun
  refine ⟨s.size, ?_, s.distinct, s.queue_lt, s.put_job_lt nofun, s.log_lt, s.put_beyond busy _,
    s.put_drained (fun _ => empty) id, s.positive⟩
  intro other small
  exact (s.placed other small).frame Iff.rfl (put_frame (by rw [idle]; nofun) nofun) rfl rfl id

lemma Sound.skip (received : b.workers w = .received index)
    (canceled : b.cancel = true) : Sound hosts (b.put w .idle) := by
  have busy : b.workers w ≠ .done := by rw [received]; nofun
  have job : (b.workers w).job = some index := by rw [received]; rfl
  refine ⟨s.size, ?_, s.distinct, s.queue_lt, s.put_job_lt nofun, s.log_lt, s.put_beyond busy _,
    s.put_drained nofun id, s.positive⟩
  intro other small
  by_cases same : other = index
  · subst same
    obtain ⟨out, only, logs, open_⟩ := s.held job
    rw [received] at logs
    refine .skipped out (fun v held => ?_) canceled logs open_
    by_cases here : v = w
    · subst here
      rw [put_same] at held
      cases held
    · rw [put_other here] at held
      exact here (only v held)
  · refine (s.placed other small).frame Iff.rfl (put_frame ?_ nofun) rfl rfl id
    rw [job]
    exact fun held => same (Option.some.inj held).symm

lemma Sound.advance {y : Worker} {new : List Mark}
    (goes : Goes index (b.workers w) y new) : Sound hosts (b.advance w index y new) := by
  obtain ⟨job, job'⟩ := goes.jobs
  have busy : b.workers w ≠ .done := by
    intro gone
    rw [gone] at job
    cases job
  have still : y ≠ .done := by
    intro gone
    rw [gone] at job'
    cases job'
  have small := s.job_lt w index job
  refine ⟨s.size, ?_, s.distinct, s.queue_lt, s.put_job_lt ?_, ?_, s.put_beyond busy _,
    s.put_drained (fun gone => absurd gone still) id, s.positive⟩
  · intro other inside
    by_cases same : other = index
    · subst same
      obtain ⟨out, only, logs, open_⟩ := s.held job
      have here : (b.advance w other y new).workers w = y := put_same y
      refine .held w ?_ out ?_ ?_ open_
      · rw [here]
        exact job'
      · intro v held
        by_contra differ
        have old : (b.advance w other y new).workers v = b.workers v := put_other differ y
        rw [old] at held
        exact differ (only v held)
      · rw [here, marks_advance_same]
        exact goes.logs logs
    · refine (s.placed other inside).frame Iff.rfl (put_frame ?_ ?_) (marks_advance_other same y new)
        rfl id
      · rw [job]
        exact fun held => same (Option.some.inj held).symm
      · rw [job']
        exact fun held => same (Option.some.inj held).symm
  · intro other held
    rw [job'] at held
    cases held
    exact small
  · intro entry member
    rcases mem_append.mp member with old | new
    · exact s.log_lt entry old
    · obtain ⟨mark, _, rfl⟩ := mem_map.mp new
      exact small

lemma Sound.store {outcome : ExecOutcome} {durationMs : Nat}
    (announced : b.workers w = .announced index outcome durationMs) :
    Sound hosts { b.put w .idle with
        results := b.results.set index (hosts[index]?.map (·.report outcome durationMs)) } := by
  have busy : b.workers w ≠ .done := by rw [announced]; nofun
  have job : (b.workers w).job = some index := by rw [announced]; rfl
  have small := s.job_lt w index job
  refine ⟨(length_set ..).trans s.size, ?_, s.distinct, s.queue_lt, s.put_job_lt nofun, s.log_lt,
    s.put_beyond busy _, s.put_drained nofun id, s.positive⟩
  intro other inside
  by_cases same : other = index
  · subst same
    obtain ⟨out, only, logs, open_⟩ := s.held job
    rw [announced] at logs
    obtain ⟨chunks, through⟩ := logs
    refine .reported out (fun v held => ?_) chunks outcome durationMs through ?_
    · have held : ((b.put w .idle).workers v).job = some other := held
      by_cases here : v = w
      · subst here
        rw [put_same] at held
        cases held
      · rw [put_other here] at held
        exact here (only v held)
    · exact getElem?_set_self (s.size.symm ▸ inside)
  · refine (s.placed other inside).frame Iff.rfl (put_frame ?_ nofun) rfl ?_ id
    · rw [job]
      exact fun held => same (Option.some.inj held).symm
    · exact getElem?_set_ne (fun h => same h.symm)

lemma Sound.did (did : Did hosts b b') : Sound hosts b' := by
  cases did with
  | take w index queue idle head => exact s.take idle head
  | leave w idle empty => exact s.leave idle empty
  | skip w index received canceled => exact s.skip received canceled
  | advance w index y new goes => exact s.advance goes
  | store w index outcome durationMs announced => exact s.store announced
  | cancel =>
    refine ⟨s.size, ?_, s.distinct, s.queue_lt, s.job_lt, s.log_lt, s.beyond, s.drained, s.positive⟩
    intro other small
    exact (s.placed other small).frame Iff.rfl (fun _ _ => rfl) rfl rfl (fun _ => rfl)

end

lemma new_sound (hosts : List ResolvedHost) (concurrency : Nat) :
    Sound hosts (new hosts concurrency) := by
  have jobless : ∀ w, ((new hosts concurrency).workers w).job = none := by
    intro w
    simp only [new]
    split <;> rfl
  refine ⟨length_replicate .., ?_, nodup_range, ?_, ?_, nofun, ?_, ?_, ?_⟩
  · intro index small
    refine .queued (mem_range.mpr small) (fun w held => ?_) rfl ?_
    · rw [jobless w] at held
      cases held
    · exact (getElem?_replicate_of_lt small)
  · exact fun index member => mem_range.mp member
  · intro w index held
    rw [jobless w] at held
    cases held
  · intro w beyond
    exact if_neg (Nat.not_lt.mpr beyond)
  · intro w inside gone
    have idle : (new hosts concurrency).workers w = .idle := if_pos inside
    rw [idle] at gone
    cases gone
  · have positive : 0 < min (max concurrency 1) (max hosts.length 1) := by omega
    exact positive

lemma executions_underway (chunks : List (List Char)) :
    (Mark.underway chunks).countP Mark.isExecuted = 1 := by
  have silent : (chunks.map Mark.output).countP Mark.isExecuted = 0 := by
    refine countP_eq_zero.mpr (fun mark member => ?_)
    obtain ⟨chunk, _, rfl⟩ := mem_map.mp member
    exact Bool.false_ne_true
  rw [Mark.underway, countP_cons_of_neg Bool.false_ne_true, countP_cons_of_pos rfl, silent]

lemma executions_whole (chunks : List (List Char)) (outcome : ExecOutcome) (durationMs : Nat) :
    (Mark.whole chunks outcome durationMs).countP Mark.isExecuted = 1 := by
  rw [Mark.whole, countP_append, executions_underway]
  rfl

lemma finished_whole (chunks : List (List Char)) (outcome : ExecOutcome) (durationMs : Nat) :
    0 < (Mark.whole chunks outcome durationMs).countP Mark.isFinished := by
  refine countP_pos_iff.mpr ⟨.finished outcome durationMs, ?_, rfl⟩
  exact mem_append_right _ mem_cons_self

lemma Worker.Logs.executions_le {x : Worker} {marks : List Mark} (logs : x.Logs marks) :
    marks.countP Mark.isExecuted ≤ 1 := by
  cases x with
  | idle | done => exact logs.elim
  | received | starting =>
    cases logs
    exact Nat.zero_le 1
  | started =>
    cases logs
    exact Nat.zero_le 1
  | executing | returned =>
    obtain ⟨chunks, rfl⟩ := logs
    exact (executions_underway chunks).le
  | announced _ outcome durationMs =>
    obtain ⟨chunks, rfl⟩ := logs
    exact (executions_whole chunks outcome durationMs).le

section
variable (s : Sound hosts b)
include s

lemma Sound.marks_beyond (beyond : hosts.length ≤ index) : b.marks index = [] := by
  refine filterMap_eq_nil_iff.mpr (fun entry member => ?_)
  have small := s.log_lt entry member
  exact if_neg (by omega)

lemma Sound.executions_le (index : Nat) : b.executions index ≤ 1 := by
  rcases Nat.lt_or_ge index hosts.length with small | beyond
  · cases s.placed index small with
    | queued _ _ blank | skipped _ _ _ blank =>
      rw [executions, blank]
      exact Nat.zero_le 1
    | held w _ _ _ logs => exact Worker.Logs.executions_le logs
    | reported _ _ chunks outcome durationMs through => rw [executions, through, executions_whole]
  · rw [executions, s.marks_beyond beyond]
    exact Nat.zero_le 1

lemma Sound.inFlight_held (flying : index ∈ b.inFlight) :
    ∃ w, w < b.workerCount ∧ (b.workers w).job = some index := by
  obtain ⟨inside, began, unfinished⟩ := by simpa [inFlight] using flying
  cases s.placed index (s.size ▸ inside) with
  | queued _ _ blank | skipped _ _ _ blank =>
    rw [executions, blank] at began
    cases began
  | held w job =>
    refine ⟨w, s.lt_of_busy (fun gone => ?_), job⟩
    rw [gone] at job
    cases job
  | reported _ _ chunks outcome durationMs through =>
    have finished := finished_whole chunks outcome durationMs
    rw [← through] at finished
    have none_finished : (b.marks index).countP Mark.isFinished = 0 :=
      countP_eq_zero.mpr (by simpa using unfinished)
    omega

lemma Sound.inFlight_le : b.inFlight.length ≤ b.workerCount := by
  let jobs := (range b.workerCount).filterMap (fun w => (b.workers w).job)
  have distinct : b.inFlight.Nodup := nodup_range.filter _
  have covered : ∀ index ∈ b.inFlight, index ∈ jobs := by
    intro index flying
    obtain ⟨w, inside, job⟩ := s.inFlight_held flying
    exact mem_filterMap.mpr ⟨w, mem_range.mpr inside, job⟩
  calc b.inFlight.length ≤ jobs.length := (subperm_of_subset distinct covered).length_le
    _ ≤ (range b.workerCount).length := length_filterMap_le ..
    _ = b.workerCount := length_range

lemma Sound.finished_place (finished : b.Finished) (small : index < hosts.length) :
    (b.cancel = true ∧ b.marks index = [] ∧ b.results[index]? = some none) ∨
    ∃ chunks outcome durationMs, b.marks index = Mark.whole chunks outcome durationMs ∧
      b.results[index]? = some (hosts[index]?.map (·.report outcome durationMs)) := by
  have empty : b.queue = [] := s.drained 0 s.positive (finished 0)
  cases s.placed index small with
  | queued member =>
    rw [empty] at member
    cases member
  | held w job =>
    rw [finished w] at job
    cases job
  | skipped _ _ canceled blank open_ => exact .inl ⟨canceled, blank, open_⟩
  | reported _ _ chunks outcome durationMs through stored =>
    exact .inr ⟨chunks, outcome, durationMs, through, stored⟩

end

/-- One start, the output, and one end. -/
def hostEvents (runId connectionId : List Char) (chunks : List (List Char)) (outcome : ExecOutcome)
    (durationMs : Nat) : List RunEvent :=
  .hostStarted runId connectionId :: chunks.map (.hostOutput runId connectionId) ++
    [.hostFinished runId connectionId outcome.ok outcome.exitCode outcome.output durationMs
      outcome.error]

def Reports (hosts : List ResolvedHost) (b : Batch) (index : Nat) (r : HostReport) : Prop :=
  ∃ host chunks outcome durationMs, hosts[index]? = some host ∧
    b.marks index = Mark.whole chunks outcome durationMs ∧ r = host.report outcome durationMs

lemma Sound.reports (s : Sound hosts b) (finished : b.Finished) (indices : List Nat)
    (small : ∀ index ∈ indices, index < hosts.length) :
    Forall₂ (Reports hosts b) (indices.filter (fun index => 0 < b.executions index))
      (indices.filterMap (fun index => b.results[index]?.join)) := by
  induction indices with
  | nil => exact .nil
  | cons index rest ih =>
    have later := ih (fun other member => small other (mem_cons_of_mem index member))
    have inside := small index mem_cons_self
    rcases s.finished_place finished inside with
      ⟨_, blank, open_⟩ | ⟨chunks, outcome, durationMs, through, stored⟩
    · have unexecuted : ¬ 0 < b.executions index := by
        rw [executions, blank]
        exact Nat.lt_irrefl 0
      rw [filter_cons_of_neg (by simpa using unexecuted), filterMap_cons, open_]
      exact later
    · have executed : 0 < b.executions index := by
        rw [executions, through, executions_whole]
        exact Nat.one_pos
      have host := getElem?_eq_getElem inside
      rw [filter_cons_of_pos (by simpa using executed), filterMap_cons, stored, host]
      exact .cons ⟨_, chunks, outcome, durationMs, host, through, rfl⟩ later

lemma filterMap_results (results : List (Option HostReport)) :
    results.filterMap id =
      (range results.length).filterMap (fun index => results[index]?.join) := by
  have listed : results = (range results.length).map (fun index => results[index]?.join) := by
    refine ext_getElem (by simp) (fun index inside _ => ?_)
    simp [getElem?_eq_getElem inside]
  conv => lhs; rw [listed]
  rw [filterMap_map]
  rfl

lemma Sound.report_hosts (s : Sound hosts b) (finished : b.Finished) :
    Forall₂ (Reports hosts b) b.executed b.report.hosts := by
  rw [report, filterMap_results]
  exact s.reports finished _ (fun index member => s.size ▸ mem_range.mp member)

lemma report_counts (b : Batch) :
    b.report.ok + b.report.failed = b.report.hosts.length ∧ b.report.hosts.length ≤ b.report.total := by
  constructor
  · have split := length_eq_countP_add_countP (fun r : HostReport => r.ok) (l := b.report.hosts)
    rw [split]
    simp [report]
  · exact length_filterMap_le ..

lemma toEvent_whole (runId connectionId : List Char) (chunks : List (List Char))
    (outcome : ExecOutcome) (durationMs : Nat) :
    (Mark.whole chunks outcome durationMs).filterMap (Mark.toEvent runId connectionId) =
      hostEvents runId connectionId chunks outcome durationMs := by
  have outputs : (chunks.map Mark.output).filterMap (Mark.toEvent runId connectionId) =
      chunks.map (.hostOutput runId connectionId) := by
    rw [filterMap_map, ← filterMap_eq_map]
    rfl
  rw [Mark.whole, filterMap_append, hostEvents, ← outputs]
  rfl

/-- An executed host announces its start, its output and its end; the others
announce nothing. -/
lemma Sound.finished_events (s : Sound hosts b) (finished : b.Finished) (runId : List Char)
    (index : Nat) :
    (b.executions index = 1 ∧ ∃ host chunks outcome durationMs, hosts[index]? = some host ∧
      b.events hosts runId index = hostEvents runId host.connectionId chunks outcome durationMs) ∨
    (b.executions index = 0 ∧ b.events hosts runId index = []) := by
  have silent : b.marks index = [] →
      b.executions index = 0 ∧ b.events hosts runId index = [] := by
    intro blank
    rw [executions, events, blank]
    exact ⟨rfl, rfl⟩
  rcases Nat.lt_or_ge index hosts.length with small | beyond
  · rcases s.finished_place finished small with
      ⟨_, blank, _⟩ | ⟨chunks, outcome, durationMs, through, _⟩
    · exact .inr (silent blank)
    · have host := getElem?_eq_getElem small
      refine Or.inl ⟨?_, _, chunks, outcome, durationMs, host, ?_⟩
      · rw [executions, through, executions_whole]
      · simp only [events, through, host, Option.bind_some]
        exact toEvent_whole runId _ chunks outcome durationMs
  · exact .inr (silent (s.marks_beyond beyond))

lemma Sound.all_executed (s : Sound hosts b) (finished : b.Finished) (uncanceled : b.cancel = false)
    (small : index < hosts.length) : b.executions index = 1 := by
  rcases s.finished_place finished small with
    ⟨canceled, _, _⟩ | ⟨chunks, outcome, durationMs, through, _⟩
  · rw [uncanceled] at canceled
    cases canceled
  · rw [executions, through, executions_whole]

/-- What is left to do; a host in the queue takes seven steps. -/
def work (b : Batch) : Nat :=
  7 * b.queue.length + ∑ w ∈ Finset.range b.workerCount, (b.workers w).weight

lemma work_put (inside : w < b.workerCount) (x : Worker) :
    (b.put w x).work + (b.workers w).weight = b.work + x.weight := by
  have member : w ∈ Finset.range b.workerCount := Finset.mem_range.mpr inside
  have others : ∑ v ∈ (Finset.range b.workerCount).erase w, ((b.put w x).workers v).weight =
      ∑ v ∈ (Finset.range b.workerCount).erase w, (b.workers v).weight := by
    refine Finset.sum_congr rfl (fun v hv => ?_)
    rw [put_other (Finset.ne_of_mem_erase hv)]
  have before := Finset.add_sum_erase (Finset.range b.workerCount) (fun v => (b.workers v).weight)
    member
  have after := Finset.add_sum_erase (Finset.range b.workerCount)
    (fun v => ((b.put w x).workers v).weight) member
  rw [others, put_same] at after
  have same : (b.put w x).work = 7 * b.queue.length +
      ∑ v ∈ Finset.range b.workerCount, ((b.put w x).workers v).weight := rfl
  rw [same, work]
  omega

lemma Goes.weight_le {x y : Worker} {new : List Mark} (goes : Goes index x y new) :
    y.weight ≤ x.weight := by
  cases goes <;> simp [Worker.weight]

lemma Sound.work_le (s : Sound hosts b) (did : Did hosts b b') : b'.work ≤ b.work := by
  cases did with
  | take w index queue idle head =>
    have inside := s.lt_of_busy (w := w) (by rw [idle]; nofun)
    have moved := work_put inside (.received index)
    have length : b.queue.length = queue.length + 1 := by rw [head]; rfl
    have split : ({ b.put w (.received index) with queue } : Batch).work + 7 * b.queue.length =
        (b.put w (.received index)).work + 7 * queue.length := by
      simp only [work, put]
      omega
    rw [idle] at moved
    simp only [Worker.weight] at moved
    omega
  | leave w idle empty =>
    have moved := work_put (s.lt_of_busy (w := w) (by rw [idle]; nofun)) .done
    rw [idle] at moved
    simp only [Worker.weight] at moved
    omega
  | skip w index received canceled =>
    have moved := work_put (s.lt_of_busy (w := w) (by rw [received]; nofun)) .idle
    rw [received] at moved
    simp only [Worker.weight] at moved
    omega
  | advance w index y new goes =>
    have busy : b.workers w ≠ .done := by
      intro gone
      have job := goes.jobs.1
      rw [gone] at job
      cases job
    have moved := work_put (s.lt_of_busy busy) y
    have lighter := goes.weight_le
    have same : (b.advance w index y new).work = (b.put w y).work := rfl
    omega
  | store w index outcome durationMs announced =>
    have moved := work_put (s.lt_of_busy (w := w) (by rw [announced]; nofun)) .idle
    rw [announced] at moved
    simp only [Worker.weight] at moved
    change (b.put w .idle).work ≤ b.work
    omega
  | cancel => exact Nat.le_refl b.work

/-- While a worker is left, some step brings the run closer to its end. -/
lemma Sound.progress (s : Sound hosts b) (unfinished : ¬ b.Finished) :
    ∃ a b', step hosts b a = some b' ∧ b'.work < b.work := by
  obtain ⟨w, busy⟩ := not_forall.mp unfinished
  have inside := s.lt_of_busy busy
  have lighter : ∀ x : Worker, x.weight < (b.workers w).weight → (b.put w x).work < b.work := by
    intro x less
    have moved := work_put inside x
    omega
  cases worker : b.workers w with
  | done => exact absurd worker busy
  | idle =>
    rw [worker] at lighter
    cases head : b.queue with
    | nil => exact ⟨.recv w, _, by simp only [step, worker, head], lighter .done (by simp [Worker.weight])⟩
    | cons index queue =>
      refine ⟨.recv w, { b.put w (.received index) with queue }, by simp only [step, worker, head], ?_⟩
      have moved := work_put inside (.received index)
      have length : b.queue.length = queue.length + 1 := by rw [head]; rfl
      simp only [worker, Worker.weight, work, put] at moved ⊢
      omega
  | received index =>
    rw [worker] at lighter
    exact ⟨.check w false, b.advance w index (.starting index) [], by
      simp only [step, worker, if_neg Bool.false_ne_true],
      lighter (.starting index) (by simp [Worker.weight])⟩
  | starting index =>
    rw [worker] at lighter
    have small := s.job_lt w index (by rw [worker]; rfl)
    exact ⟨.start w, b.advance w index (.started index) [.started], by
      simp only [step, worker, if_pos small], lighter (.started index) (by simp [Worker.weight])⟩
  | started index =>
    rw [worker] at lighter
    exact ⟨.exec w, b.advance w index (.executing index) [.executed], by simp only [step, worker],
      lighter (.executing index) (by simp [Worker.weight])⟩
  | executing index =>
    rw [worker] at lighter
    let outcome : ExecOutcome := ⟨true, none, [], none⟩
    exact ⟨.finish w outcome 0, b.advance w index (.returned index outcome 0) [], by
      simp only [step, worker], lighter (.returned index outcome 0) (by simp [Worker.weight])⟩
  | returned index outcome durationMs =>
    rw [worker] at lighter
    exact ⟨.announce w, b.advance w index (.announced index outcome durationMs)
      [.finished outcome durationMs], by simp only [step, worker],
      lighter (.announced index outcome durationMs) (by simp [Worker.weight])⟩
  | announced index outcome durationMs =>
    rw [worker] at lighter
    refine ⟨.store w, _, by simp only [step, worker]; rfl, ?_⟩
    exact lighter .idle (by simp [Worker.weight])

lemma run_workerCount {actions : List Action} {concurrency : Nat}
    (ran : Runs.run (step hosts) (new hosts concurrency) actions = some b) :
    b.workerCount ≤ max 1 concurrency := by
  refine Runs.run_invariant (P := fun b => b.workerCount ≤ max 1 concurrency)
    (fun b a b' stepped kept => ?_) ran ?_
  · cases step_did stepped <;> exact kept
  · have workers : (new hosts concurrency).workerCount = min (max concurrency 1) (max hosts.length 1) :=
      rfl
    omega

end Batch

/-- In every run each host is executed at most once, and no more hosts than
workers are in flight. A run that is not through can go on and gets closer to
its end. When it is through, the executed hosts have announced one start, their
output and one end, and the others nothing; the report has the executed hosts in
the order of the input; and without a cancel every host was executed. -/
theorem batch_accounts (hosts : List ResolvedHost) (concurrency : Nat) (runId : List Char)
    (actions : List Batch.Action) :
    ∀ b, Runs.run (Batch.step hosts) (.new hosts concurrency) actions = some b →
      (∀ index, b.executions index ≤ 1) ∧
      b.inFlight.length ≤ max 1 concurrency ∧
      (∀ a b', b.step hosts a = some b' → b'.work ≤ b.work) ∧
      (¬ b.Finished → ∃ a b', b.step hosts a = some b' ∧ b'.work < b.work) ∧
      (b.Finished →
        (∀ index,
          (b.executions index = 1 ∧ ∃ host chunks outcome durationMs, hosts[index]? = some host ∧
            b.events hosts runId index =
              Batch.hostEvents runId host.connectionId chunks outcome durationMs) ∨
          (b.executions index = 0 ∧ b.events hosts runId index = [])) ∧
        List.Forall₂ (Batch.Reports hosts b) b.executed b.report.hosts ∧
        b.report.ok + b.report.failed = b.report.hosts.length ∧
        b.report.hosts.length ≤ hosts.length ∧ b.report.total = hosts.length ∧
        (b.cancel = false → ∀ index, index < hosts.length → b.executions index = 1)) := by
  intro b ran
  have sound := Runs.run_invariant (P := Batch.Sound hosts)
    (fun b a b' stepped s => s.did (Batch.step_did stepped)) ran (Batch.new_sound hosts concurrency)
  refine ⟨sound.executions_le, sound.inFlight_le.trans (Batch.run_workerCount ran),
    fun a b' stepped => sound.work_le (Batch.step_did stepped), sound.progress, fun finished => ?_⟩
  obtain ⟨counted, bounded⟩ := b.report_counts
  have total : b.report.total = hosts.length := sound.size
  exact ⟨sound.finished_events finished runId, sound.report_hosts finished, counted,
    total ▸ bounded, total, fun uncanceled index small => sound.all_executed finished uncanceled small⟩

def loneHost : ResolvedHost :=
  { hostId := none, connectionId := ['c'], name := ['n'], host := ['h'], transport := .ssh }

/-- A run over one host, from its queue to its report. -/
def loneRun : List Batch.Action :=
  [.recv 0, .check 0 false, .start 0, .exec 0, .finish 0 ⟨true, some 0, [], none⟩ 5, .announce 0,
    .store 0, .recv 0]

theorem lone_host_reported :
    ∃ b, Runs.run (Batch.step [loneHost]) (.new [loneHost] 4) loneRun =
        some b ∧
      b.executions 0 ≤ 1 ∧ b.inFlight.length ≤ 4 := by
  have possible : (Runs.run (Batch.step [loneHost]) (.new [loneHost] 4)
      loneRun).isSome = true := by decide +kernel
  obtain ⟨b, ran⟩ := Option.isSome_iff_exists.mp possible
  obtain ⟨executions, inFlight, -⟩ := batch_accounts _ 4 [] loneRun b ran
  exact ⟨b, ran, executions 0, inFlight⟩

end ItOps
