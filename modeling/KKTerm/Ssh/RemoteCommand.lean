import KKTerm.Library.Utf8

/-!
# Remote commands

A command runs on a channel of its own. The loop over the messages of the channel decodes the
output, keeps the exit status and stops at the first end of file or close. What it returns is
compared with what the server sent.
-/

namespace Ssh

open List Utf8

inductive ChannelMsg where
  | data (data : List UInt8)
  | extendedData (data : List UInt8) (ext : UInt32)
  | exitStatus (exitStatus : UInt32)
  | exitSignal (signalName : List Char) (coreDumped : Bool) (errorMessage langTag : List Char)
  | eof
  | close
  | windowAdjusted (newSize : UInt32)
  | xonXoff (clientCanDo : Bool)
  | success
  | failure
  deriving DecidableEq

/-- What the server answers to an open channel and to a command, and the messages that follow. -/
structure Session where
  channelOpenSession : Except (List Char) Unit
  exec : List Char → Except (List Char) (List ChannelMsg)

/-- The state of the loop, with the chunks that were passed on. -/
structure Received where
  output : List Char
  exitStatus : UInt32
  chunks : List (List Char)

def Received.push (r : Received) (data : List UInt8) : Received :=
  { r with
    output := r.output ++ Utf8.fromUtf8Lossy data
    chunks := r.chunks ++ [Utf8.fromUtf8Lossy data] }

def receive (r : Received) : List ChannelMsg → Received
  | [] => r
  | message :: rest =>
    match message with
    | .data data => receive (r.push data) rest
    | .extendedData data _ => receive (r.push data) rest
    | .exitStatus status => receive { r with exitStatus := status } rest
    | .eof => r
    | .close => r
    | _ => receive r rest

abbrev Streamed (α : Type) := List (List Char) × Except (List Char) α

def execStreamOnSessionWithStatus (session : Session) (command : List Char) :
    Streamed (Int32 × List Char) :=
  match session.channelOpenSession with
  | .error error => ([], .error ("failed to open SSH command channel: ".toList ++ error))
  | .ok () =>
    match session.exec command with
    | .error error => ([], .error ("failed to run SSH command: ".toList ++ error))
    | .ok messages =>
      let r := receive ⟨[], 0, []⟩ messages
      (r.chunks, .ok (r.exitStatus.toInt32, r.output))

inductive Ending where
  | status (exitStatus : UInt32)
  | signal (signalName : List Char)
  deriving DecidableEq

def Ending.toStatus : Ending → Option UInt32
  | .status exitStatus => some exitStatus
  | .signal _ => none

namespace ChannelMsg

def payload : ChannelMsg → Option (List UInt8)
  | .data bytes => some bytes
  | .extendedData bytes _ => some bytes
  | _ => none

def ending : ChannelMsg → Option Ending
  | .exitStatus status => some (.status status)
  | .exitSignal signalName _ _ _ => some (.signal signalName)
  | _ => none

end ChannelMsg

/-- The messages that the loop reads: those before the end of file. -/
def heard (messages : List ChannelMsg) : List ChannelMsg :=
  messages.takeWhile (· ≠ .eof)

/-- What the loop makes of the messages that it reads. -/
def Received.after (r : Received) (read : List ChannelMsg) : Received :=
  { output := r.output ++ ((read.filterMap ChannelMsg.payload).map Utf8.fromUtf8Lossy).flatten
    exitStatus := ((read.filterMap ChannelMsg.ending).filterMap Ending.toStatus).getLastD
      r.exitStatus
    chunks := r.chunks ++ (read.filterMap ChannelMsg.payload).map Utf8.fromUtf8Lossy }

variable (r : Received) {message : ChannelMsg} {messages : List ChannelMsg}

lemma Received.after_nil : r.after [] = r := by
  simp [Received.after]

lemma Received.after_payload {bytes : List UInt8} {read : List ChannelMsg}
    (carries : message.payload = some bytes) (goes_on : message.ending = none) :
    r.after (message :: read) = (r.push bytes).after read := by
  simp only [Received.after, Received.push, filterMap_cons, carries, goes_on, map_cons,
    flatten_cons, append_assoc, singleton_append]

lemma Received.after_status (status : UInt32) (read : List ChannelMsg) :
    r.after (.exitStatus status :: read) = { r with exitStatus := status }.after read := by
  simp only [Received.after, filterMap_cons, ChannelMsg.payload, ChannelMsg.ending,
    Ending.toStatus, getLastD_cons]

lemma heard_cons {rest : List ChannelMsg} (not_eof : message ≠ .eof) :
    heard (message :: rest) = message :: heard rest :=
  takeWhile_cons_of_pos (by simpa using not_eof)

lemma receive_eq (still_open : ChannelMsg.close ∉ messages) :
    receive r (messages ++ [.close]) = r.after (heard messages) := by
  induction messages generalizing r with
  | nil => exact r.after_nil.symm
  | cons message rest ih =>
    obtain ⟨not_close, still_open⟩ := not_or.mp (mt mem_cons.mpr still_open)
    have rest_read := fun r => ih r still_open
    cases message with
    | close => exact absurd rfl not_close
    | eof => exact r.after_nil.symm
    | data bytes =>
      have front : heard (.data bytes :: rest) = .data bytes :: heard rest := rfl
      rw [front, Received.after_payload r rfl rfl]
      exact rest_read (r.push bytes)
    | extendedData bytes ext =>
      have front : heard (.extendedData bytes ext :: rest) = .extendedData bytes ext :: heard rest := rfl
      rw [front, Received.after_payload r rfl rfl]
      exact rest_read (r.push bytes)
    | exitStatus status =>
      have front : heard (.exitStatus status :: rest) = .exitStatus status :: heard rest := rfl
      rw [front, Received.after_status]
      exact rest_read { r with exitStatus := status }
    | exitSignal signalName coreDumped errorMessage langTag => exact rest_read r
    | windowAdjusted newSize => exact rest_read r
    | xonXoff clientCanDo => exact rest_read r
    | success => exact rest_read r
    | failure => exact rest_read r

lemma heard_payload
    (eof_after_data : messages.Pairwise fun earlier later =>
      earlier = .eof → later.payload = none ∧ later ≠ .eof) :
    (heard messages).filterMap ChannelMsg.payload = messages.filterMap ChannelMsg.payload := by
  induction eof_after_data with
  | nil => rfl
  | @cons message rest after_this _ ih =>
    by_cases is_eof : message = .eof
    · subst is_eof
      have no_data : rest.filterMap ChannelMsg.payload = [] :=
        filterMap_eq_nil_iff.mpr fun later member => (after_this later member rfl).1
      exact no_data.symm
    · have goes_on : heard (message :: rest) = message :: heard rest :=
        takeWhile_cons_of_pos (by simpa using is_eof)
      rw [heard_cons is_eof, filterMap_cons, filterMap_cons, ih]

/-- What a server may send: no data follow the end of file, the end of the command is told once,
and the close is the last message. -/
structure ExecRun where
  messages : List ChannelMsg
  ending : Ending
  open_until_close : ChannelMsg.close ∉ messages
  eof_after_data : messages.Pairwise fun earlier later =>
    earlier = .eof → later.payload = none ∧ later ≠ .eof
  ends_once : messages.filterMap ChannelMsg.ending = [ending]

namespace ExecRun

def session (run : ExecRun) : Session :=
  ⟨.ok (), fun _ => .ok (run.messages ++ [.close])⟩

def cuts (run : ExecRun) : List (List UInt8) :=
  run.messages.filterMap ChannelMsg.payload

/-- All data, in the order of their arrival. -/
def sentData (run : ExecRun) : List UInt8 :=
  run.cuts.flatten

/-- A status is returned as it was sent, and a signal is no success. -/
def Reports (run : ExecRun) (returned : Int32) : Prop :=
  match run.ending with
  | .status sent => returned = sent.toInt32
  | .signal _ => returned ≠ 0

/-- The outcome is the one that the server sent, whatever the framing. -/
def ReturnsSent (run : ExecRun) (command : List Char) : Prop :=
  ∃ returned, ∃ chunks : List (List Char),
    execStreamOnSessionWithStatus run.session command =
      (chunks, .ok (returned, Utf8.fromUtf8Lossy run.sentData)) ∧
    chunks.flatten = Utf8.fromUtf8Lossy run.sentData ∧ run.Reports returned

def CutBetweenCharacters (run : ExecRun) : Prop :=
  ∀ k < run.cuts.length, ¬ Utf8.Inside (run.cuts.take k).flatten (run.cuts.drop k).flatten

/-- The command ends with a status, and the end of file does not come before it unless it is 0. -/
def StatusBeforeEof (run : ExecRun) : Prop :=
  ∃ status, run.ending = .status status ∧
    (status = 0 ∨ ChannelMsg.exitStatus status ∈ heard run.messages)

variable (run : ExecRun)

lemma heard_ending :
    (heard run.messages).filterMap ChannelMsg.ending = [] ∨
      (heard run.messages).filterMap ChannelMsg.ending = [run.ending] := by
  have front : (heard run.messages).filterMap ChannelMsg.ending <+: [run.ending] := by
    rw [← run.ends_once]
    exact (List.takeWhile_prefix _).filterMap _
  rcases prefix_cons_iff.mp front with none_read | ⟨rest, all_read, nothing⟩
  · exact .inl none_read
  · rw [prefix_nil.mp nothing] at all_read
    exact .inr all_read

/-- The status that is returned for a run. -/
def returnedStatus (run : ExecRun) : UInt32 :=
  (((heard run.messages).filterMap ChannelMsg.ending).filterMap Ending.toStatus).getLastD 0

lemma execStream_run (command : List Char) :
    execStreamOnSessionWithStatus run.session command = (run.cuts.map fromUtf8Lossy,
        .ok (run.returnedStatus.toInt32, (run.cuts.map fromUtf8Lossy).flatten)) := by
  have read := receive_eq ⟨[], 0, []⟩ run.open_until_close
  rw [Received.after, heard_payload run.eof_after_data] at read
  rw [execStreamOnSessionWithStatus]
  simp only [session, read, nil_append]
  rfl

lemma toInt32_injective {left right : UInt32} (same : left.toInt32 = right.toInt32) :
    left = right := by
  rw [← left.toUInt32_toInt32, same, right.toUInt32_toInt32]

lemma status_mem_iff {read : List ChannelMsg} {status : UInt32} :
    ChannelMsg.exitStatus status ∈ read ↔
      Ending.status status ∈ read.filterMap ChannelMsg.ending := by
  rw [mem_filterMap]
  constructor
  · exact fun member => ⟨_, member, rfl⟩
  · rintro ⟨message, member, ends⟩
    cases message with
    | exitStatus sent =>
      cases ends
      exact member
    | _ => cases ends

lemma reports_iff : run.Reports run.returnedStatus.toInt32 ↔ run.StatusBeforeEof := by
  unfold Reports StatusBeforeEof returnedStatus
  cases ends : run.ending with
  | signal signalName =>
    refine ⟨fun reported => ?_, fun ⟨_, status, _⟩ => nomatch status⟩
    rcases run.heard_ending with none_read | all_read
    · rw [none_read] at reported
      exact absurd rfl reported
    · rw [all_read, ends] at reported
      exact absurd rfl reported
  | status sent =>
    have condition : (∃ status, Ending.status sent = .status status ∧
        (status = 0 ∨ ChannelMsg.exitStatus status ∈ heard run.messages)) ↔
        sent = 0 ∨ ChannelMsg.exitStatus sent ∈ heard run.messages := by
      constructor
      · rintro ⟨status, same, timely⟩
        cases same
        exact timely
      · exact fun timely => ⟨sent, rfl, timely⟩
    rw [condition, status_mem_iff]
    change _ = sent.toInt32 ↔ _
    rcases run.heard_ending with none_read | all_read
    · rw [none_read]
      have zero : (0 : UInt32).toInt32 = sent.toInt32 ↔ sent = 0 :=
        ⟨fun same => (toInt32_injective same).symm, fun same => congrArg _ same.symm⟩
      simpa using zero
    · rw [all_read, ends]
      simp [Ending.toStatus]

/-- What is returned is what was sent, exactly if no cut falls inside a character and the command
ends with a status that comes before the end of file or is 0. -/
theorem returns_sent_iff (run : ExecRun) (command : List Char) :
    run.ReturnsSent command ↔ run.CutBetweenCharacters ∧ run.StatusBeforeEof := by
  have decoded := fromUtf8Lossy_flatten_iff run.cuts
  rw [← run.reports_iff, CutBetweenCharacters, ← decoded, ReturnsSent, run.execStream_run]
  constructor
  · rintro ⟨returned, chunks, same, chunk_text, reported⟩
    obtain ⟨same_chunks, same⟩ := Prod.mk.inj same
    obtain ⟨same_status, -⟩ := Prod.mk.inj (Except.ok.inj same)
    rw [← same_chunks] at chunk_text
    rw [← same_status] at reported
    exact ⟨chunk_text, reported⟩
  · rintro ⟨same, reported⟩
    exact ⟨_, _, by rw [same]; rfl, same, reported⟩

end ExecRun

section Example

/-- The status 1 after the end of file. -/
def statusAfterEof : ExecRun :=
  ⟨[.data [0x6f, 0x6b], .eof, .exitStatus 1], .status 1, by decide, by decide, by decide⟩

/-- The two octets of one character in two messages. -/
def cutInside : ExecRun :=
  ⟨[.data [0xc3], .data [0xa9], .exitStatus 0, .eof], .status 0, by decide, by decide, by decide⟩

def killed : ExecRun :=
  ⟨[.exitSignal "KILL".toList false [] [], .eof], .signal "KILL".toList, by decide, by decide,
    by decide⟩

/-- A failure becomes a success, one character becomes two, and a killed command succeeds. -/
theorem framing_changes_outcome :
    ¬ statusAfterEof.ReturnsSent [] ∧ ¬ cutInside.ReturnsSent [] ∧ ¬ killed.ReturnsSent [] := by
  refine ⟨?_, ?_, ?_⟩
  · rintro ⟨returned, chunks, same, -, reported⟩
    cases same
    change (0 : Int32) = 1 at reported
    exact absurd reported (by decide)
  · rintro ⟨returned, chunks, same, -, -⟩
    have computed : execStreamOnSessionWithStatus cutInside.session [] =
        ([[replacement], [replacement]], .ok (0, [replacement, replacement])) := by
      decide +kernel
    rw [computed] at same
    have text := (Prod.mk.inj (Except.ok.inj (Prod.mk.inj same).2)).2
    exact absurd (congrArg length text) (by decide)
  · rintro ⟨returned, chunks, same, -, reported⟩
    cases same
    exact absurd rfl reported

end Example

end Ssh
