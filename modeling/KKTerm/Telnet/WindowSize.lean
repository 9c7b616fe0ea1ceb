import KKTerm.Library.Runs
import KKTerm.Telnet.Options

/-!
# Window-size agreement

The reader thread turns a chunk into a reply buffer and then writes the buffer;
a resize stores the new size, loads the flag and then sends a packet if the flag
was set. Resizes exclude one another, everything else interleaves. The size in
the reader's buffer can be older than one that was already sent.
-/

namespace Telnet

open Option hiding or_assoc
open Negotiation Runs List

/-- How far the current resize has come. -/
inductive Resizing where
  | idle
  | stored (size : WindowSize)
  | enabled (size : WindowSize)

structure Session where
  unread : List (List UInt8)
  protocol : TelnetProtocol
  runtime : RuntimeState
  buffer : Option (List UInt8)
  resizing : Resizing
  wire : List UInt8

inductive Action where
  | process
  | write
  | store (size : WindowSize)
  | load
  | send

namespace Session

def new (size : WindowSize) (unread : List (List UInt8)) : Session :=
  { unread, protocol := .new, runtime := .new size, buffer := none, resizing := .idle, wire := [] }

/-- The reader takes the next chunk; an empty reply buffer is not written. -/
def process (s : Session) : Option Session :=
  match s.unread, s.buffer with
  | chunk :: unread, none =>
    let r := receive s.protocol chunk s.runtime
    some { s with
      unread
      protocol := r.protocol
      runtime := r.runtime
      buffer := if r.result.replies.isEmpty then none else some r.result.replies }
  | _, _ => none

def write (s : Session) : Option Session :=
  s.buffer.map (fun replies => { s with buffer := none, wire := s.wire ++ replies })

def store (s : Session) (size : WindowSize) : Option Session :=
  match s.resizing with
  | .idle => some { s with
      runtime := { s.runtime with windowSize := size }
      resizing := .stored size }
  | _ => none

def load (s : Session) : Option Session :=
  match s.resizing with
  | .stored size =>
    some { s with resizing := if s.runtime.nawsEnabled then .enabled size else .idle }
  | _ => none

def send (s : Session) : Option Session :=
  match s.resizing with
  | .enabled size => some { s with resizing := .idle, wire := s.wire ++ nawsPacket size }
  | _ => none

def step (s : Session) : Action → Option Session
  | .process => s.process
  | .write => s.write
  | .store size => s.store size
  | .load => s.load
  | .send => s.send

/-- Every thread has finished its steps. -/
structure Finished (s : Session) : Prop where
  unread_eq : s.unread = []
  buffer_eq : s.buffer = none
  resizing_eq : s.resizing = .idle

end Session

/-- The size stored by the last resize, or the initial one. -/
def lastStored (size : WindowSize) (actions : List Action) : WindowSize :=
  actions.foldl (fun size action =>
    match action with
    | .store newer => newer
    | _ => size) size

/-- The last window size that the wire carries. -/
def lastReported (wire : List UInt8) : Option (List UInt8) :=
  (windowSizes (tokens wire)).getLast?

/-- A chunk without `DONT NAWS`: the flag is raised by the first `DO NAWS`, and
the replies report a size exactly when the flag is raised. -/
lemma chunk_naws {s : Receiver} (agree : FlagsAgree s.protocol s.runtime) (chunk : List UInt8)
    (kept : false ∉ offers do_ dont optionNaws (decode s.decoder chunk).2) :
    let s' := chunk.foldl Receiver.receiveByte s
    FlagsAgree s'.protocol s'.runtime ∧ s'.decoder = (decode s.decoder chunk).1 ∧
      s'.runtime.windowSize = s.runtime.windowSize ∧
      (s'.runtime.nawsEnabled = true ↔ s.runtime.nawsEnabled = true ∨
        true ∈ offers do_ dont optionNaws (decode s.decoder chunk).2) ∧
      ∃ bytes out, s'.result.replies = s.result.replies ++ bytes ∧ Framed bytes out ∧
        windowSizes out =
          if s.runtime.nawsEnabled = false ∧ s'.runtime.nawsEnabled = true then
            [windowSizeBytes s.runtime.windowSize]
          else [] := by
  induction chunk generalizing s with
  | nil =>
    refine ⟨agree, rfl, rfl, by simp [decode, offers], [], [], (append_nil _).symm, .nil, ?_⟩
    simp [windowSizes]
  | cons byte chunk ih =>
    obtain ⟨read, flags, size, bytes, out, sent, framed, reported, sides⟩ :=
      Receiver.receiveByte_reacts s byte
    have split : (decode s.decoder (byte :: chunk)).2 =
        (s.decoder.next byte).2 ++ (decode (s.receiveByte byte).decoder chunk).2 := by
      rw [read]
      rfl
    rw [split, offers_append, mem_append, not_or] at kept
    obtain ⟨agree', read', size', enabled', bytes', out', sent', framed', reported'⟩ :=
      ih (flags agree) kept.2
    have side := (sides optionNaws).2
    rw [show supportsLocalOption optionNaws = true from rfl] at side
    have enabled := Side.run_enabled (s := localSide s.protocol optionNaws) kept.1
    rw [side] at enabled
    simp only [localSide, decide_eq_true_eq, ← agree.2, ← (flags agree).2] at enabled
    simp only [← agree.2, ← (flags agree).2, Bool.not_eq_true] at reported
    simp only [foldl_cons]
    refine ⟨agree', ?_, size'.trans size, ?_, bytes ++ bytes', out ++ out', ?_,
      framed.append framed', ?_⟩
    · rw [read', read]
      rfl
    · rw [enabled', enabled, split, offers_append, mem_append, or_assoc]
    · rw [sent', sent, append_assoc]
    · rw [windowSizes_append, reported, reported', size]
      have rises : s.runtime.nawsEnabled = true →
          (s.receiveByte byte).runtime.nawsEnabled = true := fun on => enabled.mpr (.inl on)
      have rises' : (s.receiveByte byte).runtime.nawsEnabled = true →
          (chunk.foldl Receiver.receiveByte (s.receiveByte byte)).runtime.nawsEnabled = true :=
        fun on => enabled'.mpr (.inl on)
      cases before : s.runtime.nawsEnabled
      · cases between : (s.receiveByte byte).runtime.nawsEnabled
        · simp
        · simp [rises' between]
      · simp [rises before]

variable (size : WindowSize) {wire packet : List UInt8}

lemma lastReported_append (h : Framed wire (tokens wire)) (h' : Framed packet (tokens packet)) :
    lastReported (wire ++ packet) =
      (windowSizes (tokens wire) ++ windowSizes (tokens packet)).getLast? := by
  rw [lastReported, (h.append h').tokens_eq, windowSizes_append]

lemma framed_append (h : Framed wire (tokens wire)) (h' : Framed packet (tokens packet)) :
    Framed (wire ++ packet) (tokens (wire ++ packet)) := by
  rw [(h.append h').tokens_eq]
  exact h.append h'

lemma framed_packet : Framed (nawsPacket size) (tokens (nawsPacket size)) := by
  rw [(framed_nawsPacket size).tokens_eq]
  exact framed_nawsPacket size

lemma windowSizes_packet : windowSizes (tokens (nawsPacket size)) = [windowSizeBytes size] := by
  rw [(framed_nawsPacket size).tokens_eq]
  rfl

/-- One `DO NAWS` is either in the chunk just read or still to come. -/
lemma pending_rest {now later : List Bool} {before after : Bool}
    (pending : now ++ later = if before then [] else [true])
    (raised : after = true ↔ before = true ∨ true ∈ now) :
    later = if after then [] else [true] := by
  cases before with
  | true =>
    have on : after = true := raised.mpr (.inl rfl)
    rw [on]
    exact (append_eq_nil_iff.mp pending).2
  | false =>
    rcases append_eq_singleton_iff.mp pending with ⟨rfl, rfl⟩ | ⟨rfl, rfl⟩
    · have off : after = false := by
        cases after
        · rfl
        · simp at raised
      rw [off]
      rfl
    · have on : after = true := raised.mpr (.inr mem_cons_self)
      rw [on]
      rfl

namespace Session
variable {s s' : Session}

/-- What the next chunk is received by. -/
def receiver (s : Session) : Receiver :=
  { protocol := s.protocol, runtime := s.runtime
    result := { data := [], replies := [], events := [] } }

/-- `DO NAWS` is still unread exactly while the flag is down, and a resize that
is under way has stored its size. -/
structure Inv (s : Session) : Prop where
  agree : FlagsAgree s.protocol s.runtime
  pending : offers do_ dont optionNaws (decode s.receiver.decoder s.unread.flatten).2 =
    if s.runtime.nawsEnabled then [] else [true]
  storing : ∀ size, s.resizing = .stored size ∨ s.resizing = .enabled size →
    s.runtime.windowSize = size
  wire : Framed s.wire (tokens s.wire)
  buffer : ∀ replies, s.buffer = some replies → Framed replies (tokens replies)

lemma process_spec (h : Inv s) (taken : s.process = some s') :
    Inv s' ∧ s'.wire = s.wire ∧ s'.resizing = s.resizing ∧
      s'.runtime.windowSize = s.runtime.windowSize ∧ s.buffer = none ∧
      (s.runtime.nawsEnabled = true → s'.runtime.nawsEnabled = true) ∧
      windowSizes (tokens (s'.buffer.getD [])) =
        if s.runtime.nawsEnabled = false ∧ s'.runtime.nawsEnabled = true then
          [windowSizeBytes s.runtime.windowSize]
        else [] := by
  unfold process at taken
  split at taken
  · rename_i chunk unread hunread hbuffer
    cases taken
    have pending := h.pending
    rw [hunread, flatten_cons, decode_append, offers_append] at pending
    have kept : false ∉ offers do_ dont optionNaws (decode s.receiver.decoder chunk).2 := by
      intro withdrawn
      have := mem_append_left
        (offers do_ dont optionNaws (decode (decode s.receiver.decoder chunk).1 unread.flatten).2)
        withdrawn
      rw [pending] at this
      split at this <;> simp at this
    obtain ⟨agree, read, size, enabled, bytes, out, sent, framed, reported⟩ :=
      chunk_naws (s := s.receiver) h.agree chunk kept
    have replies : (receive s.protocol chunk s.runtime).result.replies = bytes := sent
    have buffered : (if bytes.isEmpty then none else some bytes).getD [] = bytes := by
      cases bytes <;> rfl
    refine ⟨⟨agree, ?_, ?_, h.wire, ?_⟩, rfl, rfl, size, hbuffer, fun on => enabled.mpr (.inl on),
      ?_⟩
    · rw [← read] at pending
      exact pending_rest pending enabled
    · intro stored under
      exact size.trans (h.storing stored under)
    · intro sentReplies hsent
      simp only [replies] at hsent
      split at hsent
      · cases hsent
      · cases hsent
        rw [framed.tokens_eq]
        exact framed
    · simp only [replies, buffered, framed.tokens_eq, reported]
      rfl
  · cases taken

variable {action : Action} {actions : List Action} {replies : List UInt8}

/-- A step keeps the invariant and never lowers the flag. -/
lemma step_inv (h : Inv s) (taken : s.step action = some s') :
    Inv s' ∧ (s.runtime.nawsEnabled = true → s'.runtime.nawsEnabled = true) := by
  cases action with
  | process =>
    obtain ⟨inv, _, _, _, _, raised, _⟩ := process_spec h taken
    exact ⟨inv, raised⟩
  | write =>
    obtain ⟨replies, buffered, rfl⟩ := map_eq_some_iff.mp taken
    refine ⟨⟨h.agree, h.pending, h.storing, ?_, fun _ hr => by cases hr⟩, id⟩
    exact framed_append h.wire (h.buffer replies buffered)
  | store size =>
    simp only [step, store] at taken
    split at taken
    · cases taken
      refine ⟨⟨h.agree, h.pending, ?_, h.wire, h.buffer⟩, id⟩
      rintro _ (stored | enabled)
      · cases stored
        rfl
      · cases enabled
    · cases taken
  | load =>
    simp only [step, load] at taken
    split at taken
    · rename_i size stored
      cases taken
      refine ⟨⟨h.agree, h.pending, ?_, h.wire, h.buffer⟩, id⟩
      intro size' under
      split at under
      · rcases under with other | same
        · cases other
        · cases same
          exact h.storing _ (.inl stored)
      · rcases under with other | other <;> cases other
    · cases taken
  | send =>
    simp only [step, send] at taken
    split at taken
    · rename_i size _
      cases taken
      refine ⟨⟨h.agree, h.pending, ?_, ?_, h.buffer⟩, id⟩
      · rintro _ (other | other) <;> cases other
      · exact framed_append h.wire (framed_packet size)
    · cases taken

lemma run_inv (h : Inv s) (ran : run step s actions = some s') : Inv s' :=
  run_invariant (fun _ _ _ taken h => (step_inv h taken).1) ran h

lemma run_windowSize (h : Inv s) (ran : run step s actions = some s') :
    s'.runtime.windowSize = lastStored s.runtime.windowSize actions := by
  induction actions generalizing s with
  | nil =>
    cases ran
    rfl
  | cons action rest ih =>
    obtain ⟨s₁, taken, ran⟩ := run_cons_eq_some.mp ran
    rw [ih (step_inv h taken).1 ran]
    cases action with
    | process =>
      obtain ⟨_, _, _, same, _⟩ := process_spec h taken
      rw [same]
      rfl
    | write =>
      obtain ⟨_, _, rfl⟩ := map_eq_some_iff.mp taken
      rfl
    | store size =>
      simp only [step, store] at taken
      split at taken
      · cases taken
        rfl
      · cases taken
    | load =>
      simp only [step, load] at taken
      split at taken
      · cases taken
        rfl
      · cases taken
    | send =>
      simp only [step, send] at taken
      split at taken
      · cases taken
        rfl
      · cases taken

/-- After the reply to `DO NAWS` has been written: no reply in the buffer reports
a size any more. -/
structure Settled (s : Session) : Prop where
  inv : Inv s
  enabled : s.runtime.nawsEnabled = true
  quiet : windowSizes (tokens (s.buffer.getD [])) = []

/-- A step after the reply reports a size only by sending a resize packet. -/
lemma Settled.step (h : Settled s) (taken : s.step action = some s') :
    Settled s' ∧
      match action with
      | .send => s'.resizing = .idle ∧
          lastReported s'.wire = some (windowSizeBytes s'.runtime.windowSize)
      | .store _ | .load => s'.resizing ≠ .idle ∧ lastReported s'.wire = lastReported s.wire
      | .process | .write => s'.resizing = s.resizing ∧
          s'.runtime.windowSize = s.runtime.windowSize ∧
          lastReported s'.wire = lastReported s.wire := by
  obtain ⟨inv, raised⟩ := step_inv h.inv taken
  have enabled := raised h.enabled
  cases action with
  | process =>
    obtain ⟨_, wire, resizing, size, _, _, reported⟩ := process_spec h.inv taken
    refine ⟨⟨inv, enabled, ?_⟩, resizing, size, by rw [wire]⟩
    rw [reported, h.enabled]
    rfl
  | write =>
    obtain ⟨replies, buffered, rfl⟩ := map_eq_some_iff.mp taken
    refine ⟨⟨inv, enabled, rfl⟩, rfl, rfl, ?_⟩
    have quiet := h.quiet
    rw [buffered, getD_some] at quiet
    rw [lastReported_append h.inv.wire (h.inv.buffer replies buffered), quiet, append_nil]
    rfl
  | store size =>
    simp only [Session.step, store] at taken
    split at taken
    · cases taken
      exact ⟨⟨inv, enabled, h.quiet⟩, by simp, rfl⟩
    · cases taken
  | load =>
    simp only [Session.step, load] at taken
    split at taken
    · cases taken
      exact ⟨⟨inv, enabled, h.quiet⟩, by simp [h.enabled], rfl⟩
    · cases taken
  | send =>
    simp only [Session.step, send] at taken
    split at taken
    · rename_i size under
      cases taken
      refine ⟨⟨inv, enabled, h.quiet⟩, rfl, ?_⟩
      rw [lastReported_append h.inv.wire (framed_packet size), windowSizes_packet,
        getLast?_concat, h.inv.storing size (.inr under)]
    · cases taken

/-- Unless a resize is under way, the last reported size is the current one. -/
def Agrees (s : Session) : Prop :=
  s.resizing = .idle → lastReported s.wire = some (windowSizeBytes s.runtime.windowSize)

lemma Settled.run_agrees (h : Settled s) (agrees : Agrees s)
    (ran : run Session.step s actions = some s') : Agrees s' := by
  have kept : Settled s' ∧ Agrees s' := by
    refine run_invariant (P := fun t => Settled t ∧ Agrees t) (fun t a t' taken ht => ?_) ran
      ⟨h, agrees⟩
    obtain ⟨settled, effect⟩ := ht.1.step taken
    refine ⟨settled, fun idle => ?_⟩
    cases a with
    | send => exact effect.2
    | store | load => exact absurd idle effect.1
    | process | write =>
      obtain ⟨resizing, size, reported⟩ := effect
      rw [reported, size]
      exact ht.2 (resizing ▸ idle)
  exact kept.2

lemma Settled.run_sent (h : Settled s) (ran : run Session.step s actions = some s')
    (sent : .send ∈ actions) : Agrees s' := by
  obtain ⟨front, back, rfl⟩ := append_of_mem sent
  obtain ⟨t, ran₁, ran₂⟩ := run_append_eq_some.mp ran
  obtain ⟨u, taken, ran₂⟩ := run_cons_eq_some.mp ran₂
  have settled : Settled t := run_invariant (fun _ _ _ taken h => (h.step taken).1) ran₁ h
  obtain ⟨settled', _, reported⟩ := settled.step taken
  exact settled'.run_agrees (fun _ => reported) ran₂

lemma Settled.run_unsent (h : Settled s) (ran : run Session.step s actions = some s')
    (unsent : .send ∉ actions) : lastReported s'.wire = lastReported s.wire := by
  induction actions generalizing s with
  | nil =>
    cases ran
    rfl
  | cons action rest ih =>
    obtain ⟨t, taken, ran⟩ := run_cons_eq_some.mp ran
    rw [mem_cons, not_or] at unsent
    obtain ⟨settled, effect⟩ := h.step taken
    rw [ih settled ran unsent.2]
    cases action with
    | send => exact absurd rfl unsent.1
    | store | load => exact effect.2
    | process | write => exact effect.2.2

/-- Only `process` touches the flag. -/
lemma step_flag (taken : s.step action = some s') (other : action ≠ .process) :
    s'.runtime.nawsEnabled = s.runtime.nawsEnabled := by
  cases action with
  | process => exact absurd rfl other
  | write =>
    obtain ⟨_, _, rfl⟩ := map_eq_some_iff.mp taken
    rfl
  | store | load | send =>
    simp only [Session.step, store, load, send] at taken
    split at taken <;> cases taken
    rfl

lemma step_buffer (taken : s.step action = some s') (buffered : s.buffer = some replies)
    (other : action ≠ .write) : s'.buffer = some replies := by
  cases action with
  | write => exact absurd rfl other
  | process =>
    simp only [Session.step, process] at taken
    split at taken
    · rename_i empty
      rw [buffered] at empty
      cases empty
    · cases taken
  | store | load | send =>
    simp only [Session.step, store, load, send] at taken
    split at taken <;> cases taken
    exact buffered

lemma run_buffer (ran : run Session.step s actions = some s') (buffered : s.buffer = some replies)
    (unwritten : .write ∉ actions) : s'.buffer = some replies := by
  induction actions generalizing s with
  | nil =>
    cases ran
    exact buffered
  | cons action rest ih =>
    obtain ⟨t, taken, ran⟩ := run_cons_eq_some.mp ran
    rw [mem_cons, not_or] at unwritten
    exact ih ran (step_buffer taken buffered (Ne.symm unwritten.1)) unwritten.2

/-- A buffer that is empty in the end is emptied by a first `write`. -/
lemma run_first_write (ran : run Session.step s actions = some s')
    (buffered : s.buffer = some replies) (emptied : s'.buffer = none) :
    ∃ between after t₁ t₂, actions = between ++ .write :: after ∧ .write ∉ between ∧
      run Session.step s between = some t₁ ∧ t₁.buffer = some replies ∧
      t₁.step .write = some t₂ ∧ run Session.step t₂ after = some s' := by
  obtain ⟨between, action, after, t₁, t₂, rfl, ran₁, taken, ran₂, full, empty, earlier⟩ :=
    run_first_change (P := fun t => t.buffer = none) ran (by rw [buffered]; simp) emptied
  have unwritten : .write ∉ between := by
    intro written
    obtain ⟨front, back, rfl⟩ := append_of_mem written
    obtain ⟨u, reached, later⟩ := run_append_eq_some.mp ran₁
    obtain ⟨u', step, _⟩ := run_cons_eq_some.mp later
    have through : run Session.step s (front ++ [.write]) = some u' :=
      run_append_eq_some.mpr ⟨u, reached, run_cons_eq_some.mpr ⟨u', step, rfl⟩⟩
    obtain ⟨_, _, rfl⟩ := map_eq_some_iff.mp step
    exact earlier (front ++ [.write]) back _ (by simp) through rfl
  have held := run_buffer ran₁ buffered unwritten
  have isWrite : action = .write := by
    by_contra other
    rw [step_buffer taken held other] at empty
    cases empty
  subst isWrite
  exact ⟨between, after, t₁, t₂, rfl, unwritten, ran₁, held, taken, ran₂⟩

lemma run_raised (h : Inv s) (ran : run Session.step s actions = some s')
    (raised : s.runtime.nawsEnabled = true) : s'.runtime.nawsEnabled = true := by
  have both : Inv s' ∧ s'.runtime.nawsEnabled = true :=
    run_invariant (P := fun t => Inv t ∧ t.runtime.nawsEnabled = true)
      (fun _ _ _ taken ht => ⟨(step_inv ht.1 taken).1, (step_inv ht.1 taken).2 ht.2⟩) ran
      ⟨h, raised⟩
  exact both.2

lemma new_inv (size : WindowSize) (chunks : List (List UInt8))
    (once : offers do_ dont optionNaws (tokens chunks.flatten) = [true]) :
    Inv (new size chunks) := by
  refine ⟨?_, once, ?_, rfl, fun _ hr => by cases hr⟩
  · exact ⟨by simp [new, RuntimeState.new, TelnetProtocol.new],
      by simp [new, RuntimeState.new, TelnetProtocol.new]⟩
  · rintro _ (other | other) <;> cases other

end Session

open Session

lemma windowSizeBytes_inj {a b : WindowSize} (same : windowSizeBytes a = windowSizeBytes b) :
    a = b := by
  have halves : ∀ x y : UInt16, (x >>> 8).toUInt8 = (y >>> 8).toUInt8 → x.toUInt8 = y.toUInt8 →
      x = y := by
    intro x y high low
    have hx := UInt16.toNat_lt x
    have hy := UInt16.toNat_lt y
    have high := congrArg UInt8.toNat high
    have low := congrArg UInt8.toNat low
    have eight : (8 : UInt16).toNat % 16 = 8 := rfl
    simp only [UInt16.toNat_toUInt8, UInt16.toNat_shiftRight, eight,
      Nat.shiftRight_eq_div_pow] at high low
    apply UInt16.toNat_inj.mp
    omega
  simp only [windowSizeBytes, List.cons.injEq, and_true] at same
  obtain ⟨colsHigh, colsLow, rowsHigh, rowsLow⟩ := same
  cases a
  cases b
  rw [WindowSize.mk.injEq]
  exact ⟨halves _ _ colsHigh colsLow, halves _ _ rowsHigh rowsLow⟩

/-- In every finished interleaving in which the peer sends `DO NAWS` once, one
`process` step raises the flag and one later `write` sends its reply. The last
size on the wire is then the last one stored, exactly when a resize packet was
sent after that write or the size has not changed since that `process`. -/
theorem window_size_agreement {size : WindowSize} {chunks : List (List UInt8)}
    {actions : List Action} {s : Session}
    (once : offers do_ dont optionNaws (tokens chunks.flatten) = [true])
    (ran : run step (.new size chunks) actions = some s) (finished : Finished s) :
    ∃ before between after s₁ s₂,
      actions = before ++ .process :: (between ++ .write :: after) ∧
      run step (.new size chunks) before = some s₁ ∧ s₁.runtime.nawsEnabled = false ∧
      s₁.step .process = some s₂ ∧ s₂.runtime.nawsEnabled = true ∧ .write ∉ between ∧
      (lastReported s.wire = some (windowSizeBytes (lastStored size actions)) ↔
        .send ∈ after ∨ lastStored size before = lastStored size actions) := by
  have inv := new_inv size chunks once
  have inv' := run_inv inv ran
  have lowered : ¬ (new size chunks).runtime.nawsEnabled = true := by simp [new, RuntimeState.new]
  have raised : s.runtime.nawsEnabled = true := by
    have pending := inv'.pending
    rw [finished.unread_eq] at pending
    by_contra off
    rw [if_neg off] at pending
    cases pending
  -- The flag goes up in one step, which can only be a `process` step.
  obtain ⟨before, action, rest, s₁, s₂, rfl, ran₁, taken, ran₂, off, on, -⟩ :=
    run_first_change (P := fun t => t.runtime.nawsEnabled = true) ran lowered raised
  have isProcess : action = .process := by
    by_contra other
    rw [step_flag taken other] at on
    exact off on
  subst isProcess
  have inv₁ := run_inv inv ran₁
  obtain ⟨inv₂, _, _, _, _, _, reported⟩ := process_spec inv₁ taken
  rw [if_pos ⟨Bool.eq_false_iff.mpr off, on⟩] at reported
  obtain ⟨replies, buffered⟩ : ∃ replies, s₂.buffer = some replies := by
    cases buffer : s₂.buffer with
    | none =>
      rw [buffer] at reported
      cases reported
    | some replies => exact ⟨replies, rfl⟩
  obtain ⟨between, after, t₁, t₂, rfl, unwritten, ran₃, held, written, ran₄⟩ :=
    run_first_write ran₂ buffered finished.buffer_eq
  have inv₃ := run_inv inv₂ ran₃
  -- With the reply the size read by `process` is on the wire.
  have replied : lastReported t₂.wire = some (windowSizeBytes s₁.runtime.windowSize) := by
    obtain ⟨out, buffered', rfl⟩ := map_eq_some_iff.mp written
    rw [lastReported_append inv₃.wire (inv₃.buffer out buffered')]
    rw [held] at buffered'
    cases buffered'
    rw [buffered, getD_some] at reported
    rw [reported, getLast?_concat]
  have settled : Settled t₂ := by
    refine ⟨(step_inv inv₃ written).1, (step_inv inv₃ written).2 (run_raised inv₂ ran₃ on), ?_⟩
    obtain ⟨_, _, rfl⟩ := map_eq_some_iff.mp written
    rfl
  have sizeBefore : s₁.runtime.windowSize = lastStored size before := run_windowSize inv ran₁
  have sizeAtEnd := run_windowSize inv ran
  refine ⟨before, between, after, s₁, s₂, rfl, ran₁, Bool.eq_false_iff.mpr off, taken, on,
    unwritten, ?_⟩
  rw [← sizeBefore]
  rw [show (new size chunks).runtime.windowSize = size from rfl] at sizeAtEnd
  rw [← sizeAtEnd]
  by_cases sent : .send ∈ after
  · exact iff_of_true (settled.run_sent ran₄ sent finished.resizing_eq) (.inl sent)
  · rw [settled.run_unsent ran₄ sent, replied, Option.some.injEq]
    constructor
    · exact fun same => Or.inr (windowSizeBytes_inj same)
    · rintro (hsent | same)
      · exact absurd hsent sent
      · rw [same]

def doNaws : List (List UInt8) :=
  [[iac, do_, optionNaws]]

/-- A resize that comes after the reply has been written. -/
def lateResize : List Action :=
  [.process, .write, .store ⟨100, 30⟩, .load, .send]

theorem lateResize_agrees :
    ∃ s, run step (.new ⟨80, 24⟩ doNaws) lateResize = some s ∧
      lastReported s.wire = some (windowSizeBytes ⟨100, 30⟩) := by
  refine ⟨_, rfl, ?_⟩
  obtain ⟨before, between, after, _, _, cut, _, _, _, _, unwritten, agreement⟩ :=
    @window_size_agreement ⟨80, 24⟩ doNaws lateResize _ (by decide +kernel) rfl ⟨rfl, rfl, rfl⟩
  refine agreement.mpr (.inl ?_)
  cases before with
  | nil =>
    cases between with
    | nil =>
      have last : [.store ⟨100, 30⟩, .load, .send] = after := by simpa [lateResize] using cut
      simp [← last]
    | cons action between =>
      have isWrite : .write = action := by
        simp only [lateResize, nil_append, cons_append, List.cons.injEq] at cut
        exact cut.2.1
      exact absurd (isWrite ▸ mem_cons_self) unwritten
  | cons action before =>
    have isProcess : .process ∈ lateResize.tail := by simp [cut]
    simp [lateResize] at isProcess

def staleReply : List Action :=
  [.process, .store ⟨100, 30⟩, .load, .send, .write]

/-- The resize is complete before the reader writes the size it had read. -/
theorem staleReply_is_last :
    offers do_ dont optionNaws (tokens doNaws.flatten) = [true] ∧
    ∃ s, run step (.new ⟨80, 24⟩ doNaws) staleReply = some s ∧ Finished s ∧
      lastReported s.wire = some (windowSizeBytes ⟨80, 24⟩) ∧
      lastReported s.wire ≠ some (windowSizeBytes (lastStored ⟨80, 24⟩ staleReply)) :=
  ⟨by decide +kernel, _, rfl, ⟨rfl, rfl, rfl⟩, by decide +kernel, by decide +kernel⟩

end Telnet
