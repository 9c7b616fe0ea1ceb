import KKTerm.Ssh.Terminal

/-!
# The size that the server knows

A resize call that a prompt reads is lost, and a new connection starts with the size of the
request. The server learns every size as long as no pseudo-terminal is requested after a call
that was lost in one of these ways.
-/

namespace Ssh

open Runs List Option

namespace Terminal
variable {request : NativeSshTerminalRequest} {t t' : Terminal} {e : Event}

/-- The size of the last resize call, or the one of the request. -/
def wanted (request : NativeSshTerminalRequest) (t : Terminal) : PtySize :=
  t.resizes.getLast?.getD request.size

/-- The size that was sent last on the current connection. -/
def known (t : Terminal) : Option PtySize :=
  t.sent.getLast?.map SizeMessage.size

def resizeOf : SshTerminalControl → Option PtySize
  | .resize size => some size
  | _ => none

def lastResize (controls : List SshTerminalControl) : Option PtySize :=
  (controls.filterMap resizeOf).getLast?

/-- The last resize that is still unread. -/
def unread (t : Terminal) : Option PtySize :=
  lastResize t.controls

/-- In the event loop, with nothing left to read, the server knows the wanted size. -/
def ServerKnows (request : NativeSshTerminalRequest) (t : Terminal) : Prop :=
  t.phase = .eventLoop → t.controls = [] → t.known = some (t.wanted request)

def asksPty : Event → Bool
  | .requestPty => true
  | _ => false

def resizeCall : Event → Option PtySize
  | .resize size => some size
  | _ => none

/-- When the pseudo-terminal is requested, the last resize call is still unread, or it asked for
the size of the request. -/
def PtyCurrent (request : NativeSshTerminalRequest) (t : Terminal) (e : Event) : Prop :=
  asksPty e = true → t.unread = none → t.wanted request = request.size

instance (request : NativeSshTerminalRequest) (t : Terminal) (e : Event) :
    Decidable (PtyCurrent request t e) :=
  inferInstanceAs (Decidable (_ → _ → _))

/-- The phases in which the pseudo-terminal of the connection is there. -/
def HasPty (t : Terminal) : Prop :=
  t.phase = .allocated ∨ t.phase = .eventLoop

/-- All that an event can do to the queue, the calls and what was sent. -/
inductive Change (request : NativeSshTerminalRequest) (t : Terminal) (e : Event) (t' : Terminal) :
    Prop where
  | ended (phase : t'.phase = .ended)
  | kept (live : t.phase ≠ .ended) (controls : t'.controls = t.controls)
      (resizes : t'.resizes = t.resizes) (sent : t'.HasPty → t.HasPty ∧ t'.sent = t.sent)
  | called (live : t.phase ≠ .ended) (control : SshTerminalControl)
      (controls : t'.controls = t.controls ++ [control])
      (resizes : t'.resizes = t.resizes ++ (resizeOf control).toList)
      (asks : resizeOf control = resizeCall e) (phase : t'.phase = t.phase) (sent : t'.sent = t.sent)
  /-- A prompt reads the message, or the connection ends with it. -/
  | lost (live : t.phase ≠ .ended) (control : SshTerminalControl)
      (controls : t.controls = control :: t'.controls) (resizes : t'.resizes = t.resizes)
      (no_pty : ¬ t'.HasPty)
  | asked (asks : asksPty e = true) (live : t.phase ≠ .ended) (controls : t'.controls = t.controls)
      (resizes : t'.resizes = t.resizes) (sent : t'.sent = t.sent ++ [.requestPty request.size])
  | told (pty : t.HasPty) (control : SshTerminalControl)
      (controls : t.controls = control :: t'.controls) (resizes : t'.resizes = t.resizes)
      (sent : t'.sent = t.sent ++ ((resizeOf control).map SizeMessage.windowChange).toList)

variable {phase : Phase} {control : SshTerminalControl}

lemma not_hasPty_of_phase (is : t.phase = phase) (first : phase ≠ .allocated)
    (second : phase ≠ .eventLoop) : ¬ t.HasPty := by
  rintro (pty | pty)
  · exact first (is.symm.trans pty)
  · exact second (is.symm.trans pty)

/-- The end of a connection leaves the queue and the calls as they are. -/
structure Over (t t' : Terminal) : Prop where
  controls : t'.controls = t.controls
  resizes : t'.resizes = t.resizes
  no_pty : ¬ t'.HasPty

lemma over_of_phase (t : Terminal) (first : phase ≠ .allocated) (second : phase ≠ .eventLoop) :
    Over t { t with phase } :=
  ⟨rfl, rfl, not_hasPty_of_phase rfl first second⟩

lemma over_ended (t : Terminal) : Over t { t with phase := .ended } :=
  over_of_phase t (by decide) (by decide)

lemma over_retry (t : Terminal) : Over t t.retry := by
  unfold retry
  split
  · exact t.over_ended
  · split
    · exact ⟨rfl, rfl, fun pty => pty.elim (fun h => nomatch h) (fun h => nomatch h)⟩
    · exact ⟨rfl, rfl, fun pty => pty.elim (fun h => nomatch h) (fun h => nomatch h)⟩

lemma over_finish (t : Terminal) (result : Except (List Char) TerminalRunOutcome) :
    Over t (t.finish request result) := by
  unfold finish
  split
  · exact t.over_ended
  · split
    · exact t.over_retry
    · exact t.over_ended
  · split
    · exact t.over_retry
    · exact t.over_ended

lemma Over.kept (over_t : Over t t') (live : t.phase ≠ .ended) : Change request t e t' :=
  .kept live over_t.controls over_t.resizes fun pty => absurd pty over_t.no_pty

/-- A message was taken from the queue, and then the connection ended or no prompt had begun. -/
lemma Over.lost {rest : List SshTerminalControl} (over_t : Over { t with controls := rest } t')
    (live : t.phase ≠ .ended) (controls : t.controls = control :: rest) : Change request t e t' :=
  .lost live control (by rw [controls, over_t.controls]) over_t.resizes over_t.no_pty

variable (request) in
lemma over_prompted (t : Terminal) (echo : Bool) (prompt : Prompt) :
    Over t (t.prompted request echo prompt) := by
  cases prompt with
  | reading input => exact over_of_phase t (fun same => nomatch same) (fun same => nomatch same)
  | answered answer => exact over_of_phase t (by decide) (by decide)
  | cancelled =>
    unfold prompted
    exact t.over_finish _

lemma live_of_starts (starts : t.starts = true) : t.phase ≠ .ended := by
  intro ended
  rw [Terminal.starts, ended] at starts
  cases starts

lemma enqueue_live (live : t.phase ≠ .ended) :
    t.enqueue control = { t with controls := t.controls ++ [control] } :=
  if_neg live

lemma enqueue_phase (t : Terminal) (control : SshTerminalControl) :
    (t.enqueue control).phase = t.phase := by
  unfold enqueue
  split <;> rfl

lemma change_call {size : PtySize} :
    Change request t (.resize size) { t.enqueue (.resize size) with resizes := t.resizes ++ [size] } := by
  by_cases live : t.phase = .ended
  · exact .ended ((t.enqueue_phase (.resize size)).trans live)
  · rw [enqueue_live live]
    exact .called live (.resize size) rfl rfl rfl rfl rfl

lemma change_enqueue (no_size : resizeOf control = none) (no_call : resizeCall e = none)
    (handle : Handle) : Change request t e { t.enqueue control with handle } := by
  by_cases live : t.phase = .ended
  · exact .ended ((t.enqueue_phase control).trans live)
  · rw [enqueue_live live]
    refine .called live control rfl ?_ (no_size.trans no_call.symm) rfl rfl
    rw [no_size, toList_none, append_nil]

lemma change_readPrompt (reads : t.readPrompt request = some t') : Change request t e t' := by
  unfold readPrompt at reads
  split at reads
  · rename_i echo input control rest phase controls
    cases reads
    have live : t.phase ≠ .ended := by
      rw [phase]
      exact fun same => nomatch same
    have prompted := over_prompted request { t with
      controls := rest, output := t.output ++ (readTerminalPromptInput echo input control).2 } echo
        (readTerminalPromptInput echo input control).1
    exact .lost live control (controls.trans (congrArg (control :: ·) prompted.controls.symm))
      prompted.resizes prompted.no_pty
  · rename_i echo input phase controls
    split at reads
    · cases reads
      have live : t.phase ≠ .ended := by
        rw [phase]
        exact fun same => nomatch same
      exact (over_prompted request t echo .cancelled).kept live
    · cases reads
  · cases reads

lemma change_readControl {sends : Except (List Char) Unit}
    (reads : t.readControl request sends = some t') : Change request t e t' := by
  unfold readControl at reads
  split at reads
  · rename_i control rest phase controls
    cases reads
    have live : t.phase ≠ .ended := by
      rw [phase]
      decide
    have pty : t.HasPty := Or.inr phase
    unfold handleControl
    split
    · split
      · exact .told pty _ controls rfl (append_nil _).symm
      · exact (over_finish _ _).lost live controls
    · split
      · exact .told pty _ controls rfl rfl
      · exact (over_finish _ _).lost live controls
    · exact (over_finish _ _).lost live controls
  · rename_i phase controls
    split at reads
    · cases reads
      have live : t.phase ≠ .ended := by
        rw [phase]
        decide
      exact (t.over_finish _).kept live
    · cases reads
  · cases reads

lemma guarded {p : Prop} [Decidable p] {made : Terminal}
    (taken : (if p then some made else none) = some t') : p ∧ made = t' :=
  (ite_none_right_eq_some.mp taken).imp_right Option.some.inj

lemma change_step (taken : t.step request e = some t') : Change request t e t' := by
  have live_of {phase : Phase} (is : t.phase = phase) (other : phase ≠ .ended) :
      t.phase ≠ .ended := fun ended => other (is.symm.trans ended)
  cases e with
  | readPrompt => exact change_readPrompt taken
  | readControl sends => exact change_readControl taken
  | resize size =>
    obtain ⟨-, rfl⟩ := guarded taken
    exact change_call
  | writeInput data =>
    obtain ⟨-, rfl⟩ := guarded taken
    exact change_enqueue rfl rfl (t.enqueue (.input data)).handle
  | close =>
    obtain ⟨-, rfl⟩ := guarded taken
    exact change_enqueue rfl rfl .closing
  | drop =>
    obtain ⟨-, rfl⟩ := guarded taken
    by_cases live : t.phase = .ended
    · exact .ended live
    · exact .kept live rfl rfl fun pty => ⟨pty, rfl⟩
  | beginPrompt label echo =>
    obtain ⟨phase, rfl⟩ := guarded taken
    exact .kept (live_of phase (by decide)) rfl rfl
      fun pty => pty.elim (fun h => nomatch h) (fun h => nomatch h)
  | requestPty =>
    obtain ⟨phase, rfl⟩ := guarded taken
    exact .asked rfl (live_of phase (by decide)) rfl rfl rfl
  | startShell =>
    obtain ⟨phase, rfl⟩ := guarded taken
    exact .kept (live_of phase (by decide)) rfl rfl fun _ => ⟨.inl phase, rfl⟩
  | failStartup error =>
    obtain ⟨starts, rfl⟩ := guarded taken
    exact (t.over_finish _).kept (live_of_starts starts)
  | cancelStartup =>
    rw [step, ite_none_left_eq_some] at taken
    obtain ⟨-, taken⟩ := taken
    by_cases starts : t.starts = true
    · rw [if_pos starts] at taken
      cases taken
      exact (t.over_finish _).kept (live_of_starts starts)
    · rw [if_neg starts] at taken
      obtain ⟨-, rfl⟩ := guarded taken
      exact .ended rfl
  | otherMessage =>
    obtain ⟨phase, rfl⟩ := guarded taken
    exact .kept (live_of phase (by decide)) rfl rfl fun pty => ⟨pty, rfl⟩
  | disconnect =>
    obtain ⟨phase, rfl⟩ := guarded taken
    exact (t.over_finish _).kept (live_of phase (by decide))
  | resume =>
    obtain ⟨phase, rfl⟩ := guarded taken
    exact .kept (live_of phase (by decide)) rfl rfl
      fun pty => pty.elim (fun h => nomatch h) (fun h => nomatch h)

lemma lastResize_cons (control : SshTerminalControl) (rest : List SshTerminalControl) :
    lastResize (control :: rest) = (lastResize rest).or (resizeOf control) := by
  unfold lastResize
  cases asks : resizeOf control with
  | none => rw [filterMap_cons_none asks, or_none]
  | some size =>
    rw [filterMap_cons_some asks, getLast?_cons]
    cases (rest.filterMap resizeOf).getLast? <;> rfl

lemma lastResize_concat (controls : List SshTerminalControl) (control : SshTerminalControl) :
    lastResize (controls ++ [control]) = (resizeOf control).or (lastResize controls) := by
  unfold lastResize
  rw [filterMap_append, getLast?_append]
  cases asks : resizeOf control with
  | none => rw [filterMap_cons_none asks]; rfl
  | some size => rw [filterMap_cons_some asks]; rfl

/-- The last call is the last one in the queue, and without one there the server knows it. -/
structure Follows (request : NativeSshTerminalRequest) (t : Terminal) : Prop where
  queued : t.phase ≠ .ended → ∀ size, t.unread = some size → t.wanted request = size
  told : t.HasPty → t.unread = none → t.known = some (t.wanted request)

lemma wanted_congr (same : t'.resizes = t.resizes) : t'.wanted request = t.wanted request := by
  rw [wanted, wanted, same]

lemma known_congr (same : t'.sent = t.sent) : t'.known = t.known := by
  rw [known, known, same]

lemma unread_congr (same : t'.controls = t.controls) : t'.unread = t.unread := by
  rw [unread, unread, same]

lemma not_hasPty_of_ended (ended : t.phase = .ended) : ¬ t.HasPty :=
  not_hasPty_of_phase ended (by decide) (by decide)

lemma live_of_hasPty (pty : t.HasPty) : t.phase ≠ .ended :=
  fun ended => not_hasPty_of_ended ended pty

lemma Follows.change (f : Follows request t) (change : Change request t e t')
    (current : PtyCurrent request t e) : Follows request t' := by
  cases change with
  | ended phase =>
    exact ⟨fun live => absurd phase live, fun pty => absurd pty (not_hasPty_of_ended phase)⟩
  | kept live controls resizes sent =>
    refine ⟨fun _ size there => ?_, fun pty nothing => ?_⟩
    · rw [unread_congr controls] at there
      rw [wanted_congr resizes]
      exact f.queued live size there
    · obtain ⟨pty, sent⟩ := sent pty
      rw [unread_congr controls] at nothing
      rw [wanted_congr resizes, known_congr sent]
      exact f.told pty nothing
  | called live control controls resizes asks phase sent =>
    have unread' : t'.unread = (resizeOf control).or t.unread := by
      rw [unread, controls, lastResize_concat]
      rfl
    cases asked : resizeOf control with
    | some size =>
      rw [asked] at unread' resizes
      have wanted' : t'.wanted request = size := by
        rw [wanted, resizes, toList_some, getLast?_concat]
        rfl
      refine ⟨fun _ other there => ?_, fun _ nothing => ?_⟩
      · rw [unread'] at there
        exact wanted'.trans (Option.some.inj there)
      · rw [unread'] at nothing
        cases nothing
    | none =>
      rw [asked, none_or] at unread'
      rw [asked, toList_none, append_nil] at resizes
      refine ⟨fun _ other there => ?_, fun pty nothing => ?_⟩
      · rw [unread'] at there
        rw [wanted_congr resizes]
        exact f.queued live other there
      · rw [unread'] at nothing
        rw [wanted_congr resizes, known_congr sent]
        exact f.told (by rwa [HasPty, phase] at pty) nothing
  | lost live control controls resizes no_pty =>
    refine ⟨fun _ size there => ?_, fun pty => absurd pty no_pty⟩
    rw [wanted_congr resizes]
    refine f.queued live size ?_
    change lastResize t'.controls = some size at there
    rw [unread, controls, lastResize_cons, there]
    rfl
  | asked asks live controls resizes sent =>
    refine ⟨fun _ size there => ?_, fun _ nothing => ?_⟩
    · rw [unread_congr controls] at there
      rw [wanted_congr resizes]
      exact f.queued live size there
    · rw [unread_congr controls] at nothing
      rw [wanted_congr resizes, current asks nothing, known, sent, getLast?_concat]
      rfl
  | told pty control controls resizes sent =>
    have unread' : t.unread = t'.unread.or (resizeOf control) := by
      rw [unread, controls, lastResize_cons]
      rfl
    refine ⟨fun _ size there => ?_, fun _ nothing => ?_⟩
    · rw [wanted_congr resizes]
      exact f.queued (live_of_hasPty pty) size (by rw [unread', there]; rfl)
    · rw [nothing, none_or] at unread'
      rw [wanted_congr resizes, known, sent]
      cases asked : resizeOf control with
      | none =>
        rw [map_none, toList_none, append_nil]
        exact f.told pty (unread'.trans asked)
      | some size =>
        rw [map_some, toList_some, getLast?_concat,
          f.queued (live_of_hasPty pty) size (unread'.trans asked)]
        rfl

lemma follows_initial (request : NativeSshTerminalRequest) : Follows request initial :=
  ⟨fun _ _ there => (nomatch there), fun pty => pty.elim (fun h => nomatch h) (fun h => nomatch h)⟩

/-- The last call was lost before the pseudo-terminal was requested. -/
structure Missed (request : NativeSshTerminalRequest) (t : Terminal) : Prop where
  unread : t.HasPty → t.unread = none
  known : t.HasPty → t.known = some request.size
  wanted : t.wanted request ≠ request.size

lemma Missed.change (m : Missed request t) (change : Change request t e t')
    (no_call : resizeCall e = none) (no_pty : asksPty e = false) (live' : t'.phase ≠ .ended) :
    Missed request t' := by
  cases change with
  | ended phase => exact absurd phase live'
  | kept live controls resizes sent =>
    refine ⟨fun pty => ?_, fun pty => ?_, by rw [wanted_congr resizes]; exact m.wanted⟩
    · rw [unread_congr controls]
      exact m.unread (sent pty).1
    · rw [known_congr (sent pty).2]
      exact m.known (sent pty).1
  | called live control controls resizes asks phase sent =>
    rw [no_call] at asks
    rw [asks, toList_none, append_nil] at resizes
    have same : t'.HasPty → t.HasPty := fun pty => by rwa [HasPty, phase] at pty
    refine ⟨fun pty => ?_, fun pty => ?_, by rw [wanted_congr resizes]; exact m.wanted⟩
    · have nothing := m.unread (same pty)
      change lastResize t'.controls = none
      rw [controls, lastResize_concat, asks]
      exact nothing
    · rw [known_congr sent]
      exact m.known (same pty)
  | lost live control controls resizes no_pty =>
    exact ⟨fun pty => absurd pty no_pty, fun pty => absurd pty no_pty,
      by rw [wanted_congr resizes]; exact m.wanted⟩
  | asked asks => exact absurd (no_pty.symm.trans asks) Bool.false_ne_true
  | told pty control controls resizes sent =>
    have nothing := m.unread pty
    change lastResize t.controls = none at nothing
    rw [controls, lastResize_cons, or_eq_none_iff] at nothing
    rw [nothing.2, map_none, toList_none, append_nil] at sent
    refine ⟨fun _ => nothing.1, fun _ => ?_, by rw [wanted_congr resizes]; exact m.wanted⟩
    rw [known_congr sent]
    exact m.known pty

lemma step_ended (ended : t.phase = .ended) (taken : t.step request e = some t') :
    t'.phase = .ended := by
  cases change_step taken with
  | ended phase => exact phase
  | kept live => exact absurd ended live
  | called live => exact absurd ended live
  | lost live => exact absurd ended live
  | asked _ live => exact absurd ended live
  | told pty => exact absurd ended (live_of_hasPty pty)

/-- In every run in which no pseudo-terminal is requested after a lost call, the server knows the
wanted size; where one is requested after a lost call, it does not know it until the next call or
the next connection. -/
theorem server_knows_size (request : NativeSshTerminalRequest) :
    (∀ events t, run (step request) initial events = some t →
      Along (step request) (PtyCurrent request) initial events → ServerKnows request t) ∧
    ∀ before t t₁ after t₂, run (step request) initial before = some t →
      t.step request .requestPty = some t₁ → ¬ PtyCurrent request t .requestPty →
      (∀ e ∈ after, resizeCall e = none ∧ asksPty e = false) →
      run (step request) t₁ after = some t₂ → t₂.phase = .eventLoop →
      t₂.known ≠ some (t₂.wanted request) := by
  constructor
  · intro events t ran along loop read
    have follows : Follows request t :=
      along_invariant (fun s e s' taken current f => f.change (change_step taken) current) along
        ran (follows_initial request)
    refine follows.told (.inr loop) ?_
    rw [unread, read]
    rfl
  · intro before t t₁ after t₂ _ asked missed quiet ran loop
    rw [PtyCurrent, Classical.not_imp, Classical.not_imp] at missed
    obtain ⟨-, nothing, differ⟩ := missed
    rw [step, ite_none_right_eq_some] at asked
    obtain ⟨-, made⟩ := asked
    cases made
    have start : Missed request
        { t with phase := .allocated, sent := t.sent ++ [.requestPty request.size] } := by
      refine ⟨fun _ => nothing, fun _ => ?_, differ⟩
      rw [known, getLast?_concat]
      rfl
    have kept := along_invariant (P := fun s => s.phase ≠ .ended → Missed request s)
      (fun s e s' taken quiet m live =>
        (m fun ended => live (step_ended ended taken)).change (change_step taken) quiet.1 quiet.2 live)
      (along_of_forall (C := fun _ e => resizeCall e = none ∧ asksPty e = false)
        (fun e member _ => quiet e member) _) ran (fun _ => start)
    have lost := kept (by rw [loop]; decide)
    rw [lost.known (.inr loop)]
    exact fun same => lost.wanted (Option.some.inj same).symm

section Example

def small : PtySize := ⟨80, 24, 0, 0⟩

def large : PtySize := ⟨200, 50, 0, 0⟩

def tmuxRequest : NativeSshTerminalRequest :=
  { size := small, authNeedsInput := true, useTmux := true, tmuxSessionId := some "kk".toList }

/-- A resize while the password is typed. -/
def resizedAtPrompt : List Event :=
  [.beginPrompt "Password: ".toList false, .resize large, .readPrompt, .writeInput [112, 13],
    .readPrompt]

/-- A resize before the connection is lost. -/
def resizedBeforeResume : List Event :=
  [.requestPty, .startShell, .resize large, .readControl (.ok ()), .disconnect, .resume]

def resizedAtStart : List Event :=
  [.resize large, .requestPty, .startShell, .readControl (.ok ())]

theorem server_knows_size_in_use :
    (∃ t, run (step tmuxRequest) initial resizedAtStart = some t ∧ ServerKnows tmuxRequest t) ∧
    ∃ t t₁ t₂, run (step tmuxRequest) initial resizedAtPrompt = some t ∧
      t.step tmuxRequest .requestPty = some t₁ ∧
      run (step tmuxRequest) t₁ [.startShell] = some t₂ ∧
      t₂.known ≠ some (t₂.wanted tmuxRequest) := by
  constructor
  · refine ⟨_, rfl, ?_⟩
    exact (server_knows_size tmuxRequest).1 resizedAtStart _ rfl (by decide)
  · refine ⟨_, _, _, rfl, rfl, rfl, ?_⟩
    exact (server_knows_size tmuxRequest).2 resizedAtPrompt _ _ [.startShell] _ rfl rfl (by decide)
      (by decide) rfl rfl

/-- The size that was asked for at the prompt, or before the connection was lost, is not told. -/
theorem size_is_lost :
    (∃ t, run (step tmuxRequest) initial (resizedAtPrompt ++ [.requestPty, .startShell]) = some t ∧
      ¬ ServerKnows tmuxRequest t) ∧
    ∃ t, run (step tmuxRequest) initial (resizedBeforeResume ++ [.requestPty, .startShell]) =
      some t ∧ ¬ ServerKnows tmuxRequest t := by
  constructor
  · refine ⟨_, rfl, fun knows => ?_⟩
    exact absurd (knows rfl rfl) (by decide)
  · refine ⟨_, rfl, fun knows => ?_⟩
    exact absurd (knows rfl rfl) (by decide)

end Example

end Terminal

end Ssh
