import KKTerm.Watchdog.Task

/-!
# Records of interventions

`record_intervention` takes the sender but leaves the state to the parked loop,
which changes it when it wakes up. A record that comes in between joins the same
episode. Where every record finds its sender, each episode has at most one, and
their number stays within the cap.
-/

namespace Watchdog

open List

/-- Where a program stands with respect to interventions. -/
inductive Phase where
  | idle
  | installed
  | waiting
  | woken
  deriving DecidableEq

/-- The phase behind a section, if the section may run in this phase. -/
def LockSection.advance : LockSection → Phase → Option Phase
  | pushTick .., .idle | transitionToRunning .., .idle | recordTrigger .., .idle
  | applyTriggeredState .., .idle => some .idle
  | installInterventionSender, .idle => some .installed
  | currentInterventionCount, .installed => some .installed
  | intervening .., .installed => some .waiting
  | clearInterventionSender, .waiting => some .woken
  | currentInterventionCount, .woken => some .woken
  | suppressed .., .woken => some .idle
  | _, _ => none

def Program.Parked : Program → Prop
  | .park .. => True
  | _ => False

/-- The program runs its sections in their phases. It starts an episode or waits
for a tick only below the cap, and an episode starts with parking. -/
def Program.Safe (cap count : Nat) : Program → Phase → Prop
  | .select _, phase => phase = .idle ∧ count < cap
  | .park maxInterventions _ _, phase => phase = .waiting ∧ maxInterventions = cap
  | .finalize _, _ => True
  | .locked sec next, phase =>
    ∃ phase', sec.advance phase = some phase' ∧
      (phase' = .waiting → count < cap ∧ ∀ e, (next e).Parked) ∧
      ∀ e : Entry, e.interventionCount = count → (next e).Safe cap count phase'

namespace Program
variable {cap count : Nat} {config : WatchdogConfig} {s : LoopState}

lemma safe_thenDo {sec : LockSection} {rest : Program} {phase phase' : Phase}
    (advance : sec.advance phase = some phase') (inside : phase' ≠ .waiting)
    (safe : rest.Safe cap count phase') : (thenDo sec rest).Safe cap count phase :=
  ⟨phase', advance, fun waits => absurd waits inside, fun _ _ => safe⟩

lemma safe_closeTick (below : count < cap) (clock : Reading → Nat) (fired : Bool) :
    (closeTick config clock fired s).Safe cap count .idle := by
  rw [closeTick]
  split
  · trivial
  · exact ⟨rfl, below⟩

lemma safe_intervene (below : count < cap) (clock : Reading → Nat) (suppressionMs : Nat) :
    (intervene clock cap suppressionMs s).Safe cap count .idle := by
  refine safe_thenDo rfl nofun ?_
  refine ⟨.installed, rfl, nofun, fun e _ => ?_⟩
  exact ⟨.waiting, rfl, fun _ => ⟨below, fun _ => trivial⟩, fun _ _ => ⟨rfl, rfl⟩⟩

/-- A configuration that intervenes at most `cap` times, or only notifies. -/
def CappedAt (cap : Nat) : WatchdogAction → Prop
  | .notify => True
  | .aiIntervene maxInterventions _ => maxInterventions = cap

section
variable (capped : CappedAt cap config.action)
include capped

section
variable (below : count < cap)
include below

lemma safe_fire
    (clock : Reading → Nat) (value : Value) : (fire config clock value s).Safe cap count .idle := by
  refine safe_thenDo rfl nofun (safe_thenDo rfl nofun ?_)
  cases action : config.action with
  | notify => exact safe_closeTick below clock true
  | aiIntervene maxInterventions suppressionMs =>
    rw [action] at capped
    cases capped
    exact safe_intervene below clock suppressionMs

lemma safe_detect (clock : Reading → Nat) (value : Value) (met inSuppression : Bool) :
    (detect config clock value met inSuppression s).Safe cap count .idle := by
  rw [detect]
  generalize (if inSuppression then (s, false)
    else updateSustainedWindow s met config.trigger.sustainedForMs (clock .sustainedWindow)) = r
  obtain ⟨s', fired⟩ := r
  cases fired
  · exact safe_closeTick below clock false
  · exact safe_fire capped below clock value

lemma safe_clearSticky (clock : Reading → Nat) (value : Value) (met inSuppression : Bool) :
    (clearSticky config clock value met inSuppression s).Safe cap count .idle := by
  rw [clearSticky]
  split
  · exact safe_thenDo rfl (by rintro ⟨⟩) (safe_detect capped below clock value met inSuppression)
  · exact safe_detect capped below clock value met inSuppression

lemma safe_tick (calendar : Nat → LocalTime) (p : Poll) :
    (tick calendar config p s).Safe cap count .idle := by
  refine safe_thenDo rfl nofun ?_
  rw [gateSuppression]
  split
  · exact safe_clearSticky capped below p.clock _ _ false
  · split
    · exact safe_clearSticky capped below p.clock _ _ true
    · exact safe_thenDo rfl nofun (safe_clearSticky capped below p.clock _ _ false)

end

end

lemma safe_resume (clock : Reading → Nat) (completionReason : Option String) (suppressionMs : Nat) :
    (resume config clock completionReason cap suppressionMs s).Safe cap count .waiting := by
  refine safe_thenDo rfl nofun ?_
  cases completionReason with
  | some reason => trivial
  | none =>
    refine ⟨.woken, rfl, nofun, fun e same => ?_⟩
    dsimp only
    by_cases capped : cap ≤ e.interventionCount
    · rw [if_pos capped]
      trivial
    · rw [if_neg capped]
      have below : count < cap := same ▸ Nat.lt_of_not_le capped
      refine ⟨.woken, rfl, nofun, fun e' _ => ?_⟩
      exact safe_thenDo rfl nofun (safe_closeTick below clock true)

lemma safe_abort (state : Terminal) : (abort state).Safe cap count .waiting :=
  safe_thenDo rfl nofun trivial

end Program

def Phase.Fits (e : Entry) : Phase → Prop
  | .idle => e.state.isIntervening = false ∧ e.interventionTx = false
  | .installed => e.state.isIntervening = false ∧ e.interventionTx = true
  | .waiting => e.state.isIntervening = true
  | .woken => e.state.isIntervening = true ∧ e.interventionTx = false

variable {sec : LockSection} {phase : Phase}

lemma LockSection.advance_waiting (advance : sec.advance phase = some .waiting) :
    ∃ startedAt count, sec = .intervening startedAt count := by
  cases sec <;> cases phase <;> cases advance
  exact ⟨_, _, rfl⟩

lemma Phase.fits_advance {e : Entry} {phase' : Phase} (fits : phase.Fits e)
    (advance : sec.advance phase = some phase') : phase'.Fits (sec.apply e) := by
  cases sec <;> cases phase <;> cases advance
  all_goals first | exact fits | exact ⟨rfl, fits.2⟩ | exact ⟨fits.1, rfl⟩ | exact ⟨fits, rfl⟩ | rfl

namespace WatchdogRun

/-- A signal is on its way to the task. -/
def Signaled (w : WatchdogRun) : Prop :=
  w.sending.isSome = true ∨ w.mailbox.isSome = true

/-- The program waits for a record, or has given up waiting. -/
def Waits (p : Program) : Prop :=
  p.Parked ∨ ∃ state, p = Program.abort state

/-- While the sender is installed the latest episode is empty. -/
structure Open (cap : Nat) (w : WatchdogRun) (p : Program) : Prop where
  waits : Waits p
  below : w.entry.interventionCount < cap
  empty : ∃ earlier, w.episodes = earlier ++ [[]]

inductive Stage (cap : Nat) (w : WatchdogRun) : Prop where
  | returned (task : w.task = .returned) (ended : w.entry.state.isIntervening = false)
  | running (p : Program) (phase : Phase) (task : w.task = .running p) (fits : phase.Fits w.entry)
      (safe : p.Safe cap w.entry.interventionCount phase)
      (opened : phase = .waiting → w.entry.interventionTx = true → Open cap w p)
      (signaled : w.Signaled → w.entry.interventionTx = false ∧
        (Waits p ∨ ∃ state, p = .finalize state))
      (single : w.sending.isSome = true → w.mailbox = none)

/-- Each episode has at most one record, and all are counted. -/
structure Accounted (cap : Nat) (w : WatchdogRun) : Prop where
  single : ∀ episode ∈ w.episodes, episode.length ≤ 1
  recorded : w.entry.interventions = w.episodes.flatten
  counted : w.entry.interventionCount = w.entry.interventions.length
  capped : w.entry.interventionCount ≤ cap

variable {calendar : Nat → LocalTime} {cap : Nat} {w w' : WatchdogRun} {a : Action}

lemma apply_counts (sec : LockSection) (e : Entry) :
    (sec.apply e).interventionCount = e.interventionCount ∧
      (sec.apply e).interventions = e.interventions := by
  cases sec <;> exact ⟨rfl, rfl⟩

lemma Accounted.execute (acc : Accounted cap w) (sec : LockSection) (next : Entry → Program) :
    Accounted cap (w.execute sec next) := by
  obtain ⟨count, interventions⟩ := apply_counts sec w.entry
  have episodes : (w.execute sec next).episodes = w.episodes ∨
      (w.execute sec next).episodes = w.episodes ++ [[]] := by
    cases sec <;> first | exact .inl rfl | exact .inr rfl
  constructor
  · rcases episodes with same | opened
    · rw [same]
      exact acc.single
    · rw [opened]
      intro episode member
      rcases mem_append.mp member with old | new
      · exact acc.single episode old
      · cases mem_singleton.mp new
        exact Nat.zero_le 1
  · refine interventions.trans (acc.recorded.trans ?_)
    rcases episodes with same | opened
    · rw [same]
    · rw [opened, flatten_append]
      exact (append_nil _).symm
  · exact count.trans (acc.counted.trans (congrArg length interventions).symm)
  · exact count.symm ▸ acc.capped

lemma recordEpisode_append (record : WatchdogInterventionRecord)
    (earlier : List (List WatchdogInterventionRecord)) (latest : List WatchdogInterventionRecord) :
    recordEpisode record (earlier ++ [latest]) = earlier ++ [latest ++ [record]] := by
  induction earlier with
  | nil => rfl
  | cons episode earlier ih =>
    cases earlier with
    | nil => rfl
    | cons second earlier => exact congrArg (episode :: ·) ih

variable {next : Entry → Program} {p : Program} {mailbox : Option (Option String)}

lemma Accounted.accept (acc : Accounted cap w) (small : cap ≤ u32Max) (opened : Open cap w p)
    (record : WatchdogInterventionRecord) : Accounted cap (w.accept record) := by
  obtain ⟨_, below, earlier, empty⟩ := opened
  have episodes : (w.accept record).episodes = earlier ++ [[record]] := by
    have joined := recordEpisode_append record earlier []
    rw [← empty] at joined
    exact joined
  have count : (w.accept record).entry.interventionCount = w.entry.interventionCount + 1 := by
    have saturated : (w.accept record).entry.interventionCount =
        min (w.entry.interventionCount + 1) u32Max := rfl
    omega
  have interventions : (w.accept record).entry.interventions =
      w.entry.interventions ++ [record] := rfl
  constructor
  · rw [episodes]
    intro episode member
    rcases mem_append.mp member with old | new
    · exact acc.single episode (empty ▸ mem_append_left _ old)
    · cases mem_singleton.mp new
      exact Nat.le_refl 1
  · rw [interventions, episodes, acc.recorded, empty]
    simp
  · rw [count, interventions, acc.counted, length_append]
    rfl
  · rw [count]
    exact below

lemma not_waits_select {s : LoopState} :
    ¬ (Waits (.select s) ∨ ∃ state, Program.select s = .finalize state) := by
  rintro ((parked | ⟨state, same⟩) | ⟨state, same⟩)
  · exact parked
  · cases same
  · cases same

/-- A section that runs while a signal is on its way is the one that gives up. -/
lemma waits_locked {sec : LockSection}
    (h : Waits (.locked sec next) ∨ ∃ state, Program.locked sec next = .finalize state) :
    sec = .clearInterventionSender ∧ ∃ state, next = fun _ => Program.finalize state := by
  rcases h with (parked | ⟨state, same⟩) | ⟨state, same⟩
  · exact parked.elim
  · cases same
    exact ⟨rfl, state, rfl⟩
  · cases same

lemma Waits.safe (waits : Waits p) {count count' : Nat} (safe : p.Safe cap count .waiting) :
    p.Safe cap count' .waiting := by
  rcases waits with parked | ⟨state, rfl⟩
  · cases p with
    | park maxInterventions suppressionMs s => exact safe
    | _ => exact parked.elim
  · exact Program.safe_abort state

section
variable (stage : Stage cap w)
include stage

lemma Stage.execute {sec : LockSection}
    (task : w.task = .running (.locked sec next)) : Stage cap (w.execute sec next) := by
  cases stage with
  | returned task' =>
    rw [task'] at task
    cases task
  | running p phase task' fits safe opened signaled single =>
    rw [task'] at task
    cases task
    obtain ⟨phase', advance, parks, onward⟩ := safe
    have count := (apply_counts sec w.entry).1
    have mailbox : (w.execute sec next).mailbox = w.mailbox ∨
        (w.execute sec next).mailbox = none := by
      cases sec <;> first | exact .inl rfl | exact .inr rfl
    refine .running (next (sec.apply w.entry)) phase' rfl (Phase.fits_advance fits advance) ?_ ?_ ?_ ?_
    · have kept : (w.execute sec next).entry.interventionCount = w.entry.interventionCount := count
      rw [kept]
      exact onward (sec.apply w.entry) count
    · rintro rfl _
      obtain ⟨below, parked⟩ := parks rfl
      obtain ⟨startedAt, announced, rfl⟩ := LockSection.advance_waiting advance
      exact ⟨.inl (parked _), below, w.episodes, rfl⟩
    · intro moving
      have before : w.Signaled := by
        rcases moving with sending | delivered
        · exact .inl sending
        · rcases mailbox with same | emptied
          · exact .inr (same ▸ delivered)
          · rw [emptied] at delivered
            cases delivered
      obtain ⟨rfl, state, rfl⟩ := waits_locked (signaled before).2
      exact ⟨rfl, .inr ⟨state, rfl⟩⟩
    · intro sending
      rcases mailbox with same | emptied
      · exact same.trans (single sending)
      · exact emptied

lemma Stage.turn (capped : Program.CappedAt cap w.config.action)
    {p' : Program} (task : w.task = .running p) (turns : Turns calendar w p p' mailbox) :
    Stage cap { w with task := .running p', mailbox } := by
  cases stage with
  | returned task' =>
    rw [task'] at task
    cases task
  | running p₀ phase task' fits safe opened signaled single =>
    rw [task'] at task
    cases task
    cases turns with
    | tick s poll =>
      obtain ⟨rfl, below⟩ := safe
      exact .running _ .idle rfl fits (Program.safe_tick capped below calendar poll) nofun
        (fun moving => absurd (signaled moving).2 not_waits_select) single
    | cancel s now =>
      exact .running _ phase rfl fits trivial
        (fun _ _ => by
          obtain ⟨rfl, _⟩ := safe
          contradiction)
        (fun moving => absurd (signaled moving).2 not_waits_select) single
    | abort maxInterventions suppressionMs s state =>
      obtain ⟨rfl, rfl⟩ := safe
      refine .running _ .waiting rfl fits (Program.safe_abort state) (fun _ installed => ?_)
        (fun moving => ⟨(signaled moving).1, .inl (.inr ⟨state, rfl⟩)⟩) single
      obtain ⟨_, below, empty⟩ := opened rfl installed
      exact ⟨.inr ⟨state, rfl⟩, below, empty⟩
    | wake maxInterventions suppressionMs s clock completionReason delivered =>
      obtain ⟨rfl, rfl⟩ := safe
      have taken := (signaled (.inr (by rw [delivered]; rfl))).1
      have sent : ¬ w.sending.isSome = true := by
        intro sending
        have empty := single sending
        rw [delivered] at empty
        cases empty
      refine .running _ .waiting rfl fits (Program.safe_resume clock completionReason suppressionMs)
        (fun _ installed => ?_) (fun moving => ?_) (fun _ => rfl)
      · have installed : w.entry.interventionTx = true := installed
        rw [taken] at installed
        cases installed
      · rcases moving with sending | delivered
        · exact absurd sending sent
        · cases delivered

lemma Stage.opened (intervening : w.entry.state.isIntervening = true)
    (installed : w.entry.interventionTx = true) :
    ∃ p, w.task = .running p ∧ p.Safe cap w.entry.interventionCount .waiting ∧ Open cap w p ∧
      ¬ w.Signaled := by
  cases stage with
  | returned _ ended =>
    rw [ended] at intervening
    cases intervening
  | running p phase task fits safe opened signaled single =>
    have waiting : phase = .waiting := by
      cases phase with
      | waiting => rfl
      | idle | installed =>
        have outside := fits.1
        rw [outside] at intervening
        cases intervening
      | woken =>
        have taken := fits.2
        rw [taken] at installed
        cases installed
    subst waiting
    refine ⟨p, task, safe, opened rfl installed, fun moving => ?_⟩
    have taken := (signaled moving).1
    rw [taken] at installed
    cases installed

lemma Stage.accept (intervening : w.entry.state.isIntervening = true)
    (installed : w.entry.interventionTx = true) (record : WatchdogInterventionRecord) :
    Stage cap (w.accept record) := by
  obtain ⟨p, task, safe, opened, unsignaled⟩ := stage.opened intervening installed
  refine .running p .waiting task intervening (opened.waits.safe safe) nofun
    (fun _ => ⟨rfl, .inl opened.waits⟩) (fun _ => ?_)
  cases delivered : w.mailbox with
  | none => exact delivered
  | some signal => exact absurd (.inr (by rw [delivered]; rfl)) unsignaled

lemma Stage.calls {canceled : Bool} {cancelCalls : Nat} {sending : Option (Option String)}
    (signals : (sending = w.sending ∧ mailbox = w.mailbox) ∨
      sending = none ∧ (mailbox = w.sending ∨ mailbox = w.mailbox)) :
    Stage cap { w with canceled, cancelCalls, sending, mailbox } := by
  cases stage with
  | returned task ended => exact .returned task ended
  | running p phase task fits safe opened signaled single =>
    refine .running p phase task fits safe (fun waiting installed => ?_) (fun moving => signaled ?_)
      (fun sending => ?_)
    · obtain ⟨waits, below, empty⟩ := opened waiting installed
      exact ⟨waits, below, empty⟩
    · rcases signals with ⟨rfl, rfl⟩ | ⟨rfl, rfl | rfl⟩
      · exact moving
      · exact moving.elim (fun none_left => by cases none_left) Or.inl
      · exact moving.elim (fun none_left => by cases none_left) Or.inr
    · rcases signals with ⟨rfl, rfl⟩ | ⟨rfl, _⟩
      · exact single sending
      · cases sending

end

/-- A record that comes while the watchdog intervenes finds its sender. -/
def FindsSender (w : WatchdogRun) : Action → Prop
  | .record _ => w.entry.state.isIntervening = true → w.entry.interventionTx = true
  | _ => True

instance (w : WatchdogRun) : (a : Action) → Decidable (FindsSender w a)
  | .record _ => inferInstanceAs (Decidable (_ → _))
  | .work | .tick _ | .noticeCancel _ | .wake _ | .timeout _ | .channelClosed _ | .cancel
  | .cancelToken | .send | .dropSender => inferInstanceAs (Decidable True)

lemma account_did (small : cap ≤ u32Max) (capped : Program.CappedAt cap w.config.action)
    (finds : FindsSender w a) (did : Did calendar w a w') (stage : Stage cap w)
    (acc : Accounted cap w) : w'.config = w.config ∧ Stage cap w' ∧ Accounted cap w' := by
  cases did with
  | execute sec next task => exact ⟨rfl, stage.execute task, acc.execute sec next⟩
  | finalize state task =>
    refine ⟨rfl, .returned rfl ?_, acc.single, acc.recorded, acc.counted, acc.capped⟩
    obtain ⟨state, terminal⟩ := state
    cases state <;> first | rfl | cases terminal
  | turn p p' mailbox task turns =>
    exact ⟨rfl, stage.turn capped task turns, acc.single, acc.recorded, acc.counted, acc.capped⟩
  | accept record called intervening =>
    subst called
    have installed := finds intervening
    obtain ⟨p, _, _, opened, _⟩ := stage.opened intervening installed
    exact ⟨rfl, stage.accept intervening installed record, acc.accept small opened record⟩
  | calls canceled cancelCalls sending mailbox signals =>
    exact ⟨rfl, stage.calls signals, acc.single, acc.recorded, acc.counted, acc.capped⟩

lemma new_stage {config : WatchdogConfig} (positive : 0 < cap) (startedAt : Nat) :
    Stage cap (new config startedAt) :=
  .running _ .idle rfl ⟨rfl, rfl⟩ (Program.safe_thenDo rfl nofun ⟨rfl, positive⟩) nofun
    (fun moving => by rcases moving with h | h <;> cases h) nofun

lemma new_accounted (config : WatchdogConfig) (startedAt : Nat) :
    Accounted cap (new config startedAt) where
  single episode member := by cases member
  recorded := rfl
  counted := rfl
  capped := Nat.zero_le cap

end WatchdogRun

lemma length_flatten_of_single {α : Type} {episodes : List (List α)}
    (single : ∀ episode ∈ episodes, episode.length ≤ 1) :
    episodes.flatten.length = episodes.countP (fun episode => !episode.isEmpty) := by
  induction episodes with
  | nil => rfl
  | cons episode episodes ih =>
    have rest := ih (fun later hlater => single later (mem_cons_of_mem episode hlater))
    have first := single episode mem_cons_self
    rw [flatten_cons, length_append, rest]
    match episode, first with
    | [], _ => simp
    | [record], _ => simp [Nat.add_comm]

lemma accepted_positive {config : SubmittedConfig} (accepted : validateConfig config = .ok ())
    {maxInterventions suppressionMs : Nat}
    (action : config.action = .aiIntervene maxInterventions suppressionMs) :
    0 < maxInterventions := by
  rcases Nat.eq_zero_or_pos maxInterventions with rfl | positive
  · have rejected : validateAction config =
        .error (.invalidConfig "maxInterventions must be >= 1") := by
      rw [validateAction, action]
      rfl
    simp only [validateConfig, rejected] at accepted
    split at accepted
    · cases accepted
    · split at accepted
      · cases accepted
      · split at accepted <;> cases accepted
  · exact positive

def interveneOnce : SubmittedConfig where
  target := .mock 1
  trigger := ⟨.gte 1, none⟩
  stop := .untilCanceled
  action := .aiIntervene 1 0
  name := ['w']
  pollMs := 1000
  allowedTools := [['t']]
  u32_maxInterventions := by
    intro maxInterventions suppressionMs same
    cases same
    decide

/-- The first poll triggers, and the task parks. -/
def parkActions : List WatchdogRun.Action :=
  [.work, .tick (pollAt 1000), .work, .work, .work, .work, .work, .work]

def noted : WatchdogInterventionRecord :=
  { ok := true, summary := "", completionReason := none }

/-- One record, which the task picks up: the cap is reached and the task ends. -/
def oneRecord : List WatchdogRun.Action :=
  parkActions ++ [.record noted, .send, .wake (fun _ => 1000), .work, .work, .work]

end Watchdog
