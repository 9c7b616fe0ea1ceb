import KKTerm.Watchdog.Task

/-!
# The suppression window

After a recorded intervention the loop samples on, but nothing fires until the deadline, and
what is true all the while has to hold for a whole sustained window after it.
-/

namespace Watchdog

open Loop List Runs

section Window
variable {calendar : Nat → LocalTime} {config : WatchdogConfig} {e : Entry} {s : LoopState}
  {p : Poll} {deadline : Nat}

/-- The clock at the gate and at the detector of a tick, and where a window is entered. -/
def Loop.Event.times : Loop.Event → List Nat
  | .poll p => [p.clock .suppression, p.clock .sustainedWindow]
  | .recorded _ clock => [clock .suppressed]
  | _ => []

variable (calendar config) in
/-- The predicate holds of the sample that a tick takes. -/
def Loop.Met : Loop → Loop.Event → Prop
  | polling _ s, .poll p =>
    evaluatePredicate config.trigger.predicate (sampleTarget calendar config.target p s).1 = true
  | _, _ => False

variable (calendar) in
lemma sampleTarget_frame (target : WatchdogTarget) (p : Poll) (s : LoopState) :
    (sampleTarget calendar target p s).2.suppressionUntil = s.suppressionUntil ∧
      (sampleTarget calendar target p s).2.conditionTrueSince = s.conditionTrueSince := by
  cases target <;> exact ⟨rfl, rfl⟩

lemma closeTick_triggers (clock : Reading → Nat) (fired : Bool) (e : Entry) (s : LoopState) :
    (closeTick config clock fired e s).entry.triggers = e.triggers := by
  rw [closeTick]
  split <;> rfl

lemma tick_suppressed (inside : s.suppressionUntil = some deadline)
    (early : p.clock .suppression < deadline) :
    ∃ e' s', tick calendar config p e s = closeTick config p.clock false e' s' ∧
      e'.triggers = e.triggers ∧ s'.suppressionUntil = some deadline ∧
      s'.conditionTrueSince = none := by
  obtain ⟨gate, -⟩ := sampleTarget_frame calendar config.target p s
  rw [inside] at gate
  rw [tick]
  generalize sampleTarget calendar config.target p s = sampled at gate
  obtain ⟨value, s₁⟩ := sampled
  simp only at gate
  simp only [react, gateSuppression, gate, if_pos early, if_true]
  obtain ⟨triggers, kept, reset⟩ := clearSticky_frame p.clock
    (evaluatePredicate config.trigger.predicate value)
    (e.pushTick value (evaluatePredicate config.trigger.predicate value) (p.clock .pushTick))
    { s₁ with
      pollCount := u32Succ s₁.pollCount, suppressionUntil := some deadline
      conditionTrueSince := none }
  exact ⟨_, _, rfl, triggers, kept, reset⟩

lemma tick_passed (passes : ∀ deadline ∈ s.suppressionUntil, deadline ≤ p.clock .suppression) :
    let sampled := (sampleTarget calendar config.target p s).1
    ∃ e' s', e'.triggers = e.triggers ∧ s'.suppressionUntil = none ∧
      s'.conditionTrueSince = s.conditionTrueSince ∧
      tick calendar config p e s =
        let window := updateSustainedWindow s'
          (evaluatePredicate config.trigger.predicate sampled) config.trigger.sustainedForMs
          (p.clock .sustainedWindow)
        if window.2 then fire config p.clock sampled e' window.1
        else closeTick config p.clock false e' window.1 := by
  obtain ⟨gate, since⟩ := sampleTarget_frame calendar config.target p s
  rw [tick]
  generalize sampleTarget calendar config.target p s = sampled at gate since
  obtain ⟨value, s₁⟩ := sampled
  simp only at gate since
  intro
  simp only [react]
  have open_ : ∃ e' s', gateSuppression p.clock (e.pushTick value
        (evaluatePredicate config.trigger.predicate value) (p.clock .pushTick))
        { s₁ with pollCount := u32Succ s₁.pollCount } = (false, e', s') ∧
      e'.triggers = e.triggers ∧ s'.suppressionUntil = none ∧
      s'.conditionTrueSince = s.conditionTrueSince := by
    rw [gateSuppression]
    simp only [gate]
    cases until_ : s.suppressionUntil with
    | none => exact ⟨_, _, rfl, rfl, rfl, since⟩
    | some deadline =>
      simp only [if_neg (Nat.not_lt.mpr (passes deadline until_))]
      exact ⟨_, _, rfl, rfl, rfl, since⟩
  obtain ⟨e', s', opened, triggers, quiet, kept⟩ := open_
  obtain ⟨triggers', quiet', kept'⟩ := clearSticky_frame p.clock
    (evaluatePredicate config.trigger.predicate value) e' s'
  refine ⟨_, _, triggers'.trans triggers, quiet'.trans quiet, kept'.trans kept, ?_⟩
  rw [opened]
  simp only [Bool.false_eq_true, if_false]
  rfl

/-- Between ticks of a window that is not over, or at the end. -/
def Loop.Suppressed (deadline : Nat) (loop : Loop) : Prop :=
  (∃ e, loop = returned e) ∨
    ∃ e s, loop = polling e s ∧ s.suppressionUntil = some deadline ∧ s.conditionTrueSince = none

lemma closeTick_suppressed {fired : Bool} {clock : Reading → Nat}
    (inside : s.suppressionUntil = some deadline) (reset : s.conditionTrueSince = none) :
    (closeTick config clock fired e s).Suppressed deadline := by
  rw [closeTick]
  split
  · exact .inl ⟨_, rfl⟩
  · exact .inr ⟨_, _, rfl, inside, reset⟩

lemma step_suppressed {loop loop' : Loop} {event : Loop.Event}
    (suppressed : loop.Suppressed deadline) (early : ∀ now ∈ event.times, now < deadline)
    (stepped : step calendar config loop event = some loop') :
    loop'.Suppressed deadline ∧ loop'.entry.triggers = loop.entry.triggers := by
  rcases suppressed with ⟨e, rfl⟩ | ⟨e, s, rfl, inside, reset⟩
  · cases event <;> cases stepped
  · cases event with
    | poll p =>
      cases stepped
      obtain ⟨e', s', closes, triggers, inside', reset'⟩ :=
        @tick_suppressed calendar config e s p deadline inside (early _ mem_cons_self)
      rw [closes, closeTick_triggers]
      exact ⟨closeTick_suppressed inside' reset', triggers⟩
    | canceled now =>
      cases stepped
      exact ⟨.inl ⟨_, rfl⟩, rfl⟩
    | recorded record clock => cases stepped
    | timedOut now => cases stepped

/-- A recorded outcome that does not end the loop enters the window. -/
lemma resume_suppressed {maxInterventions suppressionMs : Nat}
    (action : config.action = .aiIntervene maxInterventions suppressionMs)
    (record : WatchdogInterventionRecord) (clock : Reading → Nat)
    (fits : clock .suppressed + suppressionMs < 2 ^ 64) :
    (resume config clock record e s).Suppressed (clock .suppressed + suppressionMs) := by
  simp only [resume, action]
  cases record.completionReason with
  | some reason => exact .inl ⟨_, rfl⟩
  | none =>
    simp only
    split
    · exact .inl ⟨_, rfl⟩
    · rw [Nat.mod_eq_of_lt fits]
      exact closeTick_suppressed rfl rfl

lemma run_suppressed {loop loop' : Loop} {events : List Loop.Event}
    (suppressed : loop.Suppressed deadline)
    (early : ∀ event ∈ events, ∀ now ∈ event.times, now < deadline)
    (ran : run (step calendar config) loop events = some loop') :
    loop'.Suppressed deadline := by
  induction events generalizing loop with
  | nil =>
    cases ran
    exact suppressed
  | cons event events ih =>
    obtain ⟨loop₁, stepped, ran⟩ := run_cons_eq_some.mp ran
    obtain ⟨here, later⟩ := forall_mem_cons.mp early
    exact ih (step_suppressed suppressed here stepped).1 later ran

lemma updateSustainedWindow_some (s : LoopState) (met : Bool) (threshold now : Nat) :
    let window := updateSustainedWindow s met (some threshold) now
    let since := s.conditionTrueSince.getD now
    window.1.suppressionUntil = s.suppressionUntil ∧
      (window.2 = true → met = true ∧ since ≠ u64Max ∧ threshold ≤ now - since) ∧
      (window.2 = false → ∀ mark ∈ window.1.conditionTrueSince, met = true ∧ mark = since) := by
  intro window since
  simp only [window, since, updateSustainedWindow]
  cases met with
  | false => simp
  | true =>
    simp only [Bool.not_true, Bool.false_eq_true, if_false]
    split
    · simp
    · rename_i going
      split
      · rename_i elapsed
        simpa using ⟨going, elapsed⟩
      · simp

section Watching
variable (calendar config) {loop₀ : Loop} {polls : List Poll} {since : Nat}

/-- The predicate has held at each tick from one past the deadline on, with its clock at
`since`. -/
def Fresh (loop₀ : Loop) (deadline : Nat) (polls : List Poll) (since : Nat) : Prop :=
  ∃ before q window, polls = before ++ q :: window ∧ deadline ≤ q.clock .suppression ∧
    since = q.clock .sustainedWindow ∧
    ∀ loop ∈ Runs.run (step calendar config) loop₀ (before.map .poll),
      Runs.Along (step calendar config) (Met calendar config) loop ((q :: window).map .poll)

/-- The window is not over, or a running streak has begun past it. -/
def Watches (loop₀ : Loop) (deadline : Nat) (polls : List Poll) : Loop → Prop
  | polling _ s =>
    (s.suppressionUntil = some deadline ∧ s.conditionTrueSince = none) ∨
      s.suppressionUntil = none ∧ (∃ r ∈ polls, deadline ≤ r.clock .suppression) ∧
        ∀ since ∈ s.conditionTrueSince, since ≠ u64Max →
          Fresh calendar config loop₀ deadline polls since
  | _ => True

variable {calendar config}

lemma fresh_start {loop : Loop} (past : deadline ≤ p.clock .suppression)
    (ran : run (step calendar config) loop₀ (polls.map .poll) = some loop)
    (met : Met calendar config loop (.poll p)) :
    Fresh calendar config loop₀ deadline (polls ++ [p]) (p.clock .sustainedWindow) := by
  refine ⟨polls, p, [], rfl, past, rfl, fun loop' ran' => ?_⟩
  obtain rfl : loop = loop' := Option.some.inj (ran.symm.trans ran')
  exact ⟨met, fun _ _ => trivial⟩

lemma Fresh.extend {loop : Loop} (fresh : Fresh calendar config loop₀ deadline polls since)
    (ran : run (step calendar config) loop₀ (polls.map .poll) = some loop)
    (met : Met calendar config loop (.poll p)) :
    Fresh calendar config loop₀ deadline (polls ++ [p]) since := by
  obtain ⟨before, q, window, rfl, past, at_, held⟩ := fresh
  refine ⟨before, q, window ++ [p], by simp, past, at_, fun loop₁ ran₁ => ?_⟩
  rw [← cons_append, map_append]
  refine along_append.mpr ⟨held loop₁ ran₁, fun loop₂ ran₂ => ?_⟩
  have whole := run_append_eq_some.mpr ⟨loop₁, ran₁, ran₂⟩
  rw [← map_append, ran] at whole
  cases whole
  exact ⟨met, fun _ _ => trivial⟩

/-- A tick keeps the watch, and when it fires a fresh window is over. -/
lemma tick_watches {maxInterventions suppressionMs threshold : Nat}
    (action : config.action = .aiIntervene maxInterventions suppressionMs)
    (sustained : config.trigger.sustainedForMs = some threshold)
    (ran : run (step calendar config) loop₀ (polls.map .poll) = some (polling e s))
    (ordered : ∀ r ∈ polls, r.clock .suppression ≤ p.clock .suppression)
    (watches : Watches calendar config loop₀ deadline polls (polling e s)) :
    Watches calendar config loop₀ deadline (polls ++ [p]) (tick calendar config p e s) ∧
      ((tick calendar config p e s).entry.triggers ≠ e.triggers →
        ∃ since, Fresh calendar config loop₀ deadline (polls ++ [p]) since ∧
          threshold ≤ p.clock .sustainedWindow - since) := by
  by_cases early : s.suppressionUntil = some deadline ∧ p.clock .suppression < deadline
  · obtain ⟨e', s', closes, triggers, inside, reset⟩ := tick_suppressed early.1 early.2
    rw [closes, closeTick_triggers]
    refine ⟨?_, fun fired => absurd triggers fired⟩
    rw [closeTick]
    split
    · trivial
    · exact .inl ⟨inside, reset⟩
  · have past : deadline ≤ p.clock .suppression := by
      rcases watches with ⟨inside, -⟩ | ⟨-, ⟨r, member, reached⟩, -⟩
      · exact Nat.le_of_not_lt (fun below => early ⟨inside, below⟩)
      · exact reached.trans (ordered r member)
    have passes : ∀ until_ ∈ s.suppressionUntil, until_ ≤ p.clock .suppression := by
      intro until_ given
      rcases watches with ⟨inside, -⟩ | ⟨quiet, -⟩
      · rw [inside] at given
        exact Option.some.inj given ▸ past
      · rw [quiet] at given
        cases given
    -- The streak goes back to a tick past the deadline, this one at the latest.
    have streak (met : Met calendar config (polling e s) (.poll p)) :
        let since := s.conditionTrueSince.getD (p.clock .sustainedWindow)
        since ≠ u64Max → Fresh calendar config loop₀ deadline (polls ++ [p]) since := by
      intro since going
      cases marked : s.conditionTrueSince with
      | none =>
        simp only [since, marked]
        exact fresh_start past ran met
      | some mark =>
        rcases watches with ⟨-, reset⟩ | ⟨-, -, fresh⟩
        · rw [reset] at marked
          cases marked
        · simp only [since, marked, Option.getD_some] at going ⊢
          exact (fresh mark marked going).extend ran met
    obtain ⟨e', s', triggers, quiet, kept, reacts⟩ := tick_passed passes
    obtain ⟨quiet', fires, closes⟩ := updateSustainedWindow_some s'
      (evaluatePredicate config.trigger.predicate (sampleTarget calendar config.target p s).1)
      threshold (p.clock .sustainedWindow)
    rw [reacts, sustained]
    rw [kept] at fires closes
    simp only
    split
    · rename_i fired
      refine ⟨?_, fun _ => ?_⟩
      · simp only [fire, action]
        trivial
      · obtain ⟨met, going, elapsed⟩ := fires fired
        exact ⟨_, streak met going, elapsed⟩
    · rename_i silent
      rw [closeTick_triggers]
      refine ⟨?_, fun fired => absurd triggers fired⟩
      rw [closeTick]
      split
      · trivial
      · refine Or.inr ⟨quiet'.trans quiet, ⟨p, by simp, past⟩, fun mark given going => ?_⟩
        obtain ⟨met, rfl⟩ := closes (by simpa using silent) mark given
        exact streak met going

lemma run_watches {maxInterventions suppressionMs threshold : Nat}
    (action : config.action = .aiIntervene maxInterventions suppressionMs)
    (sustained : config.trigger.sustainedForMs = some threshold)
    (suppressed : loop₀.Suppressed deadline) {loop : Loop}
    (ordered : (polls.map (·.clock .suppression)).Pairwise (· ≤ ·))
    (ran : run (step calendar config) loop₀ (polls.map .poll) = some loop) :
    Watches calendar config loop₀ deadline polls loop := by
  induction polls using reverseRecOn generalizing loop with
  | nil =>
    cases ran
    rcases suppressed with ⟨e, rfl⟩ | ⟨e, s, rfl, inside⟩
    · trivial
    · exact .inl inside
  | append_singleton polls p ih =>
    rw [map_append] at ran ordered
    obtain ⟨before, last⟩ := pairwise_append.mp ordered |>.imp_right And.right
    obtain ⟨loop₁, ran₁, stepped⟩ := run_append_eq_some.mp ran
    obtain ⟨loop₂, stepped, done⟩ := run_cons_eq_some.mp stepped
    cases done
    cases loop₁ with
    | polling e s =>
      cases stepped
      refine (tick_watches action sustained ran₁ ?_ (ih before ran₁)).1
      intro r member
      exact last _ (mem_map_of_mem member) _ (mem_singleton_self _)
    | parked e s => cases stepped
    | returned e => cases stepped

end Watching

lemma gates_ordered {polls : List Poll}
    (ordered : ((polls.map Loop.Event.poll).flatMap Loop.Event.times).Pairwise (· ≤ ·)) :
    (polls.map (·.clock .suppression)).Pairwise (· ≤ ·) := by
  rw [pairwise_flatMap, pairwise_map] at ordered
  rw [pairwise_map]
  refine ordered.2.imp fun earlier => ?_
  exact earlier _ mem_cons_self _ mem_cons_self

end Window

/-- While no deadline overflows, nothing fires before the deadline of a recorded intervention, and
what fires first after it has held for a whole sustained window that began past the deadline. -/
theorem suppression_lasts {config : WatchdogConfig} {maxInterventions suppressionMs : Nat}
    (action : config.action = .aiIntervene maxInterventions suppressionMs)
    (calendar : Nat → LocalTime) (startedAt : Nat) (earlier : List Loop.Event)
    (record : WatchdogInterventionRecord) (clock : Reading → Nat) (events : List Loop.Event)
    (p : Poll) {entered loop loop' : Loop}
    (recorded : Runs.run (step calendar config) (.start startedAt)
      (earlier ++ [.recorded record clock]) = some entered)
    (fits : clock .suppressed + suppressionMs < 2 ^ 64)
    (ran : Runs.run (step calendar config) entered events = some loop)
    (ticked : step calendar config loop (.poll p) = some loop')
    (ordered : ((events ++ [Loop.Event.poll p]).flatMap Loop.Event.times).Pairwise (· ≤ ·)) :
    (p.clock .suppression < clock .suppressed + suppressionMs →
      loop'.entry.triggers = loop.entry.triggers) ∧
    ∀ threshold polls, config.trigger.sustainedForMs = some threshold →
      events = polls.map .poll → loop'.entry.triggers ≠ loop.entry.triggers →
      ∃ since, threshold ≤ p.clock .sustainedWindow - since ∧
        Fresh calendar config entered (clock .suppressed + suppressionMs) (polls ++ [p]) since := by
  have suppressed : entered.Suppressed (clock .suppressed + suppressionMs) := by
    obtain ⟨parked_, -, last⟩ := run_append_eq_some.mp recorded
    obtain ⟨_, stepped, done⟩ := run_cons_eq_some.mp last
    cases done
    cases parked_ with
    | parked e s =>
      cases stepped
      exact resume_suppressed action record clock fits
    | polling e s => cases stepped
    | returned e => cases stepped
  rw [flatMap_append, pairwise_append] at ordered
  obtain ⟨before, -, last⟩ := ordered
  have gate : p.clock .suppression ∈ [Loop.Event.poll p].flatMap Loop.Event.times := by
    simp [Loop.Event.times]
  constructor
  · intro early
    have all : ∀ event ∈ events, ∀ now ∈ event.times, now < clock .suppressed + suppressionMs := by
      intro event member now inside
      have := last now (mem_flatMap.mpr ⟨event, member, inside⟩) _ gate
      omega
    cases loop with
    | polling e s =>
      cases ticked
      rcases run_suppressed suppressed all ran with ⟨_, same⟩ | ⟨_, _, same, inside, -⟩
      · cases same
      · cases same
        obtain ⟨e', s', closes, triggers, -⟩ := tick_suppressed inside early
        rw [closes, closeTick_triggers]
        exact triggers
    | parked e s => cases ticked
    | returned e => cases ticked
  · rintro threshold polls sustained rfl fired
    have gates := gates_ordered before
    cases loop with
    | polling e s =>
      cases ticked
      have watches := run_watches action sustained suppressed gates ran
      have earlier_ : ∀ r ∈ polls, r.clock .suppression ≤ p.clock .suppression := by
        intro r member
        have inside : r.clock .suppression ∈ (Loop.Event.poll r).times := mem_cons_self
        exact last _ (mem_flatMap.mpr ⟨_, mem_map_of_mem member, inside⟩) _ gate
      obtain ⟨since, fresh, elapsed⟩ := (tick_watches action sustained ran earlier_ watches).2 fired
      exact ⟨since, elapsed, fresh⟩
    | parked e s => cases ticked
    | returned e => cases ticked

/-- Fires at every tick that is not suppressed. -/
def alwaysMet (suppressionMs : Nat) : WatchdogConfig :=
  { target := .mock 1, trigger := ⟨.gte 1, none⟩, stop := .untilCanceled
    action := .aiIntervene 2 suppressionMs }

/-- An outcome recorded at a time, which does not complete the task. -/
def recordAt (now : Nat) : Loop.Event :=
  .recorded ⟨true, "", none⟩ (fun _ => now)

theorem alwaysMet_waits : ∃ loop loop',
    Runs.run (step firstOfApril (alwaysMet 1000)) (.start 0) [.poll (pollAt 0), recordAt 0] =
        some loop ∧
      step firstOfApril (alwaysMet 1000) loop (.poll (pollAt 5)) = some loop' ∧
      loop'.entry.triggers = loop.entry.triggers := by
  have whole : (run (step firstOfApril (alwaysMet 1000)) (.start 0)
      ([.poll (pollAt 0), recordAt 0] ++ [.poll (pollAt 5)])).isSome := by decide +kernel
  obtain ⟨loop', whole⟩ := Option.isSome_iff_exists.mp whole
  obtain ⟨loop, recorded, last⟩ := run_append_eq_some.mp whole
  obtain ⟨_, ticked, done⟩ := run_cons_eq_some.mp last
  cases done
  have lasts := suppression_lasts rfl firstOfApril 0 [.poll (pollAt 0)] _ _ [] (pollAt 5) recorded
    (by decide) rfl ticked (by simp [Loop.Event.times, pollAt])
  exact ⟨loop, loop', recorded, ticked, lasts.1 (by decide)⟩

/-- The longest suppression ends before it begins. -/
def longestSuppression : SubmittedConfig :=
  { alwaysMet u64Max with
    name := ['w'], pollMs := 500, allowedTools := [['t']]
    u32_maxInterventions := by
      intro maxInterventions suppressionMs same
      cases same
      decide }

/-- Recorded at 1, the deadline is 0, and the tick at 2 fires. -/
theorem overflowing_suppression_fires :
    validateConfig longestSuppression = .ok () ∧
      (Runs.run (step firstOfApril longestSuppression.toWatchdogConfig) (.start 0)
        [.poll (pollAt 0), recordAt 1]).map (·.entry.triggers.length) = some 1 ∧
      (Runs.run (step firstOfApril longestSuppression.toWatchdogConfig) (.start 0)
        [.poll (pollAt 0), recordAt 1, .poll (pollAt 2)]).map (·.entry.triggers.length) =
          some 2 := by
  exact ⟨by rfl, by decide +kernel, by decide +kernel⟩

end Watchdog
